import KindCache.Kind
import KindCache.Selector.Printer

/-!
# Queries

A `Query` names a kind and may narrow it by a namespace, a name and a selector.
Only the kind decides which watcher answers; the rest never opens another one.
-/

namespace KindCache

/-- A request against the cache. -/
structure Query where
  /-- the kind that is asked for -/
  gvk : GroupVersionKind
  /-- the namespace; none for all of them -/
  ns : Option String
  /-- the name of one object -/
  name : Option String
  /-- a condition on labels -/
  selector : Option Selector
deriving DecidableEq

namespace Query

/-- The query for all objects of a kind. -/
def ofKind (gvk : GroupVersionKind) : Query :=
  ⟨gvk, none, none, none⟩

/-- Narrow a query to a namespace; the empty namespace stands for all. -/
def inNamespace (q : Query) (ns : String) : Query :=
  { q with ns := properNamespace (some ns) }

/-- Narrow a query to a name. -/
def named (q : Query) (name : String) : Query :=
  { q with name := some name }

/-- Narrow a query by a selector. -/
def selecting (q : Query) (selector : Selector) : Query :=
  { q with selector := some selector }

/-- A part of a query behind its caption, if it is given. -/
def part (caption : String) : Option String → String
  | some s => caption ++ s
  | none => ""

/-- The text of a query, for messages. -/
def text (q : Query) : String :=
  q.gvk.text ++ part " ns=" q.ns ++ part " name=" q.name ++
    part " selector=" (q.selector.map Selector.text)

end Query

end KindCache
