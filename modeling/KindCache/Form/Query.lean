import KindCache.Form.Kind
import KindCache.Query

/-!
# Selectors and queries as documents

A requirement is an object whose one key names the condition; a set of values
is an array, in ascending order when written and in any order, with or without
repetitions, when read.
-/

namespace KindCache

namespace ValueSet

/-- A set of values as a document. -/
def toDocument (s : ValueSet) : Document :=
  .array (s.values.map .text)

/-- The set of values that a document stands for. -/
def ofDocument? (d : Document) : Option ValueSet :=
  (Form.list? Document.text? d).map ofList

end ValueSet

namespace Requirement

/-- A requirement as a document. -/
def toDocument : Requirement → Document
  | .oneOf key values => .object [("In", .array [.text key, values.toDocument])]
  | .noneOf key values => .object [("NotIn", .array [.text key, values.toDocument])]
  | .equal key value => .object [("Equal", .array [.text key, .text value])]
  | .notEqual key value => .object [("NotEqual", .array [.text key, .text value])]
  | .present key => .object [("Exists", .text key)]
  | .absent key => .object [("DoesNotExist", .text key)]

/-- The requirement that a document stands for. -/
def ofDocument? (d : Document) : Option Requirement := do
  let (tag, payload) ← Form.variant? d
  match tag, payload with
  | "In", .array [.text key, values] => return .oneOf key (← ValueSet.ofDocument? values)
  | "NotIn", .array [.text key, values] => return .noneOf key (← ValueSet.ofDocument? values)
  | "Equal", .array [.text key, .text value] => return .equal key value
  | "NotEqual", .array [.text key, .text value] => return .notEqual key value
  | "Exists", .text key => return .present key
  | "DoesNotExist", .text key => return .absent key
  | _, _ => none

end Requirement

namespace Selector

/-- A selector as a document. -/
def toDocument (s : Selector) : Document :=
  .object [("exprs", .array (s.requirements.map Requirement.toDocument))]

/-- The selector that a document stands for. -/
def ofDocument? (d : Document) : Option Selector := do
  let [requirements] ← Form.record? ["exprs"] d | none
  return ⟨← Form.required? (Form.list? Requirement.ofDocument?) requirements⟩

end Selector

namespace Query

/-- A query as a document. -/
def toDocument (q : Query) : Document :=
  .object [("gvk", q.gvk.toDocument), ("namespace", Form.orNull .text q.ns),
    ("name", Form.orNull .text q.name),
    ("selector", Form.orNull Selector.toDocument q.selector)]

/-- The query that a document stands for. -/
def ofDocument? (d : Document) : Option Query := do
  let [gvk, ns, name, selector] ←
    Form.record? ["gvk", "namespace", "name", "selector"] d | none
  return {
    gvk := ← Form.required? GroupVersionKind.ofDocument? gvk
    ns := ← Form.optional? Document.text? ns
    name := ← Form.optional? Document.text? name
    selector := ← Form.optional? Selector.ofDocument? selector }

end Query

end KindCache
