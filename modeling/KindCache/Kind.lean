import KindCache.Error
import KindCache.Text.Pieces

/-!
# Kinds and resources

* `GroupVersionKind` — the identity of a type of objects, under which the cache
  keeps it; its text form is `version/Kind` in the core group and
  `group/version/Kind` elsewhere;
* `Resource` — how the cluster serves a kind: its plural name and its scope.
-/

namespace KindCache

/-- A type of cluster objects. -/
structure GroupVersionKind where
  /-- the group; empty for the core group -/
  group : String
  /-- the version within the group -/
  version : String
  /-- the name of the type -/
  kind : String
deriving DecidableEq, Repr

namespace GroupVersionKind

/-- The group and version as documents spell them. -/
def apiVersion (g : GroupVersionKind) : String :=
  if g.group = "" then g.version else g.group ++ "/" ++ g.version

/-- The text form of a kind. -/
def text (g : GroupVersionKind) : String :=
  g.apiVersion ++ "/" ++ g.kind

/-- The kind with the given text form. All two or three parts must have a
character. -/
def ofText? (s : String) : Option GroupVersionKind :=
  match Text.pieces '/' s.toList with
  | [v, k] =>
    if v ≠ [] ∧ k ≠ [] then some ⟨"", String.ofList v, String.ofList k⟩ else none
  | [g, v, k] =>
    if g ≠ [] ∧ v ≠ [] ∧ k ≠ [] then
      some ⟨String.ofList g, String.ofList v, String.ofList k⟩
    else none
  | _ => none

/-- The kind with the given text form, or the complaint about the text. -/
def parse (s : String) : Except CacheError GroupVersionKind :=
  match ofText? s with
  | some g => .ok g
  | none =>
    .error (.resolution
      ("invalid gvk key: " ++ s ++ " (expect v1/Kind or group/v1/Kind)"))

/-- Whether a kind comes before another one: by group, then version, then
name. -/
def before (a b : GroupVersionKind) : Bool :=
  a.group < b.group || (a.group = b.group &&
    (a.version < b.version || (a.version = b.version && a.kind < b.kind)))

/-- Kinds in ascending order. -/
def sorted (gs : List GroupVersionKind) : List GroupVersionKind :=
  gs.mergeSort fun a b => !b.before a

end GroupVersionKind

/-- A kind as the cluster serves it. -/
structure Resource where
  /-- the kind of its objects -/
  gvk : GroupVersionKind
  /-- the plural name, which stands in paths and access reviews -/
  plural : String
  /-- whether its objects live in namespaces -/
  namespaced : Bool
deriving DecidableEq, Repr

namespace Resource

/-- The name of the stream that serves a resource: group, version and plural.
Two kinds with one such name share their stream. -/
def streamName (r : Resource) : String :=
  r.gvk.group ++ "/" ++ r.gvk.version ++ "/" ++ r.plural

end Resource

end KindCache
