import KindCache.Form.Record
import KindCache.Kind
import KindCache.Object

/-!
# Kinds, resources and references as documents

A resource has two forms: with its kind as a record of its own, as the cache
keeps it, and flat, as discovery lists it.
-/

namespace KindCache

namespace GroupVersionKind

/-- A kind as a document. -/
def toDocument (g : GroupVersionKind) : Document :=
  .object [("group", .text g.group), ("version", .text g.version), ("kind", .text g.kind)]

/-- The kind that a document stands for. -/
def ofDocument? (d : Document) : Option GroupVersionKind := do
  let [group, version, kind] ← Form.record? ["group", "version", "kind"] d | none
  return {
    group := ← Form.required? Document.text? group
    version := ← Form.required? Document.text? version
    kind := ← Form.required? Document.text? kind }

end GroupVersionKind

namespace Resource

/-- A resource as a document. -/
def toDocument (r : Resource) : Document :=
  .object [("gvk", r.gvk.toDocument), ("plural", .text r.plural),
    ("namespaced", .bool r.namespaced)]

/-- The resource that a document stands for. -/
def ofDocument? (d : Document) : Option Resource := do
  let [gvk, plural, namespaced] ← Form.record? ["gvk", "plural", "namespaced"] d | none
  return {
    gvk := ← Form.required? GroupVersionKind.ofDocument? gvk
    plural := ← Form.required? Document.text? plural
    namespaced := ← Form.required? Document.bool? namespaced }

/-- A resource as discovery lists it. -/
def toListing (r : Resource) : Document :=
  .object [("group", .text r.gvk.group), ("version", .text r.gvk.version),
    ("kind", .text r.gvk.kind), ("plural", .text r.plural),
    ("namespaced", .bool r.namespaced)]

/-- The resource of an entry of a listing. -/
def ofListing? (d : Document) : Option Resource := do
  let [group, version, kind, plural, namespaced] ←
    Form.record? ["group", "version", "kind", "plural", "namespaced"] d | none
  return {
    gvk := {
      group := ← Form.required? Document.text? group
      version := ← Form.required? Document.text? version
      kind := ← Form.required? Document.text? kind }
    plural := ← Form.required? Document.text? plural
    namespaced := ← Form.required? Document.bool? namespaced }

end Resource

namespace ObjectRef

/-- A reference as a document. -/
def toDocument (r : ObjectRef) : Document :=
  .object [("namespace", Form.orNull .text r.ns), ("name", .text r.name)]

/-- The reference that a document stands for. -/
def ofDocument? (d : Document) : Option ObjectRef := do
  let [ns, name] ← Form.record? ["namespace", "name"] d | none
  return {
    ns := ← Form.optional? Document.text? ns
    name := ← Form.required? Document.text? name }

end ObjectRef

end KindCache
