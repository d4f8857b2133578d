import KindCache.Error
import KindCache.Form.Record

/-!
# Rights and error classes as documents

A right and an error class are written as their names; in documents the names
of rights are capitalised.
-/

namespace KindCache

namespace Verb

/-- The name of a right in documents. -/
def tag : Verb → String
  | .get => "Get"
  | .list => "List"
  | .watch => "Watch"

/-- A right as a document. -/
def toDocument (v : Verb) : Document :=
  .text v.tag

/-- The right that a document stands for. -/
def ofDocument? (d : Document) : Option Verb := do
  let name ← Form.plainVariant? d
  required.find? fun v => v.tag = name

end Verb

namespace AccessReview

/-- A review as a document. -/
def toDocument (r : AccessReview) : Document :=
  .object [("group", .text r.group), ("version", .text r.version),
    ("resource", .text r.resource), ("verb", r.verb.toDocument),
    ("namespace", Form.orNull .text r.ns)]

/-- The review that a document stands for. -/
def ofDocument? (d : Document) : Option AccessReview := do
  let [group, version, resource, verb, ns] ←
    Form.record? ["group", "version", "resource", "verb", "namespace"] d | none
  return {
    group := ← Form.required? Document.text? group
    version := ← Form.required? Document.text? version
    resource := ← Form.required? Document.text? resource
    verb := ← Form.required? Verb.ofDocument? verb
    ns := ← Form.optional? Document.text? ns }

end AccessReview

namespace Access

/-- Granted rights as a document. -/
def toDocument (a : Access) : Document :=
  .object [("get", .bool a.get), ("list", .bool a.list), ("watch", .bool a.watch)]

/-- The granted rights that a document stands for. -/
def ofDocument? (d : Document) : Option Access := do
  let [get, list, watch] ← Form.record? ["get", "list", "watch"] d | none
  return {
    get := ← Form.required? Document.bool? get
    list := ← Form.required? Document.bool? list
    watch := ← Form.required? Document.bool? watch }

end Access

namespace ErrorKind

/-- An error class as a document. -/
def toDocument (k : ErrorKind) : Document :=
  .text k.text

/-- The error class that a document stands for. -/
def ofDocument? (d : Document) : Option ErrorKind :=
  (Form.plainVariant? d).bind ofText?

end ErrorKind

end KindCache
