import KindCache.ApiServer.Metadata
import KindCache.Kind
import KindCache.Store.Change

/-!
# Objects as an API server sends them

* `Conversion.read?` — an object of a list or of a watch event, with its type
  and its metadata in front and its metadata in stored form;
* `Conversion.toObject` — the document that the cache keeps: without the notes
  on managed fields, and with the type of the resource where the object names
  none, since the items of a list may come without;
* `Conversion.event` — an event with all its objects in that form.

An object names its type if both its `apiVersion` and its `kind` are texts.
They are looked at in the order in which they stand, up to the first that is no
text, and those looked at are taken out.
-/

namespace KindCache.ApiServer.Conversion

/-- The two keys that name the type of an object. -/
def isTypeKey (key : String) : Bool :=
  key = "apiVersion" || key = "kind"

/-- Take the type keys out of the fields, up to the first that is no text; what
was taken, and what is left. -/
def takeType : List Field → Table String Document × List Field
  | [] => ([], [])
  | (key, d) :: rest =>
    if isTypeKey key then
      match d with
      | .text s => let (type, rest) := takeType rest; ((key, .text s) :: type, rest)
      | _ => ([], rest)
    else let (type, rest) := takeType rest; (type, (key, d) :: rest)

/-- The type in its stored form, if it is complete. -/
def typeFields (type : Table String Document) : List Field :=
  match type.lookup "apiVersion", type.lookup "kind" with
  | some version, some kind => [("apiVersion", version), ("kind", kind)]
  | _, _ => []

/-- An object as it was sent. -/
def read? : Document → Option Document
  | .object fields => do
    let metadata ← Metadata.normal? ((fields.lookup "metadata").getD (.object []))
    let (type, rest) := takeType (fields.filter fun f => f.1 ≠ "metadata")
    return .object (typeFields type ++ ("metadata", metadata) :: rest)
  | _ => none

/-- Drop the notes on managed fields from metadata. -/
def stripMetadata : Document → Document
  | .object fields => .object (Field.dropSwapping "managedFields" fields)
  | d => d

/-- Drop the notes on managed fields from the fields of an object. -/
def stripFields (fields : List Field) : List Field :=
  fields.map fun (key, d) => if key = "metadata" then (key, stripMetadata d) else (key, d)

/-- The document that is kept for an object of a resource. -/
def toObject (r : Resource) : Document → Document
  | .object fields =>
    let stripped := stripFields fields
    let versioned := Field.putAbsent "apiVersion" (.text r.gvk.apiVersion) stripped
    .object (Field.putAbsent "kind" (.text r.gvk.kind) versioned)
  | d => d

/-- The event that is told of an event about objects of a resource. -/
def event (r : Resource) : WatchEvent → WatchEvent
  | .applied d => .applied (toObject r d)
  | .deleted d => .deleted (toObject r d)
  | .relisted ds => .relisted (ds.map (toObject r))

end KindCache.ApiServer.Conversion
