import KindCache.ApiServer.Timestamp
import KindCache.Document.Basic

/-!
# The metadata of an object

What an API server sends as metadata is read by the fields that every object
may have, and written back in one form (`Metadata.normal?`): the known fields
only, in alphabetical order, without those that are null. A field of the wrong
type makes the whole object unreadable.
-/

namespace KindCache.ApiServer.Metadata

/-- A field of a known type: what is stored for a value, if it has the type. -/
abbrev FieldType := Document → Option Document

/-- A text. -/
def text : FieldType
  | .text s => some (.text s)
  | _ => none

/-- A truth value. -/
def flag : FieldType
  | .bool b => some (.bool b)
  | _ => none

/-- An integer of 64 bits with sign. -/
def integer : FieldType
  | .integer n =>
    if Int64.minValue.toInt ≤ n ∧ n ≤ Int64.maxValue.toInt then some (.integer n) else none
  | _ => none

/-- A point in time. -/
def time : FieldType
  | .text s => (Timestamp.read? s).map fun t => .text t.text
  | _ => none

/-- Anything. -/
def anything : FieldType :=
  some

/-- An array of values of one type. -/
def list (item : FieldType) : FieldType
  | .array items => (items.mapM item).map .array
  | _ => none

/-- Texts under keys, which are put in ascending order. -/
def textMap : FieldType
  | .object fields =>
    if fields.all fun f => f.2.text?.isSome then
      some (.object (fields.mergeSort fun a b => a.1 ≤ b.1))
    else none
  | _ => none

/-- The fields of a record: for each of them its name, its type, and what
stands for it if it is missing or null, which is nothing for most. -/
abbrev RecordType := List (String × FieldType × Option Document)

/-- The fields of a record in the order of its type; unknown ones are left
out. -/
def recordFields (fields : List Field) : RecordType → Option (List Field)
  | [] => some []
  | (name, type, standIn) :: more => do
    let rest ← recordFields fields more
    match fields.lookup name with
    | none | some .null => return (standIn.map (name, ·)).toList ++ rest
    | some d => return (name, ← type d) :: rest

/-- A record. -/
def record (type : RecordType) : FieldType
  | .object fields => (recordFields fields type).map .object
  | _ => none

/-- A reference to an owner. -/
def ownerReference : FieldType :=
  record [
    ("apiVersion", text, some (.text "")),
    ("blockOwnerDeletion", flag, none),
    ("controller", flag, none),
    ("kind", text, some (.text "")),
    ("name", text, some (.text "")),
    ("uid", text, some (.text ""))]

/-- A note on who manages which fields. -/
def managedFields : FieldType :=
  record [
    ("apiVersion", text, none),
    ("fieldsType", text, none),
    ("fieldsV1", anything, none),
    ("manager", text, none),
    ("operation", text, none),
    ("subresource", text, none),
    ("time", time, none)]

/-- Metadata in its stored form. -/
def normal? : FieldType :=
  record [
    ("annotations", textMap, none),
    ("creationTimestamp", time, none),
    ("deletionGracePeriodSeconds", integer, none),
    ("deletionTimestamp", time, none),
    ("finalizers", list text, none),
    ("generateName", text, none),
    ("generation", integer, none),
    ("labels", textMap, none),
    ("managedFields", list managedFields, none),
    ("name", text, none),
    ("namespace", text, none),
    ("ownerReferences", list ownerReference, none),
    ("resourceVersion", text, none),
    ("selfLink", text, none),
    ("uid", text, none)]

end KindCache.ApiServer.Metadata
