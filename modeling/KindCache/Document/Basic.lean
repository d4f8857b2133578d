import KindCache.Decimal.Binary64
import KindCache.Table

/-!
# Documents

A cluster object is a dynamically typed document: the cache stores and returns
it without a schema.

* `Document` — null, booleans, integers, floating-point numbers, texts, arrays
  and objects;
* `Document.get?`, `Document.text?` — looking into a document;
* `Document.same` — equality of documents, which ignores the order of the keys
  of an object;
* `Field.putAbsent`, `Field.dropSwapping` — setting a key of an object that it
  lacks, and removing one by moving the last field into its place.

An object is the list of its fields in stored order, because the order in which
keys are written is part of what a reader of the document sees. A field is
found by the first occurrence of its key; every operation here keeps keys
distinct (`Document.Distinct`).

An integer and a floating-point number are different documents even if their
values agree: `1` is not `1.0`.
-/

namespace KindCache

open Decimal (Binary64)

/-- A dynamically typed document. -/
inductive Document where
  | null
  | bool (b : Bool)
  /-- a number that was written without fraction and exponent -/
  | integer (n : Int)
  | float (x : Binary64)
  | text (s : String)
  | array (items : List Document)
  /-- the fields in the order in which they are stored -/
  | object (fields : List (String × Document))
deriving Inhabited

/-- A field of an object: its key and its value. -/
abbrev Field := String × Document

/-! ## Fields -/

namespace Field

/-- Set a key unless it is there already. -/
def putAbsent (key : String) (value : Document) (fields : List Field) : List Field :=
  match fields.lookup key with
  | some _ => fields
  | none => fields ++ [(key, value)]

/-- Replace the field under `key` by `other`. -/
def swapIn (key : String) (other : Field) : List Field → List Field
  | [] => []
  | f :: rest => if f.1 = key then other :: rest else f :: swapIn key other rest

/-- Remove a key by moving the last field into its place, so that all other
fields keep their position. -/
def dropSwapping (key : String) (fields : List Field) : List Field :=
  match fields.lookup key, fields.getLast? with
  | some _, some last =>
    if last.1 = key then fields.dropLast else swapIn key last fields.dropLast
  | _, _ => fields

end Field

namespace Document

/-! ## Looking into a document -/

/-- The value under a key of an object; nothing for any other document. -/
def get? (key : String) : Document → Option Document
  | .object fields => fields.lookup key
  | _ => none

/-- The text of a text document. -/
def text? : Document → Option String
  | .text s => some s
  | _ => none

/-- The value of a boolean document. -/
def bool? : Document → Option Bool
  | .bool b => some b
  | _ => none

/-- The items of an array. -/
def items? : Document → Option (List Document)
  | .array items => some items
  | _ => none

/-- The fields of an object. -/
def fields? : Document → Option (List Field)
  | .object fields => some fields
  | _ => none

/-- An integer document that is a natural number below `bound`. -/
def natBelow? (bound : Nat) : Document → Option Nat
  | .integer (.ofNat n) => if n < bound then some n else none
  | _ => none

/-! ## Equality -/

mutual

/-- Whether two documents are equal: arrays item by item, objects key by key in
any order, floating-point numbers by value. -/
def same : Document → Document → Bool
  | .null, .null => true
  | .bool a, .bool b => a == b
  | .integer a, .integer b => a == b
  | .float a, .float b => a.sameValue b
  | .text a, .text b => a == b
  | .array as, .array bs => sameItems as bs
  | .object as, .object bs => as.length == bs.length && sameFields as bs
  | _, _ => false

/-- Whether two arrays are equal. -/
def sameItems : List Document → List Document → Bool
  | [], [] => true
  | a :: as, b :: bs => same a b && sameItems as bs
  | _, _ => false

/-- Whether each of the first fields stands with an equal value among the
second ones. -/
def sameFields : List (String × Document) → List (String × Document) → Bool
  | [], _ => true
  | (k, a) :: as, bs =>
    (match bs.lookup k with
      | some b => same a b
      | none => false) && sameFields as bs

end

mutual

/-- No object inside the document holds a key twice. -/
def Distinct : Document → Prop
  | .array items => DistinctItems items
  | .object fields => (fields.map (·.1)).Nodup ∧ DistinctFields fields
  | _ => True

/-- Every item of an array is `Distinct`. -/
def DistinctItems : List Document → Prop
  | [] => True
  | d :: ds => Distinct d ∧ DistinctItems ds

/-- Every value of an object is `Distinct`. -/
def DistinctFields : List (String × Document) → Prop
  | [] => True
  | (_, d) :: fs => Distinct d ∧ DistinctFields fs

end

end Document

end KindCache
