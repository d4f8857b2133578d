import KindCache.Document.Basic

/-!
# Records as documents

Values of the library are exchanged as documents. A record is written as an
object with its fields in their declared order. It is read from an object, in
any order and with unknown keys ignored, or from an array that holds exactly
its fields in order.

* `Form.record?` — the documents under the declared field names;
* `Form.required?`, `Form.optional?` — reading a field that must be given, and
  one that may be missing or null;
* `Form.variant?` — an object with one key, which names an alternative.
-/

namespace KindCache.Form

/-- The documents of the named fields, where an object may lack some. -/
def record? (names : List String) : Document → Option (List (Option Document))
  | .object fields => some (names.map fun name => fields.lookup name)
  | .array items => if items.length = names.length then some (items.map some) else none
  | _ => none

/-- Read a field that must be given. -/
def required? (read : Document → Option α) (field : Option Document) : Option α :=
  field.bind read

/-- Read a field that may be missing or null. -/
def optional? (read : Document → Option α) : Option Document → Option (Option α)
  | none => some none
  | some .null => some none
  | some d => (read d).map some

/-- Write a field that may be null. -/
def orNull (write : α → Document) : Option α → Document
  | some a => write a
  | none => .null

/-- An alternative and what it carries. -/
def variant? : Document → Option (String × Document)
  | .object [(tag, payload)] => some (tag, payload)
  | _ => none

/-- An alternative that carries nothing: its name, alone or over null. -/
def plainVariant? : Document → Option String
  | .text tag => some tag
  | .object [(tag, .null)] => some tag
  | _ => none

/-- Read every item of an array. -/
def list? (read : Document → Option α) : Document → Option (List α)
  | .array items => items.mapM read
  | _ => none

end KindCache.Form
