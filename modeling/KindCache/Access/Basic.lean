/-!
# Access rights

The cache serves a kind only to those who may get, list and watch it in all
namespaces.

* `Verb` — the three rights that are asked for;
* `Access` — which of them are granted;
* `AccessReview` — one question to the cluster.
-/

namespace KindCache

/-- A right on a resource. -/
inductive Verb where
  | get
  | list
  | watch
deriving DecidableEq, Repr

namespace Verb

/-- The rights that the cache needs, in the order in which it asks for them. -/
def required : List Verb :=
  [.get, .list, .watch]

/-- The name of a right on the wire. -/
def text : Verb → String
  | .get => "get"
  | .list => "list"
  | .watch => "watch"

/-- The right with a given name. -/
def ofText? (s : String) : Option Verb :=
  required.find? fun v => v.text = s

end Verb

/-- Which rights are granted. -/
structure Access where
  /-- reading one object -/
  get : Bool
  /-- listing objects -/
  list : Bool
  /-- watching for changes -/
  watch : Bool
deriving DecidableEq, Repr

namespace Access

/-- No right at all. -/
def denied : Access :=
  ⟨false, false, false⟩

/-- All three rights. -/
def full : Access :=
  ⟨true, true, true⟩

/-- Whether a right is granted. -/
def allows (a : Access) : Verb → Bool
  | .get => a.get
  | .list => a.list
  | .watch => a.watch

/-- Record the answer for one right. -/
def record (a : Access) (verb : Verb) (allowed : Bool) : Access :=
  match verb with
  | .get => { a with get := allowed }
  | .list => { a with list := allowed }
  | .watch => { a with watch := allowed }

/-- Whether all three rights are granted. -/
def complete (a : Access) : Bool :=
  a.get && a.list && a.watch

/-- A truth value as messages spell it. -/
def flag (b : Bool) : String :=
  if b then "true" else "false"

/-- The state of every right, for messages. -/
def text (a : Access) : String :=
  "get:" ++ flag a.get ++ ", list:" ++ flag a.list ++ ", watch:" ++ flag a.watch

end Access

/-- The question whether the present identity has one right on a resource. -/
structure AccessReview where
  /-- the group of the resource; empty for the core group -/
  group : String
  /-- the version within the group -/
  version : String
  /-- the plural name of the resource -/
  resource : String
  /-- the right that is asked for -/
  verb : Verb
  /-- the namespace the question is narrowed to, if any -/
  ns : Option String
deriving DecidableEq, Repr

end KindCache
