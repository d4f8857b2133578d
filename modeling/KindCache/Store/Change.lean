import KindCache.Store.Basic

/-!
# Watch events and the changes they make

* `WatchEvent` — what a list-and-watch stream reports about one kind;
* `Change` — what happened to one object of a store;
* `Store.apply` — the store after an event, and the changes in the order in
  which they are told to subscribers.

A relist replaces the content. It is compared with the store document by
document: an equal document is kept in silence, and what the list does not
mention is removed at the end, in ascending order. A reference that the list
mentions again is compared with nothing, since the first mention has already
taken the old document away. Documents without a name are ignored throughout.
-/

namespace KindCache

/-- An event of a list-and-watch stream. -/
inductive WatchEvent where
  /-- an object is there, new or changed -/
  | applied (d : Document)
  /-- an object is gone -/
  | deleted (d : Document)
  /-- the full list of objects; the first one completes the start of a watcher -/
  | relisted (ds : List Document)
deriving Inhabited

/-- A change of one object. -/
inductive Change where
  /-- an object has appeared -/
  | added (d : Document)
  /-- an object has been replaced -/
  | updated (old new : Document)
  /-- an object has disappeared; the document is the last one known -/
  | deleted (d : Document)
deriving Inhabited

namespace Store

/-- Set an object. Replacing counts as a change even if the documents are
equal. -/
def upsert (s : Store) (d : Document) : Store × List Change :=
  match d.ref? with
  | none => (s, [])
  | some r =>
    match s.find? r with
    | some old => (s.insert r d, [.updated old d])
    | none => (s.insert r d, [.added d])

/-- Remove an object. The change carries the document of the event. -/
def remove (s : Store) (d : Document) : Store × List Change :=
  match d.ref? with
  | none => (s, [])
  | some r =>
    match s.find? r with
    | some _ => (s.erase r, [.deleted d])
    | none => (s, [])

/-- Compare a list with what is left of the old content, and build the new
content. -/
def relistFrom (old new : Store) : List Document → Store × List Change
  | [] => (new, old.entries.map fun e => .deleted e.2)
  | d :: ds =>
    match d.ref? with
    | none => relistFrom old new ds
    | some r =>
      match old.find? r with
      | none =>
        let (s, changes) := relistFrom old (new.insert r d) ds
        (s, .added d :: changes)
      | some known =>
        if known.same d then relistFrom (old.erase r) (new.insert r known) ds
        else
          let (s, changes) := relistFrom (old.erase r) (new.insert r d) ds
          (s, .updated known d :: changes)

/-- Replace the content by a list. -/
def relist (s : Store) (ds : List Document) : Store × List Change :=
  relistFrom s empty ds

/-- The store after an event, and the changes that the event made. -/
def apply (s : Store) : WatchEvent → Store × List Change
  | .applied d => s.upsert d
  | .deleted d => s.remove d
  | .relisted ds => s.relist ds

end Store

end KindCache
