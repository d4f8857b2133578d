import KindCache.Error
import KindCache.Selector.Printer
import KindCache.Text.Quoted
import KindCache.Watcher.Basic

/-!
# Reading from a watcher

Reads are local: they look at the published store and never wait.

* `Watcher.list` — the objects of one namespace or of all, in ascending order
  of their references;
* `Watcher.get` — one object by name. That an object is absent is final only
  while the stream is healthy: before the first relist and after a failure the
  answer is a transient error instead;
* `Watcher.syncStatus` — what someone who waits for the first relist learns.
-/

namespace KindCache

namespace Watcher

/-- The namespace that a request is narrowed to. A kind without namespaces
ignores it, and the empty namespace stands for all. -/
def scope (w : Watcher) (ns : Option String) : Option String :=
  if w.resource.namespaced then properNamespace ns else none

/-- Whether a reference lies in a namespace, if one is given. -/
def within (ns : Option String) (r : ObjectRef) : Bool :=
  match ns with
  | some ns => r.ns = some ns
  | none => true

/-- The objects of a namespace that a selector admits. -/
def list (w : Watcher) (ns : Option String) (selector : Option Selector) : List Document :=
  (w.store.entries.filter fun e =>
    within (w.scope ns) e.1 && Selector.admits selector e.2).map (·.2)

/-- The text of the watched kind, for messages. -/
def kindText (w : Watcher) : String :=
  w.resource.gvk.text

/-- The object with a given name. -/
def get (w : Watcher) (ns : Option String) (name : String) (selector : Option Selector) :
    Except CacheError Document :=
  let r := ObjectRef.of (w.scope ns) name
  if !w.synced then .error (.transient (w.kindText ++ " is not synced yet"))
  else
    match w.store.find? r with
    | some d =>
      match selector with
      | none => .ok d
      | some s =>
        if s.selects d.labels then .ok d else .error (.filteredOut r.text s.text)
    | none =>
      match w.degraded with
      | some reason =>
        .error (.transient (w.kindText ++ " " ++ r.text ++
          " not in cache while watch is recovering: " ++ reason))
      | none => .error (.notFound (w.kindText ++ " " ++ r.text))

/-! ## Waiting for the first relist -/

/-- What there is to say to someone who waits for the first relist. -/
inductive SyncStatus where
  | waiting
  | reached
  | failed (e : CacheError)
deriving DecidableEq

/-- The state of the first relist. A relist that was published counts whatever
happened since. -/
def syncStatus (w : Watcher) (shutdown : Bool) : SyncStatus :=
  if w.synced then .reached
  else if shutdown then .failed .shuttingDown
  else if w.running then .waiting
  else if w.stopRequested then .failed .shuttingDown
  else
    let cause :=
      match w.degraded with
      | some reason => ": " ++ reason
      | none => ""
    .failed (.transient ("watch for " ++ w.kindText ++ " ended before initial sync" ++ cause))

/-! ## A description -/

/-- A description of a watcher for diagnostics. -/
def describe (w : Watcher) : String :=
  "TypeWatcher \x7b gvk: " ++ String.ofList (Text.quoted w.kindText.toList) ++
    ", synced: " ++ Access.flag w.synced ++ ", len: " ++ w.store.size.repr ++
    ", running: " ++ Access.flag w.running ++ " \x7d"

end Watcher

end KindCache
