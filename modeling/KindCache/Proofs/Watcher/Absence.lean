import KindCache.Cluster.Memory
import KindCache.Proofs.Watcher.Account
import KindCache.Watcher.Read

/-!
# When an object is absent for good

A read of one object is answered from the store. Whether a missing object is missing for
good depends on two more things: whether a list has been consumed, and whether the
stream is healthy.

* `Watcher.Fails`, `Watcher.Classified` — the four answers to a read and when each of
  them is given (`get_classified`);
* `screen`, `get_eq_screen` — a read with a selector is one without, and then a look at the
  labels;
* `run_degraded_iff` — what the state of recovery tells of a run: its last item, or the
  end of the stream;
* `Cluster.fault_eq` — the text of a failure is the whole chain of its causes.
-/

namespace KindCache

/-- A failure of a stream with all that is said in front of it arrives as one text. -/
theorem Cluster.fault_eq (c : Cluster) (reason : String) :
    c.fault reason = .fault (String.intercalate ": " (c.watchContext.toList ++ [reason])) := by
  simp only [Cluster.fault]
  cases c.watchContext with
  | none => simp
  | some context => simp [String.append_assoc]

namespace Watcher

/-! ## The four answers -/

/-- A read fails with an error of some class. -/
def Fails (w : Watcher) (ns : Option String) (name : String) (selector : Option Selector)
    (k : ErrorKind) : Prop :=
  ∃ e, w.get ns name selector = .error e ∧ e.kind = k

/-- What a read of one object answers, and when. -/
structure Classified (w : Watcher) (ns : Option String) (name : String)
    (selector : Option Selector) (r : ObjectRef) : Prop where
  /-- it is absent for good -/
  absent : w.Fails ns name selector .notFound ↔
    w.synced = true ∧ w.store.find? r = none ∧ w.degraded = none
  /-- it cannot be said whether it is absent -/
  unknown : w.Fails ns name selector .transient ↔
    w.synced = false ∨ (w.store.find? r = none ∧ w.degraded.isSome = true)
  /-- it is there, but excluded -/
  filtered : w.Fails ns name selector .filteredOut ↔ w.synced = true ∧
    ∃ d, w.store.find? r = some d ∧ Selector.admits selector d = false
  /-- it is there -/
  found : ∀ d, w.get ns name selector = .ok d ↔ w.synced = true ∧
    w.store.find? r = some d ∧ Selector.admits selector d = true

section

variable {w : Watcher} {ns : Option String} {name : String} {selector : Option Selector}

/-- A read has one answer, so it fails with an error of one class only. -/
theorem fails_of_error {e : CacheError} (h : w.get ns name selector = .error e)
    (k : ErrorKind) : w.Fails ns name selector k ↔ e.kind = k := by
  constructor
  · rintro ⟨e', he', hk⟩
    obtain rfl := Except.error.inj (h.symm.trans he')
    exact hk
  · intro hk
    exact ⟨e, h, hk⟩

theorem not_fails_of_ok {d : Document} (h : w.get ns name selector = .ok d) (k : ErrorKind) :
    ¬ w.Fails ns name selector k := by
  rintro ⟨e, he, -⟩
  rw [h] at he
  cases he

/-- **Every read gets one of the four answers**, each of them exactly when it should. The
proof follows a read: first whether a list has come, then the store, and then health or
selector. -/
theorem get_classified (w : Watcher) (ns : Option String) (name : String)
    (selector : Option Selector) :
    w.Classified ns name selector (ObjectRef.of (w.scope ns) name) := by
  rcases hsynced : w.synced with _ | _
  · have hget : w.get ns name selector =
        .error (.transient (w.kindText ++ " is not synced yet")) := by
      simp only [get, hsynced]
      rfl
    refine ⟨?_, ?_, ?_, ?_⟩ <;> simp [fails_of_error hget, CacheError.kind, hsynced, hget]
  · rcases hfind : w.store.find? (ObjectRef.of (w.scope ns) name) with _ | d
    · rcases hdegraded : w.degraded with _ | reason
      · have hget : w.get ns name selector = .error
            (.notFound (w.kindText ++ " " ++ (ObjectRef.of (w.scope ns) name).text)) := by
          simp [get, hsynced, hfind, hdegraded]
        refine ⟨?_, ?_, ?_, ?_⟩ <;>
          simp [fails_of_error hget, CacheError.kind, hsynced, hget, hfind, hdegraded]
      · have hget : ∃ text, w.get ns name selector = .error (.transient text) := by
          simp [get, hsynced, hfind, hdegraded]
        obtain ⟨text, hget⟩ := hget
        refine ⟨?_, ?_, ?_, ?_⟩ <;>
          simp [fails_of_error hget, CacheError.kind, hsynced, hget, hfind, hdegraded]
    · rcases hadmits : Selector.admits selector d with _ | _
      · have hget : ∃ ref text, w.get ns name selector = .error (.filteredOut ref text) := by
          cases selector with
          | none => simp [Selector.admits] at hadmits
          | some sel =>
            simp only [Selector.admits] at hadmits
            simp [get, hsynced, hfind, hadmits]
        obtain ⟨ref, text, hget⟩ := hget
        refine ⟨?_, ?_, ?_, ?_⟩ <;>
          simp [fails_of_error hget, CacheError.kind, hsynced, hget, hfind, hadmits]
      · have hget : w.get ns name selector = .ok d := by
          cases selector with
          | none => simp [get, hsynced, hfind]
          | some sel =>
            simp only [Selector.admits] at hadmits
            simp [get, hsynced, hfind, hadmits]
        refine ⟨?_, ?_, ?_, ?_⟩ <;>
          simp [not_fails_of_ok hget, hsynced, hget, hfind, hadmits]

end

/-! ## Reads with and without a selector -/

/-- What a selector says to an object that is there. -/
def screen (r : ObjectRef) (selector : Option Selector) (d : Document) :
    Except CacheError Document :=
  match selector.filter fun sel => !sel.selects d.labels with
  | some sel => .error (.filteredOut r.text sel.text)
  | none => .ok d

section

variable {w : Watcher} {ns : Option String} {name : String} {e : CacheError}

/-- A selector is asked only when the object is there. So it does not change what is said
about an object that is missing. -/
theorem get_eq_screen (w : Watcher) (ns : Option String) (name : String)
    (selector : Option Selector) : w.get ns name selector =
      (w.get ns name none).bind (screen (ObjectRef.of (w.scope ns) name) selector) := by
  rcases hsynced : w.synced with _ | _
  · simp [get, hsynced, Except.bind]
  · rcases hfind : w.store.find? (ObjectRef.of (w.scope ns) name) with _ | d
    · rcases hdegraded : w.degraded with _ | reason <;>
        simp [get, hsynced, hfind, hdegraded, Except.bind]
    · rcases selector with _ | sel
      · simp [get, hsynced, hfind, screen, Except.bind]
      · rcases hselects : sel.selects d.labels with _ | _ <;>
          simp [get, hsynced, hfind, hselects, screen, Except.bind, Option.filter]

/-- Without a selector nothing is excluded, which leaves two ways to fail. -/
theorem kind_of_get (h : w.get ns name none = .error e) :
    e.kind = .notFound ∨ e.kind = .transient := by
  simp only [get] at h
  split at h
  · cases h
    exact .inr rfl
  · split at h
    · cases h
    · split at h
      · cases h
        exact .inr rfl
      · cases h
        exact .inl rfl

/-- A read may be repeated if it fails without the selector, and not for good. This is the
condition by which a caller goes on. -/
theorem fails_transient_iff {selector : Option Selector} :
    w.Fails ns name selector .transient ↔
      ∃ e, w.get ns name none = .error e ∧ e.isNotFound = false := by
  rw [Fails, get_eq_screen]
  rcases hget : w.get ns name none with e | d
  · refine ⟨?_, ?_⟩
    · rintro ⟨e', he', hkind⟩
      obtain rfl := Except.error.inj he'
      exact ⟨e, rfl, by simp [CacheError.isNotFound, hkind]⟩
    · rintro ⟨e', he', hopen⟩
      obtain rfl := Except.error.inj he'
      refine ⟨e, rfl, (kind_of_get hget).resolve_left fun hkind => ?_⟩
      simp [CacheError.isNotFound, hkind] at hopen
  · -- the object is there, and a selector can only exclude it
    refine iff_of_false ?_ (by rintro ⟨e, ⟨⟩, -⟩)
    rintro ⟨e, he, hkind⟩
    change screen _ selector d = .error e at he
    simp only [screen] at he
    split at he
    · obtain rfl := Except.error.inj he
      cases hkind
    · cases he

end

/-! ## The state of recovery -/

/-- A new watcher recovers from the last item it has consumed, if that is a failure. Once
its stream has ended it says so, whatever came last. -/
theorem run_degraded_iff {resource : Resource} {cap : Nat} {tied : Bool}
    {inbox : List Arrival} {moves : List Move} {text : String} :
    ((starting resource cap tied inbox).run moves).degraded = some text ↔
      ((starting resource cap tied inbox).sawEnd moves = true ∧ text = streamEnded) ∨
      ((starting resource cap tied inbox).sawEnd moves = false ∧
        ((starting resource cap tied inbox).consumed moves).getLast? = some (.fault text)) := by
  rw [run_degraded]
  rcases (starting resource cap tied inbox).sawEnd moves with _ | _
  · rw [if_neg Bool.false_ne_true, degradedBy]
    rcases ((starting resource cap tied inbox).consumed moves).getLast? with _ | e | reason
    · simp [starting]
    · simp [Arrival.reason?]
    · simp [Arrival.reason?]
  · simp [eq_comm]

end Watcher

end KindCache
