import KindCache.Proofs.Cache.Bootstrap
import KindCache.Proofs.Cache.OneStream
import KindCache.Proofs.Cluster.Inquiry

/-!
# What a call hears from the cluster

A call that starts a kind is told which resource serves the kind, and then the
answers to its reviews. Where it stands is determined by what it has heard.

* `Reply`, `hears`, `fate` — what a call hears, and how its search ends;
* `inquiry`, `granted`, `observed` — the replies of a start: the resource, and the
  answers to the first reviews;
* `Stage` — where a call stands that has heard so much; `Stage.perform` takes it
  through a move and `Stage.run` through a run;
* `Stage.frame` — only a call that has heard that all rights are granted opens
  streams or marks kinds.
-/

namespace KindCache

/-- What a call hears from the cluster. -/
inductive Reply where
  /-- its kind is served as this resource -/
  | served (r : Resource)
  /-- the answer to a review, or none if the review has failed -/
  | reviewed (review : AccessReview) (answer : Option Bool)
deriving DecidableEq

/-- The end of a search: an answer, or none if the call was dropped. -/
abbrev Fate := Option (Except CacheError WatcherId)

/-- The rights that the answers to the first reviews grant. A review that has failed grants
nothing. -/
def observed (answers : List (Option Bool)) : Access :=
  (Verb.required.zip answers).foldl (fun access p => access.record p.1 (p.2.getD false)) .denied

/-- A kind is served as a resource, and these are the answers to the first reviews. -/
def inquiry (r : Resource) (answers : List (Option Bool)) : List Reply :=
  .served r :: (Verb.required.zip answers).map fun p => .reviewed (.about r p.1) p.2

/-- A kind is served as a resource, and all rights on it are granted. -/
def granted (r : Resource) : List Reply :=
  inquiry r [some true, some true, some true]

/-! ## Reviews in order -/

section

variable {r q : Resource} {answers : List (Option Bool)} {answer : Option Bool} {verb : Verb}
  {left : List Verb}

/-- The next answer belongs to the next question: as long as there are questions left, the
answers so far have used up exactly as many. -/
theorem zip_snoc {α β : Type} {as : List α} {bs : List β} {a : α} {rest : List α}
    (h : as.drop bs.length = a :: rest) (b : β) :
    as.zip (bs ++ [b]) = as.zip bs ++ [(a, b)] ∧ as.drop (bs ++ [b]).length = rest := by
  induction bs generalizing as with
  | nil =>
    obtain rfl : as = a :: rest := h
    exact ⟨by simp, rfl⟩
  | cons b' bs ih =>
    cases as with
    | nil => cases h
    | cons a' as =>
      obtain ⟨hzip, hdrop⟩ := ih h
      exact ⟨congrArg _ hzip, hdrop⟩

/-- So the right that the next answer is recorded for is the next one in the list. -/
theorem observed_snoc (h : Verb.required.drop answers.length = verb :: left)
    (answer : Option Bool) :
    observed (answers ++ [answer]) = (observed answers).record verb (answer.getD false) := by
  rw [observed, (zip_snoc h answer).1, List.foldl_append]
  rfl

/-- And what the call hears next is the answer about this right. -/
theorem inquiry_snoc (h : Verb.required.drop answers.length = verb :: left)
    (r : Resource) (answer : Option Bool) : inquiry r (answers ++ [answer]) =
      inquiry r answers ++ [.reviewed (.about r verb) answer] := by
  rw [inquiry, (zip_snoc h answer).1, List.map_append]
  rfl

/-- When no question is left, all three are answered. From here on the answers have
names. -/
theorem exists_answers (hlen : answers.length ≤ 3)
    (hleft : Verb.required.drop answers.length = []) : ∃ a b d, answers = [a, b, d] := by
  have hall : 3 ≤ answers.length := List.drop_eq_nil_iff.mp hleft
  rcases answers with _ | ⟨a, _ | ⟨b, _ | ⟨d, _ | ⟨e, rest⟩⟩⟩⟩
  · exact absurd hall (by simp)
  · exact absurd hall (by simp)
  · exact absurd hall (by simp)
  · exact ⟨a, b, d, rfl⟩
  · have hmore : rest.length + 4 ≤ 3 := hlen
    omega

/-- All rights are there exactly if all three answers grant; a review that has failed counts
as a refusal. -/
theorem complete_observed_iff {a b d : Option Bool} : (observed [a, b, d]).complete = true ↔
    a = some true ∧ b = some true ∧ d = some true := by
  rcases a with _ | _ | _ <;> rcases b with _ | _ | _ <;> rcases d with _ | _ | _ <;> decide

/-- Nothing is heard after the three answers, because there are no more than three
questions. So a start that has heard all of them has heard no more than that. -/
theorem eq_granted {more : List Reply} (h : inquiry q answers = granted r ++ more) :
    inquiry q answers = granted r := by
  have hlength : (inquiry q answers).length ≤ (granted r).length := by
    simp only [inquiry, granted, List.length_cons, List.length_map, List.length_zip]
    exact Nat.succ_le_succ (Nat.min_le_left _ _)
  have hmore : more = [] := by
    rw [h, List.length_append] at hlength
    exact List.length_eq_zero_iff.mp (by omega)
  rw [h, hmore, List.append_nil]

/-- A single answer that does not grant rules out that all rights were granted. -/
theorem allowed_of_granted {review : AccessReview} (h : .reviewed review answer ∈ granted r) :
    answer = some true := by
  simp [granted, inquiry, Verb.required] at h
  rcases h with ⟨-, rfl⟩ | ⟨-, rfl⟩ | ⟨-, rfl⟩ <;> rfl

end

namespace Cache

/-- What a call hears by a move. Only its own legs bring it anything, and only those at the
two points where it asks. -/
def hears (c : CallId) (s : Cache) : Move → Option Reply
  | .advance d =>
    if d = c then
      match s.call c with
      | .resolving t => (s.resolveKind t.query.gvk).2.toOption.map .served
      | .probing _ r _ (verb :: _) =>
        some (.reviewed (.about r verb) (s.cluster.answer (.about r verb)))
      | _ => none
    else none
  | _ => none

/-- How the search of a call ends by a move: by an answer in a leg of its own, or because it
is dropped while it searches. -/
def fate (c : CallId) (s : Cache) : Move → Option Fate
  | .advance d => if d = c then (s.current c).2.map some else none
  | .cancel d => if d = c ∧ (s.call c).errand?.isSome then some none else none
  | _ => none

/-- All that a call hears in a run. -/
def heard (c : CallId) : Cache → List Move → List Reply :=
  trace (hears c)

section

variable {s s' : Cache} {c d : CallId} {t : Ticket} {r : Resource} {w : WatcherId} {m : Move}
  {access : Access} {verb : Verb} {left : List Verb}

/-! ## The legs of a start -/

/-- The kind is not resolved, and the call leaves its slot with the error that the registry
gives. -/
theorem current_unresolved (h : s.call c = .resolving t) {e : CacheError}
    (hr : (s.resolveKind t.query.gvk).2 = .error e) :
    s.current c = (s.resolveKind t.query.gvk).1.leave t (.error e) := by
  simp only [current, h, findResource]
  rw [hr]

/-- The kind is resolved, and the call begins to ask for the rights with none granted
yet. -/
theorem current_resolved (h : s.call c = .resolving t)
    (hr : (s.resolveKind t.query.gvk).2 = .ok r) : s.current c =
      ((s.resolveKind t.query.gvk).1.setCall c (.probing t r .denied Verb.required), none) := by
  simp only [current, h, findResource]
  rw [hr]

/-- The next right is asked for. The answer is recorded and the call goes on to the next
one, also if it was refused. -/
theorem current_asks (h : s.call c = .probing t r access (verb :: left)) : s.current c =
    ((s.review r verb).1.setCall c (.probing t r
      (access.record verb ((s.cluster.answer (.about r verb)).getD false)) left), none) := by
  simp only [current, h, probeRights]
  rfl

/-- All rights were asked for, and one of them is refused. The error says which ones were
granted. -/
theorem current_refused (h : s.call c = .probing t r access [])
    (hnot : access.complete = false) :
    s.current c = s.leave t (.error (.accessDenied r.plural access)) := by
  have hensure : access.ensure r.plural = .error (.accessDenied r.plural access) :=
    if_neg (by rw [hnot]; exact Bool.false_ne_true)
  simp only [current, h, probeRights, hensure]

/-- A call without an errand has no search, so a leg of it has nothing to do with slots,
streams or kinds. -/
theorem current_of_errand (h : (s.call c).errand? = none) : s.current c = (s, none) := by
  simp only [current]
  rcases hcall : s.call c with (_ | _) | _ | _ | _ | _ | _ | _ | _ <;> rw [hcall] at h <;>
    first | rfl | cases h

/-! ## Where a call stands -/

/-- What a call may have heard when its search has ended, and how it has. -/
inductive Closed : List Reply → List Fate → Prop where
  /-- the kind was running or is not served, or the call did not have its turn -/
  | unasked {fates : List Fate} : Closed [] fates
  /-- the call was dropped in the middle of its questions, or after them -/
  | dropped {r : Resource} {answers : List (Option Bool)} (hlen : answers.length ≤ 3) :
    Closed (inquiry r answers) [none]
  /-- a right is refused, or its review has failed -/
  | refused {r : Resource} {a b d : Option Bool}
    (hnot : ¬ (a = some true ∧ b = some true ∧ d = some true)) :
    Closed (inquiry r [a, b, d])
      [some (.error (.accessDenied r.plural ⟨a.getD false, b.getD false, d.getD false⟩))]
  /-- all rights are granted -/
  | allowed {r : Resource} {answer : Except CacheError WatcherId} :
    Closed (granted r) [some answer]

/-- **Where a call stands, what it has heard and how its search has ended.** The point of a
call says how many answers it has heard, and the answers say what rights it has recorded: so
the history is tied to the state, and what was ever heard can be read off the point. -/
inductive Stage (s : Cache) (c : CallId) : List Reply → List Fate → Prop where
  /-- it has not been made -/
  | unborn (h : s.calls.length ≤ c) : Stage s c [] []
  /-- it is new -/
  | fresh {use : Use} {q : Query} (h : s.call c = .fresh (.use use q)) : Stage s c [] []
  /-- it waits for its turn -/
  | queued {t : Ticket} (h : s.call c = .queued t) : Stage s c [] []
  /-- it asks for the resource -/
  | resolving {t : Ticket} (h : s.call c = .resolving t) : Stage s c [] []
  /-- it asks for the rights -/
  | probing {t : Ticket} {r : Resource} {answers : List (Option Bool)}
    (hlen : answers.length ≤ 3) (hkind : r.gvk = t.query.gvk)
    (h : s.call c = .probing t r (observed answers) (Verb.required.drop answers.length)) :
    Stage s c (inquiry r answers) []
  /-- it waits for the relist of a watcher of the resource -/
  | syncing {t : Ticket} {w : WatcherId} {deadline : Option Nat} {r : Resource}
    {watcher : Watcher} (hkind : r.gvk = t.query.gvk) (h : s.call c = .syncing t w deadline)
    (hget : s.watchers[w]? = some watcher)
    (hname : watcher.resource.streamName = r.streamName) : Stage s c (granted r) []
  /-- it does not search any more, or never did -/
  | closed {replies : List Reply} {fates : List Fate} (hborn : c < s.calls.length)
    (h : (s.call c).errand? = none) (hclosed : Closed replies fates) : Stage s c replies fates

/-- A call has heard the resource and up to three answers, if anything. A start hears no
more than one resource, since it never goes back to the registry. -/
theorem Stage.shape {replies : List Reply} {fates : List Fate} (h : Stage s c replies fates) :
    replies = [] ∨ ∃ r answers, answers.length ≤ 3 ∧ replies = inquiry r answers := by
  cases h with
  | unborn | fresh | queued | resolving => exact .inl rfl
  | probing hlen => exact .inr ⟨_, _, hlen, rfl⟩
  | @syncing t w deadline r => exact .inr ⟨r, [_, _, _], Nat.le_refl 3, rfl⟩
  | closed hborn h hclosed =>
    cases hclosed with
    | unasked => exact .inl rfl
    | dropped hlen => exact .inr ⟨_, _, hlen, rfl⟩
    | @refused r a b d => exact .inr ⟨r, [a, b, d], Nat.le_refl 3, rfl⟩
    | @allowed r => exact .inr ⟨r, [_, _, _], Nat.le_refl 3, rfl⟩

/-! ## Moves of others -/

/-- A call that does not search does not begin to; pauses between reads keep what was
found. -/
theorem Advance.errand? (hs' : Advance s c s') (h : (s.call c).errand? = none) :
    (s'.call c).errand? = none := by
  cases hs' with
  | idle => exact h
  | onward hleg =>
    rw [current_of_errand h] at hleg
    obtain ⟨rfl, -⟩ := Prod.mk.inj hleg
    exact h
  | answered herrand =>
    rw [h] at herrand
    cases herrand
  | aside hcall hend => exact hend.errand?

/-- The legs of others tell a call nothing. -/
theorem hears_other (hadvance : m ≠ .advance c) : hears c s m = none := by
  cases m with
  | advance d =>
    refine if_neg ?_
    rintro rfl
    exact hadvance rfl
  | _ => rfl

/-- Its search ends by no move of others either. -/
theorem fate_other (hadvance : m ≠ .advance c) (hcancel : m ≠ .cancel c) :
    fate c s m = none := by
  cases m with
  | advance d =>
    refine if_neg ?_
    rintro rfl
    exact hadvance rfl
  | cancel d =>
    refine if_neg ?_
    rintro ⟨rfl, -⟩
    exact hcancel rfl
  | _ => rfl

theorem fate_advance (c : CallId) (s : Cache) :
    fate c s (.advance c) = (s.current c).2.map some :=
  if_pos rfl

/-- Only a call in the middle of its questions hears something. -/
theorem hears_eq_none (hresolving : ∀ t, s.call c ≠ .resolving t)
    (hprobing : ∀ t r access verb left, s.call c ≠ .probing t r access (verb :: left)) :
    hears c s m = none := by
  cases m with
  | advance d =>
    simp only [hears]
    split <;> rfl
  | _ => rfl

/-- A call has asked for all rights on a resource: it opens the stream of the resource or
awaits the relist of a watcher of it. Both are points where a kind may be marked. -/
def Poised (s : Cache) (c : CallId) (t : Ticket) (r : Resource) : Prop :=
  (∃ access, s.call c = .probing t r access []) ∨ ∃ w deadline watcher,
    s.call c = .syncing t w deadline ∧ s.watchers[w]? = some watcher ∧
      watcher.resource.streamName = r.streamName

theorem Poised.starting (h : s.Poised c t r) : (s.call c).starting? = some t := by
  rcases h with ⟨access, h⟩ | ⟨w, deadline, watcher, h, -⟩ <;> rw [h] <;> rfl

/-- The watcher that it awaits is one of the resource: `watcherFor` finds or opens one by
the name of the stream, and watchers keep their resource afterwards. -/
theorem Poised.serves (h : s.Poised c t r) (hs : Streams s) {u : Ticket}
    (ha : Awaits s c u w s') : ∃ watcher, s'.watchers[w]? = some watcher ∧
      watcher.resource.streamName = r.streamName := by
  cases ha with
  | opening hcall =>
    rcases h with ⟨access, h⟩ | ⟨v, deadline, watcher, h, -⟩
    · obtain ⟨-, rfl, -⟩ := Call.probing.inj (h.symm.trans hcall)
      obtain ⟨-, watcher, hget, -⟩ := hs.watcherFor r
      exact ⟨watcher, hget, streamName_watcherFor hs hget⟩
    · rw [h] at hcall
      cases hcall
  | waiting hcall =>
    rcases h with ⟨access, h⟩ | ⟨v, deadline, watcher, h, hget, hname⟩
    · rw [h] at hcall
      cases hcall
    · obtain ⟨-, rfl, -⟩ := Call.syncing.inj (h.symm.trans hcall)
      exact ⟨watcher, hget, hname⟩

namespace Stage

variable {replies : List Reply} {fates : List Fate}

/-- A move of or to another call changes nothing. Watchers go on, but none of them is lost
and none changes its resource. -/
theorem other (h : Stage s c replies fates) (hadvance : m ≠ .advance c)
    (hcancel : m ≠ .cancel c) : Stage (s.perform m) c replies fates := by
  rcases perform_other (s := s) hadvance hcancel with ⟨hcall, hborn⟩ | ⟨hnew, hborn, request, hcall⟩
  · cases h with
    | unborn h => exact .unborn (Nat.le_of_not_lt fun hlt => Nat.not_lt_of_le h (hborn.mp hlt))
    | fresh h => exact .fresh (hcall.trans h)
    | queued h => exact .queued (hcall.trans h)
    | resolving h => exact .resolving (hcall.trans h)
    | probing hlen hkind h => exact .probing hlen hkind (hcall.trans h)
    | syncing hkind h hget hname =>
      obtain ⟨watcher', hget', hlater⟩ := (perform_grows s m).later hget
      exact .syncing hkind (hcall.trans h) hget' (by rw [hlater.resource, hname])
    | closed hlt h hclosed => exact .closed (hborn.mpr hlt) (hcall ▸ h) hclosed
  · -- the call is made by this move, so nothing has happened to it before
    have hnever : s.call c = .over := call_of_unborn (Nat.le_of_eq hnew.symm)
    cases h with
    | unborn h =>
      cases request with
      | use use q => exact .fresh hcall
      | sync w => exact .closed hborn (by rw [hcall]; rfl) .unasked
    | fresh h | queued h | resolving h | probing _ _ h | syncing _ h =>
      rw [hnever] at h
      cases h
    | closed hlt => exact absurd hlt (hnew ▸ Nat.lt_irrefl _)

/-! ## Moves of the call itself -/

/-- A call that is dropped does not search any more. If it was in the middle of its
questions this is where it stops hearing answers. -/
theorem cancel (h : Stage s c replies fates) :
    Stage (s.cancel c) c replies (fates ++ (fate c s (.cancel c)).toList) := by
  obtain ⟨slots, heq⟩ := s.cancel_eq c
  have hlength : (s.cancel c).calls.length = s.calls.length := by
    rw [heq]
    exact List.length_set
  have herrand : ((s.cancel c).call c).errand? = none := by
    rw [call_cancel, if_pos rfl]
    rfl
  -- a call that searches is dropped in the middle of it
  have hdropped : ∀ {replies}, (s.call c).errand?.isSome = true → Closed replies [none] →
      Stage (s.cancel c) c replies ([] ++ (fate c s (.cancel c)).toList) := by
    intro replies hsearch hclosed
    have hborn : c < s.calls.length := lt_of_call fun hover => by rw [hover] at hsearch; cases hsearch
    have hfate : fate c s (.cancel c) = some none := if_pos ⟨rfl, hsearch⟩
    rw [hfate]
    exact .closed (hlength ▸ hborn) herrand hclosed
  have hidle : (s.call c).errand? = none → fate c s (.cancel c) = none := by
    intro hnone
    refine if_neg fun ⟨_, hsome⟩ => ?_
    rw [hnone] at hsome
    cases hsome
  cases h with
  | unborn h =>
    rw [hidle (by rw [call_of_unborn h]; rfl)]
    exact .unborn (hlength ▸ h)
  | fresh h | queued h | resolving h => exact hdropped (by rw [h]; rfl) .unasked
  | probing hlen hkind h => exact hdropped (by rw [h]; rfl) (.dropped hlen)
  | syncing hkind h => exact hdropped (by rw [h]; rfl) (.dropped (Nat.le_refl 3))
  | closed hborn h hclosed =>
    rw [hidle h, Option.toList_none, List.append_nil]
    exact .closed (hlength ▸ hborn) herrand hclosed

/-- The end of a search closes the stage, with whatever the call does with the answer. -/
theorem of_answer (hborn : c < s.calls.length) (hend : Ends s' c (s.advance c))
    (hclosed : Closed replies fates) : Stage (s.advance c) c replies fates :=
  .closed ((s.advance_cases c).calls_length ▸ hborn) hend.errand? hclosed

/-- A new call takes part in the slot of its kind, or its search ends. It has heard nothing
either way. -/
theorem advance_fresh {use : Use} {q : Query} (h : s.call c = .fresh (.use use q)) :
    Stage (s.advance c) c [] ((s.current c).2.map some).toList := by
  have hborn : c < s.calls.length := lt_of_call (by rw [h]; exact Call.noConfusion)
  rcases hname : lacksName use q with _ | _
  · rcases hleg : s.current c with ⟨s', _ | answer⟩
    · have hadvance : s.advance c = s' := by
        rw [advance_of_errand (by rw [h]; rfl) hname, proceed, hleg]
        rfl
      have hleads := s.current_leads c
      rw [hleg] at hleads
      rw [hadvance]
      cases hleads with
      | resting => exact .fresh h
      | @joined use' q' hcall hw =>
        obtain ⟨slots, slotOf, i, heq⟩ := s.enqueue_eq c use' q'
        refine .queued (t := ⟨use', q', i⟩) ?_
        rw [heq, call_of_set (s := s) rfl hborn, if_pos rfl]
      | begun hcall | resolved hcall | reviewed hcall =>
        rw [h] at hcall
        cases hcall
      | waited ha =>
        have hstarting := ha.starting
        rw [h] at hstarting
        cases hstarting
    · have hend : Ends s' c (s.advance c) := by
        rw [advance_of_errand (by rw [h]; rfl) hname, proceed, hleg]
        exact conclude_ends s' c use q answer
      exact of_answer hborn hend .unasked
  · have hend : Ends s c (s.advance c) := by
      simp only [Cache.advance, h, hname, if_true]
      exact complete_ends s c _
    exact of_answer hborn hend .unasked

/-- A call in a slot waits, begins to start the kind, or finds it running. It still has
heard nothing. -/
theorem advance_queued (h : s.call c = .queued t) :
    Stage (s.advance c) c [] ((s.current c).2.map some).toList := by
  have ht : (s.call c).ticket? = some t := by rw [h]; rfl
  have hborn : c < s.calls.length := lt_of_errand (errand?_of_ticket ht)
  rcases hleg : s.current c with ⟨s', _ | answer⟩
  · have hleads := s.current_leads c
    rw [hleg] at hleads
    rw [advance_onward ht hleg]
    cases hleads with
    | resting => exact .queued h
    | @begun u hcall =>
      refine .resolving (t := u) ?_
      rw [call_of_set (s := s) rfl hborn, if_pos rfl]
    | joined hcall | resolved hcall | reviewed hcall =>
      rw [h] at hcall
      cases hcall
    | waited ha =>
      have hstarting := ha.starting
      rw [h] at hstarting
      cases hstarting
  · exact of_answer hborn (advance_answered ht hleg) .unasked

/-- A call is told which resource serves its kind, or its search ends without a word. -/
theorem advance_resolving (h : s.call c = .resolving t) :
    Stage (s.advance c) c (hears c s (.advance c)).toList ((s.current c).2.map some).toList := by
  have ht : (s.call c).ticket? = some t := by rw [h]; rfl
  have hborn : c < s.calls.length := lt_of_errand (errand?_of_ticket ht)
  have hhears : hears c s (.advance c) =
      (s.resolveKind t.query.gvk).2.toOption.map .served := by
    simp only [hears, h, if_true]
  rw [hhears]
  rcases hr : (s.resolveKind t.query.gvk).2 with e | r
  · have hleg := current_unresolved h hr
    rw [hleg]
    exact of_answer hborn (advance_answered ht hleg) .unasked
  · have hleg := current_resolved h hr
    have hcall : (s.advance c).call c = .probing t r (observed []) Verb.required := by
      rw [advance_onward ht hleg]
      exact call_of_move (s := s) ⟨rfl, rfl, rfl⟩ ht
    have hstage : Stage (s.advance c) c (inquiry r []) [] :=
      .probing (Nat.zero_le 3) (Registry.gvk_of_resolve hr) hcall
    rw [hleg]
    exact hstage

/-- A call that has asked for all rights awaits a relist, or its search ends. It hears
nothing more, so that `granted` is all that it has ever heard. -/
theorem advance_poised (hs : Streams s) (hkind : r.gvk = t.query.gvk) (h : s.Poised c t r) :
    Stage (s.advance c) c (granted r) ((s.current c).2.map some).toList := by
  have hstarting := h.starting
  have ht := ticket?_of_starting hstarting
  rcases hleg : s.current c with ⟨s', _ | answer⟩
  · have hleads := s.current_leads c
    rw [hleg] at hleads
    rw [advance_onward ht hleg]
    cases hleads with
    | resting h =>
      rw [hstarting] at h
      cases h
    | joined hcall | begun hcall =>
      rw [hcall] at hstarting
      cases hstarting
    | resolved hcall | reviewed hcall =>
      rcases h with ⟨access, h⟩ | ⟨w, deadline, watcher, h, -⟩ <;> rw [h] at hcall <;>
        cases hcall
    | waited ha =>
      obtain rfl := Option.some.inj (ha.starting.symm.trans hstarting)
      obtain ⟨watcher, hget, hname⟩ := h.serves hs ha
      exact .syncing hkind (call_of_move ha.apart ht) hget hname
  · exact of_answer (lt_of_errand (errand?_of_ticket ht)) (advance_answered ht hleg) .allowed

/-- A call asks for the next right. After the last answer it is refused, or awaits the
relist. This is the only leg in which all three answers are looked at together. -/
theorem advance_probing (hs : Streams s) {answers : List (Option Bool)}
    (hlen : answers.length ≤ 3) (hkind : r.gvk = t.query.gvk)
    (h : s.call c = .probing t r (observed answers) (Verb.required.drop answers.length)) :
    Stage (s.advance c) c (inquiry r answers ++ (hears c s (.advance c)).toList)
      ((s.current c).2.map some).toList := by
  have ht : (s.call c).ticket? = some t := by rw [h]; rfl
  rcases hleft : Verb.required.drop answers.length with _ | ⟨verb, left⟩
  · rw [hleft] at h
    have hhears : hears c s (.advance c) = none :=
      hears_eq_none (by rw [h]; exact fun _ => Call.noConfusion) (by rw [h]; simp)
    rw [hhears, Option.toList_none, List.append_nil]
    obtain ⟨a, b, d, rfl⟩ := exists_answers hlen hleft
    by_cases hall : (observed [a, b, d]).complete = true
    · obtain ⟨rfl, rfl, rfl⟩ := complete_observed_iff.mp hall
      exact advance_poised hs hkind (.inl ⟨_, h⟩)
    · have hleg := current_refused h (Bool.not_eq_true _ ▸ hall)
      rw [hleg]
      exact of_answer (lt_of_errand (errand?_of_ticket ht)) (advance_answered ht hleg)
        (.refused (mt complete_observed_iff.mpr hall))
  · rw [hleft] at h
    have hhears : hears c s (.advance c) =
        some (.reviewed (.about r verb) (s.cluster.answer (.about r verb))) := by
      simp only [hears, h, if_true]
    have hleg := current_asks h
    have hmore : answers.length < 3 := by
      refine Nat.lt_of_not_le fun hall => ?_
      rw [List.drop_eq_nil_of_le hall] at hleft
      cases hleft
    rw [hhears, hleg, advance_onward ht hleg, Option.toList_some, ← inquiry_snoc hleft]
    refine .probing (by rw [List.length_append]; exact hmore) hkind (t := t) ?_
    rw [observed_snoc hleft, (zip_snoc hleft _).2]
    exact call_of_move (s := s) ⟨rfl, rfl, rfl⟩ ht

/-- A call whose search has ended hears nothing. -/
theorem hears_of_errand (h : (s.call c).errand? = none) : hears c s m = none := by
  refine hears_eq_none (fun t hcall => ?_) fun t r access verb left hcall => ?_ <;>
  · rw [hcall] at h
    cases h

/-- A leg of the call itself takes it from its stage to the next one, point by point. -/
theorem advance (h : Stage s c replies fates) (hs : Streams s) :
    Stage (s.advance c) c (replies ++ (hears c s (.advance c)).toList)
      (fates ++ ((s.current c).2.map some).toList) := by
  cases h with
  | unborn h =>
    have hover := call_of_unborn h
    have herrand : (s.call c).errand? = none := by
      rw [hover]
      rfl
    have hadvance : s.advance c = s := by simp only [Cache.advance, hover]
    rw [hears_of_errand herrand, current_of_errand herrand, hadvance]
    exact .unborn h
  | fresh h =>
    rw [hears_eq_none (by rw [h]; exact fun _ => Call.noConfusion) (by rw [h]; simp)]
    exact advance_fresh h
  | queued h =>
    rw [hears_eq_none (by rw [h]; exact fun _ => Call.noConfusion) (by rw [h]; simp)]
    exact advance_queued h
  | resolving h => exact advance_resolving h
  | probing hlen hkind h => exact advance_probing hs hlen hkind h
  | @syncing t w deadline r watcher hkind h hget hname =>
    rw [hears_eq_none (by rw [h]; exact fun _ => Call.noConfusion) (by rw [h]; simp),
      Option.toList_none, List.append_nil]
    exact advance_poised hs hkind (.inr ⟨w, deadline, watcher, h, hget, hname⟩)
  | closed hborn h hclosed =>
    rw [hears_of_errand h, current_of_errand h, Option.toList_none, List.append_nil]
    refine .closed ((s.advance_cases c).calls_length ▸ hborn) ((s.advance_cases c).errand? h) ?_
    rwa [Option.map_none, Option.toList_none, List.append_nil]

/-- A move takes a call from a stage to a stage: a leg of its own, its being dropped, or a
move that does not concern it. -/
theorem perform (h : Stage s c replies fates) (hs : Streams s) (m : Move) :
    Stage (s.perform m) c (replies ++ (hears c s m).toList) (fates ++ (fate c s m).toList) := by
  by_cases hadvance : m = .advance c
  · subst hadvance
    rw [fate_advance]
    exact h.advance hs
  · rw [hears_other hadvance, Option.toList_none, List.append_nil]
    by_cases hcancel : m = .cancel c
    · subst hcancel
      exact h.cancel
    · rw [fate_other hadvance hcancel, Option.toList_none, List.append_nil]
      exact h.other hadvance hcancel

/-- **A run takes a call from a stage to a stage**, with all that it hears in the run and
all ends of its search. -/
theorem run (h : Stage s c replies fates) (hs : Streams s) (moves : List Move) :
    Stage (s.runMoves moves) c (replies ++ heard c s moves)
      (fates ++ trace (fate c) s moves) := by
  induction moves generalizing s replies fates with
  | nil => simpa [heard, trace] using h
  | cons m moves ih =>
    have hstep := ih (h.perform hs m) (hs.perform m)
    rwa [List.append_assoc, List.append_assoc] at hstep

end Stage

/-- In a run of a new cache, every call is at a stage, since nobody has been born when it
starts. -/
theorem stage_of_run (cluster : Cluster) (settings : Settings) (moves : List Move) (c : CallId) :
    Stage ((starting cluster settings).runMoves moves) c
      (heard c (starting cluster settings) moves)
      (trace (fate c) (starting cluster settings) moves) :=
  Stage.run (.unborn (Nat.zero_le c)) (streams_starting cluster settings) moves

/-! ## Who opens streams -/

/-- A leg leaves streams and kinds alone unless its call awaits a relist. What the cluster
was asked and what the registry remembers may have changed. -/
structure Still (s s' : Cache) : Prop where
  watchers : s'.watchers.length = s.watchers.length
  streams : s'.streams = s.streams
  seen : s'.seen = s.seen

theorem Still.leaveSlot (h : Still s s') (t : Ticket) : Still s (s'.leaveSlot t) := by
  obtain ⟨slots, slotOf, heq⟩ := s'.leaveSlot_eq t
  rw [heq]
  exact ⟨h.watchers, h.streams, h.seen⟩

theorem Asked.still (h : Asked s s') : Still s s' := by
  obtain ⟨cluster, registry, meters⟩ := h
  exact ⟨rfl, rfl, rfl⟩

/-- Of the legs of a search, only those at a relist are not still. -/
theorem Leads.still {leg : Leg} (h : Leads s c leg) :
    Still s leg.1 ∨ ∃ t w s', Awaits s c t w s' := by
  have hsame : Still s s := ⟨rfl, rfl, rfl⟩
  cases h with
  | resting | found | refused => exact .inl hsame
  | @joined use q hcall hw =>
    obtain ⟨slots, slotOf, i, heq⟩ := s.enqueue_eq c use q
    rw [heq]
    exact .inl ⟨rfl, rfl, rfl⟩
  | shared => exact .inl (hsame.leaveSlot _)
  | begun => exact .inl ⟨rfl, rfl, rfl⟩
  | resolved hcall hs' | reviewed hcall hs' =>
    obtain ⟨hwatchers, hstreams, hseen⟩ := hs'.still
    exact .inl ⟨hwatchers, hstreams, hseen⟩
  | failed hcall hs' => exact .inl (hs'.still.leaveSlot _)
  | waited ha | expired ha | succeeded ha => exact .inr ⟨_, _, _, ha⟩

theorem Ends.still {s₁ : Cache} (h : Ends s₁ c s') (hs₁ : Still s s₁) : Still s s' :=
  ⟨h.evolves.length.trans hs₁.watchers, h.streams.trans hs₁.streams, h.seen.trans hs₁.seen⟩

/-- Nor does anything else that a call does touch streams and kinds. -/
theorem Advance.still (h : Advance s c s') : Still s s' ∨ ∃ t w s₁, Awaits s c t w s₁ := by
  cases h with
  | idle => exact .inl ⟨rfl, rfl, rfl⟩
  | onward hleg => exact Leads.still (hleg ▸ s.current_leads c)
  | answered herrand hleg hend =>
    rcases Leads.still (hleg ▸ s.current_leads c) with hstill | hawaits
    · exact .inl (hend.still hstill)
    · exact .inr hawaits
  | aside hcall hend => exact .inl (hend.still ⟨rfl, rfl, rfl⟩)

/-- **Only a call that has heard that all rights are granted opens streams and marks
kinds.** The legs that are not still await a relist, and the stage at that point says what
was heard before. -/
theorem Stage.frame {replies : List Reply} {fates : List Fate} (h : Stage s c replies fates) :
    Still s (s.advance c) ∨
      ∃ t r, r.gvk = t.query.gvk ∧ replies = granted r ∧ s.Poised c t r := by
  rcases (s.advance_cases c).still with hstill | ⟨t, w, s₁, ha⟩
  · exact .inl hstill
  · have hstarting := ha.starting
    cases h with
    | unborn h =>
      rw [call_of_unborn h] at hstarting
      cases hstarting
    | fresh h | queued h =>
      rw [h] at hstarting
      cases hstarting
    | resolving h =>
      cases ha with
      | opening hcall | waiting hcall =>
        rw [h] at hcall
        cases hcall
    | @probing u r answers hlen hkind h =>
      cases ha with
      | opening hcall =>
        obtain ⟨rfl, rfl, haccess, hleft⟩ := Call.probing.inj (h.symm.trans hcall)
        obtain ⟨a, b, d, rfl⟩ := exists_answers hlen hleft
        by_cases hall : (observed [a, b, d]).complete = true
        · obtain ⟨rfl, rfl, rfl⟩ := complete_observed_iff.mp hall
          exact .inr ⟨u, r, hkind, rfl, .inl ⟨_, h⟩⟩
        · -- a right is refused, so the slot is left at once
          have hleg := current_refused h (Bool.not_eq_true _ ▸ hall)
          have hend := advance_answered (ticket?_of_starting hstarting) hleg
          exact .inl (hend.still (Still.leaveSlot ⟨rfl, rfl, rfl⟩ _))
      | waiting hcall =>
        rw [h] at hcall
        cases hcall
    | @syncing u v deadline r watcher hkind h hget hname =>
      exact .inr ⟨u, r, hkind, rfl, .inr ⟨v, deadline, watcher, h, hget, hname⟩⟩
    | closed hborn h =>
      rw [errand?_of_ticket (ticket?_of_starting hstarting)] at h
      cases h

end

end Cache

end KindCache
