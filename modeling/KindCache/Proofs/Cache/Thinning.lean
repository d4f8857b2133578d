import KindCache.Proofs.Cache.Lanes
import KindCache.Proofs.Numbers

/-!
# Slots under other numbers

When some calls are left out of a run, the others get smaller numbers. A slot whose calls are
renamed works as before, as long as the new names tell its calls apart.
-/

namespace KindCache

namespace Slot

/-- A slot whose calls have other numbers. -/
def rename (f : CallId → CallId) (slot : Slot) : Slot :=
  ⟨slot.holder.map f, slot.waiting.map f⟩

variable {f : CallId → CallId} {slot : Slot} {c : CallId}

/-- Joining is the same under all numbers. -/
theorem rename_join (f : CallId → CallId) (slot : Slot) (c : CallId) :
    (slot.join c).rename f = (slot.rename f).join (f c) := by
  rcases hholder : slot.holder with _ | d
  · simp [rename, join, hholder]
  · simp [rename, join, hholder]

/-- So is handing on: it goes by the order in the slot and by whether somebody waits. -/
theorem rename_handOn (f : CallId → CallId) (slot : Slot) :
    (slot.rename f).handOn = slot.handOn.map (rename f) := by
  rcases hwaiting : slot.waiting with _ | ⟨d, rest⟩
  · simp [rename, handOn, hwaiting]
  · simp [rename, handOn, passOn, hwaiting]

/-- The holder is recognised under the new numbers if these tell it from the others in the
slot. -/
theorem holder_rename (hf : ∀ d ∈ slot.members, f d = f c ↔ d = c) :
    (slot.rename f).holder = some (f c) ↔ slot.holder = some c := by
  rcases hholder : slot.holder with _ | d
  · simp [rename, hholder]
  · have hd := hf d (by simp [members, hholder])
    simp [rename, hholder, hd]

/-- A call that goes away does so under any numbers that tell it from the others. If two
calls had one number, both would be gone. -/
theorem rename_without (hf : ∀ d ∈ slot.members, f d = f c ↔ d = c) :
    (slot.without c).rename f = (slot.rename f).without (f c) := by
  have hholder := holder_rename hf
  by_cases hc : slot.holder = some c
  · rw [without, without, if_pos hc, if_pos (hholder.mpr hc)]
    simp [rename, passOn]
  · rw [without, without, if_neg hc, if_neg (mt hholder.mp hc)]
    simp only [rename, List.filter_map, Slot.mk.injEq, true_and]
    congr 1
    refine List.filter_congr ?_
    intro d hd
    have hmem : d ∈ slot.members := List.mem_append_right _ hd
    simp [hf d hmem]

end Slot

end KindCache
