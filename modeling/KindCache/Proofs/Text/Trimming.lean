import KindCache.Text.Blank
import KindCache.Text.Pieces

/-!
# Trimming and breaking

What is left of a text when the blanks at its ends are taken away, and where a text breaks
at a word, each said without the function that finds it.

* `Blanks`, `Padded`, `Tight` — blanks, a text with blanks around it, and one without blanks
  at its ends;
* `trim_eq_iff` — trimming finds the tight text within its blanks;
* `eq_of_breakAt`, `breakAt_append`, `breakAt_eq_none` — a text breaks at the first place
  where the word stands.
-/

namespace KindCache.Text

/-- Nothing but blanks. -/
def Blanks (cs : List Char) : Prop :=
  ∀ c ∈ cs, isBlank c = true

/-- A text with any number of blanks around it. -/
def Padded (core cs : List Char) : Prop :=
  ∃ before after, Blanks before ∧ Blanks after ∧ cs = before ++ core ++ after

/-- A text that neither begins nor ends with a blank. -/
structure Tight (cs : List Char) : Prop where
  front : ∀ c ∈ cs.head?, isBlank c = false
  back : ∀ c ∈ cs.getLast?, isBlank c = false

/-! ## Blanks -/

section

variable {cs before after : List Char}

theorem blanks_nil : Blanks [] := fun _ h => absurd h List.not_mem_nil

theorem allBlank_iff : allBlank cs = true ↔ Blanks cs :=
  List.all_eq_true

/-- Nothing is dropped from a list whose first item stays. -/
theorem dropWhile_of_head {α : Type} {p : α → Bool} {as : List α}
    (h : ∀ a ∈ as.head?, p a = false) : as.dropWhile p = as := by
  cases as with
  | nil => rfl
  | cons a as => rw [List.dropWhile_cons, h a rfl, if_neg Bool.false_ne_true]

/-- What is left begins with an item that stays, if anything is left. -/
theorem head_dropWhile {α : Type} (p : α → Bool) (as : List α) :
    ∀ a ∈ (as.dropWhile p).head?, p a = false := by
  intro a ha
  have h := List.head?_dropWhile_not p as
  rw [Option.mem_def.mp ha] at h
  exact h

theorem blanks_takeWhile (cs : List Char) : Blanks (cs.takeWhile isBlank) :=
  List.all_eq_true.mp List.all_takeWhile

/-- Blanks in front are taken away, and then the rest is looked at as before. -/
theorem trimStart_append (h : Blanks before) : trimStart (before ++ cs) = trimStart cs :=
  List.dropWhile_append_of_pos h

theorem trimStart_eq_nil (h : Blanks cs) : trimStart cs = [] := by
  have hnil : trimStart (cs ++ []) = [] := trimStart_append h
  rwa [List.append_nil] at hnil

theorem trimStart_eq_self (h : ∀ c ∈ cs.head?, isBlank c = false) : trimStart cs = cs :=
  dropWhile_of_head h

/-! ## Trimming -/

/-- What trimming takes away at the end: blanks, in the order in which they were. It works
on the reversed text, and this lemma turns it round again. -/
theorem trim_append (cs : List Char) :
    trim cs ++ ((trimStart cs).reverse.takeWhile isBlank).reverse = trimStart cs := by
  rw [trim, trimEnd, ← List.reverse_append, List.takeWhile_append_dropWhile, List.reverse_reverse]

/-- So a text is what is left with blanks around it. -/
theorem padded_trim (cs : List Char) : Padded (trim cs) cs := by
  refine ⟨cs.takeWhile isBlank, ((trimStart cs).reverse.takeWhile isBlank).reverse,
    blanks_takeWhile cs, ?_, ?_⟩
  · intro c hc
    exact blanks_takeWhile _ c (List.mem_reverse.mp hc)
  · rw [List.append_assoc, trim_append]
    exact List.takeWhile_append_dropWhile.symm

/-- Nothing is left to trim. The front is not touched by what happens at the end unless the
text is used up. -/
theorem tight_trim (cs : List Char) : Tight (trim cs) := by
  refine ⟨?_, ?_⟩
  · -- the first character is that of the text without the blanks in front
    intro c hc
    refine head_dropWhile isBlank cs c ?_
    change c ∈ (trimStart cs).head?
    rw [← trim_append, List.head?_append, Option.mem_def.mp hc]
    rfl
  · intro c hc
    refine head_dropWhile isBlank (trimStart cs).reverse c ?_
    rwa [trim, trimEnd, List.getLast?_reverse] at hc

/-- **Trimming finds the one tight text that lies within the blanks.** From here on nothing
looks at how it does that. -/
theorem trim_eq_iff {core : List Char} : trim cs = core ↔ Tight core ∧ Padded core cs := by
  refine ⟨?_, ?_⟩
  · rintro rfl
    exact ⟨tight_trim cs, padded_trim cs⟩
  · rintro ⟨htight, before, after, hbefore, hafter, rfl⟩
    rw [List.append_assoc, trim, trimStart_append hbefore]
    cases core with
    | nil =>
      rw [List.nil_append, trimStart_eq_nil hafter]
      rfl
    | cons c core =>
      have hfront : trimStart (c :: core ++ after) = c :: core ++ after := by
        refine trimStart_eq_self ?_
        intro d hd
        exact htight.front d hd
      have hblanks : Blanks after.reverse := fun d hd => hafter d (List.mem_reverse.mp hd)
      have hback : ∀ d ∈ (c :: core).reverse.head?, isBlank d = false := by
        intro d hd
        rw [List.head?_reverse] at hd
        exact htight.back d hd
      rw [hfront, trimEnd, List.reverse_append, List.dropWhile_append_of_pos hblanks,
        dropWhile_of_head hback, List.reverse_reverse]

theorem trim_of_padded {core : List Char} (h : Tight core) (hp : Padded core cs) :
    trim cs = core :=
  trim_eq_iff.mpr ⟨h, hp⟩

theorem Padded.refl (cs : List Char) : Padded cs cs :=
  ⟨[], [], blanks_nil, blanks_nil, by simp⟩

/-- Blanks around blanks are blanks around the text within. -/
theorem Padded.trans {core part : List Char} (h : Padded core part) (h' : Padded part cs) :
    Padded core cs := by
  obtain ⟨before, after, hbefore, hafter, rfl⟩ := h
  obtain ⟨before', after', hbefore', hafter', rfl⟩ := h'
  refine ⟨before' ++ before, after ++ after', ?_, ?_, by simp⟩
  · exact List.forall_mem_append.mpr ⟨hbefore', hbefore⟩
  · exact List.forall_mem_append.mpr ⟨hafter, hafter'⟩

/-- A text is tight if it begins and ends with tight words, whatever stands between them. -/
theorem tight_append {front back : List Char} (mid : List Char) (hfront : Tight front)
    (hne : front ≠ []) (hback : Tight back) (hne' : back ≠ []) :
    Tight (front ++ mid ++ back) := by
  refine ⟨fun c hc => hfront.front c ?_, fun c hc => hback.back c ?_⟩
  · rwa [List.append_assoc, List.head?_append, List.head?_eq_some_head hne, Option.some_or,
      ← List.head?_eq_some_head hne] at hc
  · rwa [List.getLast?_append, List.getLast?_eq_some_getLast hne', Option.some_or,
      ← List.getLast?_eq_some_getLast hne'] at hc

/-- A tight text has no blanks in front. -/
theorem Tight.nil_of_front (cs : List Char) (h : Tight (before ++ cs))
    (hblanks : Blanks before) : before = [] := by
  cases before with
  | nil => rfl
  | cons c before =>
    have hblank := hblanks c List.mem_cons_self
    rw [h.front c rfl] at hblank
    cases hblank

/-- Nor at its end. Both are used to show that the blanks that the grammar allows are not
there. -/
theorem Tight.nil_of_back (cs : List Char) (h : Tight (cs ++ after)) (hblanks : Blanks after) :
    after = [] := by
  rcases hlast : after.getLast? with _ | c
  · exact List.getLast?_eq_none_iff.mp hlast
  · have hblank := hblanks c (List.mem_of_getLast? hlast)
    have hc : c ∈ (cs ++ after).getLast? := by
      rw [List.getLast?_append, hlast]
      rfl
    rw [h.back c hc] at hblank
    cases hblank

end

/-! ## Breaking at a word -/

section

variable {word cs before after : List Char} {c : Char}

/-- A text that breaks is put together from its parts and the word. -/
theorem eq_of_breakAt (h : breakAt word cs = some (before, after)) :
    cs = before ++ word ++ after := by
  induction cs generalizing before with
  | nil =>
    unfold breakAt at h
    split at h
    · next hword =>
      cases h
      simp [hword]
    · cases h
  | cons d rest ih =>
    unfold breakAt at h
    split at h
    · next hprefix =>
      cases h
      obtain ⟨tail, htail⟩ := List.isPrefixOf_iff_prefix.mp hprefix
      rw [← htail, List.drop_left, List.nil_append]
    · obtain ⟨⟨front, back⟩, hrest, hpair⟩ := Option.map_eq_some_iff.mp h
      cases hpair
      rw [ih hrest]
      rfl

/-- A text does not break at a word that does not stand in it. -/
theorem breakAt_eq_none (h : ∀ before after, cs ≠ before ++ word ++ after) :
    breakAt word cs = none := by
  rcases hbreak : breakAt word cs with _ | ⟨before, after⟩
  · rfl
  · exact absurd (eq_of_breakAt hbreak) (h before after)

/-- A text does not break at a word of which one character is missing in it. -/
theorem breakAt_of_notMem (hc : c ∈ word) (h : c ∉ cs) : breakAt word cs = none := by
  refine breakAt_eq_none ?_
  rintro before after rfl
  exact h (List.mem_append_left _ (List.mem_append_right _ hc))

/-- A text breaks at the first place where the word can begin. That its first character does
not stand in front is more than is needed, but it is what keys and values give. -/
theorem breakAt_append (h : c ∉ before) :
    breakAt (c :: word) (before ++ c :: (word ++ after)) = some (before, after) := by
  induction before with
  | nil =>
    have hprefix : (c :: word).isPrefixOf (c :: (word ++ after)) = true :=
      List.isPrefixOf_iff_prefix.mpr ⟨after, rfl⟩
    rw [List.nil_append, breakAt, if_pos hprefix]
    simp
  | cons d before ih =>
    have hd : c ≠ d := fun e => h (e ▸ List.mem_cons_self)
    have hprefix : ¬ (c :: word).isPrefixOf (d :: (before ++ c :: (word ++ after))) = true := by
      simp [List.isPrefixOf, hd]
    rw [List.cons_append, breakAt, if_neg hprefix, ih fun hmem => h (List.mem_cons_of_mem _ hmem)]
    rfl

/-- Joining brings in nothing but the separator. -/
theorem notMem_joined {sep : Char} {parts : List (List Char)} (hsep : c ≠ sep)
    (h : ∀ part ∈ parts, c ∉ part) : c ∉ joined sep parts := by
  induction parts with
  | nil => exact List.not_mem_nil
  | cons part rest ih =>
    obtain ⟨hpart, hrest⟩ := List.forall_mem_cons.mp h
    cases rest with
    | nil => exact hpart
    | cons next rest =>
      have hjoined := ih hrest
      simp [joined, hpart, hsep, hjoined]

theorem joined_eq_intercalate (sep : Char) (parts : List (List Char)) :
    joined sep parts = [sep].intercalate parts := by
  induction parts with
  | nil => rfl
  | cons part rest ih =>
    cases rest with
    | nil => simp [joined]
    | cons next rest => rw [joined, ih, List.intercalate_cons_cons, List.append_assoc]; rfl

end

end KindCache.Text
