import Mathlib.Data.Set.Operations
import KindCache.Proofs.Selector.Reading
import KindCache.Selector.Printer

/-!
# Writing a selector and reading it again

A selector can be built with any texts in it, but not every text can stand in what is
written. Those selectors that the grammar has words for survive, and no others are read.

* `Requirement.Expressible`, `Selector.Expressible` — the selectors that the grammar has
  words for;
* `Requirement.Expressible.term`, `Selector.Expressible.written` — their texts follow the
  grammar and mean what was written;
* `Term.expressible` — a term means nothing else;
* `text_round_trip` — hence writing is undone by reading, and tells all selectors apart
  that are ever read.
-/

namespace KindCache

open Text (Blanks Padded)
open Selector (Key Value Member Braces Term Terms Written validKey_iff validValue_iff)

/-! ## What can be written -/

/-- A set has a written form if it has values and none of them is empty. -/
structure ValueSet.Expressible (set : ValueSet) : Prop where
  nonempty : set.values ≠ []
  members : ∀ v ∈ set.values, v.toList ≠ [] ∧ Value v

/-- The requirements that the grammar has words for. The value of an equation may be
empty, a set and its values may not. -/
def Requirement.Expressible : Requirement → Prop
  | .oneOf key set | .noneOf key set => Key key ∧ set.Expressible
  | .equal key value | .notEqual key value => Key key ∧ Value value
  | .present key | .absent key => Key key

/-- A selector all of whose requirements have words. -/
def Selector.Expressible (sel : Selector) : Prop :=
  ∀ r ∈ sel.requirements, r.Expressible

instance (key : String) : Decidable (Key key) :=
  decidable_of_iff (validKey key.toList = true) (by rw [validKey_iff, String.ofList_toList])

instance (value : String) : Decidable (Value value) :=
  decidable_of_iff (validValue value.toList = true) (by rw [validValue_iff, String.ofList_toList])

instance (set : ValueSet) : Decidable set.Expressible :=
  decidable_of_iff (set.values ≠ [] ∧ ∀ v ∈ set.values, v.toList ≠ [] ∧ Value v)
    ⟨fun h => ⟨h.1, h.2⟩, fun h => ⟨h.nonempty, h.members⟩⟩

instance (r : Requirement) : Decidable r.Expressible :=
  match r with
  | .oneOf _ _ | .noneOf _ _ | .equal _ _ | .notEqual _ _ =>
    inferInstanceAs (Decidable (_ ∧ _))
  | .present key | .absent key => inferInstanceAs (Decidable (Key key))

instance (sel : Selector) : Decidable sel.Expressible :=
  inferInstanceAs (Decidable (∀ r ∈ sel.requirements, r.Expressible))

/-! ## The text of a selector follows the grammar -/

/-- What is written is joined as the grammar says. -/
theorem toList_commas (texts : List String) :
    (String.intercalate "," texts).toList = Text.joined ',' (texts.map String.toList) := by
  rw [String.toList_intercalate, Text.joined_eq_intercalate]
  rfl

/-- The values of a set stand in parentheses, each without blanks around it. A set without
values would be written as a pair of parentheses, which is not a set of the grammar. -/
theorem ValueSet.Expressible.braces {set : ValueSet} (h : set.Expressible) :
    Braces ('(' :: (set.text.toList ++ [')'])) set := by
  refine ⟨set.values.map String.toList, set.values, ?_, ?_, ?_, fun v => .rfl⟩
  · simpa using h.nonempty
  · rw [List.forall₂_map_left_iff, List.forall₂_same]
    intro v hv
    obtain ⟨hne, hvalue⟩ := h.members v hv
    exact ⟨hne, hvalue, .refl _⟩
  · rw [ValueSet.text, toList_commas]

/-- The text of a requirement is a term that stands for it, one case for each operator. Of
the two ways to write an equation it uses the short one. -/
theorem Requirement.Expressible.term {r : Requirement} (h : r.Expressible) :
    Term r.text.toList r := by
  have hspace : Blanks [' '] := List.forall_mem_singleton.mpr (by decide)
  cases r with
  | oneOf key set =>
    have hterm := Term.membership .oneOf h.1 h.2.braces hspace (List.cons_ne_nil _ _) hspace
    simpa [Requirement.text] using hterm
  | noneOf key set =>
    have hterm := Term.membership .noneOf h.1 h.2.braces hspace (List.cons_ne_nil _ _) hspace
    simpa [Requirement.text] using hterm
  | equal key value =>
    have hterm := Term.equation .equal h.1 h.2 Text.blanks_nil Text.blanks_nil
    simpa [Requirement.text] using hterm
  | notEqual key value =>
    have hterm := Term.equation .notEqual h.1 h.2 Text.blanks_nil Text.blanks_nil
    simpa [Requirement.text] using hterm
  | present key => exact .present h
  | absent key =>
    have hterm := Term.absent h Text.blanks_nil
    simpa [Requirement.text] using hterm

namespace Selector

theorem terms_of_expressible {rs : List Requirement} (h : ∀ r ∈ rs, r.Expressible) :
    Terms (rs.map (·.text.toList)) rs := by
  induction rs with
  | nil => exact .nil
  | cons r rs ih =>
    obtain ⟨hr, hrs⟩ := List.forall_mem_cons.mp h
    exact .term (.refl _) hr.term (ih hrs)

/-- The text of a selector is written as the grammar says. A selector without requirements
has an empty text, which is one blank term. -/
theorem Expressible.written {sel : Selector} (h : sel.Expressible) :
    Written sel.text.toList sel.requirements := by
  have htext : sel.text.toList = Text.joined ',' (sel.requirements.map (·.text.toList)) := by
    rw [Selector.text, toList_commas, List.map_map]
    rfl
  rw [htext]
  have hterms := terms_of_expressible h
  rcases sel with ⟨_ | ⟨r, rs⟩⟩
  · -- the empty text is one blank term, not none
    exact ⟨[[]], List.cons_ne_nil _ _, rfl, .blank Text.blanks_nil .nil⟩
  · exact ⟨_, List.cons_ne_nil _ _, rfl, hterms⟩

/-! ## Nothing else is read -/

/-- Values with commas between them are at least one value, and none of them is empty. -/
theorem Braces.expressible {cs : List Char} {set : ValueSet} (h : Braces cs set) :
    set.Expressible := by
  obtain ⟨parts, values, hne, hmembers, -, hset⟩ := h
  refine ⟨fun hnone => hne ?_, fun v hv => ?_⟩
  · -- a value would be a member of the set
    cases hmembers with
    | nil => rfl
    | @cons part value =>
      have hvalue : value ∈ set.values := (hset value).mpr List.mem_cons_self
      rw [hnone] at hvalue
      exact absurd hvalue List.not_mem_nil
  · have hvalue := (hset v).mp hv
    clear hset hne
    induction hmembers with
    | nil => exact absurd hvalue List.not_mem_nil
    | cons hmember _ ih =>
      rcases List.mem_cons.mp hvalue with rfl | hvalue
      · exact ⟨hmember.nonempty, hmember.chars⟩
      · exact ih hvalue

/-- A term stands for a requirement that can be written, since its words are those of the
grammar. -/
theorem Term.expressible {core : List Char} {r : Requirement} (h : Term core r) :
    r.Expressible := by
  cases h with
  | absent hkey => exact hkey
  | equation hop hkey hvalue => cases hop <;> exact ⟨hkey, hvalue⟩
  | present hkey => exact hkey
  | membership hop hkey hset => cases hop <;> exact ⟨hkey, hset.expressible⟩

theorem Terms.expressible {parts : List (List Char)} {rs : List Requirement}
    (h : Terms parts rs) : ∀ r ∈ rs, r.Expressible := by
  induction h with
  | nil => exact fun r hr => absurd hr List.not_mem_nil
  | blank _ _ ih => exact ih
  | term _ hterm _ ih => exact List.forall_mem_cons.mpr ⟨hterm.expressible, ih⟩

/-! ## The round trip -/

/-- Reading in terms of the grammar. What follows is about texts that are written, and does
not look into the reader. -/
theorem parse_eq_ok_iff {s : String} {sel : Selector} :
    parse s = .ok sel ↔ Written s.toList sel.requirements := by
  rw [written_iff, parse]
  rcases readTerms (terms 0 s.toList) with ⟨term, fault⟩ | rs
  · exact iff_of_false (by rintro ⟨⟩) (by rintro ⟨⟩)
  · obtain ⟨rs'⟩ := sel
    simp

theorem Expressible.parse_text {sel : Selector} (h : sel.Expressible) :
    parse sel.text = .ok sel :=
  parse_eq_ok_iff.mpr h.written

theorem expressible_of_parse {s : String} {sel : Selector} (h : parse s = .ok sel) :
    sel.Expressible := by
  obtain ⟨parts, -, -, hterms⟩ := parse_eq_ok_iff.mp h
  exact hterms.expressible

/-- **Writing is undone by reading.** A selector whose keys and values are words of the
grammar is read back from its text, and every selector that is read is of this kind. So its
text is another text for the same selector, and no other selector that is read has this
text. -/
theorem text_round_trip :
    (∀ sel : Selector, sel.Expressible → parse sel.text = .ok sel) ∧
      (∀ s sel, parse s = .ok sel → sel.Expressible) ∧
      (∀ s sel, parse s = .ok sel → parse sel.text = parse s) ∧
      Set.InjOn Selector.text {sel | ∃ s, parse s = .ok sel} := by
  refine ⟨fun _ h => h.parse_text, fun _ _ h => expressible_of_parse h, ?_, ?_⟩
  · intro s sel h
    rw [h, (expressible_of_parse h).parse_text]
  · rintro sel ⟨s, h⟩ sel' ⟨s', h'⟩ htext
    have hread := (expressible_of_parse h).parse_text
    rw [htext, (expressible_of_parse h').parse_text] at hread
    exact (Except.ok.inj hread).symm

/-- Keys that are spelled like operators, and empty values. -/
def operatorsAsKeys : Selector :=
  ⟨[.oneOf "in" ⟨["notin"], by decide⟩, .equal "notin" "", .noneOf "a/b" ⟨["x", "y"], by decide⟩,
    .absent "in", .present "notin", .notEqual "k" ""]⟩

theorem text_round_trip_operators :
    operatorsAsKeys.text = "in in (notin),notin=,a/b notin (x,y),!in,notin,k!=" ∧
      operatorsAsKeys.Expressible ∧ parse operatorsAsKeys.text = .ok operatorsAsKeys ∧
      parse "a==b, ,c in ( y,x,y )" = parse "a=b,c in (x,y)" := by
  have hread : parse "a==b, ,c in ( y,x,y )" =
      .ok ⟨[.equal "a" "b", .oneOf "c" ⟨["x", "y"], by decide⟩]⟩ := by
    decide +kernel
  have hkeys : operatorsAsKeys.Expressible := by
    decide +kernel
  have hagain := text_round_trip.2.2.1 _ _ hread
  exact ⟨by decide +kernel, hkeys, text_round_trip.1 _ hkeys, hagain.symm⟩

end Selector

end KindCache
