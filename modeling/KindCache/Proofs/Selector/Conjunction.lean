import KindCache.Proofs.Selector.RoundTrip
import KindCache.Proofs.Watcher.Lists

/-!
# Two selectors in one text

A comma between two selectors makes one selector that asks for both. Each of the two texts leaves
no parenthesis open, so the comma is one between terms.

* `Text.joined_append` — what is joined from more parts;
* `Terms.append`, `Written.comma` — terms and texts of selectors one behind the other;
* `Common`, `Watcher.list_common` — the objects that two lists have in common;
* `Selector.parse_comma` — reading, selecting and listing with both.
-/

namespace KindCache

/-- A separator stands between two groups of parts as between any two parts. Neither group
may be empty, for then there would be no separator. -/
theorem Text.joined_append {sep : Char} {parts parts' : List (List Char)} (hne : parts ≠ [])
    (hne' : parts' ≠ []) :
    joined sep (parts ++ parts') = joined sep parts ++ sep :: joined sep parts' := by
  induction parts with
  | nil => exact absurd rfl hne
  | cons part rest ih =>
    cases rest with
    | nil =>
      obtain ⟨next, rest', rfl⟩ := List.exists_cons_of_ne_nil hne'
      rfl
    | cons next rest =>
      have hrest := ih (List.cons_ne_nil _ _)
      simp only [List.cons_append, joined] at hrest ⊢
      rw [hrest]
      simp

open Classical in
/-- A list of the items that two lists have in common, in the order of either. -/
def Common {α : Type} (common as bs : List α) : Prop :=
  common = as.filter (· ∈ bs) ∧ common = bs.filter (· ∈ as)

/-! ## Lists -/

namespace Selector

/-- The selector that asks for what two selectors ask for. -/
def both (sel sel' : Selector) : Selector :=
  ⟨sel.requirements ++ sel'.requirements⟩

/-- The requirements of a selector all have to hold, so those of two selectors in one list
ask for both. -/
theorem selects_both (sel sel' : Selector) (labels : Labels) :
    (sel.both sel').selects labels = (sel.selects labels && sel'.selects labels) :=
  List.all_append

theorem admits_both (sel sel' : Selector) (d : Document) :
    admits (some (sel.both sel')) d = (admits (some sel) d && admits (some sel') d) :=
  selects_both sel sel' d.labels

end Selector

namespace Watcher

variable {w : Watcher} {ns : Option String}

/-- Of the objects in one list, those that a selector admits are those that are in the list
with this selector. The rest of what makes a list, the namespace and the order, is the same
for both. -/
theorem mem_list_of_mem {selector selector' : Option Selector} {d : Document}
    (hd : d ∈ w.list ns selector) :
    d ∈ w.list ns selector' ↔ Selector.admits selector' d = true := by
  obtain ⟨r, hr, hwithin, -⟩ := mem_list_iff.mp hd
  rw [mem_list_iff]
  constructor
  · rintro ⟨-, -, -, hadmits⟩
    exact hadmits
  · exact fun hadmits => ⟨r, hr, hwithin, hadmits⟩

open Classical in
/-- So to filter by the selector and to filter by the other list is the same. -/
theorem filter_admits (w : Watcher) (ns : Option String) (selector selector' : Option Selector) :
    (w.list ns selector).filter (Selector.admits selector') =
      (w.list ns selector).filter (· ∈ w.list ns selector') := by
  refine List.filter_congr fun d hd => ?_
  rw [Bool.eq_iff_iff, decide_eq_true_eq, mem_list_of_mem hd]

/-- Two selectors at once list what both of them list. The one list is in the order of the
store, and filtering keeps the order, so this is about lists and not just about their
members. -/
theorem list_common (w : Watcher) (ns : Option String) (sel sel' : Selector) :
    Common (w.list ns (some (sel.both sel'))) (w.list ns (some sel)) (w.list ns (some sel')) := by
  have hleft : w.list ns (some sel) = (w.list ns none).filter (Selector.admits (some sel)) :=
    list_filter
  have hright : w.list ns (some sel') = (w.list ns none).filter (Selector.admits (some sel')) :=
    list_filter
  refine ⟨?_, ?_⟩
  · rw [← filter_admits, list_filter, hleft, List.filter_filter]
    refine List.filter_congr fun d _ => ?_
    rw [Selector.admits_both, Bool.and_comm]
  · rw [← filter_admits, list_filter, hright, List.filter_filter]
    exact List.filter_congr fun d _ => Selector.admits_both sel sel' d

end Watcher

/-! ## Texts -/

namespace Selector

/-- Terms behind terms, and blanks where there were blanks. -/
theorem Terms.append {parts parts' : List (List Char)} {rs rs' : List Requirement}
    (h : Terms parts rs) (h' : Terms parts' rs') : Terms (parts ++ parts') (rs ++ rs') := by
  induction h with
  | nil => exact h'
  | blank hpart _ ih => exact .blank hpart ih
  | term hpart hterm _ ih => exact .term hpart hterm ih

/-- A comma between the texts of two selectors. It is one more separator between terms,
whatever commas there are within sets. -/
theorem Written.comma {cs cs' : List Char} {rs rs' : List Requirement} (h : Written cs rs)
    (h' : Written cs' rs') : Written (cs ++ ',' :: cs') (rs ++ rs') := by
  obtain ⟨parts, hne, rfl, hterms⟩ := h
  obtain ⟨parts', hne', rfl, hterms'⟩ := h'
  refine ⟨parts ++ parts', ?_, (Text.joined_append hne hne').symm, hterms.append hterms'⟩
  exact List.append_ne_nil_of_left_ne_nil hne parts'

/-- **A comma is a conjunction.** Two selectors with a comma between them are one
selector, which holds the requirements of the first and then those of the second. So it
selects what both of them select, and every list with it is what the lists with the two
have in common. -/
theorem parse_comma {s s' : String} {sel sel' : Selector} (h : parse s = .ok sel)
    (h' : parse s' = .ok sel') :
    ∃ both, parse (s ++ "," ++ s') = .ok both ∧
      both.requirements = sel.requirements ++ sel'.requirements ∧
      (∀ labels, both.selects labels = true ↔
        sel.selects labels = true ∧ sel'.selects labels = true) ∧
      ∀ (w : Watcher) (ns : Option String),
        Common (w.list ns (some both)) (w.list ns (some sel)) (w.list ns (some sel')) := by
  have hwritten : Written (s ++ "," ++ s').toList (sel.both sel').requirements := by
    have htext : (s ++ "," ++ s').toList = s.toList ++ ',' :: s'.toList := by simp
    rw [htext]
    exact (parse_eq_ok_iff.mp h).comma (parse_eq_ok_iff.mp h')
  refine ⟨sel.both sel', parse_eq_ok_iff.mpr hwritten, rfl, fun labels => ?_, fun w ns => ?_⟩
  · rw [selects_both, Bool.and_eq_true]
  · exact w.list_common ns sel sel'

/-- Sets with commas in them, and blank terms at the comma. -/
theorem parse_comma_blank :
    parse "app in (db, web), " = .ok ⟨[.oneOf "app" ⟨["db", "web"], by decide⟩]⟩ ∧
      parse ",app!=db" = .ok ⟨[.notEqual "app" "db"]⟩ ∧
      ∃ both, parse "app in (db, web), ,,app!=db" = .ok both ∧
        both.requirements = [.oneOf "app" ⟨["db", "web"], by decide⟩, .notEqual "app" "db"] ∧
        Common (Watcher.scatteredPods.list none (some both))
          (Watcher.scatteredPods.list none
            (some ⟨[.oneOf "app" ⟨["db", "web"], by decide⟩]⟩))
          (Watcher.scatteredPods.list none (some ⟨[.notEqual "app" "db"]⟩)) := by
  have hset : parse "app in (db, web), " =
      .ok ⟨[.oneOf "app" ⟨["db", "web"], by decide⟩]⟩ := by
    decide +kernel
  have hnot : parse ",app!=db" = .ok ⟨[.notEqual "app" "db"]⟩ := by
    decide +kernel
  obtain ⟨both, hboth, hrequirements, -, hlist⟩ := parse_comma hset hnot
  exact ⟨hset, hnot, both, hboth, hrequirements, hlist _ _⟩

end Selector

end KindCache
