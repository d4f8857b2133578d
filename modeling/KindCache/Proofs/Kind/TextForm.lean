import Mathlib.Data.Set.Function
import KindCache.Kind

/-!
# The text form of kinds

A kind is written with two parts in the core group and with three elsewhere. The parts of its
text are its own as long as none of them holds a slash; a kind of the core group whose version
or name holds one is written like a kind of another group.

* `GroupVersionKind.parts` — what is written, with slashes between;
* `Legible`, `parse_eq_ok_iff` — the kinds that are read, each from its own text only;
* `parse_text_form` — a kind that is read has the text that was read, and a kind is read
  back from its text exactly if it is legible.
-/

namespace KindCache

namespace GroupVersionKind

/-- The parts of the text of a kind. -/
def parts (g : GroupVersionKind) : List (List Char) :=
  if g.group = "" then [g.version.toList, g.kind.toList]
  else [g.group.toList, g.version.toList, g.kind.toList]

/-- The kinds whose text can be read: the group may be empty, but nothing else, and there is
no slash within a part. -/
structure Legible (g : GroupVersionKind) : Prop where
  version_nonempty : g.version ≠ ""
  kind_nonempty : g.kind ≠ ""
  group_slashless : '/' ∉ g.group.toList
  version_slashless : '/' ∉ g.version.toList
  kind_slashless : '/' ∉ g.kind.toList

variable {g : GroupVersionKind} {s : String}

theorem parts_ne_nil (g : GroupVersionKind) : g.parts ≠ [] := by
  unfold parts
  split <;> exact List.cons_ne_nil _ _

/-- The text of a kind is its parts with slashes between. What follows uses that taking a
text apart at slashes undoes this, if no part holds one. -/
theorem toList_text (g : GroupVersionKind) : g.text.toList = Text.joined '/' g.parts := by
  unfold text apiVersion parts
  split <;> simp [Text.joined]

/-- An empty group has no part of its own, and no slash either. So the two ways to write a
kind ask for the same. -/
theorem slashless_iff : (∀ part ∈ g.parts, '/' ∉ part) ↔
    '/' ∉ g.group.toList ∧ '/' ∉ g.version.toList ∧ '/' ∉ g.kind.toList := by
  unfold parts
  split
  · next hgroup => simp [hgroup]
  · simp

/-- A kind is read from a text that consists of its parts. Two parts are taken for version
and name, three for all, and an empty group in front of two slashes is not read as the core
group. -/
theorem ofText?_eq_some_iff : ofText? s = some g ↔
    Text.pieces '/' s.toList = g.parts ∧ g.version ≠ "" ∧ g.kind ≠ "" := by
  obtain ⟨group, version, kind⟩ := g
  unfold ofText? parts
  split
  · next v k hpieces =>
    rw [hpieces, Option.ite_none_right_eq_some, Option.some.injEq, mk.injEq]
    constructor
    · rintro ⟨⟨hv, hk⟩, rfl, rfl, rfl⟩
      simp [hv, hk]
    · rintro ⟨hparts, hv, hk⟩
      split at hparts
      · next hgroup =>
        simp only [List.cons.injEq, and_true] at hparts
        obtain ⟨rfl, rfl⟩ := hparts
        exact ⟨⟨by simpa using hv, by simpa using hk⟩, hgroup.symm, by simp, by simp⟩
      · simp at hparts
  · next a v k hpieces =>
    rw [hpieces, Option.ite_none_right_eq_some, Option.some.injEq, mk.injEq]
    constructor
    · rintro ⟨⟨ha, hv, hk⟩, rfl, rfl, rfl⟩
      simp [ha, hv, hk]
    · rintro ⟨hparts, hv, hk⟩
      split at hparts
      · simp at hparts
      · next hgroup =>
        simp only [List.cons.injEq, and_true] at hparts
        obtain ⟨rfl, rfl, rfl⟩ := hparts
        exact ⟨⟨by simpa using hgroup, by simpa using hv, by simpa using hk⟩, by simp, by simp,
          by simp⟩
  · next htwo hthree =>
    refine iff_of_false (by rintro ⟨⟩) ?_
    rintro ⟨hparts, -⟩
    split at hparts
    · exact htwo _ _ hparts
    · exact hthree _ _ _ hparts

/-- The parts of a text are those of a kind exactly if it is the text of the kind and the
slashes in it are those between the parts. -/
theorem pieces_eq_parts_iff : Text.pieces '/' s.toList = g.parts ↔
    g.text = s ∧ ∀ part ∈ g.parts, '/' ∉ part := by
  constructor
  · intro hparts
    refine ⟨String.toList_inj.mp ?_, fun part hpart => ?_⟩
    · rw [toList_text, ← hparts, Text.joined_pieces]
    · exact Text.notMem_of_mem_pieces (hparts ▸ hpart)
  · rintro ⟨rfl, hslash⟩
    rw [toList_text]
    exact Text.pieces_joined g.parts_ne_nil hslash

theorem parse_eq_ok : parse s = .ok g ↔ ofText? s = some g := by
  unfold parse
  split
  · next h => simp [h]
  · next h => simp [h]

/-- **The kinds that are read are the legible ones**, each from its own text. -/
theorem parse_eq_ok_iff : parse s = .ok g ↔ g.text = s ∧ g.Legible := by
  rw [parse_eq_ok, ofText?_eq_some_iff, pieces_eq_parts_iff, slashless_iff]
  constructor
  · rintro ⟨⟨htext, hgroup, hversion, hkind⟩, hv, hk⟩
    exact ⟨htext, hv, hk, hgroup, hversion, hkind⟩
  · rintro ⟨htext, h⟩
    exact ⟨⟨htext, h.group_slashless, h.version_slashless, h.kind_slashless⟩,
      h.version_nonempty, h.kind_nonempty⟩

/-- A kind that is read has the text from which it was read. A kind, whatever its parts, is
read back from its text exactly if version and name are not empty and no part holds a slash.
So no two legible kinds have one text. -/
theorem parse_text_form :
    (∀ s g, parse s = .ok g → g.text = s) ∧
      (∀ g : GroupVersionKind, parse g.text = .ok g ↔ g.version ≠ "" ∧ g.kind ≠ "" ∧
        '/' ∉ g.group.toList ∧ '/' ∉ g.version.toList ∧ '/' ∉ g.kind.toList) ∧
      Set.InjOn text {g | g.Legible} := by
  refine ⟨fun s g h => (parse_eq_ok_iff.mp h).1, fun g => ?_, fun g hg g' hg' htext => ?_⟩
  · rw [parse_eq_ok_iff]
    constructor
    · rintro ⟨-, h⟩
      exact ⟨h.version_nonempty, h.kind_nonempty, h.group_slashless, h.version_slashless,
        h.kind_slashless⟩
    · rintro ⟨hv, hk, hgroup, hversion, hkind⟩
      exact ⟨rfl, hv, hk, hgroup, hversion, hkind⟩
  · have hread : parse g.text = .ok g := parse_eq_ok_iff.mpr ⟨rfl, hg⟩
    rw [htext, parse_eq_ok_iff.mpr ⟨rfl, hg'⟩] at hread
    exact (Except.ok.inj hread).symm

/-- A version with a slash in the core group is written like a group and a version. -/
theorem parse_text_form_overlap :
    parse "apps/v1/Deployment" = .ok ⟨"apps", "v1", "Deployment"⟩ ∧
      (⟨"apps", "v1", "Deployment"⟩ : GroupVersionKind).text = "apps/v1/Deployment" ∧
      (⟨"", "apps/v1", "Deployment"⟩ : GroupVersionKind).text = "apps/v1/Deployment" ∧
      parse (⟨"", "apps/v1", "Deployment"⟩ : GroupVersionKind).text ≠
        .ok ⟨"", "apps/v1", "Deployment"⟩ ∧
      parse (⟨"", "v1", "Pod"⟩ : GroupVersionKind).text = .ok ⟨"", "v1", "Pod"⟩ := by
  have hread : parse "apps/v1/Deployment" = .ok ⟨"apps", "v1", "Deployment"⟩ := by
    decide +kernel
  refine ⟨hread, parse_text_form.1 _ _ hread, by decide +kernel, fun h => ?_, ?_⟩
  · obtain ⟨-, -, -, hversion, -⟩ := (parse_text_form.2.1 _).mp h
    exact absurd hversion (by decide)
  · exact (parse_text_form.2.1 _).mpr (by decide)

end GroupVersionKind

end KindCache
