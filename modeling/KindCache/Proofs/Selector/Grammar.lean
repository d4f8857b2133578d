import Mathlib.Data.List.Forall2
import Mathlib.Data.List.Sort
import KindCache.Proofs.Text.Trimming
import KindCache.Selector.Parser

/-!
# The grammar of selectors

Which texts are selectors, and what they mean, said without the reader.

* `Key`, `Value`, `Member`, `Braces` — the words of a term;
* `Equation`, `Membership` — the operators between a key and a value or a set;
* `Term`, `Terms`, `Selector.Written` — one term, terms with blank ones between them, and
  the text of a selector;
* `readSides_eq_ok_iff`, `readSet_eq_ok_iff` — the reader takes exactly these words.
-/

namespace KindCache

open Text (Blanks Padded Tight)

namespace Selector

/-! ## Words -/

/-- Letters and digits of ASCII. -/
def LetterOrDigit (c : Char) : Prop :=
  ('a' ≤ c ∧ c ≤ 'z') ∨ ('A' ≤ c ∧ c ≤ 'Z') ∨ ('0' ≤ c ∧ c ≤ '9')

/-- The characters of a label value. -/
def ValueChar (c : Char) : Prop :=
  LetterOrDigit c ∨ c ∈ ['-', '_', '.']

/-- The characters of a label key. -/
def KeyChar (c : Char) : Prop :=
  LetterOrDigit c ∨ c ∈ ['-', '_', '.', '/']

instance (c : Char) : Decidable (LetterOrDigit c) :=
  inferInstanceAs (Decidable (_ ∨ _))

instance (c : Char) : Decidable (ValueChar c) :=
  inferInstanceAs (Decidable (_ ∨ _))

instance (c : Char) : Decidable (KeyChar c) :=
  inferInstanceAs (Decidable (_ ∨ _))

/-- A label key has at least one character. -/
structure Key (key : String) : Prop where
  nonempty : key.toList ≠ []
  chars : ∀ c ∈ key.toList, KeyChar c

/-- A label value may be empty. -/
def Value (value : String) : Prop :=
  ∀ c ∈ value.toList, ValueChar c

/-- A value of a set is not empty, and may have blanks around it. -/
structure Member (part : List Char) (value : String) : Prop where
  nonempty : value.toList ≠ []
  chars : Value value
  padded : Padded value.toList part

/-- Values with commas between them, in parentheses, and the set of them. -/
def Braces (cs : List Char) (set : ValueSet) : Prop :=
  ∃ parts values, parts ≠ [] ∧ List.Forall₂ Member parts values ∧
    cs = '(' :: (Text.joined ',' parts ++ [')']) ∧ ∀ v, v ∈ set.values ↔ v ∈ values

/-! ## Terms -/

/-- The operators between a key and a value. -/
inductive Equation : List Char → (String → String → Requirement) → Prop where
  | notEqual : Equation ['!', '='] .notEqual
  | equal : Equation ['='] .equal
  | same : Equation ['=', '='] .equal

/-- The operators between a key and a set. -/
inductive Membership : List Char → (String → ValueSet → Requirement) → Prop where
  | oneOf : Membership ['i', 'n'] .oneOf
  | noneOf : Membership ['n', 'o', 't', 'i', 'n'] .noneOf

/-- A term, and the requirement that it stands for. -/
inductive Term : List Char → Requirement → Prop where
  | absent {key : String} {ws : List Char} (hkey : Key key) (hws : Blanks ws) :
    Term ('!' :: (ws ++ key.toList)) (.absent key)
  | equation {key value : String} {ws ws' op : List Char}
    {make : String → String → Requirement} (hop : Equation op make) (hkey : Key key)
    (hvalue : Value value) (hws : Blanks ws) (hws' : Blanks ws') :
    Term (key.toList ++ ws ++ (op ++ (ws' ++ value.toList))) (make key value)
  | present {key : String} (hkey : Key key) : Term key.toList (.present key)
  /-- at least one blank stands between the key and the operator -/
  | membership {key : String} {set : ValueSet} {ws ws' op braces : List Char}
    {make : String → ValueSet → Requirement} (hop : Membership op make) (hkey : Key key)
    (hset : Braces braces set) (hws : Blanks ws) (hne : ws ≠ []) (hws' : Blanks ws') :
    Term (key.toList ++ ws ++ (op ++ (ws' ++ braces))) (make key set)

/-- Terms with blanks around them, with blank texts between them, and the requirements that
they stand for. -/
inductive Terms : List (List Char) → List Requirement → Prop where
  | nil : Terms [] []
  | blank {part : List Char} {parts : List (List Char)} {rs : List Requirement}
    (hpart : Blanks part) (h : Terms parts rs) : Terms (part :: parts) rs
  | term {part core : List Char} {parts : List (List Char)} {r : Requirement}
    {rs : List Requirement} (hpart : Padded core part) (hterm : Term core r)
    (h : Terms parts rs) : Terms (part :: parts) (r :: rs)

/-- The text of a selector: terms with commas between them. -/
def Written (cs : List Char) (rs : List Requirement) : Prop :=
  ∃ parts, parts ≠ [] ∧ cs = Text.joined ',' parts ∧ Terms parts rs

/-! ## Characters -/

section

variable {c : Char} {key value : String} {cs ws : List Char}

theorem isAlphanumeric_iff : isAlphanumeric c = true ↔ LetterOrDigit c := by
  simp [isAlphanumeric, LetterOrDigit, or_assoc]

theorem isValueChar_iff : isValueChar c = true ↔ ValueChar c := by
  simp [isValueChar, ValueChar, isAlphanumeric_iff, or_assoc]

theorem isKeyChar_iff : isKeyChar c = true ↔ KeyChar c := by
  simp [isKeyChar, isValueChar, KeyChar, isAlphanumeric_iff, or_assoc]

/-- A value has fewer characters to choose from than a key, so what holds of the characters
of keys holds of both. -/
theorem ValueChar.keyChar (h : ValueChar c) : KeyChar c := by
  refine h.imp_right fun hc => ?_
  simp only [List.mem_cons] at hc ⊢
  tauto

/-- No word holds a blank, and so blanks always stand between words. -/
theorem KeyChar.not_blank (h : KeyChar c) : Text.isBlank c = false := by
  rcases h with halpha | hmark
  · have hrange : (97 ≤ c.toNat ∧ c.toNat ≤ 122) ∨ (65 ≤ c.toNat ∧ c.toNat ≤ 90) ∨
        (48 ≤ c.toNat ∧ c.toNat ≤ 57) := by
      simpa [LetterOrDigit, Char.le_def, UInt32.le_iff_toNat_le] using halpha
    simp only [Text.isBlank, Text.blankRanges, List.any_eq_false, List.forall_mem_cons,
      Bool.and_eq_true, decide_eq_true_eq, List.not_mem_nil, false_implies, implies_true, and_true]
    omega
  · simp only [List.mem_cons, List.not_mem_nil, or_false] at hmark
    rcases hmark with rfl | rfl | rfl | rfl <;> decide

theorem Key.notMem (h : Key key) (hc : ¬ KeyChar c) : c ∉ key.toList :=
  fun hmem => hc (h.chars c hmem)

theorem Value.notMem (h : Value value) (hc : ¬ ValueChar c) : c ∉ value.toList :=
  fun hmem => hc (h c hmem)

theorem notMem_blanks (h : Blanks ws) (hc : Text.isBlank c = false) : c ∉ ws := by
  intro hmem
  rw [h c hmem] at hc
  cases hc

/-- The check of the reader in terms of the grammar: there are some characters, and each of
them is one of a key. -/
theorem validKey_iff : validKey cs = true ↔ Key (String.ofList cs) := by
  have hchars : cs.all isKeyChar = true ↔ ∀ c ∈ cs, KeyChar c := by
    simp [List.all_eq_true, isKeyChar_iff]
  rw [validKey, Bool.and_eq_true, hchars]
  constructor
  · rintro ⟨hne, hcs⟩
    exact ⟨by simpa using hne, by simpa using hcs⟩
  · rintro ⟨hne, hcs⟩
    exact ⟨by simpa using hne, by simpa using hcs⟩

theorem validValue_iff : validValue cs = true ↔ Value (String.ofList cs) := by
  simp [validValue, Value, List.all_eq_true, isValueChar_iff]

/-- Words have no blanks at their ends. This is what makes trimming find them again. -/
theorem tight_of_chars (h : ∀ c ∈ cs, KeyChar c) : Tight cs := by
  refine ⟨fun c hc => ?_, fun c hc => ?_⟩
  · exact (h c (List.mem_of_head? hc)).not_blank
  · exact (h c (List.mem_of_getLast? hc)).not_blank

theorem Key.tight (h : Key key) : Tight key.toList :=
  tight_of_chars h.chars

theorem Value.tight (h : Value value) : Tight value.toList :=
  tight_of_chars fun c hc => (h c hc).keyChar

end

/-! ## Reading words -/

section

variable {cs inner part : List Char} {parts : List (List Char)} {key value : String}
  {values : List String} {set : ValueSet}

/-- **The sides of an equation are read if they are a key and a value**, with any blanks
around them. -/
theorem readSides_eq_ok_iff {sides : List Char × List Char} :
    readSides sides = .ok (key, value) ↔
      (Key key ∧ Padded key.toList sides.1) ∧ Value value ∧ Padded value.toList sides.2 := by
  simp only [readSides]
  constructor
  · intro h
    split at h
    · cases h
    · next hkey =>
      split at h
      · cases h
      · next hvalue =>
        cases h
        rw [Bool.not_eq_true', Bool.not_eq_false, validKey_iff] at hkey
        rw [Bool.not_eq_true', Bool.not_eq_false, validValue_iff] at hvalue
        refine ⟨⟨hkey, ?_⟩, hvalue, ?_⟩ <;> rw [String.toList_ofList] <;>
          exact Text.padded_trim _
  · rintro ⟨⟨hkey, hleft⟩, hvalue, hright⟩
    have hvalid : validKey key.toList = true := validKey_iff.mpr (by simpa using hkey)
    have hvalid' : validValue value.toList = true := validValue_iff.mpr (by simpa using hvalue)
    rw [Text.trim_of_padded hkey.tight hleft, Text.trim_of_padded hvalue.tight hright]
    simp [hvalid, hvalid']

/-- A member is read without its blanks. -/
theorem Member.trim_eq (h : Member part value) : Text.trim part = value.toList :=
  Text.trim_of_padded h.chars.tight h.padded

/-- A member holds nothing but its characters and blanks, and in particular no comma and no
parenthesis. -/
theorem Member.notMem {c : Char} (h : Member part value) (hc : ¬ ValueChar c)
    (hblank : Text.isBlank c = false) : c ∉ part := by
  obtain ⟨before, after, hbefore, hafter, rfl⟩ := h.padded
  simp [notMem_blanks hbefore hblank, notMem_blanks hafter hblank, h.chars.notMem hc]

/-- The check of one member says that it is one, with what is left of it after trimming as
its value. -/
theorem member_trim_iff : Member part (String.ofList (Text.trim part)) ↔
    (!(Text.trim part).isEmpty && validValue (Text.trim part)) = true := by
  rw [Bool.and_eq_true, validValue_iff]
  constructor
  · intro h
    have hne := h.nonempty
    rw [String.toList_ofList] at hne
    exact ⟨by simpa using hne, h.chars⟩
  · rintro ⟨hne, hchars⟩
    refine ⟨?_, hchars, ?_⟩
    · rw [String.toList_ofList]
      simpa using hne
    · rw [String.toList_ofList]
      exact Text.padded_trim part

theorem map_trim_of_members (h : List.Forall₂ Member parts values) :
    parts.map Text.trim = values.map String.toList := by
  induction h with
  | nil => rfl
  | cons hpart hrest ih => rw [List.map_cons, List.map_cons, hpart.trim_eq, ih]

theorem notMem_of_members {c : Char} (h : List.Forall₂ Member parts values)
    (hc : ¬ ValueChar c) (hblank : Text.isBlank c = false) : ∀ part ∈ parts, c ∉ part := by
  induction h with
  | nil => simp
  | cons hpart hrest ih => exact List.forall_mem_cons.mpr ⟨hpart.notMem hc hblank, ih⟩

theorem member_of_members (h : List.Forall₂ Member parts values) :
    ∀ part ∈ parts, Member part (String.ofList (Text.trim part)) := by
  induction h with
  | nil => simp
  | @cons part value parts values hpart hrest ih =>
    refine List.forall_mem_cons.mpr ⟨?_, ih⟩
    rwa [hpart.trim_eq, String.ofList_toList]

theorem members_trim (h : ∀ part ∈ parts, Member part (String.ofList (Text.trim part))) :
    List.Forall₂ Member parts ((parts.map Text.trim).map String.ofList) := by
  induction parts with
  | nil => exact .nil
  | cons part parts ih =>
    obtain ⟨hpart, hparts⟩ := List.forall_mem_cons.mp h
    exact .cons hpart (ih hparts)

/-- What stands in parentheses is taken out of the first and the last one. There have to be
two of them: a single character is not its own counterpart. -/
theorem enclosed?_eq_some_iff : enclosed? cs = some inner ↔ cs = '(' :: (inner ++ [')']) := by
  constructor
  · intro h
    unfold enclosed? at h
    split at h
    · next rest =>
      split at h
      · next hlast =>
        cases h
        rw [List.dropLast_append_getLast? _ hlast]
      · cases h
    · cases h
  · rintro rfl
    simp [enclosed?]

/-- A set has the values that it is made of. Their order and how often each of them comes
are lost, by design. -/
theorem mem_ofList {v : String} : v ∈ (ValueSet.ofList values).values ↔ v ∈ values := by
  have hfold : ∀ (s : ValueSet), v ∈ (values.foldl ValueSet.insert s).values ↔
      v ∈ s.values ∨ v ∈ values := by
    induction values with
    | nil => simp
    | cons w values ih =>
      intro s
      rw [List.foldl_cons, ih]
      show v ∈ ValueSet.place w s.values ∨ v ∈ values ↔ _
      rw [ValueSet.mem_place, List.mem_cons, or_assoc, or_left_comm]
  rw [ValueSet.ofList, hfold]
  exact or_iff_right List.not_mem_nil

/-- A set is determined by its members, for its values are in ascending order. -/
theorem eq_of_mem_iff {s t : ValueSet} (h : ∀ v, v ∈ s.values ↔ v ∈ t.values) : s = t := by
  obtain ⟨vs, hvs⟩ := s
  obtain ⟨ws, hws⟩ := t
  obtain rfl : vs = ws := hvs.eq_of_mem_iff hws h
  rfl

theorem Braces.tight (h : Braces cs set) : Tight cs := by
  obtain ⟨parts, values, -, -, rfl, -⟩ := h
  refine ⟨?_, ?_⟩
  · intro c hc
    obtain rfl := Option.some.inj hc
    decide
  · intro c hc
    rw [← List.cons_append, List.getLast?_concat] at hc
    obtain rfl := Option.some.inj hc
    decide

/-- **A set is read from its values in parentheses.** Splitting at commas gives back the
members, because no member holds a comma. -/
theorem readSet_eq_ok_iff :
    readSet cs = .ok set ↔ ∃ braces, Braces braces set ∧ Padded braces cs := by
  constructor
  · intro h
    unfold readSet at h
    split at h
    · cases h
    · next inner hinner =>
      dsimp only at h
      split at h
      · next hall =>
        cases h
        rw [List.all_map, List.all_eq_true] at hall
        refine ⟨Text.trim cs, ⟨Text.pieces ',' inner, _, Text.pieces_ne_nil ',' inner,
          members_trim fun part hpart => member_trim_iff.mpr (hall part hpart), ?_,
          fun v => mem_ofList⟩, Text.padded_trim cs⟩
        rw [Text.joined_pieces]
        exact enclosed?_eq_some_iff.mp hinner
      · cases h
  · rintro ⟨braces, hbraces, hpadded⟩
    have htrim := Text.trim_of_padded hbraces.tight hpadded
    obtain ⟨parts, values, hne, hmembers, rfl, hset⟩ := hbraces
    have hpieces : Text.pieces ',' (Text.joined ',' parts) = parts :=
      Text.pieces_joined hne (notMem_of_members hmembers (by decide) (by decide))
    have hall : ((parts.map Text.trim).all fun v => !v.isEmpty && validValue v) = true := by
      rw [List.all_map, List.all_eq_true]
      exact fun part hpart => member_trim_iff.mp (member_of_members hmembers part hpart)
    unfold readSet
    rw [htrim, enclosed?_eq_some_iff.mpr rfl]
    dsimp only
    rw [hpieces, if_pos hall, map_trim_of_members hmembers, List.map_map,
      eq_of_mem_iff (s := set) (t := ValueSet.ofList values) fun v => (hset v).trans mem_ofList.symm]
    simp

end

end Selector

end KindCache
