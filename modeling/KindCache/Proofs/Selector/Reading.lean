import Mathlib.Data.List.TakeWhile
import KindCache.Proofs.Selector.Grammar

/-!
# Reading is the grammar

The reader splits a text at commas by counting parentheses, and recognises a term by what
it finds first in it. Both come out as the grammar says.

* `Term.tighten` — a term can be written without blanks at its ends;
* `ofTerm_trim_eq_ok_iff` — the reader of one term takes the terms and no others;
* `Whole`, `terms_joined` — no term is split, and no two are run together;
* `parse_eq_ok_iff_written` — the texts of selectors, and what they mean.
-/

namespace KindCache

open Text (Blanks Padded Tight)

namespace Selector

/-! ## One term -/

section

variable {cs core part ws : List Char} {r : Requirement} {key value : String} {set : ValueSet}

theorem Equation.tight {op : List Char} {make : String → String → Requirement}
    (h : Equation op make) : Tight op ∧ op ≠ [] := by
  cases h <;> exact ⟨⟨by rintro c ⟨⟩; decide, by rintro c ⟨⟩; decide⟩, List.cons_ne_nil _ _⟩

theorem Braces.ne_nil (h : Braces cs set) : cs ≠ [] := by
  obtain ⟨parts, values, -, -, rfl, -⟩ := h
  exact List.cons_ne_nil _ _

/-- A term can be written without blanks at its ends. Only an equation can have such blanks,
behind an empty value. -/
theorem Term.tighten (h : Term core r) : ∃ tight, Tight tight ∧ Term tight r ∧
    Padded tight core := by
  cases h with
  | @absent key ws hkey hws =>
    refine ⟨_, ?_, .absent hkey hws, .refl _⟩
    have hmark : Tight ['!'] := ⟨by rintro c ⟨⟩; decide, by rintro c ⟨⟩; decide⟩
    exact Text.tight_append ws hmark (List.cons_ne_nil _ _) hkey.tight hkey.nonempty
  | @equation key value ws ws' op make hop hkey hvalue hws hws' =>
    obtain ⟨hoptight, hopne⟩ := hop.tight
    by_cases hempty : value.toList = []
    · -- the blanks behind the operator are blanks at the end
      refine ⟨_, ?_, .equation hop hkey hvalue hws Text.blanks_nil, [], ws', Text.blanks_nil,
        hws', by simp [hempty]⟩
      rw [hempty, List.append_nil, List.append_nil]
      exact Text.tight_append ws hkey.tight hkey.nonempty hoptight hopne
    · refine ⟨_, ?_, .equation hop hkey hvalue hws hws', .refl _⟩
      have htight := Text.tight_append (ws ++ (op ++ ws')) hkey.tight hkey.nonempty
        hvalue.tight hempty
      simpa using htight
  | present hkey => exact ⟨_, hkey.tight, .present hkey, .refl _⟩
  | @membership key set ws ws' op braces make hop hkey hset hws hne hws' =>
    refine ⟨_, ?_, .membership hop hkey hset hws hne hws', .refl _⟩
    have htight := Text.tight_append (ws ++ (op ++ ws')) hkey.tight hkey.nonempty
      hset.tight hset.ne_nil
    simpa using htight

/-! ## Terms are read -/

/-- A text that begins with a key does not begin with a mark, so it is no absence. -/
theorem ofTerm_key (hkey : Key key) (rest : List Char) :
    Requirement.ofTerm (key.toList ++ rest) = readPositive (key.toList ++ rest) := by
  obtain ⟨c, tail, hcons⟩ := List.exists_cons_of_ne_nil hkey.nonempty
  have hc : KeyChar c := hkey.chars c (hcons ▸ List.mem_cons_self)
  rw [hcons]
  unfold Requirement.ofTerm
  split
  · next heq =>
    obtain ⟨rfl, -⟩ := List.cons.inj heq
    exact absurd hc (by decide)
  · rfl

/-- The operator of an equation is found, and nothing in front of it. The signs are looked
for in the order of the reader: the one for inequality first, as an equality sign is a part
of it, and the double one before the single one. -/
theorem Equation.read {op left right : List Char} {make : String → String → Requirement}
    (hop : Equation op make) (hleft : '!' ∉ left) (hleft' : '=' ∉ left) (hright : '!' ∉ right)
    (hright' : '=' ∉ right) : readPositive (left ++ (op ++ right)) =
      (readSides (left, right)).map fun (k, v) => make k v := by
  cases hop with
  | notEqual =>
    have hbreak : Text.breakAt ['!', '='] (left ++ (['!', '='] ++ right)) = some (left, right) :=
      Text.breakAt_append hleft
    rw [readPositive, hbreak]
  | equal =>
    have hmark : Text.breakAt ['!', '='] (left ++ (['='] ++ right)) = none :=
      Text.breakAt_of_notMem List.mem_cons_self (by simp [hleft, hright])
    have htwo : Text.breakAt ['=', '='] (left ++ (['='] ++ right)) = none := by
      refine Text.breakAt_eq_none fun before after hsplit => ?_
      -- there is only one sign
      have hcount := congrArg (List.count '=') hsplit
      simp [List.count_eq_zero_of_not_mem hleft', List.count_eq_zero_of_not_mem hright'] at hcount
      omega
    have hbreak : Text.breakAt ['='] (left ++ (['='] ++ right)) = some (left, right) :=
      Text.breakAt_append hleft'
    rw [readPositive, hmark, htwo, hbreak]
  | same =>
    have hmark : Text.breakAt ['!', '='] (left ++ (['=', '='] ++ right)) = none :=
      Text.breakAt_of_notMem List.mem_cons_self (by simp [hleft, hright])
    have hbreak : Text.breakAt ['=', '='] (left ++ (['=', '='] ++ right)) = some (left, right) :=
      Text.breakAt_append hleft'
    rw [readPositive, hmark, hbreak]

/-- A text without signs of equations begins with a key. -/
theorem readPositive_keyed (h : '=' ∉ cs) : readPositive cs = readKeyed cs := by
  have hnone : ∀ word : List Char, '=' ∈ word → Text.breakAt word cs = none :=
    fun word hword => Text.breakAt_of_notMem hword h
  rw [readPositive, hnone _ (by simp), hnone _ (by simp), hnone _ (by simp)]

/-- A key ends at the first blank, as no key holds one. -/
theorem takeWhile_key (hkey : Key key) (hws : Blanks ws) (hne : ws ≠ []) (rest : List Char) :
    (key.toList ++ ws ++ rest).takeWhile (!Text.isBlank ·) = key.toList ∧
      (key.toList ++ ws ++ rest).dropWhile (!Text.isBlank ·) = ws ++ rest := by
  obtain ⟨b, tail, rfl⟩ := List.exists_cons_of_ne_nil hne
  have hb : Text.isBlank b = true := hws b List.mem_cons_self
  have hchars : ∀ c ∈ key.toList, (!Text.isBlank c) = true := by
    intro c hc
    rw [(hkey.chars c hc).not_blank]
    rfl
  rw [List.append_assoc, List.takeWhile_append_of_pos hchars, List.dropWhile_append_of_pos hchars]
  simp [hb]

/-- The operator of a set is found behind the key. It is looked for by its letters alone,
but neither of the operators is the beginning of the other. -/
theorem Membership.read {op rest : List Char} {make : String → ValueSet → Requirement}
    (hop : Membership op make) (hkey : Key key) (hws : Blanks ws) (hne : ws ≠ []) :
    readKeyed (key.toList ++ ws ++ (op ++ rest)) = (readSet rest).map (make key) := by
  obtain ⟨htake, hdrop⟩ := takeWhile_key hkey hws hne (op ++ rest)
  have hvalid : validKey key.toList = true := validKey_iff.mpr (by simpa using hkey)
  have hrest : Text.trimStart (ws ++ (op ++ rest)) = op ++ rest := by
    rw [Text.trimStart_append hws]
    cases hop <;> exact Text.trimStart_eq_self (by rintro c ⟨⟩; decide)
  simp only [readKeyed, htake, hdrop, hrest, hvalid, String.ofList_toList]
  cases hop <;> rfl

theorem readKeyed_key (hkey : Key key) : readKeyed key.toList = .ok (.present key) := by
  have hchars : ∀ c ∈ key.toList, (!Text.isBlank c) = true := by
    intro c hc
    rw [(hkey.chars c hc).not_blank]
    rfl
  have htake : key.toList.takeWhile (!Text.isBlank ·) = key.toList :=
    List.takeWhile_eq_self_iff.mpr hchars
  have hdrop : key.toList.dropWhile (!Text.isBlank ·) = [] :=
    List.dropWhile_eq_nil_iff.mpr hchars
  have hvalid : validKey key.toList = true := validKey_iff.mpr (by simpa using hkey)
  simp only [readKeyed, htake, hdrop, hvalid, String.ofList_toList]
  rfl

section

variable {c : Char} (hblank : Text.isBlank c = false)

include hblank

/-- What stands in front of an operator is a key and blanks, so a character that is in no
key is not there. -/
theorem notMem_key (hkey : Key key) (hws : Blanks ws) (hc : ¬ KeyChar c) :
    c ∉ key.toList ++ ws :=
  fun hmem => (List.mem_append.mp hmem).elim (hkey.notMem hc) (notMem_blanks hws hblank)

theorem notMem_value (hvalue : Value value) (hws : Blanks ws) (hc : ¬ ValueChar c) :
    c ∉ ws ++ value.toList :=
  fun hmem => (List.mem_append.mp hmem).elim (notMem_blanks hws hblank) (hvalue.notMem hc)

theorem Braces.notMem (hset : Braces cs set) (hc : ¬ ValueChar c)
    (hother : c ∉ ['(', ')', ',']) : c ∉ cs := by
  obtain ⟨parts, values, -, hmembers, rfl, -⟩ := hset
  simp only [List.mem_cons, List.not_mem_nil, or_false, not_or] at hother
  obtain ⟨hopen, hclose, hcomma⟩ := hother
  have hjoined := Text.notMem_joined hcomma (notMem_of_members hmembers hc hblank)
  simp [hopen, hclose, hjoined]

end

/-- **A term is read as what it stands for**, one case for each way to build a term. -/
theorem Term.read (h : Term cs r) : Requirement.ofTerm cs = .ok r := by
  cases h with
  | @absent key ws hkey hws =>
    have htrim : Text.trim (ws ++ key.toList) = key.toList :=
      Text.trim_of_padded hkey.tight ⟨ws, [], hws, Text.blanks_nil, by simp⟩
    have hvalid : validKey key.toList = true := validKey_iff.mpr (by simpa using hkey)
    simp [Requirement.ofTerm, htrim, hvalid]
  | @equation key value ws ws' op make hop hkey hvalue hws hws' =>
    have hsides : readSides (key.toList ++ ws, ws' ++ value.toList) = .ok (key, value) :=
      readSides_eq_ok_iff.mpr ⟨⟨hkey, [], ws, Text.blanks_nil, hws, by simp⟩, hvalue, ws', [], hws',
        Text.blanks_nil, by simp⟩
    rw [List.append_assoc, ofTerm_key hkey, ← List.append_assoc,
      hop.read (notMem_key (by decide) hkey hws (by decide))
        (notMem_key (by decide) hkey hws (by decide))
        (notMem_value (by decide) hvalue hws' (by decide))
        (notMem_value (by decide) hvalue hws' (by decide)), hsides]
    rfl
  | @present key hkey =>
    have hfirst := ofTerm_key hkey []
    rw [List.append_nil] at hfirst
    rw [hfirst, readPositive_keyed (hkey.notMem (by decide)), readKeyed_key hkey]
  | @membership key set ws ws' op braces make hop hkey hset hws hne hws' =>
    have hread : readSet (ws' ++ braces) = .ok set :=
      readSet_eq_ok_iff.mpr ⟨braces, hset, ws', [], hws', Text.blanks_nil, by simp⟩
    have hsign : '=' ∉ key.toList ++ ws ++ (op ++ (ws' ++ braces)) := by
      have hop' : '=' ∉ op := by cases hop <;> decide
      have hfront := notMem_key (c := '=') (by decide) hkey hws (by decide)
      have hback := hset.notMem (c := '=') (by decide) (by decide) (by decide)
      have hblanks := notMem_blanks (c := '=') hws' (by decide)
      simp only [List.mem_append, not_or] at hfront ⊢
      exact ⟨hfront, hop', hblanks, hback⟩
    have hfirst := ofTerm_key hkey (ws ++ (op ++ (ws' ++ braces)))
    rw [← List.append_assoc] at hfirst
    rw [hfirst, readPositive_keyed hsign, hop.read hkey hws hne, hread]
    rfl

/-! ## What is read is a term -/

theorem map_eq_ok {ε α β : Type} {x : Except ε α} {f : α → β} {b : β} (h : x.map f = .ok b) :
    ∃ a, x = .ok a ∧ b = f a := by
  cases x with
  | error e => cases h
  | ok a => exact ⟨a, rfl, (Except.ok.inj h).symm⟩

/-- A text that breaks into the sides of an equation is one. The sides are a key and a value
within blanks, and those at the ends of the text are not there, since it is tight. -/
theorem term_of_sides {op left right : List Char} {make : String → String → Requirement}
    (hop : Equation op make) (htight : Tight (left ++ op ++ right))
    (h : (readSides (left, right)).map (fun (k, v) => make k v) = .ok r) :
    Term (left ++ op ++ right) r := by
  obtain ⟨⟨key, value⟩, hsides, rfl⟩ := map_eq_ok h
  obtain ⟨⟨hkey, ws, ws', hws, hws', rfl⟩, hvalue, vs, vs', hvs, hvs', rfl⟩ :=
    readSides_eq_ok_iff.mp hsides
  -- the blanks at the two ends would be blanks at the ends of the term
  obtain rfl : ws = [] := by
    refine Tight.nil_of_front (key.toList ++ ws' ++ op ++ (vs ++ value.toList ++ vs')) ?_ hws
    simpa using htight
  obtain rfl : vs' = [] := by
    refine Tight.nil_of_back (key.toList ++ ws' ++ op ++ (vs ++ value.toList)) ?_ hvs'
    simpa using htight
  have hterm := Term.equation hop hkey hvalue hws' hvs
  simpa using hterm

/-- A text is its first word, blanks and the rest, and no blanks only if there is no
rest. -/
theorem split_word (cs : List Char) : ∃ ws, Blanks ws ∧
    cs = cs.takeWhile (!Text.isBlank ·) ++ ws ++
      Text.trimStart (cs.dropWhile (!Text.isBlank ·)) ∧
    (Text.trimStart (cs.dropWhile (!Text.isBlank ·)) ≠ [] → ws ≠ []) := by
  have hdrop : (cs.dropWhile (!Text.isBlank ·)).takeWhile Text.isBlank ++
      Text.trimStart (cs.dropWhile (!Text.isBlank ·)) = cs.dropWhile (!Text.isBlank ·) :=
    List.takeWhile_append_dropWhile
  refine ⟨(cs.dropWhile (!Text.isBlank ·)).takeWhile Text.isBlank, Text.blanks_takeWhile _, ?_, ?_⟩
  · rw [List.append_assoc, hdrop, List.takeWhile_append_dropWhile]
  · intro hrest hnone
    rw [hnone, List.nil_append] at hdrop
    obtain ⟨c, tail, hcons⟩ := List.exists_cons_of_ne_nil hrest
    -- the first character of the rest would be blank and not blank
    have hnot := Text.head_dropWhile Text.isBlank (cs.dropWhile (!Text.isBlank ·)) c
    have hblank := Text.head_dropWhile (!Text.isBlank ·) cs c
    change c ∈ (Text.trimStart _).head? → _ at hnot
    rw [hcons] at hnot
    rw [← hdrop, hcons] at hblank
    have htrue := hblank rfl
    rw [hnot rfl] at htrue
    cases htrue

/-- A key with an operator behind it, or nothing. Whatever else stands there is refused, so
if something was read it was one of the operators and a set. -/
theorem term_of_readKeyed (htight : Tight cs) (h : readKeyed cs = .ok r) : Term cs r := by
  obtain ⟨ws, hws, hsplit, hgap⟩ := split_word cs
  simp only [readKeyed] at h
  generalize Text.trimStart (cs.dropWhile (!Text.isBlank ·)) = rest at h hsplit hgap
  split at h
  · cases h
  · next hvalid =>
    rw [Bool.not_eq_true', Bool.not_eq_false, validKey_iff] at hvalid
    generalize hkey : String.ofList (cs.takeWhile (!Text.isBlank ·)) = key at h hvalid
    have htake : cs.takeWhile (!Text.isBlank ·) = key.toList := by
      rw [← hkey, String.toList_ofList]
    rw [htake] at hsplit
    rw [hsplit] at htight ⊢
    have hset : ∀ {op text : List Char} {make : String → ValueSet → Requirement},
        Membership op make → rest = op ++ text → (readSet text).map (make key) = .ok r →
        Term (key.toList ++ ws ++ rest) r := by
      intro op text make hop hsame hmap
      obtain ⟨set, hread, rfl⟩ := map_eq_ok hmap
      obtain ⟨braces, hbraces, ws', vs, hws', hvs, rfl⟩ := readSet_eq_ok_iff.mp hread
      subst hsame
      obtain rfl : vs = [] := by
        refine Tight.nil_of_back (key.toList ++ ws ++ (op ++ (ws' ++ braces))) ?_ hvs
        simpa using htight
      have hne : ws ≠ [] := hgap (by cases hop <;> exact List.cons_ne_nil _ _)
      have hterm := Term.membership hop hvalid hbraces hws hne hws'
      simpa using hterm
    split at h
    · cases h
      obtain rfl : ws = [] := by
        refine Tight.nil_of_back (key.toList) ?_ hws
        simpa using htight
      simpa using Term.present hvalid
    · exact hset .noneOf rfl h
    · exact hset .oneOf rfl h
    · cases h

/-- What is read from a tight text is a term, by the cases of the reader. -/
theorem term_of_read (htight : Tight cs) (h : Requirement.ofTerm cs = .ok r) : Term cs r := by
  unfold Requirement.ofTerm at h
  split at h
  · next rest =>
    dsimp only at h
    split at h
    · next hvalid =>
      cases h
      obtain ⟨ws, ws', hws, hws', hpadded⟩ := Text.padded_trim rest
      obtain rfl : ws' = [] := by
        refine Tight.nil_of_back ('!' :: (ws ++ Text.trim rest)) ?_ hws'
        rw [hpadded] at htight
        simpa using htight
      have hterm := Term.absent (validKey_iff.mp hvalid) hws
      have hwhole : '!' :: rest = '!' :: (ws ++ Text.trim rest) := by
        rw [List.append_nil] at hpadded
        exact congrArg _ hpadded
      rw [String.toList_ofList] at hterm
      rw [hwhole]
      exact hterm
    · cases h
  · next cs hmark =>
    unfold readPositive at h
    split at h
    · next sides hbreak =>
      have hsplit := Text.eq_of_breakAt hbreak
      rw [hsplit] at htight ⊢
      exact term_of_sides .notEqual htight h
    · split at h
      · next sides hbreak =>
        have hsplit := Text.eq_of_breakAt hbreak
        rw [hsplit] at htight ⊢
        exact term_of_sides .same htight h
      · split at h
        · next sides hbreak =>
          have hsplit := Text.eq_of_breakAt hbreak
          rw [hsplit] at htight ⊢
          exact term_of_sides .equal htight h
        · exact term_of_readKeyed htight h

/-- The reader of one term takes the terms of the grammar and no others. It trims first, and
so it is told only texts that are tight. -/
theorem ofTerm_trim_eq_ok_iff :
    Requirement.ofTerm (Text.trim part) = .ok r ↔ ∃ core, Padded core part ∧ Term core r := by
  constructor
  · intro h
    exact ⟨_, Text.padded_trim part, term_of_read (Text.tight_trim part) h⟩
  · rintro ⟨core, hpart, hterm⟩
    obtain ⟨tight, htight, hterm', hcore⟩ := hterm.tighten
    rw [Text.trim_of_padded htight (hcore.trans hpart)]
    exact hterm'.read

/-- No term is blank. So a blank text between commas and a term cannot be taken for one
another. -/
theorem not_blanks_of_term (hpart : Padded core part) (hterm : Term core r) : ¬ Blanks part := by
  intro hblank
  have hread := ofTerm_trim_eq_ok_iff.mpr ⟨core, hpart, hterm⟩
  have htrim : Text.trim part = [] :=
    Text.trim_eq_iff.mpr ⟨tight_of_chars fun c hc => absurd hc List.not_mem_nil, part, [], hblank,
      Text.blanks_nil, by simp⟩
  rw [htrim] at hread
  cases hread

/-- Terms are read in order, and blank ones are skipped. -/
theorem readTerms_eq_ok_iff {parts : List (List Char)} {rs : List Requirement} :
    readTerms parts = .ok rs ↔ Terms parts rs := by
  induction parts generalizing rs with
  | nil =>
    constructor
    · intro h
      cases h
      exact .nil
    · rintro ⟨⟩
      rfl
  | cons part parts ih =>
    unfold readTerms
    by_cases hblank : Blanks part
    · rw [if_pos (Text.allBlank_iff.mpr hblank), ih]
      constructor
      · exact .blank hblank
      · intro h
        cases h with
        | blank hpart h => exact h
        | term hpart hterm h => exact absurd hblank (not_blanks_of_term hpart hterm)
    · rw [if_neg fun h => hblank (Text.allBlank_iff.mp h)]
      constructor
      · intro h
        split at h
        · cases h
        · next r hr =>
          obtain ⟨rs', hrs', rfl⟩ := map_eq_ok h
          obtain ⟨core, hpart, hterm⟩ := ofTerm_trim_eq_ok_iff.mp hr
          exact .term hpart hterm (ih.mp hrs')
      · intro h
        cases h with
        | blank hpart h => exact absurd hpart hblank
        | term hpart hterm h =>
          rw [ofTerm_trim_eq_ok_iff.mpr ⟨_, hpart, hterm⟩, ih.mpr h]
          rfl

end

/-! ## Splitting -/

/-- A text in front of the first of some parts. -/
def prefixed (cs : List Char) : List (List Char) → List (List Char)
  | [] => [cs]
  | part :: parts => (cs ++ part) :: parts

/-- A text that is not split, and after which the parentheses are even. It says so for every
text that may follow, which makes it a property that can be put together. -/
def Whole (cs : List Char) : Prop :=
  ∀ rest, terms 0 (cs ++ rest) = prefixed cs (terms 0 rest)

section

variable {cs cs' rest part core ws : List Char} {parts : List (List Char)} {depth : Int} {c : Char}
  {r : Requirement} {rs : List Requirement}

/-- Splitting gives at least one part. -/
theorem terms_ne_nil (depth : Int) (cs : List Char) : terms depth cs ≠ [] := by
  cases cs with
  | nil => exact List.cons_ne_nil _ _
  | cons c rest =>
    unfold terms
    split
    · exact List.cons_ne_nil _ _
    · split <;> exact List.cons_ne_nil _ _

theorem prefixed_append (hne : parts ≠ []) :
    prefixed (cs ++ cs') parts = prefixed cs (prefixed cs' parts) := by
  obtain ⟨part, rest, rfl⟩ := List.exists_cons_of_ne_nil hne
  simp [prefixed]

/-- A character that does not separate belongs to the first part. -/
theorem terms_cons (h : ¬ (c = ',' ∧ depth = 0)) :
    terms depth (c :: rest) = prefixed [c] (terms (depth + depthStep c) rest) := by
  rw [terms, if_neg h]
  split
  · next hnil => exact absurd hnil (terms_ne_nil _ _)
  · next hcons =>
    rw [hcons]
    rfl

/-- Splitting at commas loses nothing, whatever the parentheses. So the parts of a text
determine it. -/
theorem joined_terms (depth : Int) (cs : List Char) :
    Text.joined ',' (terms depth cs) = cs := by
  induction cs generalizing depth with
  | nil => rfl
  | cons c cs ih =>
    by_cases hcomma : c = ',' ∧ depth = 0
    · obtain ⟨rfl, rfl⟩ := hcomma
      obtain ⟨part, parts, hparts⟩ := List.exists_cons_of_ne_nil (terms_ne_nil 0 cs)
      have hrest := ih 0
      rw [hparts] at hrest
      simp [terms, hparts, Text.joined, hrest]
    · rw [terms_cons hcomma]
      have hrest := ih (depth + depthStep c)
      obtain ⟨part, parts, hparts⟩ :=
        List.exists_cons_of_ne_nil (terms_ne_nil (depth + depthStep c) cs)
      rw [hparts] at hrest ⊢
      rw [← hrest]
      cases parts <;> simp [prefixed, Text.joined]

theorem depthStep_eq_zero (hopen : c ≠ '(') (hclose : c ≠ ')') : depthStep c = 0 := by
  unfold depthStep
  split
  · exact absurd rfl hopen
  · exact absurd rfl hclose
  · rfl

/-- A text without parentheses is not split between parentheses, nor if it has no comma. -/
theorem terms_append (hopen : '(' ∉ cs) (hclose : ')' ∉ cs) (hcomma : depth ≠ 0 ∨ ',' ∉ cs) :
    terms depth (cs ++ rest) = prefixed cs (terms depth rest) := by
  induction cs with
  | nil =>
    obtain ⟨part, parts, hparts⟩ := List.exists_cons_of_ne_nil (terms_ne_nil depth rest)
    rw [List.nil_append, hparts]
    rfl
  | cons c cs ih =>
    simp only [List.mem_cons, not_or] at hopen hclose hcomma
    have hrest := ih hopen.2 hclose.2 (hcomma.imp_right And.right)
    have hnot : ¬ (c = ',' ∧ depth = 0) := by
      rintro ⟨rfl, rfl⟩
      exact hcomma.elim (fun h => h rfl) fun h => h.1 rfl
    rw [List.cons_append, terms_cons hnot,
      depthStep_eq_zero (Ne.symm hopen.1) (Ne.symm hclose.1), Int.add_zero, hrest,
      ← prefixed_append (terms_ne_nil _ _)]
    rfl

theorem whole_of_notMem (hopen : '(' ∉ cs) (hclose : ')' ∉ cs) (hcomma : ',' ∉ cs) : Whole cs :=
  fun _ => terms_append hopen hclose (.inr hcomma)

theorem Whole.append (h : Whole cs) (h' : Whole cs') : Whole (cs ++ cs') := by
  intro rest
  rw [List.append_assoc, h, h', ← prefixed_append (terms_ne_nil _ _)]

theorem whole_blanks (h : Blanks ws) : Whole ws :=
  whole_of_notMem (notMem_blanks h (by decide)) (notMem_blanks h (by decide))
    (notMem_blanks h (by decide))

theorem whole_chars (h : ∀ c ∈ cs, KeyChar c) : Whole cs :=
  whole_of_notMem (fun hmem => absurd (h _ hmem) (by decide))
    (fun hmem => absurd (h _ hmem) (by decide)) fun hmem => absurd (h _ hmem) (by decide)

/-- The commas of a set are between its parentheses: the first one opens, the members do not
change the depth, and the last one closes. -/
theorem Braces.whole {set : ValueSet} (h : Braces cs set) : Whole cs := by
  obtain ⟨parts, values, -, hmembers, rfl, -⟩ := h
  have hopen : '(' ∉ Text.joined ',' parts :=
    Text.notMem_joined (by decide) (notMem_of_members hmembers (by decide) (by decide))
  have hclose : ')' ∉ Text.joined ',' parts :=
    Text.notMem_joined (by decide) (notMem_of_members hmembers (by decide) (by decide))
  intro rest
  have hinner : terms 1 (Text.joined ',' parts ++ ([')'] ++ rest)) =
      prefixed (Text.joined ',' parts) (terms 1 ([')'] ++ rest)) :=
    terms_append hopen hclose (.inl (by decide))
  have hend : terms 1 ([')'] ++ rest) = prefixed [')'] (terms 0 rest) :=
    terms_cons (by decide)
  have hbegin : terms 0 ('(' :: (Text.joined ',' parts ++ ([')'] ++ rest))) =
      prefixed ['('] (terms 1 (Text.joined ',' parts ++ ([')'] ++ rest))) :=
    terms_cons (by decide)
  rw [List.cons_append, List.append_assoc, hbegin, hinner, hend,
    ← prefixed_append (terms_ne_nil _ _), ← prefixed_append (terms_ne_nil _ _)]
  rfl

theorem Equation.whole {op : List Char} {make : String → String → Requirement}
    (h : Equation op make) : Whole op := by
  cases h <;> exact whole_of_notMem (by decide) (by decide) (by decide)

theorem Membership.whole {op : List Char} {make : String → ValueSet → Requirement}
    (h : Membership op make) : Whole op := by
  cases h <;> exact whole_of_notMem (by decide) (by decide) (by decide)

/-- No term is split. A set is the only part of a term that may hold a comma. -/
theorem Term.whole (h : Term core r) : Whole core := by
  cases h with
  | absent hkey hws =>
    have hmark : Whole ['!'] := whole_of_notMem (by decide) (by decide) (by decide)
    exact hmark.append ((whole_blanks hws).append (whole_chars hkey.chars))
  | equation hop hkey hvalue hws hws' =>
    exact ((whole_chars hkey.chars).append (whole_blanks hws)).append
      (hop.whole.append ((whole_blanks hws').append (whole_chars fun c hc => (hvalue c hc).keyChar)))
  | present hkey => exact whole_chars hkey.chars
  | membership hop hkey hset hws hne hws' =>
    exact ((whole_chars hkey.chars).append (whole_blanks hws)).append
      (hop.whole.append ((whole_blanks hws').append hset.whole))

theorem Terms.whole (h : Terms parts rs) : ∀ part ∈ parts, Whole part := by
  induction h with
  | nil => simp
  | blank hpart h ih => exact List.forall_mem_cons.mpr ⟨whole_blanks hpart, ih⟩
  | term hpart hterm h ih =>
    obtain ⟨before, after, hbefore, hafter, rfl⟩ := hpart
    exact List.forall_mem_cons.mpr
      ⟨((whole_blanks hbefore).append hterm.whole).append (whole_blanks hafter), ih⟩

/-- Splitting undoes joining, if the parts are whole. Together with `joined_terms` this is
why a text is split into its terms and in no other way. -/
theorem terms_joined (hne : parts ≠ []) (h : ∀ part ∈ parts, Whole part) :
    terms 0 (Text.joined ',' parts) = parts := by
  induction parts with
  | nil => exact absurd rfl hne
  | cons part rest ih =>
    obtain ⟨hpart, hrest⟩ := List.forall_mem_cons.mp h
    cases rest with
    | nil =>
      have halone := hpart []
      rw [List.append_nil] at halone
      rw [Text.joined, halone]
      simp [terms, prefixed]
    | cons next rest =>
      rw [Text.joined, hpart, terms, if_pos ⟨rfl, rfl⟩, ih (List.cons_ne_nil _ _) hrest]
      simp [prefixed]

end

/-! ## Selectors -/

/-- The two halves together: a text is split into terms, and the terms are read. -/
theorem written_iff {cs : List Char} {rs : List Requirement} :
    Written cs rs ↔ readTerms (terms 0 cs) = .ok rs := by
  rw [readTerms_eq_ok_iff]
  constructor
  · rintro ⟨parts, hne, rfl, hterms⟩
    rwa [terms_joined hne hterms.whole]
  · intro hterms
    exact ⟨terms 0 cs, terms_ne_nil 0 cs, (joined_terms 0 cs).symm, hterms⟩

/-- **Reading is the grammar.** A text is a selector exactly if it is written as the grammar
says, and then it holds in order the requirements of its terms. Every other text is
malformed. -/
theorem parse_eq_ok_iff_written (s : String) :
    (∀ sel, parse s = .ok sel ↔ Written s.toList sel.requirements) ∧
      ((∃ reason, parse s = .error (.resolution reason)) ↔ ∀ rs, ¬ Written s.toList rs) := by
  simp only [written_iff, parse]
  rcases readTerms (terms 0 s.toList) with ⟨term, fault⟩ | rs
  · refine ⟨fun sel => ?_, ?_⟩
    · exact iff_of_false (by rintro ⟨⟩) (by rintro ⟨⟩)
    · exact iff_of_true ⟨_, rfl⟩ (by rintro rs ⟨⟩)
  · refine ⟨fun sel => ?_, ?_⟩
    · constructor
      · intro h
        cases h
        rfl
      · intro h
        cases h
        rfl
    · refine iff_of_false ?_ fun h => h rs rfl
      rintro ⟨reason, h⟩
      cases h

example : parse "app in (b, a,b),, !old" =
    .ok ⟨[.oneOf "app" ⟨["a", "b"], by decide⟩, .absent "old"]⟩ := by
  decide +kernel

end Selector

end KindCache
