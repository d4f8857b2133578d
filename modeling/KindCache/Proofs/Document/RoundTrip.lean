import KindCache.Document.Printer
import KindCache.Proofs.Document.Equality

/-!
# Documents that are printed and read

A document that is printed and read again is the same document, down to the order of its keys,
as long as no key is repeated and all its numbers are integers that fit into 64 bits.

* `readUnsigned_digits`, `readNumber_integer` — the digits of a number are all taken, and the
  number ends with them;
* `readUnits_escapedChar`, `readText_printed` — each character is one code unit, however it is
  escaped;
* `readValue_array`, `readItems_more`, `readFields_more`, … — one step of the reader;
* `Exact`, `read_print` — the documents that survive, and that they do.

The reader stops when its steps are used up. Each step takes a character, so as many steps as
there are characters are enough (`readValue_print`).
-/

namespace KindCache

namespace Document

open Decimal (digits digitValue? integerDigits)

variable {n : Nat} {c : Char} {cs rest : List Char} {negative : Bool}

/-- What may follow a value inside a document, or at its end. -/
def Ends (rest : List Char) : Prop :=
  ∀ c ∈ rest.head?, c = ',' ∨ c = ']' ∨ c = '\x7d'

theorem ends_nil : Ends [] := fun _ h => by cases h

theorem ends_cons (h : c = ',' ∨ c = ']' ∨ c = '\x7d') (cs : List Char) : Ends (c :: cs) := by
  rintro _ ⟨⟩
  exact h

/-! ## Numbers -/

/-- The digits of a number as numbers. -/
def digitValues (n : Nat) : List Nat :=
  (digits n).filterMap digitValue?

theorem digitValue_digitChar {d : Nat} (h : d < 10) : digitValue? d.digitChar = some d := by
  revert d
  decide

theorem digitValues_of_lt (h : n < 10) : digitValues n = [n] := by
  rw [digitValues, digits, Nat.toDigits_of_lt_base h, List.filterMap_cons,
    digitValue_digitChar h]
  rfl

/-- A number is written digit by digit from the left, so its last digit comes off at the
right. -/
theorem digitValues_of_ge (h : 10 ≤ n) :
    digitValues n = digitValues (n / 10) ++ [n % 10] := by
  rw [digitValues, digits, Nat.toDigits_of_base_le (by decide) h, List.filterMap_append,
    List.filterMap_cons, digitValue_digitChar (Nat.mod_lt n (by decide))]
  rfl

theorem isSome_digitValue (c : Char) : (digitValue? c).isSome = c.isDigit := by
  unfold digitValue? Char.isDigit
  split <;> simp_all [Char.le_def]

/-- The reader takes digits as long as there are any. What stands behind a number begins
with no digit, so it takes exactly those of the number. -/
theorem leadingDigits_append (hcs : ∀ c ∈ cs, c.isDigit = true)
    (hrest : ∀ c ∈ rest.head?, c.isDigit = false) :
    leadingDigits (cs ++ rest) = (cs.filterMap digitValue?, rest) := by
  induction cs with
  | nil =>
    rcases rest with _ | ⟨c, rest⟩
    · rfl
    · have hc := isSome_digitValue c
      rw [hrest c rfl, Option.isSome_eq_false_iff, Option.isNone_iff_eq_none] at hc
      simp [leadingDigits, hc]
  | cons c cs ih =>
    obtain ⟨hc, hcs⟩ := List.forall_mem_cons.mp hcs
    obtain ⟨d, hd⟩ := Option.isSome_iff_exists.mp ((isSome_digitValue c).trans hc)
    simp [leadingDigits, hd, ih hcs]

theorem Ends.isDigit_head (h : Ends rest) : ∀ c ∈ rest.head?, c.isDigit = false := by
  intro c hc
  rcases h c hc with rfl | rfl | rfl <;> decide

theorem leadingDigits_digits (n : Nat) (h : Ends rest) :
    leadingDigits (digits n ++ rest) = (digitValues n, rest) :=
  leadingDigits_append (fun _ hc => Nat.isDigit_of_mem_toDigits (by decide) (by decide) hc)
    h.isDigit_head

theorem absorb_cons {s d : Nat} (h : s * 10 + d < UInt64.size) (ds : List Nat) :
    absorb s (d :: ds) = ((absorb (s * 10 + d) ds).1, (absorb (s * 10 + d) ds).2 + 1) := by
  rw [absorb, if_pos h]

/-- If all digits of a list are taken, those behind it are taken next. The bound is asked
for at each digit, and a number that fits has no prefix that does not. -/
theorem absorb_append {s t : Nat} {ds : List Nat} (more : List Nat)
    (h : absorb s ds = (t, ds.length)) :
    absorb s (ds ++ more) = ((absorb t more).1, ds.length + (absorb t more).2) := by
  induction ds generalizing s with
  | nil =>
    obtain rfl : s = t := congrArg Prod.fst h
    simp
  | cons d ds ih =>
    by_cases hfits : s * 10 + d < UInt64.size
    · rw [absorb_cons hfits, Prod.mk.injEq, List.length_cons] at h
      have hih := ih (Prod.ext h.1 (Nat.succ.inj h.2))
      rw [List.cons_append, absorb_cons hfits, hih, List.length_cons, Nat.add_right_comm]
    · rw [absorb, if_neg hfits] at h
      cases h

/-- All digits of a number that fits into 64 bits are taken, and their value is the
number. -/
theorem absorb_digitValues (h : n < UInt64.size) :
    absorb 0 (digitValues n) = (n, (digitValues n).length) := by
  induction n using Nat.strongRecOn with
  | _ n ih =>
    by_cases hn : n < 10
    · rw [digitValues_of_lt hn]
      simp [absorb, h]
    · have hdigits := absorb_append [n % 10] (ih (n / 10) (by omega) (by omega))
      have hlast : n / 10 * 10 + n % 10 = n := by omega
      rw [digitValues_of_ge (by omega), hdigits]
      simp [absorb, hlast, h]

theorem digitValues_ne_nil (n : Nat) : digitValues n ≠ [] := by
  by_cases hn : n < 10
  · simp [digitValues_of_lt hn]
  · simp [digitValues_of_ge (Nat.not_lt.mp hn)]

/-- Only zero begins with a zero, so the rule against leading zeros stops nothing that was
printed. -/
theorem eq_zero_of_head (h : (digitValues n).head? = some 0) : n = 0 := by
  induction n using Nat.strongRecOn with
  | _ n ih =>
    by_cases hn : n < 10
    · rw [digitValues_of_lt hn] at h
      exact Option.some.inj h
    · rw [digitValues_of_ge (by omega), List.head?_append_of_ne_nil _ (digitValues_ne_nil _)] at h
      have := ih (n / 10) (by omega) h
      omega

/-- Neither a fraction nor an exponent begins with what may follow a value, so a printed
integer is not taken for a floating-point number. -/
theorem Ends.readFraction (h : Ends rest) : readFraction? rest = some (none, rest) := by
  unfold readFraction?
  split
  · rcases h '.' rfl with hc | hc | hc <;> cases hc
  · rfl

theorem Ends.readExponent (h : Ends rest) : readExponent? rest = some (none, rest) := by
  rcases rest with _ | ⟨c, rest⟩
  · rfl
  · rcases h c rfl with rfl | rfl | rfl <;> rfl

/-- **A number that fits is read back.** Minus zero and numbers below the least of 64 bits
are left out: the reader makes floating-point numbers of them. -/
theorem readUnsigned_digits (hn : n < UInt64.size)
    (hsign : negative = true → n ≠ 0 ∧ Int64.minValue.toInt ≤ -n) (h : Ends rest) :
    readUnsigned? negative (digits n ++ rest) =
      some (.integer (if negative then -n else n), rest) := by
  have hwhole : ¬ (decide (digitValues n = []) || (decide ((digitValues n).head? = some 0) &&
      decide ((digitValues n).length ≠ 1))) = true := by
    rw [Bool.or_eq_true, Bool.and_eq_true, decide_eq_true_eq, decide_eq_true_eq,
      decide_eq_true_eq]
    rintro (hnil | ⟨hzero, hlength⟩)
    · exact digitValues_ne_nil n hnil
    · rw [eq_zero_of_head hzero] at hlength
      exact hlength rfl
  have hfits : ((decide ((digitValues n).length - (digitValues n).length = 0)) &&
      (!negative || (decide (n ≠ 0) && decide (Int64.minValue.toInt ≤ -n)))) = true := by
    rw [Nat.sub_self, decide_eq_true rfl, Bool.true_and]
    cases negative with
    | false => rfl
    | true =>
      obtain ⟨hzero, hmin⟩ := hsign rfl
      rw [decide_eq_true hzero, decide_eq_true hmin]
      rfl
  unfold readUnsigned?
  rw [leadingDigits_digits n h]
  dsimp only
  rw [if_neg hwhole, h.readFraction, absorb_digitValues hn]
  show (readExponent? rest).bind _ = _
  rw [h.readExponent]
  exact if_pos hfits

theorem exists_digits (n : Nat) : ∃ c cs, digits n = c :: cs ∧ c.isDigit = true := by
  obtain ⟨c, cs, h⟩ := List.exists_cons_of_ne_nil (Nat.toDigits_ne_nil : digits n ≠ [])
  have hc : c ∈ Nat.toDigits 10 n := h ▸ List.mem_cons_self
  exact ⟨c, cs, h, Nat.isDigit_of_mem_toDigits (by decide) (by decide) hc⟩

/-- An integer that fits into 64 bits, with or without sign. -/
def Fits (n : Int) : Prop :=
  Int64.minValue.toInt ≤ n ∧ n < UInt64.size

/-- An integer that fits is read back, with its sign. -/
theorem readNumber_integer {n : Int} (hn : Fits n) (h : Ends rest) :
    readNumber? (integerDigits n ++ rest) = some (.integer n, rest) := by
  obtain ⟨hlower, hupper⟩ := hn
  cases n with
  | ofNat n =>
    have hread : readUnsigned? false (digits n ++ rest) = some (.integer n, rest) :=
      readUnsigned_digits (Int.ofNat_lt.mp hupper) (fun h => by cases h) h
    rw [integerDigits, readNumber?]
    · exact hread
    · intro cs hcs
      obtain ⟨c, cs', hdigits, hc⟩ := exists_digits n
      rw [hdigits] at hcs
      obtain rfl : c = '-' := (List.cons.inj hcs).1
      cases hc
  | negSucc n =>
    have hfits : n + 1 < UInt64.size := by
      have hmin : Int64.minValue.toInt = -2 ^ 63 := rfl
      have hsize : UInt64.size = 2 ^ 64 := rfl
      omega
    exact readUnsigned_digits hfits (fun _ => ⟨Nat.succ_ne_zero n, hlower⟩) h

/-! ## Texts -/

/-- The code point of a control character is read back from its two digits. -/
theorem hexUnit_lowByte {n : Nat} (h : n < 0x20) :
    hexUnit? '0' '0' (Nat.digitChar (n / 16 % 16)) (Nat.digitChar (n % 16)) = some n := by
  revert n
  decide

/-- A character is read back, however it is escaped: by its short form, by its code point,
or as it is. -/
theorem readUnits_escapedChar (c : Char) (rest : List Char) :
    readUnits? (escapedChar c ++ rest) =
      (readUnits? rest).bind fun (units, rest) => some (c.toNat :: units, rest) := by
  unfold escapedChar
  split
  case h_8 =>
    split
    · next hc =>
      show readUnits? ('\\' :: 'u' :: '0' :: '0' :: Nat.digitChar (c.toNat / 16 % 16) ::
        Nat.digitChar (c.toNat % 16) :: rest) = _
      rw [readUnits?, hexUnit_lowByte hc]
      rfl
    · next hquote hslash _ _ _ _ _ hc =>
      rw [List.singleton_append, readUnits?, if_neg hc]
      · rfl
      · exact hquote
      · exact fun _ _ _ _ _ hc _ => hslash hc
      · exact fun _ _ hc _ => hslash hc
  all_goals rfl

/-- No character of a text is a half of a pair, so nothing is united that was not one
character before. -/
theorem unitePairs_toNat (cs : List Char) : unitePairs? (cs.map Char.toNat) = some cs := by
  induction cs with
  | nil => rfl
  | cons c cs ih =>
    have hvalid : c.toNat < 0xd800 ∨ 0xdfff < c.toNat ∧ c.toNat < 0x110000 := c.valid
    rw [List.map_cons, unitePairs?.eq_def]
    dsimp only
    rw [if_neg (by omega), if_neg (by omega), ih, Char.ofNat_toNat]
    rfl

theorem printText_append (s : String) (rest : List Char) :
    printText s ++ rest = '"' :: (s.toList.flatMap escapedChar ++ '"' :: rest) := by
  simp [printText]

/-- A text is read back, up to the quote at its end. Quotes inside of it are escaped. -/
theorem readText_printed (s : String) (rest : List Char) :
    readText? (s.toList.flatMap escapedChar ++ '"' :: rest) = some (s, rest) := by
  have hunits : ∀ cs : List Char, readUnits? (cs.flatMap escapedChar ++ '"' :: rest) =
      some (cs.map Char.toNat, rest) := by
    intro cs
    induction cs with
    | nil => rfl
    | cons c cs ih =>
      rw [List.flatMap_cons, List.append_assoc, readUnits_escapedChar, ih]
      rfl
  rw [readText?, hunits]
  show (unitePairs? (s.toList.map Char.toNat)).bind _ = _
  rw [unitePairs_toNat]
  exact congrArg some (Prod.ext String.ofList_toList rfl)

/-! ## Documents -/

mutual

/-- Documents that survive being printed: no key is repeated, and numbers are integers that
fit. A floating-point number may be read as its neighbour. -/
def Exact : Document → Prop
  | .integer n => Fits n
  | .float _ => False
  | .array items => ExactItems items
  | .object fields => (fields.map (·.1)).Nodup ∧ ExactFields fields
  | _ => True

/-- Every item of an array is `Exact`. -/
def ExactItems : List Document → Prop
  | [] => True
  | d :: ds => Exact d ∧ ExactItems ds

/-- Every value of an object is `Exact`. -/
def ExactFields : List (String × Document) → Prop
  | [] => True
  | (_, d) :: fs => Exact d ∧ ExactFields fs

end

variable {d : Document}

theorem exact_natural (h : n < UInt64.size) : (Document.integer n).Exact := by
  have hmin : Int64.minValue.toInt ≤ 0 := by decide
  exact ⟨Int.le_trans hmin (Int.natCast_nonneg n), Int.ofNat_lt.mpr h⟩

theorem skipGaps_cons (h : isGap c = false) (cs : List Char) : skipGaps (c :: cs) = c :: cs :=
  List.dropWhile_cons_of_neg (by simp [h])

/-- What a number begins with. -/
def Leads (c : Char) : Prop :=
  c = '-' ∨ c.isDigit = true

/-- What a number begins with is told apart from whatever else may come, so the reader does
not go wrong at the first character. -/
theorem Leads.ne (h : Leads c) (other : Char) (hminus : other ≠ '-')
    (hdigit : other.isDigit = false) : c ≠ other := by
  rintro rfl
  rcases h with h | h
  · exact hminus h
  · exact absurd (hdigit.symm.trans h) (by decide)

theorem Leads.not_gap (h : Leads c) : isGap c = false := by
  simp [isGap, h.ne ' ' (by decide) (by decide), h.ne '\t' (by decide) (by decide),
    h.ne '\n' (by decide) (by decide), h.ne '\r' (by decide) (by decide)]

theorem exists_integerDigits (n : Int) : ∃ c cs, integerDigits n = c :: cs ∧ Leads c := by
  cases n with
  | ofNat n =>
    obtain ⟨c, cs, h, hc⟩ := exists_digits n
    exact ⟨c, cs, h, .inr hc⟩
  | negSucc n => exact ⟨'-', _, rfl, .inl rfl⟩

/-- What begins like a number is read as one. -/
theorem readValue_number (h : Leads c) (fuel : Nat) (cs : List Char) :
    readValue? (fuel + 1) (c :: cs) = readNumber? (c :: cs) := by
  rw [readValue?, skipGaps_cons h.not_gap]
  split
  case h_7 => rfl
  all_goals
    next heq => exact absurd (List.cons.inj heq).1 (h.ne _ (by decide) (by decide))

/-- No document begins with a blank or a closing bracket. So the reader skips nothing of it,
and does not take an array with items for an empty one. -/
theorem exists_printChars (h : d.Exact) :
    ∃ c cs, d.printChars = c :: cs ∧ isGap c = false ∧ c ≠ ']' := by
  cases d with
  | null => exact ⟨'n', _, rfl, rfl, by decide⟩
  | bool b => cases b <;> exact ⟨_, _, rfl, rfl, by decide⟩
  | integer n =>
    obtain ⟨c, cs, hn, hc⟩ := exists_integerDigits n
    exact ⟨c, cs, hn, hc.not_gap, hc.ne _ (by decide) (by decide)⟩
  | float x => cases h
  | text s => exact ⟨'"', _, rfl, rfl, by decide⟩
  | array items => exact ⟨'[', _, rfl, rfl, by decide⟩
  | object fields => exact ⟨'\x7b', _, rfl, rfl, by decide⟩

theorem printItems_cons (d e : Document) (ds : List Document) :
    printItems (d :: e :: ds) = d.printChars ++ ',' :: printItems (e :: ds) := rfl

theorem printFields_cons (k : String) (d : Document) (f : Field) (fs : List Field) :
    printFields ((k, d) :: f :: fs) =
      printText k ++ ':' :: d.printChars ++ ',' :: printFields (f :: fs) := rfl

theorem exists_printItems (h : d.Exact) (ds : List Document) :
    ∃ c cs, printItems (d :: ds) = c :: cs ∧ isGap c = false ∧ c ≠ ']' := by
  obtain ⟨c, cs, hd, hc⟩ := exists_printChars h
  cases ds with
  | nil => exact ⟨c, cs, hd, hc⟩
  | cons e ds => exact ⟨c, _, by rw [printItems_cons, hd, List.cons_append], hc⟩

theorem exists_printFields (f : Field) (fs : List Field) :
    ∃ cs, printFields (f :: fs) = '"' :: cs := by
  cases fs <;> exact ⟨_, rfl⟩

/-- A key that comes only later is not there yet, so that setting it puts it behind those
that are there and the order is kept. -/
theorem absent_of_nodup {sofar more : List Field} {key : String}
    (h : ((sofar ++ (key, d) :: more).map (·.1)).Nodup) : key ∉ sofar.map (·.1) := by
  rw [List.map_append, List.nodup_append] at h
  exact fun hmem => h.2.2 key hmem key List.mem_cons_self rfl

/-! ### One step of reading -/

section

variable {fuel : Nat} {more : List Char} {ds : List Document} {fields sofar : List Field}

theorem readValue_text (s : String) (fuel : Nat) (rest : List Char) :
    readValue? (fuel + 1) (printText s ++ rest) = some (.text s, rest) := by
  rw [printText_append]
  show (readText? (s.toList.flatMap escapedChar ++ '"' :: rest)).bind _ = _
  rw [readText_printed]
  rfl

theorem readValue_array (hgap : isGap c = false) (hc : c ≠ ']')
    (h : readItems? fuel (c :: cs) = some (ds, rest)) :
    readValue? (fuel + 1) ('[' :: c :: cs) = some (.array ds, rest) := by
  have hbracket : isGap '[' = false := rfl
  simp only [readValue?, skipGaps_cons hbracket, skipGaps_cons hgap]
  split
  · next heq => exact absurd (List.cons.inj heq).1 hc
  · rw [h]
    rfl

theorem readValue_object (h : readFields? fuel [] ('"' :: cs) = some (fields, rest)) :
    readValue? (fuel + 1) ('\x7b' :: '"' :: cs) = some (.object fields, rest) := by
  show (readFields? fuel [] ('"' :: cs)).bind _ = _
  rw [h]
  rfl

theorem readItems_last (h : readValue? fuel cs = some (d, ']' :: rest)) :
    readItems? (fuel + 1) cs = some ([d], rest) := by
  rw [readItems?, h]
  rfl

theorem readItems_more (h : readValue? fuel cs = some (d, ',' :: more))
    (hmore : readItems? fuel more = some (ds, rest)) :
    readItems? (fuel + 1) cs = some (d :: ds, rest) := by
  rw [readItems?, h]
  show (readItems? fuel more).bind _ = _
  rw [hmore]
  rfl

theorem readFields_last {key : String} (h : readValue? fuel cs = some (d, '\x7d' :: rest)) :
    readFields? (fuel + 1) sofar (printText key ++ ':' :: cs) =
      some (Table.put key d sofar, rest) := by
  rw [printText_append]
  show (readText? (key.toList.flatMap escapedChar ++ '"' :: ':' :: cs)).bind _ = _
  rw [readText_printed]
  show (readValue? fuel cs).bind _ = _
  rw [h]
  rfl

theorem readFields_more {key : String} (h : readValue? fuel cs = some (d, ',' :: more)) :
    readFields? (fuel + 1) sofar (printText key ++ ':' :: cs) =
      readFields? fuel (Table.put key d sofar) more := by
  rw [printText_append]
  show (readText? (key.toList.flatMap escapedChar ++ '"' :: ':' :: cs)).bind _ = _
  rw [readText_printed]
  show (readValue? fuel cs).bind _ = _
  rw [h]
  rfl

end

/-! ### All steps -/

mutual

/-- **A value is read back with whatever follows it.** The steps are counted against the
characters: each call of the reader takes one at least, so the printed length is enough for
everything inside. -/
theorem readValue_print : ∀ (d : Document) (fuel : Nat) (rest : List Char), d.Exact → Ends rest →
    d.printChars.length ≤ fuel → readValue? fuel (d.printChars ++ rest) = some (d, rest)
  | d, 0, _, h, _, hfuel => by
    obtain ⟨c, cs, hd, -⟩ := exists_printChars h
    rw [hd] at hfuel
    cases hfuel
  | .null, fuel + 1, rest, _, _, _ => rfl
  | .bool true, fuel + 1, rest, _, _, _ => rfl
  | .bool false, fuel + 1, rest, _, _, _ => rfl
  | .integer n, fuel + 1, rest, h, hrest, _ => by
    obtain ⟨c, cs, hn, hc⟩ := exists_integerDigits n
    rw [printChars, hn, List.cons_append, readValue_number hc, ← List.cons_append, ← hn]
    exact readNumber_integer h hrest
  | .float _, _ + 1, _, h, _, _ => by cases h
  | .text s, fuel + 1, rest, _, _, _ => readValue_text s fuel rest
  | .array [], fuel + 1, rest, _, _, _ => rfl
  | .array (d :: ds), fuel + 1, rest, h, _, hfuel => by
    obtain ⟨c, cs, hitems, hgap, hc⟩ := exists_printItems h.1 ds
    have hread := readItems_print d ds fuel rest h
      (by simp only [printChars, List.length_append, List.length_cons] at hfuel; omega)
    rw [hitems, List.cons_append] at hread
    have hall := readValue_array hgap hc hread
    rw [printChars, hitems]
    simpa using hall
  | .object [], fuel + 1, rest, _, _, _ => rfl
  | .object (f :: fs), fuel + 1, rest, h, _, hfuel => by
    obtain ⟨cs, hfields⟩ := exists_printFields f fs
    have hread := readFields_print f fs fuel [] rest h.1 h.2
      (by simp only [printChars, List.length_append, List.length_cons] at hfuel; omega)
    rw [hfields, List.cons_append] at hread
    have hall := readValue_object hread
    rw [printChars, hfields]
    simpa using hall

/-- The items of an array, up to the bracket, which takes one more step than they have
characters. -/
theorem readItems_print : ∀ (d : Document) (ds : List Document) (fuel : Nat) (rest : List Char),
    ExactItems (d :: ds) → (printItems (d :: ds)).length + 1 ≤ fuel →
    readItems? fuel (printItems (d :: ds) ++ ']' :: rest) = some (d :: ds, rest)
  | _, _, 0, _, _, hfuel => by cases hfuel
  | d, [], fuel + 1, rest, h, hfuel =>
    readItems_last (readValue_print d fuel (']' :: rest) h.1 (ends_cons (.inr (.inl rfl)) rest)
      (Nat.le_of_succ_le_succ hfuel))
  | d, e :: ds, fuel + 1, rest, h, hfuel => by
    rw [printItems_cons, List.length_append, List.length_cons] at hfuel
    have hd := readValue_print d fuel (',' :: (printItems (e :: ds) ++ ']' :: rest)) h.1
      (ends_cons (.inl rfl) _) (by omega)
    have hds := readItems_print e ds fuel rest h.2 (by omega)
    rw [printItems_cons, List.append_assoc, List.cons_append]
    exact readItems_more hd hds

/-- The fields of an object, onto those that were read before. That all keys are distinct is
asked of both together. -/
theorem readFields_print : ∀ (f : Field) (fs : List Field) (fuel : Nat) (sofar : List Field)
    (rest : List Char), ((sofar ++ f :: fs).map (·.1)).Nodup → ExactFields (f :: fs) →
    (printFields (f :: fs)).length + 1 ≤ fuel →
    readFields? fuel sofar (printFields (f :: fs) ++ '\x7d' :: rest) =
      some (sofar ++ f :: fs, rest)
  | _, _, 0, _, _, _, _, hfuel => by cases hfuel
  | (k, d), [], fuel + 1, sofar, rest, hkeys, h, hfuel => by
    rw [printFields, List.length_append, List.length_cons] at hfuel
    have hd := readValue_print d fuel ('\x7d' :: rest) h.1 (ends_cons (.inr (.inr rfl)) rest)
      (by omega)
    rw [printFields, List.append_assoc, List.cons_append, readFields_last hd,
      Table.put_of_absent (absent_of_nodup hkeys)]
  | (k, d), f :: fs, fuel + 1, sofar, rest, hkeys, h, hfuel => by
    simp only [printFields_cons, List.length_append, List.length_cons] at hfuel
    have hd := readValue_print d fuel (',' :: (printFields (f :: fs) ++ '\x7d' :: rest)) h.1
      (ends_cons (.inl rfl) _) (by omega)
    have hfs := readFields_print f fs fuel (sofar ++ [(k, d)]) rest
      (by rwa [List.append_assoc]) h.2 (by omega)
    rw [printFields_cons, List.append_assoc, List.append_assoc, List.cons_append,
      List.cons_append, readFields_more hd, Table.put_of_absent (absent_of_nodup hkeys), hfs,
      List.append_assoc]
    rfl

end

/-- A document that survives being printed is read back from its text. Nothing stands in
front of it and nothing behind. -/
theorem read_print (h : d.Exact) : read? d.print = some d := by
  have hread := readValue_print d (d.printChars.length + 1) [] h ends_nil (Nat.le_succ _)
  rw [read?, print, String.toList_ofList]
  rw [List.append_nil] at hread
  rw [hread]
  rfl

end Document

end KindCache
