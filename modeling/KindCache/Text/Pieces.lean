/-!
# Cutting a text at a separator

* `Text.pieces` — the parts between the separators, one more than there are
  separators, so that no text is lost and the empty text has one empty part;
* `Text.joined` — the parts with the separator between them;
* `Text.breakAt` — the text before and after the first place where a given
  word stands.

`joined_pieces` says that joining undoes cutting, `pieces_joined` that cutting
undoes joining as long as no part holds the separator, which is so for all parts
that come of cutting (`notMem_of_mem_pieces`).
-/

namespace KindCache.Text

/-- The parts of a text between the occurrences of `sep`. -/
def pieces (sep : Char) : List Char → List (List Char)
  | [] => [[]]
  | c :: rest =>
    if c = sep then [] :: pieces sep rest
    else
      match pieces sep rest with
      | [] => [[c]]
      | part :: parts => (c :: part) :: parts

/-- The parts with `sep` between them. -/
def joined (sep : Char) : List (List Char) → List Char
  | [] => []
  | [part] => part
  | part :: next :: parts => part ++ sep :: joined sep (next :: parts)

/-- The text before and after the first occurrence of `word`, which is dropped;
`none` if `word` does not occur. -/
def breakAt (word : List Char) : List Char → Option (List Char × List Char)
  | [] => if word = [] then some ([], []) else none
  | c :: rest =>
    if word.isPrefixOf (c :: rest) then some ([], (c :: rest).drop word.length)
    else (breakAt word rest).map fun (before, after) => (c :: before, after)

/-! ## Cutting and joining -/

theorem pieces_ne_nil (sep : Char) (cs : List Char) : pieces sep cs ≠ [] := by
  cases cs with
  | nil => simp [pieces]
  | cons c rest =>
    unfold pieces
    split
    · simp
    · split <;> simp

/-- Joining the parts gives the text back. -/
theorem joined_pieces (sep : Char) (cs : List Char) : joined sep (pieces sep cs) = cs := by
  induction cs with
  | nil => rfl
  | cons c rest ih =>
    obtain ⟨part, parts, hp⟩ := List.exists_cons_of_ne_nil (pieces_ne_nil sep rest)
    rw [hp] at ih
    unfold pieces
    split
    · next h => subst h; rw [hp]; simp only [joined, List.nil_append, ih]
    · rw [hp]
      cases parts with
      | nil => simpa [joined] using ih
      | cons next parts => simpa [joined] using ih

/-- No part holds the separator. -/
theorem notMem_of_mem_pieces {sep : Char} {cs part : List Char} (h : part ∈ pieces sep cs) :
    sep ∉ part := by
  induction cs generalizing part with
  | nil =>
    obtain rfl := List.mem_singleton.mp h
    exact List.not_mem_nil
  | cons c rest ih =>
    obtain ⟨first, parts, hp⟩ := List.exists_cons_of_ne_nil (pieces_ne_nil sep rest)
    rw [hp] at ih
    unfold pieces at h
    split at h
    · rcases List.mem_cons.mp h with rfl | h
      · exact List.not_mem_nil
      · exact ih (hp ▸ h)
    · next hc =>
      rw [hp] at h
      rcases List.mem_cons.mp h with rfl | h
      · rw [List.mem_cons, not_or]
        exact ⟨fun e => hc e.symm, ih List.mem_cons_self⟩
      · exact ih (List.mem_cons_of_mem _ h)

/-- A text without the separator is its own only part. -/
theorem pieces_of_notMem {sep : Char} {cs : List Char} (h : sep ∉ cs) :
    pieces sep cs = [cs] := by
  induction cs with
  | nil => rfl
  | cons c rest ih =>
    simp only [List.mem_cons, not_or] at h
    have hc : c ≠ sep := fun e => h.1 e.symm
    simp [pieces, hc, ih h.2]

/-- A part that lacks the separator is cut off at the separator behind it. -/
theorem pieces_append_cons {sep : Char} {cs rest : List Char} (h : sep ∉ cs) :
    pieces sep (cs ++ sep :: rest) = cs :: pieces sep rest := by
  induction cs with
  | nil => simp [pieces]
  | cons c cs ih =>
    simp only [List.mem_cons, not_or] at h
    have hc : c ≠ sep := fun e => h.1 e.symm
    simp [pieces, hc, ih h.2]

/-- Cutting gives back parts that lack the separator, if there are any. -/
theorem pieces_joined {sep : Char} {parts : List (List Char)} (hne : parts ≠ [])
    (h : ∀ p ∈ parts, sep ∉ p) : pieces sep (joined sep parts) = parts := by
  induction parts with
  | nil => exact absurd rfl hne
  | cons part rest ih =>
    cases rest with
    | nil => exact pieces_of_notMem (h part (by simp))
    | cons next rest =>
      rw [joined, pieces_append_cons (h part (by simp)), ih (by simp)]
      exact fun p hp => h p (List.mem_cons_of_mem _ hp)

end KindCache.Text
