import Calculator.Text.Quoted
import Mathlib.Algebra.Group.Nat.Defs

/-!
# Reading quoted text back

A quoted text says which text it is, whatever stands behind it. The enclosing quote comes first, and
inside each character is written in a form of its own, from which it can be read back without looking
at what follows; none of these forms begins with the enclosing quote, so the first bare quote ends the
text.

Results:
1. `decodeChar_encodeChar`: a character between quotes is read back.
2. `flatMap_encodeChar_inj`: so is a row of them, up to the quote that ends it.
3. `quoted_append_inj`: a quoted text is read back in front of anything.
-/

namespace Calculator

namespace Quoted

/-! ## Definitions -/

/-- The number that a hexadecimal digit denotes. -/
def hexDigitValue (c : Char) : Nat :=
  if c.toNat < 'a'.toNat then c.toNat - '0'.toNat else c.toNat - 'a'.toNat + 10

/-- The number that hexadecimal digits denote. -/
def hexValue (s : List Char) : Nat := s.foldl (fun n c => 16 * n + hexDigitValue c) 0

/-- A code point of so many digits, and what follows them. -/
def decodeCode (width : Nat) (s : List Char) : Char × List Char :=
  (Char.ofNat (hexValue (s.take width)), s.drop width)

/-- The first character behind a quote, and what follows it; none where the quote is closed. -/
def decodeChar (quote : Char) : List Char → Option (Char × List Char)
  | [] => none
  | '\\' :: 'n' :: s => some ('\n', s)
  | '\\' :: 'r' :: s => some ('\r', s)
  | '\\' :: 't' :: s => some ('\t', s)
  | '\\' :: 'x' :: s => some (decodeCode 2 s)
  | '\\' :: 'u' :: s => some (decodeCode 4 s)
  | '\\' :: 'U' :: s => some (decodeCode 8 s)
  | '\\' :: c :: s => some (c, s)
  | c :: s => if c = quote then none else some (c, s)

/-! ## Hexadecimal digits -/

theorem hexValue_append_singleton (s : List Char) (c : Char) :
    hexValue (s ++ [c]) = 16 * hexValue s + hexDigitValue c := by
  unfold hexValue
  rw [List.foldl_append]
  rfl

theorem hexDigitValue_digitChar {d : Nat} (h : d < 16) : hexDigitValue d.digitChar = d := by
  have all : ∀ d < 16, hexDigitValue d.digitChar = d := by decide
  exact all d h

theorem hexValue_toDigits (n : Nat) : hexValue (Nat.toDigits 16 n) = n := by
  induction n using Nat.strongRecOn with
  | ind n ih =>
    rcases Nat.lt_or_ge n 16 with short | long
    · rw [Nat.toDigits_of_lt_base short]
      show 16 * 0 + hexDigitValue n.digitChar = n
      rw [hexDigitValue_digitChar short]
      omega
    · rw [Nat.toDigits_of_base_le (by decide) long, hexValue_append_singleton, ih (n / 16) (by omega),
        hexDigitValue_digitChar (Nat.mod_lt n (by decide))]
      omega

/-- Zeros on the left do not count. -/
theorem hexValue_hexText (width n : Nat) : hexValue (hexText width n) = n := by
  have zeros (k : Nat) (s : List Char) : hexValue (List.replicate k '0' ++ s) = hexValue s := by
    induction k with
    | zero => rfl
    | succ k ih => exact ih
  exact (zeros _ _).trans (hexValue_toDigits n)

theorem length_hexText {width n : Nat} (pos : 0 < width) (h : n < 16 ^ width) :
    (hexText width n).length = width := by
  have short := (Nat.length_toDigits_le_iff (by decide) pos).mpr h
  unfold hexText
  dsimp only
  rw [List.length_append, List.length_replicate]
  omega

theorem decodeCode_hexText {width n : Nat} (pos : 0 < width) (h : n < 16 ^ width) (s : List Char) :
    decodeCode width (hexText width n ++ s) = (Char.ofNat n, s) := by
  have hlength := length_hexText pos h
  unfold decodeCode
  rw [List.take_left' hlength, List.drop_left' hlength, hexValue_hexText]

/-! ## Characters -/

/-- A code point behind a backslash is read back by its width. -/
theorem decodeChar_codeText (quote c : Char) (s : List Char) :
    decodeChar quote (codeText c.toNat ++ s) = some (c, s) := by
  have bound : c.toNat < 16 ^ 8 := c.val.toNat_lt
  unfold codeText
  split
  · next short =>
    show some (decodeCode 2 (hexText 2 c.toNat ++ s)) = _
    rw [decodeCode_hexText (by decide) short, Char.ofNat_toNat]
  · split
    · next short =>
      show some (decodeCode 4 (hexText 4 c.toNat ++ s)) = _
      rw [decodeCode_hexText (by decide) short, Char.ofNat_toNat]
    · show some (decodeCode 8 (hexText 8 c.toNat ++ s)) = _
      rw [decodeCode_hexText (by decide) bound, Char.ofNat_toNat]

/-- A character that is not written with a backslash is read as it stands. -/
theorem decodeChar_bare {quote c : Char} (h : c ≠ '\\') (s : List Char) :
    decodeChar quote (c :: s) = if c = quote then none else some (c, s) := by
  unfold decodeChar
  split <;> simp_all

/-- A character between quotes is read back. -/
theorem decodeChar_encodeChar {quote : Char} (hquote : quote = '\'' ∨ quote = '"') (c : Char)
    (s : List Char) : decodeChar quote (encodeChar quote c ++ s) = some (c, s) := by
  unfold encodeChar
  by_cases escaped : c = quote ∨ c = '\\'
  · rw [if_pos (by simpa using escaped)]
    rcases escaped with rfl | rfl
    · rcases hquote with rfl | rfl <;> rfl
    · rfl
  rw [if_neg (by simpa using escaped)]
  have other : c ≠ quote ∧ c ≠ '\\' := not_or.mp escaped
  split
  · next h => rw [h]; rfl
  split
  · next h => rw [h]; rfl
  split
  · next h => rw [h]; rfl
  split
  · rw [List.singleton_append, decodeChar_bare other.2, if_neg other.1]
  · exact decodeChar_codeText quote c s

/-- The quote itself ends the text. -/
theorem decodeChar_quote {quote : Char} (hquote : quote = '\'' ∨ quote = '"') (s : List Char) :
    decodeChar quote (quote :: s) = none := by
  rcases hquote with rfl | rfl <;> rfl

/-! ## Texts -/

/-- Characters between quotes are read back one by one, up to the quote that ends them. -/
theorem flatMap_encodeChar_inj {quote : Char} (hquote : quote = '\'' ∨ quote = '"') {s t u v : List Char}
    (h : s.flatMap (encodeChar quote) ++ quote :: u = t.flatMap (encodeChar quote) ++ quote :: v) :
    s = t ∧ u = v := by
  induction s generalizing t with
  | nil =>
    cases t with
    | nil => exact ⟨rfl, (List.cons.inj h).2⟩
    | cons d t =>
      rw [List.flatMap_cons, List.append_assoc] at h
      have hread := congrArg (decodeChar quote) h
      rw [decodeChar_encodeChar hquote] at hread
      exact nomatch (decodeChar_quote hquote u).symm.trans hread
  | cons c s ih =>
    rw [List.flatMap_cons, List.append_assoc] at h
    have hread := congrArg (decodeChar quote) h
    rw [decodeChar_encodeChar hquote] at hread
    cases t with
    | nil => exact nomatch hread.trans (decodeChar_quote hquote v)
    | cons d t =>
      rw [List.flatMap_cons, List.append_assoc, decodeChar_encodeChar hquote] at hread
      obtain ⟨rfl, hrest⟩ := Prod.mk.inj (Option.some.inj hread)
      obtain ⟨rfl, rfl⟩ := ih hrest
      exact ⟨rfl, rfl⟩

theorem quoteFor_cases (s : List Char) : quoteFor s = '\'' ∨ quoteFor s = '"' := by
  unfold quoteFor
  split
  · exact .inr rfl
  · exact .inl rfl

end Quoted

/-- A quoted text is read back in front of anything. -/
theorem quoted_append_inj {s t : String} {u v : List Char}
    (h : (quoted s).toList ++ u = (quoted t).toList ++ v) : s = t ∧ u = v := by
  unfold quoted at h
  simp only [String.toList_ofList, List.cons_append, List.append_assoc, List.nil_append] at h
  obtain ⟨hquote, hrest⟩ := List.cons.inj h
  rw [← hquote] at hrest
  obtain ⟨hs, hu⟩ := Quoted.flatMap_encodeChar_inj (Quoted.quoteFor_cases s.toList) hrest
  exact ⟨String.toList_inj.mp hs, hu⟩

end Calculator
