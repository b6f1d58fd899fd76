import Calculator.Proofs.Binary64.Decimals
import Calculator.Proofs.Writing

/-!
# Numerals

A numeral is what a number is written as: a sign or none, a literal, and a power of ten or none. It
denotes an exact number. However digits are laid out, the numeral denotes their number, moved by the
powers of ten that the place of the point says.

Results:
1. `Numeral.magnitude?_literal`, `Numeral.magnitude?_powerText`: what numerals without a sign denote.
2. `Decimal.magnitude?_layout`: laying out digits keeps their number.
3. `Decimal.exists_literal`: near the point, what is laid out is a literal.
-/

namespace Calculator

/-! ## Definitions -/

namespace Numeral

/-- The number that a row of digits denotes. -/
def natural? (s : List Char) : Option Nat :=
  if s.isEmpty || !s.all Literal.isDigit then none else some (Nat.ofDigitChars 10 s 0)

/-- A power of ten is a row of digits behind a sign. -/
def power? : List Char → Option Int
  | '-' :: s => (natural? s).map fun (n : Nat) => -(n : Int)
  | '+' :: s => (natural? s).map Int.ofNat
  | _ => none

/-- The number that a numeral without a sign denotes. -/
def magnitude? (s : List Char) : Option ℚ :=
  match s.dropWhile (· != 'e') with
  | [] => (Literal.read? s).map Decimal.value
  | _ :: power => do
      let d ← Literal.read? (s.takeWhile (· != 'e'))
      let n ← power? power
      pure (d.value * 10 ^ n)

/-- The number that a numeral denotes. -/
def value? : List Char → Option ℚ
  | '-' :: s => (magnitude? s).map fun q => -q
  | s => magnitude? s

end Numeral

/-! ## Digits -/

namespace Literal

theorem isDigit_of_isDigit {c : Char} (h : c.isDigit = true) : isDigit c = true := by
  rw [isDigit, Bool.and_eq_true, decide_eq_true_eq, decide_eq_true_eq]
  exact (Bool.and_eq_true _ _ ▸ h).imp of_decide_eq_true of_decide_eq_true

theorem isDigit_of_mem_toDigits {n : Nat} {c : Char} (h : c ∈ Nat.toDigits 10 n) :
    isDigit c = true :=
  isDigit_of_isDigit (Nat.isDigit_of_mem_toDigits (by decide) le_rfl h)

end Literal

namespace Decimal

/-- What digits denote before and behind a point. -/
theorem value_ofDigits (whole fraction : List Char) :
    (ofDigits whole fraction).value =
      Nat.ofDigitChars 10 (whole ++ fraction) 0 * 10 ^ (-fraction.length : Int) := by
  rw [Nat.ofDigitChars_eq_foldl]
  rfl

end Decimal

namespace Numeral

/-- A row of digits denotes their number. -/
theorem natural?_eq {s : List Char} (digits : ∀ c ∈ s, Literal.isDigit c = true) (nonempty : s ≠ []) :
    natural? s = some (Nat.ofDigitChars 10 s 0) := by
  have hempty : s.isEmpty = false := List.isEmpty_eq_false_iff.mpr nonempty
  have hall : s.all Literal.isDigit = true := List.all_eq_true.mpr digits
  rw [natural?, hempty, hall]
  rfl

theorem natural?_toDigits (n : Nat) : natural? (Nat.toDigits 10 n) = some n := by
  rw [natural?_eq (fun c => Literal.isDigit_of_mem_toDigits) Nat.toDigits_ne_nil,
    Nat.ofDigitChars_ten_toDigits]

theorem natural?_twoDigits (n : Nat) : natural? (Decimal.twoDigits n) = some n := by
  unfold Decimal.twoDigits
  by_cases short : n < 10
  · have hdigit : Literal.isDigit n.digitChar = true :=
      Literal.isDigit_of_mem_toDigits (n := n) (by rw [Nat.toDigits_of_lt_base short]; simp)
    rw [if_pos short, natural?_eq (by simp [hdigit, show Literal.isDigit '0' = true from rfl]) (by simp),
      Nat.ofDigitChars_cons, Nat.ofDigitChars_cons_digitChar_of_lt_ten short, Nat.ofDigitChars_nil]
    simp
  · rw [if_neg short, natural?_toDigits]

/-- The mark of a power of ten is in no literal. -/
theorem ne_mark (l : NumberLiteral) : ∀ c ∈ l.chars, (c != 'e') = true := by
  intro c hc
  rcases l.digit_or_point c hc with digit | rfl
  · rw [bne_iff_ne]
    rintro rfl
    exact absurd digit (by decide)
  · rfl

theorem magnitude?_literal (l : NumberLiteral) : magnitude? l.chars = some l.decimal.value := by
  have hdrop : l.chars.dropWhile (· != 'e') = [] := List.dropWhile_eq_nil_iff.mpr (ne_mark l)
  rw [magnitude?, hdrop]
  exact congrArg (Option.map Decimal.value) l.read?_chars

theorem magnitude?_powerText (l : NumberLiteral) (n : Int) :
    magnitude? (l.chars ++ Decimal.powerText n) = some (l.decimal.value * 10 ^ n) := by
  have hpower : ∃ tail, Decimal.powerText n = 'e' :: tail ∧ power? tail = some n := by
    unfold Decimal.powerText
    by_cases neg : n < 0
    · refine ⟨_, rfl, ?_⟩
      rw [if_pos neg]
      rw [power?, natural?_twoDigits, Option.map_some]
      congr 1
      omega
    · refine ⟨_, rfl, ?_⟩
      rw [if_neg neg]
      rw [power?, natural?_twoDigits, Option.map_some, Int.ofNat_eq_natCast]
      congr 1
      omega
  obtain ⟨tail, htext, hn⟩ := hpower
  have hdrop : (l.chars ++ Decimal.powerText n).dropWhile (· != 'e') = 'e' :: tail := by
    rw [List.dropWhile_append_of_pos (ne_mark l), htext]
    rfl
  have htake : (l.chars ++ Decimal.powerText n).takeWhile (· != 'e') = l.chars := by
    rw [List.takeWhile_append_of_pos (ne_mark l), htext]
    simp
  rw [magnitude?, hdrop, htake, l.read?_chars]
  simp only [hn, Option.bind_eq_bind, Option.bind_some]
  rfl

/-- A numeral without a sign does not begin with one. -/
theorem magnitude?_dash (s : List Char) : magnitude? ('-' :: s) = none := by
  have hread : ∀ s, Literal.read? ('-' :: s) = none := fun _ => rfl
  unfold magnitude?
  rw [List.takeWhile_cons_of_pos (by decide), hread, hread]
  split <;> rfl

theorem value?_of_magnitude? {s : List Char} {q : ℚ} (h : magnitude? s = some q) :
    value? s = some q := by
  unfold value?
  split
  · rw [magnitude?_dash] at h
    cases h
  · exact h

end Numeral

/-! ## Layout -/

namespace Decimal

variable {ds : List Char} {point : Int}

/-- Zeros before the digits do not count, and zeros behind them count as powers of ten. -/
theorem ofDigitChars_zeros (ds : List Char) (m n : Nat) :
    Nat.ofDigitChars 10 (List.replicate m '0' ++ ds ++ List.replicate n '0') 0 =
      10 ^ n * Nat.ofDigitChars 10 ds 0 := by
  rw [Nat.ofDigitChars_append, Nat.ofDigitChars_append, Nat.ofDigitChars_replicate_zero,
    Nat.ofDigitChars_replicate_zero, mul_zero]

theorem isDigit_of_mem_zeros {n : Nat} {c : Char} (h : c ∈ List.replicate n '0') :
    Literal.isDigit c = true := by
  rw [List.eq_of_mem_replicate h]
  decide

/-- A point before the digits stands behind a zero, and zeros fill the places between. -/
theorem exists_literal_before (digits : ∀ c ∈ ds, Literal.isDigit c = true) (low : -4 < point)
    (before : point ≤ 0) :
    ∃ l : NumberLiteral, layout ds point = l.chars ∧
      l.decimal.value = Nat.ofDigitChars 10 ds 0 * 10 ^ (point - ds.length) := by
  unfold layout
  rw [if_neg (by omega), if_pos before]
  refine ⟨⟨['0'], some (List.replicate (-point).toNat '0' ++ ds), ?_, by simp⟩, rfl, ?_⟩
  · simp only [Option.getD_some, List.mem_append, List.mem_singleton]
    rintro c (rfl | hc | hc)
    · decide
    · exact isDigit_of_mem_zeros hc
    · exact digits c hc
  · have hvalue := ofDigitChars_zeros ds ((-point).toNat + 1) 0
    rw [List.replicate_succ, List.replicate_zero, List.append_nil, pow_zero, one_mul] at hvalue
    have hexponent : -(((List.replicate (-point).toNat '0' ++ ds).length : Nat) : Int) =
        point - ds.length := by
      rw [List.length_append, List.length_replicate]
      omega
    show (ofDigits ['0'] (List.replicate (-point).toNat '0' ++ ds)).value = _
    rw [value_ofDigits, hexponent, ← hvalue]
    rfl

variable {places : Nat}

/-- A point among the digits parts them. -/
theorem exists_literal_among (digits : ∀ c ∈ ds, Literal.isDigit c = true) (pos : 0 < places)
    (high : places ≤ 16) (among : places < ds.length) :
    ∃ l : NumberLiteral, layout ds places = l.chars ∧
      l.decimal.value = Nat.ofDigitChars 10 ds 0 * 10 ^ ((places : Int) - ds.length) := by
  have hdrop : (ds.drop places).isEmpty = false := by
    rw [List.isEmpty_eq_false_iff, ne_eq, List.drop_eq_nil_iff]
    omega
  unfold layout
  rw [if_neg (by omega), if_neg (by omega), Int.toNat_natCast]
  refine ⟨⟨ds.take places, some (ds.drop places), ?_, ?_⟩, ?_, ?_⟩
  · rwa [Option.getD_some, List.take_append_drop]
  · rw [Option.getD_some, List.take_append_drop]
    exact List.ne_nil_of_length_pos (by omega)
  · dsimp only
    rw [hdrop, Nat.sub_eq_zero_of_le among.le, List.replicate_zero, List.append_nil]
    rfl
  · show (ofDigits (ds.take places) (ds.drop places)).value = _
    rw [value_ofDigits, List.take_append_drop, List.length_drop, Nat.cast_sub among.le, neg_sub]

/-- A point behind the digits stands behind zeros that fill the places between, and before one more. -/
theorem exists_literal_behind (digits : ∀ c ∈ ds, Literal.isDigit c = true) (pos : 0 < places)
    (high : places ≤ 16) (behind : ds.length ≤ places) :
    ∃ l : NumberLiteral, layout ds places = l.chars ∧
      l.decimal.value = Nat.ofDigitChars 10 ds 0 * 10 ^ ((places : Int) - ds.length) := by
  unfold layout
  rw [if_neg (by omega), if_neg (by omega), Int.toNat_natCast]
  dsimp only
  rw [List.drop_eq_nil_of_le behind, List.take_of_length_le behind]
  set zeros := places - ds.length with hz
  refine ⟨⟨ds ++ List.replicate zeros '0', some ['0'], ?_, by simp⟩, rfl, ?_⟩
  · simp only [Option.getD_some, List.mem_append, List.mem_singleton]
    rintro c ((hc | hc) | rfl)
    · exact digits c hc
    · exact isDigit_of_mem_zeros hc
    · decide
  · have hvalue := ofDigitChars_zeros ds 0 (zeros + 1)
    rw [List.replicate_zero, List.nil_append, List.replicate_succ', ← List.append_assoc] at hvalue
    have hexponent : ((places : Int) - ds.length) = ((zeros + 1 : Nat) : Int) + -1 := by
      push_cast
      omega
    show (ofDigits (ds ++ List.replicate zeros '0') ['0']).value = _
    rw [value_ofDigits, hvalue]
    push_cast
    rw [hexponent, zpow_add₀ (by norm_num), zpow_natCast, mul_right_comm, mul_comm]
    norm_num

/-- Near the point, what is laid out is a literal, and it denotes the digits moved to their place. -/
theorem exists_literal (digits : ∀ c ∈ ds, Literal.isDigit c = true) (low : -4 < point)
    (high : point ≤ 16) :
    ∃ l : NumberLiteral, layout ds point = l.chars ∧
      l.decimal.value = Nat.ofDigitChars 10 ds 0 * 10 ^ (point - ds.length) := by
  rcases le_or_gt point 0 with before | pos
  · exact exists_literal_before digits low before
  · obtain ⟨places, rfl⟩ := Int.eq_ofNat_of_zero_le pos.le
    rcases lt_or_ge places ds.length with among | behind
    · exact exists_literal_among digits (by omega) (by omega) among
    · exact exists_literal_behind digits (by omega) (by omega) behind

/-- However digits are laid out, their number is kept, moved to its place. -/
theorem magnitude?_layout (digits : ∀ c ∈ ds, Literal.isDigit c = true) (nonempty : ds ≠ []) :
    Numeral.magnitude? (layout ds point) =
      some ((Nat.ofDigitChars 10 ds 0 : ℚ) * 10 ^ (point - ds.length)) := by
  by_cases near : -4 < point ∧ point ≤ 16
  · obtain ⟨l, htext, hvalue⟩ := exists_literal digits near.1 near.2
    rw [htext, Numeral.magnitude?_literal, hvalue]
  · unfold layout
    rw [if_pos (by omega)]
    obtain ⟨c, rest, rfl⟩ := List.exists_cons_of_ne_nil nonempty
    have hliteral : ∃ l : NumberLiteral, l.chars = [c] ++ (if rest.isEmpty then [] else '.' :: rest) ∧
        l.decimal.value = Nat.ofDigitChars 10 (c :: rest) 0 * 10 ^ (-rest.length : Int) := by
      cases rest with
      | nil => exact ⟨⟨[c], none, by simpa using digits, by simp⟩, rfl, value_ofDigits [c] []⟩
      | cons c' rest =>
        exact ⟨⟨[c], some (c' :: rest), digits, by simp⟩, rfl, value_ofDigits [c] (c' :: rest)⟩
    obtain ⟨l, hchars, hvalue⟩ := hliteral
    rw [List.splitAt_eq]
    show Numeral.magnitude? ([c] ++ (if rest.isEmpty then [] else '.' :: rest) ++
      powerText (point - 1)) = _
    rw [← hchars, Numeral.magnitude?_powerText, hvalue, mul_assoc, ← zpow_add₀ (by norm_num),
      List.length_cons]
    congr 3
    push_cast
    ring

/-- The text of a decimal number denotes it. -/
theorem magnitude?_text (d : Decimal) : Numeral.magnitude? d.text = some d.value := by
  unfold text
  rw [magnitude?_layout (fun c => Literal.isDigit_of_mem_toDigits) Nat.toDigits_ne_nil,
    Nat.ofDigitChars_ten_toDigits, add_sub_cancel_left]
  rfl

end Decimal

end Calculator
