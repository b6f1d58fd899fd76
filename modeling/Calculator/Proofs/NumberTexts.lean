import Calculator.Proofs.Results

/-!
# The texts of numbers

Numbers that are not the same are written differently: a floating-point number by a numeral to which
no other number of the format is nearest, with a sign in front if it has one, and an integer with its
digits alone. The characters of all these texts are few, so that such a text ends where another
character stands.

Results:
1. `Number.text_subset`: the characters of numbers.
2. `floatText_injective`: a floating-point number is known by its text.
3. `Value.text_injective`: so is every value.
-/

namespace Calculator

open Binary64

/-! ## Definitions -/

/-- The characters that numbers are written with. -/
def numberMarks : List Char := Literal.digits ++ ['.', '-', '+', 'e', 'i', 'n', 'f', 'a']

/-- The numbers that are not finite. -/
def notFinite : List Float := [nan, infinity, -infinity]

/-- A number with its sign, if it has one, in front. -/
def withDash (negative : Bool) (s : List Char) : List Char := if negative then '-' :: s else s

/-! ## Characters -/

variable {x y : Float}

theorem mem_numberMarks_of_isDigit {c : Char} (h : Literal.isDigit c = true) : c ∈ numberMarks :=
  List.mem_append_left _ (Literal.mem_digits_of_isDigit h)

theorem toDigits_subset (n : Nat) : Nat.toDigits 10 n ⊆ numberMarks := fun _ hc =>
  mem_numberMarks_of_isDigit (Literal.isDigit_of_mem_toDigits hc)

namespace Decimal

theorem twoDigits_subset (n : Nat) : twoDigits n ⊆ numberMarks := by
  unfold twoDigits
  split
  · next short =>
    have hdigits := toDigits_subset n
    rw [Nat.toDigits_of_lt_base short] at hdigits
    exact List.cons_subset.mpr ⟨by decide, hdigits⟩
  · exact toDigits_subset n

theorem powerText_subset (n : Int) : powerText n ⊆ numberMarks := by
  unfold powerText
  refine List.cons_subset.mpr ⟨by decide, List.cons_subset.mpr ⟨?_, twoDigits_subset _⟩⟩
  split <;> decide

theorem layout_subset {ds : List Char} (h : ds ⊆ numberMarks) (point : Int) :
    layout ds point ⊆ numberMarks := by
  have zero : '0' ∈ numberMarks := by decide
  have dot : '.' ∈ numberMarks := by decide
  have zeros (n : Nat) : List.replicate n '0' ⊆ numberMarks := by
    intro c hc
    rw [List.eq_of_mem_replicate hc]
    exact zero
  unfold layout
  split
  · rw [List.splitAt_eq]
    dsimp only
    refine List.append_subset.mpr ⟨List.append_subset.mpr ⟨?_, ?_⟩, powerText_subset _⟩
    · exact List.Subset.trans (List.take_subset 1 ds) h
    · split
      · exact List.nil_subset _
      · exact List.cons_subset.mpr ⟨dot, List.Subset.trans (List.drop_subset 1 ds) h⟩
  · split
    · exact List.cons_subset.mpr ⟨zero, List.cons_subset.mpr ⟨dot,
        List.append_subset.mpr ⟨zeros _, h⟩⟩⟩
    · dsimp only
      refine List.append_subset.mpr ⟨List.append_subset.mpr ⟨?_, zeros _⟩, ?_⟩
      · exact List.Subset.trans (List.take_subset _ ds) h
      · refine List.cons_subset.mpr ⟨dot, ?_⟩
        split
        · exact List.cons_subset.mpr ⟨zero, List.nil_subset _⟩
        · exact List.Subset.trans (List.drop_subset _ ds) h

/-- What is laid out shows a point or a power of ten. -/
theorem exists_mark_layout (ds : List Char) (point : Int) :
    '.' ∈ layout ds point ∨ 'e' ∈ layout ds point := by
  unfold layout
  split
  · exact .inr (List.mem_append_right _ List.mem_cons_self)
  · split
    · exact .inl (List.mem_cons_of_mem _ List.mem_cons_self)
    · exact .inl (List.mem_append_right _ List.mem_cons_self)

theorem text_subset (d : Decimal) : d.text ⊆ numberMarks := layout_subset (toDigits_subset _) _

/-- A decimal number is written without a sign. -/
theorem text_ne_dash (d : Decimal) (s : List Char) : d.text ≠ '-' :: s := by
  intro h
  have hread := d.magnitude?_text
  rw [h, Numeral.magnitude?_dash] at hread
  cases hread

end Decimal

/-! ## Floating-point numbers -/

/-- A finite number is written as a decimal number to which its magnitude is the nearest one, behind
its sign. -/
theorem floatText_of_finite {a : Scaled} (ha : Scaled.ofFloat? x = some a) :
    ∃ d : Decimal, (floatText x).toList = withDash a.negative d.text ∧
      IsNearest d.value |value a| := by
  unfold floatText
  rw [ha]
  dsimp only
  rw [String.toList_ofList]
  by_cases zero : a.mantissa = 0
  · have hzero : value a = 0 := by rw [value, zero, Nat.cast_zero, zero_mul, signed_zero]
    refine ⟨⟨0, 0⟩, ?_, ?_⟩
    · rw [if_pos zero]
      rfl
    · rw [hzero, abs_zero, Decimal.value, Nat.cast_zero, zero_mul]
      exact isNearest_self onOpenGrid_zero
  · have pos : 0 < |value a| := by
      have hmantissa : (0 : ℚ) < a.mantissa := by exact_mod_cast Nat.pos_of_ne_zero zero
      rw [abs_value]
      positivity
    rw [if_neg zero]
    exact ⟨_, rfl, (Decimal.isNearest_shortest (valueOf?_abs (valueOf?_eq_some ha rfl)) a.abs_value
      pos).1⟩

/-- What is not finite is one of three. -/
theorem mem_notFinite (h : Scaled.ofFloat? x = none) : x ∈ notFinite := by
  have hnan : nan.toModel.unpack = .notANumber := eq_notANumber (by decide +kernel)
  have hneg : (-infinity).toModel.unpack = .infinity .negative := by
    rw [unpack_neg, unpack_infinity]
    rfl
  unfold Scaled.ofFloat? at h
  unfold notFinite
  cases hx : x.toModel.unpack with
  | notANumber =>
    rw [eq_of_unpack_eq (hx.trans hnan.symm)]
    exact List.mem_cons_self
  | infinity s =>
    cases s with
    | positive =>
      rw [eq_of_unpack_eq (hx.trans unpack_infinity.symm)]
      exact List.mem_cons_of_mem _ List.mem_cons_self
    | negative =>
      rw [eq_of_unpack_eq (hx.trans hneg.symm)]
      exact List.mem_cons_of_mem _ (List.mem_cons_of_mem _ List.mem_cons_self)
  | zero | finite =>
    rw [hx] at h
    cases h

theorem map_floatText_notFinite : notFinite.map floatText = ["nan", "inf", "-inf"] := by
  decide +kernel

theorem floatText_mem_of_not_finite (h : Scaled.ofFloat? x = none) :
    floatText x ∈ ["nan", "inf", "-inf"] := by
  rw [← map_floatText_notFinite]
  exact List.mem_map_of_mem (mem_notFinite h)

theorem floatText_subset (x : Float) : (floatText x).toList ⊆ numberMarks := by
  cases ha : Scaled.ofFloat? x with
  | none =>
    have all : ∀ s ∈ ["nan", "inf", "-inf"], s.toList ⊆ numberMarks := by decide
    exact all _ (floatText_mem_of_not_finite ha)
  | some a =>
    obtain ⟨d, htext, -⟩ := floatText_of_finite ha
    rw [htext]
    unfold withDash
    split
    · exact List.cons_subset.mpr ⟨by decide, d.text_subset⟩
    · exact d.text_subset

/-- A finite number shows a point or a power of ten. -/
theorem exists_mark_floatText {a : Scaled} (ha : Scaled.ofFloat? x = some a) :
    '.' ∈ (floatText x).toList ∨ 'e' ∈ (floatText x).toList := by
  obtain ⟨d, htext, -⟩ := floatText_of_finite ha
  have within : d.text ⊆ withDash a.negative d.text := by
    unfold withDash
    split
    · exact List.subset_cons_self _ _
    · exact List.Subset.refl _
  rw [htext]
  exact (Decimal.exists_mark_layout _ _).imp (@within _) (@within _)

/-- What is not finite shows neither. -/
theorem floatText_ne_of_not_finite {a : Scaled} (hx : Scaled.ofFloat? x = some a)
    (hy : Scaled.ofFloat? y = none) : floatText x ≠ floatText y := by
  have bare : ∀ s ∈ ["nan", "inf", "-inf"], ¬('.' ∈ s.toList ∨ 'e' ∈ s.toList) := by decide
  intro same
  have mark := exists_mark_floatText hx
  rw [same] at mark
  exact bare _ (floatText_mem_of_not_finite hy) mark

theorem withDash_inj {s t : Bool} {d e : Decimal} (h : withDash s d.text = withDash t e.text) :
    s = t ∧ d.text = e.text := by
  cases s with
  | true =>
    cases t with
    | true => exact ⟨rfl, (List.cons.inj h).2⟩
    | false => exact absurd h.symm (e.text_ne_dash _)
  | false =>
    cases t with
    | true => exact absurd h (d.text_ne_dash _)
    | false => exact ⟨rfl, h⟩

/-- Finite numbers with the same text have the same sign and the same magnitude, for there is one
nearest number to what is written. -/
theorem eq_of_floatText_of_finite {a b : Scaled} (ha : Scaled.ofFloat? x = some a)
    (hb : Scaled.ofFloat? y = some b) (same : floatText x = floatText y) : x = y := by
  obtain ⟨d, hx, nearest⟩ := floatText_of_finite ha
  obtain ⟨e, hy, nearest'⟩ := floatText_of_finite hb
  obtain ⟨hsign, htext⟩ := withDash_inj (hx.symm.trans ((congrArg String.toList same).trans hy))
  have hvalue : d.value = e.value := by
    have := congrArg Numeral.magnitude? htext
    rwa [d.magnitude?_text, e.magnitude?_text, Option.some_inj] at this
  have habs : |value a| = |value b| := nearest.unique (hvalue ▸ nearest')
  have sx := sign?_of_ofFloat? ha
  have sy := sign?_of_ofFloat? hb
  have vx : valueOf? x = some (value a) := valueOf?_eq_some ha rfl
  have vy : valueOf? y = some (value b) := valueOf?_eq_some hb rfl
  rw [← hsign] at sy
  have hxy : value a = value b := by rw [eq_signed_abs vx sx, eq_signed_abs vy sy, habs]
  exact eq_of_unpack_eq (eq_of_value? (isStored_unpack _) (isStored_unpack _) vx (hxy ▸ vy)
    (sx.trans sy.symm))

/-- A floating-point number is known by its text. -/
theorem floatText_injective : Function.Injective floatText := by
  intro x y same
  cases hx : Scaled.ofFloat? x with
  | some a =>
    cases hy : Scaled.ofFloat? y with
    | some b => exact eq_of_floatText_of_finite hx hy same
    | none => exact absurd same (floatText_ne_of_not_finite hx hy)
  | none =>
    cases hy : Scaled.ofFloat? y with
    | some b => exact absurd same.symm (floatText_ne_of_not_finite hy hx)
    | none =>
      have distinct : (notFinite.map floatText).Nodup := by
        rw [map_floatText_notFinite]
        decide
      exact List.inj_on_of_nodup_map distinct (mem_notFinite hx) (mem_notFinite hy) same

/-! ## Values -/

/-- An integer is written with digits, behind a sign or not. -/
theorem digit_or_dash_of_mem (n : Int) :
    ∀ c ∈ (toString n).toList, Literal.isDigit c = true ∨ c = '-' := by
  have natural (n : Nat) : ∀ c ∈ (toString n).toList, Literal.isDigit c = true := by
    intro c hc
    rw [Nat.toString_eq_ofList_toDigits, String.toList_ofList] at hc
    exact Literal.isDigit_of_mem_toDigits hc
  cases n with
  | ofNat n => exact fun c hc => .inl (natural n c hc)
  | negSucc n =>
    intro c hc
    have hc : c ∈ ("-" ++ toString (n + 1)).toList := hc
    rw [String.toList_append] at hc
    rcases List.mem_append.mp hc with hc | hc
    · exact .inr (List.mem_singleton.mp hc)
    · exact .inl (natural (n + 1) c hc)

namespace Number

theorem text_subset (a : Number) : a.text.toList ⊆ numberMarks := by
  cases a with
  | int n =>
    intro c hc
    rcases digit_or_dash_of_mem n c hc with digit | rfl
    · exact mem_numberMarks_of_isDigit digit
    · decide
  | real x => exact floatText_subset x

/-- A floating-point number shows what no integer does: a point, a power of ten, or letters. -/
theorem text_int_ne_real (n : Int) (x : Float) : (int n).text ≠ (real x).text := by
  intro same
  have same : toString n = floatText x := same
  have plain := digit_or_dash_of_mem n
  rw [same] at plain
  cases hx : Scaled.ofFloat? x with
  | some a =>
    rcases exists_mark_floatText hx with mark | mark
    · exact absurd (plain '.' mark) (by decide)
    · exact absurd (plain 'e' mark) (by decide)
  | none =>
    have letters : ∀ s ∈ ["nan", "inf", "-inf"], 'n' ∈ s.toList := by decide
    exact absurd (plain 'n' (letters _ (floatText_mem_of_not_finite hx))) (by decide)

theorem text_injective : Function.Injective text := by
  intro a b same
  cases a with
  | int m =>
    cases b with
    | int n =>
      have hvalue := congrArg Numeral.value? (congrArg String.toList same)
      have hm : Numeral.value? (int m).text.toList = some (m : ℚ) := Numeral.value?_int m
      have hn : Numeral.value? (int n).text.toList = some (n : ℚ) := Numeral.value?_int n
      rw [hm, hn, Option.some_inj, Int.cast_inj] at hvalue
      rw [hvalue]
    | real y => exact absurd same (text_int_ne_real m y)
  | real x =>
    cases b with
    | int n => exact absurd same.symm (text_int_ne_real n x)
    | real y => exact congrArg real (floatText_injective same)

end Number

namespace Value

/-- The text of a number, or of none, holds no bracket. -/
theorem closing_not_mem_text (v : Value) : ')' ∉ v.text.toList := by
  cases v with
  | none => decide
  | some a => exact fun h => absurd (a.text_subset h) (by decide)

/-- A value is known by its text. -/
theorem text_injective : Function.Injective Value.text := by
  intro v w same
  cases v with
  | none =>
    cases w with
    | none => rfl
    | some b =>
      have first : 'N' ∈ b.text.toList := by
        rw [← show "None" = b.text from same]
        decide
      exact absurd (b.text_subset first) (by decide)
  | some a =>
    cases w with
    | none =>
      have first : 'N' ∈ a.text.toList := by
        rw [show a.text = "None" from same]
        decide
      exact absurd (a.text_subset first) (by decide)
    | some b => exact congrArg some (Number.text_injective same)

end Value

end Calculator
