import Calculator.Proofs.Binary64.Order
import Calculator.Proofs.Binary64.Signs
import Mathlib.Order.WithBot

/-!
# The order of all numbers

Infinities are compared too: one lies beyond every exact value on its side. So every number that is
not NaN has a rank among the exact values and two infinities, integers and floating-point numbers
alike, and a comparison is that of the ranks. NaN has none, and every comparison with it fails.

Results:
1. `Number.compare_rank`: the order of numbers is that of their ranks.
2. `Number.atMost_trans`, `Number.less_of_atMost_of_less`: the order is transitive.
-/

namespace Calculator

namespace Binary64

open Float.Model UnpackedFloat

/-- The exact values between two infinities. -/
abbrev Rank := WithBot (WithTop ℚ)

/-- Where a number stands among the exact values and the infinities. -/
def rank? : UnpackedFloat → Option Rank
  | .notANumber => none
  | .infinity .positive => some ⊤
  | .infinity .negative => some ⊥
  | .zero _ => some ((0 : ℚ) : Rank)
  | .finite s m e _ => some ((signed s (m * 2 ^ e) : ℚ) : Rank)

variable {u w : UnpackedFloat} {v : ℚ}

theorem rank?_of_value? (hv : value? u = some v) : rank? u = some (v : Rank) := by
  cases u with
  | notANumber | infinity => cases hv
  | zero | finite =>
    cases hv
    rfl

/-- A number with an exact value has the rank of it, and no other number has. -/
theorem rank?_eq_coe_iff : rank? u = some (v : Rank) ↔ value? u = some v := by
  refine ⟨fun h => ?_, rank?_of_value?⟩
  cases hu : value? u with
  | some w =>
    rw [rank?_of_value? hu, Option.some_inj] at h
    exact congrArg some (WithTop.coe_injective (WithBot.coe_injective h))
  | none =>
    cases u with
    | notANumber => cases h
    | infinity s => cases s <;> cases h
    | zero | finite => cases hu

theorem rank?_eq_top_iff : rank? u = some ⊤ ↔ u = .infinity .positive := by
  constructor
  · intro h
    cases u with
    | notANumber => cases h
    | infinity s =>
      cases s with
      | positive => rfl
      | negative => cases h
    | zero | finite => cases h
  · rintro rfl
    rfl

theorem coe_lt_top (v : ℚ) : (v : Rank) < ⊤ := WithBot.coe_lt_coe.mpr (WithTop.coe_lt_top v)

theorem compare_coe (v v' : ℚ) : compare (v : Rank) (v' : Rank) = compare v v' := by
  have mono : StrictMono fun v : ℚ => (v : Rank) :=
    WithBot.coe_strictMono.comp WithTop.coe_strictMono
  rw [← cmp_eq_compare, ← cmp_eq_compare]
  exact mono.cmp_map_eq v v'

/-- An infinity lies beyond every finite number on its side. -/
theorem compare_infinity (s : Sign) (hv : value? u = some v) :
    (UnpackedFloat.infinity s).compare u = (rank? (.infinity s)).map (compare · (v : Rank)) ∧
      u.compare (.infinity s) = (rank? (.infinity s)).map (compare (v : Rank)) := by
  have above := coe_lt_top v
  have below : ⊥ < (v : Rank) := WithBot.bot_lt_coe _
  cases u with
  | notANumber | infinity => cases hv
  | zero | finite =>
    cases s with
    | positive =>
      exact ⟨congrArg some (compare_gt_iff_gt.mpr above).symm,
        congrArg some (compare_lt_iff_lt.mpr above).symm⟩
    | negative =>
      exact ⟨congrArg some (compare_lt_iff_lt.mpr below).symm,
        congrArg some (compare_gt_iff_gt.mpr below).symm⟩

theorem compare_infinities (s s' : Sign) :
    (UnpackedFloat.infinity s).compare (.infinity s') =
      (rank? (.infinity s)).bind fun r => (rank? (.infinity s')).map (compare r) := by
  have less : (⊥ : Rank) < ⊤ := bot_lt_top
  cases s with
  | positive =>
    cases s' with
    | positive => exact congrArg some (compare_eq_iff_eq.mpr rfl).symm
    | negative => exact congrArg some (compare_gt_iff_gt.mpr less).symm
  | negative =>
    cases s' with
    | positive => exact congrArg some (compare_lt_iff_lt.mpr less).symm
    | negative => exact congrArg some (compare_eq_iff_eq.mpr rfl).symm

/-- Numbers are compared by where they stand, and what is not a number with none. -/
theorem compare_rank (hu : IsStored u) (hw : IsStored w) :
    u.compare w = (rank? u).bind fun r => (rank? w).map (compare r) := by
  cases hv : value? u with
  | some v =>
    rw [rank?_of_value? hv]
    cases hv' : value? w with
    | some v' =>
      rw [rank?_of_value? hv', compare_eq hu hw hv hv']
      exact congrArg some (compare_coe v v').symm
    | none =>
      cases w with
      | zero | finite => cases hv'
      | notANumber => cases u <;> rfl
      | infinity s => exact (compare_infinity s hv).2
  | none =>
    cases u with
    | zero | finite => cases hv
    | notANumber => rfl
    | infinity s =>
      cases hv' : value? w with
      | some v' =>
        rw [rank?_of_value? hv', (compare_infinity s hv').1]
        cases s <;> rfl
      | none =>
        cases w with
        | zero | finite => cases hv'
        | notANumber => cases s <;> rfl
        | infinity s' => exact compare_infinities s s'

theorem lt_iff_compare (x y : Float) :
    x < y ↔ x.toModel.unpack.compare y.toModel.unpack = some .lt := by
  show decide (x.toModel < y.toModel) = true ↔ _
  rw [decide_eq_true_iff]
  exact beq_iff_eq

theorem lt_iff_rank {x y : Float} :
    x < y ↔ ∃ r s, rank? x.toModel.unpack = some r ∧ rank? y.toModel.unpack = some s ∧ r < s := by
  rw [lt_iff_compare, compare_rank (isStored_unpack _) (isStored_unpack _)]
  cases rank? x.toModel.unpack with
  | none => simp
  | some r =>
    cases rank? y.toModel.unpack with
    | none => simp
    | some s => simp [compare_lt_iff_lt]

/-- Floating-point numbers are compared by where they stand. -/
theorem compareFloats_rank (x y : Float) :
    Number.compareFloats x y =
      (rank? x.toModel.unpack).bind fun r => (rank? y.toModel.unpack).map (compare r) := by
  have equal : (x == y) = true ↔ x.toModel.unpack.compare y.toModel.unpack = some .eq := by
    show (x.toModel.unpack.compare y.toModel.unpack == some .eq) = true ↔ _
    exact beq_iff_eq
  unfold Number.compareFloats
  simp only [lt_iff_compare, equal, compare_rank (isStored_unpack _) (isStored_unpack _)]
  cases rank? x.toModel.unpack with
  | none => cases rank? y.toModel.unpack <;> rfl
  | some r =>
    cases rank? y.toModel.unpack with
    | none => rfl
    | some r' =>
      simp only [Option.bind_some, Option.map_some, Option.some_inj, compare_lt_iff_lt,
        compare_eq_iff_eq]
      rcases lt_trichotomy r r' with less | rfl | more
      · rw [if_pos less, compare_lt_iff_lt.mpr less]
      · rw [if_neg (lt_irrefl r), if_pos rfl, compare_eq_iff_eq.mpr rfl]
      · rw [if_neg more.not_gt, if_neg more.ne', if_pos more, compare_gt_iff_gt.mpr more]

/-- An integer is compared with a floating-point number by where they stand. -/
theorem compareIntFloat_rank (n : Int) (y : Float) :
    Number.compareIntFloat n y = (rank? y.toModel.unpack).map (compare ((n : ℚ) : Rank)) := by
  cases hy : valueOf? y with
  | some v =>
    rw [compareIntFloat_eq n hy, rank?_of_value? hy, Option.map_some, compare_coe]
  | none =>
    have hread : Scaled.ofFloat? y = none :=
      Option.map_eq_none_iff.mp ((valueOf?_eq y).symm.trans hy)
    unfold Number.compareIntFloat
    rw [hread]
    dsimp only
    cases nan : y.isNaN with
    | true =>
      rw [eq_notANumber nan]
      rfl
    | false =>
      obtain ⟨s, hs⟩ := exists_infinity hy nan
      have hzero := (compare_infinity s valueOf?_zero).1
      simp only [lt_iff_compare, hs, hzero, Bool.false_eq_true, if_false]
      cases s with
      | positive =>
        have above : (((n : ℚ)) : Rank) < ⊤ := coe_lt_top n
        simp only [rank?, Option.map_some, compare_gt_iff_gt.mpr (coe_lt_top 0),
          compare_lt_iff_lt.mpr above]
        rfl
      | negative =>
        have below (v : ℚ) : ⊥ < (v : Rank) := WithBot.bot_lt_coe _
        simp only [rank?, Option.map_some, compare_lt_iff_lt.mpr (below 0),
          compare_gt_iff_gt.mpr (below n)]
        rfl

end Binary64

namespace Number

open Binary64

/-- Where a number stands among the exact values and the infinities. -/
def rank? : Number → Option Rank
  | .int n => some ((n : ℚ) : Rank)
  | .real x => Binary64.rank? x.toModel.unpack

variable {a b c : Number}

/-- Numbers are compared by where they stand. -/
theorem compare_rank (a b : Number) :
    a.compare b = a.rank?.bind fun r => b.rank?.map (compare r) := by
  cases a with
  | int m =>
    cases b with
    | int n =>
      show some (compare m n) = some (compare ((m : ℚ) : Rank) ((n : ℚ) : Rank))
      rw [compare_coe, ← cmp_eq_compare, ← cmp_eq_compare, (Int.cast_strictMono (R := ℚ)).cmp_map_eq]
    | real y => exact compareIntFloat_rank m y
  | real x =>
    cases b with
    | int n =>
      show (compareIntFloat n x).map Ordering.swap = _
      rw [compareIntFloat_rank]
      show _ = (Binary64.rank? x.toModel.unpack).bind fun r => some (compare r ((n : ℚ) : Rank))
      cases Binary64.rank? x.toModel.unpack with
      | none => rfl
      | some r =>
        show some (compare ((n : ℚ) : Rank) r).swap = some (compare r ((n : ℚ) : Rank))
        rw [← cmp_eq_compare, cmp_swap, cmp_eq_compare]
    | real y => exact compareFloats_rank x y

theorem compare_eq_some_iff {o : Ordering} :
    a.compare b = some o ↔ ∃ r s, a.rank? = some r ∧ b.rank? = some s ∧ compare r s = o := by
  rw [compare_rank, Option.bind_eq_some_iff]
  simp only [Option.map_eq_some_iff, exists_and_left]

theorem atMost_iff_rank :
    a.atMost b = true ↔ ∃ r s, a.rank? = some r ∧ b.rank? = some s ∧ r ≤ s := by
  have le (r s : Rank) : (compare r s).isLE = true ↔ r ≤ s := by
    rw [Ordering.isLE_iff_ne_gt]
    exact compare_le_iff_le
  unfold Number.atMost
  rw [Option.any_eq_true]
  constructor
  · rintro ⟨o, ho, hle⟩
    obtain ⟨r, s, hr, hs, rfl⟩ := compare_eq_some_iff.mp ho
    exact ⟨r, s, hr, hs, (le r s).mp hle⟩
  · rintro ⟨r, s, hr, hs, hle⟩
    exact ⟨_, compare_eq_some_iff.mpr ⟨r, s, hr, hs, rfl⟩, (le r s).mpr hle⟩

theorem less_iff_rank :
    a.less b = true ↔ ∃ r s, a.rank? = some r ∧ b.rank? = some s ∧ r < s := by
  unfold Number.less
  rw [beq_iff_eq, compare_eq_some_iff]
  simp only [compare_lt_iff_lt]

theorem equals_iff_rank : a.equals b = true ↔ ∃ r, a.rank? = some r ∧ b.rank? = some r := by
  unfold Number.equals
  rw [beq_iff_eq, compare_eq_some_iff]
  simp only [compare_eq_iff_eq]
  constructor
  · rintro ⟨r, s, hr, hs, rfl⟩
    exact ⟨r, hr, hs⟩
  · exact fun ⟨r, hr, hs⟩ => ⟨r, r, hr, hs, rfl⟩

theorem equals_infinity_iff {x : Float} :
    (real x).equals (real infinity) = true ↔ x.toModel.unpack = .infinity .positive := by
  have hinfinity : (real infinity).rank? = some ⊤ := rank?_eq_top_iff.mpr unpack_infinity
  rw [equals_iff_rank, hinfinity]
  constructor
  · rintro ⟨r, hr, top⟩
    cases top
    exact rank?_eq_top_iff.mp hr
  · exact fun h => ⟨⊤, rank?_eq_top_iff.mpr h, rfl⟩

/-- Negative infinity is below zero. -/
theorem less_zero_of_infinity {x : Float} (h : x.toModel.unpack = .infinity .negative) :
    (real x).less (int 0) = true :=
  less_iff_rank.mpr ⟨⊥, _, congrArg Binary64.rank? h, rfl, WithBot.bot_lt_coe _⟩

theorem atMost_trans (h : a.atMost b = true) (h' : b.atMost c = true) : a.atMost c = true := by
  obtain ⟨r, s, hr, hs, le⟩ := atMost_iff_rank.mp h
  obtain ⟨s', t, hs', ht, le'⟩ := atMost_iff_rank.mp h'
  cases hs.symm.trans hs'
  exact atMost_iff_rank.mpr ⟨r, t, hr, ht, le.trans le'⟩

theorem less_of_atMost_of_less (h : a.atMost b = true) (h' : b.less c = true) : a.less c = true := by
  obtain ⟨r, s, hr, hs, le⟩ := atMost_iff_rank.mp h
  obtain ⟨s', t, hs', ht, less⟩ := less_iff_rank.mp h'
  cases hs.symm.trans hs'
  exact less_iff_rank.mpr ⟨r, t, hr, ht, le.trans_lt less⟩

end Number

end Calculator
