import Calculator.Proofs.Coefficients
import Calculator.Proofs.Convergence
import Calculator.Proofs.Logging

/-!
# Sums of the tangent are not zero

Beyond an eighth of a turn the tangent is the inverse of the sum for what the angle lacks of a quarter
turn. That sum is not zero: the coefficients lie between zero and one, so every term lies on the side
of zero on which the angle lies, and what is added there does not lead back to zero, however it is
rounded.

Results:
1. `TangentTable.within_sequence`: the coefficients lie between zero and one.
2. `Tangent.within_complement`: what an angle lacks of a quarter turn is at most one.
3. `Tangent.series_ensures`: the sum for a small angle other than zero is not zero.
4. `Tangent.ofReduced_total`: the tangent of a reduced angle ends in no fault.
-/

namespace Calculator

open Binary64 Float.Model Logging UnpackedFloat

/-! ## On one side of zero -/

/-- The number lies between two magnitudes on a given side of zero. -/
def OnSide (s : Sign) (lo hi : ℚ) (x : Float) : Prop :=
  ∃ w, valueOf? x = some (signed s w) ∧ lo ≤ w ∧ w ≤ hi

section OnSide

variable {s : Sign} {lo hi v w : ℚ} {x y : Float}

theorem onSide_of_near (h : Near x (signed s v)) (hlo : OnGrid lo) (hhi : OnGrid hi) (above : lo ≤ v)
    (below : v ≤ hi) : OnSide s lo hi x := by
  cases s with
  | positive => exact h.within hlo hhi above below
  | negative =>
    obtain ⟨w, hw, ge, le⟩ := h.within hhi.neg hlo.neg (neg_le_neg below) (neg_le_neg above)
    exact ⟨-w, by rw [hw, signed, neg_neg], le_neg_of_le_neg le, neg_le_of_neg_le ge⟩

/-- Every number lies on one side of zero with its magnitude. -/
theorem exists_onSide (hx : valueOf? x = some v) : ∃ s, OnSide s |v| |v| x := by
  rcases le_total 0 v with nonneg | nonpos
  · exact ⟨.positive, v, hx, (abs_of_nonneg nonneg).le, (abs_of_nonneg nonneg).ge⟩
  · refine ⟨.negative, -v, ?_, (abs_of_nonpos nonpos).le, (abs_of_nonpos nonpos).ge⟩
    rw [hx, signed, neg_neg]

theorem OnSide.mono {lo' hi' : ℚ} (h : OnSide s lo hi x) (hlo : lo' ≤ lo) (hhi : hi ≤ hi') :
    OnSide s lo' hi' x := by
  obtain ⟨w, hw, ge, le⟩ := h
  exact ⟨w, hw, hlo.trans ge, le.trans hhi⟩

theorem add_signed (s : Sign) (v w : ℚ) : signed s v + signed s w = signed s (v + w) := by
  cases s with
  | positive => rfl
  | negative => exact (neg_add v w).symm

theorem OnSide.mul {s' : Sign} (hx : OnSide s 0 1 x) (hy : OnSide s' 0 1 y) :
    OnSide (s * s') 0 1 (x * y) := by
  obtain ⟨v, hv, v_ge, v_le⟩ := hx
  obtain ⟨w, hw, w_ge, w_le⟩ := hy
  have near := near_mul hv hw
  rw [← signed_mul] at near
  exact onSide_of_near near onGrid_zero onGrid_one (mul_nonneg v_ge w_ge)
    (mul_le_one₀ v_le w_ge w_le)

theorem positive_mul (s : Sign) : .positive * s = s := by cases s <;> rfl

theorem mul_positive (s : Sign) : s * .positive = s := by cases s <;> rfl

theorem onSide_positive (hx : Within lo hi x) : OnSide .positive lo hi x := hx

theorem OnSide.add {lo' hi' : ℚ} (hx : OnSide s lo hi x) (hy : OnSide s lo' hi' y)
    (hlo : OnGrid (lo + lo')) (hhi : OnGrid (hi + hi')) : OnSide s (lo + lo') (hi + hi') (x + y) := by
  obtain ⟨v, hv, v_ge, v_le⟩ := hx
  obtain ⟨w, hw, w_ge, w_le⟩ := hy
  have near := near_add hv hw
  rw [add_signed] at near
  exact onSide_of_near near hlo hhi (add_le_add v_ge w_ge) (add_le_add v_le w_le)

/-- A number that keeps away from zero is not zero. -/
theorem OnSide.beq_zero (h : OnSide s lo hi x) (pos : 0 < lo) : (x == 0.0) = false := by
  obtain ⟨w, hw, ge, -⟩ := h
  rw [← Bool.not_eq_true, beq_iff hw valueOf?_zero, ← abs_eq_zero, abs_signed, abs_eq_zero]
  exact (pos.trans_le ge).ne'

end OnSide

/-! ## The coefficients -/

/-- A sum of numbers between zero and one is at most their number. -/
theorem within_foldl_add {terms : List Float} {start : Float} {n : Nat} (hstart : Within 0 n start)
    (hterms : ∀ t ∈ terms, Within 0 1 t) (few : n + terms.length < 2 ^ 53) :
    Within 0 (n + terms.length : Nat) (terms.foldl (· + ·) start) := by
  induction terms generalizing start n with
  | nil => exact hstart
  | cons t terms ih =>
    rw [List.length_cons] at few ⊢
    have hsum : Within 0 (n + 1 : Nat) (start + t) := by
      have grid : OnGrid (n + 1 : Nat) := onGrid_natCast (by omega)
      rw [Nat.cast_succ] at grid ⊢
      have h := hstart.add (hterms t List.mem_cons_self) (by rw [add_zero]; exact onGrid_zero) grid
      rwa [add_zero] at h
    have h := ih hsum (fun t' ht' => hterms t' (List.mem_cons_of_mem t ht')) (by omega)
    rwa [Nat.add_assoc, Nat.add_comm 1] at h

namespace TangentTable

/-- The coefficients lie between zero and one: each is a sum of products, divided by more than their
number. -/
theorem within_sequence {k : Nat} (few : k < 2 ^ 52) : Within 0 1 (sequence k : Float) := by
  induction k using Nat.strong_induction_on with
  | _ k ih =>
    cases k with
    | zero =>
      have one : (sequence 0 : Float) = 1.0 := rfl
      exact ⟨1, by rw [one]; exact valueOf?_one, zero_le_one, le_rfl⟩
    | succ k =>
      have hproducts (t : Float) (ht : t ∈ (List.range (k + 1)).map fun a =>
          (sequence a * sequence (k - a) : Float)) : Within 0 1 t := by
        obtain ⟨a, ha, rfl⟩ := List.mem_map.mp ht
        have less : a < k + 1 := List.mem_range.mp ha
        exact (onSide_positive (ih a less (by omega))).mul
          (onSide_positive (ih (k - a) (by omega) (by omega)))
      have hzero : Within 0 (0 : Nat) ((0 : Nat) : Float) :=
        ⟨0, valueOf?_ofNat (by decide), le_rfl, Nat.cast_zero.ge⟩
      have hsum := within_foldl_add hzero hproducts
        (by rw [List.length_map, List.length_range]; omega)
      rw [List.length_map, List.length_range, Nat.zero_add] at hsum
      obtain ⟨s, hs, s_ge, s_le⟩ := hsum
      have hcount : valueOf? ((2 * (k + 1) + 1 : Nat) : Float) = some (2 * (k + 1) + 1 : Nat) :=
        valueOf?_ofNat (by omega)
      have pos : (0 : ℚ) < (2 * (k + 1) + 1 : Nat) := by positivity
      have le : s ≤ (2 * (k + 1) + 1 : Nat) := s_le.trans (by exact_mod_cast (by omega))
      rw [sequence_succ]
      exact (near_div hs hcount pos.ne').within onGrid_zero onGrid_one (div_nonneg s_ge pos.le)
        ((div_le_one pos).mpr le)

end TangentTable

namespace Tangent

open TangentTable

/-! ## Sums -/

/-- Sum and power lie on one side of zero, the sum at least as far from it as the first term. -/
structure SameSide (s : Sign) (least : ℚ) (p : TangentSum Float) : Prop where
  sum : OnSide s least (p.count + 1 : Nat) p.sum
  power : OnSide s 0 1 p.power
  table : p.table.IsInitial

variable {s : Sign} {x : Float} {v : ℚ} {table : TangentTable Float}

theorem SameSide.addTerm {p : TangentSum Float} (h : SameSide s |v| p) (hx : valueOf? x = some v)
    (le : |v| ≤ 1) (few : p.count + 1 < 2 ^ 52) : SameSide s |v| (addTerm x p) := by
  have hsquare : Within 0 1 (x * x) := by
    refine (near_mul hx hx).within onGrid_zero onGrid_one (mul_self_nonneg v) ?_
    rw [← abs_mul_abs_self]
    exact mul_le_one₀ le (abs_nonneg v) le
  have hpower : OnSide s 0 1 (p.power * (x * x)) := by
    rw [← mul_positive s]
    exact h.power.mul hsquare
  have hcoefficient : Within 0 1 ((p.table.upTo (p.count + 1)).coefficient (p.count + 1)) := by
    rw [h.table.coefficient_upTo]
    exact within_sequence few
  have hterm := (onSide_positive hcoefficient).mul hpower
  rw [positive_mul] at hterm
  have grid : OnGrid |v| := onGrid_of_valueOf? (valueOf?_abs hx)
  have grid' : OnGrid (p.count + 1 + 1 : Nat) := onGrid_natCast (by omega)
  rw [Nat.cast_succ] at grid'
  have hsum := h.sum.add hterm (by rwa [add_zero]) grid'
  rw [add_zero, ← Nat.cast_succ] at hsum
  exact ⟨hsum, hpower, h.table.upTo _⟩

/-- As many terms as any cap asks for that is not huge leave the sum on its side. -/
theorem run_sameSide (hx : valueOf? x = some v) (le : |v| ≤ 1) (htable : table.IsInitial)
    (tolerance : Number) (budget : Nat) (few : budget < 2 ^ 52) :
    ∃ s, SameSide s |v| (run x tolerance budget table).1 := by
  obtain ⟨s, hside⟩ := exists_onSide hx
  let Inv (k : Nat) (p : TangentSum Float) : Prop := p.count = k ∧ (k < 2 ^ 52 → SameSide s |v| p)
  have start : Inv 0 (Tangent.start x table) := by
    refine ⟨rfl, fun _ => ⟨?_, hside.mono (abs_nonneg v) le, htable⟩⟩
    exact hside.mono le_rfl (le.trans (by exact_mod_cast le_rfl))
  have preserved (k : Nat) (p : TangentSum Float) (h : Inv k p) :
      Inv (k + 1) (Tangent.addTerm x p) := by
    obtain ⟨rfl, h⟩ := h
    exact ⟨rfl, fun less => (h (Nat.lt_of_succ_lt less)).addTerm hx le less⟩
  obtain ⟨n, hn, -, ends⟩ := stepFirst_ends Inv preserved budget start
  exact ⟨s, ends (by omega)⟩

/-- A sum ends in no fault. -/
theorem series_total (cap : Int) (x : Float) (tolerance : Number) (table : TangentTable Float) :
    (series cap x (some tolerance) table).1.Gives fun _ => True := by
  unfold series
  by_cases few : cap ≤ 1
  · rw [if_pos few]
    exact (ensures_warn _).bind fun _ _ => ensures_pure trivial
  · rw [if_neg few]
    exact ensures_converged trivial

/-- The sum for a small number other than zero is not zero. -/
theorem series_ensures (hx : valueOf? x = some v) (nonzero : v ≠ 0) (le : |v| ≤ 1)
    (htable : table.IsInitial) (tolerance : Number) {cap : Int} (few : cap ≤ 2 ^ 52) :
    (series cap x (some tolerance) table).1.Gives fun y => (y == 0.0) = false := by
  have pos : 0 < |v| := abs_pos.mpr nonzero
  unfold series
  by_cases single : cap ≤ 1
  · rw [if_pos single]
    obtain ⟨s, hside⟩ := exists_onSide hx
    exact (ensures_warn _).bind fun _ _ => ensures_pure (hside.beq_zero pos)
  · rw [if_neg single]
    obtain ⟨s, h⟩ := run_sameSide hx le htable tolerance (cap - 1).toNat (by omega)
    exact ensures_converged (h.sum.beq_zero pos)

/-! ## The reduced angle -/

/-- The value of half a turn in the format. -/
def halfTurn : ℚ := 884279719003555 / 2 ^ 48

theorem valueOf?_pi : valueOf? pi = some halfTurn :=
  valueOf?_eq_some (a := ⟨false, 7074237752028440, -51⟩) rfl
    (by norm_num [value, signed, halfTurn])

theorem valueOf?_halfPi : valueOf? halfPi = some (halfTurn / 2) :=
  valueOf?_eq_some (a := ⟨false, 7074237752028440, -52⟩) rfl
    (by norm_num [value, signed, halfTurn])

theorem valueOf?_quarterPi : valueOf? quarterPi = some (halfTurn / 4) :=
  valueOf?_eq_some (a := ⟨false, 7074237752028440, -53⟩) rfl
    (by norm_num [value, signed, halfTurn])

theorem onGrid_halfTurn : OnGrid (halfTurn / 2) := onGrid_of_valueOf? valueOf?_halfPi

/-- The reduced angle is at most a quarter of a turn on either side. -/
theorem within_withinHalfTurn (finite : x.isFinite = true) :
    Within (-(halfTurn / 2)) (halfTurn / 2) (withinHalfTurn x) := by
  obtain ⟨v, hv⟩ := exists_valueOf? finite
  obtain ⟨w, hw⟩ := exists_valueOf?_sub valueOf?_halfPi hv (by norm_num [halfTurn, abs_of_pos])
  obtain ⟨r, hr, r_ge, r_le⟩ := within_flooredRemainder hw valueOf?_pi (by norm_num [halfTurn])
  exact (near_sub valueOf?_halfPi hr).within onGrid_halfTurn.neg onGrid_halfTurn (by linarith)
    (by linarith)

/-- Beyond an eighth of a turn an angle lacks less than that of a quarter of a turn. -/
theorem within_complement {angle : Float} (hangle : Within (-(halfTurn / 2)) (halfTurn / 2) angle)
    (large : ¬angle.abs ≤ quarterPi) : Within (-1) 1 (complement angle) := by
  obtain ⟨v, hv, above, below⟩ := hangle
  rw [le_iff (valueOf?_abs hv) valueOf?_quarterPi, not_le] at large
  have : halfTurn ≤ 4 := by norm_num [halfTurn]
  unfold complement
  by_cases positive : 0.0 < angle
  · rw [if_pos positive]
    rw [lt_iff valueOf?_zero hv] at positive
    rw [abs_of_pos positive] at large
    exact (near_sub valueOf?_halfPi hv).within onGrid_one.neg onGrid_one (by linarith) (by linarith)
  · rw [if_neg positive]
    rw [lt_iff valueOf?_zero hv, not_lt] at positive
    rw [abs_of_nonpos positive] at large
    have hquarter : valueOf? (-halfPi) = some (-(halfTurn / 2)) := valueOf?_neg valueOf?_halfPi
    exact (near_sub hquarter hv).within onGrid_one.neg onGrid_one (by linarith) (by linarith)

/-- The tangent of a reduced angle ends in no fault, so no inverse of zero is taken. -/
theorem ofReduced_total {angle : Float} (hangle : Within (-(halfTurn / 2)) (halfTurn / 2) angle)
    (htable : table.IsInitial) (tolerance : Number) {cap : Int} (few : cap ≤ 2 ^ 52) :
    (ofReduced cap angle (some tolerance) table).1.Gives fun _ => True := by
  unfold ofReduced
  by_cases small : angle.abs ≤ quarterPi
  · rw [if_pos small]
    exact series_total cap angle tolerance table
  · rw [if_neg small]
    obtain ⟨v, hv, above, below⟩ := within_complement hangle small
    by_cases zero : (complement angle == 0.0) = true
    · rw [if_pos zero]
      exact ensures_pure trivial
    · rw [if_neg zero]
      have nonzero : v ≠ 0 := fun h => zero ((beq_iff hv valueOf?_zero).mpr h)
      have hseries := series_ensures hv nonzero (abs_le.mpr ⟨above, below⟩) htable tolerance few
      refine hseries.bind fun cotangent hcotangent => ?_
      unfold invert
      rw [hcotangent]
      exact ensures_pure trivial

end Tangent

end Calculator
