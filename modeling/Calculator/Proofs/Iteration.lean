import Calculator.Library.Iteration

/-!
# Invariants of iterations

What every step of an iteration preserves holds where it ends. The invariant may say how many steps
were made, and a step that is made behind a test may rely on the test not having held. The states that
an iteration passes through can be recorded: the last of them is the one it ends in, and a test that
holds more often ends the iteration earlier among the same states.

Results:
1. `testFirst_ends`, `stepFirst_ends`: an invariant that counts the steps.
2. `testFirst_stops`: an iteration whose test holds after so many steps at the latest.
3. `testFirst_related`, `stepFirst_related`: two iterations side by side.
4. `testFirst_getLastD`, `stepFirst_getLastD`: the recorded states lead to where the iteration ends.
5. `testFirst_eq`, `stepFirst_eq`: what an iteration says of its end, from the states.
6. `testFirstStates_prefix`, `stepFirstStates_prefix`: another test among the same states.
-/

namespace Calculator

variable {σ : Type} {stop : σ → Bool} {step : σ → σ}

/-! ## Testing first -/

/-- An iteration ends where the test holds or where the budget is used up, and there holds what every
step preserves behind a test that did not hold. -/
theorem testFirst_ends (Inv : Nat → σ → Prop)
    (preserved : ∀ k s, Inv k s → stop s = false → Inv (k + 1) (step s)) (budget : Nat) {k : Nat}
    {s : σ} (h : Inv k s) :
    ∃ n, Inv n (testFirst stop step budget s).1 ∧
      (stop (testFirst stop step budget s).1 = true ∧ (testFirst stop step budget s).2 = true ∨
        n = k + budget ∧ (testFirst stop step budget s).2 = false) := by
  induction budget generalizing k s with
  | zero => exact ⟨k, h, .inr ⟨rfl, rfl⟩⟩
  | succ budget ih =>
    unfold testFirst
    cases hstop : stop s with
    | true => exact ⟨k, h, .inl ⟨hstop, rfl⟩⟩
    | false =>
      obtain ⟨n, hn, ends⟩ := ih (preserved k s h hstop)
      exact ⟨n, hn, ends.imp_right fun used => ⟨by omega, used.2⟩⟩

/-- An iteration stops if the test holds in every state that it can be in after `n` steps. -/
theorem testFirst_stops {n : Nat} (Inv : Nat → σ → Prop)
    (preserved : ∀ k < n, ∀ s, Inv k s → Inv (k + 1) (step s))
    (settled : ∀ s, Inv n s → stop s = true) (budget : Nat) {k : Nat} {s : σ} (h : Inv k s)
    (le : k ≤ n) (enough : n < k + budget) : (testFirst stop step budget s).2 = true := by
  have further (k : Nat) (s : σ) (inside : Inv k s ∧ k ≤ n) (hstop : stop s = false) :
      Inv (k + 1) (step s) ∧ k + 1 ≤ n := by
    have more : k < n := by
      rcases Nat.lt_or_eq_of_le inside.2 with less | rfl
      · exact less
      · rw [settled s inside.1] at hstop
        cases hstop
    exact ⟨preserved k more s inside.1, more⟩
  obtain ⟨m, ⟨-, hm⟩, ⟨-, stops⟩ | ⟨used, -⟩⟩ := testFirst_ends _ further budget ⟨h, le⟩
  · exact stops
  · omega

/-- An iteration ends in a state that has what every step preserves. -/
theorem testFirst_induction {P : σ → Prop} (preserved : ∀ s, P s → P (step s)) (budget : Nat)
    {s : σ} (h : P s) : P (testFirst stop step budget s).1 := by
  have further (k : Nat) (s : σ) (hs : P s) (_ : stop s = false) : P (step s) := preserved s hs
  obtain ⟨-, ends, -⟩ := testFirst_ends (fun _ => P) further budget (k := 0) h
  exact ends

/-- Two iterations whose states stay related stop together, in related states. -/
theorem testFirst_related {τ : Type} {stop' : τ → Bool} {step' : τ → τ} {R : σ → τ → Prop}
    (stops : ∀ s t, R s t → stop s = stop' t) (steps : ∀ s t, R s t → R (step s) (step' t))
    (budget : Nat) {s : σ} {t : τ} (h : R s t) :
    R (testFirst stop step budget s).1 (testFirst stop' step' budget t).1 ∧
      (testFirst stop step budget s).2 = (testFirst stop' step' budget t).2 := by
  induction budget generalizing s t with
  | zero => exact ⟨h, rfl⟩
  | succ budget ih =>
    unfold testFirst
    rw [← stops s t h]
    cases stop s with
    | true => exact ⟨h, rfl⟩
    | false => exact ih (steps s t h)

/-! ## Stepping first -/

/-- An iteration ends after no more steps than the budget allows, and there holds what every step
preserves. -/
theorem stepFirst_ends (Inv : Nat → σ → Prop) (preserved : ∀ k s, Inv k s → Inv (k + 1) (step s))
    (budget : Nat) {k : Nat} {s : σ} (h : Inv k s) :
    ∃ n, n ≤ k + budget ∧ Inv n (stepFirst stop step budget s).1 := by
  induction budget generalizing k s with
  | zero => exact ⟨k, Nat.le_refl k, h⟩
  | succ budget ih =>
    unfold stepFirst
    cases stop (step s) with
    | true => exact ⟨k + 1, by omega, preserved k s h⟩
    | false =>
      obtain ⟨n, hn, ends⟩ := ih (preserved k s h)
      exact ⟨n, by omega, ends⟩

/-- An iteration ends in a state that has what every step preserves. -/
theorem stepFirst_induction {P : σ → Prop} (preserved : ∀ s, P s → P (step s)) (budget : Nat)
    {s : σ} (h : P s) : P (stepFirst stop step budget s).1 := by
  obtain ⟨-, -, ends⟩ :=
    stepFirst_ends (fun _ => P) (fun _ => preserved) budget (k := 0) h
  exact ends

/-- Two iterations whose states stay related stop together, in related states. -/
theorem stepFirst_related {R : σ → σ → Prop} (steps : ∀ s s', R s s' → R (step s) (step s'))
    (stops : ∀ s s', R s s' → stop s = stop s') (budget : Nat) {s s' : σ} (h : R s s') :
    R (stepFirst stop step budget s).1 (stepFirst stop step budget s').1 ∧
      (stepFirst stop step budget s).2 = (stepFirst stop step budget s').2 := by
  induction budget generalizing s s' with
  | zero => exact ⟨h, rfl⟩
  | succ budget ih =>
    have next := steps s s' h
    unfold stepFirst
    rw [← stops _ _ next]
    cases stop (step s) with
    | true => exact ⟨next, rfl⟩
    | false => exact ih next

/-! ## The states passed through -/

/-- The states after each step of an iteration that tests first. -/
def testFirstStates (stop : σ → Bool) (step : σ → σ) : Nat → σ → List σ
  | 0, _ => []
  | budget + 1, s => if stop s then [] else step s :: testFirstStates stop step budget (step s)

/-- The states after each step of an iteration that steps first. -/
def stepFirstStates (stop : σ → Bool) (step : σ → σ) : Nat → σ → List σ
  | 0, _ => []
  | budget + 1, s => step s :: if stop (step s) then [] else stepFirstStates stop step budget (step s)

variable {stop' : σ → Bool}

theorem testFirst_getLastD (budget : Nat) (s : σ) :
    (testFirst stop step budget s).1 = (testFirstStates stop step budget s).getLastD s := by
  induction budget generalizing s with
  | zero => rfl
  | succ budget ih =>
    unfold testFirst testFirstStates
    cases stop s with
    | true => rfl
    | false => exact (ih (step s)).trans (List.getLastD_cons ..).symm

theorem testFirstStates_length_le (budget : Nat) (s : σ) :
    (testFirstStates stop step budget s).length ≤ budget := by
  induction budget generalizing s with
  | zero => exact Nat.le_refl 0
  | succ budget ih =>
    unfold testFirstStates
    cases stop s with
    | true => exact Nat.zero_le _
    | false => exact Nat.succ_le_succ (ih (step s))

/-- An iteration that tests first is cut off if it makes all the steps that the budget allows. -/
theorem testFirst_eq_false_iff (budget : Nat) (s : σ) :
    (testFirst stop step budget s).2 = false ↔
      (testFirstStates stop step budget s).length = budget := by
  induction budget generalizing s with
  | zero => exact ⟨fun _ => rfl, fun _ => rfl⟩
  | succ budget ih =>
    unfold testFirst testFirstStates
    cases stop s with
    | true => exact ⟨fun h => Bool.noConfusion h, fun h => Nat.noConfusion h⟩
    | false => exact (ih (step s)).trans (Nat.add_right_cancel_iff (n := 1)).symm

/-- The test holds where an iteration ends that was not cut off. -/
theorem testFirst_stopped (budget : Nat) {s : σ} (h : (testFirst stop step budget s).2 = true) :
    stop (testFirst stop step budget s).1 = true := by
  induction budget generalizing s with
  | zero => cases h
  | succ budget ih =>
    unfold testFirst at h ⊢
    cases hstop : stop s with
    | true => exact hstop
    | false =>
      rw [hstop] at h
      exact ih h

/-- An iteration that tests first is not cut off if the budget allows a further step and the test holds
where it ends. -/
theorem testFirst_eq (budget : Nat) (s : σ) :
    (testFirst stop step budget s).2 =
      (!((testFirstStates stop step budget s).length == budget) &&
        stop (testFirst stop step budget s).1) := by
  have cut : (testFirst stop step budget s).2 = false ↔
    (testFirstStates stop step budget s).length = budget := testFirst_eq_false_iff budget s
  cases h : (testFirst stop step budget s).2 with
  | true =>
    have further : (testFirstStates stop step budget s).length ≠ budget := fun all =>
      Bool.noConfusion ((cut.mpr all).symm.trans h)
    rw [testFirst_stopped budget h, beq_false_of_ne further]
    rfl
  | false =>
    rw [cut.mp h, beq_self_eq_true]
    rfl

/-- A test that holds whenever another does ends the iteration among the states of the other. -/
theorem testFirstStates_prefix (earlier : ∀ s, stop s = true → stop' s = true) (budget : Nat) (s : σ) :
    testFirstStates stop' step budget s <+: testFirstStates stop step budget s := by
  induction budget generalizing s with
  | zero => exact List.prefix_refl []
  | succ budget ih =>
    unfold testFirstStates
    cases hstop' : stop' s with
    | true => exact List.nil_prefix
    | false =>
      have hstop : stop s = false :=
        Bool.eq_false_iff.mpr fun h => Bool.eq_false_iff.mp hstop' (earlier s h)
      rw [hstop]
      exact List.cons_prefix_cons.mpr ⟨rfl, ih (step s)⟩

theorem stepFirst_getLastD (budget : Nat) (s : σ) :
    (stepFirst stop step budget s).1 = (stepFirstStates stop step budget s).getLastD s := by
  induction budget generalizing s with
  | zero => rfl
  | succ budget ih =>
    unfold stepFirst stepFirstStates
    rw [List.getLastD_cons]
    cases stop (step s) with
    | true => rfl
    | false => exact ih (step s)

theorem stepFirstStates_length_le (budget : Nat) (s : σ) :
    (stepFirstStates stop step budget s).length ≤ budget := by
  induction budget generalizing s with
  | zero => exact Nat.le_refl 0
  | succ budget ih =>
    unfold stepFirstStates
    cases stop (step s) with
    | true => exact Nat.succ_le_succ (Nat.zero_le _)
    | false => exact Nat.succ_le_succ (ih (step s))

/-- An iteration that steps first is not cut off if it makes a step and the test holds where it ends. -/
theorem stepFirst_eq (budget : Nat) (s : σ) :
    (stepFirst stop step budget s).2 =
      (!(stepFirstStates stop step budget s).isEmpty && stop (stepFirst stop step budget s).1) := by
  induction budget generalizing s with
  | zero => rfl
  | succ budget ih =>
    unfold stepFirst stepFirstStates
    cases hstop : stop (step s) with
    | true => exact hstop.symm
    | false =>
      rw [if_neg Bool.false_ne_true, ih (step s)]
      cases budget with
      | zero => exact hstop.symm
      | succ budget => rfl

/-- A test that holds whenever another does ends the iteration among the states of the other. -/
theorem stepFirstStates_prefix (earlier : ∀ s, stop s = true → stop' s = true) (budget : Nat) (s : σ) :
    stepFirstStates stop' step budget s <+: stepFirstStates stop step budget s := by
  induction budget generalizing s with
  | zero => exact List.prefix_refl []
  | succ budget ih =>
    unfold stepFirstStates
    refine List.cons_prefix_cons.mpr ⟨rfl, ?_⟩
    cases hstop' : stop' (step s) with
    | true => exact List.nil_prefix
    | false =>
      have hstop : stop (step s) = false :=
        Bool.eq_false_iff.mpr fun h => Bool.eq_false_iff.mp hstop' (earlier _ h)
      rw [hstop]
      exact ih (step s)

end Calculator
