import Calculator.Proofs.Plans

/-!
# Caps

A loop that has a cap makes no more steps than it says, and if it is cut off it reports that and is
gone on from where it is. The sums of the sine, the cosine and the arctangent have no cap: they
neither obey one nor report.

A loop that was cut off may be good enough all the same. The root and the arcsine test before each
step, so the state after the last step that the cap allows is not tested. The tangent tests behind
each step, so under a cap of one, which allows none, it does not test at all. A loop that does test
the state it ends in reports if and only if the test fails.

Results:
1. `Loop.obeys`, `Loop.ignores`: what a cap is to each loop.
2. `Builtin.loops_obey_or_ignore`: what a cap is to the loops of a call.
3. `Loop.warnings_eq`: when a loop reports.
4. `Builtin.loops_report_iff`: when the loops of a call report.
-/

namespace Calculator

open Logging

namespace Loop

variable {cap : Int} {l : Loop} {tolerance : Number} {routine : Routine} {argument : Number}

/-! ## Steps under a cap -/

/-- The loop makes no more steps than the cap says. If it is cut off it reports that, and is gone on
from the last state. -/
structure Obeys (cap : Int) (tolerance : Number) (l : Loop) : Prop where
  steps : ((l.states cap tolerance).length : Int) ≤ cap
  cutOff : (l.run cap tolerance).2 = false →
    (∃ routine argument, l.report? = some (routine, argument) ∧
      l.warnings cap tolerance = [⟨routine, argument, cap⟩]) ∧
    l.outcome cap tolerance = .ok ((l.states cap tolerance).getLastD l.start)

/-- The loop runs as under every other cap, and reports nothing. -/
structure Ignores (cap : Int) (tolerance : Number) (l : Loop) : Prop where
  states : ∀ other, l.states other tolerance = l.states cap tolerance
  outcome : ∀ other, l.outcome other tolerance = l.outcome cap tolerance
  silent : l.warnings cap tolerance = []

theorem budget_le (pos : 0 < cap) (h : l.report? = some (routine, argument)) :
    (l.budget cap : Int) ≤ cap := by
  cases l with
  | root | tangent | arcsine =>
    simp only [budget]
    omega
  | sine | cosine | arctangent => cases h

/-- A loop that has a cap goes on where it is cut off. -/
theorem outcome_of_cutOff (h : l.report? = some (routine, argument))
    (cut : (l.run cap tolerance).2 = false) :
    l.outcome cap tolerance = .ok (l.run cap tolerance).1 := by
  have goesOn : l.failure? tolerance (l.run cap tolerance) = none := by
    generalize l.run cap tolerance = r at cut
    obtain ⟨s, converged⟩ := r
    subst cut
    cases l with
    | root | tangent | arcsine => rfl
    | sine | cosine | arctangent => cases h
  unfold outcome
  rw [goesOn]
  rfl

theorem warnings_of_report (h : l.report? = some (routine, argument)) :
    l.warnings cap tolerance =
      if (l.run cap tolerance).2 then [] else [⟨routine, argument, cap⟩] := by
  unfold warnings
  rw [h]
  rfl

theorem obeys (pos : 0 < cap) (h : l.report? = some (routine, argument)) :
    l.Obeys cap tolerance := by
  refine ⟨?_, fun cut => ⟨⟨routine, argument, h, ?_⟩, ?_⟩⟩
  · have le : ((l.states cap tolerance).length : Int) ≤ l.budget cap := by
      exact_mod_cast l.states_length_le cap tolerance
    exact Int.le_trans le (budget_le pos h)
  · rw [warnings_of_report h, cut]
    rfl
  · rw [outcome_of_cutOff h cut, run_eq_getLastD]

theorem ignores (h : l.report? = none) : l.Ignores cap tolerance := by
  have budget (other : Int) : l.budget other = l.budget cap := by
    cases l with
    | root | tangent | arcsine => cases h
    | sine | cosine | arctangent => rfl
  have run (other : Int) : l.run other tolerance = l.run cap tolerance := by
    unfold Loop.run
    rw [budget]
  refine ⟨fun other => ?_, fun other => ?_, ?_⟩
  · unfold states
    rw [budget]
  · unfold Loop.outcome
    rw [run]
  · unfold warnings
    rw [h]
    exact ite_self []

/-- The functions whose loops have no cap. -/
theorem IsOf.mem_of_report {f : Builtin} (own : l.IsOf f) (h : l.report? = none) :
    f ∈ [Builtin.sin, .cos, .atan] := by
  cases f with
  | abs | factorial | pow => exact own.elim
  | sin | cos | atan => decide
  | sqrt =>
    obtain ⟨x, target, start, rfl⟩ := own
    cases h
  | tan =>
    obtain ⟨angle, rfl⟩ := own
    cases h
  | asin | acos =>
    obtain ⟨x, first, rfl⟩ := own
    cases h

/-! ## Reports -/

/-- The state that the loop ends in was not tested: all steps were made that the cap allows, or none
where the test stands behind the step. -/
def endsUntested (cap : Int) (tolerance : Number) (l : Loop) : Bool :=
  if l.stepsFirst then (l.states cap tolerance).isEmpty
  else (l.states cap tolerance).length == cap.toNat

/-- A loop is cut off if the state that it ends in was not tested, or the test fails there. -/
theorem run_snd_eq (pos : 0 < cap) (h : l.report? = some (routine, argument)) :
    (l.run cap tolerance).2 =
      !(l.endsUntested cap tolerance || !l.settled tolerance (l.run cap tolerance).1) := by
  unfold endsUntested
  rw [Bool.not_or, Bool.not_not]
  cases first : l.stepsFirst with
  | true =>
    rw [run_of_stepsFirst cap tolerance first, states_of_stepsFirst cap tolerance first, if_pos rfl]
    exact stepFirst_eq _ _
  | false =>
    have budget : l.budget cap = cap.toNat := by
      cases l with
      | root => rfl
      | tangent => cases first
      | arcsine => exact congrArg Int.toNat (by omega)
      | sine | cosine | arctangent => cases h
    rw [run_of_testsFirst cap tolerance first, states_of_testsFirst cap tolerance first,
      if_neg Bool.false_ne_true, budget]
    exact testFirst_eq _ _

/-- A loop reports if the state that it ends in was not tested, or the test fails there. -/
theorem warnings_eq (pos : 0 < cap) (h : l.report? = some (routine, argument)) :
    l.warnings cap tolerance =
      if l.endsUntested cap tolerance || !l.settled tolerance (l.run cap tolerance).1 then
        [⟨routine, argument, cap⟩]
      else [] := by
  rw [warnings_of_report h, run_snd_eq pos h]
  cases l.endsUntested cap tolerance || !l.settled tolerance (l.run cap tolerance).1 <;> rfl

end Loop

namespace Builtin

/-! ## The loops of a call -/

/-- Under a positive cap each loop of a call obeys the cap, but for the loop of a sine, cosine or
arctangent, which runs as under every other cap. -/
theorem loops_obey_or_ignore {cap : Int} (pos : 0 < cap) (f : Builtin) (x tolerance : Number) :
    Follows cap (f.approximate cap x (some tolerance)) (f.course cap x tolerance) ∧
    ∀ l s, (l, s) ∈ (f.course cap x tolerance).passes →
      l.Obeys cap s ∨ f ∈ [sin, cos, atan] ∧ l.IsOf f ∧ l.Ignores cap s := by
  have root (l : Loop) (s : Number) (h : IsExactRoot (l, s)) : l.Obeys cap s := by
    obtain ⟨y, target, start, h⟩ := h
    cases h
    exact Loop.obeys pos rfl
  refine ⟨f.approximate_follows cap x tolerance, fun l s hpass => ?_⟩
  rcases f.course_eq_or_last cap x with ⟨c, hroots, course⟩ |
    ⟨roots, hroots, last, finish, own, course⟩
  · rw [course] at hpass
    exact .inl (root l s (hroots _ hpass))
  · rw [course] at hpass
    rcases List.mem_append.mp hpass with before | final
    · exact .inl (root l s (hroots _ before))
    · cases List.mem_singleton.mp final
      cases h : l.report? with
      | some report => exact .inl (Loop.obeys pos h)
      | none => exact .inr ⟨own.mem_of_report h, own, Loop.ignores h⟩

/-- The tangent, whose sum is cut off by a cap of two. -/
theorem loops_obey_or_ignore_tangent :
    (0 : Int) < 2 ∧
    Follows 2 (tan.approximate 2 (.real 0.5) (some (.real coarseTolerance)))
      (tan.course 2 (.real 0.5) (.real coarseTolerance)) ∧
    ∀ l s, (l, s) ∈ (tan.course 2 (.real 0.5) (.real coarseTolerance)).passes →
      l.Obeys 2 s ∨ tan ∈ [sin, cos, atan] ∧ l.IsOf tan ∧ l.Ignores 2 s :=
  ⟨by decide, loops_obey_or_ignore (by decide) tan (.real 0.5) (.real coarseTolerance)⟩

/-- Under a cap of one the sine, cosine and arctangent of one each make a loop of more than one step
that reports nothing. -/
theorem sums_exceed_cap :
    (∀ f ∈ [sin, cos, atan],
      ∃ pass ∈ (f.course 1 (.real 1.0) (.real f.tolerance)).passes,
        1 < (pass.1.states 1 pass.2).length ∧ pass.1.warnings 1 pass.2 = []) ∧
    ((sin.approximate 1 (.real 1.0) (some (.real sin.tolerance))).outcome []).2 = [] := by
  decide +kernel

/-- Under a positive cap a loop of a call that has a cap reports in two cases: the state that it ends
in was not tested, or the test fails there. -/
theorem loops_report_iff {cap : Int} (pos : 0 < cap) (f : Builtin) (x tolerance : Number) :
    Follows cap (f.approximate cap x (some tolerance)) (f.course cap x tolerance) ∧
    ∀ l s, (l, s) ∈ (f.course cap x tolerance).passes →
      ∀ routine argument, l.report? = some (routine, argument) →
        l.warnings cap s =
          if l.endsUntested cap s || !l.settled s (l.run cap s).1 then [⟨routine, argument, cap⟩]
          else [] :=
  ⟨f.approximate_follows cap x tolerance, fun _ _ _ _ _ => Loop.warnings_eq pos⟩

/-- The root of nine under a cap of four, whose last guess is tested. -/
theorem loops_report_iff_root :
    (0 : Int) < 4 ∧
    Follows 4 (sqrt.approximate 4 (.real 9.0) (some (.real coarseTolerance)))
      (sqrt.course 4 (.real 9.0) (.real coarseTolerance)) ∧
    ∀ l s, (l, s) ∈ (sqrt.course 4 (.real 9.0) (.real coarseTolerance)).passes →
      ∀ routine argument, l.report? = some (routine, argument) →
        l.warnings 4 s =
          if l.endsUntested 4 s || !l.settled s (l.run 4 s).1 then [⟨routine, argument, 4⟩]
          else [] :=
  ⟨by decide, loops_report_iff (by decide) sqrt (.real 9.0) (.real coarseTolerance)⟩

/-- The root of nine under a cap of three ends in a guess whose square is within the tolerance of
nine, and reports. The arcsine under a cap of one reports although the next term is within the
tolerance, and the tangent although its only term is. -/
theorem settled_loops_report :
    (∃ pass ∈ (sqrt.course 3 (.real 9.0) (.real coarseTolerance)).passes,
      pass.1.settled pass.2 (pass.1.run 3 pass.2).1 = true ∧
        pass.1.warnings 3 pass.2 = [⟨.root, .real 9.0, 3⟩]) ∧
    (∃ pass ∈ (asin.course 1 (.real 0.5) (.real 0.1)).passes,
      pass.1.settled pass.2 (pass.1.run 1 pass.2).1 = true ∧
        pass.1.warnings 1 pass.2 = [⟨.arcsine, .real 0.5, 1⟩]) ∧
    (∃ pass ∈ (tan.course 1 (.real 0.0) (.real coarseTolerance)).passes,
      pass.1.settled pass.2 (pass.1.run 1 pass.2).1 = true ∧
        pass.1.warnings 1 pass.2 = [⟨.tangent, .real 0.0, 1⟩]) := by
  decide +kernel

end Builtin

end Calculator
