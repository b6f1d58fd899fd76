import Calculator.Proofs.Binary64.Rank
import Calculator.Proofs.Plans

/-!
# Coarser tolerances

A tolerance decides when a loop stops, and nothing else. If the test holds with one tolerance, it
holds with every coarser one. So with the coarser tolerance a loop passes through the same states,
and stops no later among them.

Results:
1. `Root.settled_of_coarser`, `Loop.settled_of_coarser`: the test with a coarser tolerance.
2. `Loop.stopsEarlier`: a loop with a coarser tolerance.
3. `Builtin.coarser_stops_earlier`: a call with a coarser tolerance.
-/

namespace Calculator

variable {p q : Number}

/-! ## The tests -/

theorem within_of_coarser (coarser : p.atMost q = true) {x : Float} (h : within p x = true) :
    within q x = true :=
  Number.atMost_trans h coarser

theorem beyond_of_finer (coarser : p.atMost q = true) {x : Float} (h : beyond q x = true) :
    beyond p x = true :=
  Number.less_of_atMost_of_less coarser h

theorem not_beyond_of_coarser (coarser : p.atMost q = true) {x : Float}
    (h : (!beyond p x) = true) : (!beyond q x) = true := by
  rw [Bool.not_eq_true'] at h ⊢
  exact Bool.eq_false_iff.mpr fun h' => Bool.eq_false_iff.mp h (beyond_of_finer coarser h')

/-- A guess of zero that was not good enough, and has no next one, may be good enough for the coarser
tolerance, and otherwise still has no next one. -/
theorem Root.settled_of_coarser (coarser : p.atMost q = true) {x : Float} {g : Root.Guess}
    (h : Root.settled x p g = true) : Root.settled x q g = true := by
  unfold Root.settled at h ⊢
  rw [Bool.or_eq_true, Bool.or_eq_true] at h
  cases hclose : Root.close x q g.value with
  | true => rfl
  | false =>
    rcases h with (close | stuck) | stalled
    · rw [show Root.close x q g.value = true from within_of_coarser coarser close] at hclose
      cases hclose
    · have zero : (g.value == 0.0) = true := (Bool.and_eq_true_iff.mp stuck).1
      unfold Root.stuck
      rw [zero, hclose]
      rfl
    · rw [stalled, Bool.or_true]

namespace Loop

variable (cap : Int) (l : Loop)

theorem settled_of_coarser (coarser : p.atMost q = true) (s : l.State)
    (h : l.settled p s = true) : l.settled q s = true := by
  cases l with
  | root => exact Root.settled_of_coarser coarser h
  | tangent => exact within_of_coarser coarser h
  | sine | cosine | arcsine | arctangent => exact not_beyond_of_coarser coarser h

/-! ## The loops -/

/-- With the second tolerance the loop passes through the first of the states that it passes through
with the first one. It ends in the state that it is in with the first one after as many steps. -/
structure StopsEarlier (p q : Number) : Prop where
  states : l.states cap q <+: l.states cap p
  steps : (l.states cap q).length ≤ (l.states cap p).length
  ending : (l.start :: l.states cap p)[(l.states cap q).length]? = some (l.run cap q).1

theorem states_of_coarser (coarser : p.atMost q = true) : l.states cap q <+: l.states cap p := by
  have earlier := l.settled_of_coarser coarser
  cases h : l.stepsFirst with
  | true =>
    rw [states_of_stepsFirst cap p h, states_of_stepsFirst cap q h]
    exact stepFirstStates_prefix earlier _ _
  | false =>
    rw [states_of_testsFirst cap p h, states_of_testsFirst cap q h]
    exact testFirstStates_prefix earlier _ _

theorem stopsEarlier (coarser : p.atMost q = true) : l.StopsEarlier cap p q := by
  have states := l.states_of_coarser cap coarser
  refine ⟨states, states.length_le, ?_⟩
  obtain ⟨further, hstates⟩ := states
  have last := List.getLast?_eq_getElem? (l := l.start :: l.states cap q)
  rw [List.length_cons, Nat.add_sub_cancel] at last
  rw [run_eq_getLastD, ← hstates, ← List.cons_append,
    List.getElem?_append_left (Nat.lt_succ_self _), ← last, List.getLast?_cons,
    List.getLastD_eq_getLast?]

end Loop

/-! ## The functions -/

open Logging

/-- A call of an approximating function follows a course. Either this is the same with every
tolerance, or it ends in a loop of the function that alone has the tolerance of the call, behind roots
that are exact with every tolerance. With a coarser tolerance that loop stops no later among the same
states, and what is made of the state it ends in does not depend on the tolerance. -/
theorem Builtin.coarser_stops_earlier (coarser : p.atMost q = true) (f : Builtin) (cap : Int)
    (x : Number) :
    (∀ tolerance, Follows cap (f.approximate cap x (some tolerance)) (f.course cap x tolerance)) ∧
    ((∃ c : Course Number, c.OnlyRoots ∧ ∀ tolerance, f.course cap x tolerance = c) ∨
      ∃ roots, (∀ pass ∈ roots, IsExactRoot pass) ∧
        ∃ (l : Loop) (finish : l.State → Except Fault Number), l.IsOf f ∧
          (∀ tolerance, f.course cap x tolerance =
            ⟨l.outcome cap tolerance >>= finish, roots ++ [(l, tolerance)]⟩) ∧
          l.StopsEarlier cap p q) := by
  refine ⟨fun tolerance => f.approximate_follows cap x tolerance, ?_⟩
  refine (f.course_eq_or_last cap x).imp_right ?_
  rintro ⟨roots, hroots, l, finish, own, course⟩
  exact ⟨roots, hroots, l, finish, own, course, l.stopsEarlier cap coarser⟩

/-- The arcsine near one, whose argument is folded first, with the two tolerances of the library. -/
theorem Builtin.coarser_stops_earlier_arcsine :
    (Number.real fineTolerance).atMost (.real coarseTolerance) = true ∧
    (∀ tolerance, Follows defaultCap (asin.approximate defaultCap (.real 0.9) (some tolerance))
      (asin.course defaultCap (.real 0.9) tolerance)) ∧
    ((∃ c : Course Number, c.OnlyRoots ∧
        ∀ tolerance, asin.course defaultCap (.real 0.9) tolerance = c) ∨
      ∃ roots, (∀ pass ∈ roots, IsExactRoot pass) ∧
        ∃ (l : Loop) (finish : l.State → Except Fault Number), l.IsOf asin ∧
          (∀ tolerance, asin.course defaultCap (.real 0.9) tolerance =
            ⟨l.outcome defaultCap tolerance >>= finish, roots ++ [(l, tolerance)]⟩) ∧
          l.StopsEarlier defaultCap (.real fineTolerance) (.real coarseTolerance)) :=
  have coarser : (Number.real fineTolerance).atMost (.real coarseTolerance) = true := rfl
  ⟨coarser, coarser_stops_earlier coarser asin defaultCap (.real 0.9)⟩

end Calculator
