import Calculator.Proofs.Computations
import Calculator.Proofs.StackMachine

/-!
# Earlier warnings have no influence

A computation leaves warnings behind those that were recorded before, and never asks for them. So it
has a result of its own, whatever was recorded, and the result of a sequence of computations is that
of the results one after the other. A computation that is sequenced from others appends if they do.

Results:
1. `Logging.Appends.result_bind`: the result of one computation behind another.
2. `Builtin.apply_appends`: the functions of the library append.
3. `Tree.result_call`, `Tree.result_pair`: the result of a node comes from those of its operands.
-/

namespace Calculator

namespace Logging

variable {ε ε' α β : Type}

/-! ## Definitions -/

/-- What was recorded before has no influence on the result, and stays in front of what is recorded. -/
def Appends (m : Logging ε α) : Prop :=
  ∀ log, m.outcome log = ((m.outcome []).1, log ++ (m.outcome []).2)

/-- The result of a computation by itself. -/
def result (m : Logging ε α) : Except ε α := (m.outcome []).1

/-! ## Composition -/

theorem appends_pure (a : α) : (pure a : Logging ε α).Appends := by
  intro log
  rw [outcome_pure, outcome_pure, List.append_nil]

theorem appends_throw (e : ε) : (throw e : Logging ε α).Appends := by
  intro log
  rw [outcome_throw, outcome_throw, List.append_nil]

theorem appends_lift (m : Except ε α) : (liftM m : Logging ε α).Appends := by
  cases m with
  | ok a => exact appends_pure a
  | error e => exact appends_throw e

theorem appends_warn (w : Warning) : (warn w).Appends := fun _ => rfl

theorem Appends.bind {m : Logging ε α} {f : α → Logging ε β} (h : m.Appends)
    (hf : ∀ a, (f a).Appends) : (m >>= f).Appends := by
  intro log
  rw [outcome_bind, outcome_bind, h log]
  rcases m.outcome [] with ⟨e | a, log'⟩
  · rfl
  · dsimp only
    rw [hf a (log ++ log'), hf a log', List.append_assoc]

theorem Appends.map {m : Logging ε α} (h : m.Appends) (f : α → β) : (f <$> m).Appends := by
  rw [map_eq_pure_bind]
  exact h.bind fun a => appends_pure (f a)

theorem Appends.adapt {m : Logging ε α} (h : m.Appends) (f : ε → ε') :
    Appends (ExceptT.adapt f m : Logging ε' α) := by
  intro log
  rw [outcome_adapt, outcome_adapt, h log]

theorem appends_ite {c : Prop} [Decidable c] {m m' : Logging ε α} (h : m.Appends)
    (h' : m'.Appends) : Appends (if c then m else m') := by
  by_cases hc : c
  · rw [if_pos hc]
    exact h
  · rw [if_neg hc]
    exact h'

/-! ## Results -/

theorem result_map (f : α → β) (m : Logging ε α) : (f <$> m).result = f <$> m.result := by
  unfold result
  rw [map_eq_pure_bind, outcome_bind]
  rcases m.outcome [] with ⟨e | a, log⟩ <;> rfl

theorem result_adapt (f : ε → ε') (m : Logging ε α) :
    result (ExceptT.adapt f m : Logging ε' α) = m.result.mapError f := rfl

/-- What comes behind a computation has the result that it has by itself. -/
theorem result_bind {m : Logging ε α} {f : α → Logging ε β} (hf : ∀ a, (f a).Appends) :
    (m >>= f).result = m.result >>= fun a => (f a).result := by
  unfold result
  rw [outcome_bind]
  rcases m.outcome [] with ⟨e | a, log⟩
  · rfl
  · show ((f a).outcome log).1 = ((f a).outcome []).1
    rw [hf a log]

end Logging

open Logging

/-! ## The functions of the library -/

theorem appends_closed : Closed Appends := ⟨appends_pure, fun f _ => appends_throw f, appends_warn, Appends.bind⟩

theorem Builtin.apply_appends (f : Builtin) (cap : Int) (arguments : List Value)
    (apart : Option Value) : (f.apply cap arguments apart).Appends :=
  appends_closed.apply
    (fun x tolerance => appends_closed.foldedArcsine (appends_throw _) cap tolerance _ x)
    f arguments apart

/-! ## Trees -/

/-- The functions of the registry append. -/
def Registry.Appends (r : Registry) : Prop :=
  ∀ name entry, r.find? name = some entry → ∀ arguments, (entry.apply arguments).Appends

theorem Registry.default_appends : Registry.default.Appends := by
  intro name entry h arguments
  rcases default_cases h with ⟨f, -, rfl⟩ | rfl
  · exact (f.apply_appends defaultCap arguments none).map _
  · exact (Builtin.pow.apply_appends defaultCap arguments none).map _

open Evaluation StackMachine

variable {r : Registry}

theorem functionValue_appends {name : String} {entry : Entry} (hr : r.Appends)
    (h : r.find? name = some entry) (arguments : List Value) :
    (functionValue entry arguments).Appends := by
  unfold functionValue
  refine (hr name entry h arguments).bind fun value => (appends_lift _).bind fun number => ?_
  exact appends_lift _

theorem invoke_appends (hr : r.Appends) (name : String) (arguments : List Value) :
    (invoke r name arguments).Appends := by
  rw [← callFunction_eq_invoke]
  unfold callFunction
  cases h : r.find? name with
  | none => exact appends_throw _
  | some entry =>
    refine appends_ite ?_ (appends_throw _)
    exact ((functionValue_appends hr h arguments).adapt _).map _

theorem combine_appends (hr : r.Appends) (name : String) (left right : Value) :
    (combine r name left right).Appends := by
  unfold combine
  cases Operator.ofName? name with
  | some op =>
    dsimp only
    cases op.apply left right with
    | ok x => exact appends_pure _
    | error f => exact appends_throw _
  | none => exact appends_ite (invoke_appends hr name _) (appends_throw _)

/-- The induction is on the tree, whose operands are evaluated before its node. -/
theorem Tree.value_appends (hr : r.Appends) (t : Tree) : (t.value r).Appends := by
  induction t with
  | number value => exact appends_pure value
  | call name argument ih => exact ih.bind fun first => invoke_appends hr name _
  | pair left name right ihl ihr =>
    exact ihl.bind fun first => ihr.bind fun second => combine_appends hr name first second
  | foreign => exact appends_throw _

/-- The result of a call is that of the function at the result of the argument. -/
theorem Tree.result_call (hr : r.Appends) (name : String) (argument : Tree) :
    ((Tree.call name argument).value r).result = (do
      let first ← (argument.value r).result
      (invoke r name [first]).result) :=
  result_bind fun first => invoke_appends hr name [first]

/-- The result of a pair comes from the results of its operands, the left one first. -/
theorem Tree.result_pair (hr : r.Appends) (left : Tree) (name : String) (right : Tree) :
    ((Tree.pair left name right).value r).result = (do
      let first ← (left.value r).result
      let second ← (right.value r).result
      (combine r name first second).result) := by
  rw [Tree.value, result_bind fun first => (right.value_appends hr).bind fun second =>
    combine_appends hr name first second]
  refine bind_congr fun first => ?_
  exact result_bind fun second => combine_appends hr name first second

end Calculator
