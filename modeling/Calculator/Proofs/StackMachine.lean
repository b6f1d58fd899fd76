import Calculator.Evaluation
import Calculator.Proofs.Logging

/-!
# Evaluation by a stack machine

The nodes of a tree in postorder are a program for a machine with a stack of values: a number is
pushed, and every other node takes its operands from the stack and puts its value there. This module
shows that the evaluation of a tree, which walks along the left operands in a loop, is the run of
that machine, with the same value or the same error and the same warnings.

Between the two stands `Tree.value`, the plain recursion on both operands. The levels of nesting play
no part in it; `Tree.levels` says how many of them an evaluation needs.

Results:
1. `evalWithin_eq_value`: within its levels, evaluation is the plain recursion.
2. `run_postorderOnto`: the machine does what the recursion does.
3. `exists_failing_node`: an error is that of the first node that fails, and it has its operands.
4. `eval_eq_run`: all of this for the evaluation of a tree.
-/

namespace Calculator

open Evaluation

/-! ## Definitions -/

/-- The levels of nesting in a tree. The left operand of an operator adds none. -/
def Tree.levels : Tree → Nat
  | .number _ => 0
  | .call _ argument => argument.levels + 1
  | .pair left name right =>
      if (Operator.ofName? name).isSome then max left.levels (right.levels + 1)
      else max left.levels right.levels + 1
  | .foreign => 0

/-- How many operands a node takes. -/
def Node.operands : Node → Nat
  | .number _ => 0
  | .call _ => 1
  | .pair _ => 2
  | .foreign => 0

namespace StackMachine

/-- The error of a call that ends in a fault. A fault that says something about the arguments means
that the function does not support them. -/
def failure (name : String) (f : Fault) : EvalError :=
  if f.isNumeric then .unsupportedFunction name (some f) else .ofFault f

/-- Looks up the name, checks the number of arguments, and converts what the function gives to a
floating-point number. -/
def invoke (r : Registry) (name : String) (arguments : List Value) : Evaluation Value :=
  match r.find? name with
  | none => throw (.unsupportedFunction name none)
  | some entry =>
      if entry.arity ≠ arguments.length then throw (.unsupportedFunction name none)
      else do
        match ← ExceptT.adapt (failure name) (entry.apply arguments) with
        | none => throw (failure name .missing)
        | some number =>
            match number.toFloat with
            | .ok x => pure (some (.real x))
            | .error f => throw (failure name f)

/-- What a pair makes of its operands: an operator is applied, and a name that some registry knows
is called. -/
def combine (r : Registry) (name : String) (left right : Value) : Evaluation Value :=
  match Operator.ofName? name with
  | some op =>
      match op.apply left right with
      | .ok x => pure (some (.real x))
      | .error f => throw (.ofFault f)
  | none =>
      if (Registry.default.find? name).isSome ∨ (r.find? name).isSome then invoke r name [left, right]
      else throw (.unsupportedOperator name)

/-- One node: a number is pushed as it stands, a call takes its argument, and a pair takes first the
right and then the left operand. -/
def step (r : Registry) : List Value → Node → Evaluation (List Value)
  | stack, .number value => pure (value :: stack)
  | argument :: stack, .call name => (· :: stack) <$> invoke r name [argument]
  | right :: left :: stack, .pair name => (· :: stack) <$> combine r name left right
  | _, _ => throw .invalidNode

/-- The run over a list of nodes from a given stack. -/
def run (r : Registry) (nodes : List Node) (stack : List Value) : Evaluation (List Value) :=
  nodes.foldlM (step r) stack

end StackMachine

open StackMachine

/-- The value of a tree by plain recursion on the operands. -/
def Tree.value (r : Registry) : Tree → Evaluation Value
  | .number value => pure value
  | .call name argument => do
      let first ← argument.value r
      invoke r name [first]
  | .pair left name right => do
      let first ← left.value r
      let second ← right.value r
      combine r name first second
  | .foreign => throw .invalidNode

/-! ## Calls and operators -/

variable {r : Registry} {name : String} {inner : Tree → Evaluation Value}

theorem callFunction_eq_invoke (arguments : List Value) :
    callFunction r name arguments = invoke r name arguments := by
  unfold callFunction invoke
  cases r.find? name with
  | none => rfl
  | some entry =>
    dsimp only
    by_cases harity : entry.arity = arguments.length
    · rw [if_pos harity, if_neg (not_not_intro harity), functionValue, Logging.adapt_bind, map_bind]
      refine bind_congr fun value => ?_
      cases value with
      | none => rfl
      | some number =>
        show _ <$> ExceptT.adapt _ (liftM number.toFloat : Numeric Float) =
          match number.toFloat with
          | .ok x => pure (some (Number.real x))
          | .error f => throw (failure name f)
        cases number.toFloat <;> rfl
    · rw [if_neg harity, if_pos harity]

theorem evalPair_eq_combine (name : String) (left right : Value)
    (h : Operator.ofName? name = none) :
    (if (Registry.default.find? name).isSome || (r.find? name).isSome then
      callFunction r name [left, right] else throw (.unsupportedOperator name)) =
      combine r name left right := by
  rw [combine, h, callFunction_eq_invoke]
  simp only [Bool.or_eq_true]

theorem operate_eq_combine {op : Operator} (h : Operator.ofName? name = some op)
    (left right : Value) : operate op left right = combine r name left right := by
  rw [combine, h]
  rfl

/-! ## The walk along the spine -/

/-- Applies the links of a spine to the value of what they stand on. -/
def applyLinks (inner : Tree → Evaluation Value) (links : List (Operator × Tree)) (first : Value) :
    Evaluation Value :=
  links.foldlM (fun left link => do operate link.1 left (← inner link.2)) first

@[simp] theorem applyLinks_nil (first : Value) : applyLinks inner [] first = pure first := rfl

theorem applyLinks_cons (op : Operator) (right : Tree) (links : List (Operator × Tree))
    (first : Value) :
    applyLinks inner ((op, right) :: links) first = (do
      let second ← inner right
      operate op first second >>= applyLinks inner links) := by
  rw [applyLinks, List.foldlM_cons, bind_assoc]
  rfl

theorem evalWith_eq (r : Registry) (inner : Tree → Evaluation Value) (t : Tree) :
    evalWith r inner t =
      evalHead r inner (spine t []).1 >>= applyLinks inner (spine t []).2 := rfl

/-- What is no operator with two operands has no spine. -/
theorem evalWith_eq_evalHead {t : Tree} (h : spine t [] = (t, [])) :
    evalWith r inner t = evalHead r inner t := by
  rw [evalWith_eq, h]
  exact bind_pure _

theorem spine_pair_of_none {left right : Tree} (h : Operator.ofName? name = none)
    (links : List (Operator × Tree)) :
    spine (.pair left name right) links = (.pair left name right, links) := by
  simp only [spine, h]

theorem spine_pair_of_some {left right : Tree} {op : Operator}
    (h : Operator.ofName? name = some op) (links : List (Operator × Tree)) :
    spine (.pair left name right) links = spine left ((op, right) :: links) := by
  simp only [spine, h]

/-- The links that a spine is walked in front of are applied behind its value. -/
theorem walk_spine (t : Tree) (links : List (Operator × Tree)) :
    evalHead r inner (spine t links).1 >>= applyLinks inner (spine t links).2 =
      evalWith r inner t >>= applyLinks inner links := by
  induction t generalizing links with
  | number | call | foreign =>
    rw [evalWith_eq_evalHead rfl]
    rfl
  | pair left name right ihl _ =>
    cases h : Operator.ofName? name with
    | none => rw [evalWith_eq_evalHead (spine_pair_of_none h []), spine_pair_of_none h]
    | some op =>
      -- the operator of this pair is the first link behind its left operand on both sides
      rw [evalWith_eq, spine_pair_of_some h, spine_pair_of_some h, ihl, ihl, bind_assoc]
      refine bind_congr fun first => ?_
      simp only [applyLinks_cons, bind_assoc, applyLinks_nil, pure_bind]

/-- The walk along a spine is recursion on both operands of an operator. -/
theorem evalWith_pair {left right : Tree} {op : Operator} (h : Operator.ofName? name = some op) :
    evalWith r inner (.pair left name right) = (do
      let first ← evalWith r inner left
      let second ← inner right
      combine r name first second) := by
  rw [evalWith_eq, spine_pair_of_some h, walk_spine]
  refine bind_congr fun first => ?_
  rw [applyLinks_cons]
  refine bind_congr fun second => ?_
  rw [operate_eq_combine h]
  exact bind_pure _

/-! ## Evaluation is plain recursion -/

/-- Within its levels, a tree is evaluated by plain recursion. Only the left operand of an operator
is evaluated on the same level as its tree. -/
theorem evalWithin_eq_value (t : Tree) {depth : Nat} (shallow : t.levels ≤ depth) :
    evalWithin r depth t = t.value r := by
  induction t generalizing depth with
  | number value =>
    cases depth <;> exact evalWith_eq_evalHead rfl
  | foreign =>
    cases depth <;> exact evalWith_eq_evalHead rfl
  | call name argument ih =>
    cases depth with
    | zero => cases shallow
    | succ depth =>
      rw [evalWithin, evalWith_eq_evalHead rfl, evalHead, ih (Nat.le_of_succ_le_succ shallow)]
      exact bind_congr fun first => callFunction_eq_invoke [first]
  | pair left name right ihl ihr =>
    cases hop : Operator.ofName? name with
    | some op =>
      -- the left operand is on the spine and costs no level
      have few : left.levels ≤ depth ∧ right.levels + 1 ≤ depth := by
        simpa [Tree.levels, hop, Nat.max_le] using shallow
      cases depth with
      | zero => cases few.2
      | succ depth =>
        have hleft : evalWith r (evalWithin r depth) left = left.value r :=
          show evalWithin r (depth + 1) left = _ from ihl few.1
        have hright := ihr (Nat.le_of_succ_le_succ few.2)
        rw [evalWithin, evalWith_pair hop, hleft, hright, Tree.value]
    | none =>
      have few : max left.levels right.levels + 1 ≤ depth := by
        simpa [Tree.levels, hop] using shallow
      cases depth with
      | zero => cases few
      | succ depth =>
        have hleft : evalWithin r depth left = left.value r := ihl (by omega)
        have hright : evalWithin r depth right = right.value r := ihr (by omega)
        rw [evalWithin, evalWith_eq_evalHead (spine_pair_of_none hop []), evalHead, hleft, hright,
          Tree.value]
        refine bind_congr fun first => bind_congr fun second => ?_
        exact evalPair_eq_combine name first second hop

/-! ## The machine does what the recursion does -/

theorem step_foreign (stack : List Value) : step r stack .foreign = throw .invalidNode := by
  rcases stack with _ | ⟨_, _ | _⟩ <;> rfl

theorem run_cons (node : Node) (nodes : List Node) (stack : List Value) :
    run r (node :: nodes) stack = step r stack node >>= run r nodes := List.foldlM_cons ..

/-- The nodes of a tree push its value. What was on the stack stays below it. -/
theorem run_postorderOnto (t : Tree) (rest : List Node) (stack : List Value) :
    run r (t.postorderOnto rest) stack =
      t.value r >>= fun value => run r rest (value :: stack) := by
  induction t generalizing rest stack with
  | number value => rw [Tree.postorderOnto, run_cons, Tree.value, step, pure_bind, pure_bind]
  | foreign =>
    rw [Tree.postorderOnto, run_cons, step_foreign]
    rfl
  | call name argument ih =>
    rw [Tree.postorderOnto, ih, Tree.value, bind_assoc]
    refine bind_congr fun first => ?_
    rw [run_cons, step, bind_map_left]
  | pair left name right ihl ihr =>
    rw [Tree.postorderOnto, ihl, Tree.value, bind_assoc]
    refine bind_congr fun first => ?_
    rw [ihr, bind_assoc]
    refine bind_congr fun second => ?_
    rw [run_cons, step, bind_map_left]

theorem run_postorder (t : Tree) (stack : List Value) :
    run r t.postorder stack = (· :: stack) <$> t.value r := by
  rw [Tree.postorder, run_postorderOnto, map_eq_pure_bind]
  rfl

/-! ## The node that fails -/

theorem run_append (nodes nodes' : List Node) (stack : List Value) :
    run r (nodes ++ nodes') stack = run r nodes stack >>= run r nodes' := List.foldlM_append

theorem postorderOnto_eq (t : Tree) (rest : List Node) :
    t.postorderOnto rest = t.postorder ++ rest := by
  unfold Tree.postorder
  induction t generalizing rest with
  | number | foreign => rfl
  | call name argument ih =>
    rw [Tree.postorderOnto, Tree.postorderOnto, ih, ih [_], List.append_assoc]
    rfl
  | pair left name right ihl ihr =>
    rw [Tree.postorderOnto, Tree.postorderOnto, ihl, ihr, ihl (right.postorderOnto _), ihr [_]]
    simp only [List.append_assoc, List.singleton_append]

theorem postorder_call (name : String) (argument : Tree) :
    (Tree.call name argument).postorder = argument.postorder ++ [.call name] :=
  postorderOnto_eq argument _

theorem postorder_pair (left : Tree) (name : String) (right : Tree) :
    (Tree.pair left name right).postorder = left.postorder ++ (right.postorder ++ [.pair name]) := by
  rw [← postorderOnto_eq, ← postorderOnto_eq]
  rfl

/-- The run over the nodes before `node` leaves a stack on which `node` finds its operands and ends
with the error. -/
def FailsAt (r : Registry) (stack : List Value) (log : List Warning) (before : List Node)
    (node : Node) (e : EvalError) (log' : List Warning) : Prop :=
  ∃ stack' log₁, (run r before stack).outcome log = (.ok stack', log₁) ∧
    node.operands ≤ stack'.length ∧ (step r stack' node).outcome log₁ = (.error e, log')

theorem outcome_run_postorder {t : Tree} {log log' : List Warning} {value : Value}
    (h : (t.value r).outcome log = (.ok value, log')) (stack : List Value) :
    (run r t.postorder stack).outcome log = (.ok (value :: stack), log') := by
  rw [run_postorder]
  exact Logging.outcome_map_of_ok h

/-- A node that fails behind other nodes. -/
theorem FailsAt.behind {stack stack' : List Value} {log log₁ log' : List Warning}
    {nodes before : List Node} {node : Node} {e : EvalError}
    (hnodes : (run r nodes stack).outcome log = (.ok stack', log₁))
    (h : FailsAt r stack' log₁ before node e log') :
    FailsAt r stack log (nodes ++ before) node e log' := by
  obtain ⟨stack'', log₂, hrun, enough, hstep⟩ := h
  refine ⟨stack'', log₂, ?_, enough, hstep⟩
  rw [run_append, Logging.outcome_bind_of_ok hnodes, hrun]

/-- An error is that of the first node that fails, and it is not for want of operands. The operands
of a node are evaluated before anything is asked of the node itself. -/
theorem exists_failing_node (t : Tree) (stack : List Value) {log log' : List Warning}
    {e : EvalError} (h : (t.value r).outcome log = (.error e, log')) :
    ∃ before node behind, t.postorder = before ++ node :: behind ∧
      FailsAt r stack log before node e log' := by
  induction t generalizing stack log with
  | number value => cases h
  | foreign =>
    cases h
    refine ⟨[], .foreign, [], rfl, stack, log', rfl, Nat.zero_le _, ?_⟩
    rw [step_foreign]
    rfl
  | call name argument ih =>
    rcases Logging.outcome_bind_eq_error h with hfirst | ⟨first, log₁, hfirst, hcall⟩
    · obtain ⟨before, node, behind, hsplit, fails⟩ := ih stack hfirst
      refine ⟨before, node, behind ++ [.call name], ?_, fails⟩
      rw [postorder_call, hsplit, List.append_assoc, List.cons_append]
    · refine ⟨argument.postorder, .call name, [], postorder_call name argument, ?_⟩
      refine ⟨first :: stack, log₁, outcome_run_postorder hfirst stack, ?_, ?_⟩
      · exact Nat.succ_le_succ (Nat.zero_le _)
      · exact Logging.outcome_map_of_error hcall
  | pair left name right ihl ihr =>
    rcases Logging.outcome_bind_eq_error h with hfirst | ⟨first, log₁, hfirst, h⟩
    · obtain ⟨before, node, behind, hsplit, fails⟩ := ihl stack hfirst
      refine ⟨before, node, behind ++ (right.postorder ++ [.pair name]), ?_, fails⟩
      rw [postorder_pair, hsplit, List.append_assoc, List.cons_append]
    have hleft := outcome_run_postorder hfirst stack
    rcases Logging.outcome_bind_eq_error h with hsecond | ⟨second, log₂, hsecond, hpair⟩
    · obtain ⟨before, node, behind, hsplit, fails⟩ := ihr (first :: stack) hsecond
      refine ⟨left.postorder ++ before, node, behind ++ [.pair name], ?_, fails.behind hleft⟩
      rw [postorder_pair, hsplit]
      simp only [List.append_assoc, List.cons_append]
    · refine ⟨left.postorder ++ right.postorder, .pair name, [], ?_, ?_⟩
      · rw [postorder_pair, List.append_assoc]
      · have both := outcome_run_postorder hsecond (first :: stack)
        refine ⟨second :: first :: stack, log₂, ?_, ?_, Logging.outcome_map_of_error hpair⟩
        · rw [run_append, Logging.outcome_bind_of_ok hleft, both]
        · exact Nat.succ_le_succ (Nat.succ_le_succ (Nat.zero_le _))

/-- The evaluation of a tree is the run of the stack machine over its nodes in postorder: the same
value, or the same error, and the same warnings. The walk along the left operands is recursion on
both operands, and an error is that of the first node that fails. -/
theorem eval_eq_run (r : Registry) (t : Tree) (shallow : t.levels ≤ depthLimit) :
    run r t.postorder [] = (fun value => [value]) <$> t.eval r ∧
    t.eval r = t.value r ∧
    ∀ log e log', (t.eval r).outcome log = (.error e, log') →
      ∃ before node behind, t.postorder = before ++ node :: behind ∧
        FailsAt r [] log before node e log' := by
  have plain : t.eval r = t.value r := evalWithin_eq_value t shallow
  refine ⟨?_, plain, ?_⟩
  · rw [plain]
    exact run_postorder t []
  · intro log e log' h
    rw [plain] at h
    exact exists_failing_node t [] h

/-- A sum of a call of an unknown function and of no number: the call comes first. -/
theorem eval_eq_run_unknown_function :
    (Tree.pair (.call "f" (.number none)) "+" .foreign).levels ≤ depthLimit ∧
      run [] [.number none, .call "f", .foreign, .pair "+"] [] =
        (fun value => [value]) <$> (Tree.pair (.call "f" (.number none)) "+" .foreign).eval [] ∧
      ((Tree.pair (.call "f" (.number none)) "+" .foreign).eval []).outcome [] =
        (.error (.unsupportedFunction "f" none), []) := by
  have shallow : (Tree.pair (.call "f" (.number none)) "+" .foreign).levels ≤ depthLimit := by
    decide
  have h := eval_eq_run [] _ shallow
  refine ⟨shallow, h.1, ?_⟩
  rw [h.2.1]
  rfl

end Calculator
