import Calculator.Proofs.StackMachine

/-!
# What an evaluation looks up

The evaluation of a tree asks the registry for the names of its calls and of those pairs that no operator
denotes, and for no other name. So two registries which agree on these names give the same value or the
same error and the same warnings, however deep the tree is nested and wherever it fails. An operator is
never looked up, and a name that is not found fails without regard to the rest of the registry.

Results:
1. `evalWith_of_agree`, `evalWithin_of_agree`: one level of a tree, and all of them.
2. `eval_sees_only_lookups`: registries that agree, entries under operators, names that are missing.
-/

namespace Calculator

open Evaluation StackMachine

/-! ## Definitions -/

/-- The name for which a node asks the registry. -/
def Node.lookup? : Node → Option String
  | .call name => some name
  | .pair name => if (Operator.ofName? name).isSome then none else some name
  | .number _ => none
  | .foreign => none

/-- The names for which the evaluation of a tree asks the registry. -/
def Tree.lookups (t : Tree) : List String := t.postorder.filterMap Node.lookup?

/-- The registries have the same entry under each of the names, or both have none. -/
def Agree (r r' : Registry) (names : List String) : Prop :=
  ∀ name ∈ names, r.find? name = r'.find? name

/-- The error of a pair that no operator denotes and whose name is missing: a name that every expression
can call is a function, and any other is taken for an operator. -/
def missingPair (name : String) : EvalError :=
  if (Registry.default.find? name).isSome then .unsupportedFunction name none
  else .unsupportedOperator name

/-! ## Names of a tree -/

variable {r r' : Registry} {name : String} {inner inner' : Tree → Evaluation Value}

@[simp] theorem lookups_call (name : String) (argument : Tree) :
    (Tree.call name argument).lookups = argument.lookups ++ [name] := by
  unfold Tree.lookups
  rw [postorder_call, List.filterMap_append]
  rfl

@[simp] theorem lookups_pair (left : Tree) (name : String) (right : Tree) :
    (Tree.pair left name right).lookups =
      left.lookups ++ (right.lookups ++ (Node.pair name).lookup?.toList) := by
  unfold Tree.lookups
  rw [postorder_pair, List.filterMap_append, List.filterMap_append]
  cases h : (Node.pair name).lookup? <;> simp [h]

theorem lookup?_pair_of_none (h : Operator.ofName? name = none) :
    (Node.pair name).lookup? = some name := by
  rw [Node.lookup?, h]
  rfl

theorem lookup?_pair_of_some {op : Operator} (h : Operator.ofName? name = some op) :
    (Node.pair name).lookup? = none := by
  rw [Node.lookup?, h]
  rfl

/-- Only a call looks up an operator. -/
theorem eq_call_of_lookup? {node : Node} {op : Operator} (hop : Operator.ofName? name = some op)
    (h : node.lookup? = some name) : node = .call name := by
  cases node with
  | number | foreign => cases h
  | call other =>
    cases h
    rfl
  | pair other =>
    cases hother : Operator.ofName? other with
    | some op' =>
      rw [lookup?_pair_of_some hother] at h
      cases h
    | none =>
      rw [lookup?_pair_of_none hother] at h
      cases h
      cases hop.symm.trans hother

theorem Agree.mono {names names' : List String} (h : Agree r r' names) (subset : names' ⊆ names) :
    Agree r r' names' := fun name hname => h name (subset hname)

/-! ## Calls -/

/-- A call asks for its name only. -/
theorem callFunction_of_agree (h : r.find? name = r'.find? name) (arguments : List Value) :
    callFunction r name arguments = callFunction r' name arguments := by
  unfold callFunction
  rw [h]

theorem callFunction_of_missing (h : r.find? name = none) (arguments : List Value) :
    callFunction r name arguments = throw (.unsupportedFunction name none) := by
  unfold callFunction
  rw [h]

/-! ## Trees -/

/-- What stands at the left end of a spine looks up its own name only. -/
theorem evalHead_pair_of_agree {left right : Tree} (h : r.find? name = r'.find? name)
    (hleft : inner left = inner' left) (hright : inner right = inner' right) :
    evalHead r inner (.pair left name right) = evalHead r' inner' (.pair left name right) := by
  simp only [evalHead, hleft, hright, h, callFunction_of_agree h]

/-- An operator asks for nothing: if its operands are evaluated alike, so is it. -/
theorem evalWith_pair_of_operands {left right : Tree} {op : Operator}
    (hop : Operator.ofName? name = some op) (hleft : evalWith r inner left = evalWith r' inner' left)
    (hright : inner right = inner' right) :
    evalWith r inner (.pair left name right) = evalWith r' inner' (.pair left name right) := by
  rw [evalWith_pair hop, evalWith_pair hop, hleft, hright]
  refine bind_congr fun first => bind_congr fun second => ?_
  rw [← operate_eq_combine hop, ← operate_eq_combine hop]

/-- One level of a tree, if the operands on the next level are evaluated alike. The induction is along
the spine, whose left operands are on the same level. -/
theorem evalWith_of_agree {t : Tree} (agree : Agree r r' t.lookups)
    (deeper : ∀ t, Agree r r' t.lookups → inner t = inner' t) :
    evalWith r inner t = evalWith r' inner' t := by
  induction t with
  | number | foreign =>
    rw [evalWith_eq_evalHead rfl, evalWith_eq_evalHead rfl]
    rfl
  | call name argument =>
    rw [lookups_call] at agree
    have hname : r.find? name = r'.find? name := agree name (by simp)
    have hargument : inner argument = inner' argument := deeper argument (agree.mono (by simp))
    rw [evalWith_eq_evalHead rfl, evalWith_eq_evalHead rfl, evalHead, evalHead, hargument]
    simp only [callFunction_of_agree hname]
  | pair left name right ihl _ =>
    rw [lookups_pair] at agree
    have hleft : Agree r r' left.lookups := agree.mono (by simp)
    have hright : inner right = inner' right := deeper right (agree.mono (by simp))
    cases hop : Operator.ofName? name with
    | some op => exact evalWith_pair_of_operands hop (ihl hleft) hright
    | none =>
      have hname : r.find? name = r'.find? name :=
        agree name (by simp [lookup?_pair_of_none hop])
      rw [evalWith_eq_evalHead (spine_pair_of_none hop []),
        evalWith_eq_evalHead (spine_pair_of_none hop [])]
      exact evalHead_pair_of_agree hname (deeper left hleft) hright

/-- All levels of a tree, however many of them are evaluated. -/
theorem evalWithin_of_agree (depth : Nat) {t : Tree} (agree : Agree r r' t.lookups) :
    evalWithin r depth t = evalWithin r' depth t := by
  induction depth generalizing t with
  | zero => exact evalWith_of_agree agree fun _ _ => rfl
  | succ depth ih => exact evalWith_of_agree agree fun t ht => ih ht

/-! ## Entries that are never found, and names that are missing -/

theorem find?_cons_of_ne {other : String} (h : other ≠ name) (entry : Entry) :
    Registry.find? ((name, entry) :: r) other = r.find? other := by
  unfold Registry.find?
  rw [List.lookup_cons, beq_false_of_ne h]

/-- A pair whose name is missing evaluates its operands and fails. -/
theorem evalHead_pair_of_missing {left right : Tree} (h : r.find? name = none) :
    evalHead r inner (.pair left name right) = (do
      let _ ← inner left
      let _ ← inner right
      throw (missingPair name)) := by
  rw [evalHead]
  refine bind_congr fun first => bind_congr fun second => ?_
  rw [h, Option.isSome_none, Bool.or_false, missingPair]
  cases (Registry.default.find? name).isSome with
  | true => exact callFunction_of_missing h _
  | false => rfl

/-- The operands of a tree are evaluated with one level less. -/
theorem eval_eq_evalWith (r : Registry) (t : Tree) :
    t.eval r = evalWith r (evalWithin r (depthLimit - 1)) t := by
  have split : depthLimit = (depthLimit - 1) + 1 := rfl
  rw [Tree.eval, split, evalWithin, ← split]

/-- The evaluation of a tree sees the entries that it looks up and no others: two registries that agree on
them give the same value or the same error, and the same warnings. An operator with two operands sees no
entry at all, and an entry under its name is seen by calls of it with one argument only. A name that is
missing fails the same way in every registry, behind its operands. -/
theorem eval_sees_only_lookups (r : Registry) :
    (∀ (r' : Registry) (t : Tree), (∀ name ∈ t.lookups, r.find? name = r'.find? name) →
      t.eval r = t.eval r') ∧
    (∀ (name : String) (op : Operator), Operator.ofName? name = some op →
      (∀ (r' : Registry) (depth : Nat) (left right : Tree),
        evalWithin r (depth + 1) left = evalWithin r' (depth + 1) left →
        evalWithin r depth right = evalWithin r' depth right →
          evalWithin r (depth + 1) (.pair left name right) =
            evalWithin r' (depth + 1) (.pair left name right)) ∧
      ∀ (entry : Entry) (t : Tree), .call name ∉ t.postorder →
        t.eval ((name, entry) :: r) = t.eval r) ∧
    ∀ name : String, r.find? name = none →
      (∀ argument : Tree, (Tree.call name argument).eval r = (do
        let _ ← evalWithin r (depthLimit - 1) argument
        throw (.unsupportedFunction name none))) ∧
      (Operator.ofName? name = none → ∀ left right : Tree, (Tree.pair left name right).eval r = (do
        let _ ← evalWithin r (depthLimit - 1) left
        let _ ← evalWithin r (depthLimit - 1) right
        throw (missingPair name))) := by
  have agree (r' : Registry) (t : Tree) (h : Agree r r' t.lookups) : t.eval r = t.eval r' :=
    evalWithin_of_agree depthLimit h
  refine ⟨agree, fun name op hop => ⟨fun r' depth left right hleft hright => ?_,
    fun entry t uncalled => ?_⟩, fun name missing => ⟨fun argument => ?_, fun hop left right => ?_⟩⟩
  · exact evalWith_pair_of_operands hop hleft hright
  · refine (agree _ t fun other hother => (find?_cons_of_ne ?_ entry).symm).symm
    rintro rfl
    obtain ⟨node, hnode, hlookup⟩ := List.mem_filterMap.mp hother
    rw [eq_call_of_lookup? hop hlookup] at hnode
    exact uncalled hnode
  · rw [eval_eq_evalWith, evalWith_eq_evalHead rfl, evalHead]
    exact bind_congr fun first => callFunction_of_missing missing [first]
  · rw [eval_eq_evalWith, evalWith_eq_evalHead (spine_pair_of_none hop [])]
    exact evalHead_pair_of_missing missing

/-- The sine of no number and a sum with it, in the registry of all functions and in one with the sine
alone; an entry under the sum; and a power where there is none. -/
theorem eval_sees_only_lookups_sine :
    (∀ name ∈ (Tree.pair (.call "sin" (.number none)) "+" .foreign).lookups,
      Registry.find? [Registry.builtin .sin 1] name = Registry.default.find? name) ∧
    (Tree.pair (.call "sin" (.number none)) "+" .foreign).eval [Registry.builtin .sin 1] =
      (Tree.pair (.call "sin" (.number none)) "+" .foreign).eval .default ∧
    evalWithin [Registry.builtin .sin 1] 1 (.pair (.number none) "+" (.number none)) =
      evalWithin [] 1 (.pair (.number none) "+" (.number none)) ∧
    (Node.call "+" ∉ (Tree.pair (.call "sin" (.number none)) "+" .foreign).postorder ∧
    (Tree.pair (.call "sin" (.number none)) "+" .foreign).eval
        [("+", (Registry.builtin .abs 2).2), Registry.builtin .sin 1] =
      (Tree.pair (.call "sin" (.number none)) "+" .foreign).eval [Registry.builtin .sin 1]) ∧
    Registry.find? [Registry.builtin .sin 1] "pow" = none ∧
    ((Tree.call "pow" (.number none)).eval [Registry.builtin .sin 1]).outcome [] =
      (.error (.unsupportedFunction "pow" none), []) ∧
    ((Tree.pair (.number none) "pow" (.number none)).eval [Registry.builtin .sin 1]).outcome [] =
      (.error (.unsupportedFunction "pow" none), []) := by
  obtain ⟨agreeing, operators, missing⟩ := eval_sees_only_lookups [Registry.builtin .sin 1]
  have sine : ∀ name ∈ (Tree.pair (.call "sin" (.number none)) "+" .foreign).lookups,
      Registry.find? [Registry.builtin .sin 1] name = Registry.default.find? name := by
    intro name hname
    obtain rfl : name = "sin" := List.mem_singleton.mp hname
    rfl
  obtain ⟨nodes, entries⟩ := operators "+" .plus rfl
  have uncalled : Node.call "+" ∉ (Tree.pair (.call "sin" (.number none)) "+" .foreign).postorder := by
    decide
  obtain ⟨calls, pairs⟩ := missing "pow" rfl
  refine ⟨sine, agreeing _ _ sine, nodes [] 0 _ _ rfl rfl, ⟨uncalled, entries _ _ uncalled⟩, rfl, ?_, ?_⟩
  · rw [calls]
    rfl
  · rw [pairs rfl]
    rfl

end Calculator
