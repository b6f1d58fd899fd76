import Calculator.Proofs.Composition

/-!
# Calls with the wrong number of arguments

A text that is not nested too deeply has an unsupported function for one reason only: its tree
contains a call with another number of arguments than the function takes. The functions have a value
at all floating-point numbers, so none of them is the cause, and the operands of a node are evaluated
before it, so the call that is reported is the first one in postorder.

Results:
1. `Tree.answers`: what the tree of a text comes to.
2. `unsupported_iff_miscalled`: when a text has an unsupported function, and which.
-/

namespace Calculator

open Evaluation Logging StackMachine

/-! ## Definitions -/

/-- The name that a node calls or applies. -/
def Node.name? : Node → Option String
  | .call name => some name
  | .pair name => some name
  | .number _ => none
  | .foreign => none

/-- The name of a function that is called with another number of arguments than it takes. -/
def Node.miscalled? (node : Node) : Option String :=
  match node.name? with
  | none => none
  | some name =>
      match Registry.default.find? name with
      | none => none
      | some entry => if entry.arity = node.operands then none else some name

/-- The first such function in postorder. -/
def Tree.miscalled? (t : Tree) : Option String := t.postorder.findSome? Node.miscalled?

/-- A floating-point number, or the error of a call with the wrong number of arguments. -/
def Answers : Option String → Except EvalError Value → Prop
  | none, r => ∃ x, r = .ok (Value.ofFloat x)
  | some name, r => r = .error (.unsupportedFunction name none)

/-! ## Nodes -/

/-- What comes first answers first. -/
theorem Answers.bind {first second : Option String} {r : Except EvalError Value}
    {k : Value → Except EvalError Value} (h : Answers first r)
    (hk : ∀ x, Answers second (k (Value.ofFloat x))) : Answers (first.or second) (r >>= k) := by
  cases first with
  | none =>
    obtain ⟨x, rfl⟩ := h
    exact hk x
  | some name =>
    cases h
    rfl

/-- A function has a value at as many floating-point numbers as it takes. -/
theorem functionValue_reals {name : String} {entry : Entry}
    (h : Registry.default.find? name = some entry) {arguments : List Float}
    (arity : entry.arity = arguments.length) (log : List Warning) :
    ∃ x, ((functionValue entry (arguments.map Value.ofFloat)).outcome log).1 = .ok x := by
  have count : entry.arity = (arguments.map Value.ofFloat).length := by
    rw [List.length_map, arity]
  have reals : ∀ a ∈ arguments.map Value.ofFloat, ∃ x, a = some (.real x) := by
    intro a ha
    obtain ⟨x, -, rfl⟩ := List.mem_map.mp ha
    exact ⟨x, rfl⟩
  obtain ⟨x, hx, -⟩ := (Registry.functionValue_total h count reals).exists_value log
  exact ⟨x, hx⟩

/-- A function that is known answers if it is called with as many numbers as it takes. -/
theorem invoke_answers {node : Node} {name : String} (hname : node.name? = some name)
    (known : Registry.knows name) {arguments : List Float} (count : arguments.length = node.operands) :
    Answers node.miscalled? (invoke .default name (arguments.map Value.ofFloat)).result := by
  obtain ⟨entry, hentry⟩ := Option.isSome_iff_exists.mp known
  unfold Node.miscalled?
  rw [hname]
  dsimp only
  rw [hentry]
  dsimp only
  by_cases arity : entry.arity = node.operands
  · rw [← count] at arity ⊢
    rw [if_pos arity]
    obtain ⟨x, hx⟩ := functionValue_reals hentry arity []
    refine ⟨x, ?_⟩
    rw [result_invoke hentry arity, result, hx]
    rfl
  · rw [if_neg arity]
    have hcount : entry.arity ≠ (arguments.map Value.ofFloat).length := by
      rwa [List.length_map, count]
    unfold invoke
    rw [hentry]
    dsimp only
    rw [if_pos hcount]
    rfl

theorem find?_eq_none_of_operator {name : String} {op : Operator}
    (h : Operator.ofName? name = some op) : Registry.default.find? name = none := by
  cases hfind : Registry.default.find? name with
  | none => rfl
  | some entry =>
    rw [Operator.ofName?_of_isFunctionName (isFunctionName_of_find? hfind)] at h
    cases h

/-- No operator fails on floating-point numbers, so a pair answers as a call does. -/
theorem combine_answers {name : String}
    (hname : (Operator.ofName? name).isSome = true ∨ Registry.knows name) (x y : Float) :
    Answers (Node.pair name).miscalled?
      (combine .default name (Value.ofFloat x) (Value.ofFloat y)).result := by
  cases hop : Operator.ofName? name with
  | some op =>
    have none : (Node.pair name).miscalled? = none := by
      unfold Node.miscalled? Node.name?
      dsimp only
      rw [find?_eq_none_of_operator hop]
    obtain ⟨z, hz⟩ := op.apply_total x y
    rw [none, combine, hop]
    dsimp only
    rw [Value.ofFloat, Value.ofFloat, hz]
    exact ⟨z, rfl⟩
  | none =>
    have known : Registry.knows name := hname.resolve_left (by rw [hop]; decide)
    rw [combine, hop]
    dsimp only
    rw [if_pos (.inl known)]
    exact @invoke_answers (.pair name) name rfl known [x, y] rfl

/-! ## Trees -/

theorem miscalled?_call (name : String) (argument : Tree) :
    (Tree.call name argument).miscalled? =
      argument.miscalled?.or (Node.call name).miscalled? := by
  unfold Tree.miscalled?
  rw [postorder_call, List.findSome?_append, List.findSome?_singleton]

theorem miscalled?_pair (left : Tree) (name : String) (right : Tree) :
    (Tree.pair left name right).miscalled? =
      left.miscalled?.or (right.miscalled?.or (Node.pair name).miscalled?) := by
  unfold Tree.miscalled?
  rw [postorder_pair, List.findSome?_append, List.findSome?_append, List.findSome?_singleton]

/-- The tree of a text comes to a floating-point number, unless it calls a function with the wrong
number of arguments: then the first such call in postorder is its error. The induction is on the
tree, whose operands are evaluated before its node. -/
theorem Tree.answers (t : Tree) (h : t.IsFromText) :
    Answers t.miscalled? (t.value .default).result := by
  induction t with
  | number value =>
    obtain ⟨x, rfl⟩ := h
    exact ⟨x, rfl⟩
  | foreign => exact h.elim
  | call name argument ih =>
    obtain ⟨known, hargument⟩ := h
    rw [miscalled?_call, Tree.result_call Registry.default_appends]
    exact (ih hargument).bind fun x => @invoke_answers (.call name) name rfl known [x] rfl
  | pair left name right ihl ihr =>
    obtain ⟨hleft, hright, hname⟩ := h
    rw [miscalled?_pair, Tree.result_pair Registry.default_appends]
    exact (ihl hleft).bind fun x => (ihr hright).bind fun y => combine_answers hname x y

/-! ## Texts -/

/-- A text that is read, and not nested too deeply, has an unsupported function if and only if its tree
contains a call with another number of arguments than the function takes. The first such call in
postorder is reported, and there is no cause. The functions themselves have a value at as many
floating-point numbers as they take, whatever these are. -/
theorem unsupported_iff_miscalled :
    (∀ text tree, Tree.ofTokens (Token.ofText text) = .ok tree → tree.levels ≤ depthLimit →
      ∀ name cause, (evaluate text).outcome = .error (.eval (.unsupportedFunction name cause)) ↔
        cause = none ∧ tree.postorder.findSome? Node.miscalled? = some name) ∧
    ∀ name entry, Registry.default.find? name = some entry →
      ∀ arguments : List Float, entry.arity = arguments.length →
        ∀ log, ∃ x, ((functionValue entry (arguments.map Value.ofFloat)).outcome log).1 = .ok x := by
  constructor
  · intro text tree hread low name cause
    have answers := tree.answers (Tree.isFromText_of_ok hread)
    rw [evaluate_of_read hread low]
    change _ ↔ cause = none ∧ tree.miscalled? = some name
    cases hmiscalled : tree.miscalled? with
    | none =>
      rw [hmiscalled] at answers
      obtain ⟨x, hx⟩ := answers
      rw [hx]
      exact iff_of_false nofun fun h => nomatch h.2
    | some first =>
      rw [hmiscalled] at answers
      have hresult : (tree.value .default).result = .error (.unsupportedFunction first none) := answers
      rw [hresult]
      constructor
      · rintro h
        cases h
        exact ⟨rfl, rfl⟩
      · rintro ⟨rfl, h⟩
        cases h
        rfl
  · intro name entry hentry arguments arity log
    exact functionValue_reals hentry arity log

/-- The text `sqrt(4) + sin(1, 2) * pow(3)` as a tree. -/
def sineOfTwo : Tree :=
  .pair (.call "sqrt" (.number (Value.ofFloat (Decimal.toFloat ⟨4, 0⟩)))) "+"
    (.pair
      (.pair (.number (Value.ofFloat (Decimal.toFloat ⟨1, 0⟩))) "sin"
        (.number (Value.ofFloat (Decimal.toFloat ⟨2, 0⟩))))
      "*" (.call "pow" (.number (Value.ofFloat (Decimal.toFloat ⟨3, 0⟩)))))

/-- The sine of two numbers comes before the power of one. -/
theorem unsupported_sine_of_two :
    Tree.ofTokens (Token.ofText "sqrt(4) + sin(1, 2) * pow(3)") = .ok sineOfTwo ∧
    sineOfTwo.levels ≤ depthLimit ∧
    (evaluate "sqrt(4) + sin(1, 2) * pow(3)").outcome =
      .error (.eval (.unsupportedFunction "sin" none)) ∧
    Registry.default.find? "pow" = some (Registry.builtin .pow 2).2 ∧
    ∃ x, ((functionValue (Registry.builtin .pow 2).2
      ([0.0, -1.0].map Value.ofFloat)).outcome []).1 = .ok x := by
  have hread : Tree.ofTokens (Token.ofText "sqrt(4) + sin(1, 2) * pow(3)") = .ok sineOfTwo := by
    decide +kernel
  have low : sineOfTwo.levels ≤ depthLimit := by decide
  have first : sineOfTwo.postorder.findSome? Node.miscalled? = some "sin" := by
    decide +kernel
  refine ⟨hread, low, ?_, rfl, ?_⟩
  · exact (unsupported_iff_miscalled.1 _ sineOfTwo hread low "sin" none).mpr ⟨rfl, first⟩
  · exact unsupported_iff_miscalled.2 "pow" (Registry.builtin .pow 2).2 rfl [0.0, -1.0] rfl []

end Calculator
