import Calculator.Evaluation.Operator
import Calculator.Library.Builtin
import Calculator.Parsing.Expression

/-!
# Evaluation of trees

A tree is evaluated from left to right, operands before their operator. A number by itself is
returned as it stands; every other result is a floating-point number.

The left operands of arithmetic operators form the spine of a tree. It is walked in a loop, so a long
chain of operators is no nesting. Every other step down, into the argument of a call, a right operand,
or the arguments of a function of two, is a level, and there are at most `depthLimit` of them.

An expression has no value if it calls what cannot be called, or if an operator is given what it
cannot take. A call also fails where the function has no value at its arguments; the fault is kept
as the cause.
-/

namespace Calculator

/-! ## Errors -/

/-- Why a tree has no value. -/
inductive EvalError where
  /-- No function of this name takes that many arguments, or it has no value at them. -/
  | unsupportedFunction (name : String) (cause : Option Fault)
  /-- A pair whose name is neither an operator nor a function. -/
  | unsupportedOperator (name : String)
  /-- A leaf that is no number. -/
  | invalidNode
  /-- An operator has no value at its operands, or a function failed for a reason of its own. -/
  | fault (fault : Fault)
  /-- The tree is nested beyond the limit. -/
  | tooDeep
deriving DecidableEq

/-- What is shown of an error. -/
def EvalError.message : EvalError → String
  | unsupportedFunction name _ => "Unsupported function: " ++ name
  | unsupportedOperator name => "Unsupported operator: " ++ name
  | invalidNode => "Invalid AST node"
  | fault f => f.message
  | tooDeep => "Expression is nested too deeply"

/-- A fault that leaves the evaluation as it is. -/
def EvalError.ofFault : Fault → EvalError
  | .tooDeep => tooDeep
  | f => fault f

/-! ## Evaluation -/

/-- Evaluations collect warnings and may end in an error. -/
abbrev Evaluation := Logging EvalError

namespace Evaluation

/-- Applies an operator to two values. -/
def operate (op : Operator) (left right : Value) : Evaluation Value :=
  match op.apply left right with
  | .ok x => pure (some (.real x))
  | .error f => throw (.ofFault f)

/-- The value that a function gives, as a floating-point number. -/
def functionValue (entry : Entry) (arguments : List Value) : Numeric Float := do
  let value ← entry.apply arguments
  (← Value.demand value).toFloat

/-- Calls a function of the registry. A fault that is a statement about the arguments becomes the
cause of the error, any other is passed on. -/
def callFunction (r : Registry) (name : String) (arguments : List Value) : Evaluation Value :=
  match r.find? name with
  | none => throw (.unsupportedFunction name none)
  | some entry =>
      if entry.arity = arguments.length then
        (fun x => some (.real x)) <$>
          ExceptT.adapt
            (fun f => if f.isNumeric then .unsupportedFunction name (some f) else .ofFault f)
            (functionValue entry arguments)
      else throw (.unsupportedFunction name none)

/-- The spine of a tree: the leftmost operand, and the operators with their right operands in the
order in which they are applied, in front of the given ones. -/
def spine : Tree → List (Operator × Tree) → Tree × List (Operator × Tree)
  | .pair left name right, links =>
      match Operator.ofName? name with
      | some op => spine left ((op, right) :: links)
      | none => (.pair left name right, links)
  | t, links => (t, links)

/-- Evaluates what stands at the left end of a spine, where `inner` evaluates its operands. -/
def evalHead (r : Registry) (inner : Tree → Evaluation Value) : Tree → Evaluation Value
  | .number value => pure value
  | .call name argument => do
      let value ← inner argument
      callFunction r name [value]
  | .pair left name right => do
      let first ← inner left
      let second ← inner right
      if (Registry.default.find? name).isSome || (r.find? name).isSome then
        callFunction r name [first, second]
      else throw (.unsupportedOperator name)
  | .foreign => throw .invalidNode

/-- Evaluates a tree along its spine, where `inner` evaluates the operands a level deeper. -/
def evalWith (r : Registry) (inner : Tree → Evaluation Value) (t : Tree) : Evaluation Value := do
  let (head, links) := spine t []
  let first ← evalHead r inner head
  links.foldlM (fun left link => do operate link.1 left (← inner link.2)) first

/-- Evaluates a tree with at most so many levels of nesting. -/
def evalWithin (r : Registry) : Nat → Tree → Evaluation Value
  | 0 => evalWith r fun _ => throw .tooDeep
  | depth + 1 => evalWith r (evalWithin r depth)

end Evaluation

/-- The value of a tree, with the functions of a registry. -/
def Tree.eval (r : Registry) (t : Tree) : Evaluation Value := Evaluation.evalWithin r depthLimit t

end Calculator
