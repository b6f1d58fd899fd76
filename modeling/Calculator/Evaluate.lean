import Calculator.Evaluation
import Calculator.Token.OfText

/-!
# Expressions from text to value

A text is broken into tokens, the tokens are read as a tree, and the tree is evaluated with the
functions that every expression can call. What happens on the way is recorded as a list of events.
-/

namespace Calculator

/-- What is recorded while an expression is evaluated. -/
inductive Event where
  /-- The text has so many tokens besides the end of the input. -/
  | tokenized (count : Nat)
  /-- So many tokens form an expression. -/
  | parsed (count : Nat)
  /-- An iteration was cut off. -/
  | warning (w : Warning)
deriving DecidableEq

namespace Event

/-- How serious an event is. -/
def level : Event → String
  | tokenized _ | parsed _ => "DEBUG"
  | warning _ => "WARNING"

/-- The part of the program that records an event. -/
def source : Event → String
  | tokenized _ => "mathexpr.utils"
  | parsed _ => "mathexpr.parser"
  | warning _ => "mathexpr.functions"

/-- What is recorded. -/
def message : Event → String
  | tokenized count => "Tokenized expression into " ++ toString count ++ " tokens"
  | parsed count => "Parsed " ++ toString count ++ " tokens"
  | warning w =>
      w.routine.name ++ "(" ++ w.argument.text ++ ") did not converge within " ++ toString w.cap
        ++ " iterations"

end Event

/-- Why an expression has no value. -/
inductive ExpressionError where
  | parse (e : ParseError)
  | eval (e : EvalError)
  /-- The expression is nested beyond the limit, as text or as tree. -/
  | tooDeep
deriving DecidableEq

namespace ExpressionError

/-- What is shown of an error. -/
def message : ExpressionError → String
  | parse e => e.message
  | eval e => e.message
  | tooDeep => "Expression is nested too deeply"

/-- An error of reading. Excessive nesting is the same error at every stage. -/
def ofParse : ParseError → ExpressionError
  | .tooDeep => tooDeep
  | e => parse e

/-- An error of evaluation. -/
def ofEval : EvalError → ExpressionError
  | .tooDeep => tooDeep
  | e => eval e

end ExpressionError

/-- The outcome of an expression with all that was recorded on the way, in order. -/
structure Report where
  outcome : Except ExpressionError Value
  events : List Event

/-- Evaluates an expression, with at most so many levels of nesting while it is read, and so many while
its tree is evaluated. -/
def evaluateWithin (reading evaluating : Nat) (text : String) : Report :=
  let tokens := Token.ofText text
  let tokenized := Event.tokenized (tokens.length - 1)
  match Tree.ofTokensWithin reading tokens with
  | .error e => ⟨.error (.ofParse e), [tokenized]⟩
  | .ok tree =>
      let (outcome, warnings) := (Evaluation.evalWithin .default evaluating tree).run.run []
      ⟨outcome.mapError .ofEval,
        tokenized :: .parsed (tokens.length - 1) :: warnings.map .warning⟩

/-- Evaluates an expression. -/
def evaluate (text : String) : Report := evaluateWithin depthLimit depthLimit text

end Calculator
