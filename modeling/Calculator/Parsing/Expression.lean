import Calculator.Parsing.Cursor

/-!
# The grammar of expressions

    expression := term (('+' | '-') term)*
    term       := factor (('*' | '/' | '%') factor)*
    factor     := '(' expression ')'
                | number
                | function '(' expression (',' expression)? ')'

Operators of one level group to the left. Reading takes the longest stretch of tokens that can
belong to the phrase it looks for and decides by the current token alone, so the first token that
fits nowhere is the one that is reported.

A bracket or a call opens a level of nesting. The number of levels is bounded, for the program by
`depthLimit`, and entering one too many is an error at once, whatever follows. The number of operators
is not bounded.
-/

namespace Calculator

/-- Nesting deeper than this is refused, in a text and in a tree. The limit stands in for the bounded
call stack that reading and evaluation use up: it carries two hundred levels and not two thousand.
Which number between these it is has no meaning of its own. -/
def depthLimit : Nat := 1000

namespace Parsing

/-- An operator that joins terms. -/
def isAdditive : TokenKind → Bool
  | .plus | .minus => true
  | _ => false

/-- An operator that joins factors. -/
def isMultiplicative : TokenKind → Bool
  | .times | .divide | .modulo => true
  | _ => false

/-- Further operands behind `left`, each after an operator of the given level. Every round takes a
token, so one round for each of the tokens ahead is enough. -/
def chainRest (isLink : TokenKind → Bool) (operand : Parsing Tree) :
    List Token → Tree → Parsing Tree
  | [], left => pure left
  | _ :: ahead, left => do
      let link := (← get).current
      if isLink link.kind then do
        advance
        let right ← operand
        chainRest isLink operand ahead (.pair left link.text right)
      else
        pure left

/-- Operands joined by operators of one level, grouped to the left. -/
def chain (isLink : TokenKind → Bool) (operand : Parsing Tree) : Parsing Tree := do
  let left ← operand
  let c ← get
  chainRest isLink operand (c.current :: c.rest) left

/-- A factor, where `inner` reads the expressions inside its brackets. -/
def factorWith (inner : Parsing Tree) : Parsing Tree := do
  let token := (← get).current
  match token.kind with
  | .openParen => do
      advance
      let tree ← inner
      expect .closeParen .closing
      pure tree
  | .number => do
      advance
      pure (.number token.value)
  | .function => do
      advance
      expect .openParen .callOpening
      let first ← inner
      if (← kind) = .comma then do
        advance
        let second ← inner
        expect .closeParen .callClosing
        pure (.pair first token.text second)
      else do
        expect .closeParen .callClosing
        pure (.call token.text first)
  | _ => throw (.unexpected token)

/-- A term made of the given factors. -/
def termWith (factor : Parsing Tree) : Parsing Tree := chain isMultiplicative factor

/-- An expression made of the given factors. -/
def expressionWith (factor : Parsing Tree) : Parsing Tree := chain isAdditive (termWith factor)

/-- A factor with at most so many levels of nesting. -/
def factorWithin : Nat → Parsing Tree
  | 0 => factorWith (throw .tooDeep)
  | depth + 1 => factorWith (expressionWith (factorWithin depth))

/-- Reads a factor. -/
def factor : Parsing Tree := factorWithin depthLimit

/-- Reads a term. -/
def term : Parsing Tree := termWith factor

/-- Reads an expression. -/
def expression : Parsing Tree := expressionWith factor

/-- Reads an expression with at most so many levels of nesting that is followed by the end of the
input. -/
def completeWithin (limit : Nat) : Parsing Tree := do
  let tree ← expressionWith (factorWithin limit)
  let c ← get
  if c.current.kind = .endOfInput then pure tree else throw (.unexpected c.current)

/-- Reads an expression that is followed by the end of the input. -/
def complete : Parsing Tree := completeWithin depthLimit

end Parsing

/-- The tree of a list of tokens with at most so many levels of nesting. -/
def Tree.ofTokensWithin (limit : Nat) (tokens : List Token) : Except ParseError Tree :=
  match Cursor.start? tokens with
  | none => .error .exhausted
  | some c => ((Parsing.completeWithin limit).run.run c).1

/-- The tree of a list of tokens. -/
def Tree.ofTokens (tokens : List Token) : Except ParseError Tree := ofTokensWithin depthLimit tokens

end Calculator
