import Calculator.Tree

/-!
# Reading a list of tokens

A cursor stands on one token of a list. Reading goes forward one token at a time: `eat` takes a
token of a given kind, `expect` does the same where the grammar leaves no choice. A step that is
refused leaves the cursor where it was.

Nothing stands behind the last token. Taking it moves the position past the end, which is an error
of its own; the cursor then still shows the last token.
-/

namespace Calculator

/-- The parenthesis that the grammar waits for, or what a caller asks for instead. -/
inductive Demand where
  /-- The end of a bracketed expression. -/
  | closing
  /-- The start of the arguments of a function. -/
  | callOpening
  /-- The end of the arguments of a function. -/
  | callClosing
  /-- Something else, with its wording. -/
  | other (message : String)
deriving DecidableEq

/-- Why a list of tokens is no expression. -/
inductive ParseError where
  /-- The token cannot stand where it stands. -/
  | unexpected (token : Token)
  /-- A parenthesis is missing. -/
  | missing (demand : Demand)
  /-- The list has no further token. -/
  | exhausted
  /-- Brackets are nested beyond the limit. -/
  | tooDeep
deriving DecidableEq

/-- The wording of a demand that is not met. -/
def Demand.message : Demand → String
  | closing => "Expected closing parenthesis ')'"
  | callOpening => "The provided expression is malformed! An opening parenthesis is missing!"
  | callClosing => "The expression provided is malformed! A closing parenthesis is missing!"
  | other message => message

/-- What is shown of an error. -/
def ParseError.message : ParseError → String
  | unexpected token =>
      "Unexpected token: " ++ (if token.text.isEmpty then "end of input" else token.text)
  | missing demand => demand.message
  | exhausted => "list index out of range"
  | tooDeep => "Expression is nested too deeply"

/-- A position in a list of tokens: its index, the token it shows, and the tokens behind that. -/
structure Cursor where
  index : Nat
  current : Token
  rest : List Token
deriving DecidableEq

/-- The cursor on the first token. -/
def Cursor.start? : List Token → Option Cursor
  | [] => none
  | t :: ts => some ⟨0, t, ts⟩

/-- Reading with a cursor. The cursor is kept when reading fails. -/
abbrev Parsing := ExceptT ParseError (StateM Cursor)

namespace Parsing

/-- The kind of the token under the cursor. -/
def kind : Parsing TokenKind := do
  return (← get).current.kind

/-- Moves on by one token. -/
def advance : Parsing Unit := do
  let c ← get
  match c.rest with
  | [] => do
      set { c with index := c.index + 1 }
      throw .exhausted
  | t :: ts => set (⟨c.index + 1, t, ts⟩ : Cursor)

/-- Takes a token of the given kind. -/
def eat (kind : TokenKind) : Parsing Unit := do
  let c ← get
  if c.current.kind = kind then advance else throw (.unexpected c.current)

/-- Takes a token of the given kind where nothing else will do. -/
def expect (kind : TokenKind) (demand : Demand) : Parsing Unit := do
  let c ← get
  if c.current.kind = kind then advance else throw (.missing demand)

end Parsing

end Calculator
