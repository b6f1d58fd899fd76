import Calculator.Decimal
import Calculator.Text.Quoted

/-!
# Tokens

A token has a kind, the text it was written as, and for a number its value. Symbols and function
names are fixed words: `symbolKind?` and `isFunctionName` say which.
-/

namespace Calculator

/-- What a token is. -/
inductive TokenKind where
  | number
  | function
  | openParen
  | closeParen
  | comma
  | plus
  | minus
  | times
  | divide
  | modulo
  | caret
  | unknown
  | endOfInput
deriving DecidableEq

/-- A token as it stands in an expression. -/
structure Token where
  kind : TokenKind
  text : String
  value : Value
deriving DecidableEq

namespace TokenKind

/-- The name of a kind. -/
def name : TokenKind → String
  | number => "NUMBER"
  | function => "FUNCTION"
  | openParen => "LPAREN"
  | closeParen => "RPAREN"
  | comma => "COMMA"
  | plus => "PLUS"
  | minus => "MINUS"
  | times => "MUL"
  | divide => "DIV"
  | modulo => "MOD"
  | caret => "CARET"
  | unknown => "UNKNOWN"
  | endOfInput => "EOF"

/-- All kinds. -/
def all : List TokenKind :=
  [number, function, openParen, closeParen, comma, plus, minus, times, divide, modulo, caret,
    unknown, endOfInput]

/-- The kind of a given name. -/
def ofName? (name : String) : Option TokenKind :=
  all.find? (·.name == name)

end TokenKind

/-- The kind of a symbol. -/
def symbolKind? : Char → Option TokenKind
  | '(' => some .openParen
  | ')' => some .closeParen
  | ',' => some .comma
  | '+' => some .plus
  | '-' => some .minus
  | '*' => some .times
  | '/' => some .divide
  | '%' => some .modulo
  | '^' => some .caret
  | _ => none

/-- The character is a token of its own wherever it stands. -/
def isSymbol (c : Char) : Bool := (symbolKind? c).isSome

/-- The names of the functions. -/
def functionNames : List String :=
  ["cos", "acos", "sin", "asin", "tan", "atan", "sqrt", "pow"]

/-- The word names a function. -/
def isFunctionName (word : String) : Bool := functionNames.contains word

namespace Token

/-- The token that ends every expression. -/
def endOfInput : Token := ⟨.endOfInput, "", none⟩

/-- Tokens are the same if they agree in kind and text and their values are equal as numbers. -/
def same (a b : Token) : Bool :=
  a.kind == b.kind && a.text == b.text && Value.equals a.value b.value

/-- A token as shown for inspection: its kind and its quoted text. -/
def render (t : Token) : String :=
  "Token(TokenType." ++ t.kind.name ++ ", " ++ quoted t.text ++ ")"

end Token

end Calculator
