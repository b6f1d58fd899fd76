import Calculator.Text.CharacterSets
import Calculator.Token

/-!
# Tokens of a text

A text is broken into fragments, each of which becomes one token: a symbol, a function name, a number
literal with its value, or else unknown. The list of tokens ends with the end of the input.

* Blank characters separate fragments and belong to none.
* A symbol is a fragment of its own.
* A maximal run of word characters that names a function is a fragment of its own. Inside a longer
  run the same letters are nothing special.
* What lies between these is one fragment for each maximal contiguous stretch.

The text is first read as a list of `Run`s: maximal runs of word characters, and single characters
of any other kind. `Gathered.put` then joins the runs that belong to one fragment.

A literal is a run of digits, then perhaps a point and more digits; or a point and at least one
digit. The digits are the ten of ASCII. There is no sign and no exponent.
-/

namespace Calculator

/-! ## Fragments -/

/-- A maximal run of word characters, or one character of another kind. -/
inductive Run where
  | word (cs : List Char)
  | mark (c : Char)
deriving DecidableEq

namespace Run

/-- Puts a character in front of a list of runs. -/
def cons (c : Char) (rs : List Run) : List Run :=
  if isWordChar c then
    match rs with
    | word cs :: rest => word (c :: cs) :: rest
    | _ => word [c] :: rs
  else mark c :: rs

/-- The runs of a text, in order. -/
def ofText (s : List Char) : List Run := s.foldr cons []

end Run

/-- Fragments gathered from the right: those that are complete, and the one that may still grow at
its left end, empty if there is none. -/
structure Gathered where
  opened : List Char
  closed : List (List Char)

namespace Gathered

/-- Nothing gathered yet. -/
def empty : Gathered := ⟨[], []⟩

/-- All fragments, the growing one first. -/
def fragments (g : Gathered) : List (List Char) :=
  if g.opened.isEmpty then g.closed else g.opened :: g.closed

/-- A separator stands in front. -/
def separate (g : Gathered) : Gathered := ⟨[], g.fragments⟩

/-- A fragment of its own stands in front. -/
def putAlone (cs : List Char) (g : Gathered) : Gathered := ⟨[], cs :: g.fragments⟩

/-- More of the growing fragment stands in front. -/
def grow (cs : List Char) (g : Gathered) : Gathered := ⟨cs ++ g.opened, g.closed⟩

/-- A run stands in front. -/
def put : Run → Gathered → Gathered
  | .mark c, g =>
      if isBlank c then g.separate
      else if isSymbol c then g.putAlone [c]
      else g.grow [c]
  | .word cs, g => if isFunctionName (String.ofList cs) then g.putAlone cs else g.grow cs

end Gathered

/-- The fragments of a text as lists of characters. -/
def fragmentsOf (s : List Char) : List (List Char) :=
  ((Run.ofText s).foldr Gathered.put .empty).fragments

/-- The fragments of a text, in order. -/
def fragments (text : String) : List String :=
  (fragmentsOf text.toList).map String.ofList

/-! ## Number literals -/

namespace Literal

/-- One of the ten digits. -/
def isDigit (c : Char) : Bool := '0' ≤ c && c ≤ '9'

/-- The decimal number that a literal denotes, none if the text is no literal. -/
def read? (s : List Char) : Option Decimal :=
  let whole := s.takeWhile isDigit
  match s.dropWhile isDigit with
  | [] => if whole.isEmpty then none else some (.ofDigits whole [])
  | '.' :: fraction =>
      if fraction.all isDigit && !(whole.isEmpty && fraction.isEmpty) then
        some (.ofDigits whole fraction)
      else none
  | _ => none

end Literal

/-! ## Tokens -/

namespace Token

/-- The token that a fragment is. -/
def ofFragment (fragment : String) : Token :=
  match fragment.toList with
  | [c] =>
      match symbolKind? c with
      | some kind => ⟨kind, fragment, none⟩
      | none => ofWord fragment
  | _ => ofWord fragment
where
  /-- The token that a fragment other than a symbol is. -/
  ofWord (fragment : String) : Token :=
    if isFunctionName fragment then ⟨.function, fragment, none⟩
    else
      match Literal.read? fragment.toList with
      | some d => ⟨.number, fragment, some (.real d.toFloat)⟩
      | none => ⟨.unknown, fragment, none⟩

/-- The tokens of a text. -/
def ofText (text : String) : List Token :=
  (fragments text).map ofFragment ++ [endOfInput]

end Token

end Calculator
