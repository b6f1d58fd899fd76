import Calculator.Text.CharacterSets
import Calculator.Text.Quoted

/-!
# Arguments of the command line

The program takes at most one operand, the expression, and two flags. Arguments are read in two
passes. The first says of each argument what it is by itself:

* `--` ends the flags: everything behind it is an operand.
* A flag is given by a dash and its letter, or by two dashes and its name or an unambiguous beginning
  of that. Text may follow it behind an equals sign or, after a letter, directly.
* A lone dash, a negative number, and anything with a space in it is an operand although it starts
  with a dash. Everything else that starts with a dash is an unknown flag.

The second pass goes through them in order. Text behind a flag's letter gives further flags, each of
its characters one; a name takes no text. An argument is taken as a whole, so that none of its flags
counts if one of its characters is no flag. Asking for help ends the pass at once. Operands after the
first, and unknown flags, are collected and reported together at the end.
-/

namespace Calculator

/-- A flag of the program. -/
inductive Flag where
  | help
  | verbose
deriving DecidableEq

namespace Flag

/-- The names of the flags, as they are written. -/
def names : List (String × Flag) := [("--help", help), ("--verbose", verbose)]

/-- The flag that a letter denotes. -/
def ofLetter? : Char → Option Flag
  | 'h' => some help
  | 'v' => some verbose
  | _ => none

/-- All spellings of a flag. -/
def label : Flag → String
  | help => "-h/--help"
  | verbose => "-v/--verbose"

end Flag

/-- The text that follows a flag in the same argument. -/
inductive Attached where
  | nothing
  /-- Text behind the letter of a flag. -/
  | letters (text : List Char)
  /-- Text behind the name of a flag. -/
  | value (text : List Char)
deriving DecidableEq

/-- What follows the letter of a flag. An equals sign may stand before the text. -/
def Attached.ofLetters : List Char → Attached
  | [] => .nothing
  | '=' :: text => .letters text
  | text => .letters text

/-- What an argument is by itself. -/
inductive Reading where
  | operand
  /-- The end of the flags. -/
  | terminator
  | flag (f : Flag) (attached : Attached)
  | unknown
deriving DecidableEq

/-- What the program is asked to do. -/
inductive Command where
  | help
  /-- The arguments make no sense. -/
  | misuse (message : String)
  /-- Evaluate an expression, one that is prompted for if none is given. -/
  | run (expression : Option String) (verbose : Bool)
deriving DecidableEq

namespace Reading

/-- The text before the first equals sign, and what follows it. -/
def splitAtEquals (s : List Char) : List Char × Attached :=
  match s.dropWhile (· != '=') with
  | [] => (s, .nothing)
  | _ :: text => (s.takeWhile (· != '='), .value text)

/-- Digits, and perhaps a line break behind them. -/
def areDigits (s : List Char) : Bool :=
  match s.dropWhile isDecimalDigit with
  | [] => !s.isEmpty
  | ['\n'] => s.length != 1
  | _ => false

/-- A number after a dash: digits, or a point with digits behind it and perhaps before it. -/
def isNegativeNumber : List Char → Bool
  | '-' :: s =>
      areDigits s ||
        match s.dropWhile isDecimalDigit with
        | '.' :: fraction => areDigits fraction
        | _ => false
  | _ => false

/-- An argument that starts with a dash and gives no flag. -/
def ofDashed (s : List Char) : Reading :=
  if isNegativeNumber s || s.contains ' ' then .operand else .unknown

/-- The flags whose names begin with the given text. -/
def matchingNames (start : List Char) : List (String × Flag) :=
  Flag.names.filter fun name => start.isPrefixOf name.1.toList

/-- What an argument that starts with two dashes is. -/
def ofTwoDashes (s : List Char) : Except Command Reading :=
  let (start, attached) := splitAtEquals s
  match matchingNames start with
  | [] => .ok (ofDashed s)
  | [(_, f)] => .ok (.flag f attached)
  | several =>
      .error (.misuse ("ambiguous option: " ++ String.ofList s ++ " could match "
        ++ ", ".intercalate (several.map (·.1))))

/-- What an argument is. -/
def ofArgument (argument : String) : Except Command Reading :=
  match argument.toList with
  | '-' :: '-' :: text => ofTwoDashes ('-' :: '-' :: text)
  | '-' :: letter :: text =>
      match Flag.ofLetter? letter with
      | some f => .ok (.flag f (.ofLetters text))
      | none => .ok (ofDashed ('-' :: letter :: text))
  | _ => .ok .operand

/-- What each argument is. -/
def ofArguments : List String → Except Command (List (String × Reading))
  | [] => .ok []
  | argument :: rest =>
      if argument = "--" then .ok ((argument, .terminator) :: rest.map (·, .operand))
      else do
        let reading ← ofArgument argument
        let readings ← ofArguments rest
        return (argument, reading) :: readings

end Reading

/-- What has been taken from the arguments so far. The expression is decided by the first operand, or
by the end of the flags if no operand follows. -/
structure Taken where
  expression : Option (Option String)
  verbose : Bool
  unrecognized : List String
deriving DecidableEq

namespace Taken

/-- Text is attached to a flag that does not take it. -/
def attachedMisuse (f : Flag) (text : List Char) : Command :=
  .misuse ("argument " ++ f.label ++ ": ignored explicit argument " ++ quoted (String.ofList text))

/-- A flag and those whose letters follow its own. -/
def flagsOf (f : Flag) : List Char → Except Command (List Flag)
  | [] => .ok [f]
  | letter :: text =>
      match Flag.ofLetter? letter with
      | some g => (flagsOf g text).map (f :: ·)
      | none => .error (attachedMisuse f (letter :: text))

/-- The flags that an argument gives. An equals sign must have text behind it. -/
def flags (f : Flag) : Attached → Except Command (List Flag)
  | .nothing => .ok [f]
  | .letters [] => .error (attachedMisuse f [])
  | .letters text => flagsOf f text
  | .value text => .error (attachedMisuse f text)

/-- Takes a flag. Help is given at once. -/
def takeFlag (t : Taken) : Flag → Except Command Taken
  | .help => .error .help
  | .verbose => .ok { t with verbose := true }

/-- Collects an argument that has no place. -/
def refuse (t : Taken) (argument : String) : Taken :=
  { t with unrecognized := t.unrecognized ++ [argument] }

/-- Decides the expression. -/
def settle (t : Taken) (expression : Option String) : Taken := { t with expression := some expression }

/-- Takes the arguments in order. -/
def takeAll : List (String × Reading) → Taken → Except Command Taken
  | [], t => .ok t
  | (_, .flag f attached) :: rest, t => do
      let given ← flags f attached
      let t ← given.foldlM takeFlag t
      takeAll rest t
  | (argument, .unknown) :: rest, t => takeAll rest (t.refuse argument)
  | (argument, .operand) :: (next, .terminator) :: rest, t =>
      if t.expression.isNone then takeAll rest (t.settle (some argument))
      else takeAll rest ((t.refuse argument).refuse next)
  | (argument, .operand) :: rest, t =>
      if t.expression.isNone then takeAll rest (t.settle (some argument))
      else takeAll rest (t.refuse argument)
  | (terminator, .terminator) :: (argument, .operand) :: rest, t =>
      if t.expression.isNone then takeAll rest (t.settle (some argument))
      else takeAll rest ((t.refuse terminator).refuse argument)
  | (terminator, .terminator) :: rest, t =>
      if t.expression.isNone then takeAll rest (t.settle none)
      else takeAll rest (t.refuse terminator)

end Taken

/-- What the arguments ask for, or the reason to stop early. -/
def Command.read (arguments : List String) : Except Command Command := do
  let readings ← Reading.ofArguments arguments
  let t ← Taken.takeAll readings ⟨none, false, []⟩
  if t.unrecognized.isEmpty then return .run t.expression.join t.verbose
  else return .misuse ("unrecognized arguments: " ++ " ".intercalate t.unrecognized)

/-- What the arguments ask for. -/
def Command.ofArguments (arguments : List String) : Command :=
  match read arguments with
  | .ok command => command
  | .error command => command

end Calculator
