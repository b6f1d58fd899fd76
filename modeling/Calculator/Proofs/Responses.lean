import Calculator.CommandLine.Response
import Calculator.Proofs.NumberTexts
import Calculator.Proofs.Outcome

/-!
# Responses to an expression

The response to an expression depends on what the expression comes to and on whether the log is asked
for, and on nothing else: not on whether the expression is an argument or the answer to the prompt,
nor on where the flags stand. Every outcome has a response, for an expression has a floating-point
number as its value or an error that is shown.

The log is made of whole lines, each beginning with a level. With the verbose flag it has a line for
every event, otherwise for warnings only, so that lines are added and none is lost. It stands before
the line of an error.

Results:
1. `ofArguments_expression`, `ofArguments_flags`: an expression among flags, and flags alone.
2. `Response.ofReport_extends`: the verbose flag adds lines to the log.
3. `responses_agree`: the responses to one expression.
-/

namespace Calculator

open Evaluation Grammar Logging

/-! ## Definitions -/

/-- The ways to ask for everything that is recorded. -/
def verboseFlags : List String := ["-v", "--verbose"]

/-- The text has no line break in it. -/
def IsLine (s : String) : Prop := '\n' ∉ s.toList

instance : DecidablePred IsLine := fun s => inferInstanceAs (Decidable ('\n' ∉ s.toList))

/-- The text is a line of the log: it begins with a level, and its line break is its last character. -/
structure IsLogLine (l : String) : Prop where
  leveled : ∃ level ∈ ["DEBUG", "WARNING"], ∃ s, l = level ++ " " ++ s
  single : ∃ s, l = s ++ "\n" ∧ IsLine s

/-- The lines of the events that are shown. -/
def logLines (verbose : Bool) (events : List Event) : List String :=
  (events.filter fun e => verbose || e.isWarning).map Event.line

namespace Response

/-- A result is shown, and besides the log nothing is. -/
structure Succeeds (r : Response) (result : String) : Prop where
  exit : r.exit = 0
  out : r.out = result ++ "\n"
  err : ∃ log, (∀ l ∈ log, IsLogLine l) ∧ r.err = String.join log

/-- There is no result, and an error is shown behind the log. -/
structure Fails (r : Response) (message : String) : Prop where
  exit : r.exit = 1
  out : r.out = ""
  err : ∃ log, (∀ l ∈ log, IsLogLine l) ∧ r.err = String.join log ++ "Error: " ++ message ++ "\n"

/-- The same response but for lines that are added to the log, which stands before the error. -/
structure Extends (r' r : Response) : Prop where
  exit : r'.exit = r.exit
  out : r'.out = r.out
  err : ∃ log log' failure, r.err = String.join log ++ failure ∧
    r'.err = String.join log' ++ failure ∧ log.Sublist log' ∧ (∀ l ∈ log', IsLogLine l) ∧
    (failure = "" ∨ ∃ message, failure = "Error: " ++ message ++ "\n")

end Response

/-! ## Arguments -/

section

variable {e : String} {flags before after : List String}

namespace Reading

/-- What does not start with a dash is an operand. -/
theorem ofArgument_operand (plain : e.toList.head? ≠ some '-') : ofArgument e = .ok .operand := by
  unfold ofArgument
  split
  · next h => exact absurd (congrArg List.head? h) plain
  · next h => exact absurd (congrArg List.head? h) plain
  · rfl

theorem ofArgument_verbose {f : String} (h : f ∈ verboseFlags) :
    f ≠ "--" ∧ ofArgument f = .ok (.flag .verbose .nothing) := by
  rcases List.mem_pair.mp h with rfl | rfl
  · exact ⟨by decide, rfl⟩
  · exact ⟨by decide, rfl⟩

theorem ofArguments_cons {argument : String} {rest : List String} {reading : Reading}
    {readings : List (String × Reading)} (inside : argument ≠ "--")
    (first : ofArgument argument = .ok reading) (more : ofArguments rest = .ok readings) :
    ofArguments (argument :: rest) = .ok ((argument, reading) :: readings) := by
  rw [ofArguments, if_neg inside, first, more]
  rfl

/-- Flags are read one by one, whatever follows them. -/
theorem ofArguments_flags_append (h : ∀ f ∈ flags, f ∈ verboseFlags) {rest : List String}
    {readings : List (String × Reading)} (more : ofArguments rest = .ok readings) :
    ofArguments (flags ++ rest) = .ok (flags.map (·, flag .verbose .nothing) ++ readings) := by
  induction flags with
  | nil => exact more
  | cons f flags ih =>
    obtain ⟨inside, first⟩ := ofArgument_verbose (h f List.mem_cons_self)
    exact ofArguments_cons inside first (ih fun g hg => h g (List.mem_cons_of_mem _ hg))

theorem ofArguments_flags (h : ∀ f ∈ flags, f ∈ verboseFlags) :
    ofArguments flags = .ok (flags.map (·, flag .verbose .nothing)) := by
  have readings := ofArguments_flags_append h (show ofArguments [] = .ok [] from rfl)
  rwa [List.append_nil, List.append_nil] at readings

end Reading

namespace Taken

/-- Flags are taken one by one, whatever follows them. -/
theorem takeAll_flags_append (flags : List String) (readings : List (String × Reading)) (t : Taken) :
    takeAll (flags.map (·, .flag .verbose .nothing) ++ readings) t =
      takeAll readings { t with verbose := t.verbose || !flags.isEmpty } := by
  induction flags generalizing t with
  | nil => rw [List.isEmpty_nil, Bool.not_true, Bool.or_false]; rfl
  | cons f flags ih =>
    refine (ih _).trans ?_
    rw [List.isEmpty_cons, Bool.not_false, Bool.or_true]
    rfl

theorem takeAll_flags (flags : List String) (t : Taken) :
    takeAll (flags.map (·, .flag .verbose .nothing)) t =
      .ok { t with verbose := t.verbose || !flags.isEmpty } := by
  have taken := takeAll_flags_append flags [] t
  rwa [List.append_nil] at taken

/-- The first operand is the expression, if no end of the flags follows. -/
theorem takeAll_operand (flags : List String) (verbose : Bool) :
    takeAll ((e, .operand) :: flags.map (·, .flag .verbose .nothing)) ⟨none, verbose, []⟩ =
      .ok ⟨some (some e), verbose || !flags.isEmpty, []⟩ := by
  cases flags with
  | nil =>
    rw [List.isEmpty_nil, Bool.not_true, Bool.or_false]
    rfl
  | cons f flags => exact takeAll_flags (f :: flags) ⟨some (some e), verbose, []⟩

end Taken

namespace Command

/-- Arguments that all have a place ask for what was taken from them. -/
theorem ofArguments_of_takeAll {arguments : List String} {readings : List (String × Reading)}
    (expression : Option (Option String)) {verbose : Bool}
    (hread : Reading.ofArguments arguments = .ok readings)
    (htake : Taken.takeAll readings ⟨none, false, []⟩ = .ok ⟨expression, verbose, []⟩) :
    ofArguments arguments = .run expression.join verbose := by
  have whole : read arguments = .ok (.run expression.join verbose) := by
    unfold read
    rw [hread]
    show (Taken.takeAll readings ⟨none, false, []⟩ >>= _) = _
    rw [htake]
    rfl
  unfold ofArguments
  rw [whole]

/-- An expression among verbose flags is the expression, and the flags count wherever they stand. -/
theorem ofArguments_expression (plain : e.toList.head? ≠ some '-')
    (hbefore : ∀ f ∈ before, f ∈ verboseFlags) (hafter : ∀ f ∈ after, f ∈ verboseFlags) :
    ofArguments (before ++ e :: after) = .run (some e) (!(before ++ after).isEmpty) := by
  have inside : e ≠ "--" := by
    rintro rfl
    exact plain rfl
  have hread := Reading.ofArguments_flags_append hbefore
    (Reading.ofArguments_cons inside (Reading.ofArgument_operand plain)
      (Reading.ofArguments_flags hafter))
  have flags : (!(before ++ after).isEmpty) = (!before.isEmpty || !after.isEmpty) := by
    cases before <;> rfl
  rw [flags]
  refine ofArguments_of_takeAll (some (some e)) hread ?_
  rw [Taken.takeAll_flags_append]
  exact Taken.takeAll_operand after (!before.isEmpty)

/-- Verbose flags alone leave the expression to the prompt. -/
theorem ofArguments_flags (h : ∀ f ∈ flags, f ∈ verboseFlags) :
    ofArguments flags = .run none (!flags.isEmpty) :=
  ofArguments_of_takeAll none (Reading.ofArguments_flags h)
    (Taken.takeAll_flags flags ⟨none, false, []⟩)

end Command

end

/-! ## The log -/

theorem IsLine.append {s t : String} (hs : IsLine s) (ht : IsLine t) : IsLine (s ++ t) := by
  unfold IsLine
  rw [String.toList_append, List.mem_append]
  exact not_or.mpr ⟨hs, ht⟩

theorem isLine_toString (n : Int) : IsLine (toString n) := by
  intro h
  rcases digit_or_dash_of_mem n '\n' h with digit | dash
  · exact absurd digit (by decide)
  · exact absurd dash (by decide)

theorem Number.isLine_text (a : Number) : IsLine a.text :=
  fun h => absurd (a.text_subset h) (by decide)

theorem Routine.isLine_name (r : Routine) : IsLine r.name := by
  cases r <;> decide

namespace Event

theorem level_mem (e : Event) : e.level ∈ ["DEBUG", "WARNING"] := by
  cases e with
  | tokenized | parsed => exact List.mem_cons_self
  | warning => exact List.mem_cons_of_mem _ List.mem_cons_self

theorem isLine_level (e : Event) : IsLine e.level := by
  have all : ∀ level ∈ ["DEBUG", "WARNING"], IsLine level := by decide
  exact all _ e.level_mem

theorem isLine_source (e : Event) : IsLine e.source := by
  cases e with
  | tokenized => exact show IsLine "mathexpr.utils" by decide
  | parsed => exact show IsLine "mathexpr.parser" by decide
  | warning => exact show IsLine "mathexpr.functions" by decide

/-- What is recorded of an event fits on a line. -/
theorem isLine_message (e : Event) : IsLine e.message := by
  cases e with
  | tokenized n =>
    have start : IsLine "Tokenized expression into " := by decide
    exact (start.append (isLine_toString n)).append (by decide)
  | parsed n =>
    have start : IsLine "Parsed " := by decide
    exact (start.append (isLine_toString n)).append (by decide)
  | warning w =>
    have call := (w.routine.isLine_name.append (show IsLine "(" by decide)).append
      w.argument.isLine_text
    have cut : IsLine ") did not converge within " := by decide
    exact ((call.append cut).append (isLine_toString w.cap)).append (by decide)

theorem isLogLine_line (e : Event) : IsLogLine e.line := by
  refine ⟨⟨e.level, e.level_mem, e.source ++ ": " ++ e.message ++ "\n", ?_⟩,
    e.level ++ " " ++ e.source ++ ": " ++ e.message, rfl, ?_⟩
  · unfold line
    simp only [String.append_assoc]
  · have head := (e.isLine_level.append (show IsLine " " by decide)).append e.isLine_source
    exact (head.append (by decide)).append e.isLine_message

end Event

theorem isLogLine_of_mem {verbose : Bool} {events : List Event} {l : String}
    (h : l ∈ logLines verbose events) : IsLogLine l := by
  obtain ⟨e, -, rfl⟩ := List.mem_map.mp h
  exact e.isLogLine_line

/-- Whether the log is asked for or not, warnings are shown. -/
theorem logLines_sublist (verbose : Bool) (events : List Event) :
    (logLines false events).Sublist (logLines verbose events) :=
  (List.monotone_filter_right events fun e warned => by
    rw [Bool.false_or] at warned
    rw [warned, Bool.or_true]).map Event.line

namespace Response

theorem Extends.after {r' r : Response} (h : r'.Extends r) (written : String) :
    (r'.after written).Extends (r.after written) where
  exit := h.exit
  out := congrArg (written ++ ·) h.out
  err := h.err

/-- The error stands behind the log. -/
theorem ofReport_error_err (verbose : Bool) (e : ExpressionError) (events : List Event) :
    (ofReport verbose ⟨.error e, events⟩).err =
      String.join (logLines verbose events) ++ ("Error: " ++ e.message ++ "\n") := by
  show String.join (logLines verbose events) ++ "Error: " ++ e.message ++ "\n" = _
  simp only [String.append_assoc]

/-- Asking for the log adds lines to it and changes nothing else. -/
theorem ofReport_extends (verbose : Bool) (report : Report) :
    (ofReport verbose report).Extends (ofReport false report) := by
  obtain ⟨outcome, events⟩ := report
  have sub := logLines_sublist verbose events
  have lines : ∀ l ∈ logLines verbose events, IsLogLine l := fun l => isLogLine_of_mem
  cases outcome with
  | ok value =>
    refine ⟨rfl, rfl, logLines false events, logLines verbose events, "", ?_, ?_, sub, lines, .inl rfl⟩
    · exact String.append_empty.symm
    · exact String.append_empty.symm
  | error e =>
    refine ⟨rfl, rfl, logLines false events, logLines verbose events, "Error: " ++ e.message ++ "\n",
      ?_, ?_, sub, lines, .inr ⟨e.message, rfl⟩⟩
    · exact ofReport_error_err false e events
    · exact ofReport_error_err verbose e events

/-- The first line of an input, whether it ends there or goes on. -/
theorem firstLine_append {e rest : String} (line : IsLine e)
    (ends : rest = "" ∨ ∃ more, rest = "\n" ++ more) : firstLine (e ++ rest) = e := by
  have whole : ∀ c ∈ e.toList, (c != '\n') = true :=
    fun c hc => bne_iff_ne.mpr (ne_of_mem_of_not_mem hc line)
  have stop : rest.toList.takeWhile (· != '\n') = [] := by
    rcases ends with rfl | ⟨more, rfl⟩
    · rfl
    · rw [String.toList_append]
      rfl
  unfold firstLine
  rw [String.toList_append, List.takeWhile_append_of_pos whole, stop, List.append_nil,
    String.ofList_toList]

end Response

/-! ## Responses -/

section

variable {e : String} {flags before after : List String}

/-- An expression among verbose flags is answered by what it comes to. -/
theorem respond_expression (plain : e.toList.head? ≠ some '-')
    (h : ∀ f ∈ before ++ after, f ∈ verboseFlags) (input : String) :
    respond (before ++ e :: after) input = .ofReport (!(before ++ after).isEmpty) (evaluate e) := by
  obtain ⟨hbefore, hafter⟩ := List.forall_mem_append.mp h
  unfold respond
  rw [Command.ofArguments_expression plain hbefore hafter]
  rfl

/-- Verbose flags alone are answered by what the first line of the input comes to. -/
theorem respond_flags (h : ∀ f ∈ flags, f ∈ verboseFlags) (input : String) :
    respond flags input =
      (Response.ofReport (!flags.isEmpty) (evaluate (Response.firstLine input))).after prompt := by
  unfold respond
  rw [Command.ofArguments_flags h]
  rfl

theorem respond_single (plain : e.toList.head? ≠ some '-') (input : String) :
    respond [e] input = .ofReport false (evaluate e) :=
  @respond_expression e [] [] plain (List.forall_mem_nil _) input

/-- The prompt is answered like the argument. -/
theorem respond_prompt {rest : String} (plain : e.toList.head? ≠ some '-') (line : IsLine e)
    (ends : rest = "" ∨ ∃ more, rest = "\n" ++ more) (input : String) :
    respond [] (e ++ rest) = (respond [e] input).after prompt := by
  rw [respond_flags (List.forall_mem_nil (· ∈ verboseFlags)), Response.firstLine_append line ends,
    respond_single plain]
  rfl

theorem respond_succeeds {x : Float} (plain : e.toList.head? ≠ some '-')
    (h : (evaluate e).outcome = .ok (some (.real x))) (input : String) :
    (respond [e] input).Succeeds (resultText x) := by
  rw [respond_single plain]
  generalize evaluate e = report at h
  obtain ⟨outcome, events⟩ := report
  cases h
  exact ⟨rfl, rfl, logLines false events, fun l => isLogLine_of_mem, rfl⟩

theorem respond_fails {err : ExpressionError} (plain : e.toList.head? ≠ some '-')
    (h : (evaluate e).outcome = .error err) (input : String) :
    (respond [e] input).Fails err.message := by
  rw [respond_single plain]
  generalize evaluate e = report at h
  obtain ⟨outcome, events⟩ := report
  cases h
  exact ⟨rfl, rfl, logLines false events, fun l => isLogLine_of_mem, rfl⟩

end

/-- A text that does not start with a dash is answered with its value, or with its error, and it has
one or the other. The same text as the first line of the input is answered in the same way behind the
prompt, and an input that ends at once like the empty text. Verbose flags before or after it, and with
the prompt, only add lines to the log. -/
theorem responses_agree (e : String) (plain : e.toList.head? ≠ some '-') :
    ((∃ x, (evaluate e).outcome = .ok (some (.real x)) ∧
        ∀ input, (respond [e] input).Succeeds (resultText x)) ∨
      ∃ err, (evaluate e).outcome = .error err ∧ err.IsShown ∧
        ∀ input, (respond [e] input).Fails err.message) ∧
    (IsLine e → ∀ rest, (rest = "" ∨ ∃ more, rest = "\n" ++ more) → ∀ input,
      respond [] (e ++ rest) = (respond [e] input).after prompt) ∧
    (∀ input, respond [] "" = (respond [""] input).after prompt) ∧
    ∀ before after, (∀ f ∈ before ++ after, f ∈ verboseFlags) → ∀ input,
      (respond (before ++ e :: after) input).Extends (respond [e] input) ∧
      (respond (before ++ after) input).Extends (respond [] input) := by
  refine ⟨?_, fun line rest ends => respond_prompt plain line ends, ?_, ?_⟩
  · rcases evaluate_settles e with ⟨x, hx⟩ | ⟨err, herr, shown⟩
    · exact .inl ⟨x, hx, respond_succeeds plain hx⟩
    · exact .inr ⟨err, herr, shown, respond_fails plain herr⟩
  · exact @respond_prompt "" "" (by decide) (by decide) (.inl rfl)
  · intro before after h input
    rw [respond_expression plain h, respond_single plain, respond_flags h,
      respond_flags (List.forall_mem_nil (· ∈ verboseFlags))]
    exact ⟨Response.ofReport_extends _ _, (Response.ofReport_extends _ _).after prompt⟩

/-- A bracket that is not closed, as an argument, behind the prompt, and between flags. -/
theorem responses_to_open_bracket :
    "(2 + 3".toList.head? ≠ some '-' ∧ IsLine "(2 + 3" ∧
    (∀ f ∈ ["-v"] ++ ["--verbose"], f ∈ verboseFlags) ∧
    (∀ input, (respond ["(2 + 3"] input).Fails "Expected closing parenthesis ')'") ∧
    respond [] "(2 + 3\n7" = ⟨1, prompt, "Error: Expected closing parenthesis ')'\n"⟩ ∧
    (respond ["-v", "(2 + 3", "--verbose"] "").Extends (respond ["(2 + 3"] "") ∧
    (respond ["-v", "--verbose"] "(2 + 3").Extends (respond [] "(2 + 3") := by
  have plain : "(2 + 3".toList.head? ≠ some '-' := by decide
  have line : IsLine "(2 + 3" := by decide
  have flags : ∀ f ∈ ["-v"] ++ ["--verbose"], f ∈ verboseFlags := by decide
  have outcome : (evaluate "(2 + 3").outcome = .error (.parse (.missing .closing)) := by
    decide +kernel
  have single : respond ["(2 + 3"] "" = ⟨1, "", "Error: Expected closing parenthesis ')'\n"⟩ := by
    decide +kernel
  obtain ⟨answers, prompted, -, flagged⟩ := responses_agree "(2 + 3" plain
  refine ⟨plain, line, flags, ?_, ?_, (flagged ["-v"] ["--verbose"] flags "").1,
    (flagged ["-v"] ["--verbose"] flags "(2 + 3").2⟩
  · rcases answers with ⟨x, hx, -⟩ | ⟨err, herr, -, fails⟩
    · cases outcome.symm.trans hx
    · cases outcome.symm.trans herr
      exact fails
  · exact (prompted line "\n7" (.inr ⟨"7", rfl⟩) "").trans (by rw [single]; rfl)

end Calculator
