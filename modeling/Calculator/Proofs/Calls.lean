import Calculator.Proofs.Sentence

/-!
# Calls made one after the other

A parser can be asked for a single token or for a phrase, in any order and as often as one likes, and
also after calls that failed: each call starts where the one before left the cursor. Taking the last
token moves the index past the end and leaves the cursor on that token, so index and token disagree
from then on.

What reading comes to (`Calculator.Proofs.Reading`) says where one call leaves the cursor, and that no
phrase holds an end of the input. An induction on the calls carries both through any history.

Results:
1. `Call.goes`: a call goes over some of the tokens ahead, and over an end of the input only if that
   is what it asks for.
2. `Goes.behind`, `Goes.before`: where the cursor stands afterwards.
3. `cursor_stays_in_list`: the cursor after any calls.
-/

namespace Calculator

namespace Parsing

open Grammar

/-! ## Definitions -/

/-- A call that reads with a cursor. -/
inductive Call where
  /-- Takes a token of a kind. -/
  | eat (kind : TokenKind)
  /-- Takes a token of a kind, and words the error otherwise. -/
  | expect (kind : TokenKind) (demand : Demand)
  | factor
  | term
  | expression
  /-- Reads an expression up to the end of the input. -/
  | complete
deriving DecidableEq

namespace Call

/-- What a call reads. A single token gives no tree. -/
def reading : Call → Parsing (Option Tree)
  | eat kind => (fun _ => none) <$> Parsing.eat kind
  | expect kind demand => (fun _ => none) <$> Parsing.expect kind demand
  | factor => some <$> Parsing.factor
  | term => some <$> Parsing.term
  | expression => some <$> Parsing.expression
  | complete => some <$> Parsing.complete

/-- The call takes the end of the input as a token. -/
def AsksForEnd : Call → Prop
  | eat kind | expect kind _ => kind = .endOfInput
  | _ => False

end Call

/-- The cursor after calls made one after the other, whether or not they gave something. -/
def cursorAfter (calls : List Call) (c : Cursor) : Cursor :=
  calls.foldl (fun c call => (call.reading.outcome c).2) c

/-- The cursor shows the token at its index or, past the end of the list, the last token; and behind
it are the tokens that follow its index in the list. -/
def StandsIn (tokens : List Token) (c : Cursor) : Prop :=
  (c.index < tokens.length ∧ tokens[c.index]? = some c.current ∨
    tokens.length ≤ c.index ∧ tokens.getLast? = some c.current) ∧
  c.rest = tokens.drop (c.index + 1)

/-- The token is not the end of the input. -/
def Inside (t : Token) : Prop := t.kind ≠ .endOfInput

/-- How far a call has gone that started at the cursor `c`, and over which tokens. -/
inductive Goes {α : Type} (takes : Token → Prop) (c : Cursor) :
    Except ParseError α × Cursor → Prop
  /-- The cursor stands on the token behind those that were taken. -/
  | on {ts : List Token} {c' : Cursor} {result : Except ParseError α}
      (ahead : c.ahead = ts ++ c'.ahead) (index : c'.index = c.index + ts.length)
      (taken : ∀ t ∈ ts, takes t) (found : result ≠ .error .exhausted) : Goes takes c (result, c')
  /-- All tokens were taken. The cursor still shows the last one. -/
  | off {ts : List Token} {t : Token} (ahead : c.ahead = ts ++ [t])
      (taken : ∀ u ∈ ts ++ [t], takes u) :
      Goes takes c (.error .exhausted, ⟨c.index + ts.length + 1, t, []⟩)

variable {α β : Type} {tokens pre : List Token} {takes : Token → Prop} {c : Cursor}

/-! ## One call -/

theorem outcome_map (f : α → β) (p : Parsing α) (c : Cursor) :
    (f <$> p).outcome c = ((p.outcome c).1.map f, (p.outcome c).2) := by
  rw [map_eq_pure_bind]
  rcases h : p.outcome c with ⟨_ | a, c'⟩
  · exact outcome_bind_of_error h
  · exact outcome_bind_of_ok h

theorem Goes.map {r : Except ParseError α × Cursor} (h : Goes takes c r) (f : α → β) :
    Goes takes c (r.1.map f, r.2) := by
  cases h with
  | @on _ _ result ahead index taken found =>
    refine .on ahead index taken ?_
    cases result with
    | ok a => exact nofun
    | error e => exact fun h => found (congrArg _ (Except.error.inj h))
  | off ahead taken => exact .off ahead taken

theorem advance_goes (h : takes c.current) : Goes takes c (advance.outcome c) := by
  obtain ⟨i, t, _ | ⟨t', rest⟩⟩ := c
  · have ahead : Cursor.ahead ⟨i, t, []⟩ = [] ++ [t] := rfl
    exact .off ahead (List.forall_mem_singleton.mpr h)
  · have ahead : Cursor.ahead ⟨i, t, t' :: rest⟩ = [t] ++ Cursor.ahead ⟨i + 1, t', rest⟩ := rfl
    exact .on ahead rfl (List.forall_mem_singleton.mpr h) nofun

/-- A call that is refused leaves the cursor where it was. -/
theorem stays {e : ParseError} (found : e ≠ .exhausted) :
    Goes takes c ((.error e : Except ParseError α), c) :=
  .on (List.nil_append _).symm rfl nofun fun h => found (Except.error.inj h)

theorem eat_refused {kind : TokenKind} (h : c.current.kind ≠ kind) :
    (eat kind).outcome c = (.error (.unexpected c.current), c) := by
  simp [eat, h]

theorem expect_refused {kind : TokenKind} (demand : Demand) (h : c.current.kind ≠ kind) :
    (expect kind demand).outcome c = (.error (.missing demand), c) := by
  simp [expect, h]

/-- A demand for a kind of token takes one of that kind or is refused. -/
theorem demand_goes {kind : TokenKind} {p : Parsing Unit} {e : ParseError} (found : e ≠ .exhausted)
    (taken : c.current.kind = kind → p.outcome c = advance.outcome c)
    (refused : c.current.kind ≠ kind → p.outcome c = (.error e, c)) :
    Goes (·.kind = kind) c (p.outcome c) := by
  by_cases h : c.current.kind = kind
  · rw [taken h]
    exact advance_goes h
  · rw [refused h]
    exact stays found

theorem eat_goes (kind : TokenKind) : Goes (·.kind = kind) c ((eat kind).outcome c) :=
  demand_goes ParseError.noConfusion (fun h => by simp [eat, h]) eat_refused

theorem expect_goes (kind : TokenKind) (demand : Demand) :
    Goes (·.kind = kind) c ((expect kind demand).outcome c) :=
  demand_goes ParseError.noConfusion (fun h => by simp [expect, h]) (expect_refused demand)

theorem Goes.mono {r : Except ParseError α × Cursor} {takes' : Token → Prop} (h : Goes takes c r)
    (le : ∀ t, takes t → takes' t) : Goes takes' c r := by
  cases h with
  | on ahead index taken found => exact .on ahead index (fun t ht => le t (taken t ht)) found
  | off ahead taken => exact .off ahead fun t ht => le t (taken t ht)

theorem inside_of_begun {p : Phrase} {ts : List Token} (h : Begun (Reads p) ts) :
    ∀ t ∈ ts, Inside t := by
  obtain ⟨more, tree, d, hd, -⟩ := h
  exact Begins.kind_ne_endOfInput ⟨d, more, hd⟩

theorem failure_goes {limit : Nat} {q : Position} {p : Phrase} {e : ParseError} {c' : Cursor}
    (h : Failure limit q (Begun (Reads p)) c e c') :
    Goes Inside c ((.error e : Except ParseError Tree), c') := by
  cases h with
  | @refused ts place c' moved passed room refused complaint =>
    have found : place.refusal c'.current ≠ .exhausted := by
      intro h
      rw [h] at complaint
      cases complaint
    exact .on moved.ahead moved.index (inside_of_begun passed) fun h => found (Except.error.inj h)
  | @exhausted ts place i t moved passed room =>
    obtain rfl : i = c.index + ts.length := moved.index
    exact .off moved.ahead (inside_of_begun passed)
  | tooDeep moved passed deep => exact .on moved.ahead moved.index (inside_of_begun passed) nofun

/-- Reading a phrase goes over no end of the input. -/
theorem outcome_goes {limit : Nat} {q : Position} {p : Phrase} {goesOn : TokenKind → Bool}
    {r : Except ParseError Tree × Cursor} (h : Outcome limit q (Reads p) goesOn c r) :
    Goes Inside c r := by
  cases h with
  | @done ts tree c' moved read room stops =>
    have begun : Begun (Reads p) ts := ⟨[], tree, by rwa [List.append_nil]⟩
    exact .on moved.ahead moved.index (inside_of_begun begun) nofun
  | failed failure => exact failure_goes failure

theorem verdict_goes {limit : Nat} {r : Except ParseError Tree × Cursor} (h : Verdict limit c r) :
    Goes Inside c r := by
  cases h with
  | sentence moved ends =>
    exact .on moved.ahead moved.index (begins_tokens _).kind_ne_endOfInput nofun
  | trailing moved refused =>
    exact .on moved.ahead moved.index (begins_tokens _).kind_ne_endOfInput nofun
  | failed failure => exact failure_goes failure

/-- A call goes over some of the tokens ahead, and over an end of the input only if it asks for one. -/
theorem Call.goes (call : Call) (c : Cursor) :
    Goes (fun t => t.kind = .endOfInput → call.AsksForEnd) c (call.reading.outcome c) := by
  have phrase {r : Except ParseError Tree × Cursor} (h : Goes Inside c r) :
      Goes (fun t => t.kind = .endOfInput → False) c (r.1.map some, r.2) := h.map some
  have factor (c : Cursor) : Outcome depthLimit Position.start (Reads .factor)
      Phrase.factor.continues c (Parsing.factor.outcome c) :=
    factorWithin_outcome depthLimit (Nat.zero_add _) c
  cases call <;> rw [reading, outcome_map]
  case eat kind => exact ((eat_goes kind).map _).mono fun t ht hend => ht.symm.trans hend
  case expect kind demand =>
    exact ((expect_goes kind demand).map _).mono fun t ht hend => ht.symm.trans hend
  case factor => exact phrase (outcome_goes (factor c))
  case term => exact phrase (outcome_goes (chain_outcome .product (Nat.zero_le _) factor c))
  case expression => exact phrase (outcome_goes (expression_outcome depthLimit c))
  case complete => exact phrase (verdict_goes (completeWithin_verdict depthLimit c))

/-! ## Where the cursor stands -/

/-- The tokens `pre` of the list were taken. The index counts them, or past the end it counts more. -/
structure Behind (tokens pre : List Token) (c : Cursor) : Prop where
  split : tokens = pre ++ c.ahead
  index : c.index = pre.length ∨ pre.length < c.index ∧ c.rest = []

theorem Behind.standsIn (h : Behind tokens pre c) : StandsIn tokens c := by
  obtain ⟨i, t, rest⟩ := c
  obtain ⟨rfl, index⟩ := h
  rcases index with rfl | ⟨beyond, rfl⟩
  · exact ⟨.inl ⟨by simp [Cursor.ahead], by simp [Cursor.ahead]⟩, by simp [Cursor.ahead]⟩
  · have long : (pre ++ [t]).length ≤ i := by
      rw [List.length_append]
      exact beyond
    exact ⟨.inr ⟨long, List.getLast?_concat⟩,
      (List.drop_of_length_le (Nat.le_succ_of_le long)).symm⟩

/-- Wherever a call starts in the list, it ends in it and not before. -/
theorem Goes.behind {r : Except ParseError α × Cursor} (goes : Goes takes c r)
    (h : Behind tokens pre c) : ∃ pre', Behind tokens pre' r.2 := by
  obtain ⟨split, index⟩ := h
  cases goes with
  | @on ts c' result ahead hindex taken found =>
    refine ⟨pre ++ ts, by rw [split, ahead, List.append_assoc], ?_⟩
    rcases index with index | ⟨beyond, last⟩
    · exact .inl (by rw [hindex, index, List.length_append])
    · -- there is one token ahead only, and the cursor stays on it
      have hlength := congrArg List.length ahead
      simp only [Cursor.ahead, last, List.length_append, List.length_cons, List.length_nil] at hlength
      have hrest : c'.rest = [] := List.eq_nil_of_length_eq_zero (by omega)
      exact .inr ⟨by rw [hindex, List.length_append]; omega, hrest⟩
  | @off ts t ahead taken =>
    refine ⟨pre ++ ts, by rw [split, ahead, List.append_assoc]; rfl, .inr ⟨?_, rfl⟩⟩
    rw [List.length_append]
    show pre.length + ts.length < c.index + ts.length + 1
    omega

theorem Goes.index_le {r : Except ParseError α × Cursor} (goes : Goes takes c r) :
    c.index ≤ r.2.index := by
  cases goes with
  | on ahead index taken found => exact index ▸ Nat.le_add_right _ _
  | off ahead taken => exact Nat.le_add_right _ (_ + 1)

/-! ## The end of the input -/

/-- No end of the input was taken. -/
structure Before (tokens pre : List Token) (c : Cursor) : Prop where
  split : tokens = pre ++ c.ahead
  index : c.index = pre.length
  inside : ∀ t ∈ pre, Inside t

/-- The first end of the input is not before the cursor. -/
theorem Before.index_le (h : Before tokens pre c) : c.index ≤ (beforeEnd tokens).length := by
  have inside : ∀ t ∈ pre, decide (t.kind ≠ .endOfInput) = true := fun t ht =>
    decide_eq_true (h.inside t ht)
  rw [h.index, h.split, beforeEnd, List.takeWhile_append_of_pos inside, List.length_append]
  exact Nat.le_add_right _ _

/-- If the input ends with the last token, what takes no end of the input does not come past it. -/
theorem Goes.before {last : Token} {r : Except ParseError α × Cursor} (goes : Goes Inside c r)
    (hlast : tokens.getLast? = some last) (hend : last.kind = .endOfInput)
    (h : Before tokens pre c) :
    r.1 ≠ .error .exhausted ∧ ∃ pre', Before tokens pre' r.2 := by
  cases goes with
  | @on ts c' result ahead hindex taken found =>
    refine ⟨found, pre ++ ts, by rw [h.split, ahead, List.append_assoc], ?_, ?_⟩
    · rw [hindex, h.index, List.length_append]
    · exact List.forall_mem_append.mpr ⟨h.inside, taken⟩
  | @off ts t ahead taken =>
    rw [h.split, ahead, ← List.append_assoc, List.getLast?_concat] at hlast
    cases hlast
    exact absurd hend (taken _ (List.mem_append_right _ List.mem_cons_self))

/-! ## Any number of calls -/

theorem behind_start {start : Cursor} (h : Cursor.start? tokens = some start) :
    Behind tokens [] start ∧ Before tokens [] start := by
  cases tokens with
  | nil => cases h
  | cons t ts =>
    cases h
    exact ⟨⟨rfl, .inl rfl⟩, ⟨rfl, rfl, nofun⟩⟩

theorem behind_after (calls : List Call) (h : Behind tokens pre c) :
    ∃ pre', Behind tokens pre' (cursorAfter calls c) := by
  induction calls generalizing pre c with
  | nil => exact ⟨pre, h⟩
  | cons call calls ih =>
    obtain ⟨pre', h'⟩ := (call.goes c).behind h
    exact ih h'

theorem Call.goes_inside {call : Call} (h : ¬ call.AsksForEnd) (c : Cursor) :
    Goes Inside c (call.reading.outcome c) :=
  (call.goes c).mono fun _ ht hend => h (ht hend)

theorem before_after {last : Token} {calls : List Call} (hlast : tokens.getLast? = some last)
    (hend : last.kind = .endOfInput) (inside : ∀ call ∈ calls, ¬ call.AsksForEnd)
    (h : Before tokens pre c) : ∃ pre', Before tokens pre' (cursorAfter calls c) := by
  induction calls generalizing pre c with
  | nil => exact ⟨pre, h⟩
  | cons call calls ih =>
    obtain ⟨head, tail⟩ := List.forall_mem_cons.mp inside
    obtain ⟨-, pre', h'⟩ := (Call.goes_inside head c).before hlast hend h
    exact ih tail h'

/-- After any calls, whether or not they failed, the cursor shows the token at its index or, past the
end, the last token. The index never falls, and a token that is refused leaves the cursor as it is.
If the input ends with the last token and no call asks for the end of the input, then the index stays
at most at the first end of the input, and no call comes to the end of the list. -/
theorem cursor_stays_in_list {tokens : List Token} {start : Cursor}
    (hstart : Cursor.start? tokens = some start) (calls : List Call) :
    StandsIn tokens (cursorAfter calls start) ∧
    (∀ call : Call,
      (cursorAfter calls start).index ≤ (cursorAfter (calls ++ [call]) start).index) ∧
    (∀ kind, (cursorAfter calls start).current.kind ≠ kind →
      (eat kind).outcome (cursorAfter calls start) =
          (.error (.unexpected (cursorAfter calls start).current), cursorAfter calls start) ∧
        ∀ demand, (expect kind demand).outcome (cursorAfter calls start) =
          (.error (.missing demand), cursorAfter calls start)) ∧
    ∀ last, tokens.getLast? = some last → last.kind = .endOfInput →
      (∀ call ∈ calls, ¬ call.AsksForEnd) →
        (cursorAfter calls start).index ≤ (beforeEnd tokens).length ∧
        ∀ call : Call, ¬ call.AsksForEnd →
          (call.reading.outcome (cursorAfter calls start)).1 ≠ .error .exhausted := by
  obtain ⟨behind, before⟩ := behind_start hstart
  refine ⟨?_, fun call => ?_, fun kind hkind => ⟨eat_refused hkind, fun demand => ?_⟩, ?_⟩
  · obtain ⟨pre, h⟩ := behind_after calls behind
    exact h.standsIn
  · rw [cursorAfter, cursorAfter, List.foldl_append]
    exact (call.goes _).index_le
  · exact expect_refused demand hkind
  · intro last hlast hend inside
    obtain ⟨pre, h⟩ := before_after hlast hend inside before
    exact ⟨h.index_le, fun call hcall => ((Call.goes_inside hcall _).before hlast hend h).1⟩

/-- A bracket that is not closed: reading it fails at the end of the input, and there the cursor stays
whatever is asked for next, unless it is the end of the input. -/
theorem cursor_after_unclosed_bracket :
    let opening : Token := ⟨.openParen, "(", none⟩
    let number : Token := ⟨.number, "1", some (.real 1.0)⟩
    let start : Cursor := ⟨0, opening, [number, .endOfInput]⟩
    let calls : List Call := [.complete, .eat .number, .factor]
    Cursor.start? [opening, number, .endOfInput] = some start ∧
      (cursorAfter calls start).current = .endOfInput ∧
      StandsIn [opening, number, .endOfInput] (cursorAfter calls start) ∧
      (cursorAfter calls start).index ≤ 2 ∧
      ∀ call : Call, ¬ call.AsksForEnd →
        (call.reading.outcome (cursorAfter calls start)).1 ≠ .error .exhausted := by
  intro opening number start calls
  have inside : ∀ call ∈ calls, ¬ call.AsksForEnd := by
    simp [calls, Call.AsksForEnd]
  obtain ⟨stands, -, -, within⟩ :=
    cursor_stays_in_list (rfl : Cursor.start? [opening, number, .endOfInput] = some start) calls
  obtain ⟨index_le, found⟩ := within .endOfInput rfl rfl inside
  exact ⟨rfl, rfl, stands, index_le, found⟩

end Parsing

end Calculator
