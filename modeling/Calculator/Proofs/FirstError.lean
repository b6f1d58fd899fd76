import Calculator.Proofs.Reading

/-!
# The error that is reported

Reading stops at the first token that fits nowhere, and the error says what the grammar waited for
there. Whether and how reading fails is decided by the positions alone: `firstError` goes along the
tokens without making a tree.

Results:
1. `ofTokensWithin_eq_error_iff`: an error is the first one along the tokens.
2. `reported_iff`: what the grammar waits for behind some tokens decides the error.
3. `error_is_leftmost`: the tokens before a reported error can be completed, and those up to it
   cannot.
-/

namespace Calculator

namespace Grammar

open Parsing Position

/-! ## The first error along the tokens -/

/-- The error that stops the reading of the tokens at a position, none if the end of the input
stands behind a complete expression. -/
def firstError (limit : Nat) : Position → List Token → Option ParseError
  | _, [] => some .exhausted
  | q, t :: ts =>
      if limit < q.brackets.length then some .tooDeep
      else match q.next t.kind with
        | some q' => firstError limit q' ts
        | none =>
            if q = ⟨.continuation, []⟩ ∧ t.kind = .endOfInput then none else some (q.refusal t)

variable {limit : Nat} {q q' place : Position} {c c' : Cursor} {ts before : List Token} {t : Token}
  {e : ParseError}

theorem firstError_append (reached : q.after ts = some place) (within : q.StaysWithin limit ts)
    (us : List Token) : firstError limit q (ts ++ us) = firstError limit place us := by
  induction ts generalizing q with
  | nil =>
    cases reached
    rfl
  | cons t ts ih =>
    obtain ⟨q', hnext, hplace⟩ := exists_of_after_cons reached
    rw [List.cons_append, firstError, if_neg (Nat.not_lt.mpr within.1), hnext]
    exact ih hplace (within.2 q' hnext)

theorem Moved.firstError_eq (h : Moved limit q c ts place c') :
    firstError limit q c.ahead = firstError limit place c'.ahead := by
  rw [h.ahead]
  exact firstError_append h.reached h.within _

theorem firstError_of_refuses {us : List Token} (room : q.brackets.length ≤ limit)
    (refused : q.Refuses t.kind) : firstError limit q (t :: us) = some (q.refusal t) := by
  rw [firstError, if_neg (Nat.not_lt.mpr room), refused.1]
  exact if_neg fun h => refused.2 h.1 h.2

/-- The end of the input behind a complete expression is no error. -/
theorem firstError_end {us : List Token} (hend : t.kind = .endOfInput) :
    firstError limit ⟨.continuation, []⟩ (t :: us) = none := by
  rw [firstError, hend, next_endOfInput]
  rfl

/-- Behind an end of the input nothing is looked at. -/
theorem firstError_cut (hend : t.kind = .endOfInput) (us us' : List Token) :
    firstError limit q (ts ++ t :: us) = firstError limit q (ts ++ t :: us') := by
  induction ts generalizing q with
  | nil => simp only [List.nil_append, firstError, hend, next_endOfInput]
  | cons t' ts ih =>
    simp only [List.cons_append, firstError]
    split
    · rfl
    · split
      · exact ih
      · rfl

/-- The beginning of an expression is a place to stand on. -/
theorem Begun.exists_after (h : Begun (Reads .expression) ts) :
    ∃ place, start.after ts = some place := by
  obtain ⟨more, tree, d, hd, -⟩ := h
  exact Begins.exists_after ⟨d, more, hd⟩

theorem Failure.firstError_eq
    (h : Failure limit start (Begun (Reads .expression)) c e c') :
    firstError limit start c.ahead = some e := by
  cases h with
  | refused moved _ room refused _ =>
    rw [moved.firstError_eq]
    exact firstError_of_refuses room refused
  | @exhausted ts place i t moved passed room =>
    obtain ⟨place', hplace'⟩ := passed.exists_after
    rw [after_append, moved.reached] at hplace'
    obtain ⟨q', hnext, -⟩ := exists_of_after_cons (show place.after [t] = _ from hplace')
    rw [moved.firstError_eq]
    simp only [Cursor.ahead, firstError, if_neg (Nat.not_lt.mpr room), hnext]
  | tooDeep moved _ deep =>
    rw [moved.firstError_eq]
    exact if_pos (by omega)

/-- What the reading of tokens comes to, unless there are none to read. -/
theorem exists_verdict {tokens : List Token} {result : Except ParseError Tree}
    (h : Tree.ofTokensWithin limit tokens = result) (found : result ≠ .error .exhausted) :
    ∃ c c' : Cursor, c.ahead = tokens ∧ Verdict limit c (result, c') := by
  cases tokens with
  | nil => exact absurd h.symm found
  | cons t ts =>
    have verdict := completeWithin_verdict limit ⟨0, t, ts⟩
    rw [show (completeWithin limit).outcome ⟨0, t, ts⟩ = (result, _) from Prod.ext h rfl] at verdict
    exact ⟨_, _, rfl, verdict⟩

/-- Whether reading fails, and how, is said by the first error. -/
theorem Verdict.firstError_eq {result : Except ParseError Tree × Cursor}
    (h : Verdict limit c result) :
    firstError limit start c.ahead =
      match result.1 with
      | .ok _ => none
      | .error e => some e := by
  cases h with
  | sentence moved ends =>
    rw [moved.firstError_eq]
    exact firstError_end ends
  | trailing moved refused =>
    rw [moved.firstError_eq]
    exact firstError_of_refuses (Nat.zero_le _) refused
  | failed failure => exact failure.firstError_eq

/-- An error is the first one along the tokens. -/
theorem ofTokensWithin_eq_error_iff {tokens : List Token} :
    Tree.ofTokensWithin limit tokens = .error e ↔ firstError limit start tokens = some e := by
  cases tokens with
  | nil =>
    simp only [Tree.ofTokensWithin, Cursor.start?, firstError, Except.error.injEq, Option.some.injEq]
  | cons t ts =>
    have h := (completeWithin_verdict limit ⟨0, t, ts⟩).firstError_eq
    rw [Cursor.ahead] at h
    rw [h, show Tree.ofTokensWithin limit (t :: ts) =
      ((completeWithin limit).outcome ⟨0, t, ts⟩).1 from rfl]
    cases ((completeWithin limit).outcome ⟨0, t, ts⟩).1 <;> simp

/-! ## What is reported -/

/-- The error `e` is what is to be said of the token `t` behind the tokens `before`: what the grammar
waits for there is missing, or nothing more may follow a complete expression. -/
def Reported (before : List Token) (t : Token) (e : ParseError) : Prop :=
  Complaint (Begun (Reads .expression)) before t e ∨
    (∃ d : Derivation .expression, d.tokens = before) ∧ e = .unexpected t

/-- Where a number may follow, a factor is awaited. -/
theorem exists_of_begun_number {outer : List Token}
    (h : ∀ number : Token, number.kind = .number → Begun (Reads .expression) (outer ++ [number])) :
    ∃ brackets, start.after outer = some ⟨.factor, brackets⟩ := by
  obtain ⟨place, hplace⟩ := (h (someToken .number) rfl).exists_after
  obtain ⟨⟨awaited, brackets⟩, hq, hnext⟩ := exists_of_after_append hplace
  obtain ⟨q', hnext, -⟩ := exists_of_after_cons hnext
  refine ⟨brackets, hq.trans ?_⟩
  cases awaited with
  | factor => rfl
  | opening => cases hnext
  | continuation =>
    cases brackets with
    | nil => cases hnext
    | cons b _ => cases b <;> cases hnext

/-- The name of a function stands where a factor is awaited. -/
theorem next_function (h : q.next .function = some q') :
    ∃ brackets, q = ⟨.factor, brackets⟩ ∧ q' = ⟨.opening, brackets⟩ := by
  obtain ⟨awaited, brackets⟩ := q
  cases awaited with
  | factor =>
    cases h
    exact ⟨brackets, rfl, rfl⟩
  | opening => cases h
  | continuation =>
    cases brackets with
    | nil => cases h
    | cons b _ => cases b <;> cases h

/-- Behind the parenthesis of a call, whatever the place before. -/
theorem after_call {name opening : Token} (isName : name.kind = .function)
    (isOpening : opening.kind = .openParen) (h : q.after (name :: opening :: ts) = some place) :
    ∃ brackets, (⟨.factor, .call :: brackets⟩ : Position).after ts = some place := by
  obtain ⟨q₁, hname, h⟩ := exists_of_after_cons h
  rw [isName] at hname
  obtain ⟨brackets, -, rfl⟩ := next_function hname
  obtain ⟨q₂, hopening, h⟩ := exists_of_after_cons h
  rw [isOpening] at hopening
  cases hopening
  exact ⟨brackets, h⟩

/-- What the grammar waits for is a matter of the position. -/
theorem Complaint.eq_refusal (h : Complaint (Begun (Reads .expression)) before t e)
    (reached : start.after before = some place) : e = place.refusal t := by
  -- each complaint says what stands before the token, and the position follows from that
  cases h with
  | factor starts =>
    obtain ⟨brackets, hplace⟩ := exists_of_begun_number starts
    rw [reached] at hplace
    cases hplace
    rfl
  | opening split isName =>
    rw [split] at reached
    obtain ⟨q, -, reached⟩ := exists_of_after_append reached
    obtain ⟨q', hname, reached⟩ := exists_of_after_cons reached
    rw [isName] at hname
    obtain ⟨brackets, -, rfl⟩ := next_function hname
    cases reached
    rfl
  | @group outer opening inner split isOpening starts =>
    obtain ⟨brackets, houter⟩ := exists_of_begun_number starts
    rw [split, after_append, houter] at reached
    obtain ⟨q, hopening, reached⟩ := exists_of_after_cons
      (show (⟨.factor, brackets⟩ : Position).after (opening :: inner.tokens) = _ from reached)
    rw [isOpening] at hopening
    cases hopening
    rw [inner.after_tokens] at reached
    cases reached
    rfl
  | call split isName isOpening =>
    rw [split] at reached
    obtain ⟨q, -, reached⟩ := exists_of_after_append reached
    obtain ⟨brackets, reached⟩ := after_call isName isOpening reached
    rw [Derivation.after_tokens] at reached
    cases reached
    rfl
  | callPair split isName isOpening isComma =>
    rw [split] at reached
    obtain ⟨q, -, reached⟩ := exists_of_after_append reached
    obtain ⟨brackets, reached⟩ := after_call isName isOpening reached
    rw [after_append, Derivation.after_tokens] at reached
    obtain ⟨q', hcomma, reached⟩ := exists_of_after_cons reached
    rw [isComma] at hcomma
    cases hcomma
    rw [Derivation.after_tokens] at reached
    cases reached
    rfl

theorem Reported.eq_refusal (h : Reported before t e) (reached : start.after before = some place) :
    e = place.refusal t := by
  rcases h with complaint | ⟨⟨d, rfl⟩, rfl⟩
  · exact complaint.eq_refusal reached
  · rw [d.after_start] at reached
    cases reached
    rfl

/-- The tokens before a refused one decide the error. -/
theorem reported_iff (reached : start.after before = some place)
    (reported : Reported before t (place.refusal t)) (e : ParseError) :
    Reported before t e ↔ e = place.refusal t := by
  constructor
  · intro h
    exact h.eq_refusal reached
  · rintro rfl
    exact reported

/-! ## Completing the tokens -/

/-- The tokens can be completed to an expression with the end of the input behind it. -/
def Completable (ts : List Token) : Prop :=
  ∃ (more : List Token) (d : Derivation .expression) (last : Token),
    last.kind = .endOfInput ∧ ts ++ more = d.tokens ++ [last]

theorem Begun.completable (h : Begun (Reads .expression) ts) : Completable ts := by
  obtain ⟨more, tree, d, hd, -⟩ := h
  refine ⟨more ++ [someToken .endOfInput], d, someToken .endOfInput, rfl, ?_⟩
  rw [hd, List.append_assoc]

theorem Completable.shorten {us : List Token} (h : Completable us) (hts : ts <+: us) :
    Completable ts := by
  obtain ⟨behind, rfl⟩ := hts
  obtain ⟨more, d, last, hlast, same⟩ := h
  exact ⟨behind ++ more, d, last, hlast, by rw [← List.append_assoc, same]⟩

/-- What can be completed is the beginning of an expression, or a whole one with the end of the input
behind it. -/
theorem Completable.cases (h : Completable ts) :
    Begins .expression ts ∨
      ∃ (d : Derivation .expression) (last : Token),
        last.kind = .endOfInput ∧ ts = d.tokens ++ [last] := by
  obtain ⟨more, d, last, hlast, same⟩ := h
  rcases List.eq_nil_or_concat more with rfl | ⟨more, last', rfl⟩
  · rw [List.append_nil] at same
    exact .inr ⟨d, last, hlast, same⟩
  · rw [List.concat_eq_append, ← List.append_assoc] at same
    exact .inl ⟨d, more, (List.append_inj' same rfl).1.symm⟩

/-- A token that is refused cannot be saved by what follows. -/
theorem not_completable_of_refuses (reached : start.after ts = some place)
    (refused : place.Refuses t.kind) : ¬ Completable (ts ++ [t]) := by
  intro h
  rcases h.cases with begins | ⟨d, last, hlast, same⟩
  · exact not_begins_of_refused reached refused.1 [] begins
  · -- the refused token would be the end of the input
    obtain ⟨rfl, htoken⟩ := List.append_inj' same rfl
    cases htoken
    rw [d.after_start] at reached
    cases reached
    exact refused.2 rfl hlast

/-! ## The leftmost error -/

/-- The reading of the tokens has ended with the error `e` at the cursor `c`, and no earlier or
later: the tokens before it can be completed, and those up to it cannot. -/
structure IsLeftmostError (tokens : List Token) (e : ParseError) (c : Cursor) : Prop where
  current : tokens[c.index]? = some c.current
  completable : Completable (tokens.take c.index)
  hopeless : ¬ Completable (tokens.take (c.index + 1))
  reported : ∀ e', Reported (tokens.take c.index) c.current e' ↔ e' = e

/-- A token that is refused behind the beginning of an expression is the leftmost error. -/
theorem Moved.isLeftmostError {t₀ : Token} {rest₀ : List Token}
    (moved : Moved limit start ⟨0, t₀, rest₀⟩ ts place c) (passed : Begun (Reads .expression) ts)
    (refused : place.Refuses c.current.kind)
    (reported : Reported ts c.current (place.refusal c.current)) :
    IsLeftmostError (t₀ :: rest₀) (place.refusal c.current) c := by
  have split : t₀ :: rest₀ = ts ++ c.current :: c.rest := moved.ahead
  have index : c.index = ts.length := moved.index.trans (Nat.zero_add _)
  have htake : (t₀ :: rest₀).take c.index = ts := by
    rw [split, index, List.take_left]
  have htake' : (t₀ :: rest₀).take (c.index + 1) = ts ++ [c.current] := by
    rw [split, index, List.take_length_add_append]
    rfl
  refine ⟨?_, ?_, ?_, ?_⟩
  · rw [split, index, List.getElem?_append_right (Nat.le_refl _), Nat.sub_self]
    rfl
  · rw [htake]
    exact passed.completable
  · rw [htake']
    exact not_completable_of_refuses moved.reached refused
  · rw [htake]
    exact reported_iff moved.reached reported

theorem begins_iff_begun : Begins .expression ts ↔ Begun (Reads .expression) ts := by
  constructor
  · rintro ⟨d, more, h⟩
    exact ⟨more, d.tree, d, h, rfl⟩
  · rintro ⟨more, tree, d, h, -⟩
    exact ⟨d, more, h⟩

/-- Why reading fails, in three kinds. -/
theorem Failure.cases {t₀ : Token} {rest₀ : List Token}
    (h : Failure limit start (Begun (Reads .expression)) ⟨0, t₀, rest₀⟩ e c) :
    (e = .tooDeep ∧ ¬ NestsWithin limit (t₀ :: rest₀)) ∨
      (e = .exhausted ∧ Begins .expression (t₀ :: rest₀)) ∨
        IsLeftmostError (t₀ :: rest₀) e c := by
  cases h with
  | refused moved passed _ refused complaint =>
    exact .inr (.inr (moved.isLeftmostError passed refused (.inl complaint)))
  | exhausted moved passed _ =>
    refine .inr (.inl ⟨rfl, begins_iff_begun.mpr ?_⟩)
    rw [show t₀ :: rest₀ = _ from moved.ahead]
    exact passed
  | tooDeep moved _ deep =>
    refine .inl ⟨rfl, ?_⟩
    rw [show t₀ :: rest₀ = _ from moved.ahead]
    exact not_nestsWithin moved.reached deep

/-- Whatever error comes out of reading the whole input, it is of one of three kinds. -/
theorem error_cases {t₀ : Token} {rest₀ : List Token}
    (h : (completeWithin limit).outcome ⟨0, t₀, rest₀⟩ = (.error e, c)) :
    (e = .tooDeep ∧ ¬ NestsWithin limit (t₀ :: rest₀)) ∨
      (e = .exhausted ∧ Begins .expression (t₀ :: rest₀)) ∨
        IsLeftmostError (t₀ :: rest₀) e c := by
  have verdict := completeWithin_verdict limit ⟨0, t₀, rest₀⟩
  rw [h] at verdict
  cases verdict with
  | trailing moved refused =>
    refine .inr (.inr (moved.isLeftmostError ?_ refused (.inr ⟨⟨_, rfl⟩, rfl⟩)))
    exact begins_iff_begun.mp (begins_tokens _)
  | failed failure => exact failure.cases

theorem Reported.ne_exhausted : ¬ Reported before t .exhausted := by
  rintro (complaint | ⟨-, h⟩)
  · cases complaint
  · cases h

/-- Without an end of the input there is no tree. -/
theorem ofTokensWithin_ne_ok {tokens : List Token} (endless : ∀ t ∈ tokens, t.kind ≠ .endOfInput)
    (tree : Tree) : Tree.ofTokensWithin limit tokens ≠ .ok tree := by
  intro h
  obtain ⟨c, c', ahead, verdict⟩ := exists_verdict h nofun
  cases verdict with
  | sentence moved ends =>
    refine endless _ ?_ ends
    rw [← ahead, moved.ahead]
    exact List.mem_append_right _ List.mem_cons_self

/-- Reading never passes an end of the input, so its errors are the leftmost ones or come from
nesting. -/
theorem tooDeep_or_leftmost {tokens : List Token} (ended : ∃ t ∈ tokens, t.kind = .endOfInput)
    (h : Tree.ofTokensWithin limit tokens = .error e) :
    (e = .tooDeep ∧ ¬ NestsWithin limit tokens) ∨ ∃ c, IsLeftmostError tokens e c := by
  obtain ⟨last, member, hend⟩ := ended
  cases tokens with
  | nil => cases member
  | cons t₀ rest₀ =>
    have hresult : (completeWithin limit).outcome ⟨0, t₀, rest₀⟩ = (.error e, _) := Prod.ext h rfl
    rcases error_cases hresult with deep | ⟨-, begins⟩ | leftmost
    · exact .inl deep
    · exact absurd hend (begins.kind_ne_endOfInput last member)
    · exact .inr ⟨_, leftmost⟩

theorem ofTokensWithin_ne_exhausted {tokens : List Token} (ended : ∃ t ∈ tokens, t.kind = .endOfInput) :
    Tree.ofTokensWithin limit tokens ≠ .error .exhausted := by
  intro h
  rcases tooDeep_or_leftmost ended h with ⟨deep, -⟩ | ⟨c, leftmost⟩
  · cases deep
  · exact Reported.ne_exhausted ((leftmost.reported _).mpr rfl)

/-- An error in the reading of tokens is the leftmost one, unless they are exhausted or nested too
deeply. It depends on the tokens before it alone: where a factor must start it shows the token;
behind the name of a function the opening parenthesis is missing; behind a complete expression the
innermost open bracket decides. Tokens without an end of the input are never read as a tree, and
they are exhausted if and only if they can be completed. -/
theorem error_is_leftmost (t₀ : Token) (rest₀ : List Token) :
    (∀ e c, Parsing.complete.outcome ⟨0, t₀, rest₀⟩ = (.error e, c) →
      (e = .tooDeep ∧ ¬ NestsWithin depthLimit (t₀ :: rest₀)) ∨
        (e = .exhausted ∧ Begins .expression (t₀ :: rest₀)) ∨
          IsLeftmostError (t₀ :: rest₀) e c) ∧
    ((∀ t ∈ t₀ :: rest₀, t.kind ≠ .endOfInput) →
      (∀ tree, Tree.ofTokens (t₀ :: rest₀) ≠ .ok tree) ∧
        (NestsWithin depthLimit (t₀ :: rest₀) →
          (Tree.ofTokens (t₀ :: rest₀) = .error .exhausted ↔
            Begins .expression (t₀ :: rest₀)))) ∧
    Demand.closing.message = "Expected closing parenthesis ')'" ∧
    Demand.callOpening.message =
      "The provided expression is malformed! An opening parenthesis is missing!" ∧
    Demand.callClosing.message =
      "The expression provided is malformed! A closing parenthesis is missing!" := by
  have three {e : ParseError} {c : Cursor}
      (h : Parsing.complete.outcome ⟨0, t₀, rest₀⟩ = (.error e, c)) := error_cases h
  refine ⟨fun e c => three, fun endless => ⟨ofTokensWithin_ne_ok endless, fun shallow => ?_⟩, rfl, rfl, rfl⟩
  rw [show Tree.ofTokens (t₀ :: rest₀) = (Parsing.complete.outcome ⟨0, t₀, rest₀⟩).1 from rfl]
  constructor
  · intro h
    rcases three (Prod.ext h rfl) with ⟨h, -⟩ | ⟨-, begins⟩ | leftmost
    · cases h
    · exact begins
    · exact absurd ((leftmost.reported _).mpr rfl) Reported.ne_exhausted
  · intro begins
    rcases hresult : Parsing.complete.outcome ⟨0, t₀, rest₀⟩ with ⟨_ | tree, c⟩
    · rcases three hresult with ⟨-, deep⟩ | ⟨rfl, -⟩ | leftmost
      · exact absurd shallow deep
      · rfl
      · refine absurd ?_ leftmost.hopeless
        rw [← List.take_append_drop (c.index + 1) (t₀ :: rest₀)] at begins
        exact (begins_iff_begun.mp begins.of_append).completable
    · exact absurd (congrArg Prod.fst hresult) (ofTokensWithin_ne_ok endless tree)

end Grammar

end Calculator
