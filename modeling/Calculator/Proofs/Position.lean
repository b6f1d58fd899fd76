import Calculator.Proofs.Grammar

/-!
# Positions in an expression

A position says what the grammar waits for behind the tokens up to there: a factor, the parenthesis
behind the name of a function, or the continuation of a complete expression; and which brackets are
open. `Position.next` moves on by one token and refuses a token that cannot stand there, and
`Position.refusal` is the error for such a token.

A position is a function of the tokens before it, so it also shows that a token that is refused
cannot be saved by what follows.

Results:
1. `Derivation.after_tokens`: a phrase leads from where a factor is awaited to where it may go on,
   with the same brackets open.
2. `Begins.exists_after`: no token of the beginning of an expression is refused.
3. `after_brackets`: how many brackets are open is a matter of counting parentheses.
-/

namespace Calculator

namespace Grammar

/-! ## Definitions -/

/-- An open bracket. -/
inductive Bracket where
  /-- A parenthesis around an expression. -/
  | group
  /-- The parenthesis of a call that may still get a second argument. -/
  | call
  /-- The parenthesis of a call that stands in its second argument. -/
  | lastArgument
deriving DecidableEq

/-- What the grammar waits for. -/
inductive Awaited where
  /-- The first token of a factor. -/
  | factor
  /-- The parenthesis behind the name of a function. -/
  | opening
  /-- What may follow a complete expression. -/
  | continuation
deriving DecidableEq

/-- A place in an expression: what the grammar waits for there, and the open brackets, the innermost
one first. -/
structure Position where
  awaited : Awaited
  brackets : List Bracket
deriving DecidableEq

namespace Position

/-- The place before the first token. -/
def start : Position := ⟨.factor, []⟩

/-- The place behind a further token, none if the token cannot stand here. -/
def next : Position → TokenKind → Option Position
  | ⟨.factor, brackets⟩, .number => some ⟨.continuation, brackets⟩
  | ⟨.factor, brackets⟩, .openParen => some ⟨.factor, .group :: brackets⟩
  | ⟨.factor, brackets⟩, .function => some ⟨.opening, brackets⟩
  | ⟨.opening, brackets⟩, .openParen => some ⟨.factor, .call :: brackets⟩
  | ⟨.continuation, .call :: brackets⟩, .comma => some ⟨.factor, .lastArgument :: brackets⟩
  | ⟨.continuation, _ :: brackets⟩, .closeParen => some ⟨.continuation, brackets⟩
  | ⟨.continuation, brackets⟩, kind =>
      if Phrase.expression.continues kind then some ⟨.factor, brackets⟩ else none
  | _, _ => none

/-- The place behind a list of tokens, none if one of them cannot stand where it stands. -/
def after (q : Position) (ts : List Token) : Option Position :=
  ts.foldlM (fun q t => q.next t.kind) q

/-- No token of the kind can stand here, nor does the input end here with it. -/
def Refuses (q : Position) (kind : TokenKind) : Prop :=
  q.next kind = none ∧ (q = ⟨.continuation, []⟩ → kind ≠ .endOfInput)

/-- The error for a token that is refused. Where a factor or the parenthesis of a call is awaited,
that alone decides; behind a complete expression it is the innermost open bracket. -/
def refusal : Position → Token → ParseError
  | ⟨.factor, _⟩, t => .unexpected t
  | ⟨.opening, _⟩, _ => .missing .callOpening
  | ⟨.continuation, []⟩, t => .unexpected t
  | ⟨.continuation, .group :: _⟩, _ => .missing .closing
  | ⟨.continuation, .call :: _⟩, _ => .missing .callClosing
  | ⟨.continuation, .lastArgument :: _⟩, _ => .missing .callClosing

/-- At no place before one of the tokens are more brackets open than the limit says. -/
def StaysWithin (limit : Nat) : Position → List Token → Prop
  | _, [] => True
  | q, t :: ts =>
      q.brackets.length ≤ limit ∧ ∀ q', q.next t.kind = some q' → q'.StaysWithin limit ts

end Position

/-- The number of opening parentheses. -/
def openings (ts : List Token) : Nat := ts.countP (·.kind = .openParen)

/-- The number of closing parentheses. -/
def closings (ts : List Token) : Nat := ts.countP (·.kind = .closeParen)

/-- Reading the tokens in order, there are never more brackets open at once than the limit says. -/
def NestsWithin (limit : Nat) (ts : List Token) : Prop :=
  ∀ pre, pre <+: ts → openings pre ≤ closings pre + limit

open Position

/-! ## Moving along tokens -/

@[simp] theorem after_nil (q : Position) : q.after [] = some q := rfl

@[simp] theorem after_cons (q : Position) (t : Token) (ts : List Token) :
    q.after (t :: ts) = (q.next t.kind).bind fun q' => q'.after ts := rfl

theorem after_append (q : Position) (ts us : List Token) :
    q.after (ts ++ us) = (q.after ts).bind fun q' => q'.after us := by
  rw [Position.after, List.foldlM_append]
  rfl

theorem exists_of_after_cons {q place : Position} {t : Token} {ts : List Token}
    (h : q.after (t :: ts) = some place) :
    ∃ q', q.next t.kind = some q' ∧ q'.after ts = some place :=
  Option.bind_eq_some_iff.mp h

theorem exists_of_after_append {q place : Position} {ts us : List Token}
    (h : q.after (ts ++ us) = some place) :
    ∃ q', q.after ts = some q' ∧ q'.after us = some place := by
  rw [after_append] at h
  exact Option.bind_eq_some_iff.mp h

/-- An operator behind a complete expression asks for a further factor. -/
theorem next_of_continues {brackets : List Bracket} {kind : TokenKind}
    (h : Phrase.expression.continues kind = true) :
    (⟨.continuation, brackets⟩ : Position).next kind = some ⟨.factor, brackets⟩ := by
  cases brackets with
  | nil => cases kind <;> first | rfl | cases h
  | cons b _ => cases b <;> cases kind <;> first | rfl | cases h

theorem next_of_isLink {level : Level} {brackets : List Bracket} {kind : TokenKind}
    (h : level.isLink kind = true) :
    (⟨.continuation, brackets⟩ : Position).next kind = some ⟨.factor, brackets⟩ := by
  apply next_of_continues
  cases level with
  | sum => exact chain_continues_iff.mpr (.inl h)
  | product => exact chain_continues_iff.mpr (.inr (chain_continues_iff.mpr (.inl h)))

/-- A closing parenthesis behind a complete expression closes the innermost bracket. -/
theorem next_closing (b : Bracket) (brackets : List Bracket) :
    (⟨.continuation, b :: brackets⟩ : Position).next .closeParen =
      some ⟨.continuation, brackets⟩ := by
  cases b <;> rfl

/-- The end of the input stands inside no expression. -/
theorem next_endOfInput (q : Position) : q.next .endOfInput = none := by
  obtain ⟨awaited, brackets⟩ := q
  cases awaited with
  | factor | opening => rfl
  | continuation =>
    cases brackets with
    | nil => rfl
    | cons b _ => cases b <;> rfl

/-! ## Phrases -/

mutual

/-- Over a phrase the grammar comes from where it waits for a factor to where the phrase may go on.
What is open around the phrase stays open. -/
theorem Derivation.after_tokens {p : Phrase} (d : Derivation p) (brackets : List Bracket) :
    (⟨.factor, brackets⟩ : Position).after d.tokens = some ⟨.continuation, brackets⟩ := by
  cases d with
  | number t isNumber => simp [Derivation.tokens, isNumber, Position.next]
  | group opening inner closing isOpening isClosing =>
    simp [Derivation.tokens, isOpening, isClosing, Position.next, after_append,
      inner.after_tokens]
  | call name opening argument closing isName isOpening isClosing =>
    simp [Derivation.tokens, isName, isOpening, isClosing, Position.next, after_append,
      argument.after_tokens]
  | callPair name opening first comma second closing isName isOpening isComma isClosing =>
    simp [Derivation.tokens, isName, isOpening, isComma, isClosing, Position.next, after_append,
      first.after_tokens, second.after_tokens]
  | chain first more =>
    simp [Derivation.tokens, after_append, first.after_tokens, more.after_tokens]

theorem Links.after_tokens {level : Level} (more : Links level) (brackets : List Bracket) :
    (⟨.continuation, brackets⟩ : Position).after more.tokens =
      some ⟨.continuation, brackets⟩ := by
  match more with
  | .none => rfl
  | .next link right more isLink =>
    simp [Links.tokens, after_append, next_of_isLink isLink, right.after_tokens,
      more.after_tokens]

end

theorem Derivation.after_start {p : Phrase} (d : Derivation p) :
    start.after d.tokens = some ⟨.continuation, []⟩ := d.after_tokens []

/-- No token of the beginning of an expression is refused. -/
theorem Begins.exists_after {p : Phrase} {ts : List Token} (h : Begins p ts) :
    ∃ q, start.after ts = some q := by
  obtain ⟨d, more, htokens⟩ := h
  have whole := d.after_start
  rw [htokens] at whole
  obtain ⟨q, hq, -⟩ := exists_of_after_append whole
  exact ⟨q, hq⟩

/-- A token that is refused cannot be saved by what follows. -/
theorem not_begins_of_refused {p : Phrase} {ts : List Token} {t : Token} {q : Position}
    (hq : start.after ts = some q) (refused : q.next t.kind = none) (more : List Token) :
    ¬ Begins p (ts ++ t :: more) := by
  intro h
  obtain ⟨q', hq'⟩ := h.exists_after
  rw [after_append, hq] at hq'
  simp [refused] at hq'

/-- A complete expression holds no end of the input. -/
theorem Begins.kind_ne_endOfInput {p : Phrase} {ts : List Token} (h : Begins p ts) :
    ∀ t ∈ ts, t.kind ≠ .endOfInput := by
  intro t ht hkind
  obtain ⟨before, behind, rfl⟩ := List.append_of_mem ht
  obtain ⟨q, hq⟩ := h.exists_after
  obtain ⟨q', -, hq'⟩ := exists_of_after_append hq
  rw [after_cons, hkind, next_endOfInput] at hq'
  cases hq'

theorem begins_tokens {p : Phrase} (d : Derivation p) : Begins p d.tokens :=
  ⟨d, [], (List.append_nil _).symm⟩

theorem Begins.of_append {p : Phrase} {ts us : List Token} (h : Begins p (ts ++ us)) :
    Begins p ts := by
  obtain ⟨d, more, hd⟩ := h
  exact ⟨d, us ++ more, by rw [hd, List.append_assoc]⟩

/-! ## Open brackets -/

/-- One token changes the number of open brackets by the parenthesis that it is. -/
theorem next_brackets {q q' : Position} {t : Token} (h : q.next t.kind = some q') :
    q.brackets.length + openings [t] = q'.brackets.length + closings [t] := by
  obtain ⟨awaited, brackets⟩ := q
  unfold Position.next at h
  split at h <;> simp_all [openings, closings] <;>
    grind [Phrase.continues, Parsing.isAdditive, Parsing.isMultiplicative]

/-- How many brackets are open is a matter of counting parentheses. -/
theorem after_brackets {q q' : Position} {ts : List Token} (h : q.after ts = some q') :
    q.brackets.length + openings ts = q'.brackets.length + closings ts := by
  induction ts generalizing q with
  | nil =>
    cases h
    rfl
  | cons t ts ih =>
    obtain ⟨q₁, h₁, h₂⟩ := exists_of_after_cons h
    have step := next_brackets h₁
    have rest := ih h₂
    simp only [openings, closings, List.countP_cons, List.countP_nil] at step rest ⊢
    omega

/-- The brackets that are open behind tokens from the start on. -/
theorem after_start_brackets {place : Position} {ts : List Token}
    (h : start.after ts = some place) : openings ts = place.brackets.length + closings ts := by
  have count := after_brackets h
  rwa [start, List.length_nil, Nat.zero_add] at count

theorem staysWithin_append {limit : Nat} {q : Position} {ts us : List Token} :
    q.StaysWithin limit (ts ++ us) ↔
      q.StaysWithin limit ts ∧ ∀ q', q.after ts = some q' → q'.StaysWithin limit us := by
  induction ts generalizing q with
  | nil =>
    constructor
    · intro h
      refine ⟨trivial, ?_⟩
      rintro _ ⟨⟩
      exact h
    · intro h
      exact h.2 q rfl
  | cons t ts ih =>
    constructor
    · rintro ⟨hq, hnext⟩
      refine ⟨⟨hq, fun q' hq' => (ih.mp (hnext q' hq')).1⟩, ?_⟩
      intro q' hq'
      obtain ⟨q₁, h₁, h₂⟩ := exists_of_after_cons hq'
      exact (ih.mp (hnext q₁ h₁)).2 q' h₂
    · rintro ⟨⟨hq, hnext⟩, hrest⟩
      refine ⟨hq, fun q₁ h₁ => ih.mpr ⟨hnext q₁ h₁, fun q' h₂ => hrest q' ?_⟩⟩
      rw [after_cons, h₁]
      exact h₂

/-- Where the grammar allows the tokens, parentheses need only be counted. -/
theorem nestsWithin_of_staysWithin {limit : Nat} {ts : List Token} {place : Position}
    (reached : start.after ts = some place) (within : start.StaysWithin limit ts)
    (room : place.brackets.length ≤ limit) : NestsWithin limit ts := by
  rintro pre ⟨us, rfl⟩
  obtain ⟨q, hq, hplace⟩ := exists_of_after_append reached
  have count := after_start_brackets hq
  -- a position inside the tokens is within the limit, and so is the one behind the last
  have few : q.brackets.length ≤ limit := by
    cases us with
    | nil =>
      cases hplace
      exact room
    | cons t us => exact ((staysWithin_append.mp within).2 q hq).1
  omega

theorem staysWithin_of_count {limit : Nat} {q : Position} {ts : List Token}
    (few : ∀ pre, pre <+: ts → q.brackets.length + openings pre ≤ closings pre + limit) :
    q.StaysWithin limit ts := by
  induction ts generalizing q with
  | nil => trivial
  | cons t ts ih =>
    refine ⟨by simpa [openings, closings] using few [] List.nil_prefix,
      fun q' hnext => ih fun pre hpre => ?_⟩
    have step := next_brackets hnext
    have few' := few (t :: pre) (List.cons_prefix_cons.mpr ⟨rfl, hpre⟩)
    simp only [openings, closings, List.countP_cons, List.countP_nil] at step few' ⊢
    omega

theorem NestsWithin.staysWithin {limit : Nat} {ts : List Token} (h : NestsWithin limit ts) :
    start.StaysWithin limit ts := by
  refine staysWithin_of_count fun pre hpre => ?_
  rw [start, List.length_nil, Nat.zero_add]
  exact h pre hpre

/-- Behind tokens that nest too deeply no others follow that nest less deeply. -/
theorem not_nestsWithin {limit : Nat} {ts us : List Token} {place : Position}
    (reached : start.after ts = some place) (deep : place.brackets.length = limit + 1) :
    ¬ NestsWithin limit (ts ++ us) := by
  intro h
  have few := h ts (List.prefix_append ts us)
  have count := after_start_brackets reached
  omega

/-! ## Counting -/

section Counting

variable {limit : Nat} {ts us : List Token} {closing : Token}

@[simp] theorem openings_nil : openings [] = 0 := rfl

@[simp] theorem openings_cons (t : Token) (ts : List Token) :
    openings (t :: ts) = openings ts + if t.kind = .openParen then 1 else 0 := by
  simp [openings, List.countP_cons]

@[simp] theorem openings_append (ts us : List Token) :
    openings (ts ++ us) = openings ts + openings us := List.countP_append

@[simp] theorem closings_nil : closings [] = 0 := rfl

@[simp] theorem closings_cons (t : Token) (ts : List Token) :
    closings (t :: ts) = closings ts + if t.kind = .closeParen then 1 else 0 := by
  simp [closings, List.countP_cons]

@[simp] theorem closings_append (ts us : List Token) :
    closings (ts ++ us) = closings ts + closings us := List.countP_append

/-- Every bracket that a phrase opens is closed in it. -/
theorem Derivation.openings_eq_closings {p : Phrase} (d : Derivation p) :
    openings d.tokens = closings d.tokens := by
  have count := after_start_brackets d.after_start
  rwa [List.length_nil, Nat.zero_add] at count

theorem NestsWithin.shorten (h : NestsWithin limit us) (hts : ts <+: us) : NestsWithin limit ts := by
  intro pre hpre
  exact h pre (hpre.trans hts)

theorem NestsWithin.mono {limit' : Nat} (h : NestsWithin limit ts) (le : limit ≤ limit') :
    NestsWithin limit' ts := by
  intro pre hpre
  exact Nat.le_trans (h pre hpre) (Nat.add_le_add_left le _)

/-- With few parentheses altogether, few are open at once. -/
theorem nestsWithin_of_openings_le (h : openings ts ≤ limit) : NestsWithin limit ts := by
  intro pre hpre
  have few : openings pre ≤ openings ts := hpre.sublist.countP_le
  omega

/-- Behind tokens that leave no bracket open, the nesting starts anew. -/
theorem NestsWithin.append (hts : NestsWithin limit ts) (closed : openings ts ≤ closings ts)
    (hus : NestsWithin limit us) : NestsWithin limit (ts ++ us) := by
  rintro pre ⟨rest, split⟩
  rcases List.append_eq_append_iff.mp split with ⟨more, rfl, -⟩ | ⟨more, rfl, rfl⟩
  · exact hts pre (List.prefix_append _ _)
  · have few := hus more (List.prefix_append _ _)
    simp only [openings_append, closings_append]
    omega

/-- One token in front adds at most one level. -/
theorem NestsWithin.cons (h : NestsWithin limit ts) (t : Token) :
    NestsWithin (limit + 1) (t :: ts) := by
  intro pre hpre
  cases pre with
  | nil => exact Nat.zero_le _
  | cons t' pre =>
    obtain ⟨rfl, behind⟩ := List.cons_prefix_cons.mp hpre
    have few := h pre behind
    rw [openings_cons, closings_cons]
    split <;> split <;> omega

/-- A bracket around a phrase adds one level. -/
theorem NestsWithin.bracketed {p : Phrase} {d : Derivation p} (h : NestsWithin limit d.tokens)
    (opening : Token) (hclosing : closing.kind ≠ .openParen) :
    NestsWithin (limit + 1) ([opening] ++ d.tokens ++ [closing]) := by
  have last : NestsWithin limit [closing] := nestsWithin_of_openings_le (by simp [hclosing])
  exact (h.append (Nat.le_of_eq d.openings_eq_closings) last).cons opening

end Counting

end Grammar

end Calculator
