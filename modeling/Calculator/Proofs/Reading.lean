import Calculator.Proofs.Position

/-!
# What reading with a cursor comes to

Reading a phrase has one of four outcomes. It is done: the tokens read are a phrase, and the cursor
stands on a token that does not continue it. A token is refused: the tokens before it are the
beginning of a phrase, and the cursor stands on a token that cannot stand there. The tokens are
exhausted, all of them the beginning of a phrase. Or the brackets are nested too deeply.

`Outcome` states this for a reader that starts at a position of the grammar, and each reader of
`Calculator.Parsing` has such an outcome, whatever the tokens. The induction is on the number of
levels of nesting that are left; at one level it goes along the links of a chain.

Results:
1. `expression_outcome`: reading an expression.
2. `completeWithin_verdict`: reading an expression that the end of the input follows.
-/

namespace Calculator

namespace Parsing

variable {α β : Type}

/-- What a reader gives at a cursor, and the cursor afterwards. -/
def outcome (p : Parsing α) (c : Cursor) : Except ParseError α × Cursor := p.run.run c

@[simp] theorem outcome_pure (a : α) (c : Cursor) : (pure a : Parsing α).outcome c = (.ok a, c) :=
  rfl

@[simp] theorem outcome_throw (e : ParseError) (c : Cursor) :
    (throw e : Parsing α).outcome c = (.error e, c) := rfl

@[simp] theorem outcome_get_bind (f : Cursor → Parsing β) (c : Cursor) :
    ((get : Parsing Cursor) >>= f).outcome c = (f c).outcome c := rfl

theorem outcome_bind_of_ok {p : Parsing α} {f : α → Parsing β} {c c' : Cursor} {a : α}
    (h : p.outcome c = (.ok a, c')) : (p >>= f).outcome c = (f a).outcome c' := by
  unfold outcome at *
  rw [ExceptT.run_bind, StateT.run_bind, h]
  rfl

theorem outcome_bind_of_error {p : Parsing α} {f : α → Parsing β} {c c' : Cursor} {e : ParseError}
    (h : p.outcome c = (.error e, c')) : (p >>= f).outcome c = (.error e, c') := by
  unfold outcome at *
  rw [ExceptT.run_bind, StateT.run_bind, h]
  rfl

@[simp] theorem outcome_advance_bind_cons (f : Unit → Parsing β) (i : Nat) (t t' : Token)
    (ts : List Token) :
    (advance >>= f).outcome ⟨i, t, t' :: ts⟩ = (f ()).outcome ⟨i + 1, t', ts⟩ := rfl

/-- A demanded token that is there is taken. -/
theorem outcome_expect_bind_of_eq {kind : TokenKind} {demand : Demand} {c : Cursor}
    (f : Unit → Parsing β) (h : c.current.kind = kind) :
    (expect kind demand >>= f).outcome c = (advance >>= f).outcome c := by
  have same : (expect kind demand).outcome c = advance.outcome c := by
    simp [expect, h]
  rcases hadvance : advance.outcome c with ⟨_ | _, c'⟩
  · rw [outcome_bind_of_error hadvance, outcome_bind_of_error (same.trans hadvance)]
  · rw [outcome_bind_of_ok hadvance, outcome_bind_of_ok (same.trans hadvance)]

/-- A demanded token that is not there is missing. -/
theorem outcome_expect_bind_of_ne {kind : TokenKind} {demand : Demand} {c : Cursor}
    (f : Unit → Parsing β) (h : c.current.kind ≠ kind) :
    (expect kind demand >>= f).outcome c = (.error (.missing demand), c) := by
  apply outcome_bind_of_error
  simp [expect, h]

end Parsing

/-- The tokens from the cursor on. -/
def Cursor.ahead (c : Cursor) : List Token := c.current :: c.rest

namespace Grammar

open Parsing Position

/-! ## Outcomes -/

/-- The tokens are a phrase of the sort `p`, and `tree` is its tree. -/
def Reads (p : Phrase) (ts : List Token) (tree : Tree) : Prop :=
  ∃ d : Derivation p, d.tokens = ts ∧ d.tree = tree

/-- The tokens are links of a chain, and behind operands with the tree `left` they make `tree`. -/
def LinksRead (level : Level) (left : Tree) (ts : List Token) (tree : Tree) : Prop :=
  ∃ more : Links level, more.tokens = ts ∧ more.treeOnto left = tree

/-- The tokens can be completed to some that are read. -/
def Begun (reads : List Token → Tree → Prop) (ts : List Token) : Prop :=
  ∃ more tree, reads (ts ++ more) tree

/-- The cursor has moved from `c` at the position `q` over the tokens `ts` to `c'` at `q'`. Before
`q'` no more brackets were open at once than the limit says. -/
structure Moved (limit : Nat) (q : Position) (c : Cursor) (ts : List Token) (q' : Position)
    (c' : Cursor) : Prop where
  ahead : c.ahead = ts ++ c'.ahead
  index : c'.index = c.index + ts.length
  reached : q.after ts = some q'
  within : q.StaysWithin limit ts

/-- What the grammar waits for behind the tokens `before`, said by the grammar itself, and the error
for the token `t` that stands there instead. -/
inductive Complaint (begun : List Token → Prop) (before : List Token) (t : Token) :
    ParseError → Prop
  /-- A factor must start, for instance with a number. -/
  | factor (starts : ∀ number : Token, number.kind = .number → begun (before ++ [number])) :
      Complaint begun before t (.unexpected t)
  /-- The name of a function stands directly before. -/
  | opening {outer : List Token} {name : Token} (split : before = outer ++ [name])
      (isName : name.kind = .function) : Complaint begun before t (.missing .callOpening)
  /-- A complete expression stands behind a parenthesis with which a factor started. -/
  | group {outer : List Token} {opening : Token} {inner : Derivation .expression}
      (split : before = outer ++ opening :: inner.tokens) (isOpening : opening.kind = .openParen)
      (starts : ∀ number : Token, number.kind = .number → begun (outer ++ [number])) :
      Complaint begun before t (.missing .closing)
  /-- A complete expression stands behind the parenthesis of a call. -/
  | call {outer : List Token} {name opening : Token} {argument : Derivation .expression}
      (split : before = outer ++ name :: opening :: argument.tokens)
      (isName : name.kind = .function) (isOpening : opening.kind = .openParen) :
      Complaint begun before t (.missing .callClosing)
  /-- A complete expression stands behind the comma of a call. -/
  | callPair {outer : List Token} {name opening comma : Token}
      {first second : Derivation .expression}
      (split : before = outer ++ name :: opening :: (first.tokens ++ comma :: second.tokens))
      (isName : name.kind = .function) (isOpening : opening.kind = .openParen)
      (isComma : comma.kind = .comma) : Complaint begun before t (.missing .callClosing)

/-- Why and where a reader fails that starts at the cursor `c` and the position `q`. The tokens that
it has passed are in every case the beginning of what is to be read. -/
inductive Failure (limit : Nat) (q : Position) (begun : List Token → Prop) (c : Cursor) :
    ParseError → Cursor → Prop
  | refused {ts : List Token} {place : Position} {c' : Cursor}
      (moved : Moved limit q c ts place c') (passed : begun ts)
      (room : place.brackets.length ≤ limit) (refused : place.Refuses c'.current.kind)
      (complaint : Complaint begun ts c'.current (place.refusal c'.current)) :
      Failure limit q begun c (place.refusal c'.current) c'
  | exhausted {ts : List Token} {place : Position} {i : Nat} {t : Token}
      (moved : Moved limit q c ts place ⟨i, t, []⟩) (passed : begun (ts ++ [t]))
      (room : place.brackets.length ≤ limit) :
      Failure limit q begun c .exhausted ⟨i + 1, t, []⟩
  | tooDeep {ts : List Token} {place : Position} {c' : Cursor}
      (moved : Moved limit q c ts place c') (passed : begun ts)
      (deep : place.brackets.length = limit + 1) :
      Failure limit q begun c .tooDeep c'

/-- What a reader comes to that starts at the cursor `c` and the position `q`. A token that `goesOn`
does not stand behind what it has read. -/
inductive Outcome (limit : Nat) (q : Position) (reads : List Token → Tree → Prop)
    (goesOn : TokenKind → Bool) (c : Cursor) : Except ParseError Tree × Cursor → Prop
  | done {ts : List Token} {tree : Tree} {c' : Cursor}
      (moved : Moved limit q c ts ⟨.continuation, q.brackets⟩ c') (read : reads ts tree)
      (room : q.brackets.length ≤ limit) (stops : goesOn c'.current.kind = false) :
      Outcome limit q reads goesOn c (.ok tree, c')
  | failed {e : ParseError} {c' : Cursor} (failure : Failure limit q (Begun reads) c e c') :
      Outcome limit q reads goesOn c (.error e, c')

variable {limit : Nat} {q q₁ q₂ : Position} {c c₁ c₂ : Cursor} {pre ts us : List Token}
  {brackets : List Bracket}

theorem Moved.refl (q : Position) (c : Cursor) : Moved limit q c [] q c :=
  ⟨rfl, rfl, rfl, trivial⟩

theorem Moved.trans (h₁ : Moved limit q c ts q₁ c₁) (h₂ : Moved limit q₁ c₁ us q₂ c₂) :
    Moved limit q c (ts ++ us) q₂ c₂ where
  ahead := by rw [h₁.ahead, h₂.ahead, List.append_assoc]
  index := by rw [h₂.index, h₁.index, List.length_append, Nat.add_assoc]
  reached := by
    rw [after_append, h₁.reached]
    exact h₂.reached
  within := by
    refine staysWithin_append.mpr ⟨h₁.within, fun q' hq' => ?_⟩
    rw [h₁.reached] at hq'
    cases hq'
    exact h₂.within

/-- Over one token that can stand where it stands. -/
theorem Moved.over {i : Nat} {t t' : Token} {rest : List Token} (room : q.brackets.length ≤ limit)
    (stands : q.next t.kind = some q₁) :
    Moved limit q ⟨i, t, t' :: rest⟩ [t] q₁ ⟨i + 1, t', rest⟩ where
  ahead := rfl
  index := rfl
  reached := by rw [after_cons, stands]; rfl
  within := ⟨room, fun _ _ => trivial⟩

theorem Complaint.behind {begun begun₁ : List Token → Prop} {t : Token} {e : ParseError}
    (h : Complaint begun₁ ts t e) (passed : ∀ ts, begun₁ ts → begun (pre ++ ts)) :
    Complaint begun (pre ++ ts) t e := by
  cases h with
  | factor starts =>
    refine .factor fun number hnumber => ?_
    rw [List.append_assoc]
    exact passed _ (starts number hnumber)
  | opening split isName =>
    exact .opening (by rw [split, List.append_assoc]) isName
  | group split isOpening starts =>
    refine .group (by rw [split, List.append_assoc]) isOpening fun number hnumber => ?_
    rw [List.append_assoc]
    exact passed _ (starts number hnumber)
  | call split isName isOpening =>
    exact .call (by rw [split, List.append_assoc]) isName isOpening
  | callPair split isName isOpening isComma =>
    exact .callPair (by rw [split, List.append_assoc]) isName isOpening isComma

/-- A failure behind tokens that were already passed. -/
theorem Failure.behind {begun begun₁ : List Token → Prop} {e : ParseError}
    (h : Failure limit q₁ begun₁ c₁ e c₂) (moved : Moved limit q c pre q₁ c₁)
    (passed : ∀ ts, begun₁ ts → begun (pre ++ ts)) : Failure limit q begun c e c₂ := by
  cases h with
  | refused onward begun room refused complaint =>
    exact .refused (moved.trans onward) (passed _ begun) room refused (complaint.behind passed)
  | exhausted onward begun room =>
    refine .exhausted (moved.trans onward) ?_ room
    rw [List.append_assoc]
    exact passed _ begun
  | tooDeep onward begun deep =>
    exact .tooDeep (moved.trans onward) (passed _ begun) deep

/-- If what is read behind the tokens `pre` makes a whole with them, then so does a beginning. -/
theorem begun_behind {reads reads₁ : List Token → Tree → Prop}
    (h : ∀ ts tree, reads₁ ts tree → ∃ more tree', reads (pre ++ (ts ++ more)) tree') :
    ∀ ts, Begun reads₁ ts → Begun reads (pre ++ ts) := by
  rintro ts ⟨more, tree, hread⟩
  obtain ⟨more', tree', hwhole⟩ := h _ _ hread
  refine ⟨more ++ more', tree', ?_⟩
  rwa [List.append_assoc, ← List.append_assoc ts]

/-- An outcome behind tokens that were already passed. -/
theorem Outcome.behind {reads reads₁ : List Token → Tree → Prop} {goesOn : TokenKind → Bool}
    {result : Except ParseError Tree × Cursor} (h : Outcome limit q₁ reads₁ goesOn c₁ result)
    (moved : Moved limit q c pre q₁ c₁) (same : q₁.brackets = q.brackets)
    (whole : ∀ ts tree, reads₁ ts tree → reads (pre ++ ts) tree) :
    Outcome limit q reads goesOn c result := by
  cases h with
  | done onward read room stops =>
    rw [same] at onward room
    exact .done (moved.trans onward) (whole _ _ read) room stops
  | failed failure =>
    refine .failed (failure.behind moved (begun_behind fun ts tree hread => ?_))
    refine ⟨[], tree, ?_⟩
    rw [List.append_nil]
    exact whole ts tree hread

/-! ## Factors -/

theorem reads_number {t : Token} (h : t.kind = .number) : Reads .factor [t] (.number t.value) :=
  ⟨.number t h, rfl, rfl⟩

theorem reads_group {opening closing : Token} {tree : Tree} (hopening : opening.kind = .openParen)
    (hclosing : closing.kind = .closeParen) (h : Reads .expression ts tree) :
    Reads .factor ([opening] ++ ts ++ [closing]) tree := by
  obtain ⟨d, rfl, rfl⟩ := h
  exact ⟨.group opening d closing hopening hclosing, rfl, rfl⟩

theorem reads_call {name opening closing : Token} {tree : Tree} (hname : name.kind = .function)
    (hopening : opening.kind = .openParen) (hclosing : closing.kind = .closeParen)
    (h : Reads .expression ts tree) :
    Reads .factor ([name, opening] ++ ts ++ [closing]) (.call name.text tree) := by
  obtain ⟨d, rfl, rfl⟩ := h
  exact ⟨.call name opening d closing hname hopening hclosing, rfl, rfl⟩

theorem reads_callPair {name opening comma closing : Token} {first second : Tree}
    (hname : name.kind = .function) (hopening : opening.kind = .openParen)
    (hcomma : comma.kind = .comma) (hclosing : closing.kind = .closeParen)
    (h₁ : Reads .expression ts first) (h₂ : Reads .expression us second) :
    Reads .factor ([name, opening] ++ ts ++ [comma] ++ us ++ [closing])
      (.pair first name.text second) := by
  obtain ⟨d₁, rfl, rfl⟩ := h₁
  obtain ⟨d₂, rfl, rfl⟩ := h₂
  exact ⟨.callPair name opening d₁ comma d₂ closing hname hopening hcomma hclosing,
    by simp [Derivation.tokens], rfl⟩

/-- Some token of the given kind. -/
def someToken (kind : TokenKind) : Token := ⟨kind, "", none⟩

/-- There are phrases of every sort. -/
theorem exists_reads (p : Phrase) : ∃ ts tree, Reads p ts tree := by
  let number : Derivation .factor := .number (someToken .number) rfl
  have of {p : Phrase} (d : Derivation p) : ∃ ts tree, Reads p ts tree := ⟨_, _, d, rfl, rfl⟩
  cases p with
  | factor => exact of number
  | chain level =>
    cases level with
    | product => exact of (.chain number .none)
    | sum => exact of (.chain (.chain number .none) .none)

theorem someToken_kind (kind : TokenKind) : (someToken kind).kind = kind := rfl

theorem begun_group {opening : Token} (hopening : opening.kind = .openParen) :
    Begun (Reads .factor) [opening] := by
  obtain ⟨ts, tree, h⟩ := exists_reads .expression
  exact ⟨ts ++ [someToken .closeParen], tree, reads_group hopening (someToken_kind _) h⟩

theorem begun_call {name opening : Token} (hname : name.kind = .function)
    (hopening : opening.kind = .openParen) : Begun (Reads .factor) [name, opening] := by
  obtain ⟨ts, tree, h⟩ := exists_reads .expression
  exact ⟨ts ++ [someToken .closeParen], _, reads_call hname hopening (someToken_kind _) h⟩

theorem begun_name {name : Token} (hname : name.kind = .function) :
    Begun (Reads .factor) [name] := by
  obtain ⟨more, tree, h⟩ := begun_call hname (someToken_kind .openParen)
  exact ⟨someToken .openParen :: more, tree, h⟩

theorem begun_callPair {name opening comma : Token} {first : Tree} (hname : name.kind = .function)
    (hopening : opening.kind = .openParen) (hcomma : comma.kind = .comma)
    (h : Reads .expression ts first) :
    Begun (Reads .factor) ([name, opening] ++ ts ++ [comma]) := by
  obtain ⟨us, tree, h'⟩ := exists_reads .expression
  refine ⟨us ++ [someToken .closeParen], .pair first name.text tree, ?_⟩
  rw [← List.append_assoc]
  exact reads_callPair hname hopening hcomma (someToken_kind _) h h'

/-- Behind a complete expression inside a bracket, any other token than an operator, a closing
parenthesis and a comma of a call is refused. -/
theorem next_eq_none {b : Bracket} {kind : TokenKind} (open_ : kind ≠ .closeParen)
    (single : b = .call → kind ≠ .comma) (stops : Phrase.expression.continues kind = false) :
    (⟨.continuation, b :: brackets⟩ : Position).next kind = none := by
  cases b <;> cases kind <;> simp_all [Position.next]

/-- At the end of a bracket: the parenthesis that closes it is there, or it is demanded. -/
theorem close_outcome {b : Bracket} {demand : Demand} {tree : Tree}
    (moved : Moved limit q c pre ⟨.continuation, b :: q.brackets⟩ c₁)
    (room : (b :: q.brackets).length ≤ limit)
    (stops : Phrase.expression.continues c₁.current.kind = false)
    (single : b = .call → c₁.current.kind ≠ .comma)
    (wording : (⟨.continuation, b :: q.brackets⟩ : Position).refusal c₁.current = .missing demand)
    (complaint : Complaint (Begun (Reads .factor)) pre c₁.current
      ((⟨.continuation, b :: q.brackets⟩ : Position).refusal c₁.current))
    (closes : ∀ closing : Token, closing.kind = .closeParen → Reads .factor (pre ++ [closing]) tree) :
    Outcome limit q (Reads .factor) Phrase.factor.continues c
      ((expect .closeParen demand >>= fun _ => pure tree).outcome c₁) := by
  by_cases hclosing : c₁.current.kind = .closeParen
  · rw [outcome_expect_bind_of_eq _ hclosing]
    obtain ⟨i, t, _ | ⟨t', rest⟩⟩ := c₁
    · refine .failed (.exhausted moved ⟨[], tree, ?_⟩ room)
      rw [List.append_nil]
      exact closes t hclosing
    · refine .done (moved.trans (.over room ?_)) (closes t hclosing) (by simp at room; omega) rfl
      rw [hclosing]
      exact next_closing b q.brackets
  · rw [outcome_expect_bind_of_ne _ hclosing, ← wording]
    refine .failed (.refused moved ?_ room ⟨next_eq_none hclosing single stops, nofun⟩ complaint)
    exact ⟨[someToken .closeParen], tree, closes _ rfl⟩

/-- Inside a bracket an expression is read, and reading goes on with its tree. -/
theorem inside_outcome {b : Bracket} {inner : Parsing Tree} {f : Tree → Parsing Tree}
    (hinner : ∀ c, Outcome limit ⟨.factor, b :: brackets⟩ (Reads .expression)
      Phrase.expression.continues c (inner.outcome c))
    (moved : Moved limit q c pre ⟨.factor, b :: brackets⟩ c₁)
    (completes : ∀ ts tree, Reads .expression ts tree →
      ∃ more tree', Reads .factor (pre ++ (ts ++ more)) tree')
    (behind : ∀ ts tree c₂, Reads .expression ts tree →
      Moved limit q c (pre ++ ts) ⟨.continuation, b :: brackets⟩ c₂ →
      (b :: brackets).length ≤ limit → Phrase.expression.continues c₂.current.kind = false →
      Outcome limit q (Reads .factor) Phrase.factor.continues c ((f tree).outcome c₂)) :
    Outcome limit q (Reads .factor) Phrase.factor.continues c ((inner >>= f).outcome c₁) := by
  rcases hresult : inner.outcome c₁ with ⟨result, c₂⟩
  have houtcome := hinner c₁
  rw [hresult] at houtcome
  cases houtcome with
  | done onward read room stops =>
    rw [outcome_bind_of_ok hresult]
    exact behind _ _ _ read (moved.trans onward) room stops
  | failed failure =>
    rw [outcome_bind_of_error hresult]
    exact .failed (failure.behind moved (begun_behind completes))

/-- The factors that start with a parenthesis. -/
theorem group_outcome {inner : Parsing Tree} {i : Nat} {t : Token} {rest : List Token}
    (room : brackets.length ≤ limit) (hinner : ∀ b c, Outcome limit ⟨.factor, b :: brackets⟩
      (Reads .expression) Phrase.expression.continues c (inner.outcome c))
    (hkind : t.kind = .openParen) :
    Outcome limit ⟨.factor, brackets⟩ (Reads .factor) Phrase.factor.continues ⟨i, t, rest⟩
      ((factorWith inner).outcome ⟨i, t, rest⟩) := by
  rw [factorWith, outcome_get_bind]
  simp only [hkind]
  cases rest with
  | nil => exact .failed (.exhausted (.refl _ _) (begun_group hkind) room)
  | cons t' rest =>
    rw [outcome_advance_bind_cons]
    have hnext : (⟨.factor, brackets⟩ : Position).next t.kind =
        some ⟨.factor, .group :: brackets⟩ := by
      rw [hkind]
      rfl
    refine inside_outcome (hinner .group) (.over room hnext) ?_ ?_
    · intro ts tree hread
      exact ⟨_, _, reads_group hkind (someToken_kind _) hread⟩
    · intro ts tree c₂ hread moved room' stops
      refine close_outcome moved room' stops nofun rfl ?_ fun closing hclosing => ?_
      · obtain ⟨d, rfl, -⟩ := hread
        exact .group (show _ = [] ++ t :: d.tokens from rfl) hkind fun number hnumber =>
          ⟨[], _, reads_number hnumber⟩
      · exact reads_group hkind hclosing hread

/-- A call behind its first argument. -/
theorem arguments_outcome {inner : Parsing Tree} {name opening : Token} {first : Tree}
    (hinner : ∀ b c, Outcome limit ⟨.factor, b :: brackets⟩
      (Reads .expression) Phrase.expression.continues c (inner.outcome c))
    (hname : name.kind = .function) (hopening : opening.kind = .openParen)
    (hfirst : Reads .expression ts first)
    (moved : Moved limit ⟨.factor, brackets⟩ c ([name, opening] ++ ts)
      ⟨.continuation, .call :: brackets⟩ c₁)
    (room : (Bracket.call :: brackets).length ≤ limit)
    (stops : Phrase.expression.continues c₁.current.kind = false) :
    Outcome limit ⟨.factor, brackets⟩ (Reads .factor) Phrase.factor.continues c
      ((do
        if (← kind) = .comma then do
          advance
          let second ← inner
          expect .closeParen .callClosing
          pure (.pair first name.text second)
        else do
          expect .closeParen .callClosing
          pure (.call name.text first) : Parsing Tree).outcome c₁) := by
  rw [kind, bind_assoc, outcome_get_bind, pure_bind]
  by_cases hcomma : c₁.current.kind = .comma
  · rw [if_pos hcomma]
    obtain ⟨i, t, _ | ⟨t', rest⟩⟩ := c₁
    · exact .failed (.exhausted moved (begun_callPair hname hopening hcomma hfirst) room)
    · rw [outcome_advance_bind_cons]
      have hnext : (⟨.continuation, .call :: brackets⟩ : Position).next t.kind =
          some ⟨.factor, .lastArgument :: brackets⟩ := by
        rw [hcomma]
        rfl
      refine inside_outcome (hinner .lastArgument) (moved.trans (.over room hnext)) ?_ ?_
      · intro us second hsecond
        refine ⟨[someToken .closeParen], .pair first name.text second, ?_⟩
        rw [← List.append_assoc]
        exact reads_callPair hname hopening hcomma (someToken_kind _) hfirst hsecond
      · intro us second c₂ hsecond moved' room' stops'
        refine close_outcome moved' room' stops' nofun rfl ?_ fun closing hclosing => ?_
        · obtain ⟨d₁, rfl, -⟩ := hfirst
          obtain ⟨d₂, rfl, -⟩ := hsecond
          refine .callPair (show _ = [] ++ name :: opening :: (d₁.tokens ++ t :: d₂.tokens) from ?_)
            hname hopening hcomma
          simp
        · exact reads_callPair hname hopening hcomma hclosing hfirst hsecond
  · rw [if_neg hcomma]
    refine close_outcome moved room stops (fun _ => hcomma) rfl ?_ fun closing hclosing => ?_
    · obtain ⟨d, rfl, -⟩ := hfirst
      exact .call (show _ = [] ++ name :: opening :: d.tokens from rfl) hname hopening
    · exact reads_call hname hopening hclosing hfirst

/-- The factors that start with the name of a function. -/
theorem call_outcome {inner : Parsing Tree} {i : Nat} {t : Token} {rest : List Token}
    (room : brackets.length ≤ limit) (hinner : ∀ b c, Outcome limit ⟨.factor, b :: brackets⟩
      (Reads .expression) Phrase.expression.continues c (inner.outcome c))
    (hkind : t.kind = .function) :
    Outcome limit ⟨.factor, brackets⟩ (Reads .factor) Phrase.factor.continues ⟨i, t, rest⟩
      ((factorWith inner).outcome ⟨i, t, rest⟩) := by
  rw [factorWith, outcome_get_bind]
  simp only [hkind]
  cases rest with
  | nil => exact .failed (.exhausted (.refl _ _) (begun_name hkind) room)
  | cons t' rest =>
    rw [outcome_advance_bind_cons]
    have hname : (⟨.factor, brackets⟩ : Position).next t.kind = some ⟨.opening, brackets⟩ := by
      rw [hkind]
      rfl
    have behindName : Moved limit ⟨.factor, brackets⟩ ⟨i, t, t' :: rest⟩ [t] ⟨.opening, brackets⟩
      ⟨i + 1, t', rest⟩ := .over room hname
    by_cases hopening : t'.kind = .openParen
    · rw [outcome_expect_bind_of_eq _ hopening]
      cases rest with
      | nil => exact .failed (.exhausted behindName (begun_call hkind hopening) room)
      | cons t'' rest =>
        rw [outcome_advance_bind_cons]
        have hcall : (⟨.opening, brackets⟩ : Position).next t'.kind =
            some ⟨.factor, .call :: brackets⟩ := by
          rw [hopening]
          rfl
        refine inside_outcome (hinner .call) (behindName.trans (.over room hcall)) ?_ ?_
        · intro ts tree hread
          exact ⟨_, _, reads_call hkind hopening (someToken_kind _) hread⟩
        · intro ts first c₂ hfirst moved room' stops
          exact arguments_outcome hinner hkind hopening hfirst moved room' stops
    · rw [outcome_expect_bind_of_ne _ hopening]
      refine .failed (.refused behindName (begun_name hkind) room ⟨?_, nofun⟩ ?_)
      · cases hkind' : t'.kind <;> first | rfl | exact absurd hkind' hopening
      · exact .opening (show _ = [] ++ [t] from rfl) hkind

/-- What reading a factor comes to, whatever comes of reading inside its brackets. -/
theorem factor_outcome {inner : Parsing Tree} (room : brackets.length ≤ limit)
    (hinner : ∀ b c, Outcome limit ⟨.factor, b :: brackets⟩ (Reads .expression)
      Phrase.expression.continues c (inner.outcome c)) (c : Cursor) :
    Outcome limit ⟨.factor, brackets⟩ (Reads .factor) Phrase.factor.continues c
      ((factorWith inner).outcome c) := by
  obtain ⟨i, t, rest⟩ := c
  cases hkind : t.kind with
  | openParen => exact group_outcome room hinner hkind
  | function => exact call_outcome room hinner hkind
  | number =>
    rw [factorWith, outcome_get_bind]
    simp only [hkind]
    cases rest with
    | nil => exact .failed (.exhausted (.refl _ _) ⟨[], _, reads_number hkind⟩ room)
    | cons t' rest =>
      have hnext : (⟨.factor, brackets⟩ : Position).next t.kind =
          some ⟨.continuation, brackets⟩ := by
        rw [hkind]
        rfl
      exact .done (.over room hnext) (reads_number hkind) room rfl
  | _ =>
    obtain ⟨ts, tree, hread⟩ := exists_reads .factor
    rw [factorWith, outcome_get_bind]
    simp only [hkind]
    have hnext : (⟨.factor, brackets⟩ : Position).next t.kind = none := by
      rw [hkind]
      rfl
    refine .failed (.refused (.refl _ _) ⟨ts, tree, hread⟩ room ⟨hnext, nofun⟩ ?_)
    exact .factor fun number hnumber => ⟨[], _, reads_number hnumber⟩

/-! ## Chains -/

theorem linksRead_none {level : Level} (left : Tree) : LinksRead level left [] left :=
  ⟨.none, rfl, rfl⟩

theorem linksRead_next {level : Level} {link : Token} {left right tree : Tree}
    (hlink : level.isLink link.kind = true) (hright : Reads level.operand ts right)
    (hmore : LinksRead level (.pair left link.text right) us tree) :
    LinksRead level left ([link] ++ ts ++ us) tree := by
  obtain ⟨d, rfl, rfl⟩ := hright
  obtain ⟨more, rfl, rfl⟩ := hmore
  exact ⟨.next link d more hlink, rfl, rfl⟩

theorem linksRead_single {level : Level} {link : Token} {left right : Tree}
    (hlink : level.isLink link.kind = true) (hright : Reads level.operand ts right) :
    LinksRead level left ([link] ++ (ts ++ [])) (.pair left link.text right) := by
  show LinksRead level left ([link] ++ ts ++ []) (.pair left link.text right)
  exact linksRead_next hlink hright (linksRead_none _)

theorem reads_chain {level : Level} {left tree : Tree} (hleft : Reads level.operand ts left)
    (hmore : LinksRead level left us tree) : Reads (.chain level) (ts ++ us) tree := by
  obtain ⟨d, rfl, rfl⟩ := hleft
  obtain ⟨more, rfl, rfl⟩ := hmore
  exact ⟨.chain d more, rfl, rfl⟩

theorem reads_chain_single {level : Level} {tree : Tree} (h : Reads level.operand ts tree) :
    Reads (.chain level) (ts ++ []) tree := reads_chain h (linksRead_none _)

/-- A factor is a phrase of every sort. -/
theorem reads_of_factor {p : Phrase} {tree : Tree} (h : Reads .factor ts tree) : Reads p ts tree := by
  have term : Reads .term (ts ++ []) tree := reads_chain_single h
  rw [List.append_nil] at term
  cases p with
  | factor => exact h
  | chain level =>
    cases level with
    | product => exact term
    | sum =>
      have expression : Reads .expression (ts ++ []) tree := reads_chain_single term
      rwa [List.append_nil] at expression

/-- Every phrase is an expression. -/
theorem reads_expression {p : Phrase} {tree : Tree} (h : Reads p ts tree) :
    Reads .expression ts tree := by
  cases p with
  | factor => exact reads_of_factor h
  | chain level =>
    cases level with
    | sum => exact h
    | product =>
      have expression : Reads .expression (ts ++ []) tree := reads_chain_single h
      rwa [List.append_nil] at expression

/-- One more link behind the links of a chain. -/
theorem linksRead_snoc {level : Level} {link : Token} {right : Tree}
    (hlink : level.isLink link.kind = true) (hright : Reads level.operand us right) :
    (links : Links level) → (left : Tree) →
      LinksRead level left (links.tokens ++ [link] ++ us) (.pair (links.treeOnto left) link.text right)
  | .none, left => by
    have single : LinksRead level left ([link] ++ (us ++ [])) (.pair left link.text right) :=
      linksRead_single hlink hright
    simpa [Links.tokens, Links.treeOnto] using single
  | .next first operand more isLink, left => by
    have hmore := linksRead_snoc hlink hright more (.pair left first.text operand.tree)
    simpa [Links.tokens, Links.treeOnto] using linksRead_next isLink ⟨operand, rfl, rfl⟩ hmore

/-- An operation is read whose left operand is a chain of the level of the operator. -/
theorem reads_operation {level : Level} {link : Token} {left right : Tree}
    (hleft : Reads (.chain level) ts left) (hlink : level.isLink link.kind = true)
    (hright : Reads level.operand us right) :
    Reads (.chain level) (ts ++ [link] ++ us) (.pair left link.text right) := by
  obtain ⟨d, rfl, rfl⟩ := hleft
  cases d with
  | chain first more =>
    have links := linksRead_snoc hlink hright more first.tree
    simpa [Derivation.tokens, Derivation.tree] using reads_chain ⟨first, rfl, rfl⟩ links

/-- What reading the links of a chain comes to. The induction is on the number of rounds, of which
there are enough, since each takes a token. -/
theorem links_outcome {level : Level} {operand : Parsing Tree} (room : brackets.length ≤ limit)
    (hoperand : ∀ c, Outcome limit ⟨.factor, brackets⟩ (Reads level.operand)
      level.operand.continues c (operand.outcome c))
    (rounds : List Token) (left : Tree) (c : Cursor) (enough : c.ahead.length ≤ rounds.length)
    (stops : level.operand.continues c.current.kind = false) :
    Outcome limit ⟨.continuation, brackets⟩ (LinksRead level left) (Phrase.chain level).continues c
      ((chainRest level.isLink operand rounds left).outcome c) := by
  induction rounds generalizing left c with
  | nil => simp [Cursor.ahead] at enough
  | cons round rounds ih =>
    rw [chainRest, outcome_get_bind]
    by_cases hlink : level.isLink c.current.kind = true
    · obtain ⟨i, t, rest⟩ := c
      obtain ⟨ts₀, right₀, hread₀⟩ := exists_reads level.operand
      rw [if_pos hlink]
      cases rest with
      | nil =>
        exact .failed (.exhausted (.refl _ _) ⟨ts₀ ++ [], _, linksRead_single hlink hread₀⟩ room)
      | cons t' rest =>
        rw [outcome_advance_bind_cons]
        have moved : Moved limit ⟨.continuation, brackets⟩ ⟨i, t, t' :: rest⟩ [t]
          ⟨.factor, brackets⟩ ⟨i + 1, t', rest⟩ := .over room (next_of_isLink hlink)
        rcases hresult : operand.outcome ⟨i + 1, t', rest⟩ with ⟨result, c₂⟩
        have houtcome := hoperand ⟨i + 1, t', rest⟩
        rw [hresult] at houtcome
        cases houtcome with
        | done onward read _ stops' =>
          rw [outcome_bind_of_ok hresult]
          refine (ih _ c₂ ?_ stops').behind (moved.trans onward) rfl ?_
          · -- the operator is taken, so one round fewer is enough
            have := congrArg List.length onward.ahead
            simp [Cursor.ahead] at this enough ⊢
            omega
          · intro us tree hmore
            exact linksRead_next hlink read hmore
        | failed failure =>
          rw [outcome_bind_of_error hresult]
          refine .failed (failure.behind moved (begun_behind fun ts right hright => ?_))
          exact ⟨[], _, linksRead_single hlink hright⟩
    · rw [if_neg hlink]
      refine .done (.refl _ c) ⟨.none, rfl, rfl⟩ room ?_
      exact chain_continues_eq_false.mpr ⟨Bool.eq_false_iff.mpr hlink, stops⟩

/-- What reading a chain comes to, if it is known for its operands. -/
theorem chain_outcome (level : Level) {operand : Parsing Tree} (room : brackets.length ≤ limit)
    (hoperand : ∀ c, Outcome limit ⟨.factor, brackets⟩ (Reads level.operand)
      level.operand.continues c (operand.outcome c)) (c : Cursor) :
    Outcome limit ⟨.factor, brackets⟩ (Reads (.chain level)) (Phrase.chain level).continues c
      ((chain level.isLink operand).outcome c) := by
  unfold chain
  rcases hresult : operand.outcome c with ⟨result, c₁⟩
  have houtcome := hoperand c
  rw [hresult] at houtcome
  cases houtcome with
  | done moved read _ stops =>
    rw [outcome_bind_of_ok hresult, outcome_get_bind]
    refine Outcome.behind ?_ moved rfl fun us tree hmore => reads_chain read hmore
    exact links_outcome room hoperand _ _ _ (Nat.le_refl _) stops
  | failed failure =>
    rw [outcome_bind_of_error hresult]
    refine .failed (failure.behind (.refl _ c) (begun_behind fun ts tree hread => ?_))
    exact ⟨[], tree, reads_chain_single hread⟩

/-! ## Expressions -/

/-- What reading an expression comes to, if it is known for factors. -/
theorem expressionWith_outcome {factor : Parsing Tree} (room : brackets.length ≤ limit)
    (hfactor : ∀ c, Outcome limit ⟨.factor, brackets⟩ (Reads .factor) Phrase.factor.continues c
      (factor.outcome c)) (c : Cursor) :
    Outcome limit ⟨.factor, brackets⟩ (Reads .expression) Phrase.expression.continues c
      ((expressionWith factor).outcome c) := by
  have hterm (c : Cursor) : Outcome limit ⟨.factor, brackets⟩ (Reads .term)
      Phrase.term.continues c ((termWith factor).outcome c) :=
    chain_outcome .product room hfactor c
  exact chain_outcome .sum room hterm c

/-- What reading a factor comes to, when so many brackets are open that `depth` more may be. -/
theorem factorWithin_outcome (depth : Nat) (room : brackets.length + depth = limit) (c : Cursor) :
    Outcome limit ⟨.factor, brackets⟩ (Reads .factor) Phrase.factor.continues c
      ((factorWithin depth).outcome c) := by
  induction depth generalizing brackets c with
  | zero =>
    refine factor_outcome (Nat.le_of_eq room) (fun b c => ?_) c
    obtain ⟨ts, tree, hread⟩ := exists_reads .expression
    refine .failed (.tooDeep (.refl _ c) ⟨ts, tree, hread⟩ ?_)
    rw [← room]
    rfl
  | succ depth ih =>
    refine factor_outcome (by omega) (fun b c => ?_) c
    have room' : (b :: brackets).length + depth = limit := by
      rw [List.length_cons, ← room]
      omega
    exact expressionWith_outcome (room' ▸ Nat.le_add_right _ _) (fun c => ih room' c) c

/-- What reading an expression comes to. -/
theorem expression_outcome (limit : Nat) (c : Cursor) :
    Outcome limit start (Reads .expression) Phrase.expression.continues c
      ((expressionWith (factorWithin limit)).outcome c) :=
  expressionWith_outcome (Nat.zero_le _) (factorWithin_outcome limit (Nat.zero_add _)) c

/-- What reading the whole input comes to. -/
inductive Verdict (limit : Nat) (c : Cursor) : Except ParseError Tree × Cursor → Prop
  | sentence {d : Derivation .expression} {c' : Cursor}
      (moved : Moved limit start c d.tokens ⟨.continuation, []⟩ c')
      (ends : c'.current.kind = .endOfInput) : Verdict limit c (.ok d.tree, c')
  | trailing {d : Derivation .expression} {c' : Cursor}
      (moved : Moved limit start c d.tokens ⟨.continuation, []⟩ c')
      (refused : Refuses ⟨.continuation, []⟩ c'.current.kind) :
      Verdict limit c (.error (.unexpected c'.current), c')
  | failed {e : ParseError} {c' : Cursor}
      (failure : Failure limit start (Begun (Reads .expression)) c e c') :
      Verdict limit c (.error e, c')

theorem completeWithin_verdict (limit : Nat) (c : Cursor) :
    Verdict limit c ((completeWithin limit).outcome c) := by
  unfold completeWithin
  rcases hresult : (expressionWith (factorWithin limit)).outcome c with ⟨result, c₁⟩
  have houtcome := expression_outcome limit c
  rw [hresult] at houtcome
  cases houtcome with
  | done moved read _ stops =>
    obtain ⟨d, rfl, rfl⟩ := read
    rw [outcome_bind_of_ok hresult, outcome_get_bind]
    by_cases hend : c₁.current.kind = .endOfInput
    · rw [if_pos hend]
      exact .sentence moved hend
    · rw [if_neg hend]
      refine .trailing moved ⟨?_, fun _ => hend⟩
      simp [Position.next, stops]
  | failed failure =>
    rw [outcome_bind_of_error hresult]
    exact .failed failure

end Grammar

end Calculator
