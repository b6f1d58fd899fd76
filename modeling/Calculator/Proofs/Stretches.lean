import Calculator.Proofs.Reading

/-!
# The stretch of tokens that is read as a phrase

A phrase can be asked for at any token of a list, and inside any number of brackets. What is read is
the longest stretch of tokens from there on that is a phrase of the sort, and it is read if the token
behind it does not continue it.

That nothing longer can be read is a matter of the grammar alone: of two phrases of one sort that begin
alike, the longer goes on with a token that continues the shorter. That nothing shorter is read, and
that reading does not fail on the way, is what reading with a cursor comes to: each token of a phrase
can stand where it stands.

Results:
1. `continues_of_longer`: a phrase that begins with another one continues it.
2. `readWithin_eq_ok_iff`: when a phrase is read at a cursor, and the cursor afterwards.
3. `longest_stretch_is_read`: the same by positions in a list of tokens.
-/

namespace Calculator

/-! ## Cursors -/

namespace Cursor

/-- The cursor on a token of a list. -/
def ofIndex (tokens : List Token) (i : Fin tokens.length) : Cursor :=
  ⟨i, tokens[i], tokens.drop (i + 1)⟩

theorem ahead_ofIndex (tokens : List Token) (i : Fin tokens.length) :
    (ofIndex tokens i).ahead = tokens.drop i := List.getElem_cons_drop ..

theorem eq_of_ahead {c c' : Cursor} (hahead : c.ahead = c'.ahead) (hindex : c.index = c'.index) :
    c = c' := by
  obtain ⟨i, t, rest⟩ := c
  obtain ⟨i', t', rest'⟩ := c'
  cases hahead
  cases hindex
  rfl

end Cursor

namespace Grammar

open Parsing Position

/-! ## Definitions -/

/-- Reads a phrase of the sort, with at most so many levels of nesting. -/
def Phrase.readWithin (depth : Nat) : Phrase → Parsing Tree
  | .factor => factorWithin depth
  | .chain .product => termWith (factorWithin depth)
  | .chain .sum => expressionWith (factorWithin depth)

/-- The readers for which all levels of nesting are left. -/
theorem readWithin_depthLimit :
    Phrase.factor.readWithin depthLimit = Parsing.factor ∧
      Phrase.term.readWithin depthLimit = Parsing.term ∧
      Phrase.expression.readWithin depthLimit = Parsing.expression := ⟨rfl, rfl, rfl⟩

/-- The tokens from `i` up to and without `j` are a phrase of the sort `p`, and no longer stretch of
tokens from `i` on is one. -/
structure IsLongest (p : Phrase) (tokens : List Token) (i j : Nat) : Prop where
  isPhrase : ∃ d : Derivation p, d.tokens = tokens.extract i j
  longest : ∀ k ≤ tokens.length, (∃ d : Derivation p, d.tokens = tokens.extract i k) → k ≤ j

variable {p : Phrase} {depth : Nat} {c c' : Cursor} {ts us more rest tokens : List Token} {t : Token}
  {tree : Tree} {e : ParseError}

/-! ## Nothing longer -/

/-- A phrase that begins with another one of the same sort goes on with a token that continues it. -/
theorem continues_of_longer (d d' : Derivation p) (longer : d'.tokens = d.tokens ++ t :: more) :
    p.continues t.kind = true := by
  cases stops : p.continues t.kind with
  | true => rfl
  | false =>
    -- both phrases would end where nothing continues them, with different rests
    have same : d.tokens ++ t :: more = d'.tokens ++ [] := by rw [longer, List.append_nil]
    obtain ⟨-, hrest⟩ := d.readable d' same (stopsBefore_cons.mpr stops) (stopsBefore_nil p)
    cases hrest

theorem continues_of_begun (d : Derivation p) (begun : Begun (Reads p) (d.tokens ++ t :: more)) :
    p.continues t.kind = true := by
  obtain ⟨us, tree, d', hd', -⟩ := begun
  have longer : d'.tokens = d.tokens ++ t :: (more ++ us) := by
    rw [hd', List.append_assoc, List.cons_append]
  exact continues_of_longer d d' longer

/-- The beginning of a phrase does not lead past one behind which the tokens do not continue it. -/
theorem exists_more_of_begun (d : Derivation p) (begun : Begun (Reads p) ts)
    (same : ts ++ us = d.tokens ++ t :: rest) (stops : p.continues t.kind = false) :
    ∃ more, d.tokens = ts ++ more ∧ us = more ++ t :: rest := by
  rcases List.append_eq_append_iff.mp same with ⟨more, hd, hus⟩ | ⟨beyond, hts, hrest⟩
  · exact ⟨more, hd, hus⟩
  · cases beyond with
    | nil =>
      rw [List.append_nil] at hts
      exact ⟨[], by rw [hts, List.append_nil], hrest.symm⟩
    | cons t' beyond =>
      obtain ⟨rfl, -⟩ := List.cons.inj hrest
      rw [hts] at begun
      rw [continues_of_begun d begun] at stops
      cases stops

/-! ## Nothing shorter -/

/-- What the readers of all sorts come to, at any depth. -/
theorem readWithin_outcome (p : Phrase) (depth : Nat) (c : Cursor) :
    Outcome depth start (Reads p) p.continues c ((p.readWithin depth).outcome c) := by
  have factor (c : Cursor) : Outcome depth start (Reads .factor) Phrase.factor.continues c
      ((factorWithin depth).outcome c) := factorWithin_outcome depth (Nat.zero_add _) c
  cases p with
  | factor => exact factor c
  | chain level =>
    cases level with
    | product => exact chain_outcome .product (Nat.zero_le _) factor c
    | sum => exact expressionWith_outcome (Nat.zero_le _) factor c

/-- Behind a complete phrase no factor is awaited. -/
theorem not_complaint_of_phrase (d : Derivation p) :
    ¬ Complaint (Begun (Reads p)) d.tokens t (.unexpected t) := by
  intro complaint
  cases complaint with
  | factor starts =>
    have continued := continues_of_begun d (starts (someToken .number) rfl)
    cases p with
    | factor => cases continued
    | chain level => cases level <;> cases continued

/-- Reading does not fail where a phrase stands ahead that the next token does not continue. -/
theorem not_failure (d : Derivation p) (split : c.ahead = d.tokens ++ t :: rest)
    (stops : p.continues t.kind = false) (shallow : NestsWithin depth d.tokens) :
    ¬ Failure depth start (Begun (Reads p)) c e c' := by
  intro failure
  cases failure with
  | @refused ts place c' moved passed room refused complaint =>
    obtain ⟨more, hd, hmore⟩ := exists_more_of_begun d passed (moved.ahead.symm.trans split) stops
    have reached : start.after d.tokens = some ⟨.continuation, []⟩ := d.after_start
    rw [hd, after_append, moved.reached] at reached
    cases more with
    | nil =>
      cases reached
      rw [List.append_nil] at hd
      rw [← hd] at complaint
      exact not_complaint_of_phrase d complaint
    | cons t' more =>
      -- the refused token would stand inside the phrase
      obtain ⟨q, hnext, -⟩ := exists_of_after_cons (show place.after (t' :: more) = _ from reached)
      obtain ⟨hcurrent, -⟩ := List.cons.inj hmore
      rw [← hcurrent, refused.1] at hnext
      cases hnext
  | @exhausted ts place i last moved passed room =>
    have same : (ts ++ [last]) ++ [] = d.tokens ++ t :: rest := by
      rw [List.append_nil, ← split]
      exact moved.ahead.symm
    obtain ⟨more, -, hmore⟩ := exists_more_of_begun d passed same stops
    simp at hmore
  | tooDeep moved passed deep =>
    obtain ⟨more, hd, -⟩ := exists_more_of_begun d passed (moved.ahead.symm.trans split) stops
    rw [hd] at shallow
    exact not_nestsWithin moved.reached deep shallow

/-! ## At a cursor -/

/-- A phrase is read if and only if it stands ahead, the token behind it does not continue it, and it
nests within the limit. The cursor then stands on that token. -/
theorem readWithin_eq_ok_iff :
    (p.readWithin depth).outcome c = (.ok tree, c') ↔
      ∃ d : Derivation p, d.tree = tree ∧ c.ahead = d.tokens ++ c'.ahead ∧
        c'.index = c.index + d.tokens.length ∧ p.continues c'.current.kind = false ∧
        NestsWithin depth d.tokens := by
  have houtcome := readWithin_outcome p depth c
  constructor
  · intro h
    rw [h] at houtcome
    cases houtcome with
    | done moved read room stops =>
      obtain ⟨d, rfl, rfl⟩ := read
      exact ⟨d, rfl, moved.ahead, moved.index, stops,
        nestsWithin_of_staysWithin moved.reached moved.within (Nat.zero_le _)⟩
  · rintro ⟨d, rfl, ahead, index, stops, shallow⟩
    rcases hresult : (p.readWithin depth).outcome c with ⟨result, c₁⟩
    rw [hresult] at houtcome
    cases houtcome with
    | done moved read room stops' =>
      -- two phrases that stand ahead, and neither is continued
      obtain ⟨d', rfl, rfl⟩ := read
      obtain ⟨rfl, behind⟩ := d.readable d' (ahead.symm.trans moved.ahead)
        (stopsBefore_cons.mpr stops) (stopsBefore_cons.mpr stops')
      rw [Cursor.eq_of_ahead behind (index.trans moved.index.symm)]
    | failed failure => exact absurd failure (not_failure d ahead stops shallow)

/-! ## By positions -/

theorem begun_of_derivation (d : Derivation p) : Begun (Reads p) d.tokens :=
  ⟨[], d.tree, d, (List.append_nil _).symm, rfl⟩

theorem tokens_ne_nil (d : Derivation p) : d.tokens ≠ [] := by
  intro empty
  have reached : start.after d.tokens = some ⟨.continuation, []⟩ := d.after_start
  rw [empty] at reached
  cases reached

/-- The tokens up to a later position, and those from there on. -/
theorem drop_eq_extract_append {i k : Nat} (le : i ≤ k) (tokens : List Token) :
    tokens.drop i = tokens.extract i k ++ tokens.drop k := by
  have split : tokens.drop k = (tokens.drop i).drop (k - i) := by
    rw [List.drop_drop, Nat.add_sub_of_le le]
  rw [split, List.extract_eq_take_drop, List.take_append_drop]

theorem length_extract {i k : Nat} (le : k ≤ tokens.length) :
    (tokens.extract i k).length = k - i := by
  rw [List.extract_eq_take_drop, List.length_take, List.length_drop]
  omega

/-- A phrase takes at least one token. -/
theorem lt_of_derivation {i k : Nat} (d : Derivation p) (hd : d.tokens = tokens.extract i k) :
    i < k := by
  rcases Nat.lt_or_ge i k with less | ge
  · exact less
  · have empty : tokens.extract i k = [] := by
      rw [List.extract_eq_take_drop, Nat.sub_eq_zero_of_le ge, List.take_zero]
    exact absurd (hd.trans empty) (tokens_ne_nil d)

/-- A cursor behind tokens that were taken from a position on. -/
theorem exists_ofIndex {i : Nat} (split : tokens.drop i = ts ++ c.ahead)
    (index : c.index = i + ts.length) :
    ∃ j : Fin tokens.length, c = Cursor.ofIndex tokens j ∧ ts = tokens.extract i j := by
  have hahead : c.ahead = tokens.drop c.index := by
    rw [index, ← List.drop_drop, split, List.drop_left]
  have inside : c.index < tokens.length := by
    have nonempty := congrArg List.length hahead
    rw [Cursor.ahead, List.length_cons, List.length_drop] at nonempty
    omega
  refine ⟨⟨c.index, inside⟩, Cursor.eq_of_ahead ?_ rfl, ?_⟩
  · rw [hahead, Cursor.ahead_ofIndex]
  · have count : c.index - i = ts.length := by rw [index, Nat.add_sub_cancel_left]
    rw [List.extract_eq_take_drop, split, count, List.take_left]

section Positions

variable {i j : Fin tokens.length}

/-- No longer stretch is a phrase than one behind which the tokens do not continue it. -/
theorem isLongest_of_stops (d : Derivation p) (hd : d.tokens = tokens.extract i j)
    (stops : p.continues tokens[j].kind = false) : IsLongest p tokens i j := by
  refine ⟨⟨d, hd⟩, fun k inside ⟨d', hd'⟩ => ?_⟩
  have hi : (i : Nat) ≤ j := Nat.le_of_lt (lt_of_derivation d hd)
  have hk : (i : Nat) ≤ k := Nat.le_of_lt (lt_of_derivation d' hd')
  have same : d'.tokens ++ tokens.drop k = d.tokens ++ (Cursor.ofIndex tokens j).ahead := by
    rw [Cursor.ahead_ofIndex, hd, hd', ← drop_eq_extract_append hi, ← drop_eq_extract_append hk]
  obtain ⟨more, longer, -⟩ := exists_more_of_begun d (begun_of_derivation d') same stops
  have lengths := congrArg List.length longer
  rw [hd, hd', List.length_append, length_extract inside, length_extract j.is_le'] at lengths
  omega

/-- A phrase is read from a position on if and only if it stands there, and the token behind it does
not continue it. -/
theorem readWithin_ofIndex_iff :
    (p.readWithin depth).outcome (.ofIndex tokens i) = (.ok tree, c) ↔
      ∃ (j : Fin tokens.length) (d : Derivation p), c = .ofIndex tokens j ∧
        d.tokens = tokens.extract i j ∧ d.tree = tree ∧ p.continues tokens[j].kind = false ∧
        NestsWithin depth d.tokens := by
  rw [readWithin_eq_ok_iff]
  constructor
  · rintro ⟨d, htree, split, index, stops, shallow⟩
    rw [Cursor.ahead_ofIndex] at split
    obtain ⟨j, rfl, hd⟩ := exists_ofIndex split index
    exact ⟨j, d, rfl, hd, htree, stops, shallow⟩
  · rintro ⟨j, d, rfl, hd, htree, stops, shallow⟩
    have le : (i : Nat) ≤ j := Nat.le_of_lt (lt_of_derivation d hd)
    refine ⟨d, htree, ?_, ?_, stops, shallow⟩
    · rw [Cursor.ahead_ofIndex, Cursor.ahead_ofIndex, hd]
      exact drop_eq_extract_append le tokens
    · rw [hd, length_extract j.is_le']
      exact (Nat.add_sub_of_le le).symm

end Positions

/-- Whatever phrase is asked for, at any token of a list and with any number of levels of nesting left:
what is read is the longest stretch of tokens from there on that is a phrase of the sort. It holds at
least one token and no end of the input, and the tree is that of its only derivation. The cursor then
stands on the token behind it. And the longest stretch is read if there is a token behind it, that
token does not continue it, and its brackets are nested within the limit. -/
theorem longest_stretch_is_read (p : Phrase) (depth : Nat) (tokens : List Token)
    (i : Fin tokens.length) :
    (∀ tree c, (p.readWithin depth).outcome (.ofIndex tokens i) = (.ok tree, c) →
      ∃ j : Fin tokens.length, c = .ofIndex tokens j ∧ i < j ∧
        (∀ t ∈ tokens.extract i j, t.kind ≠ .endOfInput) ∧
        (∃ d : Derivation p, d.tokens = tokens.extract i j ∧ d.tree = tree ∧
          ∀ d' : Derivation p, d'.tokens = tokens.extract i j → d' = d) ∧
        IsLongest p tokens i j) ∧
    ∀ j : Fin tokens.length, IsLongest p tokens i j → p.continues tokens[j].kind = false →
      NestsWithin depth (tokens.extract i j) →
        ∃ tree, (p.readWithin depth).outcome (.ofIndex tokens i) = (.ok tree, .ofIndex tokens j) := by
  constructor
  · intro tree c hread
    obtain ⟨j, d, rfl, hd, rfl, stops, -⟩ := readWithin_ofIndex_iff.mp hread
    refine ⟨j, rfl, lt_of_derivation d hd, ?_, ⟨d, hd, rfl, fun d' hd' => ?_⟩,
      isLongest_of_stops d hd stops⟩
    · rw [← hd]
      exact (begins_tokens d).kind_ne_endOfInput
    · exact Derivation.unambiguous (hd'.trans hd.symm)
  · rintro j ⟨⟨d, hd⟩, -⟩ stops shallow
    refine ⟨d.tree, readWithin_ofIndex_iff.mpr ⟨j, d, rfl, hd, rfl, stops, ?_⟩⟩
    rwa [hd]

/-- In `3 * (1 + 2) - 4` the term from the first token on ends before the minus sign. -/
theorem term_before_minus :
    let number (text : String) (x : Float) : Token := ⟨.number, text, some (.real x)⟩
    let symbol (kind : TokenKind) (text : String) : Token := ⟨kind, text, none⟩
    let tokens := [number "3" 3.0, symbol .times "*", symbol .openParen "(", number "1" 1.0,
      symbol .plus "+", number "2" 2.0, symbol .closeParen ")", symbol .minus "-", number "4" 4.0,
      .endOfInput]
    let i : Fin tokens.length := ⟨0, (by decide : 0 < 10)⟩
    let j : Fin tokens.length := ⟨7, (by decide : 7 < 10)⟩
    let tree : Tree := .pair (.number (some (.real 3.0))) "*"
      (.pair (.number (some (.real 1.0))) "+" (.number (some (.real 2.0))))
    Parsing.term.outcome (.ofIndex tokens i) = (.ok tree, .ofIndex tokens j) ∧
      IsLongest .term tokens i j ∧ Phrase.term.continues tokens[j].kind = false ∧
      NestsWithin depthLimit (tokens.extract i j) ∧
      ∃ tree, Parsing.term.outcome (.ofIndex tokens i) = (.ok tree, .ofIndex tokens j) := by
  intro number symbol tokens i j tree
  obtain ⟨taken, returns⟩ := longest_stretch_is_read .term depthLimit tokens i
  have hread : Parsing.term.outcome (.ofIndex tokens i) = (.ok tree, .ofIndex tokens j) := rfl
  obtain ⟨k, hcursor, -, -, -, isLongest⟩ := taken tree _ hread
  obtain rfl : j = k := Fin.ext (congrArg Cursor.index hcursor)
  have shallow : NestsWithin depthLimit (tokens.extract i j) :=
    nestsWithin_of_openings_le (by decide)
  exact ⟨hread, isLongest, rfl, shallow, returns j isLongest rfl shallow⟩

end Grammar

end Calculator
