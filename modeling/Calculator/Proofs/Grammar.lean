import Calculator.Parsing.Expression

/-!
# The grammar of expressions

    expression := term (('+' | '-') term)*
    term       := factor (('*' | '/' | '%') factor)*
    factor     := '(' expression ')'
                | number
                | function '(' expression (',' expression)? ')'

A `Derivation` says how a list of tokens is read as a phrase of this grammar. It is data: its leaves
are tokens, of which the rules look at the kind alone, and `Derivation.tree` is the tree that it
stands for. This module knows nothing of the reading of tokens with a cursor.

Results:
1. `Derivation.readable`: a list of tokens begins with at most one phrase of a given sort that the
   next token does not continue.
2. `Derivation.unambiguous`: a list of tokens has at most one derivation.
-/

namespace Calculator

namespace Grammar

/-! ## Definitions -/

/-- The two levels of operators. -/
inductive Level where
  /-- Terms, joined by `+` and `-`. -/
  | sum
  /-- Factors, joined by `*`, `/` and `%`. -/
  | product
deriving DecidableEq

/-- The sorts of phrases. A chain is a row of operands with operators of one level between them. -/
inductive Phrase where
  | factor
  | chain (level : Level)
deriving DecidableEq

/-- A chain of factors. -/
abbrev Phrase.term : Phrase := .chain .product

/-- A chain of terms. -/
abbrev Phrase.expression : Phrase := .chain .sum

namespace Level

/-- The operators of a level. -/
def isLink : Level → TokenKind → Bool
  | sum => Parsing.isAdditive
  | product => Parsing.isMultiplicative

/-- The operands of a level: an expression is made of terms, a term is made of factors. -/
def operand : Level → Phrase
  | sum => .term
  | product => .factor

end Level

mutual

/-- The ways to read tokens as a phrase. -/
inductive Derivation : Phrase → Type
  | number (t : Token) (isNumber : t.kind = .number) : Derivation .factor
  | group (opening : Token) (inner : Derivation .expression) (closing : Token)
      (isOpening : opening.kind = .openParen) (isClosing : closing.kind = .closeParen) :
      Derivation .factor
  | call (name opening : Token) (argument : Derivation .expression) (closing : Token)
      (isName : name.kind = .function) (isOpening : opening.kind = .openParen)
      (isClosing : closing.kind = .closeParen) : Derivation .factor
  | callPair (name opening : Token) (first : Derivation .expression) (comma : Token)
      (second : Derivation .expression) (closing : Token)
      (isName : name.kind = .function) (isOpening : opening.kind = .openParen)
      (isComma : comma.kind = .comma) (isClosing : closing.kind = .closeParen) : Derivation .factor
  | chain {level : Level} (first : Derivation level.operand) (more : Links level) :
      Derivation (.chain level)

/-- The ways to read tokens as operators of a level with an operand behind each. -/
inductive Links : Level → Type
  | none {level : Level} : Links level
  | next {level : Level} (link : Token) (right : Derivation level.operand) (more : Links level)
      (isLink : level.isLink link.kind = true) : Links level

end

mutual

/-- The tokens of a phrase, in order. -/
def Derivation.tokens {p : Phrase} : Derivation p → List Token
  | .number t _ => [t]
  | .group opening inner closing _ _ => opening :: (inner.tokens ++ [closing])
  | .call name opening argument closing _ _ _ =>
      name :: opening :: (argument.tokens ++ [closing])
  | .callPair name opening first comma second closing _ _ _ _ =>
      name :: opening :: (first.tokens ++ comma :: (second.tokens ++ [closing]))
  | .chain first more => first.tokens ++ more.tokens

/-- The tokens of the links of a chain, in order. -/
def Links.tokens {level : Level} : Links level → List Token
  | .none => []
  | .next link right more _ => link :: (right.tokens ++ more.tokens)

end

mutual

/-- The tree of a phrase. A bracket leaves no node, a call gives one node under the text of the
function, and a number is a leaf with its value. -/
def Derivation.tree {p : Phrase} : Derivation p → Tree
  | .number t _ => .number t.value
  | .group _ inner _ _ _ => inner.tree
  | .call name _ argument _ _ _ _ => .call name.text argument.tree
  | .callPair name _ first _ second _ _ _ _ _ => .pair first.tree name.text second.tree
  | .chain first more => more.treeOnto first.tree

/-- The tree of a chain whose operands up to here have the tree `left`. Each operator takes all that
stands before it as its left operand. -/
def Links.treeOnto {level : Level} : Links level → Tree → Tree
  | .none, left => left
  | .next link right more _, left => more.treeOnto (.pair left link.text right.tree)

end

/-- A token behind a complete phrase with which the phrase would go on. -/
def Phrase.continues : Phrase → TokenKind → Bool
  | .factor, _ => false
  | .chain .product, kind => Parsing.isMultiplicative kind
  | .chain .sum, kind => Parsing.isAdditive kind || Parsing.isMultiplicative kind

/-- What stands behind a complete phrase does not continue it. -/
def Phrase.StopsBefore (p : Phrase) (ts : List Token) : Prop :=
  ∀ t ∈ ts.head?, p.continues t.kind = false

/-- The tokens can be completed to a phrase. -/
def Begins (p : Phrase) (ts : List Token) : Prop :=
  ∃ (d : Derivation p) (more : List Token), d.tokens = ts ++ more

/-! ## Levels -/

theorem operand_continues_of_isLink {level : Level} {kind : TokenKind}
    (h : level.isLink kind = true) : level.operand.continues kind = false := by
  cases level <;> cases kind <;> first | rfl | cases h

theorem chain_continues_iff {level : Level} {kind : TokenKind} :
    (Phrase.chain level).continues kind = true ↔
      level.isLink kind = true ∨ level.operand.continues kind = true := by
  cases level <;> simp [Phrase.continues, Level.isLink, Level.operand]

theorem chain_continues_eq_false {level : Level} {kind : TokenKind} :
    (Phrase.chain level).continues kind = false ↔
      level.isLink kind = false ∧ level.operand.continues kind = false := by
  cases level <;> simp [Phrase.continues, Level.isLink, Level.operand]

/-! ## The grammar is unambiguous -/

/-- Only the first token decides whether a phrase goes on. -/
theorem stopsBefore_cons {p : Phrase} {t : Token} {ts : List Token} :
    p.StopsBefore (t :: ts) ↔ p.continues t.kind = false := by
  simp [Phrase.StopsBefore]

theorem stopsBefore_nil (p : Phrase) : p.StopsBefore [] := by
  intro t ht
  cases ht

theorem expression_stopsBefore_closing {t : Token} {ts : List Token} (h : t.kind = .closeParen) :
    Phrase.expression.StopsBefore (t :: ts) := by
  rw [stopsBefore_cons, h]
  rfl

theorem expression_stopsBefore_comma {t : Token} {ts : List Token} (h : t.kind = .comma) :
    Phrase.expression.StopsBefore (t :: ts) := by
  rw [stopsBefore_cons, h]
  rfl

/-- An operand stops where the links of its chain begin, and where the chain ends. -/
theorem operand_stopsBefore {level : Level} (more : Links level) {ts : List Token}
    (h : (Phrase.chain level).StopsBefore ts) :
    level.operand.StopsBefore (more.tokens ++ ts) := by
  cases more with
  | none =>
    intro t ht
    exact (chain_continues_eq_false.mp (h t ht)).2
  | next link right more isLink =>
    exact stopsBefore_cons.mpr (operand_continues_of_isLink isLink)

mutual

/-- Unique readability. The induction follows the tokens from left to right: the kind of the first
token decides the rule, and each part ends where the next token does not continue it. -/
theorem Derivation.readable {p : Phrase} (d : Derivation p) (d' : Derivation p)
    {r r' : List Token} (same : d.tokens ++ r = d'.tokens ++ r')
    (stops : p.StopsBefore r) (stops' : p.StopsBefore r') : d = d' ∧ r = r' := by
  cases d with
  | number t isNumber =>
    cases d' <;> simp [Derivation.tokens] at same <;> grind
  | group opening inner closing isOpening isClosing =>
    cases d' with
    | group opening' inner' closing' isOpening' isClosing' =>
      simp only [Derivation.tokens, List.cons_append, List.append_assoc, List.nil_append,
        List.cons.injEq] at same
      obtain ⟨hinner, hrest⟩ := inner.readable inner' same.2
        (expression_stopsBefore_closing isClosing) (expression_stopsBefore_closing isClosing')
      obtain ⟨hclosing, hr⟩ := List.cons.inj hrest
      obtain ⟨hopening, -⟩ := same
      subst hopening hinner hclosing
      exact ⟨rfl, hr⟩
    | number | call | callPair => simp [Derivation.tokens] at same; grind
  | call name opening argument closing isName isOpening isClosing =>
    cases d' with
    | call name' opening' argument' closing' isName' isOpening' isClosing' =>
      simp only [Derivation.tokens, List.cons_append, List.append_assoc, List.nil_append,
        List.cons.injEq] at same
      obtain ⟨hargument, hrest⟩ := argument.readable argument' same.2.2
        (expression_stopsBefore_closing isClosing) (expression_stopsBefore_closing isClosing')
      obtain ⟨hclosing, hr⟩ := List.cons.inj hrest
      obtain ⟨hname, hopening, -⟩ := same
      subst hname hopening hargument hclosing
      exact ⟨rfl, hr⟩
    | callPair name' opening' first' comma' second' closing' isName' isOpening' isComma' isClosing' =>
      simp only [Derivation.tokens, List.cons_append, List.append_assoc, List.nil_append,
        List.cons.injEq] at same
      -- both arguments are the same phrase, so what follows cannot be a parenthesis and a comma
      obtain ⟨-, hrest⟩ := argument.readable first' same.2.2
        (expression_stopsBefore_closing isClosing) (expression_stopsBefore_comma isComma')
      rw [(List.cons.inj hrest).1, isComma'] at isClosing
      cases isClosing
    | number | group => simp [Derivation.tokens] at same; grind
  | callPair name opening first comma second closing isName isOpening isComma isClosing =>
    cases d' with
    | callPair name' opening' first' comma' second' closing' isName' isOpening' isComma' isClosing' =>
      simp only [Derivation.tokens, List.cons_append, List.append_assoc, List.nil_append,
        List.cons.injEq] at same
      obtain ⟨hfirst, hrest⟩ := first.readable first' same.2.2
        (expression_stopsBefore_comma isComma) (expression_stopsBefore_comma isComma')
      obtain ⟨hcomma, behind⟩ := List.cons.inj hrest
      obtain ⟨hsecond, hrest⟩ := second.readable second' behind
        (expression_stopsBefore_closing isClosing) (expression_stopsBefore_closing isClosing')
      obtain ⟨hclosing, hr⟩ := List.cons.inj hrest
      obtain ⟨hname, hopening, -⟩ := same
      subst hname hopening hfirst hcomma hsecond hclosing
      exact ⟨rfl, hr⟩
    | call name' opening' argument' closing' isName' isOpening' isClosing' =>
      simp only [Derivation.tokens, List.cons_append, List.append_assoc, List.nil_append,
        List.cons.injEq] at same
      obtain ⟨-, hrest⟩ := first.readable argument' same.2.2
        (expression_stopsBefore_comma isComma) (expression_stopsBefore_closing isClosing')
      rw [(List.cons.inj hrest).1, isClosing'] at isComma
      cases isComma
    | number | group => simp [Derivation.tokens] at same; grind
  | chain first more =>
    cases d' with
    | chain first' more' =>
      simp only [Derivation.tokens, List.append_assoc] at same
      obtain ⟨hfirst, behind⟩ := first.readable first' same (operand_stopsBefore more stops)
        (operand_stopsBefore more' stops')
      obtain ⟨hmore, hr⟩ := more.readable more' behind stops stops'
      subst hfirst hmore
      exact ⟨rfl, hr⟩

/-- Unique readability of the links of a chain. -/
theorem Links.readable {level : Level} (more more' : Links level) {r r' : List Token}
    (same : more.tokens ++ r = more'.tokens ++ r') (stops : (Phrase.chain level).StopsBefore r)
    (stops' : (Phrase.chain level).StopsBefore r') : more = more' ∧ r = r' := by
  match more, more' with
  | .none, .none => exact ⟨rfl, same⟩
  | .none, .next link' right' more' isLink' =>
    simp only [Links.tokens, List.nil_append, List.cons_append] at same
    rw [same, stopsBefore_cons, chain_continues_eq_false] at stops
    rw [stops.1] at isLink'
    cases isLink'
  | .next link right more isLink, .none =>
    simp only [Links.tokens, List.nil_append, List.cons_append] at same
    rw [← same, stopsBefore_cons, chain_continues_eq_false] at stops'
    rw [stops'.1] at isLink
    cases isLink
  | .next link right more isLink, .next link' right' more' isLink' =>
    simp only [Links.tokens, List.cons_append, List.append_assoc, List.cons.injEq] at same
    obtain ⟨hright, behind⟩ := right.readable right' same.2 (operand_stopsBefore more stops)
      (operand_stopsBefore more' stops')
    obtain ⟨hmore, hr⟩ := more.readable more' behind stops stops'
    obtain ⟨hlink, -⟩ := same
    subst hlink hright hmore
    exact ⟨rfl, hr⟩

end

/-- A list of tokens has at most one derivation as a phrase of a given sort. -/
theorem Derivation.unambiguous {p : Phrase} {d d' : Derivation p} (same : d.tokens = d'.tokens) :
    d = d' := by
  have none : p.StopsBefore [] := stopsBefore_nil p
  exact (d.readable d' (show d.tokens ++ [] = d'.tokens ++ [] by rw [same]) none none).1

end Grammar

end Calculator
