import Calculator.Evaluation.Operator
import Calculator.Proofs.Sentence
import Calculator.Proofs.Spacing

/-!
# Writing formulas

A formula is a tree that can be written: its leaves are number literals, its calls are of functions
that have a name, and its other nodes are arithmetic operations. It is written with a bracket around
an operand only where the operand would otherwise be read as something else, and with blanks between
its words wherever one likes. What is read from that is the tree of the formula.

Results:
1. `Formula.ofText_written`: the tokens of a written formula are those of its words.
2. `Formula.reads`: the words of a formula are a phrase with its tree.
3. `Formula.ofTokens_written`: a written formula is read as its tree.
-/

namespace Calculator

open Grammar Parsing

/-! ## Definitions -/

/-- Digits with at most one point before, among or behind them. -/
structure NumberLiteral where
  /-- The digits before the point. -/
  whole : List Char
  /-- The digits behind the point, none if there is no point. -/
  fraction : Option (List Char)
  isDigit : ∀ c ∈ whole ++ fraction.getD [], Literal.isDigit c = true
  nonempty : whole ++ fraction.getD [] ≠ []

namespace NumberLiteral

/-- The characters of a literal. -/
def chars (l : NumberLiteral) : List Char := l.whole ++ l.fraction.elim [] ('.' :: ·)

/-- The text of a literal. -/
def text (l : NumberLiteral) : String := String.ofList l.chars

/-- The decimal number that a literal denotes. -/
def decimal (l : NumberLiteral) : Decimal := .ofDigits l.whole (l.fraction.getD [])

end NumberLiteral

/-- The name of a function. -/
abbrev FunctionName := { name : String // isFunctionName name = true }

namespace Operator

/-- The symbol that an operator is written as. -/
def symbol : Operator → String
  | plus => "+"
  | minus => "-"
  | times => "*"
  | divide => "/"
  | modulo => "%"

/-- The level of an operator. -/
def level : Operator → Level
  | plus | minus => .sum
  | times | divide | modulo => .product

end Operator

/-- A tree that can be written. -/
inductive Formula where
  | number (literal : NumberLiteral)
  | call (name : FunctionName) (argument : Formula)
  | callPair (first : Formula) (name : FunctionName) (second : Formula)
  | operation (left : Formula) (op : Operator) (right : Formula)

namespace Formula

/-- The tree of a formula. -/
def tree : Formula → Tree
  | number literal => .number (some (.real literal.decimal.toFloat))
  | call name argument => .call name.val argument.tree
  | callPair first name second => .pair first.tree name.val second.tree
  | operation left op right => .pair left.tree op.symbol right.tree

/-- The formula is a sum or a difference. -/
def isSum : Formula → Bool
  | operation _ op _ => op.level = .sum
  | _ => false

/-- The formula is an arithmetic operation. -/
def isOperation : Formula → Bool
  | operation .. => true
  | _ => false

/-- A left operand stands in brackets if it is a sum or a difference and the operator is none. -/
def bracketsLeft (op : Operator) (operand : Formula) : Bool :=
  match op.level with
  | .sum => false
  | .product => operand.isSum

/-- A right operand stands in brackets if it is a sum or a difference, and behind an operator of
products already if it is any operation. -/
def bracketsRight (op : Operator) (operand : Formula) : Bool :=
  match op.level with
  | .sum => operand.isSum
  | .product => operand.isOperation

/-- Puts words in brackets, or leaves them as they are. -/
def enclose (brackets : Bool) (ws : List String) : List String :=
  if brackets then "(" :: (ws ++ [")"]) else ws

/-- The words of a formula, in order. -/
def words : Formula → List String
  | number literal => [literal.text]
  | call name argument => name.val :: "(" :: (argument.words ++ [")"])
  | callPair first name second =>
      name.val :: "(" :: (first.words ++ "," :: (second.words ++ [")"]))
  | operation left op right =>
      enclose (bracketsLeft op left) left.words ++
        op.symbol :: enclose (bracketsRight op right) right.words

/-- The text is the formula, with blanks between the words or not. -/
def WrittenAs (f : Formula) (text : String) : Prop :=
  Spaced (f.words.map String.toList) text.toList

/-- The sort of phrase that a formula is without brackets around it. -/
def phrase : Formula → Phrase
  | operation _ op _ => .chain op.level
  | _ => .factor

end Formula

/-! ## Words -/

/-- The word is one fragment of a text in which it stands alone. -/
def IsWord (w : String) : Prop := fragmentsOf w.toList = [w.toList]

theorem isWord_of_isSymbolWord {w : String} (h : IsSymbolWord w.toList) : IsWord w := by
  obtain ⟨c, hc, symbol⟩ := h
  rw [IsWord, hc, fragmentsOf_cons_symbol symbol]
  rfl

/-- The name of a function is one piece. -/
theorem FunctionName.isWord (name : FunctionName) : IsWord name.val := by
  have hname : isFunctionName (String.ofList name.val.toList) = true := by
    rw [String.ofList_toList]
    exact name.property
  obtain ⟨nonempty, word⟩ := word_of_isFunctionName hname
  have fits : (Piece.name name.val.toList).Fits [] [] := ⟨⟨nonempty, word, nofun, nofun⟩, hname⟩
  exact fits.makeUp.fragmentsOf_eq

theorem FunctionName.ofFragment_eq (name : FunctionName) :
    Token.ofFragment name.val = ⟨.function, name.val, none⟩ := by
  have all : ∀ name ∈ functionNames, Token.ofFragment name = ⟨.function, name, none⟩ := by
    decide +kernel
  exact all name.val (List.contains_iff_mem.mp name.property)

@[simp] theorem FunctionName.kind_eq (name : FunctionName) :
    (Token.ofFragment name.val).kind = .function := by
  rw [name.ofFragment_eq]

namespace Token

@[simp] theorem kind_opening : (ofFragment "(").kind = .openParen := rfl

@[simp] theorem kind_closing : (ofFragment ")").kind = .closeParen := rfl

@[simp] theorem kind_comma : (ofFragment ",").kind = .comma := rfl

end Token

namespace Operator

theorem isSymbolWord_symbol (op : Operator) : IsSymbolWord op.symbol.toList := by
  cases op <;> exact ⟨_, rfl, rfl⟩

/-- The symbol of an operator is a token of its level. -/
theorem isLink_symbol (op : Operator) :
    op.level.isLink (Token.ofFragment op.symbol).kind = true := by
  cases op <;> rfl

theorem kind_symbol_ne (op : Operator) : (Token.ofFragment op.symbol).kind ≠ .openParen := by
  cases op <;> decide

end Operator

/-! ## Literals -/

namespace Literal

/-- The ten digits. -/
def digits : List Char := ['0', '1', '2', '3', '4', '5', '6', '7', '8', '9']

theorem mem_digits_of_isDigit {c : Char} (h : isDigit c = true) : c ∈ digits := by
  have all : ∀ k < 10, Char.ofNat (48 + k) ∈ digits := by decide
  have above : 48 ≤ c.toNat := of_decide_eq_true ((Bool.and_eq_true _ _).mp h).1
  have below : c.toNat ≤ 57 := of_decide_eq_true ((Bool.and_eq_true _ _).mp h).2
  have hc := all (c.toNat - 48) (by omega)
  rwa [Nat.add_sub_cancel' above, Char.ofNat_toNat] at hc

end Literal

namespace NumberLiteral

variable (l : NumberLiteral)

/-- The characters of a literal are digits and the point. -/
theorem digit_or_point : ∀ c ∈ l.chars, Literal.isDigit c = true ∨ c = '.' := by
  obtain ⟨whole, fraction, isDigit, -⟩ := l
  intro c hc
  rcases List.mem_append.mp hc with hc | hc
  · exact .inl (isDigit c (List.mem_append_left _ hc))
  · cases fraction with
    | none => cases hc
    | some fraction =>
      rcases List.mem_cons.mp hc with rfl | hc
      · exact .inr rfl
      · exact .inl (isDigit c (List.mem_append_right _ hc))

theorem chars_ne_nil : l.chars ≠ [] := by
  obtain ⟨_ | ⟨c, whole⟩, fraction, -, nonempty⟩ := l
  · cases fraction with
    | none => exact absurd rfl nonempty
    | some fraction => exact List.cons_ne_nil _ _
  · exact List.cons_ne_nil _ _

/-- The digits before the point are the longest run of digits at the left end. -/
theorem split_chars : l.chars.takeWhile Literal.isDigit = l.whole ∧
    l.chars.dropWhile Literal.isDigit = l.fraction.elim [] ('.' :: ·) := by
  obtain ⟨whole, fraction, isDigit, -⟩ := l
  have digits : ∀ c ∈ whole, Literal.isDigit c = true :=
    fun c hc => isDigit c (List.mem_append_left _ hc)
  have point : ¬Literal.isDigit '.' = true := by decide
  unfold chars
  rw [List.takeWhile_append_of_pos digits, List.dropWhile_append_of_pos digits]
  cases fraction with
  | none => simp
  | some fraction =>
    simp [List.takeWhile_cons_of_neg point, List.dropWhile_cons_of_neg point]

/-- What a literal denotes is what is read from its characters. -/
theorem read?_chars : Literal.read? l.chars = some l.decimal := by
  unfold Literal.read?
  rw [l.split_chars.1, l.split_chars.2]
  obtain ⟨whole, fraction, isDigit, nonempty⟩ := l
  cases fraction with
  | none =>
    have hwhole : whole.isEmpty = false := by simpa using nonempty
    simp [decimal, hwhole]
  | some fraction =>
    have digits : fraction.all Literal.isDigit = true :=
      List.all_eq_true.mpr fun c hc => isDigit c (List.mem_append_right _ hc)
    have hdigits : (whole.isEmpty && fraction.isEmpty) = false := by
      simpa [Bool.and_eq_false_imp] using nonempty
    simp [decimal, digits, hdigits]

/-- No name of a function is made of digits and points. -/
theorem not_isFunctionName {w : List Char} (h : ∀ c ∈ w, Literal.isDigit c = true ∨ c = '.') :
    isFunctionName (String.ofList w) = false := by
  have all : ∀ name ∈ functionNames,
      name.toList.any (fun c => !Literal.isDigit c && c != '.') = true := by
    decide +kernel
  cases hname : isFunctionName (String.ofList w) with
  | false => rfl
  | true =>
    obtain ⟨c, hc, other⟩ := List.any_eq_true.mp (all _ (List.contains_iff_mem.mp hname))
    rw [String.toList_ofList] at hc
    rcases h c hc with digit | rfl
    · simp [digit] at other
    · simp at other

/-- Neither digits nor the point are blanks or symbols. -/
theorem visible : ∀ c ∈ l.chars, isBlank c = false ∧ isSymbol c = false := by
  intro c hc
  rcases l.digit_or_point c hc with digit | rfl
  · have all : Literal.digits.all (fun c => !isBlank c && !isSymbol c) = true := by decide
    simpa using List.all_eq_true.mp all c (Literal.mem_digits_of_isDigit digit)
  · decide

/-- A literal is one stretch. -/
theorem isWord : IsWord l.text := by
  have fits : (Piece.stretch l.chars).Fits [] [] := by
    refine ⟨l.chars_ne_nil, l.visible, ?_⟩
    intro pre w post split _
    refine not_isFunctionName ?_
    intro c hc
    refine l.digit_or_point c ?_
    rw [split]
    exact List.mem_append_left _ (List.mem_append_right _ hc)
  rw [IsWord, text, String.toList_ofList]
  exact fits.makeUp.fragmentsOf_eq

theorem ofFragment_eq : Token.ofFragment l.text = ⟨.number, l.text, some (.real l.decimal.toFloat)⟩ := by
  have hchars : l.text.toList = l.chars := String.toList_ofList
  have nameless : ¬isFunctionName l.text = true := by
    rw [text, not_isFunctionName l.digit_or_point]
    exact Bool.false_ne_true
  have hword : Token.ofFragment.ofWord l.text = ⟨.number, l.text, some (.real l.decimal.toFloat)⟩ := by
    rw [Token.ofFragment.ofWord, if_neg nameless, hchars, l.read?_chars]
  unfold Token.ofFragment
  split
  · next c single =>
    have other := (l.visible c (by rw [← hchars, single]; exact List.mem_cons_self)).2
    rw [isSymbol, Option.isSome_eq_false_iff, Option.isNone_iff_eq_none] at other
    rw [other]
    exact hword
  · exact hword

end NumberLiteral

/-! ## The words of a formula are its fragments -/

/-- Each word is one fragment, and of two neighbours one is a symbol. -/
structure WellParted (ws : List String) : Prop where
  words : ∀ w ∈ ws, IsWord w
  alternating : Alternating (ws.map String.toList)

section

variable {w : String} {vs ws : List String}

theorem wellParted_nil : WellParted [] where
  words := nofun
  alternating := .nil

theorem wellParted_single (h : IsWord w) : WellParted [w] where
  words := by simpa using h
  alternating := .singleton _

/-- A symbol parts any words. -/
theorem WellParted.join (hv : WellParted vs) (symbol : IsSymbolWord w.toList) (hw : WellParted ws) :
    WellParted (vs ++ w :: ws) where
  words := by
    intro v hmem
    rcases List.mem_append.mp hmem with hmem | hmem
    · exact hv.words v hmem
    · rcases List.mem_cons.mp hmem with rfl | hmem
      · exact isWord_of_isSymbolWord symbol
      · exact hw.words v hmem
  alternating := by
    unfold Alternating
    rw [List.map_append, List.map_cons]
    refine hv.alternating.append (hw.alternating.cons ?_) ?_
    · intro v _
      exact .inl symbol
    · rintro v _ _ ⟨⟩
      exact .inr symbol

theorem isSymbolWord_opening : IsSymbolWord "(".toList := ⟨'(', rfl, rfl⟩

theorem isSymbolWord_closing : IsSymbolWord ")".toList := ⟨')', rfl, rfl⟩

theorem isSymbolWord_comma : IsSymbolWord ",".toList := ⟨',', rfl, rfl⟩

/-- Words in brackets. -/
theorem WellParted.bracketed (h : WellParted ws) : WellParted ("(" :: (ws ++ [")"])) :=
  wellParted_nil.join isSymbolWord_opening (h.join isSymbolWord_closing wellParted_nil)

end

namespace Formula

theorem wellParted_enclose {ws : List String} (h : WellParted ws) (brackets : Bool) :
    WellParted (enclose brackets ws) := by
  cases brackets with
  | false => exact h
  | true => exact h.bracketed

/-- The words of a formula are found again in its text. -/
theorem wellParted_words (f : Formula) : WellParted f.words := by
  induction f with
  | number literal => exact wellParted_single literal.isWord
  | call name argument ih =>
    exact (wellParted_single name.isWord).join isSymbolWord_opening
      (ih.join isSymbolWord_closing wellParted_nil)
  | callPair first name second ih₁ ih₂ =>
    exact (wellParted_single name.isWord).join isSymbolWord_opening
      (ih₁.join isSymbolWord_comma (ih₂.join isSymbolWord_closing wellParted_nil))
  | operation left op right ih₁ ih₂ =>
    exact (wellParted_enclose ih₁ _).join op.isSymbolWord_symbol (wellParted_enclose ih₂ _)

/-- The tokens of a formula. -/
def tokens (f : Formula) : List Token := f.words.map Token.ofFragment

/-- The tokens of a written formula are those of its words. -/
theorem ofText_written {f : Formula} {text : String} (written : f.WrittenAs text) :
    Token.ofText text = f.tokens ++ [Token.endOfInput] := by
  have parted := f.wellParted_words
  have single : ∀ w ∈ f.words.map String.toList, fragmentsOf w = [w] := by
    intro w hw
    obtain ⟨v, hv, rfl⟩ := List.mem_map.mp hw
    exact parted.words v hv
  have back : (f.words.map String.toList).map String.ofList = f.words := by
    have same : String.ofList ∘ String.toList = id := funext fun _ => String.ofList_toList
    rw [List.map_map, same, List.map_id]
  rw [Token.ofText, fragments, written.fragmentsOf_eq single parted.alternating, back, tokens]

/-! ## The words of a formula are a phrase with its tree -/

variable {f : Formula}

/-- Brackets make a factor of a formula. -/
theorem reads_bracketed (h : Reads f.phrase f.tokens f.tree) :
    Reads .factor (("(" :: (f.words ++ [")"])).map Token.ofFragment) f.tree := by
  simpa [tokens] using reads_group Token.kind_opening Token.kind_closing (reads_expression h)

/-- What is no operation is a factor. -/
theorem phrase_of_isOperation (h : f.isOperation = false) : f.phrase = .factor := by
  cases f with
  | operation => cases h
  | number | call | callPair => rfl

/-- What is neither a sum nor a difference is a factor or a chain of factors. -/
theorem phrase_of_isSum (h : f.isSum = false) : f.phrase = .factor ∨ f.phrase = .term := by
  cases f with
  | operation left op right =>
    cases op with
    | plus | minus => cases h
    | times | divide | modulo => exact .inr rfl
  | number | call | callPair => exact .inl rfl

/-- As a term, sums and differences are enclosed. -/
theorem reads_enclosed_term (h : Reads f.phrase f.tokens f.tree) :
    Reads .term ((enclose f.isSum f.words).map Token.ofFragment) f.tree := by
  cases hsum : f.isSum with
  | true => exact reads_of_factor (reads_bracketed h)
  | false =>
    rcases phrase_of_isSum hsum with hphrase | hphrase
    · rw [hphrase] at h
      exact reads_of_factor h
    · rwa [hphrase] at h

/-- As a factor, every operation is enclosed. -/
theorem reads_enclosed_factor (h : Reads f.phrase f.tokens f.tree) :
    Reads .factor ((enclose f.isOperation f.words).map Token.ofFragment) f.tree := by
  cases hoperation : f.isOperation with
  | true => exact reads_bracketed h
  | false => rwa [phrase_of_isOperation hoperation] at h

/-- A left operand is a chain of the level of the operator. -/
theorem reads_left (op : Operator) (h : Reads f.phrase f.tokens f.tree) :
    Reads (.chain op.level) ((enclose (bracketsLeft op f) f.words).map Token.ofFragment) f.tree := by
  unfold bracketsLeft
  cases op.level with
  | sum => exact reads_expression h
  | product => exact reads_enclosed_term h

/-- A right operand is an operand of the level of the operator. -/
theorem reads_right (op : Operator) (h : Reads f.phrase f.tokens f.tree) :
    Reads op.level.operand ((enclose (bracketsRight op f) f.words).map Token.ofFragment) f.tree := by
  unfold bracketsRight
  cases op.level with
  | sum => exact reads_enclosed_term h
  | product => exact reads_enclosed_factor h

/-- The words of a formula are a phrase with its tree. -/
theorem reads (f : Formula) : Reads f.phrase f.tokens f.tree := by
  induction f with
  | number literal =>
    have h := reads_number (t := Token.ofFragment literal.text) (by rw [literal.ofFragment_eq])
    rw [literal.ofFragment_eq] at h
    simpa [tokens, words, tree, phrase, literal.ofFragment_eq] using h
  | call name argument ih =>
    have h := reads_call name.kind_eq Token.kind_opening Token.kind_closing (reads_expression ih)
    rw [Token.text_ofFragment] at h
    simpa [tokens, words, tree, phrase] using h
  | callPair first name second ih₁ ih₂ =>
    have h := reads_callPair name.kind_eq Token.kind_opening Token.kind_comma Token.kind_closing
      (reads_expression ih₁) (reads_expression ih₂)
    rw [Token.text_ofFragment] at h
    simpa [tokens, words, tree, phrase] using h
  | operation left op right ih₁ ih₂ =>
    have h := reads_operation (reads_left op ih₁) op.isLink_symbol (reads_right op ih₂)
    rw [Token.text_ofFragment] at h
    simpa [tokens, words, tree, phrase] using h

/-- A written formula is read as its tree, with brackets nested within the limit. -/
theorem ofTokens_written (f : Formula) (text : String) (written : f.WrittenAs text)
    (shallow : NestsWithin depthLimit (Token.ofText text)) :
    Tree.ofTokens (Token.ofText text) = .ok f.tree := by
  obtain ⟨d, hd, htree⟩ := reads_expression f.reads
  rw [ofText_written written, ← hd] at shallow ⊢
  rw [← htree]
  exact ofTokensWithin_derivation d rfl (shallow.shorten (List.prefix_append _ _))

end Formula

end Calculator
