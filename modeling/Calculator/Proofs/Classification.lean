import Calculator.Proofs.Binary64.Readings
import Calculator.Proofs.Composition
import Calculator.Proofs.Numerals

/-!
# What a token is

The text of a token decides what the token is. Symbols and names are fixed words; a number is written
with the ten digits and at most one point, and has the number of the format nearest to what its digits
denote as its value; every other text is unknown. No text is two of these at once.

Results:
1. `isLiteral_iff`, `NumberLiteral.exactValue_chars`: texts of digits with a point are the literals.
2. `Token.isClassified_ofFragment`: the token that a fragment is.
3. `Token.ofText_classified`: the tokens of any text.
-/

namespace Calculator

open Binary64

/-! ## Definitions -/

/-- Digits with at most one point, and at least one digit. -/
def IsLiteral (s : List Char) : Prop :=
  (∀ c ∈ s, c ∈ Literal.digits ∨ c = '.') ∧ s.count '.' ≤ 1 ∧ ∃ c ∈ s, c ∈ Literal.digits

instance : DecidablePred IsLiteral := fun s =>
  inferInstanceAs (Decidable ((∀ c ∈ s, c ∈ Literal.digits ∨ c = '.') ∧ s.count '.' ≤ 1 ∧
    ∃ c ∈ s, c ∈ Literal.digits))

/-- The exact number that a literal denotes: its digits as one natural number, with a division by ten
for each digit behind the point. -/
def Literal.exactValue (s : List Char) : ℚ :=
  Nat.ofDigitChars 10 (s.filter (· != '.')) 0 / 10 ^ (s.dropWhile (· != '.')).tail.length

/-- The symbol that is a token of the kind. -/
def TokenKind.symbol? : TokenKind → Option Char
  | openParen => some '('
  | closeParen => some ')'
  | comma => some ','
  | plus => some '+'
  | minus => some '-'
  | times => some '*'
  | divide => some '/'
  | modulo => some '%'
  | caret => some '^'
  | number | function | unknown | endOfInput => none

/-- The text is neither a symbol nor the name of a function nor a literal. -/
structure IsOther (w : String) : Prop where
  symbol : ∀ c, w = String.singleton c → isSymbol c = false
  name : isFunctionName w = false
  literal : ¬IsLiteral w.toList

/-- What the text of a token, other than the last one, says of it. -/
structure Token.IsClassified (t : Token) : Prop where
  nonempty : t.text ≠ ""
  inside : t.kind ≠ .endOfInput
  symbol : ∀ c kind, symbolKind? c = some kind → (t.kind = kind ↔ t.text = String.singleton c)
  function : t.kind = .function ↔ Registry.knows t.text
  number : t.kind = .number ↔ IsLiteral t.text.toList
  unknown : t.kind = .unknown ↔ (∀ c, t.text = String.singleton c → isSymbol c = false) ∧
    ¬Registry.knows t.text ∧ ¬IsLiteral t.text.toList
  valued : t.value.isSome = true ↔ t.kind = .number
  value : t.kind = .number → ∃ x, t.value = some (.real x) ∧
    ∀ y, IsReading (Literal.exactValue t.text.toList) y ↔ y = x

/-! ## Literals -/

namespace Literal

variable {c : Char} {s : List Char}

theorem mem_digits_iff : c ∈ digits ↔ isDigit c = true := by
  refine ⟨fun h => ?_, mem_digits_of_isDigit⟩
  have all : digits.all isDigit = true := by decide
  exact List.all_eq_true.mp all c h

theorem ne_point_of_isDigit (h : isDigit c = true) : c ≠ '.' := by
  rintro rfl
  exact absurd h (by decide)

/-- Digits hold no point. -/
theorem filter_digits (digits : ∀ c ∈ s, isDigit c = true) : s.filter (· != '.') = s :=
  List.filter_eq_self.mpr fun c hc => bne_iff_ne.mpr (ne_point_of_isDigit (digits c hc))

theorem dropWhile_digits (digits : ∀ c ∈ s, isDigit c = true) (rest : List Char) :
    (s ++ rest).dropWhile (· != '.') = rest.dropWhile (· != '.') :=
  List.dropWhile_append_of_pos fun c hc => bne_iff_ne.mpr (ne_point_of_isDigit (digits c hc))

theorem count_digits (digits : ∀ c ∈ s, isDigit c = true) : s.count '.' = 0 :=
  List.count_eq_zero.mpr fun h => ne_point_of_isDigit (digits '.' h) rfl

end Literal

namespace NumberLiteral

variable (l : NumberLiteral)

theorem isDigit_whole : ∀ c ∈ l.whole, Literal.isDigit c = true :=
  fun c hc => l.isDigit c (List.mem_append_left _ hc)

theorem isDigit_fraction {fraction : List Char} (h : l.fraction = some fraction) :
    ∀ c ∈ fraction, Literal.isDigit c = true :=
  fun c hc => l.isDigit c (List.mem_append_right _ (by rw [h]; exact hc))

theorem count_chars_le : l.chars.count '.' ≤ 1 := by
  unfold chars
  rw [List.count_append, Literal.count_digits l.isDigit_whole, Nat.zero_add]
  cases hfraction : l.fraction with
  | none => exact Nat.zero_le _
  | some fraction =>
    show ('.' :: fraction).count '.' ≤ 1
    rw [List.count_cons_self, Literal.count_digits (l.isDigit_fraction hfraction)]

/-- The digits before the point, or those behind it, are some. -/
theorem exists_digit : ∃ c ∈ l.chars, Literal.isDigit c = true := by
  obtain ⟨c, hc⟩ := List.exists_mem_of_ne_nil _ l.nonempty
  refine ⟨c, ?_, l.isDigit c hc⟩
  unfold chars
  rcases List.mem_append.mp hc with hc | hc
  · exact List.mem_append_left _ hc
  · cases hfraction : l.fraction with
    | none =>
      rw [hfraction] at hc
      cases hc
    | some fraction =>
      rw [hfraction] at hc
      exact List.mem_append_right _ (List.mem_cons_of_mem _ hc)

theorem isLiteral_chars : IsLiteral l.chars := by
  obtain ⟨c, hc, digit⟩ := l.exists_digit
  refine ⟨fun c hc => ?_, l.count_chars_le, c, hc, Literal.mem_digits_iff.mpr digit⟩
  exact (l.digit_or_point c hc).imp_left Literal.mem_digits_iff.mpr

/-- The exact value of a literal is that of the decimal number it is read as. -/
theorem exactValue_chars : Literal.exactValue l.chars = l.decimal.value := by
  have hvalue := Decimal.value_ofDigits l.whole (l.fraction.getD [])
  unfold Literal.exactValue decimal chars
  rw [hvalue, List.filter_append, Literal.filter_digits l.isDigit_whole,
    Literal.dropWhile_digits l.isDigit_whole, zpow_neg, zpow_natCast, ← div_eq_mul_inv]
  cases hfraction : l.fraction with
  | none => rfl
  | some fraction =>
    have hfilter : ('.' :: fraction).filter (· != '.') = fraction := by
      rw [List.filter_cons_of_neg (by decide), Literal.filter_digits (l.isDigit_fraction hfraction)]
    have hdrop : ('.' :: fraction).dropWhile (· != '.') = '.' :: fraction :=
      List.dropWhile_cons_of_neg (by decide)
    show (Nat.ofDigitChars 10 (l.whole ++ ('.' :: fraction).filter (· != '.')) 0 : ℚ) /
      10 ^ (('.' :: fraction).dropWhile (· != '.')).tail.length = _
    rw [hfilter, hdrop]
    rfl

end NumberLiteral

/-- The texts of digits with at most one point and at least one digit are the literals. -/
theorem isLiteral_iff {s : List Char} : IsLiteral s ↔ ∃ l : NumberLiteral, l.chars = s := by
  constructor
  · rintro ⟨chars, single, c, hc, digit⟩
    have isDigit (c : Char) (hc : c ∈ s) (other : c ≠ '.') : Literal.isDigit c = true :=
      Literal.mem_digits_iff.mp ((chars c hc).resolve_right other)
    have digit := Literal.mem_digits_iff.mp digit
    by_cases point : '.' ∈ s
    · obtain ⟨whole, fraction, rfl⟩ := List.append_of_mem point
      -- the point that splits the text is the only one
      rw [List.count_append, List.count_cons_self] at single
      have none : '.' ∉ whole ++ fraction := by
        rw [← List.count_eq_zero, List.count_append]
        omega
      refine ⟨⟨whole, some fraction, fun d hd => isDigit d ?_ ?_, ?_⟩, rfl⟩
      · rcases List.mem_append.mp hd with hd | hd
        · exact List.mem_append_left _ hd
        · exact List.mem_append_right _ (List.mem_cons_of_mem _ hd)
      · rintro rfl
        exact none hd
      · refine List.ne_nil_of_mem (a := c) ?_
        rcases List.mem_append.mp hc with hc | hc
        · exact List.mem_append_left _ hc
        · exact List.mem_append_right _
            ((List.mem_cons.mp hc).resolve_left (Literal.ne_point_of_isDigit digit))
    · refine ⟨⟨s, none, fun d hd => isDigit d ?_ ?_, ?_⟩, List.append_nil s⟩
      · rwa [Option.getD_none, List.append_nil] at hd
      · rintro rfl
        rw [Option.getD_none, List.append_nil] at hd
        exact point hd
      · rw [Option.getD_none, List.append_nil]
        exact List.ne_nil_of_mem hc
  · rintro ⟨l, rfl⟩
    exact l.isLiteral_chars

/-- What is read is a literal. -/
theorem Literal.exists_of_read? {s : List Char} {d : Decimal} (h : read? s = some d) :
    ∃ l : NumberLiteral, l.chars = s := by
  have split := List.takeWhile_append_dropWhile (p := isDigit) (l := s)
  have whole : ∀ c ∈ s.takeWhile isDigit, isDigit c = true := fun c hc => List.mem_takeWhile_imp hc
  unfold read? at h
  dsimp only at h
  split at h
  · next hrest =>
    rw [hrest] at split
    split at h
    · cases h
    · next some =>
      refine ⟨⟨s.takeWhile isDigit, none, ?_, ?_⟩, split⟩
      · simpa using whole
      · simpa using some
  · next fraction hrest =>
    rw [hrest] at split
    split at h
    · next digits =>
      rw [Bool.and_eq_true, List.all_eq_true] at digits
      refine ⟨⟨s.takeWhile isDigit, some fraction, ?_, ?_⟩, split⟩
      · exact fun c hc => (List.mem_append.mp hc).elim (whole c) (digits.1 c)
      · rw [Option.getD_some, ne_eq, List.append_eq_nil_iff, ← List.isEmpty_iff, ← List.isEmpty_iff,
          ← Bool.and_eq_true, Bool.not_eq_true, ← Bool.not_eq_true']
        exact digits.2
    · cases h
  · cases h

/-! ## Symbols -/

/-- The symbol is the one of its kind. -/
theorem symbol?_of_symbolKind? {c : Char} {kind : TokenKind} (h : symbolKind? c = some kind) :
    kind.symbol? = some c := by
  unfold symbolKind? at h
  split at h <;> cases h <;> rfl

theorem isSymbol_of_symbolKind? {c : Char} {kind : TokenKind} (h : symbolKind? c = some kind) :
    isSymbol c = true := by
  rw [isSymbol, h]
  rfl

/-! ## Tokens -/

namespace Registry

theorem knows_iff {name : String} : knows name ↔ isFunctionName name = true := by
  refine ⟨fun h => ?_, knows_of_isFunctionName⟩
  obtain ⟨entry, hentry⟩ := Option.isSome_iff_exists.mp h
  exact isFunctionName_of_find? hentry

end Registry

namespace Token

variable {w : String} {c : Char} {kind : TokenKind}

theorem ofFragment_singleton (h : symbolKind? c = some kind) :
    ofFragment (String.singleton c) = ⟨kind, String.singleton c, none⟩ := by
  unfold ofFragment
  rw [String.toList_singleton]
  dsimp only
  rw [h]

/-- A fragment that is no symbol is a name, a literal, or neither. -/
theorem ofWord_cases (plain : ∀ c, w = String.singleton c → isSymbol c = false) :
    (isFunctionName w = true ∧ ofFragment.ofWord w = ⟨.function, w, none⟩) ∨
    (∃ l : NumberLiteral, w = l.text ∧
      ofFragment.ofWord w = ⟨.number, w, some (.real l.decimal.toFloat)⟩) ∨
    IsOther w ∧ ofFragment.ofWord w = ⟨.unknown, w, none⟩ := by
  unfold ofFragment.ofWord
  cases hname : isFunctionName w with
  | true => exact .inl ⟨rfl, rfl⟩
  | false =>
    cases hread : Literal.read? w.toList with
    | some d =>
      obtain ⟨l, hl⟩ := Literal.exists_of_read? hread
      rw [← hl, l.read?_chars] at hread
      cases hread
      exact .inr (.inl ⟨l, by rw [NumberLiteral.text, hl, String.ofList_toList], rfl⟩)
    | none =>
      refine .inr (.inr ⟨⟨plain, hname, fun literal => ?_⟩, rfl⟩)
      obtain ⟨l, hl⟩ := isLiteral_iff.mp literal
      rw [← hl, l.read?_chars] at hread
      cases hread

/-- A fragment is a symbol, a name, a literal, or none of these. -/
theorem ofFragment_cases (w : String) :
    (∃ c kind, w = String.singleton c ∧ symbolKind? c = some kind ∧
      ofFragment w = ⟨kind, w, none⟩) ∨
    (isFunctionName w = true ∧ ofFragment w = ⟨.function, w, none⟩) ∨
    (∃ l : NumberLiteral, w = l.text ∧
      ofFragment w = ⟨.number, w, some (.real l.decimal.toFloat)⟩) ∨
    IsOther w ∧ ofFragment w = ⟨.unknown, w, none⟩ := by
  unfold ofFragment
  split
  · next c single =>
    have hw : w = String.singleton c := by
      rw [← String.toList_inj, single, String.toList_singleton]
    cases hkind : symbolKind? c with
    | some kind => exact .inl ⟨c, kind, hw, hkind, rfl⟩
    | none =>
      refine .inr (ofWord_cases fun d hd => ?_)
      have same : c = d := by
        have := congrArg String.toList (hw.symm.trans hd)
        rw [String.toList_singleton, String.toList_singleton] at this
        exact List.head_eq_of_cons_eq this
      rw [isSymbol, ← same, hkind]
      rfl
  · next several =>
    refine .inr (ofWord_cases fun d hd => absurd ?_ (several d))
    rw [hd, String.toList_singleton]

/-- A token of a symbol's kind is that symbol. -/
theorem eq_singleton_of_symbol? (h : (ofFragment w).kind.symbol? = some c) :
    w = String.singleton c := by
  rcases ofFragment_cases w with ⟨d, kind, hw, hd, heq⟩ | ⟨-, heq⟩ | ⟨l, -, heq⟩ | ⟨-, heq⟩ <;>
    rw [heq] at h
  · rw [symbol?_of_symbolKind? hd] at h
    cases h
    exact hw
  all_goals cases h

theorem kind_eq_function_iff : (ofFragment w).kind = .function ↔ isFunctionName w = true := by
  refine ⟨fun h => ?_, fun h => FunctionName.kind_eq ⟨w, h⟩⟩
  rcases ofFragment_cases w with ⟨d, kind, -, hd, heq⟩ | ⟨hname, -⟩ | ⟨l, -, heq⟩ | ⟨-, heq⟩
  · rw [heq] at h
    cases h
    cases symbol?_of_symbolKind? hd
  · exact hname
  all_goals rw [heq] at h; cases h

/-- A number is a literal, and its value is what the decimal number is read as. -/
theorem exists_literal_of_kind (h : (ofFragment w).kind = .number) :
    ∃ l : NumberLiteral, w = l.text ∧ (ofFragment w).value = some (.real l.decimal.toFloat) := by
  rcases ofFragment_cases w with ⟨d, kind, -, hd, heq⟩ | ⟨-, heq⟩ | ⟨l, hw, heq⟩ | ⟨-, heq⟩
  · rw [heq] at h
    cases h
    cases symbol?_of_symbolKind? hd
  · rw [heq] at h
    cases h
  · exact ⟨l, hw, by rw [heq]⟩
  · rw [heq] at h
    cases h

theorem kind_eq_number_iff : (ofFragment w).kind = .number ↔ IsLiteral w.toList := by
  constructor
  · intro h
    obtain ⟨l, rfl, -⟩ := exists_literal_of_kind h
    rw [NumberLiteral.text, String.toList_ofList]
    exact l.isLiteral_chars
  · intro h
    obtain ⟨l, hl⟩ := isLiteral_iff.mp h
    have hw : w = l.text := by rw [NumberLiteral.text, hl, String.ofList_toList]
    rw [hw, l.ofFragment_eq]

theorem kind_eq_unknown_iff : (ofFragment w).kind = .unknown ↔ IsOther w := by
  rcases ofFragment_cases w with ⟨d, kind, hw, hd, heq⟩ | ⟨hname, heq⟩ | ⟨l, hw, heq⟩ | ⟨hother, heq⟩ <;>
    rw [heq]
  · refine iff_of_false ?_ fun other => ?_
    · rintro rfl
      cases symbol?_of_symbolKind? hd
    · have := other.symbol d hw
      rw [isSymbol_of_symbolKind? hd] at this
      cases this
  · refine iff_of_false nofun fun other => ?_
    rw [other.name] at hname
    cases hname
  · refine iff_of_false nofun fun other => other.literal ?_
    rw [hw, NumberLiteral.text, String.toList_ofList]
    exact l.isLiteral_chars
  · exact iff_of_true rfl hother

theorem isSome_value_iff : (ofFragment w).value.isSome = true ↔ (ofFragment w).kind = .number := by
  constructor
  · intro h
    rcases ofFragment_cases w with ⟨d, kind, -, -, heq⟩ | ⟨-, heq⟩ | ⟨l, -, heq⟩ | ⟨-, heq⟩
    · rw [heq] at h
      cases h
    · rw [heq] at h
      cases h
    · rw [heq]
    · rw [heq] at h
      cases h
  · intro h
    obtain ⟨l, -, hvalue⟩ := exists_literal_of_kind h
    rw [hvalue]
    rfl

/-- The text of a fragment decides the token that it is. -/
theorem isClassified_ofFragment (nonempty : w ≠ "") : (ofFragment w).IsClassified where
  nonempty := by rwa [text_ofFragment]
  inside := kind_ofFragment_ne w
  symbol c kind h := by
    rw [text_ofFragment]
    constructor
    · rintro rfl
      exact eq_singleton_of_symbol? (symbol?_of_symbolKind? h)
    · rintro rfl
      rw [ofFragment_singleton h]
  function := by rw [text_ofFragment, Registry.knows_iff, kind_eq_function_iff]
  number := by rw [text_ofFragment, kind_eq_number_iff]
  unknown := by
    rw [text_ofFragment, Registry.knows_iff, Bool.not_eq_true, kind_eq_unknown_iff]
    exact ⟨fun h => ⟨h.symbol, h.name, h.literal⟩, fun h => ⟨h.1, h.2.1, h.2.2⟩⟩
  valued := isSome_value_iff
  value h := by
    obtain ⟨l, hw, hvalue⟩ := exists_literal_of_kind h
    refine ⟨_, hvalue, fun y => ?_⟩
    rw [text_ofFragment, hw, NumberLiteral.text, String.toList_ofList, l.exactValue_chars]
    have reading := l.decimal.isReading_toFloat
    exact ⟨fun hy => hy.unique reading, fun hy => hy ▸ reading⟩

end Token

/-- No fragment is empty. -/
theorem ne_empty_of_mem_fragments {text w : String} (h : w ∈ fragments text) : w ≠ "" := by
  obtain ⟨cs, hcs, rfl⟩ := List.mem_map.mp h
  have row := Piece.scan_makeUp text.toList
  rw [row.fragmentsOf_eq] at hcs
  rw [ne_eq, String.ofList_eq_empty_iff]
  exact (row.lined.visible cs hcs).1

/-- The tokens of any text, or none, end with the end of the input, which has no text and no value.
Each token before it has a text, is no end of the input, and is what its text says: a symbol or a
function if the text is that symbol or the name of a function, a number if the text is made of digits
with at most one point, and otherwise unknown. It has a value exactly if it is a number: the number of
the format nearest to the exact one that is written, of two the one with the even mantissa, and
infinity beyond the range. -/
theorem Token.ofText_classified (text : Option String) :
    ∃ ts, ofText (text.getD "") = ts ++ [⟨.endOfInput, "", none⟩] ∧ ∀ t ∈ ts, t.IsClassified := by
  refine ⟨inside (text.getD ""), rfl, fun t ht => ?_⟩
  obtain ⟨w, hw, rfl⟩ := List.mem_map.mp ht
  exact isClassified_ofFragment (ne_empty_of_mem_fragments hw)

/-- Digits of other scripts, powers of ten and the names of what is no finite number are no literals. -/
example : (Token.ofText "1e5 . 1.2.3 1_0 ٣ inf nan .5 3.").map Token.kind =
    [.unknown, .unknown, .unknown, .unknown, .unknown, .unknown, .unknown, .number, .number,
      .endOfInput] := by
  decide +kernel

end Calculator
