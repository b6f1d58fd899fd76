import Calculator.Evaluate
import Calculator.Proofs.Totality
import Calculator.Proofs.Sentence
import Calculator.Proofs.StackMachine

/-!
# What an expression can come to

Whatever the text, an expression has a floating-point number as its value, or one of four errors: a
token that cannot stand where it stands, a missing parenthesis, a function that is not supported, or
excessive nesting.

The tokens of a text end with the end of the input, numbers among them have floating-point numbers as
values, and operators and functions stand under their names (`Token.IsFromText`). So the tree has
floating-point numbers as leaves, and every name of a pair is an operator or a function
(`Tree.IsFromText`). On floating-point numbers every operator has a value, a function gives a
floating-point number or is unsupported, and so it goes on up to the root.

Results:
1. `Operator.apply_total`: no operator fails on floating-point numbers.
2. `evalWithin_settles`: what trees of texts come to.
3. `evaluate_settles`, `evaluate_outcome`: what texts come to.
-/

namespace Calculator

open Binary64 Evaluation Grammar Logging

/-! ## Tokens of a text -/

/-- What is known of each token of a text. -/
structure Token.IsFromText (t : Token) : Prop where
  number : t.kind = .number → ∃ x, t.value = some (.real x)
  function : t.kind = .function → isFunctionName t.text = true
  link : ∀ level : Level, level.isLink t.kind = true → (Operator.ofName? t.text).isSome = true

namespace Token

theorem isFromText_ofWord (fragment : String) : (ofFragment.ofWord fragment).IsFromText := by
  unfold ofFragment.ofWord
  by_cases hname : isFunctionName fragment = true
  · rw [if_pos hname]
    exact ⟨nofun, fun _ => hname, fun level h => by cases level <;> cases h⟩
  · rw [if_neg hname]
    cases Literal.read? fragment.toList with
    | some d => exact ⟨fun _ => ⟨d.toFloat, rfl⟩, nofun, fun level h => by cases level <;> cases h⟩
    | none => exact ⟨nofun, nofun, fun level h => by cases level <;> cases h⟩

/-- A symbol that joins operands is the name of an operator. -/
theorem isFromText_symbol {c : Char} {kind : TokenKind} (symbol : symbolKind? c = some kind) :
    Token.IsFromText ⟨kind, String.ofList [c], none⟩ := by
  unfold symbolKind? at symbol
  split at symbol <;> cases symbol <;>
    exact ⟨nofun, nofun, fun level h => by cases level <;> first | rfl | cases h⟩

theorem isFromText_ofFragment (fragment : String) : (ofFragment fragment).IsFromText := by
  unfold ofFragment
  split
  · next c single =>
    cases hkind : symbolKind? c with
    | some kind =>
      have htext : fragment = String.ofList [c] := by rw [← single, String.ofList_toList]
      rw [htext]
      exact isFromText_symbol hkind
    | none => exact isFromText_ofWord fragment
  · exact isFromText_ofWord fragment

theorem isFromText_of_mem {text : String} {t : Token} (h : t ∈ ofText text) : t.IsFromText := by
  unfold ofText at h
  rcases List.mem_append.mp h with h | h
  · obtain ⟨fragment, -, rfl⟩ := List.mem_map.mp h
    exact isFromText_ofFragment fragment
  · rw [List.mem_singleton.mp h]
    exact ⟨nofun, nofun, fun level h => by cases level <;> cases h⟩

theorem exists_endOfInput (text : String) : ∃ t ∈ ofText text, t.kind = .endOfInput :=
  ⟨endOfInput, List.mem_append_right _ List.mem_cons_self, rfl⟩

end Token

/-! ## Trees of a text -/

/-- The default registry has a function of this name. -/
def Registry.knows (name : String) : Prop := (Registry.default.find? name).isSome = true

theorem Registry.knows_of_isFunctionName {name : String} (h : isFunctionName name = true) :
    Registry.knows name := by
  have all : ∀ name ∈ functionNames, Registry.knows name := by
    unfold Registry.knows
    decide
  exact all name (List.contains_iff_mem.mp h)

/-- Leaves are floating-point numbers, functions that are called are known, and every pair is an
operator or a call. -/
def Tree.IsFromText : Tree → Prop
  | .number value => ∃ x, value = some (.real x)
  | .call name argument => Registry.knows name ∧ argument.IsFromText
  | .pair left name right =>
      left.IsFromText ∧ right.IsFromText ∧
        ((Operator.ofName? name).isSome = true ∨ Registry.knows name)
  | .foreign => False

namespace Grammar

mutual

theorem Derivation.isFromText {p : Phrase} :
    ∀ d : Derivation p, (∀ t ∈ d.tokens, t.IsFromText) → d.tree.IsFromText
  | .number t isNumber, h => (h t List.mem_cons_self).number isNumber
  | .group opening inner closing _ _, h =>
    inner.isFromText fun t ht => h t (List.mem_cons_of_mem _ (List.mem_append_left _ ht))
  | .call name opening argument closing isName _ _, h => by
    refine ⟨?_, argument.isFromText fun t ht => h t ?_⟩
    · exact Registry.knows_of_isFunctionName ((h name List.mem_cons_self).function isName)
    · exact List.mem_cons_of_mem _ (List.mem_cons_of_mem _ (List.mem_append_left _ ht))
  | .callPair name opening first comma second closing isName _ _ _, h => by
    refine ⟨first.isFromText fun t ht => h t ?_, second.isFromText fun t ht => h t ?_, .inr ?_⟩
    · exact List.mem_cons_of_mem _ (List.mem_cons_of_mem _ (List.mem_append_left _ ht))
    · exact List.mem_cons_of_mem _ (List.mem_cons_of_mem _ (List.mem_append_right _
        (List.mem_cons_of_mem _ (List.mem_append_left _ ht))))
    · exact Registry.knows_of_isFunctionName ((h name List.mem_cons_self).function isName)
  | .chain first more, h =>
    more.isFromText (fun t ht => h t (List.mem_append_right _ ht)) _
      (first.isFromText fun t ht => h t (List.mem_append_left _ ht))

theorem Links.isFromText {level : Level} :
    ∀ links : Links level, (∀ t ∈ links.tokens, t.IsFromText) →
      ∀ left : Tree, left.IsFromText → (links.treeOnto left).IsFromText
  | .none, _, _, hleft => hleft
  | .next link right more isLink, h, left, hleft => by
    have hright := right.isFromText fun t ht =>
      h t (List.mem_cons_of_mem _ (List.mem_append_left _ ht))
    have hname := (h link List.mem_cons_self).link level isLink
    refine more.isFromText (fun t ht => h t ?_) _ ⟨hleft, hright, .inl hname⟩
    exact List.mem_cons_of_mem _ (List.mem_append_right _ ht)

end

end Grammar

theorem Tree.isFromText_of_ok {text : String} {tree : Tree}
    (h : Tree.ofTokens (Token.ofText text) = .ok tree) : tree.IsFromText := by
  obtain ⟨d, last, behind, split, -, rfl, -⟩ := exists_derivation_of_ok h
  refine d.isFromText fun t ht => ?_
  have member : t ∈ Token.ofText text := by
    rw [split]
    exact List.mem_append_left _ ht
  exact Token.isFromText_of_mem member

/-! ## Operators -/

namespace Operator

/-- On floating-point numbers every operator has a value, whatever they are. -/
theorem apply_total (op : Operator) (x y : Float) :
    ∃ z, op.apply (some (.real x)) (some (.real y)) = .ok z := by
  cases op with
  | plus | minus | times => exact ⟨_, rfl⟩
  | divide =>
    show ∃ z, (if isZero (some (.real y)) then
        if (Number.real x).equals (.int 0) || (Number.real x).isNaN then pure nan
        else pure (copySign 1.0 x * copySign infinity y)
      else if y == 0.0 then throw Fault.zeroDivision else pure (x / y)) = Except.ok z
    split
    · split <;> exact ⟨_, rfl⟩
    · next nonzero =>
      rw [if_neg (mt Number.equals_zero_of_beq nonzero)]
      exact ⟨_, rfl⟩
  | modulo =>
    show ∃ z, (if isZero (some (.real y)) then pure nan
      else if x.isInf then pure nan else pure (truncatedRemainder x y) : Except Fault Float) = .ok z
    split
    · exact ⟨_, rfl⟩
    · split <;> exact ⟨_, rfl⟩

end Operator

/-! ## Values -/

/-- A floating-point number. -/
def IsReal (value : Value) : Prop := ∃ x, value = some (.real x)

/-- An error that a tree of a text can have. -/
def EvalError.IsExpected (e : EvalError) : Prop :=
  (∃ name cause, e = .unsupportedFunction name cause) ∨ e = .tooDeep

/-- The evaluation gives a floating-point number or has one of these errors. -/
abbrev Settles (m : Evaluation Value) : Prop := m.Ensures IsReal EvalError.IsExpected

theorem callFunction_settles (name : String) {arguments : List Value}
    (reals : ∀ a ∈ arguments, IsReal a) : Settles (callFunction .default name arguments) := by
  unfold callFunction
  cases hfind : Registry.default.find? name with
  | none => exact ensures_throw (.inl ⟨name, none, rfl⟩)
  | some entry =>
    refine ensures_ite (fun arity => ?_) fun _ => ensures_throw (.inl ⟨name, none, rfl⟩)
    have hvalue := Registry.functionValue_total hfind arity reals
    exact (hvalue.adapt fun f hf => hf.elim).map fun x _ => ⟨x, rfl⟩

theorem operate_settles (op : Operator) {left right : Value} (hleft : IsReal left)
    (hright : IsReal right) : Settles (operate op left right) := by
  obtain ⟨x, rfl⟩ := hleft
  obtain ⟨y, rfl⟩ := hright
  obtain ⟨z, hz⟩ := op.apply_total x y
  unfold operate
  rw [hz]
  exact ensures_pure ⟨z, rfl⟩

theorem combine_settles {name : String} {left right : Value} (hleft : IsReal left)
    (hright : IsReal right)
    (hname : (Operator.ofName? name).isSome = true ∨ Registry.knows name) :
    Settles (StackMachine.combine .default name left right) := by
  cases hop : Operator.ofName? name with
  | some op =>
    rw [← operate_eq_combine hop]
    exact operate_settles op hleft hright
  | none =>
    have hknown : Registry.knows name := hname.resolve_left (by rw [hop]; decide)
    rw [← evalPair_eq_combine name left right hop, if_pos (by rw [hknown, Bool.true_or])]
    refine callFunction_settles name fun a ha => ?_
    rcases List.mem_pair.mp ha with rfl | rfl
    · exact hleft
    · exact hright

/-! ## Trees -/

/-- One level of nesting, whatever the levels below it come to. -/
theorem evalWith_settles {inner : Tree → Evaluation Value}
    (hinner : ∀ t : Tree, t.IsFromText → Settles (inner t)) (t : Tree) (h : t.IsFromText) :
    Settles (evalWith .default inner t) := by
  induction t with
  | number value =>
    rw [evalWith_eq_evalHead rfl]
    exact ensures_pure h
  | foreign => exact h.elim
  | call name argument _ =>
    rw [evalWith_eq_evalHead rfl]
    refine (hinner argument h.2).bind fun value hvalue => ?_
    refine callFunction_settles name fun a ha => ?_
    rw [List.mem_singleton.mp ha]
    exact hvalue
  | pair left name right ihl _ =>
    obtain ⟨hleft, hright, hname⟩ := h
    cases hop : Operator.ofName? name with
    | some op =>
      -- the left operand stands on the level of the pair, so it is covered by the induction
      rw [evalWith_pair hop]
      refine (ihl hleft).bind fun first hfirst => (hinner right hright).bind fun second hsecond => ?_
      exact combine_settles hfirst hsecond hname
    | none =>
      rw [evalWith_eq_evalHead (spine_pair_of_none hop [])]
      refine (hinner left hleft).bind fun first hfirst =>
        (hinner right hright).bind fun second hsecond => ?_
      rw [evalPair_eq_combine name first second hop]
      exact combine_settles hfirst hsecond hname

/-- Within any number of levels, a tree of a text gives a floating-point number, or calls what is not
supported, or is too deep. -/
theorem evalWithin_settles (depth : Nat) (t : Tree) (h : t.IsFromText) :
    Settles (evalWithin .default depth t) := by
  induction depth generalizing t with
  | zero => exact evalWith_settles (fun _ _ => ensures_throw (.inr rfl)) t h
  | succ depth ih => exact evalWith_settles (fun t ht => ih t ht) t h

/-! ## Texts -/

section

variable {reading evaluating : Nat} {text : String}

theorem evaluateWithin_of_error {e : ParseError}
    (h : Tree.ofTokensWithin reading (Token.ofText text) = .error e) :
    (evaluateWithin reading evaluating text).outcome = .error (.ofParse e) := by
  unfold evaluateWithin
  dsimp only
  rw [h]

theorem evaluateWithin_of_ok {tree : Tree}
    (h : Tree.ofTokensWithin reading (Token.ofText text) = .ok tree) :
    (evaluateWithin reading evaluating text).outcome =
      ((evalWithin .default evaluating tree).outcome []).1.mapError .ofEval := by
  unfold evaluateWithin
  dsimp only
  rw [h]
  rfl

end

/-- The errors that an expression is answered with. A position past the end, a node that is none, and a
fault of an operator are not among them. -/
inductive ExpressionError.IsShown : ExpressionError → Prop
  | unexpected (token : Token) : IsShown (.parse (.unexpected token))
  | missing (demand : Demand) : IsShown (.parse (.missing demand))
  | unsupported (name : String) (cause : Option Fault) :
      IsShown (.eval (.unsupportedFunction name cause))
  | tooDeep : IsShown .tooDeep

/-- A text comes to a floating-point number or to an error that is shown. -/
theorem evaluate_settles (text : String) :
    (∃ x, (evaluate text).outcome = .ok (some (.real x))) ∨
      ∃ e, (evaluate text).outcome = .error e ∧ e.IsShown := by
  cases htree : Tree.ofTokens (Token.ofText text) with
  | error e =>
    refine .inr ⟨_, evaluateWithin_of_error htree, ?_⟩
    cases e with
    | unexpected token => exact .unexpected token
    | missing demand => exact .missing demand
    | exhausted => exact absurd htree (ofTokensWithin_ne_exhausted (Token.exists_endOfInput text))
    | tooDeep => exact .tooDeep
  | ok tree =>
    have settles := evalWithin_settles depthLimit tree (Tree.isFromText_of_ok htree) []
    rw [evaluate, evaluateWithin_of_ok htree]
    generalize ((evalWithin .default depthLimit tree).outcome []).1 = result at settles ⊢
    cases result with
    | ok value =>
      obtain ⟨x, rfl⟩ := settles
      exact .inl ⟨x, rfl⟩
    | error e =>
      refine .inr ⟨_, rfl, ?_⟩
      rcases settles with ⟨name, cause, rfl⟩ | rfl
      · exact .unsupported name cause
      · exact .tooDeep

/-- A text, or none, comes to a floating-point number, or there is an unexpected token, a missing
parenthesis, an unsupported function, or excessive nesting. Nothing else can go wrong: on
floating-point numbers no operator fails, whatever they are. -/
theorem evaluate_outcome :
    (∀ text : Option String,
      (∃ x, (evaluate (text.getD "")).outcome = .ok (some (.real x))) ∨
      (∃ token, (evaluate (text.getD "")).outcome = .error (.parse (.unexpected token))) ∨
      (∃ demand, (evaluate (text.getD "")).outcome = .error (.parse (.missing demand))) ∨
      (∃ name cause,
        (evaluate (text.getD "")).outcome = .error (.eval (.unsupportedFunction name cause))) ∨
      (evaluate (text.getD "")).outcome = .error .tooDeep) ∧
    ∀ (op : Operator) (x y : Float), ∃ z, op.apply (some (.real x)) (some (.real y)) = .ok z := by
  refine ⟨fun text => ?_, Operator.apply_total⟩
  rcases evaluate_settles (text.getD "") with value | ⟨e, herror, shown⟩
  · exact .inl value
  · rw [herror]
    cases shown with
    | unexpected token => exact .inr (.inl ⟨token, rfl⟩)
    | missing demand => exact .inr (.inr (.inl ⟨demand, rfl⟩))
    | unsupported name cause => exact .inr (.inr (.inr (.inl ⟨name, cause, rfl⟩)))
    | tooDeep => exact .inr (.inr (.inr (.inr rfl)))

end Calculator
