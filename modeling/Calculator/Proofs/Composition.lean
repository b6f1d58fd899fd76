import Calculator.Proofs.Brackets
import Calculator.Proofs.Operators
import Calculator.Proofs.Recording
import Calculator.Proofs.Separators

/-!
# Expressions inside expressions

A text that is an expression can stand in brackets inside another one, and counts there for what it
comes to by itself. Its fragments are the same between two parentheses as alone, the tokens of them
are a phrase of the whole, and the tree of that phrase is evaluated as if nothing were around it.

Results:
1. `Token.inside_append_symbol`: a symbol between two texts parts their tokens.
2. `evaluate_of_read`: what a text comes to is what its tree comes to.
3. `evaluate_compositional`: what brackets, operators and calls make of it.
-/

namespace Calculator

open Evaluation Grammar Logging StackMachine

/-! ## Definitions -/

/-- The tokens of a text without the end of the input. -/
def Token.inside (text : String) : List Token := (fragments text).map ofFragment

/-- A floating-point number as a value. -/
def Value.ofFloat (x : Float) : Value := some (.real x)

/-- The text is read as the tree, with room for one more bracket around the one and for one more
level above the other. -/
structure FitsInside (text : String) (tree : Tree) : Prop where
  read : Tree.ofTokens (Token.ofText text) = .ok tree
  shallow : NestsWithin (depthLimit - 1) (Token.ofText text)
  low : tree.levels < depthLimit

/-- What a call of a function comes to: what the function gives, as a floating-point number, or the
error of a call that ends in a fault. -/
def called (name : String) (entry : Entry) (arguments : List Float) : Except ExpressionError Float :=
  (functionValue entry (arguments.map Value.ofFloat)).result.mapError fun f =>
    .ofEval (failure name f)

/-! ## Tokens -/

namespace Token

variable {s t w : String}

theorem ofText_eq (text : String) : ofText text = inside text ++ [endOfInput] := rfl

/-- A symbol between two texts parts their tokens. -/
theorem inside_append_symbol (symbol : IsSymbolWord w.toList) (s t : String) :
    inside (s ++ w ++ t) = inside s ++ ofFragment w :: inside t := by
  obtain ⟨c, hc, symbol⟩ := symbol
  have hw : w = String.singleton c := by rw [← String.toList_inj, hc, String.toList_singleton]
  unfold inside
  rw [hw, fragments_append_symbol symbol]
  simp

theorem inside_append_last (symbol : IsSymbolWord w.toList) (s : String) :
    inside (s ++ w) = inside s ++ [ofFragment w] := by
  have h := inside_append_symbol symbol s ""
  rwa [String.append_empty] at h

theorem inside_append_first (symbol : IsSymbolWord w.toList) (t : String) :
    inside (w ++ t) = ofFragment w :: inside t := by
  have h := inside_append_symbol symbol "" t
  rwa [String.empty_append] at h

theorem inside_word (h : IsWord w) : inside w = [ofFragment w] := by
  unfold inside fragments
  rw [h]
  simp

/-- The tokens of a text in brackets. -/
theorem inside_brackets (s : String) :
    inside ("(" ++ s ++ ")") = [ofFragment "("] ++ inside s ++ [ofFragment ")"] := by
  rw [inside_append_last isSymbolWord_closing, inside_append_first isSymbolWord_opening]
  rfl

/-- The tokens of an operation on texts in brackets. -/
theorem inside_operation (op : Operator) (s t : String) :
    inside ("(" ++ s ++ ")" ++ op.symbol ++ "(" ++ t ++ ")") =
      [ofFragment "("] ++ inside s ++ [ofFragment ")"] ++ [ofFragment op.symbol] ++
        ([ofFragment "("] ++ inside t ++ [ofFragment ")"]) := by
  rw [inside_append_last isSymbolWord_closing, inside_append_symbol isSymbolWord_opening,
    inside_append_last op.isSymbolWord_symbol, inside_brackets]
  simp

/-- The tokens of a call with a text as argument. -/
theorem inside_call (name : FunctionName) (s : String) :
    inside (name.val ++ "(" ++ s ++ ")") =
      [ofFragment name.val, ofFragment "("] ++ inside s ++ [ofFragment ")"] := by
  rw [inside_append_last isSymbolWord_closing, inside_append_symbol isSymbolWord_opening,
    inside_word name.isWord]
  rfl

/-- The tokens of a call with two texts as arguments. -/
theorem inside_callPair (name : FunctionName) (s t : String) :
    inside (name.val ++ "(" ++ s ++ "," ++ t ++ ")") =
      [ofFragment name.val, ofFragment "("] ++ inside s ++ [ofFragment ","] ++ inside t ++
        [ofFragment ")"] := by
  rw [inside_append_last isSymbolWord_closing, inside_append_symbol isSymbolWord_comma,
    inside_append_symbol isSymbolWord_opening, inside_word name.isWord]
  simp

end Token

/-! ## Phrases inside phrases -/

namespace Token

theorem kind_ofFragment_ne (fragment : String) : (ofFragment fragment).kind ≠ .endOfInput := by
  have word (fragment : String) : (ofFragment.ofWord fragment).kind ≠ .endOfInput := by
    unfold ofFragment.ofWord
    split
    · exact nofun
    · split <;> exact nofun
  unfold ofFragment
  split
  · next c _ =>
    cases hkind : symbolKind? c with
    | none => exact word fragment
    | some kind =>
      unfold symbolKind? at hkind
      split at hkind <;> cases hkind <;> exact nofun
  · exact word fragment

theorem beforeEnd_ofText (text : String) : beforeEnd (ofText text) = inside text := by
  refine beforeEnd_append ?_ rfl
  intro t ht
  obtain ⟨fragment, -, rfl⟩ := List.mem_map.mp ht
  exact kind_ofFragment_ne fragment

/-- A text is read if its tokens are an expression. -/
theorem ofTokens_of_reads {text : String} {tree : Tree} (h : Reads .expression (inside text) tree)
    (shallow : NestsWithin depthLimit (inside text)) : Tree.ofTokens (ofText text) = .ok tree := by
  obtain ⟨d, hd, rfl⟩ := h
  rw [← hd] at shallow
  rw [ofText_eq, ← hd]
  exact ofTokensWithin_derivation d rfl shallow

end Token

open Token

section

variable {a b text : String} {s t tree : Tree}

/-- The tokens of a text that fits inside another one are an expression. -/
theorem FitsInside.exists_derivation (h : FitsInside text tree) :
    ∃ d : Derivation .expression, d.tokens = inside text ∧ d.tree = tree ∧
      NestsWithin (depthLimit - 1) d.tokens := by
  obtain ⟨-, -, d, hd, htree⟩ := ofTokensWithin_eq_ok_iff.mp h.read
  rw [beforeEnd_ofText] at hd
  refine ⟨d, hd, htree, ?_⟩
  rw [hd]
  exact h.shallow.shorten (List.prefix_append _ _)

/-- A text in brackets is a factor with the tree of the text. -/
theorem FitsInside.exists_group (h : FitsInside text tree) :
    ∃ d : Derivation .factor, d.tokens = [ofFragment "("] ++ inside text ++ [ofFragment ")"] ∧
      d.tree = tree ∧ NestsWithin depthLimit d.tokens := by
  obtain ⟨d, hd, htree, shallow⟩ := h.exists_derivation
  refine ⟨.group (ofFragment "(") d (ofFragment ")") kind_opening kind_closing, ?_, htree, ?_⟩
  · rw [← hd]
    rfl
  · exact shallow.bracketed _ (by simp)

theorem FitsInside.read_brackets (h : FitsInside a s) :
    Tree.ofTokens (ofText ("(" ++ a ++ ")")) = .ok s := by
  obtain ⟨d, hd, rfl, shallow⟩ := h.exists_group
  refine ofTokens_of_reads ?_ ?_ <;> rw [inside_brackets, ← hd]
  · exact reads_expression ⟨d, rfl, rfl⟩
  · exact shallow

/-- An operation on texts in brackets is read as the operation on their trees. -/
theorem FitsInside.read_operation (ha : FitsInside a s) (hb : FitsInside b t) (op : Operator) :
    Tree.ofTokens (ofText ("(" ++ a ++ ")" ++ op.symbol ++ "(" ++ b ++ ")")) =
      .ok (.pair s op.symbol t) := by
  obtain ⟨d, hd, rfl, shallow⟩ := ha.exists_group
  obtain ⟨e, he, rfl, shallow'⟩ := hb.exists_group
  have hread := reads_operation (reads_of_factor ⟨d, rfl, rfl⟩) op.isLink_symbol
    (reads_of_factor ⟨e, rfl, rfl⟩)
  rw [text_ofFragment] at hread
  have link : NestsWithin depthLimit [ofFragment op.symbol] :=
    nestsWithin_of_openings_le (by simp [op.kind_symbol_ne])
  refine ofTokens_of_reads ?_ ?_ <;> rw [inside_operation, ← hd, ← he]
  · exact reads_expression hread
  · refine (shallow.append (Nat.le_of_eq d.openings_eq_closings) link).append ?_ shallow'
    simp [d.openings_eq_closings, op.kind_symbol_ne]

/-- A call with a text as argument is read as the call with its tree. -/
theorem FitsInside.read_call (h : FitsInside a s) (name : FunctionName) :
    Tree.ofTokens (ofText (name.val ++ "(" ++ a ++ ")")) = .ok (.call name.val s) := by
  obtain ⟨d, hd, rfl, shallow⟩ := h.exists_derivation
  have hread := reads_call name.kind_eq kind_opening kind_closing ⟨d, rfl, rfl⟩
  rw [text_ofFragment] at hread
  refine ofTokens_of_reads ?_ ?_ <;> rw [inside_call, ← hd]
  · exact reads_expression hread
  · have first : NestsWithin depthLimit [ofFragment name.val] :=
      nestsWithin_of_openings_le (by simp)
    have group : NestsWithin depthLimit ([ofFragment "("] ++ d.tokens ++ [ofFragment ")"]) :=
      shallow.bracketed _ (by simp)
    exact first.append (by simp) group

/-- A call with two texts as arguments is read as the call with their trees. -/
theorem FitsInside.read_callPair (ha : FitsInside a s) (hb : FitsInside b t) (name : FunctionName) :
    Tree.ofTokens (ofText (name.val ++ "(" ++ a ++ "," ++ b ++ ")")) =
      .ok (.pair s name.val t) := by
  obtain ⟨d, hd, rfl, shallow⟩ := ha.exists_derivation
  obtain ⟨e, he, rfl, shallow'⟩ := hb.exists_derivation
  have hread := reads_callPair name.kind_eq kind_opening kind_comma kind_closing ⟨d, rfl, rfl⟩
    ⟨e, rfl, rfl⟩
  rw [text_ofFragment] at hread
  refine ofTokens_of_reads ?_ ?_ <;> rw [inside_callPair, ← hd, ← he]
  · exact reads_expression hread
  · have comma : NestsWithin (depthLimit - 1) [ofFragment ","] :=
      nestsWithin_of_openings_le (by simp)
    have closing : NestsWithin (depthLimit - 1) [ofFragment ")"] :=
      nestsWithin_of_openings_le (by simp)
    have first : NestsWithin depthLimit [ofFragment name.val] :=
      nestsWithin_of_openings_le (by simp)
    have arguments : NestsWithin (depthLimit - 1)
        (d.tokens ++ ([ofFragment ","] ++ (e.tokens ++ [ofFragment ")"]))) := by
      refine shallow.append (Nat.le_of_eq d.openings_eq_closings) ?_
      refine comma.append (by simp) ?_
      exact shallow'.append (Nat.le_of_eq e.openings_eq_closings) closing
    simpa using first.append (by simp) (arguments.cons (ofFragment "("))

end

/-! ## Values of trees of texts -/

theorem map_mapError {ε ε' α β : Type} (f : α → β) (g : ε → ε') (r : Except ε α) :
    (f <$> r).mapError g = f <$> r.mapError g := by
  cases r <;> rfl

variable {a b text : String} {s t tree : Tree}

/-- What a text comes to is what its tree comes to by plain recursion. -/
theorem evaluate_of_read (h : Tree.ofTokens (ofText text) = .ok tree) (low : tree.levels ≤ depthLimit) :
    (evaluate text).outcome = (tree.value .default).result.mapError .ofEval := by
  rw [evaluate, evaluateWithin_of_ok h, evalWithin_eq_value tree low]
  rfl

/-- The tree of a text comes to a floating-point number or an error. -/
theorem FitsInside.exists_result (h : FitsInside text tree) :
    ∃ r : Except EvalError Float, (tree.value .default).result = Value.ofFloat <$> r := by
  have settles := evalWithin_settles depthLimit tree (Tree.isFromText_of_ok h.read) []
  rw [evalWithin_eq_value tree h.low.le] at settles
  unfold result
  generalize ((tree.value .default).outcome []).1 = r at settles ⊢
  cases r with
  | ok value =>
    obtain ⟨x, rfl⟩ := settles
    exact ⟨.ok x, rfl⟩
  | error e => exact ⟨.error e, rfl⟩

/-- A call of a function with floating-point numbers, as many as it takes. -/
theorem result_invoke {name : String} {entry : Entry} (h : Registry.default.find? name = some entry)
    {arguments : List Float} (arity : entry.arity = arguments.length) :
    (invoke .default name (arguments.map Value.ofFloat)).result =
      Value.ofFloat <$>
        (functionValue entry (arguments.map Value.ofFloat)).result.mapError (failure name) := by
  have harity : entry.arity = (arguments.map Value.ofFloat).length := by rw [List.length_map, arity]
  rw [← callFunction_eq_invoke, callFunction, h]
  dsimp only
  rw [if_pos harity, result_map, result_adapt]
  rfl

theorem invoke_result {name : String} {entry : Entry} (h : Registry.default.find? name = some entry)
    {arguments : List Float} (arity : entry.arity = arguments.length) :
    (invoke .default name (arguments.map Value.ofFloat)).result.mapError ExpressionError.ofEval =
      Value.ofFloat <$> called name entry arguments := by
  rw [result_invoke h arity, called]
  cases (functionValue entry (arguments.map Value.ofFloat)).result <;> rfl

/-- An operator on floating-point numbers is the operation of the format. -/
theorem combine_result (op : Operator) (x y : Float) :
    (combine .default op.symbol (Value.ofFloat x) (Value.ofFloat y)).result =
      .ok (Value.ofFloat (op.onFloats x y)) := by
  rw [combine, op.ofName?_symbol]
  dsimp only
  rw [Value.ofFloat, Value.ofFloat, op.apply_real]
  rfl

/-! ## Composition -/

variable {x y : Except EvalError Float}

theorem FitsInside.evaluate_eq (h : FitsInside text tree)
    (hx : (tree.value .default).result = Value.ofFloat <$> x) :
    (evaluate text).outcome = Value.ofFloat <$> x.mapError .ofEval := by
  rw [evaluate_of_read h.read h.low.le, hx, map_mapError]

theorem FitsInside.evaluate_brackets (h : FitsInside a s)
    (hx : (s.value .default).result = Value.ofFloat <$> x) :
    (evaluate ("(" ++ a ++ ")")).outcome = Value.ofFloat <$> x.mapError .ofEval := by
  rw [evaluate_of_read h.read_brackets h.low.le, hx, map_mapError]

/-- The left operand of an operator is evaluated first, then the right one. -/
theorem FitsInside.evaluate_operation (ha : FitsInside a s) (hb : FitsInside b t)
    (hx : (s.value .default).result = Value.ofFloat <$> x)
    (hy : (t.value .default).result = Value.ofFloat <$> y) (op : Operator) :
    (evaluate ("(" ++ a ++ ")" ++ op.symbol ++ "(" ++ b ++ ")")).outcome =
      Value.ofFloat <$>
        (do return op.onFloats (← x.mapError .ofEval) (← y.mapError .ofEval)) := by
  have low : (Tree.pair s op.symbol t).levels ≤ depthLimit := by
    simp only [Tree.levels, op.ofName?_symbol, Option.isSome_some, if_true]
    exact max_le ha.low.le hb.low
  rw [evaluate_of_read (ha.read_operation hb op) low,
    Tree.result_pair Registry.default_appends, hx, hy]
  cases x with
  | error e => rfl
  | ok x =>
    cases y with
    | error e => rfl
    | ok y => exact congrArg (Except.mapError _) (combine_result op x y)

theorem isFunctionName_of_find? {name : String} {entry : Entry}
    (h : Registry.default.find? name = some entry) : isFunctionName name = true := by
  have all : Registry.default.all (fun f => isFunctionName f.1) = true := by decide +kernel
  exact List.all_eq_true.mp all _ (Registry.mem_of_find? h)

theorem FitsInside.evaluate_call (h : FitsInside a s)
    (hx : (s.value .default).result = Value.ofFloat <$> x) {name : String} {entry : Entry}
    (hfind : Registry.default.find? name = some entry) (arity : entry.arity = 1) :
    (evaluate (name ++ "(" ++ a ++ ")")).outcome =
      Value.ofFloat <$> (do called name entry [← x.mapError .ofEval]) := by
  have low : (Tree.call name s).levels ≤ depthLimit := h.low
  rw [evaluate_of_read (h.read_call ⟨name, isFunctionName_of_find? hfind⟩) low,
    Tree.result_call Registry.default_appends, hx]
  cases x with
  | error e => rfl
  | ok x => exact @invoke_result name entry hfind [x] arity

/-- The first argument of a call is evaluated first, then the second one. -/
theorem FitsInside.evaluate_pow (ha : FitsInside a s) (hb : FitsInside b t)
    (hx : (s.value .default).result = Value.ofFloat <$> x)
    (hy : (t.value .default).result = Value.ofFloat <$> y) :
    (evaluate ("pow(" ++ a ++ "," ++ b ++ ")")).outcome =
      Value.ofFloat <$>
        (do called "pow" (Registry.builtin .pow 2).2 [← x.mapError .ofEval, ← y.mapError .ofEval]) := by
  have low : (Tree.pair s "pow" t).levels ≤ depthLimit := by
    have none : (Operator.ofName? "pow").isSome = false := by decide
    simp only [Tree.levels, none]
    exact Nat.succ_le_of_lt (max_lt ha.low hb.low)
  have hname : ("pow(" : String) = "pow" ++ "(" := by decide
  have hread := ha.read_callPair hb ⟨"pow", by decide⟩
  rw [hname, evaluate_of_read hread low, Tree.result_pair Registry.default_appends, hx, hy]
  cases x with
  | error e => rfl
  | ok x =>
    cases y with
    | error e => rfl
    | ok y => exact @invoke_result "pow" (Registry.builtin .pow 2).2 rfl [x, y] rfl

/-- Expressions can be composed as texts. A text in brackets comes to what the text comes to. Between
two texts in brackets an operator is the operation of the floating-point format on what they come to,
and a call is the function at what its arguments come to. If an argument or operand has an error,
that is the error of the whole, and the first of them is reported. -/
theorem evaluate_compositional (ha : FitsInside a s) (hb : FitsInside b t) :
    ∃ x y : Except ExpressionError Float,
      (evaluate a).outcome = Value.ofFloat <$> x ∧
      (evaluate b).outcome = Value.ofFloat <$> y ∧
      (evaluate ("(" ++ a ++ ")")).outcome = Value.ofFloat <$> x ∧
      (∀ op : Operator,
        (evaluate ("(" ++ a ++ ")" ++ op.symbol ++ "(" ++ b ++ ")")).outcome =
          Value.ofFloat <$> (do return op.onFloats (← x) (← y))) ∧
      (∀ name entry, Registry.default.find? name = some entry → entry.arity = 1 →
        (evaluate (name ++ "(" ++ a ++ ")")).outcome =
          Value.ofFloat <$> (do called name entry [← x])) ∧
      (evaluate ("pow(" ++ a ++ "," ++ b ++ ")")).outcome =
        Value.ofFloat <$> (do called "pow" (Registry.builtin .pow 2).2 [← x, ← y]) := by
  obtain ⟨x, hx⟩ := ha.exists_result
  obtain ⟨y, hy⟩ := hb.exists_result
  refine ⟨x.mapError .ofEval, y.mapError .ofEval, ha.evaluate_eq hx, hb.evaluate_eq hy,
    ha.evaluate_brackets hx, ha.evaluate_operation hb hx hy, ?_, ha.evaluate_pow hb hx hy⟩
  intro name entry hfind arity
  exact ha.evaluate_call hx hfind arity

/-- A sum by zero. -/
theorem evaluate_sum_by_zero :
    FitsInside "1+2" (.pair (.number (some (.real (Decimal.toFloat ⟨1, 0⟩)))) "+"
      (.number (some (.real (Decimal.toFloat ⟨2, 0⟩))))) ∧
    FitsInside "0" (.number (some (.real (Decimal.toFloat ⟨0, 0⟩)))) ∧
    ∃ x y, (evaluate "1+2").outcome = Value.ofFloat <$> x ∧
      (evaluate "0").outcome = Value.ofFloat <$> y ∧
      (evaluate "(1+2)/(0)").outcome = Value.ofFloat <$> (do return (← x) / (← y)) := by
  have hsum : FitsInside "1+2" (.pair (.number (some (.real (Decimal.toFloat ⟨1, 0⟩)))) "+"
      (.number (some (.real (Decimal.toFloat ⟨2, 0⟩))))) :=
    ⟨rfl, nestsWithin_of_openings_le (by decide +kernel), by decide⟩
  have hzero : FitsInside "0" (.number (some (.real (Decimal.toFloat ⟨0, 0⟩)))) :=
    ⟨rfl, nestsWithin_of_openings_le (by decide +kernel), by decide⟩
  obtain ⟨x, y, hx, hy, -, operation, -⟩ := evaluate_compositional hsum hzero
  exact ⟨hsum, hzero, x, y, hx, hy, operation .divide⟩

end Calculator
