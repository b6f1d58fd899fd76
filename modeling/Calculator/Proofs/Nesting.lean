import Calculator.Proofs.Composition

/-!
# Only nesting is too deep

An expression is too deep because of its nesting, never because of its length. While a text is read,
the brackets count that are open at once in the tokens up to the first syntax error. While a tree is
evaluated, its levels count, and a chain of operators adds none on its left.

The tokens up to the first syntax error are those that can be completed. So a syntax error is reported
if it comes before too many brackets are open, and not reached otherwise.

Results:
1. `Grammar.ofTokensWithin_eq_tooDeep_iff`: when tokens are nested too deeply to be read.
2. `Grammar.IsSyntaxError.exists_error`: otherwise the first syntax error is reported.
3. `evalWithin_avoids`: a tree that is evaluated within its levels is not too deep.
4. `levels_le_of_read`: a bracket of a text accounts for three levels of its tree, so that few brackets
   are never too deep (`evaluateWithin_ne_tooDeep_of_brackets`).
5. `evaluateWithin_parentheses`, `evaluateWithin_closing`: a long row of parentheses, and a closing one
   too many, whatever stands behind them.
6. `only_nesting_is_too_deep`: 200 levels in a text or a tree, and 2000 in a text, whatever limits lie
   between.
-/

namespace Calculator

open Evaluation Logging

/-! ## Definitions -/

/-- The computation never ends with the error, whatever was recorded before. -/
abbrev Logging.Avoids {ε α : Type} (m : Logging ε α) (e : ε) : Prop :=
  m.Ensures (fun _ => True) (· ≠ e)

/-- No function of the registry goes too deep by itself, whatever values it is called with. -/
def Registry.Shallow (r : Registry) : Prop :=
  ∀ name entry, r.find? name = some entry → ∀ arguments : List Value,
    entry.arity = arguments.length → (entry.apply arguments).Avoids .tooDeep

namespace Grammar

/-- The tokens up to the first syntax error, all of them if there is none, never hold more brackets
open at once than the limit says. -/
def NestsBeforeError (limit : Nat) (tokens : List Token) : Prop :=
  ∀ before, before <+: tokens → Completable before → openings before ≤ closings before + limit

/-- The first syntax error is the token `t` behind the tokens `before`: these can be completed, but
not together with `t`. -/
structure IsSyntaxError (tokens before : List Token) (t : Token) : Prop where
  split : before ++ [t] <+: tokens
  completable : Completable before
  hopeless : ¬ Completable (before ++ [t])

end Grammar

/-! ## Too many open brackets -/

namespace Grammar

open Parsing Position

variable {limit : Nat} {tokens before ts us : List Token} {t : Token} {q place : Position}
  {e : ParseError} {c c' : Cursor}

theorem NestsWithin.nestsBeforeError (h : NestsWithin limit tokens) :
    NestsBeforeError limit tokens := fun before prefixes _ => h before prefixes

theorem NestsBeforeError.mono {limit' : Nat} (h : NestsBeforeError limit tokens)
    (le : limit ≤ limit') : NestsBeforeError limit' tokens := by
  intro before prefixes completable
  exact (h before prefixes completable).trans (Nat.add_le_add_left le _)

/-- A position with too many open brackets stops the reading, whatever stands behind it. -/
theorem firstError_of_deep (reached : q.after ts = some place) (deep : limit < place.brackets.length)
    (t : Token) (us : List Token) : firstError limit q (ts ++ t :: us) = some .tooDeep := by
  induction ts generalizing q with
  | nil =>
    cases reached
    exact if_pos deep
  | cons t' ts ih =>
    obtain ⟨q', hnext, reached'⟩ := exists_of_after_cons reached
    rw [List.cons_append, firstError, hnext]
    split
    · rfl
    · exact ih reached'

theorem refusal_ne_tooDeep (q : Position) (t : Token) : q.refusal t ≠ .tooDeep := by
  unfold Position.refusal
  split <;> nofun

theorem Failure.not_nestsBeforeError (h : Failure limit start (Begun (Reads .expression)) c e c')
    (deep : e = .tooDeep) : ¬ NestsBeforeError limit c.ahead := by
  cases h with
  | refused => exact absurd deep (refusal_ne_tooDeep _ _)
  | exhausted => cases deep
  | @tooDeep ts place _ moved passed many =>
    intro few
    rw [moved.ahead] at few
    have fits := few ts (List.prefix_append _ _) passed.completable
    have count := after_start_brackets moved.reached
    omega

theorem not_nestsBeforeError_of_tooDeep (h : Tree.ofTokensWithin limit tokens = .error .tooDeep) :
    ¬ NestsBeforeError limit tokens := by
  obtain ⟨c, c', rfl, verdict⟩ := exists_verdict h nofun
  cases verdict with
  | failed failure => exact failure.not_nestsBeforeError rfl

/-- Tokens that can be completed and leave too many brackets open. The end of the input does not stand
among them, so another token stands behind them. -/
theorem ofTokensWithin_of_deep (ended : ∃ t ∈ tokens, t.kind = .endOfInput) (prefixes : before <+: tokens)
    (completable : Completable before) (deep : closings before + limit < openings before) :
    Tree.ofTokensWithin limit tokens = .error .tooDeep := by
  obtain ⟨behind, rfl⟩ := prefixes
  rcases completable.cases with begins | ⟨d, last, hlast, rfl⟩
  · obtain ⟨place, reached⟩ := begins.exists_after
    have count := after_start_brackets reached
    cases behind with
    | nil =>
      obtain ⟨t, member, hend⟩ := ended
      rw [List.append_nil] at member
      exact absurd hend (begins.kind_ne_endOfInput t member)
    | cons t us => exact ofTokensWithin_eq_error_iff.mpr (firstError_of_deep reached (by omega) t us)
  · -- a whole expression leaves no bracket open
    have balanced := d.openings_eq_closings
    simp [hlast, balanced] at deep

/-- Tokens are nested too deeply to be read if and only if those up to the first syntax error hold
too many brackets open at once. -/
theorem ofTokensWithin_eq_tooDeep_iff (ended : ∃ t ∈ tokens, t.kind = .endOfInput) :
    Tree.ofTokensWithin limit tokens = .error .tooDeep ↔ ¬ NestsBeforeError limit tokens := by
  constructor
  · exact not_nestsBeforeError_of_tooDeep
  · intro h
    unfold NestsBeforeError at h
    push Not at h
    obtain ⟨before, prefixes, completable, deep⟩ := h
    exact ofTokensWithin_of_deep ended prefixes completable deep

/-! ## The first syntax error -/

/-- Without a syntax error all tokens count. -/
theorem Completable.nestsBeforeError_iff (h : Completable tokens) :
    NestsBeforeError limit tokens ↔ NestsWithin limit tokens := by
  constructor
  · intro few before prefixes
    exact few before prefixes (h.shorten prefixes)
  · exact NestsWithin.nestsBeforeError

namespace IsSyntaxError

/-- What can be completed ends before the first syntax error. -/
theorem prefix_of_completable (h : IsSyntaxError tokens before t) (prefixes : ts <+: tokens)
    (completable : Completable ts) : ts <+: before := by
  rcases List.prefix_or_prefix_of_prefix prefixes h.split with short | long
  · rcases List.prefix_concat_iff.mp short with rfl | short
    · exact absurd completable h.hopeless
    · exact short
  · exact absurd (completable.shorten long) h.hopeless

/-- The tokens before the first syntax error are those that count. -/
theorem nestsBeforeError_iff (h : IsSyntaxError tokens before t) :
    NestsBeforeError limit tokens ↔ NestsWithin limit before := by
  constructor
  · intro few ts prefixes
    have inside : ts <+: tokens := (prefixes.trans (List.prefix_append before [t])).trans h.split
    exact few ts inside (h.completable.shorten prefixes)
  · intro few ts prefixes completable
    exact few ts (h.prefix_of_completable prefixes completable)

/-- There is only one first syntax error. -/
theorem unique {before' : List Token} {t' : Token} (h : IsSyntaxError tokens before t)
    (h' : IsSyntaxError tokens before' t') : before = before' ∧ t = t' := by
  have inside : before <+: tokens := (List.prefix_append _ _).trans h.split
  have inside' : before' <+: tokens := (List.prefix_append _ _).trans h'.split
  have le := (h.prefix_of_completable inside' h'.completable).length_le
  obtain rfl := (h'.prefix_of_completable inside h.completable).eq_of_length_le le
  have both := List.prefix_of_prefix_length_le h.split h'.split (by simp)
  exact ⟨rfl, by simpa using both⟩

/-- The leftmost error is the first syntax error. -/
theorem of_leftmost (h : IsLeftmostError tokens e c) :
    IsSyntaxError tokens (tokens.take c.index) c.current := by
  obtain ⟨inside, current⟩ := List.getElem?_eq_some_iff.mp h.current
  have whole : tokens.take c.index ++ [c.current] = tokens.take (c.index + 1) := by
    rw [← current, List.take_append_getElem]
  refine ⟨?_, h.completable, ?_⟩ <;> rw [whole]
  · exact List.take_prefix _ _
  · exact h.hopeless

end IsSyntaxError

/-- A text that is read has no syntax error. -/
theorem completable_of_ok {text : String} {tree : Tree}
    (h : Tree.ofTokensWithin limit (Token.ofText text) = .ok tree) :
    Completable (Token.ofText text) := by
  obtain ⟨-, -, d, hd, -⟩ := ofTokensWithin_eq_ok_iff.mp h
  rw [Token.beforeEnd_ofText] at hd
  refine ⟨[], d, Token.endOfInput, rfl, ?_⟩
  rw [List.append_nil, hd]
  rfl

/-- The first syntax error of a text is reported if the tokens before it are not nested too deeply. -/
theorem IsSyntaxError.exists_error {text : String} (h : IsSyntaxError (Token.ofText text) before t)
    (few : NestsWithin limit before) :
    ∃ e, (∀ e', Reported before t e' ↔ e' = e) ∧ e ≠ .tooDeep ∧
      Tree.ofTokensWithin limit (Token.ofText text) = .error e := by
  have ended := Token.exists_endOfInput text
  cases hread : Tree.ofTokensWithin limit (Token.ofText text) with
  | ok tree => exact absurd ((completable_of_ok hread).shorten h.split) h.hopeless
  | error e =>
    have shallow : e ≠ .tooDeep := by
      rintro rfl
      exact (ofTokensWithin_eq_tooDeep_iff ended).mp hread (h.nestsBeforeError_iff.mpr few)
    obtain ⟨c, leftmost⟩ := (tooDeep_or_leftmost ended hread).resolve_left fun h => shallow h.1
    obtain ⟨same, current⟩ := h.unique (.of_leftmost leftmost)
    have reported := leftmost.reported
    rw [← same, ← current] at reported
    exact ⟨e, reported, shallow, rfl⟩

end Grammar

/-! ## Computations that do not go too deep -/

namespace Logging

variable {ε α : Type} {m : Logging ε α} {e : ε}

theorem Avoids.outcome_ne (h : m.Avoids e) (log : List Warning) : (m.outcome log).1 ≠ .error e := by
  intro fails
  have first := h log
  rw [fails] at first
  exact first rfl

theorem Gives.avoids {Q : α → Prop} (h : m.Gives Q) : m.Avoids e :=
  h.mono (fun _ _ => trivial) fun _ none => none.elim

theorem avoids_closed : Closed fun m => m.Avoids Fault.tooDeep where
  pure _ := ensures_pure trivial
  throw _ h := ensures_throw h
  warn := ensures_warn
  bind hm hk := hm.bind fun a _ => hk a

end Logging

/-- The functions of one number, whatever they are called with. The arcsine is folded once at most. -/
theorem Builtin.apply_avoids {f : Builtin}
    (h : f ∈ [Builtin.cos, .acos, .sin, .asin, .tan, .atan, .sqrt]) (value : Value) :
    (f.apply defaultCap [value] none).Avoids .tooDeep := by
  have single : f.apply defaultCap [value] none =
      (do f.approximate defaultCap (← Value.demand value) (some (.real f.tolerance))) := by
    cases f <;> first | rfl | exact absurd h (by decide)
  rw [single]
  refine avoids_closed.bind (avoids_closed.lift (.demand value)) fun x => ?_
  exact avoids_closed.approximate (fun x => (Inverse.arcsine_total (by decide) x _).avoids) f x

theorem Registry.default_shallow : Registry.default.Shallow := by
  intro name entry h arguments arity
  rcases default_cases h with ⟨f, hf, rfl⟩ | rfl
  · obtain ⟨value, rfl⟩ := List.length_eq_one_iff.mp (Int.ofNat.inj arity.symm)
    exact avoids_closed.map (Builtin.apply_avoids hf value) _
  · obtain ⟨base, exponent, rfl⟩ := List.length_eq_two.mp (Int.ofNat.inj arity.symm)
    exact avoids_closed.map (avoids_closed.lift (.power base exponent)) _

/-! ## Trees -/

open StackMachine

theorem NumericOnly.operator (op : Operator) (left right : Value) :
    NumericOnly (op.apply left right) := by
  have arithmetic (onInts : Int → Int → Int) (onFloats : Float → Float → Float) : NumericOnly (do
      (← Number.combine onInts onFloats (← left.demand) (← right.demand)).toFloat) :=
    (demand left).bind fun a => (demand right).bind fun b => (combine _ _ a b).bind toFloat
  cases op with
  | plus => exact arithmetic _ _
  | minus => exact arithmetic _ _
  | times => exact arithmetic _ _
  | divide =>
    refine .ite ((demand left).bind fun a => .ite (.pure _) ?_) ?_
    · refine (toFloat a).bind fun x => (demand right).bind fun b => (toFloat b).bind fun zero => ?_
      exact .pure _
    · exact (demand left).bind fun a => (demand right).bind fun b => div a b
  | modulo =>
    refine .ite (.pure _) ((demand left).bind fun a => (toFloat a).bind fun x => .ite (.pure _) ?_)
    exact (demand right).bind fun b => (toFloat b).bind fun y => .pure _

theorem ofFault_eq_tooDeep {f : Fault} (h : EvalError.ofFault f = .tooDeep) : f = .tooDeep := by
  cases f <;> first | rfl | cases h

theorem failure_eq_tooDeep {name : String} {f : Fault} (h : StackMachine.failure name f = .tooDeep) :
    f = .tooDeep := by
  unfold StackMachine.failure at h
  split at h
  · cases h
  · exact ofFault_eq_tooDeep h

theorem Fault.ne_tooDeep {f : Fault} (h : f.isNumeric = true) : f ≠ .tooDeep := by
  rintro rfl
  cases h

variable {r : Registry}

theorem invoke_avoids (hr : r.Shallow) (name : String) (arguments : List Value) :
    (invoke r name arguments).Avoids .tooDeep := by
  unfold invoke
  cases h : r.find? name with
  | none => exact ensures_throw nofun
  | some entry =>
    refine ensures_ite (fun _ => ensures_throw nofun) fun arity => ?_
    have hvalue := hr name entry h arguments (not_not.mp arity)
    refine (hvalue.adapt fun f hf deep => hf (failure_eq_tooDeep deep)).bind fun value _ => ?_
    cases value with
    | none => exact ensures_throw nofun
    | some number =>
      dsimp only
      cases hnumber : number.toFloat with
      | ok x => exact ensures_pure trivial
      | error f =>
        have numeric := NumericOnly.toFloat number f hnumber
        exact ensures_throw (mt failure_eq_tooDeep (Fault.ne_tooDeep numeric))

theorem combine_avoids (hr : r.Shallow) (name : String) (left right : Value) :
    (combine r name left right).Avoids .tooDeep := by
  unfold combine
  cases Operator.ofName? name with
  | some op =>
    dsimp only
    cases hop : op.apply left right with
    | ok x => exact ensures_pure trivial
    | error f =>
      have numeric := NumericOnly.operator op left right f hop
      exact ensures_throw (mt ofFault_eq_tooDeep (Fault.ne_tooDeep numeric))
  | none => exact ensures_ite (fun _ => invoke_avoids hr name _) fun _ => ensures_throw nofun

/-- Plain recursion on the operands has no limit, so only the functions could go too deep. -/
theorem Tree.value_avoids (hr : r.Shallow) (t : Tree) : (t.value r).Avoids .tooDeep := by
  induction t with
  | number value => exact ensures_pure trivial
  | foreign => exact ensures_throw nofun
  | call name argument ih => exact ih.bind fun first _ => invoke_avoids hr name [first]
  | pair left name right ihl ihr =>
    exact ihl.bind fun first _ => ihr.bind fun second _ => combine_avoids hr name first second

/-- A tree that is evaluated within its levels is not too deep, however many nodes it has. -/
theorem evalWithin_avoids (hr : r.Shallow) {t : Tree} {limit : Nat} (low : t.levels ≤ limit) :
    (evalWithin r limit t).Avoids .tooDeep := by
  rw [evalWithin_eq_value t low]
  exact t.value_avoids hr

/-! ## Levels of a text -/

namespace Grammar

variable {limit k : Nat} {ts us : List Token}

/-- How many levels the operators of a phrase make outside its brackets: a term stands to the right of
a sum, and a factor to the right of a product. -/
def Phrase.chains : Phrase → Nat
  | .factor => 0
  | .chain .product => 1
  | .chain .sum => 2

theorem chains_operand (level : Level) :
    level.operand.chains + 1 = (Phrase.chain level).chains := by
  cases level <;> rfl

/-- Behind tokens that leave brackets open, as many fewer can be opened. -/
theorem NestsWithin.behind (us : List Token) (h : NestsWithin limit (us ++ ts))
    (opened : openings us = closings us + k) : k ≤ limit ∧ NestsWithin (limit - k) ts := by
  have few (pre : List Token) (prefixes : pre <+: ts) : openings pre + k ≤ closings pre + limit := by
    have whole := h (us ++ pre) ((List.prefix_append_right_inj us).mpr prefixes)
    rw [openings_append, closings_append] at whole
    omega
  have room : k ≤ limit := by simpa using few [] List.nil_prefix
  refine ⟨room, fun pre prefixes => ?_⟩
  have := few pre prefixes
  omega

theorem levels_pair_le (left : Tree) (name : String) (right : Tree) :
    (Tree.pair left name right).levels ≤ max left.levels right.levels + 1 := by
  rw [Tree.levels]
  split <;> omega

/-- The left operand of an operator adds no level. -/
theorem levels_operation {left right : Tree} {name : String}
    (h : (Operator.ofName? name).isSome = true) :
    (Tree.pair left name right).levels = max left.levels (right.levels + 1) := if_pos h

mutual

/-- Each bracket that is open at once accounts for three levels of a tree at most: of a call, of a sum
inside it, and of a product in that. -/
theorem Derivation.levels_le {p : Phrase} (d : Derivation p) {limit : Nat}
    (few : NestsWithin limit d.tokens) (h : ∀ t ∈ d.tokens, t.IsFromText) :
    d.tree.levels ≤ 3 * limit + p.chains := by
  cases d with
  | number t isNumber => exact Nat.zero_le _
  | group opening inner closing isOpening isClosing =>
    simp only [Derivation.tokens, List.forall_mem_cons, List.forall_mem_append] at h
    obtain ⟨room, behind⟩ := few.behind [opening] (k := 1) (by simp [isOpening])
    have hinner := inner.levels_le (behind.shorten (List.prefix_append _ _)) h.2.1
    simp only [Derivation.tree, Phrase.chains] at hinner ⊢
    omega
  | call name opening argument closing isName isOpening isClosing =>
    simp only [Derivation.tokens, List.forall_mem_cons, List.forall_mem_append] at h
    obtain ⟨room, behind⟩ := few.behind [name, opening] (k := 1) (by simp [isName, isOpening])
    have hargument := argument.levels_le (behind.shorten (List.prefix_append _ _)) h.2.2.1
    simp only [Derivation.tree, Tree.levels, Phrase.chains] at hargument ⊢
    omega
  | callPair name opening first comma second closing isName isOpening isComma isClosing =>
    simp only [Derivation.tokens, List.forall_mem_cons, List.forall_mem_append] at h
    obtain ⟨-, -, hfirst, -, hsecond, -⟩ := h
    have balanced := first.openings_eq_closings
    obtain ⟨room, behind⟩ := few.behind [name, opening] (k := 1) (by simp [isName, isOpening])
    have behindComma : NestsWithin limit ((name :: opening :: first.tokens ++ [comma]) ++
        (second.tokens ++ [closing])) := by
      simpa [Derivation.tokens] using few
    obtain ⟨-, behind'⟩ := behindComma.behind _ (k := 1) (by
      simp [isName, isOpening, isComma, balanced])
    have hleft := first.levels_le (behind.shorten (List.prefix_append _ _)) hfirst
    have hright := second.levels_le (behind'.shorten (List.prefix_append _ _)) hsecond
    have hpair := levels_pair_le first.tree name.text second.tree
    simp only [Derivation.tree, Phrase.chains] at hleft hright ⊢
    omega
  | @chain level first more =>
    simp only [Derivation.tokens, List.forall_mem_append] at h
    have hfirst := first.levels_le (few.shorten (List.prefix_append _ _)) h.1
    rw [Derivation.tokens] at few
    obtain ⟨-, behind⟩ := few.behind _ (k := 0) first.openings_eq_closings
    refine more.levels_le behind h.2 (hfirst.trans ?_)
    have step := chains_operand level
    omega

theorem Links.levels_le {level : Level} (links : Links level) {limit : Nat}
    (few : NestsWithin limit links.tokens) (h : ∀ t ∈ links.tokens, t.IsFromText) {left : Tree}
    (hleft : left.levels ≤ 3 * limit + (Phrase.chain level).chains) :
    (links.treeOnto left).levels ≤ 3 * limit + (Phrase.chain level).chains := by
  match links with
  | .none => exact hleft
  | .next link right more isLink =>
    simp only [Links.tokens, List.forall_mem_cons, List.forall_mem_append] at h
    obtain ⟨hlink, hright, hmore⟩ := h
    have stands : (⟨.continuation, []⟩ : Position).next link.kind = some ⟨.factor, []⟩ :=
      next_of_isLink isLink
    have unbracketed : openings [link] = closings [link] := by simpa using next_brackets stands
    obtain ⟨-, behind⟩ := few.behind [link] (k := 0) unbracketed
    obtain ⟨-, behind'⟩ := behind.behind _ (k := 0) right.openings_eq_closings
    have hoperand := right.levels_le (behind.shorten (List.prefix_append _ _)) hright
    have step := chains_operand level
    refine more.levels_le behind' hmore ?_
    rw [levels_operation (hlink.link level isLink)]
    omega

end

end Grammar

/-! ## Texts -/

open Grammar Token

theorem ExpressionError.ofParse_of_ne {e : ParseError} (h : e ≠ .tooDeep) : ofParse e = parse e := by
  cases e <;> first | rfl | exact absurd rfl h

theorem ExpressionError.ofEval_eq_tooDeep {e : EvalError} (h : ofEval e = tooDeep) :
    e = .tooDeep := by
  cases e <;> first | rfl | cases h

variable {reading evaluating limit : Nat} {text : String} {tree : Tree} {before : List Token}
  {t : Token}

/-- Too many brackets that are open before the first syntax error. -/
theorem evaluateWithin_of_deep (h : ¬ NestsBeforeError reading (ofText text)) :
    (evaluateWithin reading evaluating text).outcome = .error .tooDeep :=
  evaluateWithin_of_error ((ofTokensWithin_eq_tooDeep_iff (exists_endOfInput text)).mpr h)

/-- A text is too deep only if too many brackets are open or its tree has too many levels. -/
theorem evaluateWithin_ne_tooDeep (few : NestsBeforeError reading (ofText text))
    (low : ∀ tree, Tree.ofTokensWithin reading (ofText text) = .ok tree → tree.levels ≤ evaluating) :
    (evaluateWithin reading evaluating text).outcome ≠ .error .tooDeep := by
  cases hread : Tree.ofTokensWithin reading (ofText text) with
  | error e =>
    have shallow : e ≠ .tooDeep := by
      rintro rfl
      exact (ofTokensWithin_eq_tooDeep_iff (exists_endOfInput text)).mp hread few
    rw [evaluateWithin_of_error hread, ExpressionError.ofParse_of_ne shallow]
    nofun
  | ok tree =>
    have avoids := (evalWithin_avoids Registry.default_shallow (low tree hread)).outcome_ne []
    rw [evaluateWithin_of_ok hread]
    cases hvalue : ((evalWithin .default evaluating tree).outcome []).1 with
    | ok value => nofun
    | error e =>
      rw [hvalue] at avoids
      intro same
      have deep := ExpressionError.ofEval_eq_tooDeep (Except.error.inj same)
      exact avoids (congrArg Except.error deep)

/-- The first syntax error, if the tokens before it are not nested too deeply. -/
theorem evaluateWithin_of_isSyntaxError (h : IsSyntaxError (ofText text) before t)
    (few : NestsWithin reading before) :
    ∃ e, (∀ e', Reported before t e' ↔ e' = e) ∧
      (evaluateWithin reading evaluating text).outcome = .error (.parse e) := by
  obtain ⟨e, reported, shallow, hread⟩ := h.exists_error few
  refine ⟨e, reported, ?_⟩
  rw [evaluateWithin_of_error hread, ExpressionError.ofParse_of_ne shallow]

/-- The nesting of a text bounds that of its tree. -/
theorem levels_le_of_read (h : NestsBeforeError limit (ofText text))
    (hread : Tree.ofTokensWithin reading (ofText text) = .ok tree) : tree.levels ≤ 3 * limit + 2 := by
  obtain ⟨d, last, behind, split, -, rfl, -⟩ := exists_derivation_of_ok hread
  have few := (completable_of_ok hread).nestsBeforeError_iff.mp h
  rw [split] at few
  refine d.levels_le (few.shorten (List.prefix_append _ _)) fun t ht => ?_
  have member : t ∈ ofText text := by
    rw [split]
    exact List.mem_append_left _ ht
  exact isFromText_of_mem member

/-- With so few brackets open at once, the tree of a text need not be looked at. -/
theorem evaluateWithin_ne_tooDeep_of_brackets (h : NestsBeforeError limit (ofText text))
    (carried : limit ≤ reading) (room : 3 * limit + 2 ≤ evaluating) :
    (evaluateWithin reading evaluating text).outcome ≠ .error .tooDeep := by
  refine evaluateWithin_ne_tooDeep (h.mono carried) fun tree hread => ?_
  exact (levels_le_of_read h hread).trans room

/-! ## Parentheses without a partner -/

/-- So many opening parentheses. -/
def parentheses (n : Nat) : String := String.ofList (List.replicate n '(')

theorem inside_parentheses (n : Nat) (s : String) :
    inside (parentheses n ++ s) = List.replicate n (ofFragment "(") ++ inside s := by
  induction n with
  | zero => simp [parentheses]
  | succ n ih =>
    have step : parentheses (n + 1) = "(" ++ parentheses n := by
      rw [parentheses, List.replicate_succ, String.ofList_cons]
      rfl
    rw [step, String.append_assoc, inside_append_first isSymbolWord_opening, ih]
    rfl

theorem begins_group {opening : Token} (hopening : opening.kind = .openParen) {ts : List Token}
    (h : Begins .expression ts) : Begins .expression (opening :: ts) := by
  obtain ⟨d, more, hd⟩ := h
  have hread := reads_group hopening (someToken_kind .closeParen) ⟨d, rfl, rfl⟩
  obtain ⟨e, he, -⟩ := reads_expression hread
  exact ⟨e, more ++ [someToken .closeParen], by rw [he, hd]; simp⟩

theorem completable_parentheses (n : Nat) : Completable (List.replicate n (ofFragment "(")) := by
  have begins : Begins .expression (List.replicate n (ofFragment "(")) := by
    induction n with
    | zero =>
      obtain ⟨ts, tree, d, rfl, -⟩ := exists_reads .expression
      exact ⟨d, d.tokens, rfl⟩
    | succ n ih => exact begins_group kind_opening ih
  exact (begins_iff_begun.mp begins).completable

theorem openings_parentheses (n : Nat) : openings (List.replicate n (ofFragment "(")) = n := by
  simp [openings, List.countP_replicate]

theorem closings_parentheses (n : Nat) : closings (List.replicate n (ofFragment "(")) = 0 := by
  simp [closings]

/-- Whatever stands behind a long row of parentheses. -/
theorem evaluateWithin_parentheses {n : Nat} (many : reading < n) (s : String) :
    (evaluateWithin reading evaluating (parentheses n ++ s)).outcome = .error .tooDeep := by
  refine evaluateWithin_of_deep fun few => ?_
  have fits := few (List.replicate n (ofFragment "(")) ?_ (completable_parentheses n)
  · rw [openings_parentheses, closings_parentheses] at fits
    omega
  · rw [ofText_eq, inside_parentheses, List.append_assoc]
    exact List.prefix_append _ _

/-- A closing parenthesis too many is the first syntax error, whatever stands behind it. -/
theorem isSyntaxError_closing (hread : Tree.ofTokensWithin reading (ofText text) = .ok tree)
    (s : String) :
    IsSyntaxError (ofText (text ++ ")" ++ s)) (inside text) (ofFragment ")") ∧
      Reported (inside text) (ofFragment ")") (.unexpected (ofFragment ")")) ∧
      NestsWithin reading (inside text) := by
  obtain ⟨-, few, d, hd, -⟩ := ofTokensWithin_eq_ok_iff.mp hread
  rw [beforeEnd_ofText] at hd few
  have refused : Position.Refuses ⟨.continuation, []⟩ (ofFragment ")").kind := by
    rw [kind_closing]
    exact ⟨rfl, fun _ => nofun⟩
  refine ⟨⟨?_, ?_, ?_⟩, .inr ⟨⟨d, hd⟩, rfl⟩, few⟩
  · rw [ofText_eq, inside_append_symbol isSymbolWord_closing, List.append_assoc]
    exact (List.prefix_append_right_inj _).mpr (List.prefix_append [ofFragment ")"] _)
  · rw [← hd]
    exact (begins_iff_begun.mp (begins_tokens d)).completable
  · rw [← hd]
    exact not_completable_of_refuses d.after_start refused

theorem evaluateWithin_closing (hread : Tree.ofTokensWithin reading (ofText text) = .ok tree)
    (s : String) :
    (evaluateWithin reading evaluating (text ++ ")" ++ s)).outcome =
      .error (.parse (.unexpected (ofFragment ")"))) := by
  obtain ⟨isError, reported, few⟩ := isSyntaxError_closing hread s
  obtain ⟨e, unique, houtcome⟩ := evaluateWithin_of_isSyntaxError isError few
  rw [houtcome, (unique _).mp reported]

/-! ## Two hundred levels and two thousand -/

/-- Only nesting makes an expression too deep, never its length. Whatever the limits are that carry 200
levels of nesting in a text but not 2000, and 200 in a tree: up to 200 brackets that are open at once
before the first syntax error, and up to 200 levels of the tree, are never too deep, and neither are
200 levels of any other tree under functions that do not go too deep by themselves. With 2000 brackets
open at once before the first syntax error, that error is not reached; if it comes before the nesting,
it is reported. `evaluate` and `Tree.eval` are the case in which both limits are `depthLimit`. -/
theorem only_nesting_is_too_deep (carries : 200 ≤ reading) (givesOut : reading < 2000)
    (carriesTrees : 200 ≤ evaluating) :
    (∀ text, NestsBeforeError 200 (ofText text) →
      (∀ tree, Tree.ofTokensWithin reading (ofText text) = .ok tree → tree.levels ≤ 200) →
        (evaluateWithin reading evaluating text).outcome ≠ .error .tooDeep) ∧
    (Registry.default.Shallow ∧
      ∀ r : Registry, r.Shallow → ∀ tree : Tree, tree.levels ≤ 200 →
        ∀ log, ((evalWithin r evaluating tree).outcome log).1 ≠ .error .tooDeep) ∧
    (∀ text before, before <+: ofText text → Completable before →
      closings before + 2000 ≤ openings before →
        (evaluateWithin reading evaluating text).outcome = .error .tooDeep) ∧
    (∀ text before t, IsSyntaxError (ofText text) before t → NestsWithin 200 before →
      ∃ e, (∀ e', Reported before t e' ↔ e' = e) ∧
        (evaluateWithin reading evaluating text).outcome = .error (.parse e)) := by
  refine ⟨?_, ⟨Registry.default_shallow, ?_⟩, ?_, ?_⟩
  · intro text few low
    exact evaluateWithin_ne_tooDeep (few.mono carries) fun tree hread =>
      (low tree hread).trans carriesTrees
  · intro r hr tree low
    exact (evalWithin_avoids hr (low.trans carriesTrees)).outcome_ne
  · intro text before prefixes completable deep
    refine evaluateWithin_of_deep fun few => ?_
    have := few before prefixes completable
    omega
  · intro text before t h few
    exact evaluateWithin_of_isSyntaxError h (few.mono carries)

/-- At the limits of the program: an operation with a bracket in it, a call of no number, many
parentheses before a syntax error, and as many behind one. -/
theorem nesting_of_four_inputs :
    200 ≤ depthLimit ∧ depthLimit < 2000 ∧
    (evaluate "1+2*(3)").outcome ≠ .error .tooDeep ∧
    ((Tree.eval .default (.call "asin" (.number none))).outcome []).1 ≠ .error .tooDeep ∧
    (evaluate (parentheses 2000 ++ ")")).outcome = .error .tooDeep ∧
    (evaluate ("1+2*(3)" ++ ")" ++ parentheses 2000)).outcome =
      .error (.parse (.unexpected (ofFragment ")"))) := by
  have carries : 200 ≤ depthLimit := by decide
  have givesOut : depthLimit < 2000 := by decide
  obtain ⟨texts, ⟨shallow, trees⟩, deep, first⟩ := only_nesting_is_too_deep carries givesOut carries
  have hread : Tree.ofTokens (ofText "1+2*(3)") =
      .ok (.pair (.number (Value.ofFloat 1.0)) "+"
        (.pair (.number (Value.ofFloat 2.0)) "*" (.number (Value.ofFloat 3.0)))) := by
    decide +kernel
  refine ⟨carries, givesOut, ?_, ?_, ?_, ?_⟩
  · have few : NestsBeforeError 1 (ofText "1+2*(3)") :=
      (nestsWithin_of_openings_le (by decide +kernel)).nestsBeforeError
    refine texts "1+2*(3)" (few.mono (by decide)) fun tree hread => ?_
    exact (levels_le_of_read few hread).trans (by decide)
  · exact trees .default shallow (.call "asin" (.number none)) (by decide) []
  · refine deep _ (List.replicate 2000 (ofFragment "(")) ?_ (completable_parentheses 2000) ?_
    · rw [ofText_eq, inside_parentheses, List.append_assoc]
      exact List.prefix_append _ _
    · rw [openings_parentheses, closings_parentheses]
  · obtain ⟨isError, reported, -⟩ := isSyntaxError_closing hread (parentheses 2000)
    obtain ⟨e, unique, houtcome⟩ := first _ _ _ isError (nestsWithin_of_openings_le (by decide +kernel))
    rw [evaluate, houtcome, (unique _).mp reported]

end Calculator
