import Calculator.Library.Builtin
import Calculator.Proofs.Logging

/-!
# Computations of the library

The functions of the library are sequences of computations that give a value, end in a fault or leave
a warning. Whatever holds of these parts and of what is sequenced from them holds of every function,
at all arguments and under every cap (`Closed`). The faults of the parts say something about the
arguments; there are two others, that a sum does not end and that an arcsine was folded too often.

Results:
1. `NumericOnly.power`, `NumericOnly.div`: what is computed without an iteration.
2. `Logging.Closed.apply`: what is closed holds of every function.
3. `Registry.default_cases`: the functions that every expression can call.
-/

namespace Calculator

/-! ## Faults of numbers -/

/-- The computation gives a value or ends in a fault that says something about the arguments. -/
def NumericOnly {α : Type} (m : Except Fault α) : Prop := ∀ f, m = .error f → f.isNumeric = true

namespace NumericOnly

variable {α β : Type}

protected theorem pure (a : α) : NumericOnly (pure a : Except Fault α) := by
  intro f h
  cases h

protected theorem throw {f : Fault} (h : f.isNumeric = true) :
    NumericOnly (throw f : Except Fault α) := by
  intro f' h'
  cases h'
  exact h

protected theorem bind {m : Except Fault α} {f : α → Except Fault β} (h : NumericOnly m)
    (hf : ∀ a, NumericOnly (f a)) : NumericOnly (m >>= f) := by
  cases m with
  | ok a => exact hf a
  | error e =>
    intro f' h'
    cases h'
    exact h e rfl

protected theorem ite {c : Prop} [Decidable c] {m m' : Except Fault α} (h : NumericOnly m)
    (h' : NumericOnly m') : NumericOnly (if c then m else m') := by
  split
  · exact h
  · exact h'

theorem toFloat (a : Number) : NumericOnly a.toFloat := by
  cases a with
  | int n => exact .ite (.throw rfl) (.pure _)
  | real x => exact .pure x

theorem truncate (a : Number) : NumericOnly a.truncate := by
  cases a with
  | int n => exact .pure n
  | real x =>
    unfold Number.truncate
    dsimp only
    cases Scaled.ofFloat? x with
    | some a => exact .pure _
    | none =>
      refine .throw ?_
      split <;> rfl

/-- Two numbers are converted before an operation on floating-point numbers. -/
theorem toFloats (a b : Number) {f : Float → Float → Except Fault α}
    (hf : ∀ x y, NumericOnly (f x y)) :
    NumericOnly (do
      let x ← a.toFloat
      let y ← b.toFloat
      f x y) :=
  (toFloat a).bind fun x => (toFloat b).bind fun y => hf x y

theorem combine (onInts : Int → Int → Int) (onFloats : Float → Float → Float) (a b : Number) :
    NumericOnly (Number.combine onInts onFloats a b) := by
  cases a with
  | int m =>
    cases b with
    | int n => exact .pure _
    | real y => exact toFloats _ _ fun _ _ => .pure _
  | real x => exact toFloats _ _ fun _ _ => .pure _

theorem div (a b : Number) : NumericOnly (a.div b) := by
  cases a with
  | int m =>
    cases b with
    | int n => exact .ite (.throw rfl) (.ite (.throw rfl) (.pure _))
    | real y => exact toFloats _ _ fun _ _ => .ite (.throw rfl) (.pure _)
  | real x => exact toFloats _ _ fun _ _ => .ite (.throw rfl) (.pure _)

theorem demand (value : Value) : NumericOnly value.demand := by
  cases value with
  | none => exact .throw rfl
  | some a => exact .pure a

theorem power (base exponent : Value) : NumericOnly (power base exponent) := by
  have hcount (e : Number) : NumericOnly (factorCount e) := (truncate e).bind fun _ => .pure _
  refine (demand exponent).bind fun e => .ite (.pure _) (.ite ?_ (.pure _))
  refine (hcount e).bind fun steps => (demand base).bind fun b => .ite ?_ (.pure _)
  exact .ite (.pure _) ((div _ b).bind fun _ => .pure _)

theorem factorial (n : Number) : NumericOnly (factorial n) :=
  .ite (.pure _) ((truncate n).bind fun _ => .pure _)

end NumericOnly

/-! ## What holds of all computations -/

namespace Logging

/-- What is sequenced from computations with the property has it. Faults and warnings have it, but not
necessarily the fault that something was nested too deeply. -/
structure Closed (P : {α : Type} → Numeric α → Prop) : Prop where
  pure : ∀ {α : Type} (a : α), P (pure a : Numeric α)
  throw : ∀ {α : Type} (f : Fault), f ≠ .tooDeep → P (throw f : Numeric α)
  warn : ∀ w : Warning, P (warn w)
  bind : ∀ {α β : Type} {m : Numeric α} {k : α → Numeric β}, P m → (∀ a, P (k a)) → P (m >>= k)

namespace Closed

variable {P : {α : Type} → Numeric α → Prop}

theorem map (h : Closed P) {α β : Type} {m : Numeric α} (hm : P m) (f : α → β) : P (f <$> m) := by
  rw [map_eq_pure_bind]
  exact h.bind hm fun a => h.pure (f a)

theorem numeric (h : Closed P) {α : Type} {f : Fault} (hf : f.isNumeric = true) :
    P (MonadExcept.throw f : Numeric α) :=
  h.throw f fun deep => by
    rw [deep] at hf
    cases hf

theorem lift (h : Closed P) {α : Type} {m : Except Fault α} (hm : NumericOnly m) :
    P (liftM m : Numeric α) := by
  cases m with
  | ok a => exact h.pure a
  | error f => exact h.numeric (hm f rfl)

/-- A result that comes with a warning if the iteration was cut off. -/
theorem converged (h : Closed P) {α : Type} (a : α) (converged : Bool) (w : Warning) :
    P (do
      unless converged do Calculator.warn w
      return a : Numeric α) := by
  cases converged with
  | true => exact h.pure a
  | false => exact h.bind (h.warn w) fun _ => h.pure a

/-! ## Roots, tangents, sums -/

theorem newton (h : Closed P) (cap : Int) (x : Number) (tolerance : Value) :
    P (Root.newton cap x tolerance) := by
  unfold Root.newton
  refine h.bind (h.lift (.div x _)) fun start => ?_
  split
  · exact h.bind (h.warn _) fun _ => h.pure start
  · refine h.bind (h.lift (.toFloat x)) fun target => ?_
    refine h.bind (h.lift (.demand tolerance)) fun t => ?_
    dsimp only
    split
    · exact h.numeric rfl
    · exact h.converged _ _ _

theorem squareRoot (h : Closed P) (cap : Int) (x : Number) (tolerance : Value) :
    P (squareRoot cap x tolerance) := by
  unfold Calculator.squareRoot
  split
  · exact h.pure _
  · split
    · exact h.pure _
    · split
      · exact h.pure _
      · refine h.bind (h.newton cap x tolerance) fun root => ?_
        refine h.bind (h.lift (.truncate _)) fun whole => ?_
        exact h.bind (h.lift (.toFloat _)) fun _ => h.pure _

theorem tangentSeries (h : Closed P) (cap : Int) (x : Float) (tolerance : Value)
    (table : TangentTable Float) : P (Tangent.series cap x tolerance table).1 := by
  unfold Tangent.series
  split
  · exact h.bind (h.warn _) fun _ => h.pure _
  · cases tolerance with
    | none => exact h.numeric rfl
    | some t => exact h.converged _ _ _

theorem ofReduced (h : Closed P) (cap : Int) (angle : Float) (tolerance : Value)
    (table : TangentTable Float) : P (Tangent.ofReduced cap angle tolerance table).1 := by
  unfold Tangent.ofReduced
  split
  · exact h.tangentSeries cap _ tolerance table
  · split
    · exact h.pure _
    · refine h.bind (h.tangentSeries cap _ tolerance table) fun cotangent => ?_
      unfold Tangent.invert
      split
      · exact h.numeric rfl
      · exact h.pure _

theorem tangent (h : Closed P) (cap : Int) (x : Number) (tolerance : Value) :
    P (tangent cap x tolerance) := by
  unfold Calculator.tangent Tangent.withTable
  refine h.map ?_ _
  split
  · cases hx : x.toFloat with
    | ok y => exact h.ofReduced cap _ tolerance _
    | error f => exact h.numeric (NumericOnly.toFloat x f hx)
  · exact h.pure _

theorem sumSeries (h : Closed P) (ratio : Nat → Float) (first : Number) (tolerance : Value) :
    P (sumSeries ratio first tolerance) := by
  unfold Calculator.sumSeries
  refine h.bind (h.lift (.demand tolerance)) fun t => h.bind (h.lift (.toFloat first)) fun start => ?_
  dsimp only
  split
  · exact h.pure _
  · exact h.throw .endless Fault.noConfusion

theorem sine (h : Closed P) (x : Number) (tolerance : Value) : P (sine x tolerance) := by
  unfold Calculator.sine
  split
  · exact h.bind (h.lift (.toFloat x)) fun _ => h.sumSeries _ _ tolerance
  · exact h.pure _

theorem cosine (h : Closed P) (x : Number) (tolerance : Value) : P (cosine x tolerance) := by
  unfold Calculator.cosine
  split
  · exact h.bind (h.lift (.toFloat x)) fun _ => h.sumSeries _ _ tolerance
  · exact h.pure _

/-! ## Inverse functions -/

theorem arcsineSeries (h : Closed P) (cap : Int) (x : Number) (tolerance : Value) :
    P (Inverse.arcsineSeries cap x tolerance) := by
  unfold Inverse.arcsineSeries
  refine h.bind (h.lift (.demand tolerance)) fun t => h.bind (h.lift (.toFloat x)) fun start => ?_
  exact h.converged _ _ _

/-- The induction is on the number of folds, and without one the nesting is too deep. -/
theorem foldedArcsine (h : Closed P) (deep : P (MonadExcept.throw .tooDeep : Numeric Number))
    (cap : Int) (tolerance : Value) (folds : Nat) (x : Number) :
    P (Inverse.arcsine cap tolerance folds x) := by
  induction folds generalizing x with
  | zero => exact deep
  | succ folds ih =>
    unfold Inverse.arcsine
    split
    · exact h.pure _
    · split
      · refine h.bind (h.newton cap _ _) fun leg => h.bind (ih _) fun reduced => ?_
        split
        · exact h.lift (.combine _ _ _ _)
        · exact h.lift (.combine _ _ _ _)
      · exact h.arcsineSeries cap x tolerance

/-- The induction is on the number of rounds. -/
theorem halve (h : Closed P) (cap : Int) (rounds : Nat) (x : Number) (scale : Nat) :
    P (Inverse.halve cap rounds x scale) := by
  induction rounds generalizing x scale with
  | zero => exact h.pure _
  | succ rounds ih =>
    unfold Inverse.halve
    split
    · refine h.bind (h.newton cap _ _) fun hypotenuse => ?_
      exact h.bind (h.lift (.div _ _)) fun half => ih _ _
    · exact h.pure _

theorem arctangentWithinOne (h : Closed P) (cap : Int) (x : Number) (tolerance : Value) :
    P (Inverse.arctangentWithinOne cap x tolerance) := by
  unfold Inverse.arctangentWithinOne
  refine h.bind (h.halve cap 16 x 1) fun halved => h.bind (h.lift (.demand tolerance)) fun t => ?_
  refine h.bind (h.lift (.toFloat _)) fun start => ?_
  dsimp only
  split
  · exact h.lift (.combine _ _ _ _)
  · exact h.throw .endless Fault.noConfusion

theorem arctangent (h : Closed P) (cap : Int) (x : Number) (tolerance : Value) :
    P (arctangent cap x tolerance) := by
  unfold Calculator.arctangent
  split
  · exact h.pure _
  · split
    · refine h.bind (h.lift (.div _ _)) fun inverse => ?_
      refine h.bind (h.arctangentWithinOne cap _ tolerance) fun reduced => ?_
      exact h.lift (.combine _ _ _ _)
    · exact h.arctangentWithinOne cap x tolerance

/-! ## All functions -/

section Apply

variable {cap : Int}

theorem approximate (h : Closed P) {tolerance : Value}
    (harcsine : ∀ x, P (Calculator.arcsine cap x tolerance)) (f : Builtin) (x : Number) :
    P (f.approximate cap x tolerance) := by
  cases f with
  | abs | factorial | pow => exact h.numeric rfl
  | sqrt => exact h.squareRoot cap x tolerance
  | sin => exact h.sine x tolerance
  | cos => exact h.cosine x tolerance
  | tan => exact h.tangent cap x tolerance
  | asin => exact harcsine x
  | acos => exact h.bind (harcsine x) fun s => h.lift (.combine _ _ _ s)
  | atan => exact h.arctangent cap x tolerance

/-- What is closed holds of every function, whatever it is applied to, if it holds of the arcsine. -/
theorem apply (h : Closed P) (harcsine : ∀ x tolerance, P (Calculator.arcsine cap x tolerance))
    (f : Builtin) (arguments : List Value) (apart : Option Value) :
    P (f.apply cap arguments apart) := by
  unfold Builtin.apply
  split
  · exact h.bind (h.lift (.demand _)) fun _ => h.pure _
  · exact h.bind (h.lift (.demand _)) fun _ => h.lift (.factorial _)
  · exact h.lift (.power _ _)
  all_goals first
    | exact h.numeric rfl
    | exact h.bind (h.lift (.demand _)) fun _ => h.approximate (harcsine · _) _ _

end Apply

end Closed

end Logging

/-! ## The default registry -/

namespace Registry

theorem mem_of_find? {r : Registry} {name : String} {entry : Entry}
    (h : r.find? name = some entry) : (name, entry) ∈ r := by
  obtain ⟨before, behind, split, -⟩ := List.lookup_eq_some_iff.mp h
  rw [split]
  exact List.mem_append_right _ List.mem_cons_self

/-- The entries of the default registry: functions of one number, and the power. -/
theorem default_cases {name : String} {entry : Entry} (h : Registry.default.find? name = some entry) :
    (∃ f ∈ [Builtin.cos, .acos, .sin, .asin, .tan, .atan, .sqrt], entry = (builtin f 1).2) ∨
      entry = (builtin .pow 2).2 := by
  have member := mem_of_find? h
  have all : Registry.default =
      [Builtin.cos, .acos, .sin, .asin, .tan, .atan, .sqrt].map (builtin · 1) ++
        [builtin .pow 2] := rfl
  rw [all, List.mem_append, List.mem_map, List.mem_singleton] at member
  rcases member with ⟨f, hf, h⟩ | h
  · exact .inl ⟨f, hf, (congrArg Prod.snd h).symm⟩
  · exact .inr (congrArg Prod.snd h)

end Registry

end Calculator
