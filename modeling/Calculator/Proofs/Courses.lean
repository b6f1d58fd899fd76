import Calculator.Proofs.Logging
import Calculator.Proofs.Loops

/-!
# The course of a call

A call of an approximating function makes one loop after another: the roots that move the argument
to where its series converges fast, and then the loop that approximates the value. The course of a
call is the list of these loops, each with its tolerance, and the result they lead to. What was
recorded before plays no part in it. A call follows its course (`Follows`): it has that result, and
leaves the warnings of the loops, one after the other.

The tolerance of a call is that of the last loop alone. So the loops before it, the last loop, and
what is made of the state it ends in are a plan without a tolerance, which is then carried out.

Results:
1. `Follows.bind`, `Follows.andThen`, `follows_ite`: what is sequenced from computations follows
   what is sequenced from their courses.
2. `follows_reporting`, `follows_endless`, `follows_root`: the loops.
3. `Builtin.approximate_follows`: every call follows its course.
-/

namespace Calculator

/-! ## Courses -/

/-- The loops of a computation, each with its tolerance, and the result. -/
structure Course (α : Type) where
  result : Except Fault α
  passes : List (Loop × Number)

namespace Course

variable {α β : Type}

instance : Monad Course where
  pure a := ⟨.ok a, []⟩
  bind c f :=
    match c.result with
    | .ok a => ⟨(f a).result, c.passes ++ (f a).passes⟩
    | .error e => ⟨.error e, c.passes⟩

theorem bind_of_ok (a : α) (passes : List (Loop × Number)) (f : α → Course β) :
    ⟨.ok a, passes⟩ >>= f = ⟨(f a).result, passes ++ (f a).passes⟩ := rfl

instance : LawfulMonad Course :=
  LawfulMonad.mk' Course
    (fun c => by
      obtain ⟨e | a, passes⟩ := c
      · rfl
      · exact congrArg (mk (.ok a)) (List.append_nil passes))
    (fun _ _ => rfl)
    (fun c f g => by
      obtain ⟨e | a, passes⟩ := c
      · rfl
      · rw [bind_of_ok, bind_of_ok]
        rcases f a with ⟨e | b, passes'⟩
        · rfl
        · exact congrArg (mk (g b).result) (List.append_assoc passes passes' (g b).passes))

/-- A part without a loop. -/
instance : MonadLift (Except Fault) Course := ⟨fun r => ⟨r, []⟩⟩

theorem lift_bind (r : Except Fault α) (f : α → Except Fault β) :
    (liftM (r >>= f) : Course β) = liftM r >>= fun a => liftM (f a) := by
  cases r <;> rfl

variable (cap : Int)

/-- A loop. -/
def perform (l : Loop) (tolerance : Number) : Course l.State :=
  ⟨l.outcome cap tolerance, [(l, tolerance)]⟩

/-- The warnings that the loops leave. -/
def warnings (c : Course α) : List Warning :=
  c.passes.flatMap fun (l, tolerance) => l.warnings cap tolerance

end Course

/-! ## Plans -/

/-- What a call comes to but for its tolerance: a number, or a last loop with what is made of the
state it ends in. -/
inductive Plan where
  | done (x : Number)
  | last (l : Loop) (finish : l.State → Except Fault Number)

namespace Plan

/-- Makes the last loop with a tolerance. -/
def carryOut (cap : Int) (tolerance : Number) : Plan → Course Number
  | done x => pure x
  | last l finish => do finish (← Course.perform cap l tolerance)

/-- The plan for what is made of the number that another plan comes to. -/
def andThen (f : Number → Except Fault Number) : Plan → Course Plan
  | done x => return done (← f x)
  | last l finish => pure (last l fun s => finish s >>= f)

theorem carryOut_last (cap : Int) (tolerance : Number) (l : Loop)
    (finish : l.State → Except Fault Number) :
    (last l finish).carryOut cap tolerance =
      ⟨l.outcome cap tolerance >>= finish, [(l, tolerance)]⟩ := by
  show (Course.mk (l.outcome cap tolerance) [(l, tolerance)] >>= fun s => liftM (finish s)) = _
  cases l.outcome cap tolerance with
  | error e => rfl
  | ok s =>
    rw [Course.bind_of_ok]
    rfl

theorem carryOut_andThen (cap : Int) (tolerance : Number) (f : Number → Except Fault Number)
    (p : Plan) : p.andThen f >>= carryOut cap tolerance =
      p.carryOut cap tolerance >>= fun x => liftM (f x) := by
  cases p with
  | done x =>
    show (liftM (f x) >>= fun y => pure (done y)) >>= carryOut cap tolerance = liftM (f x)
    cases f x <;> rfl
  | last l finish =>
    show (Course.perform cap l tolerance >>= fun s => liftM (finish s >>= f)) =
      (Course.perform cap l tolerance >>= fun s => liftM (finish s)) >>= fun x => liftM (f x)
    simp only [Course.lift_bind, bind_assoc]

end Plan

/-! ## The functions -/

namespace Course

variable (cap : Int)

/-- The target and the start of a root. Where no step is allowed the target is not asked for. -/
def rootLoop (x : Number) : Except Fault (Float × Float) := do
  let start ← x.div (.int 2)
  if cap ≤ 0 then return (start, start)
  return (← x.toFloat, start)

/-- The unrounded square root. -/
def newton (x tolerance : Number) : Course Float := do
  let (target, start) ← rootLoop cap x
  let guess ← perform cap (.root x target start) tolerance
  return guess.value

/-- A root rounded to a whole number. -/
def wholeRoot (root : Float) : Except Fault Number := do
  let whole ← (Number.real (root + 0.5)).truncate
  return .real (← (Number.int whole).toFloat)

/-- The square root. -/
def squareRoot (x : Number) : Course Plan := do
  if x.equals (.int 0) || x.equals (.int 1) then return .done x
  if x.isNaN || x.less (.int 0) then return .done (.real nan)
  if x.equals (.real infinity) then return .done (.real infinity)
  let (target, start) ← rootLoop cap x
  return .last (.root x target start) fun guess => wholeRoot guess.value

/-- The sine. -/
def sine (x : Number) : Course Plan := do
  unless x.isFinite do return .done (.real nan)
  let angle := withinTurn (← x.toFloat)
  return .last (.sine angle) fun p => pure (seriesTotal (.real angle) p.sum p.count)

/-- The cosine. -/
def cosine (x : Number) : Course Plan := do
  unless x.isFinite do return .done (.real nan)
  let angle := withinTurn (← x.toFloat)
  return .last (.cosine angle) fun p => pure (seriesTotal (.int 1) p.sum p.count)

/-- The inverse of the tangent of the complement. -/
def invert (cotangent : Float) : Except Fault Number :=
  if cotangent == 0.0 then throw .zeroDivision else return .real (1.0 / cotangent)

/-- The tangent of an angle between minus and plus a quarter of a turn. -/
def ofReduced (angle : Float) : Plan :=
  if angle.abs ≤ quarterPi then .last (.tangent angle) fun s => pure (.real s.sum)
  else if Tangent.complement angle == 0.0 then .done (.real infinity)
  else .last (.tangent (Tangent.complement angle)) fun s => invert s.sum

/-- The tangent. -/
def tangent (x : Number) : Course Plan := do
  unless x.isFinite do return .done (.real nan)
  return ofReduced (Tangent.withinHalfTurn (← x.toFloat))

/-- The arcsine series. -/
def arcsineSeries (x : Number) : Course Plan := do
  let first ← x.toFloat
  return .last (.arcsine x first) fun p => pure (seriesTotal x p.sum p.count)

/-- The arcsine, with at most so many folds. -/
def foldedArcsine : Nat → Number → Course Plan
  | 0, _ => (throw .tooDeep : Except Fault Plan)
  | folds + 1, x => do
      if x.isNaN || x.less (.int (-1)) || (Number.int 1).less x then return .done (.real nan)
      if (Number.real rootHalf).less x.abs then
        let leg ← newton cap (Inverse.legSquare x) (.real 0.0)
        let reduced ← foldedArcsine folds (.real leg)
        reduced.andThen fun reduced =>
          if (Number.int 0).less x then (Number.real halfPi).sub reduced
          else reduced.sub (.real halfPi)
      else
        arcsineSeries x

/-- The arcsine. -/
def arcsine (x : Number) : Course Plan := foldedArcsine cap Inverse.foldLimit x

/-- The arccosine. -/
def arccosine (x : Number) : Course Plan := do
  let s ← arcsine cap x
  s.andThen (Number.real halfPi).sub

/-- Halves the angle whose tangent is `x`. -/
def halve : Nat → Number → Nat → Course (Number × Nat)
  | 0, x, scale => return (x, scale)
  | rounds + 1, x, scale => do
      if (Number.real 0.25).less x.abs then
        let hypotenuse ← newton cap (Inverse.hypotenuseSquare x) (.real 0.0)
        let half ← x.div (.real (1.0 + hypotenuse))
        halve rounds (.real half) (2 * scale)
      else
        return (x, scale)

/-- The arctangent of an argument between minus one and one. -/
def arctangentWithinOne (x : Number) : Course Plan := do
  let (x, scale) ← halve cap 16 x 1
  let first ← x.toFloat
  return .last (.arctangent first) fun p => (Number.int scale).mul (seriesTotal x p.sum p.count)

/-- The arctangent. -/
def arctangent (x : Number) : Course Plan := do
  if x.isNaN then return .done (.real nan)
  if (Number.int 1).less x || x.less (.int (-1)) then
    let inverse ← (Number.int 1).div x
    let reduced ← arctangentWithinOne cap (.real inverse)
    reduced.andThen (Inverse.quarterTurn x).sub
  else
    arctangentWithinOne cap x

end Course

/-- What a call of an approximating function comes to but for its tolerance. -/
def Builtin.plan (cap : Int) (x : Number) : Builtin → Course Plan
  | sqrt => Course.squareRoot cap x
  | sin => Course.sine x
  | cos => Course.cosine x
  | tan => Course.tangent x
  | asin => Course.arcsine cap x
  | acos => Course.arccosine cap x
  | atan => Course.arctangent cap x
  | _ => (throw .wrongArguments : Except Fault Plan)

/-- The course of a call of an approximating function. -/
def Builtin.course (cap : Int) (x tolerance : Number) (f : Builtin) : Course Number := do
  (← f.plan cap x).carryOut cap tolerance

/-! ## Computations and their courses -/

namespace Logging

variable {α β : Type} {cap : Int}

/-- Behind whatever was recorded the computation has the result of the course, and it leaves the
warnings of its loops. -/
def Follows (cap : Int) (m : Numeric α) (c : Course α) : Prop :=
  ∀ log, m.outcome log = (c.result, log ++ c.warnings cap)

theorem follows_pure (a : α) : Follows cap (pure a) (pure a) := by
  intro log
  rw [outcome_pure]
  exact congrArg (Prod.mk (Except.ok a)) (List.append_nil log).symm

theorem follows_lift (r : Except Fault α) : Follows cap (liftM r) (liftM r) := by
  intro log
  cases r <;> exact congrArg (Prod.mk _) (List.append_nil log).symm

theorem Follows.bind {m : Numeric α} {c : Course α} {f : α → Numeric β} {d : α → Course β}
    (h : Follows cap m c) (hf : ∀ a, Follows cap (f a) (d a)) : Follows cap (m >>= f) (c >>= d) := by
  intro log
  rw [outcome_bind, h log]
  obtain ⟨e | a, passes⟩ := c
  · rfl
  · show (f a).outcome _ = _
    rw [hf a, Course.bind_of_ok, Course.warnings, Course.warnings, Course.warnings, List.flatMap_append,
      List.append_assoc]

theorem Follows.map {m : Numeric α} {c : Course α} (h : Follows cap m c) (f : α → β) :
    Follows cap (f <$> m) (f <$> c) := by
  rw [map_eq_pure_bind, map_eq_pure_bind]
  exact h.bind fun a => follows_pure (f a)

/-- What comes behind a choice in the course comes behind what is chosen. -/
theorem follows_ite {p : Prop} [Decidable p] {m m' : Numeric β} {c c' : Course α} {d : α → Course β}
    (h : p → Follows cap m (c >>= d)) (h' : ¬p → Follows cap m' (c' >>= d)) :
    Follows cap (if p then m else m') ((if p then c else c') >>= d) := by
  by_cases hp : p
  · rw [if_pos hp, if_pos hp]
    exact h hp
  · rw [if_neg hp, if_neg hp]
    exact h' hp

/-- What is made of the number of a plan comes behind the plan. -/
theorem Follows.andThen {tolerance : Number} {m : Numeric Number} {c : Course Plan}
    {g : Number → Numeric Number} {f : Number → Except Fault Number}
    (h : Follows cap m (c >>= Plan.carryOut cap tolerance))
    (hg : ∀ x, Follows cap (g x) (liftM (f x))) :
    Follows cap (m >>= g) ((c >>= Plan.andThen f) >>= Plan.carryOut cap tolerance) := by
  rw [bind_assoc]
  simp only [Plan.carryOut_andThen]
  rw [← bind_assoc]
  exact h.bind hg

/-! ## Loops -/

section Loops

variable (cap : Int) (l : Loop) (tolerance : Number) {f : l.State → Numeric β}
  {d : l.State → Course β}

/-- What comes behind a loop comes behind its warnings, unless the loop fails. -/
theorem outcome_perform_bind (log : List Warning) :
    ((Course.perform cap l tolerance >>= d).result,
        log ++ (Course.perform cap l tolerance >>= d).warnings cap) =
      match l.failure? tolerance (l.run cap tolerance) with
      | some e => (.error e, log ++ l.warnings cap tolerance)
      | none => ((d (l.run cap tolerance).1).result,
          (log ++ l.warnings cap tolerance) ++ (d (l.run cap tolerance).1).warnings cap) := by
  unfold Course.perform Loop.outcome
  cases l.failure? tolerance (l.run cap tolerance) with
  | some e => exact congrArg (Prod.mk _) (congrArg (log ++ ·) (List.append_nil _))
  | none => exact congrArg (Prod.mk _) (List.append_assoc log _ _).symm

/-- A loop that reports and does not fail. -/
theorem follows_reporting {routine : Routine} {x : Number} (report : l.report? = some (routine, x))
    (goesOn : ∀ r, l.failure? tolerance r = none) (hf : ∀ s, Follows cap (f s) (d s)) :
    Follows cap (do
      unless (l.run cap tolerance).2 do warn ⟨routine, x, cap⟩
      f (l.run cap tolerance).1) (Course.perform cap l tolerance >>= d) := by
  intro log
  rw [outcome_perform_bind, goesOn, ← hf]
  unfold Loop.warnings
  rw [report]
  cases (l.run cap tolerance).2 with
  | true => exact congrArg (outcome _) (List.append_nil log).symm
  | false => rfl

/-- A loop that does not report and fails if it is cut off. -/
theorem follows_endless (report : l.report? = none)
    (fails : ∀ r, l.failure? tolerance r = if r.2 then none else some .endless)
    (hf : ∀ s, Follows cap (f s) (d s)) :
    Follows cap (do
      unless (l.run cap tolerance).2 do throw .endless
      f (l.run cap tolerance).1) (Course.perform cap l tolerance >>= d) := by
  intro log
  rw [outcome_perform_bind, fails, ← hf]
  unfold Loop.warnings
  rw [report]
  cases (l.run cap tolerance).2 with
  | true => exact congrArg (outcome _) (List.append_nil log).symm
  | false => exact congrArg (Prod.mk _) (List.append_nil log).symm

/-- A root. -/
theorem follows_root (x : Number) (target start : Float) {f : Root.Guess → Numeric β}
    {d : Root.Guess → Course β} (hf : ∀ guess, Follows cap (f guess) (d guess)) :
    Follows cap (do
      let (guess, converged) := Root.run cap.toNat target tolerance start
      if converged && Root.stuck target tolerance guess then throw .zeroDivision
      unless converged do warn ⟨.root, x, cap⟩
      f guess) (Course.perform cap (.root x target start) tolerance >>= d) := by
  intro log
  have hfailure (r : Root.Guess × Bool) : (Loop.root x target start).failure? tolerance r =
    if r.2 && Root.stuck target tolerance r.1 then some .zeroDivision else none := rfl
  rw [outcome_perform_bind, hfailure, ← hf]
  unfold Loop.warnings
  rw [Loop.run_root]
  rcases Root.run cap.toNat target tolerance start with ⟨guess, _ | _⟩
  · rfl
  · dsimp only [Bool.true_and]
    cases Root.stuck target tolerance guess with
    | true => exact congrArg (Prod.mk _) (List.append_nil log).symm
    | false => exact congrArg (outcome _) (List.append_nil log).symm

end Loops

/-! ## The functions -/

section Functions

variable (cap : Int) (x tolerance : Number)

theorem follows_newton :
    Follows cap (Root.newton cap x (some tolerance)) (Course.newton cap x tolerance) := by
  have hroot (target start : Float) :=
    follows_root cap tolerance x target start fun guess => follows_pure guess.value
  unfold Root.newton Course.newton Course.rootLoop
  rw [Course.lift_bind, bind_assoc]
  refine (follows_lift (x.div (.int 2))).bind fun start => ?_
  by_cases stepless : cap ≤ 0
  · rw [if_pos stepless, if_pos stepless]
    have h := hroot start start
    rw [Int.toNat_of_nonpos stepless] at h
    exact h
  · rw [if_neg stepless, if_neg stepless, Course.lift_bind, bind_assoc]
    exact (follows_lift x.toFloat).bind fun target => hroot target start

theorem follows_wholeRoot (root : Float) :
    Follows cap (do
      let whole ← (Number.real (root + 0.5)).truncate
      return .real (← (Number.int whole).toFloat)) (liftM (Course.wholeRoot root)) := by
  unfold Course.wholeRoot
  rw [Course.lift_bind]
  refine (follows_lift _).bind fun whole => ?_
  rw [Course.lift_bind]
  exact (follows_lift _).bind fun y => follows_pure (Number.real y)

theorem follows_squareRoot :
    Follows cap (squareRoot cap x (some tolerance))
      (Course.squareRoot cap x >>= Plan.carryOut cap tolerance) := by
  unfold squareRoot Course.squareRoot
  refine follows_ite (fun _ => follows_pure x) fun _ => ?_
  refine follows_ite (fun _ => follows_pure (Number.real nan)) fun _ => ?_
  refine follows_ite (fun _ => follows_pure (Number.real infinity)) fun _ => ?_
  have h := (follows_newton cap x tolerance).bind (follows_wholeRoot cap)
  unfold Course.newton at h
  simp only [bind_assoc, pure_bind] at h ⊢
  exact h

theorem follows_sine :
    Follows cap (sine x (some tolerance)) (Course.sine x >>= Plan.carryOut cap tolerance) := by
  unfold sine Course.sine
  refine follows_ite (fun _ => ?_) fun _ => follows_pure (Number.real nan)
  rw [bind_assoc]
  refine (follows_lift x.toFloat).bind fun y => ?_
  have h := follows_endless cap (.sine (withinTurn y)) tolerance rfl (fun _ => rfl) fun p =>
    follows_pure (seriesTotal (.real (withinTurn y)) p.sum p.count)
  rw [Loop.run_sine] at h
  exact h

theorem follows_cosine :
    Follows cap (cosine x (some tolerance)) (Course.cosine x >>= Plan.carryOut cap tolerance) := by
  unfold cosine Course.cosine
  refine follows_ite (fun _ => ?_) fun _ => follows_pure (Number.real nan)
  rw [bind_assoc]
  refine (follows_lift x.toFloat).bind fun y => ?_
  have h := follows_endless cap (.cosine (withinTurn y)) tolerance rfl (fun _ => rfl) fun p =>
    follows_pure (seriesTotal (.int 1) p.sum p.count)
  rw [Loop.run_cosine] at h
  exact h

theorem follows_tangentSum (angle : Float) :
    Follows cap (Tangent.series cap angle (some tolerance) .initial).1
      (Course.perform cap (.tangent angle) tolerance >>= fun s => pure s.sum) := by
  have h := follows_reporting cap (.tangent angle) tolerance rfl (fun _ => rfl) fun s =>
    follows_pure s.sum
  rw [Loop.run_tangent] at h
  unfold Tangent.series
  by_cases few : cap ≤ 1
  · rw [if_pos few]
    rw [Int.toNat_of_nonpos (by omega)] at h
    exact h
  · rw [if_neg few]
    exact h

theorem follows_invert (cotangent : Float) :
    Follows cap (Number.real <$> Tangent.invert cotangent) (liftM (Course.invert cotangent)) := by
  unfold Tangent.invert Course.invert
  by_cases zero : (cotangent == 0.0) = true
  · rw [if_pos zero, if_pos zero]
    exact follows_lift (throw .zeroDivision)
  · rw [if_neg zero, if_neg zero]
    exact follows_pure (Number.real (1.0 / cotangent))

theorem follows_ofReduced (angle : Float) :
    Follows cap (Number.real <$> (Tangent.ofReduced cap angle (some tolerance) .initial).1)
      ((Course.ofReduced angle).carryOut cap tolerance) := by
  unfold Tangent.ofReduced Course.ofReduced
  by_cases small : angle.abs ≤ quarterPi
  · rw [if_pos small, if_pos small]
    have h := (follows_tangentSum cap tolerance angle).map Number.real
    rw [map_bind] at h
    exact h
  · rw [if_neg small, if_neg small]
    by_cases zero : (Tangent.complement angle == 0.0) = true
    · rw [if_pos zero, if_pos zero]
      exact follows_pure (Number.real infinity)
    · rw [if_neg zero, if_neg zero]
      have h := (follows_tangentSum cap tolerance (Tangent.complement angle)).bind
        (follows_invert cap)
      rw [bind_assoc] at h
      show Follows cap (Number.real <$> (_ >>= Tangent.invert)) _
      rw [map_bind]
      exact h

theorem follows_tangent :
    Follows cap (tangent cap x (some tolerance))
      (Course.tangent x >>= Plan.carryOut cap tolerance) := by
  unfold tangent Tangent.withTable Course.tangent
  by_cases finite : x.isFinite = true
  · rw [if_pos finite, if_pos finite]
    cases x.toFloat with
    | error f => exact follows_lift (throw f)
    | ok y => exact follows_ofReduced cap tolerance (Tangent.withinHalfTurn y)
  · rw [if_neg finite, if_neg finite]
    exact follows_pure (Number.real nan)

theorem follows_arcsineSeries :
    Follows cap (Inverse.arcsineSeries cap x (some tolerance))
      (Course.arcsineSeries x >>= Plan.carryOut cap tolerance) := by
  unfold Inverse.arcsineSeries Course.arcsineSeries
  rw [bind_assoc]
  refine (follows_lift x.toFloat).bind fun first => ?_
  have h := follows_reporting cap (.arcsine x first) tolerance rfl (fun _ => rfl) fun p =>
    follows_pure (seriesTotal x p.sum p.count)
  rw [Loop.run_arcsine] at h
  exact h

/-- The induction is on the number of folds. -/
theorem follows_foldedArcsine (folds : Nat) :
    Follows cap (Inverse.arcsine cap (some tolerance) folds x)
      (Course.foldedArcsine cap folds x >>= Plan.carryOut cap tolerance) := by
  induction folds generalizing x with
  | zero => exact follows_lift (throw .tooDeep)
  | succ folds ih =>
    unfold Inverse.arcsine Course.foldedArcsine
    refine follows_ite (fun _ => follows_pure (Number.real nan)) fun _ => ?_
    refine follows_ite (fun _ => ?_) fun _ => follows_arcsineSeries cap x tolerance
    rw [bind_assoc]
    refine (follows_newton cap _ _).bind fun leg => (ih _).andThen fun reduced => ?_
    by_cases positive : (Number.int 0).less x = true
    · rw [if_pos positive, if_pos positive]
      exact follows_lift _
    · rw [if_neg positive, if_neg positive]
      exact follows_lift _

theorem follows_arcsine :
    Follows cap (arcsine cap x (some tolerance))
      (Course.arcsine cap x >>= Plan.carryOut cap tolerance) :=
  follows_foldedArcsine cap x tolerance Inverse.foldLimit

theorem follows_arccosine :
    Follows cap (arccosine cap x (some tolerance))
      (Course.arccosine cap x >>= Plan.carryOut cap tolerance) := by
  unfold arccosine Course.arccosine
  exact (follows_arcsine cap x tolerance).andThen fun s => follows_lift _

/-- The induction is on the number of rounds. -/
theorem follows_halve (rounds scale : Nat) :
    Follows cap (Inverse.halve cap rounds x scale) (Course.halve cap rounds x scale) := by
  induction rounds generalizing x scale with
  | zero => exact follows_pure (x, scale)
  | succ rounds ih =>
    unfold Inverse.halve Course.halve
    by_cases large : (Number.real 0.25).less x.abs = true
    · rw [if_pos large, if_pos large]
      refine (follows_newton cap _ _).bind fun hypotenuse => ?_
      exact (follows_lift _).bind fun half => ih _ _
    · rw [if_neg large, if_neg large]
      exact follows_pure (x, scale)

theorem follows_arctangentWithinOne :
    Follows cap (Inverse.arctangentWithinOne cap x (some tolerance))
      (Course.arctangentWithinOne cap x >>= Plan.carryOut cap tolerance) := by
  unfold Inverse.arctangentWithinOne Course.arctangentWithinOne
  simp only [bind_assoc]
  refine (follows_halve cap x 16 1).bind fun (x, scale) => ?_
  dsimp only
  refine (follows_lift x.toFloat).bind fun first => ?_
  have h := follows_endless cap (.arctangent first) tolerance rfl (fun _ => rfl) fun p =>
    follows_lift ((Number.int scale).mul (seriesTotal x p.sum p.count))
  rw [Loop.run_arctangent] at h
  exact h

theorem follows_arctangent :
    Follows cap (arctangent cap x (some tolerance))
      (Course.arctangent cap x >>= Plan.carryOut cap tolerance) := by
  unfold arctangent Course.arctangent
  refine follows_ite (fun _ => follows_pure (Number.real nan)) fun _ => ?_
  refine follows_ite (fun _ => ?_) fun _ => follows_arctangentWithinOne cap x tolerance
  rw [bind_assoc]
  refine (follows_lift _).bind fun inverse => ?_
  exact (follows_arctangentWithinOne cap _ tolerance).andThen fun reduced => follows_lift _

end Functions

end Logging

open Logging

/-- Every call of an approximating function follows its course. -/
theorem Builtin.approximate_follows (cap : Int) (x tolerance : Number) (f : Builtin) :
    Follows cap (f.approximate cap x (some tolerance)) (f.course cap x tolerance) := by
  cases f with
  | abs | factorial | pow => exact follows_lift (throw .wrongArguments)
  | sqrt => exact follows_squareRoot cap x tolerance
  | sin => exact follows_sine cap x tolerance
  | cos => exact follows_cosine cap x tolerance
  | tan => exact follows_tangent cap x tolerance
  | asin => exact follows_arcsine cap x tolerance
  | acos => exact follows_arccosine cap x tolerance
  | atan => exact follows_arctangent cap x tolerance

end Calculator
