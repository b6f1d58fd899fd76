import Calculator.Proofs.Courses

/-!
# The loops of a plan

The loops that a call makes before its last one are roots, taken as exactly as the format allows,
whatever tolerance the call has. The last one is that of the function, if there is one. Both are
read off the plan, part by part (`Course.Leads`).

Results:
1. `Builtin.plan_leads`: the loops of each function.
2. `Builtin.course_eq_or_last`: only the last loop has the tolerance of the call.
-/

namespace Calculator

/-- The loop that gives the value of a function. -/
def Loop.IsOf (l : Loop) : Builtin → Prop
  | .sqrt => ∃ x target start, l = .root x target start
  | .sin => ∃ angle, l = .sine angle
  | .cos => ∃ angle, l = .cosine angle
  | .tan => ∃ angle, l = .tangent angle
  | .asin | .acos => ∃ x first, l = .arcsine x first
  | .atan => ∃ first, l = .arctangent first
  | .abs | .factorial | .pow => False

/-- The loop is a root that is taken without a tolerance. -/
def IsExactRoot (pass : Loop × Number) : Prop :=
  ∃ x target start, pass = (.root x target start, .real 0.0)

namespace Course

variable {α β : Type} {f : Builtin}

/-- All loops are exact roots. -/
def OnlyRoots (c : Course α) : Prop := ∀ pass ∈ c.passes, IsExactRoot pass

/-- Behind exact roots comes, if any, the loop of the function. -/
structure Leads (f : Builtin) (c : Course Plan) : Prop where
  roots : c.OnlyRoots
  last : ∀ l finish, c.result = .ok (.last l finish) → l.IsOf f

/-! ## Composition -/

theorem onlyRoots_pure (a : α) : (pure a : Course α).OnlyRoots := by
  rintro pass ⟨⟩

theorem onlyRoots_lift (r : Except Fault α) : (liftM r : Course α).OnlyRoots := by
  rintro pass ⟨⟩

theorem OnlyRoots.bind {c : Course α} {d : α → Course β} (h : c.OnlyRoots)
    (hd : ∀ a, (d a).OnlyRoots) : (c >>= d).OnlyRoots := by
  obtain ⟨e | a, passes⟩ := c
  · exact h
  · intro pass hpass
    rcases List.mem_append.mp hpass with first | second
    · exact h pass first
    · exact hd a pass second

theorem leads_lift {r : Except Fault Plan} (h : ∀ l finish, r = .ok (.last l finish) → l.IsOf f) :
    (liftM r : Course Plan).Leads f := ⟨onlyRoots_lift r, h⟩

theorem leads_done (x : Number) : (pure (.done x) : Course Plan).Leads f := by
  refine leads_lift (r := .ok (.done x)) ?_
  rintro l finish ⟨⟩

theorem leads_last {l : Loop} (finish : l.State → Except Fault Number) (h : l.IsOf f) :
    (pure (.last l finish) : Course Plan).Leads f := by
  refine leads_lift (r := .ok (.last l finish)) ?_
  rintro l finish ⟨⟩
  exact h

theorem OnlyRoots.leads {c : Course α} {d : α → Course Plan} (h : c.OnlyRoots)
    (hd : ∀ a, (d a).Leads f) : (c >>= d).Leads f := by
  refine ⟨h.bind fun a => (hd a).roots, ?_⟩
  obtain ⟨e | a, passes⟩ := c
  · rintro l finish ⟨⟩
  · exact (hd a).last

theorem leads_ite {p : Prop} [Decidable p] {c c' : Course Plan} (h : c.Leads f) (h' : c'.Leads f) :
    (if p then c else c').Leads f := by
  by_cases hp : p
  · rw [if_pos hp]
    exact h
  · rw [if_neg hp]
    exact h'

/-- What is made of the number of a plan makes no loop. -/
theorem Leads.andThen {c : Course Plan} (h : c.Leads f) (g : Number → Except Fault Number) :
    (c >>= Plan.andThen g).Leads f := by
  have rootless (p : Plan) : (p.andThen g).OnlyRoots := by
    cases p with
    | done x => exact (onlyRoots_lift (g x)).bind fun y => onlyRoots_pure (Plan.done y)
    | last l finish => exact onlyRoots_pure _
  refine ⟨h.roots.bind rootless, ?_⟩
  obtain ⟨e | x | ⟨l, finish⟩, passes⟩ := c
  · rintro l finish ⟨⟩
  · show ∀ l finish, (liftM (g x) >>= fun y => pure (Plan.done y) : Course Plan).result = _ → _
    rcases g x with _ | y <;> rintro l finish ⟨⟩
  · rintro _ _ ⟨⟩
    exact h.last l finish rfl

/-! ## The functions -/

variable (cap : Int) (x : Number)

theorem onlyRoots_newton : (newton cap x (.real 0.0)).OnlyRoots := by
  refine (onlyRoots_lift (rootLoop cap x)).bind fun (target, start) => ?_
  refine OnlyRoots.bind ?_ fun guess => onlyRoots_pure guess.value
  intro pass hpass
  exact ⟨x, target, start, List.mem_singleton.mp hpass⟩

theorem squareRoot_leads : (squareRoot cap x).Leads .sqrt := by
  refine leads_ite (leads_done x) (leads_ite (leads_done _) (leads_ite (leads_done _) ?_))
  exact (onlyRoots_lift (rootLoop cap x)).leads fun (target, start) =>
    leads_last _ ⟨x, target, start, rfl⟩

theorem sine_leads : (sine x).Leads .sin :=
  leads_ite ((onlyRoots_lift x.toFloat).leads fun _ => leads_last _ ⟨_, rfl⟩) (leads_done _)

theorem cosine_leads : (cosine x).Leads .cos :=
  leads_ite ((onlyRoots_lift x.toFloat).leads fun _ => leads_last _ ⟨_, rfl⟩) (leads_done _)

theorem tangent_leads : (tangent x).Leads .tan := by
  refine leads_ite ((onlyRoots_lift x.toFloat).leads fun y => ?_) (leads_done _)
  unfold ofReduced
  split
  · exact leads_last _ ⟨_, rfl⟩
  · split
    · exact leads_done _
    · exact leads_last _ ⟨_, rfl⟩

/-- The induction is on the number of folds. -/
theorem foldedArcsine_leads (own : ∀ y first, (Loop.arcsine y first).IsOf f) (folds : Nat) :
    (foldedArcsine cap folds x).Leads f := by
  induction folds generalizing x with
  | zero => exact leads_lift (r := throw .tooDeep) (by rintro l finish ⟨⟩)
  | succ folds ih =>
    unfold foldedArcsine
    refine leads_ite (leads_done _) (leads_ite ?_ ?_)
    · exact (onlyRoots_newton cap _).leads fun leg => (ih _).andThen _
    · exact (onlyRoots_lift x.toFloat).leads fun first => leads_last _ (own x first)

/-- The induction is on the number of rounds. -/
theorem onlyRoots_halve (rounds scale : Nat) : (halve cap rounds x scale).OnlyRoots := by
  induction rounds generalizing x scale with
  | zero => exact onlyRoots_pure _
  | succ rounds ih =>
    unfold halve
    split
    · refine (onlyRoots_newton cap _).bind fun hypotenuse => ?_
      exact (onlyRoots_lift _).bind fun half => ih _ _
    · exact onlyRoots_pure _

theorem arctangentWithinOne_leads : (arctangentWithinOne cap x).Leads .atan :=
  (onlyRoots_halve cap x 16 1).leads fun halved =>
    (onlyRoots_lift halved.1.toFloat).leads fun first => leads_last _ ⟨first, rfl⟩

theorem arctangent_leads : (arctangent cap x).Leads .atan := by
  refine leads_ite (leads_done _) (leads_ite ?_ (arctangentWithinOne_leads cap x))
  exact (onlyRoots_lift _).leads fun inverse => (arctangentWithinOne_leads cap _).andThen _

end Course

namespace Builtin

open Course

variable (cap : Int) (x : Number) (f : Builtin)

/-- The loops of a plan are exact roots, and the loop of the function as the last one. -/
theorem plan_leads : (f.plan cap x).Leads f := by
  cases f with
  | abs | factorial | pow => exact leads_lift (r := throw .wrongArguments) (by rintro l finish ⟨⟩)
  | sqrt => exact squareRoot_leads cap x
  | sin => exact sine_leads x
  | cos => exact cosine_leads x
  | tan => exact tangent_leads x
  | asin => exact foldedArcsine_leads (f := asin) cap x (fun y first => ⟨y, first, rfl⟩) _
  | acos => exact (foldedArcsine_leads (f := acos) cap x (fun y first => ⟨y, first, rfl⟩) _).andThen _
  | atan => exact arctangent_leads cap x

/-- A call makes exact roots that do not depend on its tolerance, and if anything depends on it, it is
one more loop, that of the function, and what is made of the state it ends in. -/
theorem course_eq_or_last :
    (∃ c : Course Number, c.OnlyRoots ∧ ∀ tolerance, f.course cap x tolerance = c) ∨
    ∃ roots, (∀ pass ∈ roots, IsExactRoot pass) ∧
      ∃ (l : Loop) (finish : l.State → Except Fault Number), l.IsOf f ∧
        ∀ tolerance, f.course cap x tolerance =
          ⟨l.outcome cap tolerance >>= finish, roots ++ [(l, tolerance)]⟩ := by
  have leads := plan_leads cap x f
  unfold course
  generalize f.plan cap x = c at leads ⊢
  obtain ⟨e | y | ⟨l, finish⟩, roots⟩ := c
  · exact .inl ⟨_, leads.roots, fun _ => rfl⟩
  · refine .inl ⟨⟨.ok y, roots⟩, leads.roots, fun _ => ?_⟩
    exact congrArg (Course.mk (.ok y)) (List.append_nil roots)
  · refine .inr ⟨roots, leads.roots, l, finish, leads.last l finish rfl, fun tolerance => ?_⟩
    rw [bind_of_ok, Plan.carryOut_last]

end Builtin

end Calculator
