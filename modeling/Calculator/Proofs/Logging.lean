import Calculator.Library.Iteration

/-!
# What a computation with warnings comes to

A computation that collects warnings is a function of the warnings given before it. Its outcome is a
value or an error, and the warnings after it. The lemmas here take it apart along `bind`, and say
what its values and errors have in common (`Ensures`), or that it has a value (`Gives`).
-/

namespace Calculator

namespace Logging

variable {ε ε' α β : Type}

/-- The result of a computation behind the given warnings, and the warnings after it. -/
def outcome (m : Logging ε α) (log : List Warning) : Except ε α × List Warning := m.run.run log

theorem ext {m m' : Logging ε α} (h : ∀ log, m.outcome log = m'.outcome log) : m = m' := by
  apply ExceptT.ext
  apply StateT.ext
  exact h

@[simp] theorem outcome_pure (a : α) (log : List Warning) :
    (pure a : Logging ε α).outcome log = (.ok a, log) := rfl

@[simp] theorem outcome_throw (e : ε) (log : List Warning) :
    (throw e : Logging ε α).outcome log = (.error e, log) := rfl

@[simp] theorem outcome_adapt (f : ε → ε') (m : Logging ε α) (log : List Warning) :
    outcome (ExceptT.adapt f m : Logging ε' α) log =
      ((m.outcome log).1.mapError f, (m.outcome log).2) := rfl

theorem outcome_bind (m : Logging ε α) (f : α → Logging ε β) (log : List Warning) :
    (m >>= f).outcome log =
      match m.outcome log with
      | (.ok a, log') => (f a).outcome log'
      | (.error e, log') => (.error e, log') := by
  unfold outcome
  rw [ExceptT.run_bind, StateT.run_bind]
  rcases (StateT.run m.run log) with ⟨_ | _, log'⟩ <;> rfl

/-- Errors can be renamed in each part. -/
theorem adapt_bind (g : ε → ε') (m : Logging ε α) (f : α → Logging ε β) :
    (ExceptT.adapt g (m >>= f) : Logging ε' β) =
      ExceptT.adapt g m >>= fun a => ExceptT.adapt g (f a) := by
  apply ext
  intro log
  rw [outcome_adapt, outcome_bind, outcome_bind, outcome_adapt]
  rcases m.outcome log with ⟨_ | _, log'⟩ <;> rfl

theorem outcome_bind_of_ok {m : Logging ε α} {f : α → Logging ε β} {log log' : List Warning} {a : α}
    (h : m.outcome log = (.ok a, log')) : (m >>= f).outcome log = (f a).outcome log' := by
  rw [outcome_bind, h]

theorem outcome_bind_of_error {m : Logging ε α} {f : α → Logging ε β} {log log' : List Warning}
    {e : ε} (h : m.outcome log = (.error e, log')) : (m >>= f).outcome log = (.error e, log') := by
  rw [outcome_bind, h]

theorem outcome_map_of_ok {m : Logging ε α} {f : α → β} {log log' : List Warning} {a : α}
    (h : m.outcome log = (.ok a, log')) : (f <$> m).outcome log = (.ok (f a), log') := by
  rw [map_eq_pure_bind, outcome_bind_of_ok h, outcome_pure]

theorem outcome_map_of_error {m : Logging ε α} {f : α → β} {log log' : List Warning} {e : ε}
    (h : m.outcome log = (.error e, log')) : (f <$> m).outcome log = (.error e, log') := by
  rw [map_eq_pure_bind, outcome_bind_of_error h]

/-- A computation that fails does so in its first part or, if that gives a value, in the rest. -/
theorem outcome_bind_eq_error {m : Logging ε α} {f : α → Logging ε β} {log log' : List Warning}
    {e : ε} (h : (m >>= f).outcome log = (.error e, log')) :
    m.outcome log = (.error e, log') ∨
      ∃ a log₁, m.outcome log = (.ok a, log₁) ∧ (f a).outcome log₁ = (.error e, log') := by
  rcases hm : m.outcome log with ⟨e₁ | a, log₁⟩
  · rw [outcome_bind_of_error hm] at h
    cases h
    exact .inl rfl
  · rw [outcome_bind_of_ok hm] at h
    exact .inr ⟨a, log₁, rfl, h⟩

/-! ## What a computation ensures -/

variable {Q Q' : α → Prop} {E E' : ε → Prop}

/-- Whatever was recorded before, a value has the property `Q` and an error the property `E`. -/
def Ensures (m : Logging ε α) (Q : α → Prop) (E : ε → Prop) : Prop :=
  ∀ log, match (m.outcome log).1 with
    | .ok a => Q a
    | .error e => E e

theorem ensures_pure {a : α} (h : Q a) : (pure a : Logging ε α).Ensures Q E := fun _ => h

theorem ensures_throw {e : ε} (h : E e) : (throw e : Logging ε α).Ensures Q E := fun _ => h

/-- The computation gives a value with this property. -/
abbrev Gives (m : Logging ε α) (Q : α → Prop) : Prop := m.Ensures Q fun _ => False

theorem Gives.exists_value {m : Logging ε α} (h : m.Gives Q) (log : List Warning) :
    ∃ a, (m.outcome log).1 = .ok a ∧ Q a := by
  have hvalue := h log
  generalize (m.outcome log).1 = r at hvalue ⊢
  cases r with
  | ok a => exact ⟨a, rfl, hvalue⟩
  | error e => exact hvalue.elim

theorem ensures_lift_of_ok {m : Except ε α} {a : α} (h : m = .ok a) (ha : Q a) :
    (liftM m : Logging ε α).Ensures Q E := by
  rw [h]
  exact ensures_pure ha

/-- A part that has a value goes over into what comes behind it. -/
theorem ensures_lift_bind {R : β → Prop} {m : Except ε α} {f : α → Logging ε β} {a : α}
    (h : m = .ok a) (hf : (f a).Ensures R E) : (liftM m >>= f : Logging ε β).Ensures R E := by
  rw [h]
  exact hf

theorem Ensures.bind {R : β → Prop} {m : Logging ε α} {f : α → Logging ε β} (h : m.Ensures Q E)
    (hf : ∀ a, Q a → (f a).Ensures R E) : (m >>= f).Ensures R E := by
  intro log
  have first := h log
  rw [outcome_bind]
  generalize m.outcome log = r at first ⊢
  rcases r with ⟨e | a, log'⟩
  · exact first
  · exact hf a first log'

theorem ensures_ite {c : Prop} [Decidable c] {m m' : Logging ε α} (h : c → m.Ensures Q E)
    (h' : ¬c → m'.Ensures Q E) : Ensures (if c then m else m') Q E := by
  by_cases hc : c
  · rw [if_pos hc]
    exact h hc
  · rw [if_neg hc]
    exact h' hc

theorem Ensures.mono {m : Logging ε α} (h : m.Ensures Q E) (hok : ∀ a, Q a → Q' a)
    (herror : ∀ e, E e → E' e) : m.Ensures Q' E' := by
  intro log
  have first := h log
  generalize m.outcome log = r at first ⊢
  rcases r with ⟨e | a, log'⟩
  · exact herror e first
  · exact hok a first

theorem Ensures.map {R : β → Prop} {m : Logging ε α} {f : α → β} (h : m.Ensures Q E)
    (hf : ∀ a, Q a → R (f a)) : (f <$> m).Ensures R E := by
  rw [map_eq_pure_bind]
  exact h.bind fun a ha => ensures_pure (hf a ha)

theorem Ensures.adapt {m : Logging ε α} {g : ε → ε'} {F : ε' → Prop} (h : m.Ensures Q E)
    (hg : ∀ e, E e → F (g e)) : Ensures (ExceptT.adapt g m : Logging ε' α) Q F := by
  intro log
  have first := h log
  rw [outcome_adapt]
  generalize m.outcome log = r at first ⊢
  rcases r with ⟨e | a, log'⟩
  · exact hg e first
  · exact first

theorem ensures_warn {E : Fault → Prop} (w : Warning) : (warn w).Ensures (fun _ => True) E :=
  fun _ => trivial

/-- A result that comes with a warning if the iteration was cut off. -/
theorem ensures_converged {E : Fault → Prop} {converged : Bool} {w : Warning} {a : α} (h : Q a) :
    Ensures (do
      unless converged do warn w
      return a : Numeric α) Q E := by
  refine ensures_ite ?_ ?_ <;> intro _
  · exact ensures_pure h
  · exact (ensures_warn w).bind fun _ _ => ensures_pure h

end Logging

end Calculator
