import Calculator.Library.Tangent
import Calculator.Proofs.Iteration
import Mathlib.Data.List.GetD

/-!
# The coefficients of the tangent

The table of coefficients grows while a series is summed that reads it, and it is kept from one call
to the next. Every table that comes about in this way is an initial part of one infinite sequence,
and a series reads from it only what the sequence says. So a table has no influence on the tangent.

Results:
1. `TangentTable.grow_eq_range`, `TangentTable.sequence_succ`: the sequence, and its recurrence.
2. `Tangent.series_uses`, `Tangent.withTable_uses`: one call, with any table of the sequence.
3. `Tangent.history_is_invisible`: all calls after any others.
-/

namespace Calculator

namespace TangentTable

section

variable {α : Type} [Add α] [Mul α] [Div α] [NatCast α]

/-! ## Growing -/

theorem grow_succ (table : TangentTable α) (n : Nat) :
    table.grow (n + 1) = table.grow n ++ [(table.grow n).next] := by
  induction n generalizing table with
  | zero => rfl
  | succ n ih => exact ih (table ++ [table.next])

theorem grow_grow (table : TangentTable α) (m n : Nat) :
    (table.grow m).grow n = table.grow (m + n) := by
  induction n with
  | zero => rfl
  | succ n ih => rw [grow_succ, ih, ← Nat.add_assoc, grow_succ]

theorem length_grow (table : TangentTable α) (n : Nat) :
    (table.grow n).length = table.length + n := by
  induction n with
  | zero => rfl
  | succ n ih => rw [grow_succ, List.length_append, ih, List.length_singleton, Nat.add_assoc]

theorem prefix_grow (table : TangentTable α) (n : Nat) : table <+: table.grow n := by
  induction n with
  | zero => exact List.prefix_rfl
  | succ n ih =>
    rw [grow_succ]
    exact ih.trans (List.prefix_append _ _)

theorem prefix_upTo (table : TangentTable α) (n : Nat) : table <+: table.upTo n :=
  prefix_grow table _

/-! ## The sequence -/

/-- The infinite sequence of which every table is an initial part. -/
def sequence (k : Nat) : α := ((initial : TangentTable α).grow k).coefficient k

/-- The table is an initial part of the sequence, and not empty. -/
def IsInitial (table : TangentTable α) : Prop := ∃ n, table = grow initial n

theorem isInitial_initial : IsInitial (initial : TangentTable α) := ⟨0, rfl⟩

theorem length_grow_initial (n : Nat) : ((initial : TangentTable α).grow n).length = n + 1 := by
  rw [length_grow, Nat.add_comm]
  rfl

theorem sequence_eq_next (k : Nat) :
    (sequence (k + 1) : α) = ((initial : TangentTable α).grow k).next := by
  unfold sequence coefficient
  rw [grow_succ, List.getD_append_right _ _ _ _ (Nat.le_of_eq (length_grow_initial k)),
    length_grow_initial, Nat.sub_self]
  rfl

/-- A table of the sequence holds its first members. -/
theorem grow_eq_range (n : Nat) :
    (initial : TangentTable α).grow n = (List.range (n + 1)).map sequence := by
  induction n with
  | zero => rfl
  | succ n ih =>
    rw [List.range_succ, List.map_append, ← ih, List.map_singleton, sequence_eq_next, grow_succ]

/-- A member of the sequence follows from all before it. -/
theorem sequence_succ (k : Nat) :
    (sequence (k + 1) : α) =
      ((List.range (k + 1)).map fun a => sequence a * sequence (k - a)).foldl (· + ·) ((0 : Nat) : α)
        / ((2 * (k + 1) + 1 : Nat) : α) := by
  -- the table backwards pairs each number with the one that makes `k` with it
  have products : List.zipWith (· * ·) ((initial : TangentTable α).grow k)
      ((initial : TangentTable α).grow k).reverse =
        (List.range (k + 1)).map fun a => sequence a * sequence (k - a) := by
    rw [grow_eq_range]
    apply List.ext_getElem
    · simp
    · intro a _ _
      simp
  rw [sequence_eq_next, next, products, length_grow_initial]

/-- Of a table of the sequence and what is asked for the longer one is left. -/
theorem upTo_grow_initial (m n : Nat) :
    ((initial : TangentTable α).grow m).upTo n = (initial : TangentTable α).grow (max m n) := by
  rw [upTo, length_grow_initial, grow_grow]
  congr 1
  omega

theorem IsInitial.upTo {table : TangentTable α} (h : table.IsInitial) (n : Nat) :
    (table.upTo n).IsInitial := by
  obtain ⟨m, rfl⟩ := h
  exact ⟨_, upTo_grow_initial m n⟩

/-- What is read from a table that was grown far enough is the sequence. -/
theorem IsInitial.coefficient_upTo {table : TangentTable α} (h : table.IsInitial) (n : Nat) :
    (table.upTo n).coefficient n = sequence n := by
  obtain ⟨m, rfl⟩ := h
  have inside : n < ((List.range (max m n + 1)).map (sequence : Nat → α)).length := by
    rw [List.length_map, List.length_range]
    omega
  rw [upTo_grow_initial, grow_eq_range, coefficient, List.getD_eq_getElem _ _ inside,
    List.getElem_map, List.getElem_range]

end

end TangentTable

/-! ## Summing with a table -/

namespace Tangent

open TangentTable

/-- The sums are the same, whatever tables of the sequence they are made with. -/
structure SameSum (s s' : TangentSum Float) : Prop where
  sum : s.sum = s'.sum
  term : s.term = s'.term
  power : s.power = s'.power
  count : s.count = s'.count
  table : s.table.IsInitial
  table' : s'.table.IsInitial

variable {table : TangentTable Float}

theorem SameSum.addTerm {s s' : TangentSum Float} (h : SameSum s s') (x : Float) :
    SameSum (addTerm x s) (addTerm x s') := by
  obtain ⟨hsum, hterm, hpower, hcount, htable, htable'⟩ := h
  have same : (s.table.upTo (s.count + 1)).coefficient (s.count + 1) =
      (s'.table.upTo (s'.count + 1)).coefficient (s'.count + 1) := by
    rw [htable.coefficient_upTo, htable'.coefficient_upTo, hcount]
  refine ⟨?_, ?_, ?_, ?_, htable.upTo _, htable'.upTo _⟩ <;> unfold Tangent.addTerm <;> dsimp only
  · rw [same, hsum, hpower]
  · rw [same, hpower]
  · rw [hpower]
  · rw [hcount]

/-- With every table of the sequence a series comes to the same sum after the same terms. -/
theorem run_same (x : Float) (tolerance : Number) (budget : Nat) (h : table.IsInitial) :
    SameSum (run x tolerance budget table).1 (run x tolerance budget .initial).1 ∧
      (run x tolerance budget table).2 = (run x tolerance budget .initial).2 := by
  unfold run
  refine stepFirst_related (fun s s' hs => hs.addTerm x) (fun s s' hs => ?_) budget
    ⟨rfl, rfl, rfl, rfl, h, isInitial_initial⟩
  rw [hs.term]

/-- The table is only ever added to. -/
theorem prefix_run (x : Float) (tolerance : Number) (budget : Nat) :
    table <+: (run x tolerance budget table).1.table := by
  unfold run
  have preserved (s : TangentSum Float) (h : table <+: s.table) :
      table <+: (Tangent.addTerm x s).table := h.trans (prefix_upTo s.table _)
  exact stepFirst_induction preserved budget List.prefix_rfl

/-! ## One call -/

/-- What a computation with a table does that is made with this table: it comes to the same as with
the table that no series was summed with, and keeps the table or adds to it. -/
structure Uses (m : TangentTable Float → Numeric Float × TangentTable Float)
    (table : TangentTable Float) : Prop where
  same : (m table).1 = (m .initial).1
  grown : table <+: (m table).2
  isInitial : (m table).2.IsInitial

theorem uses_of_const (m : Numeric Float) (h : table.IsInitial) :
    Uses (fun table => (m, table)) table := ⟨rfl, List.prefix_rfl, h⟩

theorem series_uses (cap : Int) (x : Float) (tolerance : Value) (h : table.IsInitial) :
    Uses (series cap x tolerance) table := by
  unfold series
  by_cases hcap : cap ≤ 1
  · simp only [if_pos hcap]
    exact uses_of_const _ h
  · simp only [if_neg hcap]
    cases tolerance with
    | none => exact ⟨rfl, prefix_upTo table 1, h.upTo 1⟩
    | some t =>
      obtain ⟨same, stops⟩ := run_same x t (cap - 1).toNat h
      refine ⟨?_, prefix_run x t _, same.table⟩
      dsimp only
      rw [same.sum, stops]

theorem ofReduced_uses (cap : Int) (angle : Float) (tolerance : Value) (h : table.IsInitial) :
    Uses (ofReduced cap angle tolerance) table := by
  unfold ofReduced
  by_cases hsmall : angle.abs ≤ quarterPi
  · simp only [if_pos hsmall]
    exact series_uses cap angle tolerance h
  · simp only [if_neg hsmall]
    by_cases hzero : (complement angle == 0.0) = true
    · simp only [if_pos hzero]
      exact uses_of_const _ h
    · simp only [if_neg hzero]
      obtain ⟨same, grown, isInitial⟩ := series_uses cap (complement angle) tolerance h
      exact ⟨congrArg (· >>= invert) same, grown, isInitial⟩

theorem withTable_uses (cap : Int) (x : Number) (tolerance : Value) (h : table.IsInitial) :
    Uses (withTable cap x tolerance) table := by
  unfold withTable
  by_cases hfinite : x.isFinite = true
  · simp only [if_pos hfinite]
    cases x.toFloat with
    | ok y => exact ofReduced_uses cap _ tolerance h
    | error f => exact uses_of_const _ h
  · simp only [if_neg hfinite]
    exact uses_of_const _ h

/-! ## Any number of calls -/

/-- A call of the tangent under an iteration cap. Argument and tolerance may be missing. -/
structure Call where
  cap : Int
  argument : Value
  tolerance : Value

/-- What a call comes to that is made with a table, and the table it leaves behind. -/
def Call.made (call : Call) (table : TangentTable Float) : Numeric Float × TangentTable Float :=
  match call.argument with
  | some x => withTable call.cap x call.tolerance table
  | none => (throw .missing, table)

/-- The table that calls leave behind which are made one after the other. -/
def tableAfter (history : List Call) : TangentTable Float :=
  history.foldl (fun table call => (call.made table).2) .initial

theorem Call.uses (call : Call) (h : table.IsInitial) : Uses call.made table := by
  unfold Call.made
  cases call.argument with
  | some x => exact withTable_uses call.cap x call.tolerance h
  | none => exact uses_of_const _ h

theorem tableAfter_append (history more : List Call) :
    tableAfter (history ++ more) =
      more.foldl (fun table call => (call.made table).2) (tableAfter history) := List.foldl_append ..

theorem isInitial_foldl (calls : List Call) (h : table.IsInitial) :
    (calls.foldl (fun table call => (call.made table).2) table).IsInitial := by
  induction calls generalizing table with
  | nil => exact h
  | cons call calls ih => exact ih (call.uses h).isInitial

theorem prefix_foldl (calls : List Call) (h : table.IsInitial) :
    table <+: calls.foldl (fun table call => (call.made table).2) table := by
  induction calls generalizing table with
  | nil => exact List.prefix_rfl
  | cons call calls ih => exact (call.uses h).grown.trans (ih (call.uses h).isInitial)

/-- The table of coefficients is invisible. Whatever calls were made, it is a first part of one
infinite sequence, which begins with one and follows a recurrence, and it holds at least one member.
Further calls change no member that is there. So a call comes to the same as if there had been no
other before it, with the same warnings. -/
theorem history_is_invisible :
    ∃ c : Nat → Float,
      c 0 = 1.0 ∧
      (∀ k, c (k + 1) =
        ((List.range (k + 1)).map fun a => c a * c (k - a)).foldl (· + ·) 0.0
          / Float.ofNat (2 * (k + 1) + 1)) ∧
      ∀ history : List Call,
        (∃ n, tableAfter history = (List.range (n + 1)).map c) ∧
        (∀ more, tableAfter history <+: tableAfter (history ++ more)) ∧
        (∀ call : Call, (call.made (tableAfter history)).1 = (call.made .initial).1) ∧
        ∀ cap x tolerance,
          Number.real <$> (withTable cap x tolerance (tableAfter history)).1 =
            tangent cap x tolerance := by
  have zero : ((0 : Nat) : Float) = 0.0 := rfl
  have one : (TangentTable.sequence 0 : Float) = 1.0 := rfl
  refine ⟨TangentTable.sequence, one, fun k => ?_, fun history => ?_⟩
  · rw [sequence_succ, zero]
    rfl
  have h : (tableAfter history).IsInitial := isInitial_foldl history isInitial_initial
  refine ⟨?_, fun more => ?_, fun call => (call.uses h).same, fun cap x tolerance => ?_⟩
  · obtain ⟨n, hn⟩ := h
    exact ⟨n, hn.trans (grow_eq_range n)⟩
  · rw [tableAfter_append]
    exact prefix_foldl more h
  · rw [(withTable_uses cap x tolerance h).same]
    rfl

end Tangent

end Calculator
