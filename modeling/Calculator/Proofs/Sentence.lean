import Calculator.Proofs.FirstError

/-!
# Which tokens are read as a tree

Reading is sound and complete for the grammar. What it gives is the tree of the only derivation of
the tokens before the first end of the input, and there is no other condition than that brackets are
not nested too deeply.

Results:
1. `ofTokensWithin_eq_ok_iff`: the tokens that are read, and the tree.
2. `ofTokensWithin_cut`: what stands behind the end of the input has no influence.
3. `ofTokens_reads_sentences`: both, with the derivation being unique.
-/

namespace Calculator

namespace Grammar

open Parsing Position

/-- The tokens before the first end of the input. -/
def beforeEnd (tokens : List Token) : List Token :=
  tokens.takeWhile fun t => t.kind ≠ .endOfInput

variable {limit : Nat} {tokens ts : List Token} {last : Token} {behind : List Token} {tree : Tree}

theorem beforeEnd_append (inside : ∀ t ∈ ts, t.kind ≠ .endOfInput) (hend : last.kind = .endOfInput) :
    beforeEnd (ts ++ last :: behind) = ts := by
  unfold beforeEnd
  rw [List.takeWhile_append_of_pos (fun t ht => decide_eq_true (inside t ht)),
    List.takeWhile_cons_of_neg (by simp [hend]), List.append_nil]

theorem beforeEnd_cut (hend : last.kind = .endOfInput) (behind behind' : List Token) :
    beforeEnd (ts ++ last :: behind) = beforeEnd (ts ++ last :: behind') := by
  unfold beforeEnd
  induction ts with
  | nil => simp [hend]
  | cons t ts ih =>
    rw [List.cons_append, List.cons_append, List.takeWhile_cons, List.takeWhile_cons, ih]

/-- At an end of the input the tokens split. -/
theorem exists_split (h : ∃ e ∈ tokens, e.kind = .endOfInput) :
    ∃ last behind, last.kind = .endOfInput ∧ tokens = beforeEnd tokens ++ last :: behind := by
  induction tokens with
  | nil => simp at h
  | cons t ts ih =>
    by_cases ht : t.kind = .endOfInput
    · refine ⟨t, ts, ht, ?_⟩
      rw [beforeEnd, List.takeWhile_cons_of_neg (by simp [ht])]
      rfl
    · obtain ⟨e, he, hend⟩ := h
      rcases List.mem_cons.mp he with rfl | he
      · exact absurd hend ht
      · obtain ⟨last, behind, hlast, hsplit⟩ := ih ⟨e, he, hend⟩
        refine ⟨last, behind, hlast, ?_⟩
        rw [beforeEnd, List.takeWhile_cons_of_pos (by simp [ht]), List.cons_append]
        exact congrArg (t :: ·) hsplit

/-- What is read is an expression before an end of the input. -/
theorem exists_derivation_of_ok (h : Tree.ofTokensWithin limit tokens = .ok tree) :
    ∃ (d : Derivation .expression) (last : Token) (behind : List Token),
      tokens = d.tokens ++ last :: behind ∧ last.kind = .endOfInput ∧ d.tree = tree ∧
        NestsWithin limit d.tokens := by
  obtain ⟨c, c', rfl, verdict⟩ := exists_verdict h nofun
  cases verdict with
  | @sentence d c' moved ends =>
    refine ⟨d, _, _, moved.ahead, ends, rfl, ?_⟩
    exact nestsWithin_of_staysWithin moved.reached moved.within (Nat.zero_le _)

/-- An expression before an end of the input is read. -/
theorem ofTokensWithin_derivation (d : Derivation .expression) (hend : last.kind = .endOfInput)
    (shallow : NestsWithin limit d.tokens) :
    Tree.ofTokensWithin limit (d.tokens ++ last :: behind) = .ok d.tree := by
  have smooth : firstError limit start (d.tokens ++ last :: behind) = none := by
    rw [firstError_append d.after_start shallow.staysWithin]
    exact firstError_end hend
  cases hresult : Tree.ofTokensWithin limit (d.tokens ++ last :: behind) with
  | error e =>
    rw [ofTokensWithin_eq_error_iff, smooth] at hresult
    cases hresult
  | ok tree =>
    -- some derivation was read, and there is no other than `d`
    obtain ⟨d', last', behind', split, hend', rfl, -⟩ := exists_derivation_of_ok hresult
    have same : d.tokens = d'.tokens := by
      rw [← beforeEnd_append (begins_tokens d').kind_ne_endOfInput hend', ← split,
        beforeEnd_append (begins_tokens d).kind_ne_endOfInput hend]
    rw [Derivation.unambiguous same]

/-- The tokens that are read, and the tree. -/
theorem ofTokensWithin_eq_ok_iff :
    Tree.ofTokensWithin limit tokens = .ok tree ↔
      (∃ e ∈ tokens, e.kind = .endOfInput) ∧ NestsWithin limit (beforeEnd tokens) ∧
        Reads .expression (beforeEnd tokens) tree := by
  constructor
  · intro h
    obtain ⟨d, last, behind, rfl, hend, rfl, shallow⟩ := exists_derivation_of_ok h
    rw [beforeEnd_append (begins_tokens d).kind_ne_endOfInput hend]
    exact ⟨⟨last, by simp, hend⟩, shallow, d, rfl, rfl⟩
  · rintro ⟨hend, shallow, d, hd, rfl⟩
    obtain ⟨last, behind, hlast, hsplit⟩ := exists_split hend
    rw [← hd] at shallow hsplit
    rw [hsplit]
    exact ofTokensWithin_derivation d hlast shallow

/-- What stands behind the end of the input has no influence, also not on an error. -/
theorem ofTokensWithin_cut (hend : last.kind = .endOfInput) (behind behind' : List Token) :
    Tree.ofTokensWithin limit (ts ++ last :: behind) =
      Tree.ofTokensWithin limit (ts ++ last :: behind') := by
  cases hresult : Tree.ofTokensWithin limit (ts ++ last :: behind') with
  | error e =>
    rw [ofTokensWithin_eq_error_iff] at hresult ⊢
    rw [firstError_cut hend behind behind', hresult]
  | ok tree =>
    rw [ofTokensWithin_eq_ok_iff] at hresult ⊢
    rw [beforeEnd_cut hend behind behind']
    exact ⟨⟨last, by simp, hend⟩, hresult.2⟩

/-- Tokens are read as a tree if and only if they hold an end of the input and those before the
first one are a sentence of the grammar, with brackets nested within the limit. The sentence has one
derivation, and the tree is the tree of that. The tokens behind the first end of the input have no
influence on the result. -/
theorem ofTokens_reads_sentences (tokens : List Token) :
    (∀ tree, Tree.ofTokens tokens = .ok tree ↔
      (∃ e ∈ tokens, e.kind = .endOfInput) ∧ NestsWithin depthLimit (beforeEnd tokens) ∧
        ∃ d : Derivation .expression, d.tokens = beforeEnd tokens ∧ d.tree = tree ∧
          ∀ d' : Derivation .expression, d'.tokens = beforeEnd tokens → d' = d) ∧
    (∀ before last behind behind', tokens = before ++ last :: behind → last.kind = .endOfInput →
      Tree.ofTokens (before ++ last :: behind') = Tree.ofTokens tokens) := by
  refine ⟨fun tree => ofTokensWithin_eq_ok_iff.trans ?_, ?_⟩
  · refine and_congr_right fun _ => and_congr_right fun _ => ⟨?_, ?_⟩
    · rintro ⟨d, hd, htree⟩
      exact ⟨d, hd, htree, fun d' hd' => Derivation.unambiguous (hd'.trans hd.symm)⟩
    · rintro ⟨d, hd, htree, -⟩
      exact ⟨d, hd, htree⟩
  · rintro before last behind behind' rfl hend
    exact ofTokensWithin_cut hend behind' behind

end Grammar

end Calculator
