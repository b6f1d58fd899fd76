import Calculator.Proofs.Outcome
import Calculator.Proofs.Writing

/-!
# The fewest brackets

A tree needs a parenthesis for every call, and one for every operation that stands where the grammar
has no room for its level. A text that is read as the tree has at least as many, and a formula is
written with no more.

Results:
1. `Derivation.parentheses_le`: a phrase has the parentheses that its tree needs.
2. `Formula.openings_tokens`: a formula is written with no others.
3. `Formula.written_is_read`: a written formula is read as its tree, and no text with fewer
   parentheses is.
-/

namespace Calculator

open Grammar

/-! ## Counting -/

namespace Grammar

/-- A phrase of this sort may be an operation of the level without brackets around it. -/
def Phrase.admits : Phrase → Level → Bool
  | .factor, _ => false
  | .chain .product, level => level = .product
  | .chain .sum, _ => true

end Grammar

/-- The number of opening parentheses that a tree needs as a phrase of a given sort. -/
def Tree.parentheses : Tree → Phrase → Nat
  | .number _, _ => 0
  | .call _ argument, _ => argument.parentheses .expression + 1
  | .pair left name right, p =>
      match Operator.ofName? name with
      | some op =>
          left.parentheses (.chain op.level) + right.parentheses op.level.operand +
            if p.admits op.level then 0 else 1
      | none => left.parentheses .expression + right.parentheses .expression + 1
  | .foreign, _ => 0

namespace Operator

@[simp] theorem ofName?_symbol (op : Operator) : ofName? op.symbol = some op := by
  cases op <;> rfl

theorem ofName?_of_isFunctionName {name : String} (h : isFunctionName name = true) :
    ofName? name = none := by
  have all : ∀ name ∈ functionNames, ofName? name = none := by decide +kernel
  exact all name (List.contains_iff_mem.mp h)

end Operator

/-! ## A phrase has the parentheses that its tree needs -/

namespace Tree

theorem parentheses_operation {left right : Tree} {name : String} {op : Operator}
    (h : Operator.ofName? name = some op) (p : Phrase) :
    (pair left name right).parentheses p =
      left.parentheses (.chain op.level) + right.parentheses op.level.operand +
        if p.admits op.level then 0 else 1 := by
  rw [parentheses, h]

theorem parentheses_callPair {left right : Tree} {name : String}
    (h : Operator.ofName? name = none) (p : Phrase) :
    (pair left name right).parentheses p =
      left.parentheses .expression + right.parentheses .expression + 1 := by
  rw [parentheses, h]

/-- Brackets around an expression make a factor of it. -/
theorem parentheses_factor_le (t : Tree) :
    t.parentheses .factor ≤ t.parentheses .expression + 1 := by
  cases t with
  | pair left name right =>
    unfold parentheses
    split
    · simp [Phrase.admits]
    · exact Nat.le_succ _
  | number | call | foreign => exact Nat.le_succ _

/-- An operand is a chain without further brackets. -/
theorem parentheses_chain_le (t : Tree) (level : Level) :
    t.parentheses (.chain level) ≤ t.parentheses level.operand := by
  cases t with
  | pair left name right =>
    unfold parentheses
    split
    · next op _ =>
      refine Nat.add_le_add_left ?_ _
      cases level <;> cases op.level <;> decide
    · exact Nat.le_refl _
  | number | call | foreign => exact Nat.le_refl _

end Tree

/-- What is known of the names among the tokens of a text. -/
structure Token.IsNamed (t : Token) : Prop where
  function : t.kind = .function → Operator.ofName? t.text = none
  link : ∀ level : Level, level.isLink t.kind = true →
    ∃ op, Operator.ofName? t.text = some op ∧ op.level = level

namespace Token

/-- A symbol that joins operands is the name of an operator of that level. -/
theorem operator_of_symbol {c : Char} {kind : TokenKind} {level : Level}
    (symbol : symbolKind? c = some kind) (h : level.isLink kind = true) :
    ∃ op, Operator.ofName? (String.ofList [c]) = some op ∧ op.level = level := by
  unfold symbolKind? at symbol
  split at symbol <;> cases symbol <;> cases level <;> first | exact ⟨_, rfl, rfl⟩ | cases h

/-- A word that is no symbol joins nothing. -/
theorem isLink_ofWord (fragment : String) (level : Level) :
    level.isLink (ofFragment.ofWord fragment).kind = false := by
  unfold ofFragment.ofWord
  split
  · cases level <;> rfl
  · split <;> cases level <;> rfl

theorem operator_ofFragment {fragment : String} {level : Level}
    (h : level.isLink (ofFragment fragment).kind = true) :
    ∃ op, Operator.ofName? (ofFragment fragment).text = some op ∧ op.level = level := by
  rw [text_ofFragment]
  unfold ofFragment at h
  split at h
  · next c single =>
    cases hkind : symbolKind? c with
    | some kind =>
      rw [hkind] at h
      rw [← String.ofList_toList (s := fragment), single]
      exact operator_of_symbol hkind h
    | none =>
      rw [hkind] at h
      simp [isLink_ofWord] at h
  · simp [isLink_ofWord] at h

theorem isNamed_of_mem {text : String} {t : Token} (h : t ∈ ofText text) : t.IsNamed where
  function hkind := Operator.ofName?_of_isFunctionName ((isFromText_of_mem h).function hkind)
  link level hlink := by
    rcases List.mem_append.mp h with h | h
    · obtain ⟨fragment, -, rfl⟩ := List.mem_map.mp h
      exact operator_ofFragment hlink
    · rw [List.mem_singleton.mp h] at hlink
      cases level <;> cases hlink

end Token

namespace Grammar

mutual

/-- A phrase has the parentheses that its tree needs. -/
theorem Derivation.parentheses_le {p : Phrase} :
    ∀ d : Derivation p, (∀ t ∈ d.tokens, t.IsNamed) → d.tree.parentheses p ≤ openings d.tokens
  | .number t _, _ => Nat.zero_le _
  | .group opening inner closing isOpening isClosing, h => by
    have hinner := inner.parentheses_le fun t ht =>
      h t (List.mem_cons_of_mem _ (List.mem_append_left _ ht))
    have hgroup := inner.tree.parentheses_factor_le
    simp only [Derivation.tokens, Derivation.tree, openings_cons, openings_append, if_pos isOpening]
    omega
  | .call name opening argument closing _ isOpening _, h => by
    have hargument := argument.parentheses_le fun t ht =>
      h t (List.mem_cons_of_mem _ (List.mem_cons_of_mem _ (List.mem_append_left _ ht)))
    simp only [Derivation.tokens, Derivation.tree, Tree.parentheses, openings_cons, openings_append,
      if_pos isOpening]
    omega
  | .callPair name opening first comma second closing isName isOpening _ _, h => by
    have hfirst := first.parentheses_le fun t ht =>
      h t (List.mem_cons_of_mem _ (List.mem_cons_of_mem _ (List.mem_append_left _ ht)))
    have hsecond := second.parentheses_le fun t ht =>
      h t (List.mem_cons_of_mem _ (List.mem_cons_of_mem _ (List.mem_append_right _
        (List.mem_cons_of_mem _ (List.mem_append_left _ ht)))))
    have hname := (h name List.mem_cons_self).function isName
    rw [Derivation.tree, Tree.parentheses_callPair hname]
    simp only [Derivation.tokens, openings_cons, openings_append, if_pos isOpening]
    omega
  | @Derivation.chain level first more, h => by
    have hfirst := first.parentheses_le fun t ht => h t (List.mem_append_left _ ht)
    have hchain := first.tree.parentheses_chain_le level
    have hmore := more.parentheses_le (fun t ht => h t (List.mem_append_right _ ht)) first.tree
    rw [Derivation.tokens, Derivation.tree, openings_append]
    omega

/-- Each link of a chain adds the parentheses that its operand needs. -/
theorem Links.parentheses_le {level : Level} :
    ∀ links : Links level, (∀ t ∈ links.tokens, t.IsNamed) → ∀ left : Tree,
      (links.treeOnto left).parentheses (.chain level) ≤
        left.parentheses (.chain level) + openings links.tokens
  | .none, _, left => Nat.le_refl _
  | .next link right more isLink, h, left => by
    obtain ⟨op, hop, hlevel⟩ := (h link List.mem_cons_self).link level isLink
    have hright := right.parentheses_le fun t ht =>
      h t (List.mem_cons_of_mem _ (List.mem_append_left _ ht))
    have hmore := more.parentheses_le (fun t ht =>
      h t (List.mem_cons_of_mem _ (List.mem_append_right _ ht))) (.pair left link.text right.tree)
    have admitted : (Phrase.chain level).admits level = true := by cases level <;> rfl
    rw [Tree.parentheses_operation hop, hlevel, if_pos admitted] at hmore
    rw [Links.tokens, Links.treeOnto, openings_cons, openings_append]
    omega

end

end Grammar

/-- A text that is read as a tree has at least the parentheses that the tree needs. -/
theorem Token.parentheses_le_openings {text : String} {t : Tree}
    (h : Tree.ofTokens (ofText text) = .ok t) :
    t.parentheses .expression ≤ openings (ofText text) := by
  obtain ⟨d, last, behind, split, -, rfl, -⟩ := exists_derivation_of_ok h
  have named : ∀ t ∈ d.tokens, t.IsNamed := by
    intro t ht
    have hmem : t ∈ ofText text := by
      rw [split]
      exact List.mem_append_left _ ht
    exact isNamed_of_mem hmem
  have few := d.parentheses_le named
  rw [split, openings_append]
  omega

/-! ## A formula is written with no others -/

theorem FunctionName.ofName?_eq (name : FunctionName) : Operator.ofName? name.val = none :=
  Operator.ofName?_of_isFunctionName name.property

namespace Formula

/-- As a term, a sum or a difference needs one parenthesis more. -/
theorem parentheses_term (f : Formula) :
    f.tree.parentheses .term = f.tree.parentheses .expression + if f.isSum then 1 else 0 := by
  cases f with
  | number | call => rfl
  | callPair first name second =>
    rw [tree, Tree.parentheses_callPair name.ofName?_eq, Tree.parentheses_callPair name.ofName?_eq]
    rfl
  | operation left op right =>
    rw [tree, Tree.parentheses_operation op.ofName?_symbol,
      Tree.parentheses_operation op.ofName?_symbol]
    cases op <;> rfl

/-- As a factor, every operation needs one parenthesis more. -/
theorem parentheses_factor (f : Formula) :
    f.tree.parentheses .factor = f.tree.parentheses .expression + if f.isOperation then 1 else 0 := by
  cases f with
  | number | call => rfl
  | callPair first name second =>
    rw [tree, Tree.parentheses_callPair name.ofName?_eq, Tree.parentheses_callPair name.ofName?_eq]
    rfl
  | operation left op right =>
    rw [tree, Tree.parentheses_operation op.ofName?_symbol,
      Tree.parentheses_operation op.ofName?_symbol]
    rfl

theorem openings_enclose (brackets : Bool) (ws : List String) :
    openings ((enclose brackets ws).map Token.ofFragment) =
      openings (ws.map Token.ofFragment) + if brackets then 1 else 0 := by
  cases brackets with
  | false => rfl
  | true => simp [enclose]

/-- A left operand has the parentheses that it needs. -/
theorem openings_left (op : Operator) {f : Formula}
    (h : openings f.tokens = f.tree.parentheses .expression) :
    openings ((enclose (bracketsLeft op f) f.words).map Token.ofFragment) =
      f.tree.parentheses (.chain op.level) := by
  rw [openings_enclose, ← tokens, h]
  unfold bracketsLeft
  cases op.level with
  | sum => rfl
  | product => exact f.parentheses_term.symm

/-- A right operand has the parentheses that it needs. -/
theorem openings_right (op : Operator) {f : Formula}
    (h : openings f.tokens = f.tree.parentheses .expression) :
    openings ((enclose (bracketsRight op f) f.words).map Token.ofFragment) =
      f.tree.parentheses op.level.operand := by
  rw [openings_enclose, ← tokens, h]
  unfold bracketsRight
  cases op.level with
  | sum => exact f.parentheses_term.symm
  | product => exact f.parentheses_factor.symm

/-- A formula is written with the parentheses that its tree needs and no others. -/
theorem openings_tokens (f : Formula) : openings f.tokens = f.tree.parentheses .expression := by
  induction f with
  | number literal => simp [tokens, words, tree, Tree.parentheses, literal.ofFragment_eq]
  | call name argument ih =>
    rw [tree, Tree.parentheses, ← ih]
    simp [tokens, words]
  | callPair first name second ih₁ ih₂ =>
    rw [tree, Tree.parentheses_callPair name.ofName?_eq, ← ih₁, ← ih₂]
    simp [tokens, words]
  | operation left op right ih₁ ih₂ =>
    rw [tree, Tree.parentheses_operation op.ofName?_symbol, ← openings_left op ih₁,
      ← openings_right op ih₂]
    simp [tokens, words, op.kind_symbol_ne, Phrase.admits]

/-- A formula that is written with blanks between its words or not is read as its tree, with
brackets nested within the limit. A text that is read as the same tree has no fewer parentheses. -/
theorem written_is_read (f : Formula) (text : String) (written : f.WrittenAs text) :
    (NestsWithin depthLimit (Token.ofText text) →
      Tree.ofTokens (Token.ofText text) = .ok f.tree) ∧
    ∀ other, Tree.ofTokens (Token.ofText other) = .ok f.tree →
      openings (Token.ofText text) ≤ openings (Token.ofText other) := by
  refine ⟨f.ofTokens_written text written, ?_⟩
  intro other h
  have few := Token.parentheses_le_openings h
  rwa [ofText_written written, openings_append, openings_tokens, openings_cons]

/-- The formula `(1 + 2.5) * sqrt(4)`. -/
def scaledRoot : Formula :=
  .operation
    (.operation (.number ⟨['1'], none, List.all_eq_true.mp rfl, List.cons_ne_nil _ _⟩) .plus
      (.number ⟨['2'], some ['5'], List.all_eq_true.mp rfl, List.cons_ne_nil _ _⟩))
    .times
    (.call ⟨"sqrt", by decide⟩
      (.number ⟨['4'], none, List.all_eq_true.mp rfl, List.cons_ne_nil _ _⟩))

theorem scaledRoot_is_read :
    scaledRoot.WrittenAs "(1 +2.5)*  sqrt(4)" ∧
      Tree.ofTokens (Token.ofText "(1 +2.5)*  sqrt(4)") = .ok scaledRoot.tree := by
  have blank : ∀ c ∈ [' '], isBlank c = true := List.all_eq_true.mp rfl
  have blanks : ∀ c ∈ [' ', ' '], isBlank c = true := List.all_eq_true.mp rfl
  have written : scaledRoot.WrittenAs "(1 +2.5)*  sqrt(4)" :=
    .word (g := []) nofun <| .word (g := []) nofun <| .word blank <| .word (g := []) nofun <|
      .word (g := []) nofun <| .word (g := []) nofun <| .word blanks <| .word (g := []) nofun <|
      .word (g := []) nofun <| .word (g := []) nofun <| .blanks nofun
  have shallow : NestsWithin depthLimit (Token.ofText "(1 +2.5)*  sqrt(4)") :=
    nestsWithin_of_openings_le (by decide +kernel)
  exact ⟨written, (written_is_read scaledRoot _ written).1 shallow⟩

end Formula

end Calculator
