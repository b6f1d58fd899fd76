import Calculator.Proofs.Classification
import Calculator.Proofs.NumberTexts
import Calculator.Proofs.Quoting

/-!
# What is shown says what it shows

A tree is shown as nested rows of parts, and the text says where each part ends: the first character
is that of the kind of node, a name is quoted, the text of a number ends before the bracket that closes
it, and operands say where they end themselves. So a tree is read back in front of anything, at any
depth. A token is shown with the name of its kind and its quoted text.

The leaves of a tree that was read are numbers as they are read: none is negative, none is NaN, and
there is one zero. So trees that are equal as numbers are equal in every bit.

Results:
1. `Tree.render_append_inj`: a tree is read back from what is shown.
2. `Token.render_inj`: so are the kind and the text of a token.
3. `Derivation.leaves_tree`: the leaves of a tree are the numbers among its tokens.
4. `renderings_are_faithful`: what is shown of texts.
-/

namespace Calculator

open Binary64 Grammar

/-! ## Definitions -/

/-- Trees of the same shape and with the same names whose leaves are equal as numbers. -/
inductive Tree.Alike : Tree → Tree → Prop
  | number {v w : Value} (equal : Value.equals v w = true) : Alike (.number v) (.number w)
  | call (name : String) {s t : Tree} (argument : Alike s t) : Alike (.call name s) (.call name t)
  | pair {s s' : Tree} (left : Alike s s') (name : String) {t t' : Tree} (right : Alike t t') :
      Alike (.pair s name t) (.pair s' name t')
  | foreign : Alike .foreign .foreign

/-- The values at the leaves of a tree, from left to right. -/
def Tree.leaves : Tree → List Value
  | .number value => [value]
  | .call _ argument => argument.leaves
  | .pair left _ right => left.leaves ++ right.leaves
  | .foreign => [none]

/-- The values of the numbers among tokens, in order. -/
def numbersOf (ts : List Token) : List Value :=
  (ts.filter fun t => t.kind = .number).map Token.value

/-! ## Trees -/

/-- A part ends at the first character that is not in it. -/
theorem append_cons_inj {c : Char} {s t u v : List Char} (hs : c ∉ s) (ht : c ∉ t)
    (h : s ++ c :: u = t ++ c :: v) : s = t ∧ u = v := by
  have cut {s : List Char} (hs : c ∉ s) (u : List Char) : (s ++ c :: u).takeWhile (· ≠ c) = s := by
    rw [List.takeWhile_append_of_pos (fun d hd => decide_eq_true (ne_of_mem_of_not_mem hd hs)),
      List.takeWhile_cons_of_neg (by simp), List.append_nil]
  have same : s = t := by rw [← cut hs u, h, cut ht v]
  subst same
  exact ⟨rfl, (List.cons.inj (List.append_cancel_left h)).2⟩

namespace Tree

theorem render_number (value : Value) :
    (number value).render = "NumberNode(" ++ value.text ++ ")" := rfl

theorem render_call (name : String) (argument : Tree) :
    (call name argument).render =
      "UnaryOpNode(" ++ quoted name ++ ", " ++ argument.render ++ ")" := rfl

theorem render_pair (left : Tree) (name : String) (right : Tree) :
    (pair left name right).render =
      "BinaryOpNode(" ++ left.render ++ ", " ++ quoted name ++ ", " ++ right.render ++ ")" := rfl

theorem render_foreign : foreign.render = "?" := rfl

/-- A tree is read back in front of anything. Nodes of two kinds differ in the first character. -/
theorem render_append_inj {s t : Tree} {u v : List Char}
    (h : s.render.toList ++ u = t.render.toList ++ v) : s = t ∧ u = v := by
  induction s generalizing t u v with
  | number value =>
    cases t with
    | number value' =>
      simp only [render_number, String.toList_append, List.append_assoc] at h
      obtain ⟨hvalue, hrest⟩ := append_cons_inj value.closing_not_mem_text
        value'.closing_not_mem_text (List.append_cancel_left h)
      rw [Value.text_injective (String.toList_inj.mp hvalue)]
      exact ⟨rfl, hrest⟩
    | call | pair | foreign => simp [render_number, render_call, render_pair, render_foreign] at h
  | call name argument ih =>
    cases t with
    | call name' argument' =>
      simp only [render_call, String.toList_append, List.append_assoc] at h
      obtain ⟨rfl, hargument⟩ := quoted_append_inj (List.append_cancel_left h)
      obtain ⟨rfl, hrest⟩ := ih (List.append_cancel_left hargument)
      exact ⟨rfl, List.append_cancel_left hrest⟩
    | number | pair | foreign => simp [render_number, render_call, render_pair, render_foreign] at h
  | pair left name right ihl ihr =>
    cases t with
    | pair left' name' right' =>
      simp only [render_pair, String.toList_append, List.append_assoc] at h
      obtain ⟨rfl, hname⟩ := ihl (List.append_cancel_left h)
      obtain ⟨rfl, hright⟩ := quoted_append_inj (List.append_cancel_left hname)
      obtain ⟨rfl, hrest⟩ := ihr (List.append_cancel_left hright)
      exact ⟨rfl, List.append_cancel_left hrest⟩
    | number | call | foreign => simp [render_number, render_call, render_pair, render_foreign] at h
  | foreign =>
    cases t with
    | foreign => exact ⟨rfl, List.append_cancel_left h⟩
    | number | call | pair => simp [render_number, render_call, render_pair, render_foreign] at h

/-- A tree is known by what is shown of it, also one that was not read. -/
theorem render_injective : Function.Injective render := fun s t same =>
  (render_append_inj (u := []) (v := []) (by rw [same])).1

end Tree

/-! ## Tokens -/

namespace TokenKind

theorem mem_all (k : TokenKind) : k ∈ all := by
  cases k <;> decide

theorem name_injective : Function.Injective name := fun k k' same =>
  List.inj_on_of_nodup_map (show (all.map name).Nodup by decide) k.mem_all k'.mem_all same

theorem comma_not_mem_name (k : TokenKind) : ',' ∉ k.name.toList := by
  cases k <;> decide

end TokenKind

namespace Token

/-- The kind and the text of a token are read back from what is shown. -/
theorem render_inj {x y : Token} (same : x.render = y.render) : x.kind = y.kind ∧ x.text = y.text := by
  have h := congrArg String.toList same
  have comma : ", ".toList = [',', ' '] := rfl
  unfold render at h
  simp only [String.toList_append, comma, List.append_assoc, List.cons_append, List.nil_append] at h
  obtain ⟨hname, hrest⟩ := append_cons_inj x.kind.comma_not_mem_name y.kind.comma_not_mem_name
    (List.append_cancel_left h)
  obtain ⟨htext, -⟩ := quoted_append_inj (List.cons.inj hrest).2
  exact ⟨TokenKind.name_injective (String.toList_inj.mp hname), htext⟩

/-- Tokens of texts that agree in kind and text agree in their value. -/
theorem eq_of_mem_ofText {a b : String} {x y : Token} (hx : x ∈ ofText a) (hy : y ∈ ofText b)
    (kind : x.kind = y.kind) (text : x.text = y.text) : x = y := by
  have known {a : String} {x : Token} (hx : x ∈ ofText a) :
      x = endOfInput ∨ x = ofFragment x.text := by
    rcases List.mem_append.mp hx with hx | hx
    · obtain ⟨w, -, rfl⟩ := List.mem_map.mp hx
      exact .inr (by rw [text_ofFragment])
    · exact .inl (List.mem_singleton.mp hx)
  rcases known hx with rfl | hx <;> rcases known hy with rfl | hy
  · rfl
  · rw [hy] at kind
    exact absurd kind.symm (kind_ofFragment_ne _)
  · rw [hx] at kind
    exact absurd kind (kind_ofFragment_ne _)
  · rw [hx, hy, text]

end Token

/-! ## Leaves -/

theorem numbersOf_append (ts ts' : List Token) :
    numbersOf (ts ++ ts') = numbersOf ts ++ numbersOf ts' := by
  simp [numbersOf]

theorem numbersOf_cons_of_ne {t : Token} (h : t.kind ≠ .number) (ts : List Token) :
    numbersOf (t :: ts) = numbersOf ts := by
  simp [numbersOf, h]

namespace Grammar

theorem Level.ne_number_of_isLink {level : Level} {kind : TokenKind} (h : level.isLink kind = true) :
    kind ≠ .number := by
  rintro rfl
  cases level <;> cases h

mutual

/-- The leaves of the tree of a phrase are the numbers among its tokens. -/
theorem Derivation.leaves_tree {p : Phrase} : ∀ d : Derivation p, d.tree.leaves = numbersOf d.tokens
  | .number t isNumber => by
    simp [Derivation.tree, Derivation.tokens, Tree.leaves, numbersOf, isNumber]
  | .group opening inner closing isOpening isClosing => by
    rw [Derivation.tree, Derivation.tokens, inner.leaves_tree,
      numbersOf_cons_of_ne (by simp [isOpening]), numbersOf_append,
      numbersOf_cons_of_ne (by simp [isClosing])]
    exact (List.append_nil _).symm
  | .call name opening argument closing isName isOpening isClosing => by
    rw [Derivation.tree, Derivation.tokens, Tree.leaves, argument.leaves_tree,
      numbersOf_cons_of_ne (by simp [isName]), numbersOf_cons_of_ne (by simp [isOpening]),
      numbersOf_append, numbersOf_cons_of_ne (by simp [isClosing])]
    exact (List.append_nil _).symm
  | .callPair name opening first comma second closing isName isOpening isComma isClosing => by
    rw [Derivation.tree, Derivation.tokens, Tree.leaves, first.leaves_tree, second.leaves_tree,
      numbersOf_cons_of_ne (by simp [isName]), numbersOf_cons_of_ne (by simp [isOpening]),
      numbersOf_append, numbersOf_cons_of_ne (by simp [isComma]), numbersOf_append,
      numbersOf_cons_of_ne (by simp [isClosing])]
    exact congrArg _ (List.append_nil _).symm
  | .chain first more => by
    rw [Derivation.tree, Derivation.tokens, more.leaves_treeOnto, first.leaves_tree, numbersOf_append]

/-- The links of a chain add the numbers among their tokens. -/
theorem Links.leaves_treeOnto {level : Level} :
    ∀ (links : Links level) (left : Tree),
      (links.treeOnto left).leaves = left.leaves ++ numbersOf links.tokens
  | .none, left => (List.append_nil _).symm
  | .next link right more isLink, left => by
    rw [Links.treeOnto, Links.tokens, more.leaves_treeOnto, Tree.leaves, right.leaves_tree,
      numbersOf_cons_of_ne (Level.ne_number_of_isLink isLink), numbersOf_append, List.append_assoc]

end

end Grammar

namespace Tree

/-- The leaves are what decimal numbers are read as. -/
def IsRead (t : Tree) : Prop := ∀ v ∈ t.leaves, ∃ d : Decimal, v = some (.real d.toFloat)

/-- The leaves of a tree that was read from a text are the numbers of the text. -/
theorem isRead_of_ok {text : String} {tree : Tree} (h : ofTokens (Token.ofText text) = .ok tree) :
    tree.IsRead := by
  obtain ⟨d, last, behind, split, hend, rfl, -⟩ := exists_derivation_of_ok h
  intro v hv
  rw [d.leaves_tree] at hv
  obtain ⟨t, ht, rfl⟩ := List.mem_map.mp hv
  obtain ⟨ht, isNumber⟩ := List.mem_filter.mp ht
  have member : t ∈ Token.ofText text := by
    rw [split]
    exact List.mem_append_left _ ht
  have isNumber : t.kind = .number := of_decide_eq_true isNumber
  rcases List.mem_append.mp member with inside | last
  · obtain ⟨w, -, rfl⟩ := List.mem_map.mp inside
    obtain ⟨l, -, hvalue⟩ := Token.exists_literal_of_kind isNumber
    exact ⟨l.decimal, hvalue⟩
  · rw [List.mem_singleton.mp last] at isNumber
    cases isNumber

theorem eq_of_alike {s t : Tree} (h : s.Alike t) (hs : s.IsRead) (ht : t.IsRead) : s = t := by
  induction h with
  | number equal =>
    obtain ⟨d, rfl⟩ := hs _ (List.mem_singleton_self _)
    obtain ⟨e, rfl⟩ := ht _ (List.mem_singleton_self _)
    rw [Decimal.equals_toFloat_iff.mp equal]
  | call name _ ih => rw [ih hs ht]
  | pair _ name _ ihl ihr =>
    rw [ihl (fun v hv => hs v (List.mem_append_left _ hv)) fun v hv => ht v (List.mem_append_left _ hv),
      ihr (fun v hv => hs v (List.mem_append_right _ hv)) fun v hv => ht v (List.mem_append_right _ hv)]
  | foreign => rfl

theorem alike_self {t : Tree} (h : t.IsRead) : t.Alike t := by
  induction t with
  | number value =>
    obtain ⟨d, rfl⟩ := h _ (List.mem_singleton_self _)
    exact .number (Decimal.equals_toFloat_iff.mpr rfl)
  | call name argument ih => exact .call name (ih h)
  | pair left name right ihl ihr =>
    exact .pair (ihl fun v hv => h v (List.mem_append_left _ hv)) name
      (ihr fun v hv => h v (List.mem_append_right _ hv))
  | foreign => exact .foreign

/-- Trees that were read are alike only if they are the same. -/
theorem alike_iff_eq {s t : Tree} (hs : s.IsRead) (ht : t.IsRead) : s.Alike t ↔ s = t :=
  ⟨fun h => eq_of_alike h hs ht, fun h => h ▸ alike_self hs⟩

end Tree

/-! ## Texts -/

/-- Of two texts that are read, the trees are shown alike if and only if they have the same shape, the
same names, and leaves that are equal as numbers; they are then the same tree. The tokens of two texts
that are shown alike are the same: in kind, in text and in value. -/
theorem renderings_are_faithful (a b : String) :
    (∀ s t, Tree.ofTokens (Token.ofText a) = .ok s → Tree.ofTokens (Token.ofText b) = .ok t →
      (s.render = t.render ↔ s.Alike t) ∧ (s.Alike t ↔ s = t)) ∧
    ∀ x ∈ Token.ofText a, ∀ y ∈ Token.ofText b, x.render = y.render → x = y := by
  constructor
  · intro s t hs ht
    have alike := Tree.alike_iff_eq (Tree.isRead_of_ok hs) (Tree.isRead_of_ok ht)
    exact ⟨Tree.render_injective.eq_iff.trans alike.symm, alike⟩
  · intro x hx y hy same
    obtain ⟨kind, text⟩ := Token.render_inj same
    exact Token.eq_of_mem_ofText hx hy kind text

/-- Three numbers, the first two of which are subtracted first. -/
def differencesFromLeft : Tree :=
  .pair (.pair (.number (Value.ofFloat (Decimal.toFloat ⟨1, 0⟩))) "-"
    (.number (Value.ofFloat (Decimal.toFloat ⟨25, -1⟩)))) "-"
      (.number (Value.ofFloat (Decimal.toFloat ⟨3, 0⟩)))

/-- Three numbers, the last two of which are subtracted first. -/
def differencesFromRight : Tree :=
  .pair (.number (Value.ofFloat (Decimal.toFloat ⟨1, 0⟩))) "-"
    (.pair (.number (Value.ofFloat (Decimal.toFloat ⟨25, -1⟩))) "-"
      (.number (Value.ofFloat (Decimal.toFloat ⟨3, 0⟩))))

/-- Brackets are not shown, but where they change the tree it is shown differently. A token that is no
part of an expression is known by its quoted text as well. -/
theorem differences_are_shown :
    Tree.ofTokens (Token.ofText "1 - 2.50 - 3") = .ok differencesFromLeft ∧
    Tree.ofTokens (Token.ofText "01.-(2.5-3)") = .ok differencesFromRight ∧
    (differencesFromLeft.render = differencesFromRight.render ↔
      differencesFromLeft.Alike differencesFromRight) ∧
    (differencesFromLeft.Alike differencesFromRight ↔ differencesFromLeft = differencesFromRight) ∧
    differencesFromLeft.render ≠ differencesFromRight.render ∧
    Token.ofFragment "it's" ∈ Token.ofText "it's 4" ∧
    (⟨.unknown, "it's", none⟩ : Token) ∈ Token.ofText "-it's" ∧
    (Token.ofFragment "it's").render = (⟨.unknown, "it's", none⟩ : Token).render ∧
    Token.ofFragment "it's" = ⟨.unknown, "it's", none⟩ := by
  have hleft : Tree.ofTokens (Token.ofText "1 - 2.50 - 3") = .ok differencesFromLeft := by
    decide +kernel
  have hright : Tree.ofTokens (Token.ofText "01.-(2.5-3)") = .ok differencesFromRight := by
    decide +kernel
  have faithful := (renderings_are_faithful "1 - 2.50 - 3" "01.-(2.5-3)").1 _ _ hleft hright
  have distinct : differencesFromLeft ≠ differencesFromRight := by decide +kernel
  have first : Token.ofFragment "it's" ∈ Token.ofText "it's 4" := by decide +kernel
  have second : (⟨.unknown, "it's", none⟩ : Token) ∈ Token.ofText "-it's" := by decide +kernel
  have shown : (Token.ofFragment "it's").render = (⟨.unknown, "it's", none⟩ : Token).render := by
    decide +kernel
  refine ⟨hleft, hright, faithful.1, faithful.2, ?_, first, second, shown, ?_⟩
  · exact fun same => distinct (faithful.2.mp (faithful.1.mp same))
  · exact (renderings_are_faithful "it's 4" "-it's").2 _ first _ second shown

end Calculator
