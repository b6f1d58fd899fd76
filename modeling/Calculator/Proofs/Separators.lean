import Calculator.Evaluate
import Calculator.Proofs.Spacing

/-!
# Separators

A symbol or a blank parts a text: the fragments of the whole are those in front of it and those behind
it, with the symbol between them. What stands on one side has no influence on the other, whatever it
is. So blanks next to a symbol, or at an end of a text, can be added and taken away as one likes.

Results:
1. `fragments_append_symbol`, `fragments_append_blanks`: separators part the fragments.
2. `Respaced.fragments_eq`: blanks next to symbols and at the ends do not matter.
3. `separators_part_texts`: both, and what follows for tokens and for the evaluation.
-/

namespace Calculator

/-! ## Definitions -/

/-- The text holds nothing but blanks. -/
def IsBlankText (w : String) : Prop := ∀ c ∈ w.toList, isBlank c = true

/-- The second text is the first with blanks added at an end or next to a symbol. -/
inductive Padded : String → String → Prop
  | front {w : String} (blank : IsBlankText w) (s : String) : Padded s (w ++ s)
  | back {w : String} (blank : IsBlankText w) (s : String) : Padded s (s ++ w)
  | before {w : String} {c : Char} (blank : IsBlankText w) (symbol : isSymbol c = true)
      (s t : String) :
      Padded (s ++ String.singleton c ++ t) (s ++ w ++ String.singleton c ++ t)
  | behind {w : String} {c : Char} (blank : IsBlankText w) (symbol : isSymbol c = true)
      (s t : String) :
      Padded (s ++ String.singleton c ++ t) (s ++ String.singleton c ++ w ++ t)

/-- One text becomes the other if blanks are added and removed at the ends and next to symbols, any
number of times. -/
def Respaced : String → String → Prop := Relation.EqvGen Padded

/-! ## Separators -/

variable {c : Char} {w : String}

/-- A symbol parts a text and is a fragment of its own. -/
theorem fragments_append_symbol (symbol : isSymbol c = true) (s t : String) :
    fragments (s ++ String.singleton c ++ t) =
      fragments s ++ [String.singleton c] ++ fragments t := by
  have separator : isSeparator c = true := by rw [isSeparator, symbol, Bool.or_true]
  unfold fragments
  rw [String.toList_append, String.toList_append, String.toList_singleton, List.append_assoc,
    List.singleton_append, fragmentsOf_append_cons separator, fragmentsOf_cons_symbol symbol]
  simp

/-- Blanks in front of a text do not matter. -/
theorem fragments_blanks_append (blank : IsBlankText w) (s : String) :
    fragments (w ++ s) = fragments s := by
  unfold fragments
  rw [String.toList_append, fragmentsOf_blanks_append blank]

/-- Blanks, if there are any, part a text and leave nothing. -/
theorem fragments_append_blanks (blank : IsBlankText w) (nonempty : w ≠ "") (s t : String) :
    fragments (s ++ w ++ t) = fragments s ++ fragments t := by
  obtain ⟨c, cs, hw⟩ := List.exists_cons_of_ne_nil (mt String.toList_eq_nil_iff.mp nonempty)
  have separator : isSeparator c = true := by
    rw [isSeparator, blank c (by rw [hw]; exact List.mem_cons_self), Bool.true_or]
  have parted : fragmentsOf (s ++ w ++ t).toList = fragmentsOf s.toList ++ fragmentsOf t.toList := by
    rw [String.toList_append, String.toList_append, List.append_assoc, hw, List.cons_append,
      fragmentsOf_append_cons separator, ← List.cons_append, ← hw, fragmentsOf_blanks_append blank]
  unfold fragments
  rw [parted, List.map_append]

/-- Blanks behind a text do not matter. -/
theorem fragments_append_of_blank (blank : IsBlankText w) (s : String) :
    fragments (s ++ w) = fragments s := by
  by_cases nonempty : w = ""
  · rw [nonempty, String.append_empty]
  · have none : fragments "" = [] := rfl
    have h := fragments_append_blanks blank nonempty s ""
    rwa [String.append_empty, none, List.append_nil] at h

/-! ## Blanks that do not matter -/

/-- Adding blanks once changes no fragment. -/
theorem Padded.fragments_eq {s t : String} (h : Padded s t) : fragments s = fragments t := by
  cases h with
  | front blank s => rw [fragments_blanks_append blank]
  | back blank s => rw [fragments_append_of_blank blank]
  | before blank symbol s t =>
    rw [fragments_append_symbol symbol, fragments_append_symbol symbol,
      fragments_append_of_blank blank]
  | @behind w c blank symbol s t =>
    have parted := fragments_append_symbol symbol s (w ++ t)
    rw [← String.append_assoc, fragments_blanks_append blank] at parted
    rw [parted, fragments_append_symbol symbol]

theorem Respaced.fragments_eq {s t : String} (h : Respaced s t) : fragments s = fragments t := by
  induction h with
  | rel s t padded => exact padded.fragments_eq
  | refl s => rfl
  | symm s t _ ih => exact ih.symm
  | trans s t u _ _ ih ih' => exact ih.trans ih'

/-- Separators part texts: the fragments of two texts with a symbol between them are those of the
first, the symbol, and those of the second, and with blanks between them those of the first and those
of the second. Hence blanks that are added or removed next to symbols and at the ends of a text change
neither its tokens nor anything about its evaluation. -/
theorem separators_part_texts :
    (∀ (a b : String) (c : Char), isSymbol c = true →
      fragments (a ++ String.singleton c ++ b) =
        fragments a ++ [String.singleton c] ++ fragments b) ∧
    (∀ a w b : String, w ≠ "" → (∀ c ∈ w.toList, isBlank c = true) →
      fragments (a ++ w ++ b) = fragments a ++ fragments b) ∧
    ∀ s t : String, Respaced s t → Token.ofText s = Token.ofText t ∧ evaluate s = evaluate t := by
  refine ⟨fun a b c symbol => fragments_append_symbol symbol a b,
    fun a w b nonempty blank => fragments_append_blanks blank nonempty a b, ?_⟩
  intro s t respaced
  have tokens : Token.ofText s = Token.ofText t := by
    unfold Token.ofText
    rw [respaced.fragments_eq]
  refine ⟨tokens, ?_⟩
  unfold evaluate evaluateWithin
  rw [tokens]

/-- A word that is no name stays none in front of a symbol, and a name behind a blank becomes one; the
two texts with the same tokens differ in three places. -/
theorem separators_part_sine_of_two :
    fragments ("2sin" ++ String.singleton '(' ++ "2)") =
        fragments "2sin" ++ [String.singleton '('] ++ fragments "2)" ∧
      fragments ("2" ++ "\t\u2003" ++ "sin(2)") = fragments "2" ++ fragments "sin(2)" ∧
      evaluate "sin(2 )" = evaluate " sin\n(2)" := by
  have blank (w : String) (h : w.toList.all isBlank = true) : IsBlankText w := List.all_eq_true.mp h
  have removed : Respaced "sin(2 )" "sin(2)" :=
    .symm _ _ (.rel _ _ (.before (blank " " (by decide)) (by decide : isSymbol ')' = true) "sin(2" ""))
  have added : Respaced "sin(2)" "sin\n(2)" :=
    .rel _ _ (.before (blank "\n" (by decide)) (by decide : isSymbol '(' = true) "sin" "2)")
  have fronted : Respaced "sin\n(2)" " sin\n(2)" := .rel _ _ (.front (blank " " (by decide)) _)
  obtain ⟨symbols, blanks, respaced⟩ := separators_part_texts
  have parting : IsBlankText "\t\u2003" := blank _ (by decide)
  exact ⟨symbols "2sin" "2)" '(' rfl, blanks "2" "\t\u2003" "sin(2)" (by decide) parting,
    (respaced _ _ (.trans _ _ _ removed (.trans _ _ _ added fronted))).2⟩

end Calculator
