import Calculator.Token.OfText

/-!
# Fragments of joined texts

A text is read as runs, and the runs are gathered into fragments from the right. Where no run of word
characters goes on from one text into the next, the runs of both together are those of the one and
then those of the other; and in front of a separator nothing that is gathered grows any further. So
the fragments of texts with a separator between them are the fragments of each.

Results:
1. `Run.ofText_append`: the runs of two texts that no run joins.
2. `fragmentsOf_append_cons`: a separator parts the fragments in front of it from those behind.
3. `fragmentsOf_cons_blank`, `fragmentsOf_cons_symbol`: what a separator itself leaves.
-/

namespace Calculator

/-! ## Characters -/

/-- A character of a set lies in one of its ranges. -/
theorem CharRanges.exists_of_has {rs : CharRanges} {n : Nat} (h : rs.has n = true) :
    ∃ r ∈ rs, r.1 ≤ n ∧ n ≤ r.2 := by
  induction rs with
  | nil => cases h
  | cons r rs ih =>
    obtain ⟨lo, hi⟩ := r
    rw [has] at h
    split at h
    · cases h
    · next above =>
      rcases (Bool.or_eq_true _ _).mp h with inside | further
      · exact ⟨(lo, hi), List.mem_cons_self, Nat.not_lt.mp above, of_decide_eq_true inside⟩
      · obtain ⟨r, hr, within⟩ := ih further
        exact ⟨r, List.mem_cons_of_mem _ hr, within⟩

theorem isWordChar_of_isBlank {c : Char} (h : isBlank c = true) : isWordChar c = false := by
  have apart : ∀ r ∈ blankRanges, ∀ k < r.2 + 1 - r.1, wordRanges.has (r.1 + k) = false := by
    decide +kernel
  obtain ⟨r, hr, above, below⟩ := CharRanges.exists_of_has h
  have outside := apart r hr (c.toNat - r.1) (by omega)
  rwa [Nat.add_sub_cancel' above] at outside

/-- The symbols are nine characters. -/
theorem isSymbol_iff {c : Char} :
    isSymbol c = true ↔ c ∈ ['(', ')', ',', '+', '-', '*', '/', '%', '^'] := by
  unfold isSymbol symbolKind?
  split <;> simp_all

theorem isBlank_of_isSymbol {c : Char} (h : isSymbol c = true) : isBlank c = false := by
  have all : ['(', ')', ',', '+', '-', '*', '/', '%', '^'].all (!isBlank ·) = true := by decide
  simpa using List.all_eq_true.mp all c (isSymbol_iff.mp h)

theorem isWordChar_of_isSymbol {c : Char} (h : isSymbol c = true) : isWordChar c = false := by
  have all : ['(', ')', ',', '+', '-', '*', '/', '%', '^'].all (!isWordChar ·) = true := by decide
  simpa using List.all_eq_true.mp all c (isSymbol_iff.mp h)

/-- The character ends a fragment wherever it stands. -/
def isSeparator (c : Char) : Bool := isBlank c || isSymbol c

theorem isWordChar_of_isSeparator {c : Char} (h : isSeparator c = true) : isWordChar c = false :=
  ((Bool.or_eq_true _ _).mp h).elim isWordChar_of_isBlank isWordChar_of_isSymbol

/-- The names of functions are made of word characters. -/
theorem word_of_isFunctionName {w : List Char} (h : isFunctionName (String.ofList w) = true) :
    w ≠ [] ∧ ∀ c ∈ w, isWordChar c = true := by
  have all : ∀ name ∈ functionNames, name.toList ≠ [] ∧ name.toList.all isWordChar = true := by
    decide +kernel
  have word := all _ (List.contains_iff_mem.mp h)
  rwa [String.toList_ofList, List.all_eq_true] at word

/-! ## Runs -/

/-- No run of word characters goes on from the one text into the other. -/
def Apart (s t : List Char) : Prop :=
  ∀ c ∈ s.getLast?, ∀ d ∈ t.head?, isWordChar c = true → isWordChar d = false

theorem apart_of_getLast? {s t : List Char} (h : ∀ c ∈ s.getLast?, isWordChar c = false) :
    Apart s t := by
  intro c hc d _ word
  rw [h c hc] at word
  cases word

theorem apart_of_head? {s t : List Char} (h : ∀ d ∈ t.head?, isWordChar d = false) : Apart s t :=
  fun _ _ d hd _ => h d hd

/-- Only the last character of the text in front counts. -/
theorem Apart.append_left {s t : List Char} (h : Apart s t) (nonempty : s ≠ []) (u : List Char) :
    Apart (u ++ s) t := by
  obtain ⟨s, c, rfl⟩ := (List.eq_nil_or_concat s).resolve_left nonempty
  intro d hd
  rw [List.concat_eq_append, ← List.append_assoc, List.getLast?_concat] at hd
  exact h d (by rwa [List.concat_eq_append, List.getLast?_concat])

/-- Only the first character of the text behind counts. -/
theorem apart_append_right {s t : List Char} (nonempty : t ≠ []) (u : List Char) :
    Apart s (t ++ u) ↔ Apart s t := by
  obtain ⟨d, t, rfl⟩ := List.exists_cons_of_ne_nil nonempty
  rfl

namespace Run

variable {c : Char} {s t w : List Char} {rs rs' : List Run}

theorem cons_of_not_word (h : isWordChar c = false) (rs : List Run) : cons c rs = mark c :: rs := by
  unfold cons
  rw [h]
  rfl

theorem cons_append (h : rs ≠ []) : cons c (rs ++ rs') = cons c rs ++ rs' := by
  cases rs with
  | nil => exact absurd rfl h
  | cons r rs =>
    unfold cons
    cases r <;> cases isWordChar c <;> rfl

theorem ofText_cons (c : Char) (s : List Char) : ofText (c :: s) = cons c (ofText s) := rfl

theorem ofText_ne_nil (h : s ≠ []) : ofText s ≠ [] := by
  cases s with
  | nil => exact absurd rfl h
  | cons c s =>
    rw [ofText_cons]
    unfold cons
    split
    · split <;> exact List.cons_ne_nil _ _
    · exact List.cons_ne_nil _ _

/-- A word character in front of a text that does not start with one is a run of its own. -/
theorem cons_ofText_of_head? (word : isWordChar c = true) (h : ∀ d ∈ t.head?, isWordChar d = false) :
    cons c (ofText t) = .word [c] :: ofText t := by
  unfold cons
  rw [if_pos word]
  cases t with
  | nil => rfl
  | cons d t => rw [ofText_cons, cons_of_not_word (h d rfl)]

/-- The runs of two texts that no run joins. -/
theorem ofText_append (h : Apart s t) : ofText (s ++ t) = ofText s ++ ofText t := by
  induction s with
  | nil => rfl
  | cons c s ih =>
    rw [List.cons_append, ofText_cons, ofText_cons]
    cases s with
    | nil =>
      cases word : isWordChar c with
      | true => rw [List.nil_append, cons_ofText_of_head? word fun d hd => h c rfl d hd word,
          cons_ofText_of_head? (t := []) word nofun]; rfl
      | false => rw [cons_of_not_word word, cons_of_not_word word]; rfl
    | cons d s =>
      have hs : Apart (d :: s) t := by rwa [Apart, List.getLast?_cons_cons] at h
      rw [ih hs, cons_append (ofText_ne_nil (List.cons_ne_nil _ _))]

/-- Word characters by themselves are one run. -/
theorem ofText_word (nonempty : w ≠ []) (word : ∀ c ∈ w, isWordChar c = true) :
    ofText w = [.word w] := by
  induction w with
  | nil => exact absurd rfl nonempty
  | cons c w ih =>
    have hc := word c List.mem_cons_self
    cases w with
    | nil => exact cons_ofText_of_head? hc nofun
    | cons d w =>
      rw [ofText_cons, ih (List.cons_ne_nil _ _) fun e he => word e (List.mem_cons_of_mem _ he)]
      unfold cons
      rw [if_pos hc]

end Run

/-! ## Gathering -/

namespace Gathered

variable {c : Char} {s t w : List Char}

/-- Gathers a text in front of what is gathered already. -/
def gather (s : List Char) (g : Gathered) : Gathered := (Run.ofText s).foldr put g

/-- More complete fragments stand behind. -/
def inFrontOf (g : Gathered) (behind : List (List Char)) : Gathered := ⟨g.opened, g.closed ++ behind⟩

theorem gather_append (h : Apart s t) (g : Gathered) : gather (s ++ t) g = gather s (gather t g) := by
  rw [gather, Run.ofText_append h, List.foldr_append]
  rfl

/-- A character that is no word character is a run of its own. -/
theorem gather_cons (h : isWordChar c = false) (s : List Char) (g : Gathered) :
    gather (c :: s) g = put (.mark c) (gather s g) := by
  rw [gather, Run.ofText_cons, Run.cons_of_not_word h]
  rfl

theorem gather_cons_blank (h : isBlank c = true) (s : List Char) (g : Gathered) :
    gather (c :: s) g = (gather s g).separate := by
  rw [gather_cons (isWordChar_of_isBlank h), put, if_pos h]

theorem gather_cons_symbol (h : isSymbol c = true) (s : List Char) (g : Gathered) :
    gather (c :: s) g = (gather s g).putAlone [c] := by
  have visible : ¬isBlank c = true := by simp [isBlank_of_isSymbol h]
  rw [gather_cons (isWordChar_of_isSymbol h), put, if_neg visible, if_pos h]

theorem gather_word (nonempty : w ≠ []) (word : ∀ c ∈ w, isWordChar c = true) (g : Gathered) :
    gather w g = put (.word w) g := by
  rw [gather, Run.ofText_word nonempty word]
  rfl

theorem fragments_of_opened_eq_nil {g : Gathered} (h : g.opened = []) : g.fragments = g.closed := by
  rw [fragments, h]
  rfl

theorem fragments_inFrontOf (g : Gathered) (behind : List (List Char)) :
    (g.inFrontOf behind).fragments = g.fragments ++ behind := by
  obtain ⟨_ | ⟨c, opened⟩, closed⟩ := g <;> rfl

/-- What stands behind complete fragments has no influence on what is put in front. -/
theorem put_inFrontOf (r : Run) (g : Gathered) (behind : List (List Char)) :
    put r (g.inFrontOf behind) = (put r g).inFrontOf behind := by
  cases r with
  | word cs =>
    simp only [put]
    split
    · simp only [putAlone, fragments_inFrontOf]; rfl
    · rfl
  | mark c =>
    simp only [put]
    split
    · simp only [separate, fragments_inFrontOf]; rfl
    · split
      · simp only [putAlone, fragments_inFrontOf]; rfl
      · rfl

theorem gather_inFrontOf (s : List Char) (g : Gathered) (behind : List (List Char)) :
    gather s (g.inFrontOf behind) = (gather s g).inFrontOf behind := by
  unfold gather
  induction Run.ofText s with
  | nil => rfl
  | cons r rs ih => rw [List.foldr_cons, List.foldr_cons, ih, put_inFrontOf]

/-- In front of a separator everything is complete. -/
theorem gather_separator (h : isSeparator c = true) (s : List Char) (g : Gathered) :
    (gather (c :: s) g).opened = [] := by
  rcases (Bool.or_eq_true _ _).mp h with blank | symbol
  · rw [gather_cons_blank blank]
    rfl
  · rw [gather_cons_symbol symbol]
    rfl

end Gathered

/-! ## Fragments -/

open Gathered

variable {c : Char} {s t : List Char}

theorem fragmentsOf_eq (s : List Char) : fragmentsOf s = (gather s .empty).fragments := rfl

/-- A separator parts the fragments in front of it from those behind. -/
theorem fragmentsOf_append_cons (h : isSeparator c = true) (s t : List Char) :
    fragmentsOf (s ++ c :: t) = fragmentsOf s ++ fragmentsOf (c :: t) := by
  have apart : Apart s (c :: t) := apart_of_head? (by rintro _ ⟨⟩; exact isWordChar_of_isSeparator h)
  have complete : gather (c :: t) .empty = empty.inFrontOf (fragmentsOf (c :: t)) := by
    rw [fragmentsOf_eq]
    have hopened := gather_separator h t .empty
    generalize gather (c :: t) empty = g at hopened ⊢
    obtain ⟨opened, closed⟩ := g
    cases hopened
    rfl
  rw [fragmentsOf_eq, gather_append apart, complete, gather_inFrontOf, fragments_inFrontOf]
  rfl

theorem fragmentsOf_cons_blank (h : isBlank c = true) (s : List Char) :
    fragmentsOf (c :: s) = fragmentsOf s := by
  rw [fragmentsOf_eq, gather_cons_blank h]
  rfl

theorem fragmentsOf_cons_symbol (h : isSymbol c = true) (s : List Char) :
    fragmentsOf (c :: s) = [c] :: fragmentsOf s := by
  rw [fragmentsOf_eq, gather_cons_symbol h]
  rfl

end Calculator
