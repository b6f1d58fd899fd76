import Mathlib.Data.List.Chain
import Calculator.Proofs.Splitting
import Calculator.Token.OfText

/-!
# Words with blanks between them

A fragment of a text is one fragment also by itself: what stood around it only decided where it ends.
So fragments that are written with blanks between them are found again, and blanks are needed only
between words of which neither is a symbol.

Results:
1. `fragmentsOf_of_mem`: a fragment by itself is one fragment.
2. `Spaced.fragmentsOf_eq`: the fragments of words that are written with blanks between them.
3. `Token.ofText_joined`: joining the texts of tokens by blanks gives the same tokens.
-/

namespace Calculator

/-! ## A fragment by itself -/

namespace Piece

variable {before after : List Char} {p : Piece} {ps : List Piece}

/-- A piece that no run joins with its neighbours can stand by itself. -/
theorem Fits.alone (h : p.Fits before after) (hbefore : Apart before p.text)
    (hafter : Apart p.text after) : p.Fits [] [] := by
  cases p with
  | blank cs => exact h
  | symbol c => exact h
  | name w => exact ⟨⟨h.1.nonempty, h.1.word, nofun, nofun⟩, h.2⟩
  | stretch cs =>
    refine ⟨h.1, h.2.1, fun pre w post split run => ?_⟩
    rw [List.nil_append, List.append_nil] at run
    exact (h.isPlain hbefore hafter).nameless pre w post split run

theorem Lined.alone (h : Lined before ps) (hbefore : Apart before (textOf ps)) :
    ∀ p ∈ ps, p.Fits [] [] := by
  induction ps generalizing before with
  | nil => nofun
  | cons p ps ih =>
    have apart := h.apart
    obtain ⟨fits, -, lined⟩ := h
    rw [textOf_cons, apart_append_right fits.text_ne_nil] at hbefore
    intro q hq
    rcases List.mem_cons.mp hq with rfl | hq
    · exact fits.alone hbefore apart
    · exact ih lined (apart.append_left fits.text_ne_nil before) q hq

theorem Fits.makeUp (h : p.Fits [] []) : MakeUp [p] p.text where
  whole := List.append_nil _
  lined := ⟨h, fun _ => nofun, trivial⟩

/-- A piece that is no blank is its own text as a fragment. -/
theorem eq_text_of_fragment? {f : List Char} (h : p.fragment? = some f) : p.text = f := by
  cases p with
  | blank => cases h
  | symbol | name | stretch => exact Option.some.inj h

end Piece

/-- A fragment by itself is one fragment. -/
theorem fragmentsOf_of_mem {s f : List Char} (h : f ∈ fragmentsOf s) : fragmentsOf f = [f] := by
  have row := Piece.scan_makeUp s
  rw [row.fragmentsOf_eq] at h
  obtain ⟨p, hp, hf⟩ := List.mem_filterMap.mp h
  have fits := row.lined.alone (apart_of_getLast? nofun) p hp
  rw [← Piece.eq_text_of_fragment? hf, fits.makeUp.fragmentsOf_eq, Piece.kept,
    List.filterMap_cons_some hf, Piece.eq_text_of_fragment? hf]
  rfl

/-! ## Words with blanks between them -/

variable {s t g w : List Char} {ws : List (List Char)}

/-- The text is made of the words in order, with blanks around them or not. -/
inductive Spaced : List (List Char) → List Char → Prop
  | blanks {g : List Char} (blank : ∀ c ∈ g, isBlank c = true) : Spaced [] g
  | word {g w s : List Char} {ws : List (List Char)} (blank : ∀ c ∈ g, isBlank c = true)
      (more : Spaced ws s) : Spaced (w :: ws) (g ++ w ++ s)

/-- The word is a symbol. -/
def IsSymbolWord (w : List Char) : Prop := ∃ c, w = [c] ∧ isSymbol c = true

/-- Of two neighbouring words one is a symbol. -/
def Alternating (ws : List (List Char)) : Prop :=
  ws.IsChain fun v w => IsSymbolWord v ∨ IsSymbolWord w

/-- A text that is empty or starts with a separator adds its own fragments. -/
theorem fragmentsOf_append (h : ∀ c ∈ t.head?, isSeparator c = true) (s : List Char) :
    fragmentsOf (s ++ t) = fragmentsOf s ++ fragmentsOf t := by
  cases t with
  | nil => rw [List.append_nil, show fragmentsOf [] = [] from rfl, List.append_nil]
  | cons c t => exact fragmentsOf_append_cons (h c rfl) s t

theorem fragmentsOf_blanks_append (blank : ∀ c ∈ g, isBlank c = true) (s : List Char) :
    fragmentsOf (g ++ s) = fragmentsOf s := by
  induction g with
  | nil => rfl
  | cons c g ih =>
    rw [List.cons_append, fragmentsOf_cons_blank (blank c List.mem_cons_self),
      ih fun d hd => blank d (List.mem_cons_of_mem _ hd)]

/-- Words of which the first is a symbol, or none, start with a separator. -/
theorem Spaced.head_isSeparator (h : Spaced ws s) (first : ∀ w ∈ ws.head?, IsSymbolWord w) :
    ∀ c ∈ s.head?, isSeparator c = true := by
  have blank_head {g s : List Char} (blank : ∀ c ∈ g, isBlank c = true)
      (hs : ∀ c ∈ s.head?, isSeparator c = true) : ∀ c ∈ (g ++ s).head?, isSeparator c = true := by
    cases g with
    | nil => exact hs
    | cons d g =>
      rintro _ ⟨⟩
      rw [isSeparator, blank d List.mem_cons_self, Bool.true_or]
  cases h with
  | blanks blank => simpa using blank_head (s := []) blank nofun
  | word blank more =>
    obtain ⟨c, rfl, symbol⟩ := first _ rfl
    rw [List.append_assoc]
    refine blank_head blank ?_
    rintro _ ⟨⟩
    rw [isSeparator, symbol, Bool.or_true]

/-- The fragments of words that are written with blanks between them. Where there is no blank, one of
the two words is a symbol. -/
theorem Spaced.fragmentsOf_eq (h : Spaced ws s) (single : ∀ w ∈ ws, fragmentsOf w = [w])
    (alternating : Alternating ws) : fragmentsOf s = ws := by
  induction h with
  | blanks blank =>
    have none := fragmentsOf_blanks_append blank []
    rwa [List.append_nil] at none
  | @word g w s ws blank more ih =>
    obtain ⟨joint, rest⟩ := List.isChain_cons.mp alternating
    have hrest := ih (fun v hv => single v (List.mem_cons_of_mem _ hv)) rest
    have hword := single w List.mem_cons_self
    rw [List.append_assoc, fragmentsOf_blanks_append blank]
    by_cases symbol : IsSymbolWord w
    · obtain ⟨c, rfl, hc⟩ := symbol
      rw [List.singleton_append, fragmentsOf_cons_symbol hc, hrest]
    · have first := more.head_isSeparator fun v hv => (joint v hv).resolve_left symbol
      rw [fragmentsOf_append first, hword, hrest]
      rfl

/-! ## Joining tokens -/

/-- Fragments that are joined by single blanks are found again. -/
theorem fragmentsOf_intercalate (single : ∀ w ∈ ws, fragmentsOf w = [w]) :
    fragmentsOf ([' '].intercalate ws) = ws := by
  have blank : isBlank ' ' = true := rfl
  induction ws with
  | nil => rfl
  | cons w ws ih =>
    have hword := single w List.mem_cons_self
    have hrest := ih fun v hv => single v (List.mem_cons_of_mem _ hv)
    cases ws with
    | nil => simpa using hword
    | cons v ws =>
      have separates : isSeparator ' ' = true := rfl
      rw [List.intercalate_cons_cons, List.append_assoc, List.singleton_append,
        fragmentsOf_append_cons separates, fragmentsOf_cons_blank blank, hword, hrest]
      rfl

namespace Token

theorem text_ofWord (fragment : String) : (ofFragment.ofWord fragment).text = fragment := by
  unfold ofFragment.ofWord
  split
  · rfl
  · split <;> rfl

/-- The text of a token is the fragment that it is. -/
theorem text_ofFragment (fragment : String) : (ofFragment fragment).text = fragment := by
  unfold ofFragment
  split
  · split
    · rfl
    · exact text_ofWord fragment
  · exact text_ofWord fragment

/-- The texts of the tokens before the end of the input are the fragments. -/
theorem map_text_dropLast (text : String) : (ofText text).dropLast.map Token.text = fragments text := by
  have same : Token.text ∘ ofFragment = id := funext text_ofFragment
  rw [ofText, List.dropLast_concat, List.map_map, same, List.map_id]

/-- Joining the texts of all tokens but the end of the input by single blanks gives a text with the
same tokens. -/
theorem ofText_joined (text : String) :
    ofText (" ".intercalate ((ofText text).dropLast.map Token.text)) = ofText text := by
  have chars : (fragments text).map String.toList = fragmentsOf text.toList := by
    have same : String.toList ∘ String.ofList = id := funext fun _ => String.toList_ofList
    rw [fragments, List.map_map, same, List.map_id]
  have again : fragments (" ".intercalate (fragments text)) = fragments text := by
    have blank : " ".toList = [' '] := rfl
    rw [fragments, String.toList_intercalate, chars, blank,
      fragmentsOf_intercalate fun w => fragmentsOf_of_mem]
    rfl
  rw [map_text_dropLast, ofText, again, ofText]

end Token

end Calculator
