import Calculator.Proofs.Fragments

/-!
# The pieces of a text

A text is a row of pieces: blanks, symbols, names of functions that stand as whole words, and
stretches of what is left between these. Every text is such a row, and the fragments of a text are
its pieces without the blanks, whatever row is taken.

The row is also what a search from left to right finds: at each place it looks for a separator, which
is a run of blanks, a symbol, or a name with a word boundary on either side; the characters at which
none starts make up the stretches.

Results:
1. `Lined.fragmentsOf_eq`: the fragments are the pieces without the blanks.
2. `scan_lined`: the search from left to right finds a row of pieces.
3. `fragments_are_pieces`: both for all texts, and what follows for the characters.
-/

namespace Calculator

open Gathered

/-! ## Definitions -/

/-- Between the texts `before` and `after`, `w` is a maximal run of word characters. -/
structure IsRun (before w after : List Char) : Prop where
  nonempty : w ≠ []
  word : ∀ c ∈ w, isWordChar c = true
  left : ∀ c ∈ before.getLast?, isWordChar c = false
  right : ∀ c ∈ after.head?, isWordChar c = false

/-- A piece of a text. -/
inductive Piece where
  /-- Blank characters. -/
  | blank (cs : List Char)
  /-- A symbol. -/
  | symbol (c : Char)
  /-- The name of a function. -/
  | name (w : List Char)
  /-- Anything else. -/
  | stretch (cs : List Char)
deriving DecidableEq

namespace Piece

/-- The characters of a piece. -/
def text : Piece → List Char
  | blank cs => cs
  | symbol c => [c]
  | name w => w
  | stretch cs => cs

/-- The fragment that a piece is. Blanks are none. -/
def fragment? : Piece → Option (List Char)
  | blank _ => none
  | p => some p.text

/-- The piece is one of those that are neither blank nor a symbol nor a name. -/
def isStretch : Piece → Bool
  | stretch _ => true
  | _ => false

/-- The piece can stand between the texts `before` and `after`. The name of a function is a maximal
run of word characters. A stretch holds no separator, and no maximal run in it is a name. -/
def Fits (before after : List Char) : Piece → Prop
  | blank cs => cs ≠ [] ∧ ∀ c ∈ cs, isBlank c = true
  | symbol c => isSymbol c = true
  | name w => IsRun before w after ∧ isFunctionName (String.ofList w) = true
  | stretch cs => cs ≠ [] ∧ (∀ c ∈ cs, isBlank c = false ∧ isSymbol c = false) ∧
      ∀ pre w post, cs = pre ++ w ++ post → IsRun (before ++ pre) w (post ++ after) →
        isFunctionName (String.ofList w) = false

/-- The text that pieces make up. -/
def textOf (ps : List Piece) : List Char := ps.flatMap text

/-- The fragments among pieces. -/
def kept (ps : List Piece) : List (List Char) := ps.filterMap fragment?

/-- The pieces stand in order behind the text `before`. Stretches are as long as possible: no two of
them are neighbours. -/
def Lined (before : List Char) : List Piece → Prop
  | [] => True
  | p :: ps =>
      p.Fits before (textOf ps) ∧ (p.isStretch = true → ∀ q ∈ ps.head?, q.isStretch = false) ∧
        Lined (before ++ p.text) ps

/-- The text is the row of these pieces. -/
structure MakeUp (ps : List Piece) (s : List Char) : Prop where
  whole : textOf ps = s
  lined : Lined [] ps

/-! ## The search for separators -/

/-- Of two neighbouring places exactly one holds a word character. The ends of a text hold none. -/
def isBoundary (left right : Option Char) : Bool := left.any isWordChar != right.any isWordChar

/-- The names of the functions, longer ones first. -/
def namesByLength : List (List Char) :=
  (functionNames.map String.toList).mergeSort fun v w => w.length ≤ v.length

/-- The name begins the text, with a word boundary on either side. -/
def standsAlone (before : Option Char) (s : List Char) (w : List Char) : Bool :=
  w.isPrefixOf s && isBoundary before s.head? && isBoundary w.getLast? (s.drop w.length).head?

/-- The separator at the beginning of the text, behind the given character: as many blanks as there
are, or else a symbol, or else the first of the names that stands alone there. -/
def separatorAt (before : Option Char) (s : List Char) : Option Piece :=
  match s with
  | [] => none
  | c :: _ =>
      if isBlank c then some (.blank (s.takeWhile isBlank))
      else if isSymbol c then some (.symbol c)
      else (namesByLength.find? (standsAlone before s)).map .name

/-- One more character in front of pieces, at which no separator starts. -/
def extend (c : Char) : List Piece → List Piece
  | stretch cs :: ps => stretch (c :: cs) :: ps
  | ps => stretch [c] :: ps

theorem mem_namesByLength {w : List Char} :
    w ∈ namesByLength ↔ isFunctionName (String.ofList w) = true := by
  unfold namesByLength isFunctionName
  rw [List.mem_mergeSort, List.mem_map, List.contains_iff_mem]
  constructor
  · rintro ⟨name, hname, rfl⟩
    rwa [String.ofList_toList]
  · intro h
    exact ⟨String.ofList w, h, String.toList_ofList⟩

/-- A separator is the beginning of the text, and not empty. -/
theorem exists_of_separatorAt {before : Option Char} {s : List Char} {p : Piece}
    (h : separatorAt before s = some p) : p.text ≠ [] ∧ ∃ rest, s = p.text ++ rest := by
  cases s with
  | nil => cases h
  | cons c s =>
    unfold separatorAt at h
    dsimp only at h
    split at h
    · next blank =>
      cases h
      refine ⟨?_, _, List.takeWhile_append_dropWhile.symm⟩
      rw [text, List.takeWhile_cons_of_pos blank]
      exact List.cons_ne_nil _ _
    split at h
    · cases h
      exact ⟨List.cons_ne_nil _ _, s, rfl⟩
    · obtain ⟨w, hw, rfl⟩ := Option.map_eq_some_iff.mp h
      have hname := mem_namesByLength.mp (List.mem_of_find?_eq_some hw)
      have found := List.find?_some hw
      simp only [standsAlone, Bool.and_eq_true, List.isPrefixOf_iff_prefix] at found
      obtain ⟨⟨⟨rest, hrest⟩, -⟩, -⟩ := found
      exact ⟨(word_of_isFunctionName hname).1, rest, hrest.symm⟩

/-- Searches a text from left to right for separators, behind the given character. -/
def scan (before : Option Char) (s : List Char) : List Piece :=
  match s with
  | [] => []
  | c :: rest =>
      match _h : separatorAt before (c :: rest) with
      | some p => p :: scan p.text.getLast? ((c :: rest).drop p.text.length)
      | none => extend c (scan (some c) rest)
termination_by s.length
decreasing_by
  · have nonempty := List.length_pos_iff.mpr (exists_of_separatorAt _h).1
    simp only [List.length_drop, List.length_cons]
    omega
  · exact Nat.lt_succ_self _

end Piece

/-! ## Runs inside a piece -/

section Runs

variable {before s t pre w post after : List Char}

/-- A maximal run is one also inside a longer text that no run joins. -/
theorem IsRun.within (h : IsRun pre w post) (hbefore : Apart before (pre ++ w ++ post))
    (hafter : Apart (pre ++ w ++ post) after) : IsRun (before ++ pre) w (post ++ after) where
  nonempty := h.nonempty
  word := h.word
  left := by
    intro c hc
    cases hpre : pre.getLast? with
    | some d =>
      rw [List.getLast?_append, hpre] at hc
      cases hc
      exact h.left c hpre
    | none =>
      rw [List.getLast?_eq_none_iff] at hpre
      subst hpre
      rw [List.append_nil] at hc
      obtain ⟨d, w, rfl⟩ := List.exists_cons_of_ne_nil h.nonempty
      cases word : isWordChar c with
      | false => rfl
      | true =>
        -- the run starts the text, so the character before it would join it
        have joined := hbefore c hc d rfl word
        rw [h.word d List.mem_cons_self] at joined
        cases joined
  right := by
    intro d hd
    cases hpost : post.head? with
    | some c =>
      rw [List.head?_append, hpost] at hd
      cases hd
      exact h.right d hpost
    | none =>
      rw [List.head?_eq_none_iff] at hpost
      subst hpost
      obtain ⟨w, c, rfl⟩ := (List.eq_nil_or_concat w).resolve_left h.nonempty
      have hlast : (pre ++ w.concat c ++ []).getLast? = some c := by simp
      exact hafter c hlast d hd (h.word c (by simp))

/-- The text holds no separator, and no maximal run in it is the name of a function. -/
structure IsPlain (s : List Char) : Prop where
  visible : ∀ c ∈ s, isBlank c = false ∧ isSymbol c = false
  nameless : ∀ pre w post, s = pre ++ w ++ post → IsRun pre w post →
    isFunctionName (String.ofList w) = false

theorem IsPlain.right (h : IsPlain (s ++ t)) (apart : Apart s t) : IsPlain t where
  visible c hc := h.visible c (List.mem_append_right _ hc)
  nameless pre w post split run := by
    subst split
    have wide : IsRun (s ++ pre) w (post ++ []) := run.within apart (apart_of_head? nofun)
    refine h.nameless (s ++ pre) w (post ++ []) ?_ wide
    simp

/-- The first run of a text, with the rest. -/
theorem exists_first_run {c : Char} (word : isWordChar c = true) (s : List Char) :
    ∃ w rest, c :: s = w ++ rest ∧ IsRun [] w rest := by
  refine ⟨(c :: s).takeWhile isWordChar, (c :: s).dropWhile isWordChar,
    List.takeWhile_append_dropWhile.symm, ?_, ?_, nofun, ?_⟩
  · rw [List.takeWhile_cons_of_pos word]
    exact List.cons_ne_nil _ _
  · intro d hd
    exact List.all_eq_true.mp List.all_takeWhile d hd
  · intro d hd
    have stops := List.head?_dropWhile_not isWordChar (c :: s)
    rw [Option.mem_def.mp hd] at stops
    simpa using stops

/-- In front of what is gathered, a text without separators and names is more of the same fragment.
The induction takes one run of the text after the other. -/
theorem gather_plain (h : IsPlain s) (g : Gathered) : gather s g = g.grow s := by
  generalize hn : s.length = n
  induction n using Nat.strongRecOn generalizing s with
  | ind n ih =>
    cases s with
    | nil => rfl
    | cons c s =>
      cases word : isWordChar c with
      | false =>
        have apart : Apart [c] s := apart_of_getLast? (by rintro _ ⟨⟩; exact word)
        have hrest := ih s.length (by simp at hn; omega)
          (IsPlain.right (s := [c]) h apart) rfl
        obtain ⟨visible, plain⟩ := h.visible c List.mem_cons_self
        rw [gather_cons word, hrest, put, visible, plain]
        rfl
      | true =>
        obtain ⟨w, rest, split, run⟩ := exists_first_run word s
        have apart : Apart w rest := apart_of_head? run.right
        have shorter : rest.length < n := by
          have := congrArg List.length split
          have := List.length_pos_iff.mpr run.nonempty
          simp at *
          omega
        rw [split] at h ⊢
        rw [gather_append apart, ih _ shorter (h.right apart) rfl, gather_word run.nonempty run.word,
          put, h.nameless [] w rest rfl run]
        simp [grow]

end Runs

namespace Piece

variable {before after : List Char} {p : Piece} {ps : List Piece}

/-! ## The fragments are the pieces without the blanks -/

theorem textOf_cons (p : Piece) (ps : List Piece) : textOf (p :: ps) = p.text ++ textOf ps := rfl

/-- A piece in front of what is gathered. -/
def put : Piece → Gathered → Gathered
  | blank _, g => g.separate
  | symbol c, g => g.putAlone [c]
  | name w, g => g.putAlone w
  | stretch cs, g => g.grow cs

theorem Fits.isPlain {cs : List Char} (h : (stretch cs).Fits before after) (hbefore : Apart before cs)
    (hafter : Apart cs after) : IsPlain cs where
  visible := h.2.1
  nameless := by
    rintro pre w post rfl run
    exact h.2.2 pre w post rfl (run.within hbefore hafter)

theorem gather_blanks {cs : List Char} (nonempty : cs ≠ []) (blank : ∀ c ∈ cs, isBlank c = true)
    (g : Gathered) : gather cs g = g.separate := by
  induction cs with
  | nil => exact absurd rfl nonempty
  | cons c cs ih =>
    rw [gather_cons_blank (blank c List.mem_cons_self)]
    cases cs with
    | nil => rfl
    | cons d cs =>
      rw [ih (List.cons_ne_nil _ _) fun e he => blank e (List.mem_cons_of_mem _ he)]
      rfl

/-- A piece is gathered as a whole where no run joins it with its neighbours. -/
theorem Fits.gather_eq (h : p.Fits before after) (hbefore : Apart before p.text)
    (hafter : Apart p.text after) (g : Gathered) : gather p.text g = p.put g := by
  cases p with
  | blank cs => exact gather_blanks h.1 h.2 g
  | symbol c => exact gather_cons_symbol h [] g
  | name w =>
    obtain ⟨run, hname⟩ := h
    rw [text, gather_word run.nonempty run.word, Gathered.put, if_pos hname]
    rfl
  | stretch cs => exact gather_plain (h.isPlain hbefore hafter) g

theorem Fits.text_ne_nil (h : p.Fits before after) : p.text ≠ [] := by
  cases p with
  | blank => exact h.1
  | symbol => exact List.cons_ne_nil _ _
  | name => exact h.1.nonempty
  | stretch => exact h.1

/-- The first character of a piece that is no stretch joins no run in front of it. -/
theorem Fits.apart_left (h : p.Fits before after) (other : p.isStretch = false) :
    Apart before p.text := by
  cases p with
  | blank cs =>
    refine apart_of_head? fun c hc => ?_
    exact isWordChar_of_isBlank (h.2 c (List.mem_of_mem_head? hc))
  | symbol c =>
    refine apart_of_head? ?_
    rintro _ ⟨⟩
    exact isWordChar_of_isSymbol h
  | name w => exact apart_of_getLast? h.1.left
  | stretch => cases other

theorem Fits.apart_right (h : p.Fits before after) (other : p.isStretch = false) :
    Apart p.text after := by
  cases p with
  | blank cs =>
    refine apart_of_getLast? fun c hc => ?_
    exact isWordChar_of_isBlank (h.2 c (List.mem_of_mem_getLast? hc))
  | symbol c =>
    refine apart_of_getLast? ?_
    rintro _ ⟨⟩
    exact isWordChar_of_isSymbol h
  | name w => exact apart_of_head? h.1.right
  | stretch => cases other

/-- No run joins a piece with those behind it. Of two neighbours one is no stretch. -/
theorem Lined.apart (h : Lined before (p :: ps)) : Apart p.text (textOf ps) := by
  obtain ⟨fits, single, lined⟩ := h
  cases stretched : p.isStretch with
  | false => exact fits.apart_right stretched
  | true =>
    cases ps with
    | nil => exact apart_of_head? nofun
    | cons q ps =>
      have apart := lined.1.apart_left (single stretched q rfl)
      refine (apart_append_right lined.1.text_ne_nil _).mpr fun c hc d hd word => ?_
      refine apart c ?_ d hd word
      rw [List.getLast?_append, Option.mem_def.mp hc]
      rfl

/-- Pieces are gathered one by one. -/
theorem Lined.gather_eq (h : Lined before ps) (hbefore : Apart before (textOf ps)) :
    gather (textOf ps) .empty = ps.foldr put .empty := by
  induction ps generalizing before with
  | nil => rfl
  | cons p ps ih =>
    have apart := h.apart
    obtain ⟨fits, -, lined⟩ := h
    rw [textOf_cons, apart_append_right fits.text_ne_nil] at hbefore
    rw [textOf_cons, gather_append apart, ih lined (apart.append_left fits.text_ne_nil before),
      fits.gather_eq hbefore apart]
    rfl

/-- Only a stretch may still grow. -/
theorem opened_put (h : p.isStretch = false) (g : Gathered) : (p.put g).opened = [] := by
  cases p with
  | stretch => cases h
  | _ => rfl

theorem fragments_foldr_put (h : Lined before ps) : (ps.foldr put .empty).fragments = kept ps := by
  induction ps generalizing before with
  | nil => rfl
  | cons p ps ih =>
    obtain ⟨fits, single, lined⟩ := h
    have hrest := ih lined
    rw [List.foldr_cons]
    cases p with
    | blank cs => exact hrest
    | symbol c => exact congrArg ([c] :: ·) hrest
    | name w => exact congrArg (w :: ·) hrest
    | stretch cs =>
      -- behind a stretch stands no other, so nothing there is open
      have hopened : (ps.foldr put .empty).opened = [] := by
        cases ps with
        | nil => rfl
        | cons q ps => exact opened_put (single rfl q rfl) _
      rw [fragments_of_opened_eq_nil hopened] at hrest
      obtain ⟨c, cs, rfl⟩ := List.exists_cons_of_ne_nil fits.1
      have grown : (put (stretch (c :: cs)) (ps.foldr put .empty)).fragments =
          (c :: cs ++ (ps.foldr put .empty).opened) :: (ps.foldr put .empty).closed := rfl
      rw [grown, hopened, List.append_nil, hrest]
      rfl

/-- The fragments of a text are its pieces without the blanks, whatever row of pieces it is. -/
theorem MakeUp.fragmentsOf_eq {s : List Char} (h : MakeUp ps s) : fragmentsOf s = kept ps := by
  obtain ⟨rfl, lined⟩ := h
  rw [Calculator.fragmentsOf_eq, lined.gather_eq (apart_of_getLast? nofun), fragments_foldr_put lined]

/-! ## The search finds a row of pieces -/

/-- A boundary in front of a word character: there is no word character before it. -/
theorem isBoundary_left {c : Char} (word : isWordChar c = true) (left : Option Char) :
    isBoundary left c = true ↔ ∀ d ∈ left, isWordChar d = false := by
  cases left <;> simp [isBoundary, word]

/-- A boundary behind a word character: there is no word character after it. -/
theorem isBoundary_right {c : Char} (word : isWordChar c = true) (right : Option Char) :
    isBoundary c right = true ↔ ∀ d ∈ right, isWordChar d = false := by
  cases right <;> simp [isBoundary, word]

/-- A name stands alone where it is a maximal run. -/
theorem standsAlone_iff {s w : List Char} (hname : isFunctionName (String.ofList w) = true) :
    standsAlone before.getLast? s w = true ↔ ∃ after, s = w ++ after ∧ IsRun before w after := by
  obtain ⟨nonempty, word⟩ := word_of_isFunctionName hname
  have boundaries (after : List Char) : isBoundary before.getLast? (w ++ after).head? = true ∧
      isBoundary w.getLast? after.head? = true ↔ IsRun before w after := by
    obtain ⟨c, u, hfirst⟩ := List.exists_cons_of_ne_nil nonempty
    obtain ⟨v, d, hlast⟩ := (List.eq_nil_or_concat w).resolve_left nonempty
    have hhead : (w ++ after).head? = some c := by rw [hfirst]; rfl
    have hend : w.getLast? = some d := by rw [hlast, List.concat_eq_append, List.getLast?_concat]
    rw [hhead, hend, isBoundary_left (word c (by simp [hfirst])),
      isBoundary_right (word d (by simp [hlast]))]
    exact ⟨fun h => ⟨nonempty, word, h.1, h.2⟩, fun run => ⟨run.left, run.right⟩⟩
  simp only [standsAlone, Bool.and_eq_true, List.isPrefixOf_iff_prefix, and_assoc]
  constructor
  · rintro ⟨⟨after, rfl⟩, h⟩
    rw [List.drop_left] at h
    exact ⟨after, rfl, (boundaries after).mp h⟩
  · rintro ⟨after, rfl, run⟩
    rw [List.drop_left]
    exact ⟨List.prefix_append w after, (boundaries after).mpr run⟩

theorem separatorAt_blank {c : Char} {s : List Char} (h : isBlank c = true) (left : Option Char) :
    separatorAt left (c :: s) = some (.blank ((c :: s).takeWhile isBlank)) := if_pos h

theorem separatorAt_symbol {c : Char} {s : List Char} (h : isSymbol c = true) (left : Option Char) :
    separatorAt left (c :: s) = some (.symbol c) := by
  unfold separatorAt
  dsimp only
  rw [if_neg (by simp [isBlank_of_isSymbol h]), if_pos h]

/-- Any other separator is a name. -/
theorem separatorAt_other {c : Char} {s : List Char} (visible : isBlank c = false)
    (plain : isSymbol c = false) (left : Option Char) : separatorAt left (c :: s) =
      (namesByLength.find? (standsAlone left (c :: s))).map .name := by
  unfold separatorAt
  dsimp only
  rw [visible, plain]
  rfl

/-- The separator that is found can stand where it is found. -/
theorem separatorAt_fits {s : List Char} (h : separatorAt before.getLast? s = some p)
    (split : s = p.text ++ after) : p.Fits before after ∧ p.isStretch = false := by
  cases s with
  | nil => cases h
  | cons c s =>
    cases blank : isBlank c with
    | true =>
      rw [separatorAt_blank blank] at h
      cases h
      refine ⟨⟨?_, fun d hd => ?_⟩, rfl⟩
      · rw [List.takeWhile_cons_of_pos blank]
        exact List.cons_ne_nil _ _
      · exact List.all_eq_true.mp List.all_takeWhile d hd
    | false =>
      cases symbol : isSymbol c with
      | true =>
        rw [separatorAt_symbol symbol] at h
        cases h
        exact ⟨symbol, rfl⟩
      | false =>
        rw [separatorAt_other blank symbol] at h
        obtain ⟨w, hw, rfl⟩ := Option.map_eq_some_iff.mp h
        have hname := mem_namesByLength.mp (List.mem_of_find?_eq_some hw)
        obtain ⟨after', split', run⟩ := (standsAlone_iff hname).mp (List.find?_some hw)
        rw [split] at split'
        obtain rfl := List.append_cancel_left split'
        exact ⟨⟨run, hname⟩, rfl⟩

/-- Where no separator is found, no name is a maximal run. -/
theorem separatorAt_none {c : Char} {s : List Char} (h : separatorAt before.getLast? (c :: s) = none) :
    (isBlank c = false ∧ isSymbol c = false) ∧ ∀ w after, c :: s = w ++ after →
      IsRun before w after → isFunctionName (String.ofList w) = false := by
  cases blank : isBlank c with
  | true =>
    rw [separatorAt_blank blank] at h
    cases h
  | false =>
    cases symbol : isSymbol c with
    | true =>
      rw [separatorAt_symbol symbol] at h
      cases h
    | false =>
      refine ⟨⟨rfl, rfl⟩, fun w after split run => ?_⟩
      cases hname : isFunctionName (String.ofList w) with
      | false => rfl
      | true =>
        rw [separatorAt_other blank symbol, Option.map_eq_none_iff, List.find?_eq_none] at h
        exact absurd ((standsAlone_iff hname).mpr ⟨after, split, run⟩)
          (h w (mem_namesByLength.mpr hname))

/-- A stretch can start one character earlier if no name stands there. -/
theorem fits_stretch_cons {c : Char} {cs : List Char} (plain : isBlank c = false ∧ isSymbol c = false)
    (nameless : ∀ w rest, c :: (cs ++ after) = w ++ rest → IsRun before w rest →
      isFunctionName (String.ofList w) = false)
    (h : cs = [] ∨ (stretch cs).Fits (before ++ [c]) after) :
    (stretch (c :: cs)).Fits before after := by
  refine ⟨List.cons_ne_nil _ _, fun d hd => ?_, fun pre w post split run => ?_⟩
  · rcases List.mem_cons.mp hd with rfl | hd
    · exact plain
    · rcases h with rfl | fits
      · cases hd
      · exact fits.2.1 d hd
  · cases pre with
    | nil =>
      rw [List.append_nil] at run
      refine nameless w (post ++ after) ?_ run
      rw [← List.cons_append, split, List.nil_append, List.append_assoc]
    | cons d pre =>
      obtain ⟨rfl, hcs⟩ := List.cons.inj split
      rcases h with rfl | fits
      · have none := List.append_eq_nil_iff.mp (List.append_eq_nil_iff.mp hcs.symm).1
        exact absurd none.2 run.nonempty
      · refine fits.2.2 pre w post hcs ?_
        rwa [List.append_assoc]

/-- A character at which no separator starts makes a stretch longer, or begins one. -/
theorem lined_extend {c : Char} (plain : isBlank c = false ∧ isSymbol c = false)
    (nameless : ∀ w rest, c :: textOf ps = w ++ rest → IsRun before w rest →
      isFunctionName (String.ofList w) = false)
    (h : Lined (before ++ [c]) ps) : Lined before (extend c ps) := by
  have fresh (other : ∀ q ∈ ps.head?, q.isStretch = false) : Lined before (stretch [c] :: ps) :=
    ⟨fits_stretch_cons plain nameless (.inl rfl), fun _ => other, h⟩
  cases ps with
  | nil => exact fresh nofun
  | cons p ps =>
    cases p with
    | stretch cs =>
      obtain ⟨fits, single, lined⟩ := h
      refine ⟨fits_stretch_cons plain nameless (.inr fits), single, ?_⟩
      rwa [List.append_assoc] at lined
    | _ => exact fresh (by rintro _ ⟨⟩; rfl)

theorem textOf_extend (c : Char) (ps : List Piece) : textOf (extend c ps) = c :: textOf ps := by
  cases ps with
  | nil => rfl
  | cons p ps => cases p <;> rfl

theorem scan_cons_of_some {left : Option Char} {c : Char} {s : List Char}
    (h : separatorAt left (c :: s) = some p) :
    scan left (c :: s) = p :: scan p.text.getLast? ((c :: s).drop p.text.length) := by
  rw [scan]
  split <;> simp_all

theorem scan_cons_of_none {left : Option Char} {c : Char} {s : List Char}
    (h : separatorAt left (c :: s) = none) :
    scan left (c :: s) = extend c (scan (some c) s) := by
  rw [scan]
  split <;> simp_all

/-- The search finds a row of pieces that make up the text. -/
theorem scan_lined (before s : List Char) :
    textOf (scan before.getLast? s) = s ∧ Lined before (scan before.getLast? s) := by
  generalize hn : s.length = n
  induction n using Nat.strongRecOn generalizing before s with
  | ind n ih =>
    cases s with
    | nil =>
      rw [scan]
      exact ⟨rfl, trivial⟩
    | cons c s =>
      cases found : separatorAt before.getLast? (c :: s) with
      | some p =>
        obtain ⟨nonempty, rest, split⟩ := exists_of_separatorAt found
        obtain ⟨fits, other⟩ := separatorAt_fits found split
        have shorter : rest.length < n := by
          have := congrArg List.length split
          have := List.length_pos_iff.mpr nonempty
          simp at *
          omega
        have hlast : p.text.getLast? = (before ++ p.text).getLast? := by
          rw [List.getLast?_append, List.getLast?_eq_some_getLast nonempty]
          rfl
        obtain ⟨whole, lined⟩ := ih _ shorter (before ++ p.text) rest rfl
        rw [scan_cons_of_some found, split, List.drop_left, hlast]
        refine ⟨by rw [textOf_cons, whole], by rwa [whole], ?_, lined⟩
        rw [other]
        nofun
      | none =>
        obtain ⟨plain, nameless⟩ := separatorAt_none found
        obtain ⟨whole, lined⟩ := ih s.length (by simp at hn; omega) (before ++ [c]) s rfl
        rw [List.getLast?_concat] at whole lined
        rw [scan_cons_of_none found, textOf_extend, whole]
        exact ⟨rfl, lined_extend plain (by rwa [whole]) lined⟩

end Piece

/-! ## All texts -/

namespace Piece

variable {before after : List Char} {p : Piece} {ps : List Piece}

/-- A piece is blank and no fragment, or it is a fragment and nothing in it is blank. -/
theorem Fits.blank_or_visible (h : p.Fits before after) :
    (p.fragment? = none ∧ ∀ c ∈ p.text, isBlank c = true) ∨
      p.fragment? = some p.text ∧ ∀ c ∈ p.text, isBlank c = false := by
  cases p with
  | blank cs => exact .inl ⟨rfl, h.2⟩
  | symbol c =>
    refine .inr ⟨rfl, fun d hd => ?_⟩
    rw [List.mem_singleton.mp hd]
    exact isBlank_of_isSymbol h
  | name w =>
    refine .inr ⟨rfl, fun c hc => ?_⟩
    cases blank : isBlank c with
    | false => rfl
    | true =>
      have word := h.1.word c hc
      rw [isWordChar_of_isBlank blank] at word
      cases word
  | stretch cs => exact .inr ⟨rfl, fun c hc => (h.2.1 c hc).1⟩

/-- The fragments hold the characters that are not blank, in order. -/
theorem Lined.flatten_kept (h : Lined before ps) :
    (kept ps).flatten = (textOf ps).filter fun c => !isBlank c := by
  induction ps generalizing before with
  | nil => rfl
  | cons p ps ih =>
    obtain ⟨fits, -, lined⟩ := h
    rw [textOf_cons, List.filter_append, ← ih lined]
    rcases fits.blank_or_visible with ⟨hp, blank⟩ | ⟨hp, visible⟩
    · have none : p.text.filter (fun c => !isBlank c) = [] :=
        List.filter_eq_nil_iff.mpr fun c hc => by simp [blank c hc]
      rw [none, kept, List.filterMap_cons_none hp]
      rfl
    · have all : p.text.filter (fun c => !isBlank c) = p.text :=
        List.filter_eq_self.mpr fun c hc => by simp [visible c hc]
      rw [all, kept, List.filterMap_cons_some hp]
      rfl

/-- No fragment is empty or holds a blank. -/
theorem Lined.visible (h : Lined before ps) :
    ∀ f ∈ kept ps, f ≠ [] ∧ ∀ c ∈ f, isBlank c = false := by
  induction ps generalizing before with
  | nil => nofun
  | cons p ps ih =>
    obtain ⟨fits, -, lined⟩ := h
    intro f hf
    rcases fits.blank_or_visible with ⟨hp, -⟩ | ⟨hp, visible⟩
    · rw [kept, List.filterMap_cons_none hp] at hf
      exact ih lined f hf
    · rw [kept, List.filterMap_cons_some hp] at hf
      rcases List.mem_cons.mp hf with rfl | hf
      · exact ⟨fits.text_ne_nil, visible⟩
      · exact ih lined f hf

/-- Every text is a row of pieces. -/
theorem scan_makeUp (s : List Char) : MakeUp (scan none s) s := by
  obtain ⟨whole, lined⟩ := scan_lined [] s
  exact ⟨whole, lined⟩

end Piece

open Piece

/-- The fragments of a text are its pieces without the blanks: every text is a row of pieces, whatever
row of pieces it is has these fragments, and the search from left to right for separators finds one.
The symbols are nine characters. The fragments hold the characters of the text that are not blank,
in order, and no fragment is empty or holds a blank. -/
theorem fragments_are_pieces (text : String) :
    (∃ ps, MakeUp ps text.toList) ∧
    (∀ ps, MakeUp ps text.toList → fragments text = (kept ps).map String.ofList) ∧
    fragments text = (kept (scan none text.toList)).map String.ofList ∧
    (∀ c, isSymbol c = true ↔ c ∈ ['(', ')', ',', '+', '-', '*', '/', '%', '^']) ∧
    (String.join (fragments text)).toList = text.toList.filter (fun c => !isBlank c) ∧
    ∀ f ∈ fragments text, f ≠ "" ∧ ∀ c ∈ f.toList, isBlank c = false := by
  have row := scan_makeUp text.toList
  have hrow (ps : List Piece) (h : MakeUp ps text.toList) :
      fragments text = (kept ps).map String.ofList := congrArg _ h.fragmentsOf_eq
  refine ⟨⟨_, row⟩, hrow, hrow _ row, fun c => isSymbol_iff, ?_, ?_⟩
  · have chars : ((kept (scan none text.toList)).map String.ofList).flatMap String.toList =
        (kept (scan none text.toList)).flatten := by
      simp [List.flatMap_map, List.flatMap_id']
    rw [hrow _ row, String.toList_join, chars, row.lined.flatten_kept, row.whole]
  · intro f hf
    rw [hrow _ row] at hf
    obtain ⟨cs, hcs, rfl⟩ := List.mem_map.mp hf
    rw [String.toList_ofList, ne_eq, String.ofList_eq_empty_iff]
    exact row.lined.visible cs hcs

end Calculator
