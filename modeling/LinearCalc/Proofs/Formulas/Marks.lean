import LinearCalc.Render.Formula

set_option autoImplicit false

/-! # The marks of a formula

What gives a formula its structure are the marks in its text: the delimiters, the signs of fractions
and the boxes. They are found in a text at every position where one of them stands (`marksIn`). In a
text that is put together they are those of its parts, as long as no part ends in the middle of a
mark (`marksIn_append`). Delimiters are well nested when each closes the last one that is open
(`WellNested`).
-/

namespace LinearCalc

/-! ## Marks in a text -/

/-- The pieces that are looked for in a text. None of them begins with another one. -/
def allMarks : List Piece :=
  [.opening .brace, .closing .brace, .opening .paren, .closing .paren, .opening .matrix,
    .closing .matrix, .fraction, .box]

def Piece.chars (p : Piece) : List Char := p.text.toList

def firstMark? (text : List Char) : Option Piece :=
  allMarks.find? (fun m => m.chars.isPrefixOf text)

/-- The marks of a text in the order in which they begin. Every brace is one of them, also in
`\begin{bmatrix}`. -/
def marksIn : List Char → List Piece
  | [] => []
  | c :: rest => (firstMark? (c :: rest)).toList ++ marksIn rest

/-- How often a pattern stands in a text. -/
def occurrences (pattern : List Char) : List Char → Nat
  | [] => 0
  | c :: rest => (if pattern.isPrefixOf (c :: rest) then 1 else 0) + occurrences pattern rest

/-- The text is a beginning of the mark, and not all of it. -/
def breaksOff (text : List Char) (m : Piece) : Bool :=
  text.isPrefixOf m.chars && decide (text.length < m.chars.length)

/-- No mark begins in the text that what follows could complete. -/
def completesMarks : List Char → Bool
  | [] => true
  | c :: rest => !allMarks.any (breaksOff (c :: rest)) && completesMarks rest

/-! ## Counting -/

theorem isPrefixOf_of_firstMark? {text : List Char} {m : Piece} (h : firstMark? text = some m) :
    m.chars.isPrefixOf text = true := by
  unfold firstMark? at h
  have hprefix := List.find?_some h
  exact hprefix

/-- Only one mark stands at a position. -/
theorem firstMark?_eq_some_iff {text : List Char} {m : Piece} (hm : m ∈ allMarks) :
    firstMark? text = some m ↔ m.chars.isPrefixOf text = true := by
  have hapart : ∀ a ∈ allMarks, ∀ b ∈ allMarks, a.chars.isPrefixOf b.chars = true → a = b := by
    decide
  constructor
  · exact isPrefixOf_of_firstMark?
  · intro hprefix
    cases hfirst : firstMark? text with
    | none => exact absurd hprefix (List.find?_eq_none.1 hfirst m hm)
    | some first =>
        have hmem : first ∈ allMarks := List.mem_of_find?_eq_some hfirst
        have hprefix' := isPrefixOf_of_firstMark? hfirst
        rw [List.isPrefixOf_iff_prefix] at hprefix hprefix'
        -- of two marks at one position the one would begin with the other
        rcases List.prefix_or_prefix_of_prefix hprefix' hprefix with h | h
        · rw [hapart first hmem m hm (List.isPrefixOf_iff_prefix.2 h)]
        · rw [hapart m hm first hmem (List.isPrefixOf_iff_prefix.2 h)]

/-- **A mark is found as often as it stands in the text.** -/
theorem count_marksIn {m : Piece} (hm : m ∈ allMarks) (text : List Char) :
    (marksIn text).count m = occurrences m.chars text := by
  induction text with
  | nil => rfl
  | cons c rest ih =>
      rw [marksIn, occurrences, List.count_append, ih]
      congr 1
      by_cases hfirst : firstMark? (c :: rest) = some m
      · rw [if_pos ((firstMark?_eq_some_iff hm).1 hfirst), hfirst]
        exact List.count_singleton_self
      · rw [if_neg (fun hprefix => hfirst ((firstMark?_eq_some_iff hm).2 hprefix))]
        refine List.count_eq_zero.2 (fun hmem => hfirst ?_)
        exact Option.mem_toList.1 hmem

/-! ## Parts of a text -/

theorem isPrefixOf_append {text rest : List Char} {m : Piece} (h : breaksOff text m = false) :
    m.chars.isPrefixOf (text ++ rest) = m.chars.isPrefixOf text := by
  rw [Bool.eq_iff_iff, List.isPrefixOf_iff_prefix, List.isPrefixOf_iff_prefix]
  constructor
  · intro hprefix
    -- the mark ends in the text, or else the text breaks off in the mark
    rcases List.prefix_or_prefix_of_prefix hprefix (List.prefix_append text rest) with hin | hover
    · exact hin
    · by_cases hlength : text.length < m.chars.length
      · rw [breaksOff, List.isPrefixOf_iff_prefix.2 hover, decide_eq_true hlength] at h
        cases h
      · exact (hover.eq_of_length_le (Nat.le_of_not_lt hlength)).symm ▸ List.prefix_refl _
  · intro hprefix
    exact hprefix.trans (List.prefix_append text rest)

theorem firstMark?_append {text rest : List Char} (h : allMarks.any (breaksOff text) = false) :
    firstMark? (text ++ rest) = firstMark? text := by
  unfold firstMark?
  rw [← List.head?_filter, ← List.head?_filter]
  congr 1
  refine List.filter_congr (fun m hm => isPrefixOf_append ?_)
  exact Bool.eq_false_iff.2 (fun hbreaks => List.any_eq_false.1 h m hm hbreaks)

/-- **The marks of a text are those of its parts.** -/
theorem marksIn_append {text : List Char} (h : completesMarks text = true) (rest : List Char) :
    marksIn (text ++ rest) = marksIn text ++ marksIn rest := by
  induction text with
  | nil => rfl
  | cons c text ih =>
      rw [completesMarks, Bool.and_eq_true, Bool.not_eq_true'] at h
      rw [List.cons_append, marksIn, marksIn, ih h.2, ← List.cons_append, firstMark?_append h.1,
        List.append_assoc]

theorem completesMarks_append {text rest : List Char} (h : completesMarks text = true)
    (hrest : completesMarks rest = true) : completesMarks (text ++ rest) = true := by
  induction text with
  | nil => exact hrest
  | cons c text ih =>
      rw [completesMarks, Bool.and_eq_true, Bool.not_eq_true'] at h
      rw [List.cons_append, completesMarks, ih h.2, Bool.and_true, Bool.not_eq_true',
        List.any_eq_false]
      intro m hm hbreaks
      -- where more text breaks off, less of it does too
      rw [breaksOff, Bool.and_eq_true, decide_eq_true_eq, List.isPrefixOf_iff_prefix] at hbreaks
      refine List.any_eq_false.1 h.1 m hm ?_
      rw [breaksOff, Bool.and_eq_true, decide_eq_true_eq, List.isPrefixOf_iff_prefix]
      refine ⟨(List.prefix_append (c :: text) rest).trans hbreaks.1, ?_⟩
      have hlength := hbreaks.2
      rw [← List.cons_append, List.length_append] at hlength
      omega

/-- A character that no mark begins with. -/
def Ordinary (c : Char) : Prop := ∀ m ∈ allMarks, m.chars.head? ≠ some c

instance (c : Char) : Decidable (Ordinary c) :=
  inferInstanceAs (Decidable (∀ m ∈ allMarks, m.chars.head? ≠ some c))

theorem chars_ne_nil : ∀ m ∈ allMarks, m.chars ≠ [] := by decide

theorem head?_eq_of_begins {a b : List Char} (h : a <+: b) (hne : a ≠ []) : a.head? = b.head? := by
  obtain ⟨rest, rfl⟩ := h
  obtain ⟨c, more, rfl⟩ := List.exists_cons_of_ne_nil hne
  rfl

/-- There is no mark where ordinary characters stand, and none begins there. -/
theorem marksIn_ordinary {text : List Char} (h : ∀ c ∈ text, Ordinary c) :
    marksIn text = [] ∧ completesMarks text = true := by
  induction text with
  | nil => exact ⟨rfl, rfl⟩
  | cons c text ih =>
      obtain ⟨hmarks, hcompletes⟩ := ih (fun d hd => h d (List.mem_cons_of_mem c hd))
      have hordinary := h c List.mem_cons_self
      refine ⟨?_, ?_⟩
      -- every mark has a first character, and that one would be ordinary
      · have hfirst : firstMark? (c :: text) = none := by
          refine List.find?_eq_none.2 (fun m hm hprefix => hordinary m hm ?_)
          rw [List.isPrefixOf_iff_prefix] at hprefix
          exact head?_eq_of_begins hprefix (chars_ne_nil m hm)
        rw [marksIn, hfirst, hmarks]
        rfl
      · rw [completesMarks, hcompletes, Bool.and_true, Bool.not_eq_true', List.any_eq_false]
        intro m hm hbreaks
        rw [breaksOff, Bool.and_eq_true, List.isPrefixOf_iff_prefix] at hbreaks
        exact hordinary m hm (head?_eq_of_begins hbreaks.1 (List.cons_ne_nil c text)).symm

/-! ## Nesting -/

/-- Each closing delimiter closes the last one that is still open. -/
inductive WellNested : List Piece → Prop where
  | nil : WellNested []
  | pair (d : Delimiter) {inner rest : List Piece} (hinner : WellNested inner)
      (hrest : WellNested rest) : WellNested (.opening d :: (inner ++ .closing d :: rest))
  | fraction {rest : List Piece} (hrest : WellNested rest) : WellNested (.fraction :: rest)
  | box {rest : List Piece} (hrest : WellNested rest) : WellNested (.box :: rest)

theorem WellNested.append {a b : List Piece} (ha : WellNested a) (hb : WellNested b) :
    WellNested (a ++ b) := by
  induction ha with
  | nil => exact hb
  | pair d hinner hrest ihinner ihrest =>
      rw [List.cons_append, List.append_assoc, List.cons_append]
      exact .pair d hinner ihrest
  | fraction hrest ih => exact .fraction ih
  | box hrest ih => exact .box ih

end LinearCalc
