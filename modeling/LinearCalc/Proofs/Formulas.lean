import LinearCalc.Proofs.Formulas.Marks
import LinearCalc.Proofs.Formulas.Numbers
import LinearCalc.Proofs.Sources

set_option autoImplicit false

/-! # The formula of a parsed text

However malformed a text is, there is a formula of it. Its delimiters are well nested, and it has a
box for every placeholder, a fraction for every quotient, and a pair of delimiters for every
parenthesis and every matrix (`parseText_latex`). The text of a formula is put together from parts
of which each is known to be so (`Typesets`).
-/

namespace LinearCalc

def written (pieces : List Piece) : List Char := pieces.flatMap Piece.chars

theorem written_append (a b : List Piece) : written (a ++ b) = written a ++ written b :=
  List.flatMap_append

theorem written_cons (p : Piece) (pieces : List Piece) :
    written (p :: pieces) = p.chars ++ written pieces :=
  List.flatMap_cons

/-- The marks that stand for nodes. -/
def nodeMarks : List Piece := [.box, .fraction, .opening .paren, .opening .matrix]

namespace Expr

/-- The mark that stands for a node in a formula. -/
def mark? : Expr Float → Option Piece
  | placeholder _ => some .box
  | binary .div _ _ _ _ => some .fraction
  | paren _ _ => some (.opening .paren)
  | matrix _ _ => some (.opening .matrix)
  | _ => none

/-- A node that can be written: its sign is that of an operation, and its symbol is that of the
transpose. -/
def Known : Expr Float → Prop
  | symbol text _ => text = "T"
  | unsupported _ _ _ _ _ => False
  | _ => True

theorem Sourced.known {tokens : List Token} {e : Expr Float} (h : e.Sourced tokens) : e.Known := by
  cases h <;> trivial

end Expr

open LinearCalc.Expr

/-! ## Parts of a formula -/

/-- The text is part of a formula: its delimiters are well nested, and its marks are those of the
nodes. -/
structure Typesets (text : List Char) (nodes : List (Expr Float)) : Prop where
  completes : completesMarks text = true
  nested : WellNested (marksIn text)
  counts : ∀ m ∈ nodeMarks, (marksIn text).count m = nodes.countP (fun n => n.mark? == some m)

theorem Typesets.append {a b : List Char} {nodes nodes' : List (Expr Float)}
    (ha : Typesets a nodes) (hb : Typesets b nodes') : Typesets (a ++ b) (nodes ++ nodes') := by
  refine ⟨completesMarks_append ha.completes hb.completes, ?_, fun m hm => ?_⟩
  · rw [marksIn_append ha.completes]
    exact ha.nested.append hb.nested
  · rw [marksIn_append ha.completes, List.count_append, List.countP_append, ha.counts m hm,
      hb.counts m hm]

/-- Text without marks stands for no node. -/
theorem typesets_plain {text : List Char} (h : marksIn text = [] ∧ completesMarks text = true) :
    Typesets text [] := by
  refine ⟨h.2, ?_, fun m _ => ?_⟩
  · rw [h.1]
    exact .nil
  · rw [h.1]
    rfl

/-- A node without a mark changes nothing. -/
theorem Typesets.unmarked {text : List Char} {nodes : List (Expr Float)} (h : Typesets text nodes)
    {n : Expr Float} (hn : n.mark? = none) : Typesets text (n :: nodes) := by
  refine ⟨h.completes, h.nested, fun m hm => ?_⟩
  rw [List.countP_cons, hn, h.counts m hm]
  rfl

/-- A node counts for its mark. -/
theorem countP_of_mark {n : Expr Float} {p : Piece} (hn : n.mark? = some p) (m : Piece) :
    [n].countP (fun n => n.mark? == some m) = [p].count m := by
  rw [List.countP_singleton, List.count_singleton, hn]
  rfl

/-- A mark that is not a delimiter is part of a formula for its node. -/
theorem typesets_mark {p : Piece} {n : Expr Float} (hn : n.mark? = some p)
    (hmarks : marksIn p.chars = [p]) (hcompletes : completesMarks p.chars = true)
    (hnested : WellNested [p]) : Typesets p.chars [n] := by
  refine ⟨hcompletes, ?_, fun m _ => ?_⟩
  · rw [hmarks]
    exact hnested
  · rw [hmarks, countP_of_mark hn]

theorem typesets_box {n : Expr Float} (hn : n.mark? = some .box) : Typesets Piece.box.chars [n] :=
  typesets_mark hn (by decide) (by decide) (.box .nil)

theorem typesets_fraction {n : Expr Float} (hn : n.mark? = some .fraction) :
    Typesets Piece.fraction.chars [n] :=
  typesets_mark hn (by decide) (by decide) (.fraction .nil)

/-! ## Delimiters -/

/-- The braces that stand in a delimiter itself. -/
def ownBraces : Delimiter → List Piece
  | .matrix => [.opening .brace, .closing .brace]
  | _ => []

theorem wellNested_ownBraces (d : Delimiter) : WellNested (ownBraces d) := by
  cases d with
  | matrix => exact .pair .brace .nil .nil
  | brace | paren => exact .nil

theorem marksIn_opening (d : Delimiter) :
    marksIn (Piece.opening d).chars = .opening d :: ownBraces d := by
  cases d <;> decide

theorem marksIn_closing (d : Delimiter) :
    marksIn (Piece.closing d).chars = .closing d :: ownBraces d := by
  cases d <;> decide

theorem completesMarks_opening (d : Delimiter) :
    completesMarks (Piece.opening d).chars = true := by
  cases d <;> decide

theorem completesMarks_closing (d : Delimiter) :
    completesMarks (Piece.closing d).chars = true := by
  cases d <;> decide

/-- Of all the marks in a pair of delimiters only the first one can stand for a node. -/
theorem count_closing (d : Delimiter) : ∀ m ∈ nodeMarks,
    (ownBraces d).count m = 0 ∧ (Piece.closing d :: ownBraces d).count m = 0 := by
  cases d <;> decide

/-- **What stands between two delimiters is part of a formula with them.** -/
theorem Typesets.within {pieces : List Piece} {nodes : List (Expr Float)}
    (h : Typesets (written pieces) nodes) (d : Delimiter) (outer : List (Expr Float))
    (houter : ∀ m ∈ nodeMarks,
      outer.countP (fun n => n.mark? == some m) = [Piece.opening d].count m) :
    Typesets (written (Piece.within d pieces)) (outer ++ nodes) := by
  have htext : written (Piece.within d pieces)
      = (Piece.opening d).chars ++ (written pieces ++ (Piece.closing d).chars) := by
    rw [Piece.within, written_cons, written_append, written_cons]
    simp [written]
  -- a delimiter that is a command brings braces of its own, which are well nested in themselves
  have hmarks : marksIn (written (Piece.within d pieces))
      = .opening d :: ((ownBraces d ++ marksIn (written pieces))
          ++ .closing d :: ownBraces d) := by
    rw [htext, marksIn_append (completesMarks_opening d), marksIn_append h.completes,
      marksIn_opening, marksIn_closing, List.cons_append, List.append_assoc]
  constructor
  · rw [htext]
    exact completesMarks_append (completesMarks_opening d)
      (completesMarks_append h.completes (completesMarks_closing d))
  · rw [hmarks]
    exact .pair d ((wellNested_ownBraces d).append h.nested) (wellNested_ownBraces d)
  · intro m hm
    obtain ⟨hown, hclosing⟩ := count_closing d m hm
    rw [hmarks, List.countP_append, houter m hm, ← List.singleton_append, List.count_append,
      List.count_append, List.count_append, hown, hclosing, h.counts m hm, Nat.zero_add,
      Nat.add_zero]

/-- Braces stand for no node. -/
theorem Typesets.braces {pieces : List Piece} {nodes : List (Expr Float)}
    (h : Typesets (written pieces) nodes) :
    Typesets (written (Piece.within .brace pieces)) nodes := by
  refine h.within .brace [] ?_
  decide

/-! ## Words -/

theorem written_literal (text : String) : written [.literal text] = text.toList := by
  rw [written_cons]
  exact List.append_nil _

/-- No mark begins like a number. -/
theorem ordinary_of_isNumeric {c : Char} (h : IsNumeric c) : Ordinary c := by
  have hheads : ∀ m ∈ allMarks, m.chars.head?.all (fun c => decide (¬ IsNumeric c)) = true := by
    decide
  intro m hm hhead
  exact of_decide_eq_true ((Option.all_eq_true _ _).1 (hheads m hm) c hhead) h

/-- **A number has no marks.** -/
theorem typesets_number (v : Float) :
    Typesets (written [.literal (numberText defaultPrecision v)]) [] := by
  have hwords : ∀ word ∈ ["nan", "inf", "-inf"],
      word.toList.all (fun c => decide (Ordinary c)) = true := by decide
  have hprecision : numberText defaultPrecision v = significantText 6 v := if_pos (by decide)
  rw [written_literal, hprecision]
  apply typesets_plain
  apply marksIn_ordinary
  intro c hc
  rcases significantText_chars 6 v with hword | hchars
  · exact of_decide_eq_true (List.all_eq_true.1 (hwords _ hword) c hc)
  · exact ordinary_of_isNumeric (hchars c hc)

theorem typesets_symbol : Typesets (written (symbolPieces "T")) [] := by
  have hname : Typesets (written [.literal "\\mathsf"]) [] := typesets_plain (by decide)
  have hletter : Typesets (written [.literal "T"]) [] := typesets_plain (by decide)
  have htext : written (symbolPieces "T")
      = written [.literal "\\mathsf"] ++ written (Piece.within .brace [.literal "T"]) :=
    written_append [.literal "\\mathsf"] _
  rw [htext]
  exact hname.append hletter.braces

/-- Two parts of a formula with a word between them that has no marks. -/
theorem Typesets.join {a b : List Piece} {nodes nodes' : List (Expr Float)}
    (ha : Typesets (written a) nodes) (hb : Typesets (written b) nodes') (word : String)
    (hword : marksIn word.toList = [] ∧ completesMarks word.toList = true) :
    Typesets (written (a ++ .literal word :: b)) (nodes ++ nodes') := by
  have htext : written (a ++ .literal word :: b) = written a ++ (word.toList ++ written b) := by
    rw [written_append, written_cons]
    rfl
  rw [htext]
  exact ha.append ((typesets_plain hword).append hb)

/-! ## Trees -/

/-- The formula of an operation is put together from those of its operands. -/
theorem typesets_operation {op : Operator} {os s : Span} {left right : Expr Float}
    {a b : List Piece} (ha : Typesets (written a) left.preorder)
    (hb : Typesets (written b) right.preorder) :
    Typesets (written (operationPieces op a b)) (binary op os left right s).preorder := by
  have hsign : ∀ op : Operator,
      marksIn (" " ++ op.formulaSign ++ " ").toList = [] ∧
        completesMarks (" " ++ op.formulaSign ++ " ").toList = true := by
    intro op
    cases op <;> decide
  rw [preorder]
  cases op with
  -- a quotient is the only operation that is written before its operands
  | div =>
      have htext : written (operationPieces .div a b) = Piece.fraction.chars
          ++ (written (Piece.within .brace a) ++ written (Piece.within .brace b)) := by
        rw [operationPieces, written_cons, written_append]
      rw [htext]
      exact (typesets_fraction rfl).append (ha.braces.append hb.braces)
  | pow => exact (ha.braces.join hb.braces "^" (by decide)).unmarked rfl
  | add => exact (ha.join hb _ (hsign .add)).unmarked rfl
  | sub => exact (ha.join hb _ (hsign .sub)).unmarked rfl
  | mul => exact (ha.join hb _ (hsign .mul)).unmarked rfl
  | dot => exact (ha.join hb _ (hsign .dot)).unmarked rfl
  | cross => exact (ha.join hb _ (hsign .cross)).unmarked rfl

mutual

/-- **A tree of known nodes has a formula with just their marks.** -/
theorem exists_formula (e : Expr Float) (h : ∀ n ∈ e.preorder, n.Known) :
    ∃ pieces, e.formula = .ok pieces ∧ Typesets (written pieces) e.preorder := by
  match e with
  | number v s => exact ⟨_, rfl, (typesets_number v).unmarked rfl⟩
  | symbol text s =>
      -- the only symbol that a parsed tree has is the mark of a transpose
      have htext : text = "T" := h _ List.mem_cons_self
      subst htext
      exact ⟨_, rfl, typesets_symbol.unmarked rfl⟩
  | placeholder s =>
      refine ⟨_, rfl, ?_⟩
      have htext : written [.box] = Piece.box.chars := List.append_nil _
      rw [htext]
      exact typesets_box rfl
  | paren inner s =>
      obtain ⟨pieces, hpieces, htypesets⟩ :=
        exists_formula inner (fun n hn => h n (List.mem_cons_of_mem _ hn))
      refine ⟨_, by rw [formula, hpieces]; rfl, ?_⟩
      exact htypesets.within .paren [paren inner s] (fun m _ => countP_of_mark rfl m)
  | matrix rows s =>
      obtain ⟨pieces, hpieces, htypesets⟩ :=
        exists_formulaRows rows (fun n hn => h n (List.mem_cons_of_mem _ hn))
      refine ⟨_, by rw [formula, hpieces]; rfl, ?_⟩
      exact htypesets.within .matrix [matrix rows s] (fun m _ => countP_of_mark rfl m)
  | binary op os left right s =>
      obtain ⟨a, hleft, ha⟩ := exists_formula left
        (fun n hn => h n (List.mem_cons_of_mem _ (List.mem_append_left _ hn)))
      obtain ⟨b, hright, hb⟩ := exists_formula right
        (fun n hn => h n (List.mem_cons_of_mem _ (List.mem_append_right _ hn)))
      exact ⟨_, by rw [formula, hleft, hright]; rfl, typesets_operation ha hb⟩
  | unsupported sign os left right s => exact absurd (h _ List.mem_cons_self) id

theorem exists_formulaRows (rows : List (List (Expr Float)))
    (h : ∀ n ∈ preorderRows rows, n.Known) :
    ∃ pieces, formulaRows rows = .ok pieces ∧ Typesets (written pieces) (preorderRows rows) := by
  match rows with
  | [] => exact ⟨[], rfl, typesets_plain ⟨rfl, rfl⟩⟩
  | [row] =>
      obtain ⟨pieces, hpieces, htypesets⟩ :=
        exists_formulaRow row (fun n hn => h n (List.mem_append_left _ hn))
      refine ⟨pieces, hpieces, ?_⟩
      rw [preorderRows, preorderRows, List.append_nil]
      exact htypesets
  | row :: next :: more =>
      obtain ⟨a, hrow, ha⟩ := exists_formulaRow row (fun n hn => h n (List.mem_append_left _ hn))
      obtain ⟨b, hmore, hb⟩ := exists_formulaRows (next :: more)
        (fun n hn => h n (List.mem_append_right _ hn))
      -- a separator is written only between two rows, so a single row is a case of its own
      refine ⟨_, ?_, ha.join hb " \\\\ " (by decide)⟩
      rw [formulaRows, hrow, hmore]
      · rfl
      · exact List.cons_ne_nil next more

theorem exists_formulaRow (row : List (Expr Float)) (h : ∀ n ∈ preorderRow row, n.Known) :
    ∃ pieces, formulaRow row = .ok pieces ∧ Typesets (written pieces) (preorderRow row) := by
  match row with
  | [] => exact ⟨[], rfl, typesets_plain ⟨rfl, rfl⟩⟩
  | [e] =>
      obtain ⟨pieces, hpieces, htypesets⟩ :=
        exists_formula e (fun n hn => h n (List.mem_append_left _ hn))
      refine ⟨pieces, hpieces, ?_⟩
      rw [preorderRow, preorderRow, List.append_nil]
      exact htypesets
  | e :: next :: more =>
      obtain ⟨a, he, ha⟩ := exists_formula e (fun n hn => h n (List.mem_append_left _ hn))
      obtain ⟨b, hmore, hb⟩ := exists_formulaRow (next :: more)
        (fun n hn => h n (List.mem_append_right _ hn))
      refine ⟨_, ?_, ha.join hb " & " (by decide)⟩
      rw [formulaRow, he, hmore]
      · rfl
      · exact List.cons_ne_nil next more

end

/-- The text of a formula is that of its pieces. -/
theorem latex_eq {e : Expr Float} {pieces : List Piece} (h : e.formula = .ok pieces) :
    ∃ latex, e.latex = .ok latex ∧ latex.toList = written pieces := by
  refine ⟨String.join (pieces.map Piece.text), ?_, ?_⟩
  · rw [Expr.latex, h]
    rfl
  · rw [String.toList_join, List.flatMap_map]
    rfl

/-- **The formula of every text is complete and well nested.** There is one, whatever the text is;
each delimiter in it closes the last one still open; and there are as many boxes, fractions, and
delimiters of parentheses and matrices in it as there are placeholders, quotients, parentheses and
matrices in the tree. The marks are looked for in the characters of the formula, so that this says
as well that no number and no name in it contains a mark by chance. -/
theorem parseText_latex (text : String) :
    ∃ latex, (parseText text).1.latex = .ok latex ∧ WellNested (marksIn latex.toList) ∧
      ∀ m ∈ nodeMarks, occurrences m.chars latex.toList
        = (parseText text).1.preorder.countP (fun n => n.mark? == some m) := by
  have hknown : ∀ n ∈ (parseText text).1.preorder, n.Known :=
    fun n hn => ((parse_built (tokenize_follow text)).allSourced n hn).known
  obtain ⟨pieces, hpieces, htypesets⟩ := exists_formula (parseText text).1 hknown
  obtain ⟨latex, hlatex, htext⟩ := latex_eq hpieces
  rw [← htext] at htypesets
  refine ⟨latex, hlatex, htypesets.nested, fun m hm => ?_⟩
  have hmark : ∀ m ∈ nodeMarks, m ∈ allMarks := by decide
  rw [← count_marksIn (hmark m hm)]
  exact htypesets.counts m hm

end LinearCalc
