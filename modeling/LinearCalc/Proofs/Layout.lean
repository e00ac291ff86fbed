import LinearCalc.Proofs.Layout.Readers

set_option autoImplicit false

/-! # Layout does not matter

Texts that are written with the same words in the same order have the same tree, up to places, the
same diagnostics and the same result, wherever their blanks are (`layout_irrelevant`).
-/

namespace LinearCalc

/-- How the tokens of a text are written. -/
def writtenWords (text : String) : List (String × String) := (tokenize text).map Token.written

/-- Two outcomes that show the same. Their trees may stand at different places. -/
structure Outcome.SameAs (o o' : Outcome) : Prop where
  ok : o.ok = o'.ok
  result : o.result = o'.result
  latex : o.latex = o'.latex
  diagnostics : o.diagnostics = o'.diagnostics
  error : o.error = o'.error

/-- Trees that differ in their places only have the same outcome. -/
theorem outcomeOf_sameAs (precision : Int) {tree tree' : Expr Float}
    (h : tree.erase = tree'.erase) (found : List Diagnostic) :
    (outcomeOf precision tree found).SameAs (outcomeOf precision tree' found) := by
  have hsimplify : tree.simplify.erase = tree'.simplify.erase := by
    rw [← Expr.simplify_erase, ← Expr.simplify_erase, h]
  have hinvalid : tree.simplify.isInvalid = tree'.simplify.isInvalid := by
    rw [← Expr.isInvalid_erase tree.simplify, hsimplify, Expr.isInvalid_erase]
  have htext : tree.simplify.resultText precision = tree'.simplify.resultText precision := by
    rw [← Expr.resultText_erase precision tree.simplify, hsimplify, Expr.resultText_erase]
  have hlatex : tree.simplify.resultLatex precision = tree'.simplify.resultLatex precision := by
    rw [← Expr.resultLatex_erase precision tree.simplify, hsimplify, Expr.resultLatex_erase]
  refine ⟨?_, ?_, ?_, rfl, ?_⟩
  · exact congrArg (!·) hinvalid
  · exact congrArg some htext
  · exact congrArg some hlatex
  · exact congrArg (fun b => if b then some invalidOperation else none) hinvalid

/-- Texts that are written alike are parsed alike. -/
theorem parseText_agree {s t : String} (h : writtenWords s = writtenWords t) :
    (parseText s).1.erase = (parseText t).1.erase ∧ (parseText s).2 = (parseText t).2 :=
  parse_agree ((words_eq_iff _ _).2 h)

/-- Texts that are written alike, and short enough, are evaluated alike. -/
theorem evaluate_sameAs {s t : String} (h : writtenWords s = writtenWords t)
    (hs : s.length ≤ maxLength) (ht : t.length ≤ maxLength) (precision : Int) :
    (evaluate s precision).SameAs (evaluate t precision) := by
  obtain ⟨htree, hfound⟩ := parseText_agree h
  -- the depth is seen without places, so both texts pass its check or neither does
  have hlevels : (parseText s).1.levels = (parseText t).1.levels := by
    rw [← Expr.levels_erase, htree, Expr.levels_erase]
  unfold evaluate parseWithin
  rw [if_neg (Nat.not_lt.2 hs), if_neg (Nat.not_lt.2 ht)]
  dsimp only
  rw [hlevels]
  by_cases hdeep : (parseText t).1.levels > maxLevels
  · rw [if_pos hdeep, if_pos hdeep]
    exact ⟨rfl, rfl, rfl, rfl, rfl⟩
  · rw [if_neg hdeep, if_neg hdeep]
    show (outcomeOf precision (parseText s).1 (parseText s).2).SameAs
      (outcomeOf precision (parseText t).1 (parseText t).2)
    rw [hfound]
    exact outcomeOf_sameAs precision htree _

/-- **Layout does not matter.** Texts that are written with the same words are parsed to the same
tree, up to places, with the same diagnostics, and evaluated to the same; and a text is written with
the same words after a blank, or another character that belongs to no word, is put anywhere but
inside a token. -/
theorem layout_irrelevant :
    (∀ s t : String, writtenWords s = writtenWords t →
      (parseText s).1.erase = (parseText t).1.erase ∧ (parseText s).2 = (parseText t).2 ∧
      (s.length ≤ maxLength → t.length ≤ maxLength → ∀ precision : Int,
        (evaluate s precision).SameAs (evaluate t precision))) ∧
    ∀ (text : String) (i : Nat) (c : Char),
      (∀ t ∈ tokenize text, ¬ (t.start < i ∧ i < t.stop)) → isBlank c = true ∨ ¬ Scannable c →
      writtenWords (String.ofList (insertChar c i text.toList)) = writtenWords text := by
  constructor
  · intro s t h
    obtain ⟨htree, hfound⟩ := parseText_agree h
    exact ⟨htree, hfound, fun hs ht precision => evaluate_sameAs h hs ht precision⟩
  · intro text i c houtside hc
    have hother : ¬ Scannable c := by
      rcases hc with hblank | hother
      · exact not_scannable_of_isBlank hblank
      · exact hother
    -- scanning goes on after each token as if it were the beginning, so a character outside all
    -- tokens is passed over there
    have hinsert := words_scan_insert hother 0 i text.toList
      (fun t ht hinside => houtside t ht (by omega))
    refine (words_eq_iff _ _).1 ?_
    rw [tokenize, String.toList_ofList]
    exact hinsert

/-- A blank before the second number of `1.2.3` is between two tokens. -/
theorem layout_irrelevant_points :
    (writtenWords "1.2 .3" = writtenWords "1.2.3" ∧ "1.2 .3".length ≤ maxLength ∧
      "1.2.3".length ≤ maxLength ∧ isBlank ' ' = true) ∧
    (evaluate "1.2 .3" 6).SameAs (evaluate "1.2.3" 6) := by
  have hinsert := layout_irrelevant.2 "1.2.3" 3 ' ' (by decide +kernel) (.inl (by decide))
  have hshort : "1.2 .3".length ≤ maxLength := by decide
  have hshort' : "1.2.3".length ≤ maxLength := by decide
  exact ⟨⟨hinsert, hshort, hshort', by decide⟩,
    (layout_irrelevant.1 _ _ hinsert).2.2 hshort hshort' 6⟩

end LinearCalc
