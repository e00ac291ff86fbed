import LinearCalc.Parse
import LinearCalc.Proofs.Grammar.Completeness
import LinearCalc.Proofs.Grammar.Soundness
import LinearCalc.Proofs.Grammar.Unambiguous
import LinearCalc.Proofs.Levels

set_option autoImplicit false

/-! # What the parser accepts

The parser has nothing to find fault with exactly when the text has a derivation, and then the
tree is the one of that derivation, of which there is only one (`parse_exact`). What
`validate` adds to this are the limits on the length of a text and on the levels of its tree.
-/

namespace LinearCalc

/-- The derivation spells out these tokens, with at most `maxNesting` parentheses, matrices and
minus signs inside one another. -/
def Sum.Derives (d : Sum) (tokens : List Token) : Prop :=
  d.tokens = tokens ∧ d.nesting ≤ maxNesting

/-- Parsing the tokens of a derivation gives its tree. -/
theorem Sum.Derives.parse {d : Sum} {tokens : List Token} (h : d.Derives tokens) :
    parse tokens = (d.tree, []) := by
  have hchain := chain_tokens d maxNesting h.2 [] noSign_nil 0
  rw [List.append_nil, h.1] at hchain
  rw [LinearCalc.parse, hchain]

/-- Tokens that are parsed without a diagnostic have a derivation. -/
theorem exists_derives_of_parse {tokens : List Token} (h : (parse tokens).2 = []) :
    ∃ d : Sum, d.Derives tokens := by
  have hsound := chain_derives maxNesting ⟨tokens, 0⟩
  unfold parse at h
  generalize chain (operandReader maxNesting) ⟨tokens, 0⟩ = whole at h hsound
  obtain ⟨value, diagnostics, ⟨rest, last⟩⟩ := whole
  cases rest with
  | nil =>
      obtain ⟨d, hnesting, htokens⟩ := hsound h
      refine ⟨d, ?_, hnesting⟩
      simpa using htokens.symm
  | cons token rest => simp at h

theorem Sum.Derives.unique {d d' : Sum} {tokens : List Token} (h : d.Derives tokens)
    (h' : d'.tokens = tokens) : d' = d :=
  Phrase.tokens_injective (h'.trans h.1.symm)

theorem parse_eq_nil_iff (tokens : List Token) :
    (parse tokens).2 = [] ↔ ∃ d : Sum, d.Derives tokens := by
  constructor
  · exact exists_derives_of_parse
  · rintro ⟨d, hd⟩
    rw [hd.parse]

/-- A text is valid when it is not too long, has no diagnostics, and its tree is not too deep. -/
theorem validate_eq_iff (text : String) :
    validate text = (true, []) ↔ text.length ≤ maxLength ∧ (parseText text).2 = [] ∧
      (parseText text).1.depth ≤ maxLevels := by
  rw [← Expr.levels_eq_depth]
  unfold validate parseWithin
  -- in the order of the checks: the length, then the depth, then the diagnostics
  by_cases hlength : text.length > maxLength
  · simp only [hlength, if_true]
    constructor
    · intro h
      cases h
    · rintro ⟨h, -⟩
      omega
  · by_cases hlevels : (parseText text).1.levels > maxLevels
    · simp only [hlength, hlevels, if_true, if_false]
      constructor
      · intro h
        cases h
      · rintro ⟨-, -, h⟩
        omega
    · simp only [hlength, hlevels, if_false, Prod.mk.injEq, List.isEmpty_iff,
        List.map_eq_nil_iff, and_self]
      constructor
      · intro h
        exact ⟨by omega, h, by omega⟩
      · rintro ⟨-, h, -⟩
        exact h

/-- **The parser accepts exactly its grammar.** Nothing is found wrong with a text just when its
tokens have a derivation in which at most `maxNesting` parentheses, matrices and minus signs stand
inside one another. Such tokens have no second derivation, and the tree of the one they have is what
is parsed. A text is valid just when, besides, it is not too long and this tree not too deep. -/
theorem parse_exact (text : String) :
    ((parseText text).2 = [] ↔ ∃ d : Sum, d.Derives (tokenize text)) ∧
    (∀ d : Sum, d.Derives (tokenize text) → (parseText text).1 = d.tree ∧
      ∀ d' : Sum, d'.tokens = tokenize text → d' = d) ∧
    (validate text = (true, []) ↔ text.length ≤ maxLength ∧
      ∃ d : Sum, d.Derives (tokenize text) ∧ d.tree.depth ≤ maxLevels) := by
  refine ⟨parse_eq_nil_iff _, ?_, ?_⟩
  · intro d hd
    refine ⟨?_, fun d' hd' => hd.unique hd'⟩
    rw [parseText, hd.parse]
  · rw [validate_eq_iff, parseText, parse_eq_nil_iff]
    constructor
    · rintro ⟨hlength, ⟨d, hd⟩, hdepth⟩
      rw [hd.parse] at hdepth
      exact ⟨hlength, d, hd, hdepth⟩
    · rintro ⟨hlength, d, hd, hdepth⟩
      refine ⟨hlength, ⟨d, hd⟩, ?_⟩
      rwa [hd.parse]

/-- The derivation of `[-(1),]`: a nested minus, and a slot left empty. -/
def Sum.bracketed : Sum :=
  let one : Phrase 1 := .chain (.term (.number ['1'] 3)) .nil
  let inner : Sum := .chain (.chain (.chain one .nil) .nil) .nil
  let minus : Phrase 1 := .chain (.term (.negation 1 (.paren 2 inner 4))) .nil
  let filled : Sum := .chain (.chain (.chain minus .nil) .nil) .nil
  let whole : Phrase 1 :=
    .chain (.term (.matrix 0 (.more (.filled filled) .comma 5 (.last .empty)) 6)) .nil
  .chain (.chain (.chain whole .nil) .nil) .nil

theorem parse_exact_bracketed :
    Sum.bracketed.Derives (tokenize "[-(1),]") ∧ (parseText "[-(1),]").1 = Sum.bracketed.tree := by
  have hderives : Sum.bracketed.Derives (tokenize "[-(1),]") :=
    ⟨by decide +kernel, by decide +kernel⟩
  exact ⟨hderives, ((parse_exact "[-(1),]").2.1 Sum.bracketed hderives).1⟩

end LinearCalc
