import LinearCalc.Parse
import LinearCalc.Proofs.Grammar.Completeness
import LinearCalc.Proofs.Grammar.Replaced

set_option autoImplicit false

/-! # Beyond the nesting limit

Whatever has a derivation is parsed, however deep it is nested: the tree is the one of the
derivation, in which every outermost term beyond `maxNesting` has become a placeholder, and each of
these terms is reported once (`parse_cut`). Nothing else is found, so that the reading goes on at
the token after each of them.
-/

namespace LinearCalc

/-- **Passing over what is nested too deeply is exact.** The tree is the one of the derivation with
the outermost terms beyond the limit replaced by placeholders that cover them, these terms are all
that is reported, and the reading goes on right after each of them. -/
theorem parse_cut (text : String) (d : Sum) (h : d.tokens = tokenize text) :
    parseText text
        = (d.treeWithin maxNesting,
            List.replicate (d.overDeep maxNesting).length .nestedTooDeeply) ∧
      d.tree.Replaced (d.treeWithin maxNesting) (extents (d.overDeep maxNesting)) ∧
      ∀ t ∈ d.overDeep maxNesting, ∀ rest last,
        passOver ⟨t.tokens ++ rest, last⟩
          = ⟨.placeholder (extent t.tokens), [.nestedTooDeeply],
              ⟨rest, (extent t.tokens).stop⟩⟩ := by
  have hchain := chain_tokens_cut d maxNesting [] noSign_nil 0
  rw [List.append_nil, h] at hchain
  refine ⟨?_, d.replaced maxNesting, ?_⟩
  · rw [parseText, parse, hchain]
    rfl
  · intro t _ rest last
    have hstop := extent_stop t.tokens_ne_nil last
    rw [passOver_tokens, hstop]

/-- Minus signs from an offset on, and the number `1` after them. -/
def Term.minuses (start : Nat) : Nat → Term
  | 0 => .number ['1'] start
  | count + 1 => .negation start (Term.minuses (start + 1) count)

/-- The derivation of 51 minus signs before `1+2`. -/
def Sum.tooManyMinuses : Sum :=
  let left : Phrase 1 := .chain (.term (Term.minuses 0 51)) .nil
  let right : Phrase 1 := .chain (.term (.number ['2'] 53)) .nil
  .chain (.chain (.chain left .nil) .nil)
    (.cons .plus rfl 52 (.chain (.chain right .nil) .nil) .nil)

theorem parse_cut_minuses :
    Sum.tooManyMinuses.tokens = tokenize (String.ofList (List.replicate 51 '-') ++ "1+2") ∧
    parseText (String.ofList (List.replicate 51 '-') ++ "1+2")
      = (Sum.tooManyMinuses.treeWithin maxNesting, [.nestedTooDeeply]) ∧
    Sum.tooManyMinuses.tree.Replaced (Sum.tooManyMinuses.treeWithin maxNesting) [⟨50, 52⟩] := by
  have htokens : Sum.tooManyMinuses.tokens
      = tokenize (String.ofList (List.replicate 51 '-') ++ "1+2") := by decide +kernel
  have hcut := parse_cut _ Sum.tooManyMinuses htokens
  exact ⟨htokens, hcut.1, hcut.2.1⟩

end LinearCalc
