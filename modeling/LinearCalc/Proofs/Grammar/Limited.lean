import LinearCalc.Proofs.Grammar.Extent

set_option autoImplicit false

/-! # Derivations cut at a nesting limit

What is left of the tree of a derivation when only `m` parentheses, matrices and minus signs may
stand inside one another (`Phrase.treeWithin`): a term that begins with one more of them is a
placeholder as wide as the tokens of the term. These terms are listed by `Phrase.overDeep`, in the
order of the text; none stands inside another one. A derivation within the limit keeps its tree
(`Phrase.treeWithin_of_nesting`).
-/

namespace LinearCalc

/-! ## The tree that is left -/

mutual

/-- The tree of a term where `m` more parentheses, matrices and minus signs may be opened. -/
def Term.treeWithin : Nat → Term → Expr Float
  | _, .number digits start => (Term.number digits start).tree
  | 0, t => .placeholder (extent t.tokens)
  | _ + 1, .negation minus (.number digits start) =>
    (Term.negation minus (.number digits start)).tree
  | m + 1, .negation minus body =>
    .binary .mul (Sign.minus.token minus).span (.number (-1) (Sign.minus.token minus).span)
      (body.treeWithin m) (extent (Term.negation minus body).tokens)
  | m + 1, .paren opening inner closing =>
    .paren (inner.treeWithin m) (extent (Term.paren opening inner closing).tokens)
  | m + 1, .matrix opening slots closing =>
    .matrix ((slots.rowsWithin m closing).1 :: (slots.rowsWithin m closing).2)
      (extent (Term.matrix opening slots closing).tokens)

/-- The tree of a phrase where `m` more may be opened. -/
def Phrase.treeWithin {n : Nat} (m : Nat) : Phrase n → Expr Float
  | .transpose start => (Phrase.transpose start).tree
  | .term t => t.treeWithin m
  | .chain first more => more.foldTreeWithin m first.tokens (first.treeWithin m)

/-- The tree of a chain, folded from the left as in `Tail.foldTree`. -/
def Tail.foldTreeWithin {n : Nat} (m : Nat) (before : List Token) (left : Expr Float) :
    Tail n → Expr Float
  | .nil => left
  | .cons sign _ start operand more =>
    more.foldTreeWithin m (before ++ sign.token start :: operand.tokens)
      (.binary sign.operator (sign.token start).span left (operand.treeWithin m)
        (extent (before ++ sign.token start :: operand.tokens)))

def Slot.elementWithin (m stop : Nat) : Slot → Expr Float
  | .empty => .placeholder (.point stop)
  | .filled content => content.treeWithin m

/-- The elements of a matrix that is closed at `closing`, row by row as in `Slots.rows`. -/
def Slots.rowsWithin (m closing : Nat) : Slots → List (Expr Float) × List (List (Expr Float))
  | .last slot => ([slot.elementWithin m closing], [])
  | .more slot .comma start rest =>
    (slot.elementWithin m start :: (rest.rowsWithin m closing).1, (rest.rowsWithin m closing).2)
  | .more slot .semicolon start rest =>
    ([slot.elementWithin m start],
      (rest.rowsWithin m closing).1 :: (rest.rowsWithin m closing).2)

end

/-! ## The terms that are cut -/

mutual

/-- The outermost terms that are nested too deeply, where `m` more may be opened. -/
def Term.overDeep : Nat → Term → List Term
  | _, .number _ _ => []
  | 0, t => [t]
  | m + 1, .negation _ body => body.overDeep m
  | m + 1, .paren _ inner _ => inner.overDeep m
  | m + 1, .matrix _ slots _ => slots.overDeep m

/-- The outermost terms of a phrase that are nested too deeply. -/
def Phrase.overDeep {n : Nat} (m : Nat) : Phrase n → List Term
  | .transpose _ => []
  | .term t => t.overDeep m
  | .chain first more => first.overDeep m ++ more.overDeep m

/-- The outermost terms in the rest of a chain that are nested too deeply. -/
def Tail.overDeep {n : Nat} (m : Nat) : Tail n → List Term
  | .nil => []
  | .cons _ _ _ operand more => operand.overDeep m ++ more.overDeep m

/-- The outermost terms of a slot that are nested too deeply. -/
def Slot.overDeep (m : Nat) : Slot → List Term
  | .empty => []
  | .filled content => content.overDeep m

/-- The outermost terms between the brackets of a matrix that are nested too deeply. -/
def Slots.overDeep (m : Nat) : Slots → List Term
  | .last slot => slot.overDeep m
  | .more slot _ _ rest => slot.overDeep m ++ rest.overDeep m

end

/-- What is reported of the terms that are cut: one diagnostic for each. -/
def tooDeep (terms : List Term) : List Diagnostic :=
  List.replicate terms.length .nestedTooDeeply

theorem tooDeep_append (a b : List Term) : tooDeep (a ++ b) = tooDeep a ++ tooDeep b := by
  simp [tooDeep, List.replicate_append_replicate]

/-- A minus multiplies what is left of any term but a number. -/
theorem Term.treeWithin_negation (minus : Nat) (body : Term) (m : Nat)
    (hnumber : ∀ digits start, body ≠ .number digits start) :
    (Term.negation minus body).treeWithin (m + 1)
      = .binary .mul (Sign.minus.token minus).span (.number (-1) (Sign.minus.token minus).span)
          (body.treeWithin m) (extent (Term.negation minus body).tokens) := by
  rw [Term.treeWithin]
  exact hnumber

/-! ## Spans -/

/-- A cut term covers the same characters as before. -/
theorem Term.span_treeWithin (t : Term) (m : Nat) : (t.treeWithin m).span = extent t.tokens := by
  cases m with
  | zero => cases t <;> rfl
  | succ m =>
      cases t with
      | number digits start => rfl
      | negation minus body => cases body <;> rfl
      | paren opening inner closing => rfl
      | matrix opening slots closing => rfl

/-- Folding a chain covers what had been folded before together with the rest of the chain. -/
theorem Tail.span_foldTreeWithin {n : Nat} (t : Tail n) (m : Nat) (before : List Token)
    (left : Expr Float) (h : left.span = extent before) :
    (t.foldTreeWithin m before left).span = extent (before ++ t.tokens) := by
  match t with
  | .nil => simpa [Tail.foldTreeWithin] using h
  | .cons sign level start operand more =>
      rw [Tail.foldTreeWithin, more.span_foldTreeWithin m _ _ rfl, Tail.tokens,
        List.append_assoc, List.cons_append]

/-- **A tree covers exactly its tokens**, whether it is cut or not. -/
theorem Phrase.span_treeWithin {n : Nat} (p : Phrase n) (m : Nat) :
    (p.treeWithin m).span = extent p.tokens := by
  match p with
  | .transpose start => rfl
  | .term t => exact t.span_treeWithin m
  | .chain first more =>
      exact more.span_foldTreeWithin m _ _ (first.span_treeWithin m)

/-! ## Derivations within the limit -/

mutual

/-- A term within the limit is not cut. -/
theorem Term.treeWithin_of_nesting (t : Term) (m : Nat) (h : t.nesting ≤ m) :
    t.treeWithin m = t.tree ∧ t.overDeep m = [] := by
  match t, m with
  | .number digits start, m => cases m <;> exact ⟨rfl, rfl⟩
  | .negation minus body, m + 1 =>
      have hbody := body.treeWithin_of_nesting m (by simpa using h)
      refine ⟨?_, hbody.2⟩
      -- a number after a minus is folded into a literal, and is no level of its own
      by_cases hnumber : ∃ digits start, body = .number digits start
      · obtain ⟨digits, start, rfl⟩ := hnumber
        rfl
      · simp only [not_exists] at hnumber
        rw [Term.treeWithin_negation minus body m hnumber, hbody.1, Term.tree]
        exact hnumber
  | .paren opening inner closing, m + 1 =>
      have hinner := inner.treeWithin_of_nesting m (by simpa using h)
      exact ⟨by rw [Term.treeWithin, hinner.1, Term.tree], hinner.2⟩
  | .matrix opening slots closing, m + 1 =>
      have hslots := slots.rowsWithin_of_nesting m closing (by simpa using h)
      exact ⟨by rw [Term.treeWithin, hslots.1, Term.tree], hslots.2⟩

/-- **A phrase within the limit is not cut.** -/
theorem Phrase.treeWithin_of_nesting {n : Nat} (p : Phrase n) (m : Nat) (h : p.nesting ≤ m) :
    p.treeWithin m = p.tree ∧ p.overDeep m = [] := by
  match p with
  | .transpose start => exact ⟨rfl, rfl⟩
  | .term t => exact t.treeWithin_of_nesting m h
  | .chain first more =>
      rw [Phrase.nesting, Nat.max_le] at h
      have hfirst := first.treeWithin_of_nesting m h.1
      have hmore := more.treeWithin_of_nesting m h.2
      constructor
      · rw [Phrase.treeWithin, Phrase.tree, hfirst.1, hmore.1]
      · rw [Phrase.overDeep, hfirst.2, hmore.2, List.nil_append]

/-- The rest of a chain within the limit is folded as before. -/
theorem Tail.treeWithin_of_nesting {n : Nat} (t : Tail n) (m : Nat) (h : t.nesting ≤ m) :
    (∀ before left, t.foldTreeWithin m before left = t.foldTree before left) ∧
      t.overDeep m = [] := by
  match t with
  | .nil => exact ⟨fun _ _ => rfl, rfl⟩
  | .cons sign level start operand more =>
      rw [Tail.nesting, Nat.max_le] at h
      have hoperand := operand.treeWithin_of_nesting m h.1
      have hmore := more.treeWithin_of_nesting m h.2
      constructor
      · intro before left
        rw [Tail.foldTreeWithin, Tail.foldTree, hoperand.1, hmore.1]
      · rw [Tail.overDeep, hoperand.2, hmore.2, List.nil_append]

/-- A slot within the limit keeps its element. -/
theorem Slot.elementWithin_of_nesting (slot : Slot) (m : Nat) (h : slot.nesting ≤ m) :
    (∀ stop, slot.elementWithin m stop = slot.element stop) ∧ slot.overDeep m = [] := by
  match slot with
  | .empty => exact ⟨fun _ => rfl, rfl⟩
  | .filled content =>
      have hcontent := content.treeWithin_of_nesting m h
      exact ⟨fun _ => hcontent.1, hcontent.2⟩

/-- Slots within the limit keep their rows. -/
theorem Slots.rowsWithin_of_nesting (slots : Slots) (m closing : Nat) (h : slots.nesting ≤ m) :
    slots.rowsWithin m closing = slots.rows closing ∧ slots.overDeep m = [] := by
  match slots with
  | .last slot =>
      have hslot := slot.elementWithin_of_nesting m h
      exact ⟨by rw [Slots.rowsWithin, Slots.rows, hslot.1], hslot.2⟩
  | .more slot separator start rest =>
      rw [Slots.nesting, Nat.max_le] at h
      have hslot := slot.elementWithin_of_nesting m h.1
      have hrest := rest.rowsWithin_of_nesting m closing h.2
      constructor
      · cases separator <;> rw [Slots.rowsWithin, Slots.rows, hslot.1, hrest.1]
      · rw [Slots.overDeep, hslot.2, hrest.2, List.nil_append]

end

/-- The tree of a term covers exactly its tokens. -/
theorem Term.span_tree (t : Term) : t.tree.span = extent t.tokens := by
  rw [← (t.treeWithin_of_nesting t.nesting (Nat.le_refl _)).1, t.span_treeWithin]

end LinearCalc
