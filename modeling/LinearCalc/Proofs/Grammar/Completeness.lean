import LinearCalc.Proofs.Grammar.Flat
import LinearCalc.Proofs.Grammar.Skipping

set_option autoImplicit false

/-! # Derivations are read

Reading the tokens of a derivation at a nesting limit gives its tree cut at that limit, finds just
the terms that are cut, and stops right after its last token (`Term.read_tokens`). A derivation
within the limit is read as its tree, without a finding (`chain_tokens`). The statements quantify
over the tokens that follow, since phrases are read inside one another.
-/

namespace LinearCalc

/-- A chain whose operands are those of a whole expression is read as its tree. -/
theorem chain_of_read (operand : OperandReader) (start : Cursor) {p : Sum} {m : Nat} {c : Cursor}
    {found more : List Diagnostic} {rest : List Token} {stop : Nat}
    (hread : operand.read none start = ⟨(p.flat m).1, found, c⟩)
    (hlinks : links operand c.last c.rest
      = ((links operand stop rest).map ((p.flat m).2 ++ ·)).precededBy more)
    (hrest : NoSign rest) :
    chain operand start = ⟨p.treeWithin m, found ++ more, ⟨rest, stop⟩⟩ := by
  rw [links_of_noSign operand stop hrest] at hlinks
  simp only [chain, hread, hlinks, ← assemble_flat p m]
  simp

/-- A minus multiplies any term after it that is not a number. -/
theorem read_negation_term (m : Nat) (after : Option Nat) (minus : Nat) (body : Term)
    (rest : List Token) (last : Nat) {found : List Diagnostic} {c : Cursor}
    (hnumber : ∀ digits start, body ≠ .number digits start)
    (h : (operandReader m).read none (.after (Sign.minus.token minus) (body.tokens ++ rest))
      = ⟨body.treeWithin m, found, c⟩) :
    (operandReader (m + 1)).read after ⟨Sign.minus.token minus :: (body.tokens ++ rest), last⟩
      = ⟨(Term.negation minus body).treeWithin (m + 1), found, c⟩ := by
  have hextent : extent (Sign.minus.token minus :: body.tokens)
      = ⟨minus, (body.treeWithin m).span.stop⟩ := by
    rw [extent_cons _ body.tokens_ne_nil, body.span_treeWithin]
    rfl
  -- the parser looks at the next token only: all terms but a number begin with one that it reads as
  -- an operand
  have hread : (operandReader (m + 1)).read after
      ⟨Sign.minus.token minus :: (body.tokens ++ rest), last⟩
        = .negation minus ⟨body.treeWithin m, found, c⟩ := by
    cases body with
    | number digits start => exact absurd rfl (hnumber digits start)
    | negation _ _ => exact read_negation m after minus _ last rfl h
    | paren _ _ _ => exact read_negation m after minus _ last rfl h
    | matrix _ _ _ => exact read_negation m after minus _ last rfl h
  rw [hread, Term.treeWithin_negation minus body m hnumber, Term.tokens, hextent]
  rfl

/-! ## Slots -/

def Separator.item (s : Separator) (start : Nat) : Item :=
  match s with
  | .comma => .comma (s.mark.token start).span
  | .semicolon => .semicolon (s.mark.token start).span

def Slot.items (m : Nat) : Slot → List Item
  | .empty => []
  | .filled content => [.element (content.treeWithin m)]

def Slots.items (m : Nat) : Slots → List Item
  | .last slot => slot.items m
  | .more slot separator start rest =>
    slot.items m ++ separator.item start :: rest.items m

theorem Separator.separates (s : Separator) (start : Nat) :
    (s.mark.token start).Separates (s.item start) := by
  cases s with
  | comma => exact .comma start
  | semicolon => exact .semicolon start

/-- A word that starts an operand does not separate. -/
theorem Lexeme.role_of_startsOperand {l : Lexeme} (h : l.startsOperand = true) :
    l.role = .expression := by
  grind

/-- The items of a slot are found in it. -/
theorem Slot.exists_found (slot : Slot) (m : Nat) :
    ∃ found, (∀ stop, slotElement found stop = slot.elementWithin m stop) ∧
      ∀ stop items, fillSlots stop none (slot.items m ++ items) = fillSlots stop found items := by
  cases slot with
  | empty => exact ⟨none, fun _ => rfl, fun _ _ => rfl⟩
  | filled content =>
      refine ⟨some (content.treeWithin m), fun _ => rfl, ?_⟩
      intro stop items
      rw [Slot.items, List.singleton_append, fillSlots]

/-- Filling the slots from their items gives the rows of a derivation. -/
theorem Slots.fillSlots_items (slots : Slots) (m closing : Nat) :
    fillSlots closing none (slots.items m) = slots.rowsWithin m closing := by
  -- the recursion is on the derivation: a separator closes the slot before it, and the last slot is
  -- closed by the bracket
  match slots with
  | .last slot =>
      obtain ⟨found, helement, hfill⟩ := slot.exists_found m
      have hitems := hfill closing []
      rw [List.append_nil] at hitems
      rw [Slots.items, hitems, fillSlots, helement, Slots.rowsWithin]
  | .more slot .comma start rest =>
      obtain ⟨found, helement, hfill⟩ := slot.exists_found m
      have ih := rest.fillSlots_items m closing
      rw [Slots.items, hfill, Separator.item, fillSlots, ih, helement, Slots.rowsWithin]
      rfl
  | .more slot .semicolon start rest =>
      obtain ⟨found, helement, hfill⟩ := slot.exists_found m
      have ih := rest.fillSlots_items m closing
      rw [Slots.items, hfill, Separator.item, fillSlots, ih, helement, Slots.rowsWithin]
      rfl

/-- No slot of a derivation holds more than one expression. -/
theorem Slots.surplus_items (slots : Slots) (m : Nat) : surplus false (slots.items m) = 0 := by
  match slots with
  | .last .empty => rfl
  | .last (.filled content) => rfl
  | .more slot separator start rest =>
      have ih := rest.surplus_items m
      cases slot <;> cases separator <;>
        simp [Slots.items, Slot.items, Separator.item, surplus, ih]

/-- The matrix of the items of a derivation is its tree. -/
theorem matrix_items (opening : Nat) (slots : Slots) (m : Nat) (found : List Diagnostic)
    (closing : Nat) (c : Cursor) :
    Reading.matrix opening
        ⟨(slots.items m, some (Mark.closeBracket.token closing)), found, c⟩
      = ⟨.matrix ((slots.rowsWithin m closing).1 :: (slots.rowsWithin m closing).2)
          ⟨opening, (Mark.closeBracket.token closing).stop⟩, found, c⟩ := by
  have hrows : rowsOfItems closing (slots.items m)
      = (slots.rowsWithin m closing).1 :: (slots.rowsWithin m closing).2 := by
    rw [rowsOfItems, slots.fillSlots_items]
  simp only [Reading.matrix, slots.surplus_items, lastSlotStop, matrixStop]
  rw [← hrows, List.replicate_zero, List.append_nil]
  rfl

/-! ## Reading a derivation -/

mutual

/-- **A term is read as its tree**, cut at the nesting limit of the reader. -/
theorem Term.read_tokens (t : Term) (m : Nat) (after : Option Nat) (rest : List Token)
    (last : Nat) :
    (operandReader m).read after ⟨t.tokens ++ rest, last⟩
      = ⟨t.treeWithin m, tooDeep (t.overDeep m), ⟨rest, stopAfter last t.tokens⟩⟩ := by
  match t, m with
  | .number digits start, m =>
      have hcut := (Term.number digits start).treeWithin_of_nesting m (Nat.zero_le m)
      rw [hcut.1, hcut.2]
      exact read_number m after digits start rest last
  -- at the limit, what nests is passed over
  | .negation minus body, 0 => exact passOver_tokens (.negation minus body) rest last
  | .paren opening inner closing, 0 =>
      exact passOver_tokens (.paren opening inner closing) rest last
  | .matrix opening slots closing, 0 =>
      exact passOver_tokens (.matrix opening slots closing) rest last
  | .negation minus body, m + 1 =>
      have hbody := body.read_tokens m none rest (Sign.minus.token minus).stop
      rw [Term.overDeep]
      by_cases hnumber : ∃ digits start, body = .number digits start
      · obtain ⟨digits, start, rfl⟩ := hnumber
        have hcut := (Term.number digits start).treeWithin_of_nesting m (Nat.zero_le m)
        rw [hcut.2]
        exact read_negativeNumber m after minus digits start rest last
      · simp only [not_exists] at hnumber
        rw [Term.tokens, stopAfter_cons]
        exact read_negation_term m after minus body rest last hnumber hbody
  | .paren opening inner closing, m + 1 =>
      obtain ⟨c, found, more, hread, hlinks, hfound⟩ := inner.read_tokens m none
        (Mark.closeParen.token closing :: rest) (Mark.openParen.token opening).stop
      have hchain := chain_of_read (operandReader m) _ hread hlinks (noSign_mark _ _ _)
      rw [Term.tokens, stopAfter_cons, stopAfter_append, List.cons_append, List.append_assoc]
      rw [Term.treeWithin, Term.tokens, extent_cons _ (by simp), extent_concat_stop,
        Term.overDeep, ← hfound]
      exact read_closed m after opening closing last hchain rfl
  | .matrix opening slots closing, m + 1 =>
      have hitems := slots.readItems_tokens m closing rest (Mark.openBracket.token opening).stop
      rw [Term.tokens, stopAfter_cons, stopAfter_append, List.cons_append, List.append_assoc]
      rw [Term.treeWithin, Term.tokens, extent_cons _ (by simp), extent_concat_stop,
        Term.overDeep]
      exact (read_matrix m after opening last hitems).trans
        (matrix_items opening slots m _ closing _)

/-- A phrase is read as its first operand, after which come its other operands. -/
theorem Phrase.read_tokens {n : Nat} (p : Phrase n) (m : Nat) (after : Option Nat)
    (rest : List Token) (last : Nat) :
    ∃ c found more, (operandReader m).read after ⟨p.tokens ++ rest, last⟩
        = ⟨(p.flat m).1, found, c⟩ ∧
      links (operandReader m) c.last c.rest
        = ((links (operandReader m) (stopAfter last p.tokens) rest).map
            ((p.flat m).2 ++ ·)).precededBy more ∧
      found ++ more = tooDeep (p.overDeep m) := by
  match p with
  | .transpose start => exact ⟨_, [], [], read_transpose m after start rest last, rfl, rfl⟩
  | .term t =>
      exact ⟨_, tooDeep (t.overDeep m), [], t.read_tokens m after rest last, rfl,
        List.append_nil _⟩
  | .chain first tail =>
      -- the first phrase of a chain is read with all that follows, so its links are already those
      -- of the whole phrase
      obtain ⟨c, found, more, hread, hlinks, hfound⟩ :=
        first.read_tokens m after (tail.tokens ++ rest) last
      refine ⟨c, found, more ++ tooDeep (tail.overDeep m), ?_, ?_, ?_⟩
      · rw [Phrase.tokens, List.append_assoc, hread]
        rfl
      · rw [hlinks, tail.links_tokens m, Phrase.tokens, stopAfter_append]
        simp [Phrase.flat]
      · rw [Phrase.overDeep, tooDeep_append, ← hfound, List.append_assoc]

/-- What follows the first phrase of a chain is read as its operands. -/
theorem Tail.links_tokens {n : Nat} (t : Tail n) (m : Nat) (rest : List Token) (last : Nat) :
    links (operandReader m) last (t.tokens ++ rest)
      = ((links (operandReader m) (stopAfter last t.tokens) rest).map
          (t.flat m ++ ·)).precededBy (tooDeep (t.overDeep m)) := by
  match t with
  | .nil => rfl
  | .cons sign level start operand tail =>
      obtain ⟨c, found, more, hread, hlinks, hfound⟩ := operand.read_tokens m
        (some (sign.token start).stop) (tail.tokens ++ rest) (sign.token start).stop
      rw [Tail.tokens, List.cons_append, List.append_assoc, links_sign _ _ _ _ _ hread,
        Reading.link, hlinks, tail.links_tokens m, stopAfter_cons, stopAfter_append, Tail.overDeep,
        tooDeep_append, ← hfound]
      simp [Tail.flat]

/-- A slot is read as its items when a mark follows. -/
theorem Slot.readItems_tokens (slot : Slot) (m : Nat) (mark : Mark) (start : Nat)
    (rest : List Token) (last : Nat) :
    readItems (operandReader m) last (slot.tokens ++ mark.token start :: rest)
      = ((readItems (operandReader m) (stopAfter last slot.tokens) (mark.token start :: rest)).map
          (fun r => (slot.items m ++ r.1, r.2))).precededBy (tooDeep (slot.overDeep m)) := by
  match slot with
  | .empty => rfl
  | .filled content =>
      obtain ⟨c, found, more, hread, hlinks, hfound⟩ :=
        content.read_tokens m none (mark.token start :: rest) last
      have hchain := chain_of_read (operandReader m) _ hread hlinks (noSign_mark _ _ _)
      obtain ⟨token, tail, htokens, hstarts⟩ := content.tokens_eq_cons
      rw [htokens, List.cons_append] at hchain
      rw [Slot.tokens, htokens, List.cons_append, Slot.overDeep, ← hfound]
      exact readItems_element _ _ _ _ (Lexeme.role_of_startsOperand hstarts) hchain

/-- The slots of a matrix are read as their items, up to the bracket that closes it. -/
theorem Slots.readItems_tokens (slots : Slots) (m : Nat) (closing : Nat) (rest : List Token)
    (last : Nat) :
    readItems (operandReader m) last
        (slots.tokens ++ Mark.closeBracket.token closing :: rest)
      = ⟨(slots.items m, some (Mark.closeBracket.token closing)), tooDeep (slots.overDeep m),
          .after (Mark.closeBracket.token closing) rest⟩ := by
  match slots with
  | .last slot =>
      rw [Slots.tokens, slot.readItems_tokens m, readItems_close]
      simp [Slots.items, Slots.overDeep]
  | .more slot separator start more =>
      rw [Slots.tokens, List.append_assoc, List.cons_append, slot.readItems_tokens m,
        readItems_separator _ _ (separator.separates start), more.readItems_tokens m,
        Slots.overDeep, tooDeep_append]
      rfl

end

/-- **A whole expression is read as its tree**, cut at the nesting limit of the reader, when no
operator follows it. -/
theorem chain_tokens_cut (p : Sum) (m : Nat) (rest : List Token) (hrest : NoSign rest)
    (last : Nat) :
    chain (operandReader m) ⟨p.tokens ++ rest, last⟩
      = ⟨p.treeWithin m, tooDeep (p.overDeep m), ⟨rest, stopAfter last p.tokens⟩⟩ := by
  obtain ⟨c, found, more, hread, hlinks, hfound⟩ := p.read_tokens m none rest last
  rw [← hfound]
  exact chain_of_read (operandReader m) _ hread hlinks hrest

/-- A whole expression within the nesting limit is read as its tree, without a finding. -/
theorem chain_tokens (p : Sum) (m : Nat) (hm : p.nesting ≤ m) (rest : List Token)
    (hrest : NoSign rest) (last : Nat) :
    chain (operandReader m) ⟨p.tokens ++ rest, last⟩
      = ⟨p.tree, [], ⟨rest, stopAfter last p.tokens⟩⟩ := by
  have hcut := p.treeWithin_of_nesting m hm
  rw [chain_tokens_cut p m rest hrest, hcut.1, hcut.2]
  rfl

end LinearCalc
