import LinearCalc.Parse
import LinearCalc.Proofs.Spans.Placed

set_option autoImplicit false

/-! # The spans of a parsed text

However malformed a text is, the spans in its tree are in order: they lie inside the text, a node
covers its children, and children do not overlap (`parseText_spans`).

That is so because every reader places what it reads (`read_places`, `chain_places`). The content of
a matrix is followed in two steps: its items stand one after the other (`readItems_places`), and so
do the elements that its slots are filled with (`fillSlots_inOrder`).
-/

namespace LinearCalc

open LinearCalc.Expr

variable {limit : Nat}

/-! ## Slots -/

/-- An item as a node: a separator counts as an empty slot that covers it. -/
def Item.node : Item → Expr Float
  | .element e => e
  | .comma s => .placeholder s
  | .semicolon s => .placeholder s

theorem Item.span_node (item : Item) : item.node.span = item.span := by
  cases item <;> rfl

/-- A slot ends where the separator after it starts: its element lies before that separator. -/
theorem slotElement_inOrder {start stop : Nat} {s : Span} {more : List (Expr Float)}
    (found : Option (Expr Float))
    (h : InOrder start (found.toList ++ Expr.placeholder s :: more) stop) :
    InOrder start [slotElement found s.start] s.stop ∧ InOrder s.stop more stop := by
  cases found with
  | none =>
      obtain ⟨hstart, htidy, hmore⟩ := h
      exact ⟨⟨hstart, tidy_leaf rfl (Nat.le_refl _), htidy.here.ordered⟩, hmore⟩
  | some e =>
      obtain ⟨hstart, htidy, hseparator, hordered, hmore⟩ := h
      have hle : s.start ≤ s.stop := hordered.here.ordered
      exact ⟨⟨hstart, htidy, Nat.le_trans hseparator hle⟩, hmore⟩

/-- **The slots are filled in order.** The expression already found in the current slot comes
before the items that are left, and the last slot ends behind all of them. -/
theorem fillSlots_inOrder {start stop last : Nat} (found : Option (Expr Float))
    (items : List Item) (h : InOrder start (found.toList ++ items.map Item.node) stop)
    (hlast : stop ≤ last) :
    InOrder start ((fillSlots last found items).1 ++ (fillSlots last found items).2.flatten)
      last := by
  fun_induction fillSlots last found items generalizing start with
  | case1 found =>
      cases found with
      | none => exact ⟨Nat.le_trans h hlast, tidy_leaf rfl (Nat.le_refl _), Nat.le_refl _⟩
      | some e => exact h.mono (Nat.le_refl _) hlast
  | case2 e more ih => exact ih h
  | case3 e surplus more ih =>
      -- the surplus expression is left out
      obtain ⟨hstart, htidy, hafter, hsurplus, hmore⟩ := h
      have hordered := hsurplus.here.ordered
      exact ih ⟨hstart, htidy, hmore.mono (Nat.le_trans hafter hordered) (Nat.le_refl _)⟩
  | case4 found s more row rows hrest ih | case5 found s more row rows hrest ih =>
      obtain ⟨⟨hstart, htidy, hstop⟩, hmore⟩ := slotElement_inOrder found h
      rw [hrest] at ih
      exact ⟨hstart, htidy, (ih hmore).mono hstop (Nat.le_refl _)⟩

/-! ## Items -/

/-- The items of a matrix come one after the other between an offset and the closing bracket, or
the end of the tokens when there is no such bracket. -/
structure ItemsPlaced (limit start : Nat) (r : Reading (List Item × Option Token)) : Prop where
  inOrder : InOrder start (r.value.1.map Item.node)
    ((r.value.2.map Token.start).getD r.cursor.position)
  closing : ∀ bracket ∈ r.value.2, bracket.stop ≤ r.cursor.position
  cursor : r.cursor.Placed limit

/-- An item in front of other items. -/
theorem ItemsPlaced.cons {start stop : Nat} {r : Reading (List Item × Option Token)}
    (item : Item) (hitem : InOrder start [item.node] stop) (h : ItemsPlaced limit stop r) :
    ItemsPlaced limit start (r.map (fun found => (item :: found.1, found.2))) := by
  obtain ⟨hstart, htidy, hstop⟩ := hitem
  exact ⟨⟨hstart, htidy, h.inOrder.mono hstop (Nat.le_refl _)⟩, h.closing, h.cursor⟩

theorem ItemsPlaced.mono {start start' : Nat} {r : Reading (List Item × Option Token)}
    (h : ItemsPlaced limit start r) (hle : start' ≤ start) : ItemsPlaced limit start' r :=
  ⟨h.inOrder.mono hle (Nat.le_refl _), h.closing, h.cursor⟩

/-- A separator covers its token. -/
theorem inOrder_separator (token : Token) :
    InOrder token.start [(.placeholder token.span : Expr Float)] token.stop :=
  ⟨Nat.le_refl _, tidy_leaf rfl token.start_le_stop, Nat.le_refl _⟩

/-! ## Matrices -/

/-- Trees in order reach no further than the last of them. -/
theorem inOrder_getLast {start stop : Nat} (items : List Item)
    (h : InOrder start (items.map Item.node) stop) :
    InOrder start (items.map Item.node)
        ((items.getLast?.map (fun item => item.span.stop)).getD start) ∧
      (items.getLast?.map (fun item => item.span.stop)).getD start ≤ stop := by
  induction items generalizing start with
  | nil => exact ⟨Nat.le_refl _, h⟩
  | cons item more ih =>
      obtain ⟨hstart, htidy, hmore⟩ := h
      obtain ⟨hinner, hstop⟩ := ih hmore
      -- the last of more items does not depend on the first one
      have hlast : ((item :: more).getLast?.map (fun item => item.span.stop)).getD start
          = (more.getLast?.map (fun item => item.span.stop)).getD item.node.span.stop := by
        cases more with
        | nil => rw [item.span_node]; rfl
        | cons next more =>
            rw [List.getLast?_cons_cons, List.getLast?_eq_some_getLast (List.cons_ne_nil _ _)]
            rfl
      rw [hlast]
      exact ⟨⟨hstart, htidy, hinner⟩, hstop⟩

/-- What stands between the brackets of a matrix lies before the end of its last slot, and that
slot ends before the matrix does. -/
theorem ItemsPlaced.slots {token : Token} {r : Reading (List Item × Option Token)}
    (h : ItemsPlaced limit token.stop r) :
    InOrder token.stop (r.value.1.map Item.node) (lastSlotStop token r.value.1 r.value.2) ∧
      lastSlotStop token r.value.1 r.value.2 ≤ matrixStop token r.value.1 r.value.2 ∧
      matrixStop token r.value.1 r.value.2 ≤ r.cursor.position := by
  obtain ⟨⟨items, close⟩, diagnostics, cursor⟩ := r
  obtain ⟨hitems, hclosing, hcursor⟩ := h
  cases close with
  | some bracket => exact ⟨hitems, bracket.start_le_stop, hclosing bracket rfl⟩
  | none =>
      obtain ⟨hinner, hstop⟩ := inOrder_getLast items hitems
      exact ⟨hinner, Nat.le_refl _, hstop⟩

/-! ## Readers -/

/-- Where things are placed. An operand may start after the operator before it, or at the next token
when there is no operator; everything else starts at the next token. -/
def placement (limit : Nat) : ReaderInvariant where
  ofOperand _ after c r := c.Placed limit → (∀ stop ∈ after, stop = c.last) →
    r.Places limit (after.getD c.position)
  ofLinks _ last tokens r := Follow limit last tokens →
    InOrder (Cursor.position ⟨tokens, last⟩) (r.value.map Link.operand) r.cursor.position ∧
      r.cursor.Placed limit
  ofChain _ c r := c.Placed limit → r.Places limit c.position
  ofItems _ last tokens r := Follow limit last tokens →
    ItemsPlaced limit (Cursor.position ⟨tokens, last⟩) r

/-- An operand that starts at the next token does not start too early. -/
theorem Reading.Places.operand {after : Option Nat} {token : Token} {rest : List Token}
    {last : Nat} {r : Reading (Expr Float)}
    (h : Cursor.Placed limit ⟨token :: rest, last⟩ → r.Places limit token.start)
    (hc : Cursor.Placed limit ⟨token :: rest, last⟩) (hafter : ∀ stop ∈ after, stop = last) :
    r.Places limit (after.getD token.start) := by
  refine (h hc).mono ?_
  cases after with
  | none => exact Nat.le_refl _
  | some stop => exact hafter stop rfl ▸ hc.1

/-- A node that is one token. -/
theorem Reading.Places.word {e : Expr Float} {token : Token} {rest : List Token} {last : Nat}
    (hchildren : e.children = []) (hspan : e.span = token.span)
    (hc : Cursor.Placed limit ⟨token :: rest, last⟩) :
    Reading.Places limit token.start ⟨e, [], .after token rest⟩ := by
  refine .leaf hchildren ?_ ?_ ?_ hc.after
  · exact hspan ▸ Nat.le_refl _
  · exact hspan ▸ token.start_le_stop
  · exact hspan ▸ hc.stop_le_position

theorem missingOperand_places (after : Option Nat) (c : Cursor) (hc : c.Placed limit)
    (hafter : ∀ stop ∈ after, stop = c.last) :
    (missingOperand after c).Places limit (after.getD c.position) := by
  cases after with
  | none => exact .leaf rfl (Nat.le_refl _) (Nat.le_refl _) (Nat.le_refl _) hc
  | some stop =>
      have hstop : stop = c.last := hafter stop rfl
      refine .leaf rfl (Nat.le_refl _) (Nat.le_refl _) ?_ hc
      show stop ≤ c.position
      rw [hstop]
      exact hc.last_le_position

/-- **Every way of reading places what it reads.** -/
theorem placement_kept (limit : Nat) : (placement limit).Kept where
  missing n after c _ hc hafter := missingOperand_places after c hc hafter
  transpose n after start rest last := Reading.Places.operand (fun hc => .word rfl rfl hc)
  number n after digits start rest last := Reading.Places.operand (fun hc => .word rfl rfl hc)
  tooDeep after token rest last hnests := by
    refine Reading.Places.operand (fun hc => ?_)
    obtain ⟨hplaced, hstop⟩ := skipOperand_placed token rest last hnests hc
    refine .leaf rfl (Nat.le_refl _) ?_ hplaced.last_le_position hplaced
    exact Nat.le_trans token.start_le_stop hstop
  negativeNumber n after minus digits start rest last := by
    refine Reading.Places.operand (fun hc => ?_)
    have hspan : minus ≤ Token.stop ⟨.number digits, start⟩ := by
      calc minus ≤ (Sign.minus.token minus).stop := (Sign.minus.token minus).start_le_stop
        _ ≤ start := hc.stop_le_position
        _ ≤ Token.stop ⟨.number digits, start⟩ := Token.start_le_stop ⟨.number digits, start⟩
    exact .leaf rfl (Nat.le_refl _) hspan hc.after.stop_le_position hc.after.after
  negation n after minus token rest last right _ _ hright := by
    refine Reading.Places.operand (fun hc => ?_)
    have hplaced := hright hc.after (by simp)
    obtain ⟨hstart, htidy, hstop⟩ := hplaced.inOrder
    have hone : (Expr.number (-1 : Float) (Sign.minus.token minus).span).Tidy :=
      tidy_leaf rfl (Sign.minus.token minus).start_le_stop
    have hchildren : InOrder minus [.number (-1) (Sign.minus.token minus).span, right.value]
        right.value.span.stop :=
      ⟨Nat.le_refl _, hone, Nat.le_trans hc.stop_le_position hstart, htidy, Nat.le_refl _⟩
    exact .node hchildren (Nat.le_refl _) (Nat.le_refl _) (Nat.le_refl _) hstop hplaced.cursor
  bareMinus n after minus rest last _ :=
    Reading.Places.operand (fun hc => .leaf rfl (Nat.le_refl _)
      (Sign.minus.token minus).start_le_stop hc.stop_le_position hc.after)
  closed n after opening closing rest more last inner _ hclosed hinner := by
    refine Reading.Places.operand (fun hc => ?_)
    have hplaced := (hinner hc.after).mono hc.stop_le_position
    have hcursor : Cursor.Placed limit ⟨Mark.closeParen.token closing :: more, inner.cursor.last⟩ :=
      hclosed ▸ hplaced.cursor
    obtain ⟨hstart, htidy, hstop⟩ := hplaced.inOrder
    rw [Cursor.position, hclosed] at hstop
    exact .node ⟨hstart, htidy, hstop⟩ (Nat.le_refl _) (Mark.openParen.token opening).start_le_stop
      (Mark.closeParen.token closing).start_le_stop hcursor.stop_le_position hcursor.after
  unclosed n after opening rest last inner _ _ hinner := by
    refine Reading.Places.operand (fun hc => ?_)
    have hplaced := (hinner hc.after).mono hc.stop_le_position
    obtain ⟨hstart, htidy, hstop⟩ := hplaced.inOrder
    exact .node ⟨hstart, htidy, Nat.le_refl _⟩ (Nat.le_refl _)
      (Mark.openParen.token opening).start_le_stop (Nat.le_refl _) hstop hplaced.cursor
  matrix n after opening rest last found _ hfound := by
    refine Reading.Places.operand (fun hc => ?_)
    have hitems := (hfound hc.after).mono hc.stop_le_position
    obtain ⟨hinner, hlast, hstop⟩ := hitems.slots
    have hrows := fillSlots_inOrder none _ hinner (Nat.le_refl _)
    exact .node hrows (Nat.le_refl _) (Mark.openBracket.token opening).start_le_stop hlast hstop
      hitems.cursor
  noLinks n last tokens _ hc := ⟨Nat.le_refl _, hc⟩
  link n last s start rest right more _ _ hright hmore hc := by
    obtain ⟨⟨hstart, htidy, hstop⟩, hcursor⟩ := hright hc.2 (by simp)
    obtain ⟨hlinks, hlast⟩ := hmore hcursor
    exact ⟨⟨Nat.le_trans (s.token start).start_le_stop hstart, htidy,
      hlinks.mono hstop (Nat.le_refl _)⟩, hlast⟩
  grouped n c first more _ _ hfirst hmore hc := by
    obtain ⟨⟨hstart, htidy, hstop⟩, hcursor⟩ := hfirst hc (by simp)
    obtain ⟨hlinks, hlast⟩ := hmore hcursor
    exact ⟨assemble_inOrder _ _ ⟨hstart, htidy, hlinks.mono hstop (Nat.le_refl _)⟩, hlast⟩
  noBracket n last hc := ⟨Nat.le_refl _, by simp, hc⟩
  bracket n last closing rest hc := by
    refine ⟨Nat.le_refl _, ?_, hc.2⟩
    rintro bracket ⟨⟩
    exact Cursor.Placed.stop_le_position hc
  separator n last token item rest more hseparates _ hmore hc := by
    have hplaced := (hmore hc.2).mono (Cursor.Placed.stop_le_position hc)
    cases hseparates with
    | comma start => exact hplaced.cons (.comma _) (inOrder_separator _)
    | semicolon start => exact hplaced.cons (.semicolon _) (inOrder_separator _)
  stray n last start rest more _ hmore hc := by
    -- nothing is kept of a stray parenthesis
    have hplaced := (hmore hc.2).mono (Cursor.Placed.stop_le_position hc)
    have hall := hplaced.mono (Mark.closeParen.token start).start_le_stop
    exact ⟨hall.inOrder, hall.closing, hall.cursor⟩
  element n last token rest e more _ _ _ hchain hmore hc := by
    have hall := (hmore (hchain hc).cursor).cons (.element e.value) (hchain hc).inOrder
    exact ⟨hall.inOrder, hall.closing, hall.cursor⟩

/-- **Every reader places what it reads**, whatever it reads from. -/
theorem read_places (n : Nat) (after : Option Nat) {c : Cursor} (hc : c.Placed limit)
    (hafter : ∀ stop ∈ after, stop = c.last) :
    ((operandReader n).read after c).Places limit (after.getD c.position) :=
  (placement_kept limit).operand n after c hc hafter

/-- **A chain is placed between the next token and the one after it.** -/
theorem chain_places (n : Nat) {c : Cursor} (hc : c.Placed limit) :
    (chain (operandReader n) c).Places limit c.position :=
  (placement_kept limit).chain n c hc

/-- The items of a matrix stand one after the other, the first of them not before the next token. -/
theorem readItems_places (n : Nat) {last : Nat} {tokens : List Token}
    (hc : Follow limit last tokens) :
    ItemsPlaced limit (Cursor.position ⟨tokens, last⟩) (readItems (operandReader n) last tokens) :=
  (placement_kept limit).items n last tokens hc

/-! ## Texts -/

/-- The tree of some tokens is the one of the chain that they begin with. -/
theorem parse_value (tokens : List Token) :
    (parse tokens).1 = (chain (operandReader maxNesting) ⟨tokens, 0⟩).value := by
  unfold parse
  dsimp only
  split <;> rfl

/-- The tree of tokens that come one after the other is tidy and lies before their limit. -/
theorem parse_tidy {limit : Nat} {tokens : List Token} (h : Follow limit 0 tokens) :
    (parse tokens).1.Tidy ∧ (parse tokens).1.span.stop ≤ limit := by
  have hwhole := chain_places maxNesting (c := ⟨tokens, 0⟩) h
  obtain ⟨-, htidy, hstop⟩ := hwhole.inOrder
  rw [parse_value]
  exact ⟨htidy, Nat.le_trans hstop hwhole.cursor.position_le⟩

/-- **The spans of every parsed text are in order.** No span is reversed or reaches behind the text,
every node covers its children, each child stops before the next ones start, and a walk through the
nodes never goes back. Nothing is asked of the text: what is made up for a missing operand or an
empty slot stands at an offset of its own between its neighbours. -/
theorem parseText_spans (text : String) :
    (∀ n ∈ (parseText text).1.preorder,
      n.span.start ≤ n.span.stop ∧ n.span.stop ≤ text.length ∧
      (∀ c ∈ n.children, c.span.Within n.span) ∧
      n.children.Pairwise (fun c d => c.span.stop ≤ d.span.start)) ∧
    (parseText text).1.preorder.Pairwise (fun a b => a.span.start ≤ b.span.start) := by
  obtain ⟨htidy, hstop⟩ := parse_tidy (tokenize_follow text)
  refine ⟨?_, htidy.preorder_starts⟩
  intro n hn
  obtain ⟨hnode, hwithin⟩ := htidy.mem_preorder n hn
  have hinside : n.span.stop ≤ text.length := by
    calc n.span.stop ≤ (parseText text).1.span.stop := hwithin.2
      _ ≤ text.length := hstop
  exact ⟨hnode.ordered, hinside, hnode.holds, hnode.sequence⟩

end LinearCalc
