import LinearCalc.Proofs.Readers
import LinearCalc.Proofs.Spans.Scanned
import LinearCalc.Proofs.Spans.Tidy

set_option autoImplicit false

/-! # Where the parser places its nodes

A cursor is placed when the tokens still to read come after the last one read. From a placed
cursor every reader gives a tidy tree that stops before the next token, whatever is missing or
superfluous. Only a missing operand may start before that token, and then it stands right after the
operator before it. Here are what is passed over and the chains that are grouped; the readers follow
in another module.
-/

namespace LinearCalc

open LinearCalc.Expr

variable {limit : Nat}

/-! ## Cursors -/

/-- The tokens still to read come one after the other, behind the last one read. -/
def Cursor.Placed (limit : Nat) (c : Cursor) : Prop := Follow limit c.last c.rest

theorem Cursor.Placed.last_le_position {c : Cursor} (h : c.Placed limit) :
    c.last ≤ c.position := by
  obtain ⟨rest, last⟩ := c
  cases rest with
  | nil => exact Nat.le_refl _
  | cons token rest => exact h.1

theorem Cursor.Placed.position_le {c : Cursor} (h : c.Placed limit) : c.position ≤ limit := by
  obtain ⟨rest, last⟩ := c
  cases rest with
  | nil => exact h
  | cons token rest => exact Nat.le_trans token.start_le_stop h.2.le

theorem Cursor.Placed.after {token : Token} {rest : List Token} {last : Nat}
    (h : Cursor.Placed limit ⟨token :: rest, last⟩) : (Cursor.after token rest).Placed limit :=
  h.2

/-- What is read after a token is placed behind it. -/
theorem Cursor.Placed.stop_le_position {token : Token} {rest : List Token} {last : Nat}
    (h : Cursor.Placed limit ⟨token :: rest, last⟩) :
    token.stop ≤ (Cursor.after token rest).position :=
  h.after.last_le_position

/-- The reading takes place between an offset and the next token. -/
structure Reading.Places (limit start : Nat) (r : Reading (Expr Float)) : Prop where
  inOrder : InOrder start [r.value] r.cursor.position
  cursor : r.cursor.Placed limit

theorem Reading.Places.mono {start start' : Nat} {r : Reading (Expr Float)}
    (h : r.Places limit start) (hle : start' ≤ start) : r.Places limit start' :=
  ⟨h.inOrder.mono hle (Nat.le_refl _), h.cursor⟩

/-- A node without children that lies before the cursor. -/
theorem Reading.Places.leaf {start : Nat} {r : Reading (Expr Float)}
    (hchildren : r.value.children = []) (hstart : start ≤ r.value.span.start)
    (hspan : r.value.span.start ≤ r.value.span.stop)
    (hstop : r.value.span.stop ≤ r.cursor.position) (hcursor : r.cursor.Placed limit) :
    r.Places limit start :=
  ⟨⟨hstart, tidy_leaf hchildren hspan, hstop⟩, hcursor⟩

/-- A node whose children were read between two offsets. -/
theorem Reading.Places.node {start first stop : Nat} {r : Reading (Expr Float)}
    (hchildren : InOrder first r.value.children stop) (hstart : start ≤ r.value.span.start)
    (hfirst : r.value.span.start ≤ first) (hlast : stop ≤ r.value.span.stop)
    (hstop : r.value.span.stop ≤ r.cursor.position) (hcursor : r.cursor.Placed limit) :
    r.Places limit start :=
  ⟨⟨hstart, hchildren.tidy_node hfirst hlast, hstop⟩, hcursor⟩

/-! ## Passing over -/

theorem skipMinuses_placed (last : Nat) (tokens : List Token) (h : Follow limit last tokens) :
    (skipMinuses last tokens).Placed limit ∧ last ≤ (skipMinuses last tokens).last := by
  fun_induction skipMinuses last tokens with
  | case1 last => exact ⟨h, Nat.le_refl _⟩
  | case2 last token rest _ ih =>
      obtain ⟨hplaced, hlast⟩ := ih h.2
      have htoken := token.start_le_stop
      have hstart := h.1
      exact ⟨hplaced, by omega⟩
  | case3 last token rest _ => exact ⟨h, Nat.le_refl _⟩

theorem skipBalanced_placed (depth last : Nat) (tokens : List Token)
    (h : Follow limit last tokens) : (skipBalanced depth last tokens).Placed limit ∧
      last ≤ (skipBalanced depth last tokens).last := by
  have hpass : ∀ {last : Nat} {token : Token} {rest : List Token},
      Follow limit last (token :: rest) → last ≤ token.stop := by
    intro last token rest h
    exact Nat.le_trans h.1 token.start_le_stop
  fun_induction skipBalanced depth last tokens with
  | case1 => exact ⟨h, Nat.le_refl _⟩
  | case2 _ _ _ _ _ ih => exact ⟨(ih h.2).1, Nat.le_trans (hpass h) (ih h.2).2⟩
  | case3 => exact ⟨h, Nat.le_refl _⟩
  | case4 => exact ⟨h.2, hpass h⟩
  | case5 _ _ _ _ _ _ ih => exact ⟨(ih h.2).1, Nat.le_trans (hpass h) (ih h.2).2⟩
  | case6 => exact ⟨h.2, hpass h⟩
  | case7 => exact ⟨h, Nat.le_refl _⟩
  | case8 _ _ _ _ _ _ _ ih => exact ⟨(ih h.2).1, Nat.le_trans (hpass h) (ih h.2).2⟩

/-- Passing over a nested operand gets behind its first token. -/
theorem skipOperand_placed (token : Token) (rest : List Token) (last : Nat)
    (hnests : token.lexeme.nests = true) (h : Cursor.Placed limit ⟨token :: rest, last⟩) :
    (skipOperand ⟨token :: rest, last⟩).Placed limit ∧
      token.stop ≤ (skipOperand ⟨token :: rest, last⟩).last := by
  by_cases hminus : token.lexeme = .sign .minus
  · have hskip : skipMinuses last (token :: rest) = skipMinuses token.stop rest := by
      rw [skipMinuses, if_pos hminus]
    obtain ⟨hplaced, hlast⟩ := skipMinuses_placed token.stop rest h.after
    obtain ⟨hplaced', hlast'⟩ := skipBalanced_placed 0 _ _ hplaced
    simp only [skipOperand, hskip]
    exact ⟨hplaced', Nat.le_trans hlast hlast'⟩
  · have hskip : skipMinuses last (token :: rest) = ⟨token :: rest, last⟩ := by
      rw [skipMinuses, if_neg hminus]
    -- what nests and is no minus opens a bracket, which the balance counts as passed
    have hopens : token.lexeme.opens = true := by grind
    have hbalanced : skipBalanced 0 last (token :: rest) = skipBalanced 1 token.stop rest := by
      rw [skipBalanced, if_pos hopens]
    simp only [skipOperand, hskip, hbalanced]
    exact skipBalanced_placed 1 _ _ h.after

/-! ## Chains -/

/-- Joining two neighbours keeps the order. -/
theorem inOrder_join {start stop : Nat} {first : Expr Float} {link : Link}
    {more : List (Expr Float)} (h : InOrder start (first :: link.operand :: more) stop) :
    InOrder start (first.join link :: more) stop := by
  obtain ⟨hfirst, htidy, hlink, htidy', hmore⟩ := h
  refine ⟨hfirst, ?_, hmore⟩
  have hchildren : InOrder first.span.start [first, link.operand] link.operand.span.stop :=
    ⟨Nat.le_refl _, htidy, hlink, htidy', Nat.le_refl _⟩
  exact hchildren.tidy_node (Nat.le_refl _) (Nat.le_refl _)

theorem fuse_inOrder {start stop : Nat} (level : Nat) (first : Expr Float) (links : List Link)
    (h : InOrder start (first :: links.map Link.operand) stop) :
    InOrder start ((fuse level first links).1 :: (fuse level first links).2.map Link.operand)
      stop := by
  induction links generalizing start first with
  | nil => exact h
  | cons link links ih =>
      rw [List.map_cons] at h
      by_cases hlevel : link.op.binding = level
      · rw [fuse, if_pos hlevel]
        exact ih (first.join link) (inOrder_join h)
      · rw [fuse, if_neg hlevel]
        exact ⟨h.1, h.2.1, ih link.operand h.2.2⟩

/-- Grouping a chain keeps its operands where they are. -/
theorem assemble_inOrder {start stop : Nat} (first : Expr Float) (links : List Link)
    (h : InOrder start (first :: links.map Link.operand) stop) :
    InOrder start [assemble first links] stop := by
  have h3 := fuse_inOrder 3 _ _ h
  have h2 := fuse_inOrder 2 _ _ h3
  have h1 := fuse_inOrder 1 _ _ h2
  have h0 := fuse_inOrder 0 _ _ h1
  exact ⟨h0.1, h0.2.1, h0.2.2.le⟩

end LinearCalc
