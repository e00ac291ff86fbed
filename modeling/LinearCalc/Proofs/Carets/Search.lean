import LinearCalc.Proofs.Carets.Spacing

set_option autoImplicit false

/-! # Searching the node under a caret

The search for the node under a caret goes down into the first child that the caret touches and
never turns back. In a tidy tree it finds a node just when there is one (`nodeAt_eq_none_iff`). The
node is the deepest one where no other child is touched. With gaps between children, only the caret
between two minuses touches two of them: it ends the `-1` of the first minus and starts the operand,
and in there the `-1` of the second minus is deeper down (`nodeAt_deepest_iff`).
-/

namespace LinearCalc
namespace Expr

/-! ## Depths -/

section Depths

variable {α : Type}

/-- The node `n` of the tree is `d` levels below the root. -/
inductive HasAt : Expr α → Nat → Expr α → Prop where
  | root (e : Expr α) : HasAt e 0 e
  | child {e c n : Expr α} {d : Nat} (hc : c ∈ e.children) (h : HasAt c d n) : HasAt e (d + 1) n

/-- The nodes at some depth are the nodes of a walk through the tree. -/
theorem HasAt.mem_preorder {e n : Expr α} {d : Nat} (h : HasAt e d n) : n ∈ e.preorder := by
  induction h with
  | root e => exact self_mem_preorder e
  | child hc h ih => exact Expr.mem_preorder.2 (.inr ⟨_, hc, ih⟩)

/-! ## The search -/

variable {offset : Int}

theorem nodeAtRow_append (a b : List (Expr α)) :
    nodeAtRow offset (a ++ b) = (nodeAtRow offset a).or (nodeAtRow offset b) := by
  induction a with
  | nil => rfl
  | cons e a ih => rw [List.cons_append, nodeAtRow, nodeAtRow, ih, Option.or_assoc]

theorem nodeAtRows_eq (rows : List (List (Expr α))) :
    nodeAtRows offset rows = nodeAtRow offset rows.flatten := by
  induction rows with
  | nil => rfl
  | cons row rows ih => rw [nodeAtRows, ih, List.flatten_cons, nodeAtRow_append]

/-- The search finds nothing at a node that the caret does not touch, and otherwise the first thing
in a child, or else the node itself. -/
theorem nodeAt_eq (e : Expr α) :
    nodeAt offset e = if e.span.touches offset then
      some ((nodeAtRow offset e.children).getD e) else none := by
  cases e with
  | matrix rows s =>
      rw [nodeAt, nodeAtRows_eq]
      rfl
  | _ => simp [nodeAt, nodeAtRow, span]

/-- What is found in a row is found in its first tree that holds anything. -/
theorem nodeAtRow_eq_some {row : List (Expr α)} {n : Expr α}
    (h : nodeAtRow offset row = some n) :
    ∃ before c after, row = before ++ c :: after ∧ nodeAt offset c = some n ∧
      ∀ b ∈ before, nodeAt offset b = none := by
  induction row with
  | nil => cases h
  | cons e row ih =>
      rw [nodeAtRow] at h
      cases hfound : nodeAt offset e with
      | some m =>
          rw [hfound, Option.some_or] at h
          exact ⟨[], e, row, rfl, hfound.trans h, by simp⟩
      | none =>
          rw [hfound, Option.none_or] at h
          obtain ⟨before, c, after, rfl, hc, hbefore⟩ := ih h
          refine ⟨e :: before, c, after, rfl, hc, ?_⟩
          exact List.forall_mem_cons.2 ⟨hfound, hbefore⟩

theorem nodeAtRow_eq_none_iff (row : List (Expr α)) :
    nodeAtRow offset row = none ↔ ∀ e ∈ row, nodeAt offset e = none := by
  induction row with
  | nil => simp [nodeAtRow]
  | cons e row ih => rw [nodeAtRow, Option.or_eq_none_iff, ih, List.forall_mem_cons]

theorem nodeAt_eq_none (e : Expr α) :
    nodeAt offset e = none ↔ e.span.touches offset = false := by
  rw [nodeAt_eq]
  cases e.span.touches offset <;> simp

theorem touches_of_nodeAt {e n : Expr α} (h : nodeAt offset e = some n) :
    e.span.touches offset = true := by
  rw [nodeAt_eq] at h
  split at h
  · assumption
  · cases h

/-- **The search finds nothing just when the caret touches no node** of the tree. -/
theorem nodeAt_eq_none_iff {e : Expr α} (h : e.Tidy) :
    nodeAt offset e = none ↔ ∀ n ∈ e.preorder, n.span.touches offset = false := by
  rw [nodeAt_eq_none]
  constructor
  · intro hroot n hn
    cases htouches : n.span.touches offset with
    | false => rfl
    | true =>
        rw [(h.mem_preorder n hn).2.touches htouches] at hroot
        cases hroot
  · intro hall
    exact hall e (self_mem_preorder e)

/-- A caret that touches a node of a tidy tree touches the child that the node is in. -/
theorem touches_of_hasAt {e n : Expr α} {d : Nat} (h : e.Tidy) (hn : HasAt e d n)
    (htouches : n.span.touches offset = true) : e.span.touches offset = true :=
  (h.mem_preorder n hn.mem_preorder).2.touches htouches

/-! ## One child -/

/-- No node that the caret touches is more than `d` levels below the root. -/
def DeepestAt (offset : Int) (e : Expr α) (d : Nat) : Prop :=
  ∀ n d', HasAt e d' n → n.span.touches offset = true → d' ≤ d

theorem deepestAt_of_untouched {e : Expr α} (h : e.Tidy)
    (hnone : ∀ c ∈ e.children, c.span.touches offset = false) : DeepestAt offset e 0 := by
  intro n d' hn htouches
  cases hn with
  | root => exact Nat.le_refl _
  | child hc hn =>
      have hfalse := hnone _ hc
      rw [touches_of_hasAt (h.of_mem_children _ hc) hn htouches] at hfalse
      cases hfalse

/-- **Where the caret touches one child only**, the deepest node is in there. -/
theorem deepestAt_of_only {e c : Expr α} (h : e.Tidy) (hc : c ∈ e.children)
    (honly : ∀ c' ∈ e.children, c'.span.touches offset = true → c' = c) (d : Nat) :
    DeepestAt offset e (d + 1) ↔ DeepestAt offset c d := by
  constructor
  · intro hdeepest n d' hn htouches
    exact Nat.le_of_succ_le_succ (hdeepest n (d' + 1) (.child hc hn) htouches)
  · intro hdeepest n d' hn htouches
    cases hn with
    | root => exact Nat.zero_le _
    | child hc' hn =>
        obtain rfl := honly _ hc' (touches_of_hasAt (h.of_mem_children _ hc') hn htouches)
        exact Nat.succ_le_succ (hdeepest n _ hn htouches)

end Depths

/-! ## Two minuses -/

/-- The caret stands between two minuses, and what the first one negates is the negation by the
second one. -/
def BetweenMinuses (offset : Int) (e : Expr Float) : Prop :=
  ∃ minus minus' right s s', e = negation minus (negation minus' right s') s ∧
    offset = minus.stop ∧ minus'.start = minus.stop

variable {offset : Int} {e : Expr Float}

theorem mem_children_negation {minus : Span} {right : Expr Float} {s : Span} {c : Expr Float} :
    c ∈ (negation minus right s).children ↔ c = number (-1) minus ∨ c = right := by
  simp [negation]

/-- Where the parts of a negation are. -/
theorem Tidy.negation {minus : Span} {right : Expr Float} {s : Span}
    (h : (negation minus right s).Tidy) : right.Tidy ∧ s.start ≤ minus.start ∧
      minus.start ≤ minus.stop ∧ minus.stop ≤ right.span.start := by
  have hminus : number (-1) minus ∈ (Expr.negation minus right s).children :=
    mem_children_negation.2 (.inl rfl)
  have hsequence := h.here.sequence
  refine ⟨h.of_mem_children right (mem_children_negation.2 (.inr rfl)),
    (h.here.holds _ hminus).1, (h.of_mem_children _ hminus).here.ordered, ?_⟩
  simpa [Expr.negation, span] using hsequence

/-- A caret between two minuses touches two children: the first minus and what it negates. -/
theorem BetweenMinuses.two_touched (h : BetweenMinuses offset e) (htidy : e.Tidy) :
    ∃ c ∈ e.children, ∃ c' ∈ e.children, c ≠ c' ∧ c.span.touches offset = true ∧
      c'.span.touches offset = true := by
  obtain ⟨minus, minus', right, s, s', rfl, rfl, hstart⟩ := h
  obtain ⟨hright, -, hordered, -⟩ := htidy.negation
  obtain ⟨-, hbefore, hordered', -⟩ := hright.negation
  refine ⟨number (-1) minus, mem_children_negation.2 (.inl rfl), negation minus' right s',
    mem_children_negation.2 (.inr rfl), by rintro ⟨⟩, ?_, ?_⟩
  · refine (Span.touches_iff minus _).2 ?_
    omega
  · have hholds := hright.here.holds _ (mem_children_negation.2 (.inl rfl))
    refine hholds.touches ((Span.touches_iff minus' _).2 ?_)
    omega

theorem BetweenMinuses.touches (h : BetweenMinuses offset e) (htidy : e.Tidy) :
    e.span.touches offset = true := by
  obtain ⟨c, hc, -, -, -, htouches, -⟩ := h.two_touched htidy
  exact (htidy.here.holds c hc).touches htouches

/-- A caret between two minuses stands behind the start of the negation. -/
theorem BetweenMinuses.start_lt (h : BetweenMinuses offset e) (htidy : e.Tidy)
    (hspaced : e.Spaced) : (e.span.start : Int) < offset := by
  obtain ⟨minus, minus', right, s, s', rfl, rfl, hstart⟩ := h
  obtain ⟨hright, hbefore, hordered, -⟩ := htidy.negation
  obtain ⟨-, hbefore', -, -⟩ := hright.negation
  show (s.start : Int) < minus.stop
  cases hspaced with
  | apart _ h =>
      have hgap : minus.stop < s'.start := by simpa [negation, span] using h
      omega
  | negation _ _ _ length before leading => omega

/-- The minuses around a caret are in a child that it touches, or are the root. -/
theorem betweenMinuses_cases (htidy : e.Tidy) {b : Expr Float} (hb : b ∈ e.preorder)
    (hbetween : BetweenMinuses offset b) :
    b = e ∨ ∃ c ∈ e.children, b ∈ c.preorder ∧ c.span.touches offset = true := by
  rcases mem_preorder.1 hb with rfl | ⟨c, hc, hb⟩
  · exact .inl rfl
  · have hchild := htidy.of_mem_children c hc
    have htouches := hbetween.touches (hchild.of_mem_preorder b hb)
    exact .inr ⟨c, hc, hb, (hchild.mem_preorder b hb).2.touches htouches⟩

/-- Where the caret touches no child, it does not stand between two minuses. -/
theorem not_betweenMinuses_of_untouched (htidy : e.Tidy)
    (hnone : ∀ c ∈ e.children, c.span.touches offset = false) :
    ¬ ∃ b ∈ e.preorder, BetweenMinuses offset b := by
  rintro ⟨b, hb, hbetween⟩
  obtain ⟨c, hc, htouches⟩ : ∃ c ∈ e.children, c.span.touches offset = true := by
    rcases betweenMinuses_cases htidy hb hbetween with rfl | ⟨c, hc, -, htouches⟩
    · obtain ⟨c, hc, -, -, -, htouches, -⟩ := hbetween.two_touched htidy
      exact ⟨c, hc, htouches⟩
    · exact ⟨c, hc, htouches⟩
  rw [hnone c hc] at htouches
  cases htouches

/-- **Where the caret touches one child only**, the minuses around it are in there. -/
theorem betweenMinuses_of_only {c : Expr Float} (htidy : e.Tidy) (hc : c ∈ e.children)
    (honly : ∀ c' ∈ e.children, c'.span.touches offset = true → c' = c) :
    (∃ b ∈ e.preorder, BetweenMinuses offset b) ↔ ∃ b ∈ c.preorder, BetweenMinuses offset b := by
  constructor
  · rintro ⟨b, hb, hbetween⟩
    rcases betweenMinuses_cases htidy hb hbetween with rfl | ⟨c', hc', hb, htouches⟩
    · obtain ⟨d, hd, d', hd', hne, htouches, htouches'⟩ := hbetween.two_touched htidy
      exact absurd ((honly d hd htouches).trans (honly d' hd' htouches').symm) hne
    · obtain rfl := honly c' hc' htouches
      exact ⟨b, hb, hbetween⟩
  · rintro ⟨b, hb, hbetween⟩
    exact ⟨b, mem_preorder.2 (.inr ⟨c, hc, hb⟩), hbetween⟩

/-- Where the caret touches the minus of a negation and something below the operand, it stands
between two minuses. -/
theorem betweenMinuses_of_touched {minus : Span} {right : Expr Float} {s : Span}
    (htidy : (negation minus right s).Tidy) (hleading : right.Leading)
    (hminus : minus.touches offset = true) {c : Expr Float} (hc : c ∈ right.children)
    (htouches : c.span.touches offset = true) : BetweenMinuses offset (negation minus right s) := by
  obtain ⟨hright, -, -, hsequence⟩ := htidy.negation
  obtain ⟨-, hstop⟩ := (Span.touches_iff minus offset).1 hminus
  obtain ⟨hstart, -⟩ := (Span.touches_iff c.span offset).1 htouches
  have hinside := (hright.here.holds c hc).1
  rcases hleading with hapart | ⟨minus', right', s', rfl⟩
  · have hbehind := hapart c hc
    omega
  · obtain ⟨-, hbefore, hordered, hsequence'⟩ := hright.negation
    have hinside' : s'.start ≤ c.span.start := hinside
    have hsequence'' : minus.stop ≤ s'.start := hsequence
    -- the caret, the end of the first minus and the start of the child are one offset
    have hfirst : minus'.start ≤ c.span.start := by
      rcases mem_children_negation.1 hc with rfl | rfl
      · exact Nat.le_refl _
      · omega
    exact ⟨minus, minus', right', s, s', rfl, by omega, by omega⟩

/-- **At a negation whose minus the caret touches**, the `-1` is a deepest node unless the caret
stands between two minuses. -/
theorem deepestAt_negation_iff {minus : Span} {right : Expr Float} {s : Span}
    (htidy : (negation minus right s).Tidy) (hspaced : (negation minus right s).AllSpaced)
    (hleading : right.Leading) (hminus : minus.touches offset = true) :
    DeepestAt offset (negation minus right s) 1 ↔
      ¬ ∃ b ∈ (negation minus right s).preorder, BetweenMinuses offset b := by
  obtain ⟨hright, -, -, hsequence⟩ := htidy.negation
  obtain ⟨-, hstop⟩ := (Span.touches_iff minus offset).1 hminus
  have hoperand : right ∈ (negation minus right s).children := mem_children_negation.2 (.inr rfl)
  constructor
  · rintro hdeepest ⟨b, hb, hbetween⟩
    rcases betweenMinuses_cases htidy hb hbetween with rfl | ⟨c, hc, hbelow, -⟩
    · -- the minus of the operand is one level further down
      obtain ⟨_, minus', right', _, s', hnegation, hoffset, hstart⟩ := hbetween
      cases hnegation
      obtain ⟨-, -, hordered, -⟩ := hright.negation
      have htouches : minus'.touches offset = true := by
        refine (Span.touches_iff minus' offset).2 ?_
        omega
      have hdepth := hdeepest (number (-1) minus') 2
        (.child hoperand (.child (mem_children_negation.2 (.inl rfl)) (.root _))) htouches
      omega
    · rcases mem_children_negation.1 hc with rfl | rfl
      · obtain rfl : b = number (-1) minus := by simpa [preorder] using hbelow
        obtain ⟨_, _, _, _, _, hnegation, -⟩ := hbetween
        cases hnegation
      · -- the caret stands before the operand or right at its start
        have hlt := hbetween.start_lt (hright.of_mem_preorder b hbelow)
          ((allSpaced_iff.1 hspaced).2 c hoperand b hbelow)
        have hinside := (hright.mem_preorder b hbelow).2.1
        omega
  · intro hno n d hn htouches
    cases hn with
    | root => exact Nat.zero_le _
    | child hc hn =>
        rcases mem_children_negation.1 hc with rfl | rfl
        · cases hn with
          | root => exact Nat.le_refl _
          | child hc' hn => cases hc'
        · cases hn with
          | root => exact Nat.le_refl _
          | child hc' hn =>
              have hchild := touches_of_hasAt (hright.of_mem_children _ hc') hn htouches
              exact absurd ⟨_, self_mem_preorder _,
                betweenMinuses_of_touched htidy hleading hminus hc' hchild⟩ hno

/-! ## The result of the search -/

/-- The first child that the caret touches is the only one, or it is the `-1` of a negation. -/
theorem Spaced.only_or_minus (hspaced : e.Spaced) {before after : List (Expr Float)}
    {c : Expr Float} (hsplit : e.children = before ++ c :: after)
    (hc : c.span.touches offset = true) (hbefore : ∀ b ∈ before, b.span.touches offset = false) :
    (∀ c' ∈ e.children, c'.span.touches offset = true → c' = c) ∨
      ∃ minus right s, e = Expr.negation minus right s ∧ right.Leading ∧
        c = number (-1) minus := by
  cases hspaced with
  | apart _ hgaps =>
      left
      -- a child before `c` does not touch the caret, and one behind it stands past a gap
      intro c' hc' htouches
      rw [hsplit, List.pairwise_append, List.pairwise_cons] at hgaps
      rw [hsplit, List.mem_append, List.mem_cons] at hc'
      rcases hc' with hmem | rfl | hmem
      · rw [hbefore c' hmem] at htouches
        cases htouches
      · rfl
      · have hgap := hgaps.2.1.1 c' hmem
        rw [Span.touches_iff] at hc htouches
        omega
  | negation minus right s length hbehind hleading =>
      have hchildren : [number (-1) minus, right] = before ++ c :: after := hsplit
      -- the two children of a negation may both touch the caret; only when the `-1` is the first
      -- that does is the other one hidden behind it
      cases before with
      | nil =>
          obtain ⟨rfl, -⟩ := List.cons.inj hchildren
          exact .inr ⟨minus, right, s, rfl, hleading, rfl⟩
      | cons first before =>
          left
          obtain ⟨rfl, hrest⟩ := List.cons.inj hchildren
          obtain ⟨-, hright⟩ | ⟨x, -, hcons⟩ := List.append_eq_cons_iff.1 hrest.symm
          · obtain ⟨rfl, -⟩ := List.cons.inj hright
            intro c' hc' htouches
            rcases mem_children_negation.1 hc' with rfl | rfl
            · rw [hbefore _ List.mem_cons_self] at htouches
              cases htouches
            · rfl
          · simp at hcons

/-- **The search finds a deepest node** that the caret touches, unless the caret stands between two
minuses. -/
theorem nodeAt_deepest_iff {n : Expr Float} (htidy : e.Tidy) (hspaced : e.AllSpaced)
    (hfound : nodeAt offset e = some n) :
    ∃ d, HasAt e d n ∧ n.span.touches offset = true ∧
      (DeepestAt offset e d ↔ ¬ ∃ b ∈ e.preorder, BetweenMinuses offset b) := by
  induction htidy generalizing n with
  | node e here below ih =>
      have htidy : e.Tidy := .node e here below
      obtain ⟨hroot, hchildren⟩ := allSpaced_iff.1 hspaced
      have htouches := touches_of_nodeAt hfound
      rw [nodeAt_eq, if_pos htouches] at hfound
      -- the search goes into the first child that touches the caret, and stays there
      cases hrow : nodeAtRow offset e.children with
      | none =>
          rw [hrow] at hfound
          obtain rfl := Option.some.inj hfound
          have hnone : ∀ c ∈ e.children, c.span.touches offset = false := by
            intro c hc
            exact (nodeAt_eq_none c).1 ((nodeAtRow_eq_none_iff _).1 hrow c hc)
          exact ⟨0, .root e, htouches, iff_of_true (deepestAt_of_untouched htidy hnone)
            (not_betweenMinuses_of_untouched htidy hnone)⟩
      | some m =>
          rw [hrow] at hfound
          obtain rfl := Option.some.inj hfound
          obtain ⟨before, c, after, hsplit, hc, hbefore⟩ := nodeAtRow_eq_some hrow
          have hmem : c ∈ e.children := by simp [hsplit]
          obtain ⟨d, hn, hntouches, hdeepest⟩ := ih c hmem (hchildren c hmem) hc
          refine ⟨d + 1, .child hmem hn, hntouches, ?_⟩
          -- no other child can hide a deeper node, or the child is the `-1` of a negation: then
          -- what is hidden is below the right operand
          rcases hroot.only_or_minus hsplit (touches_of_nodeAt hc)
            (fun b hb => (nodeAt_eq_none b).1 (hbefore b hb)) with
            honly | ⟨minus, right, s, rfl, hleading, rfl⟩
          · rw [deepestAt_of_only htidy hmem honly, betweenMinuses_of_only htidy hmem honly,
              hdeepest]
          · cases hn with
            | root => exact deepestAt_negation_iff htidy hspaced hleading hntouches
            | child hc' hn => cases hc'

end Expr
end LinearCalc
