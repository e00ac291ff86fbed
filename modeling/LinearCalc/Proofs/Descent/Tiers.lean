import LinearCalc.Proofs.Grouping

set_option autoImplicit false

/-! # Chains of the tighter operators

`linksTo n` reads links like `links` does, but only as long as the signs are of the `n` tightest
tiers; `chainTo n` groups them. The chain of `n + 1` tiers is that of `n` tiers, continued by signs
of tier `n` each with a chain of `n` tiers after it, joined from the left
(`linksTo_split`, `assembleTo_succ_append`).
-/

namespace LinearCalc

/-! ## Grouping -/

/-- What a pass leaves are operators that it does not join. -/
theorem mem_fuse (level : Nat) (first : Expr Float) (links : List Link) :
    ∀ link ∈ (fuse level first links).2, link.op.binding ≠ level ∧
      ∃ l ∈ links, l.op = link.op := by
  induction links generalizing first with
  | nil =>
      intro link hlink
      simp [fuse] at hlink
  | cons l links ih =>
      intro link hlink
      -- an operator of this level is joined and goes away; any other is left where it is
      by_cases hl : l.op.binding = level
      · rw [fuse, if_pos hl] at hlink
        obtain ⟨hne, l', hmem, hop⟩ := ih _ link hlink
        exact ⟨hne, l', List.mem_cons_of_mem _ hmem, hop⟩
      · rw [fuse, if_neg hl] at hlink
        rcases List.mem_cons.1 hlink with rfl | hlink
        · exact ⟨hl, l, List.mem_cons_self, rfl⟩
        · obtain ⟨hne, l', hmem, hop⟩ := ih _ link hlink
          exact ⟨hne, l', List.mem_cons_of_mem _ hmem, hop⟩

/-- The tightest `n` passes leave looser operators only. -/
theorem mem_assembleTo (n : Nat) (first : Expr Float) (links : List Link) :
    ∀ link ∈ (assembleTo n first links).2, n ≤ link.op.tier ∧ ∃ l ∈ links, l.op = link.op := by
  induction n with
  | zero =>
      intro link hlink
      exact ⟨Nat.zero_le _, link, hlink, rfl⟩
  | succ n ih =>
      intro link hlink
      obtain ⟨hne, l, hl, hop⟩ := mem_fuse _ _ _ link hlink
      obtain ⟨hle, l', hl', hop'⟩ := ih l hl
      have htier := l.op.binding_add_tier
      rw [hop] at hle htier
      exact ⟨by omega, l', hl', hop'.trans hop⟩

/-- Nothing is left of a chain of the tightest operators. -/
theorem assembleTo_eq_nil {n : Nat} (first : Expr Float) {links : List Link}
    (h : ∀ link ∈ links, link.op.tier < n) : (assembleTo n first links).2 = [] := by
  rw [List.eq_nil_iff_forall_not_mem]
  intro link hlink
  obtain ⟨hle, l, hl, hop⟩ := mem_assembleTo n first links link hlink
  have hlt := h l hl
  rw [hop] at hlt
  omega

/-- An operand alone is grouped already. -/
theorem assembleTo_nil (n : Nat) (first : Expr Float) : assembleTo n first [] = (first, []) := by
  induction n with
  | zero => rfl
  | succ n ih =>
      rw [assembleTo, ih]
      rfl

/-- One more pass changes nothing in such a chain. -/
theorem assembleTo_succ_of_lt {n : Nat} (first : Expr Float) {links : List Link}
    (h : ∀ link ∈ links, link.op.tier < n) :
    (assembleTo (n + 1) first links).1 = (assembleTo n first links).1 := by
  rw [assembleTo, assembleTo_eq_nil first h]
  rfl

/-- **A further operator of the loosest tier is joined last.** Its operand is grouped apart. -/
theorem assembleTo_succ_append {n : Nat} (first : Expr Float) {before after : List Link}
    {link : Link} (hbefore : ∀ l ∈ before, l.op.tier < n + 1) (hlink : link.op.tier = n)
    (hafter : ∀ l ∈ after, l.op.tier < n) :
    (assembleTo (n + 1) first (before ++ link :: after)).1
      = (assembleTo (n + 1) first before).1.join
          { link with operand := (assembleTo n link.operand after).1 } := by
  -- what the tightest `n` passes leave is all of tier `n`
  have hlevel : ∀ l ∈ (assembleTo n first before).2, l.op.binding = 3 - n := by
    intro l hl
    obtain ⟨hle, l', hl', hop⟩ := mem_assembleTo n first before l hl
    have hlt := hbefore l' hl'
    have htier := l.op.binding_add_tier
    rw [hop] at hlt
    omega
  have hbinding : link.op.binding = 3 - n := by
    have htier := link.op.binding_add_tier
    omega
  simp only [assembleTo, assembleTo_append_cons n first before link after (by omega),
    assembleTo_eq_nil link.operand hafter]
  rw [fuse_eq_foldl _ _ _ hlevel, fuse_eq_foldl, List.foldl_append]
  · rfl
  · intro l hl
    rcases List.mem_append.1 hl with hl | hl
    · exact hlevel l hl
    · rw [List.mem_singleton.1 hl]
      exact hbinding

/-! ## Reading -/

/-- The links of a chain up to the first sign that is not of the `n` tightest tiers. -/
def linksTo (operand : OperandReader) (n last : Nat) : List Token → Reading (List Link)
  | [] => ⟨[], [], ⟨[], last⟩⟩
  | token :: rest =>
    match token.lexeme with
    | .sign s =>
      if s.operator.tier < n then
        let right := operand.read (some token.stop) (.after token rest)
        let more := linksTo operand n right.cursor.last right.cursor.rest
        (more.map (⟨s.operator, token.span, right.value⟩ :: ·)).precededBy right.diagnostics
      else
        ⟨[], [], ⟨token :: rest, last⟩⟩
    | _ => ⟨[], [], ⟨token :: rest, last⟩⟩
termination_by tokens => tokens.length
decreasing_by
  have h := (operand.suffix (some token.stop) (.after token rest)).length_le
  simp at h ⊢
  omega

/-- Reads a chain of the `n` tightest tiers and groups it. -/
def chainTo (operand : OperandReader) (n : Nat) (after : Option Nat) (c : Cursor) :
    Reading (Expr Float) :=
  let first := operand.read after c
  let more := linksTo operand n first.cursor.last first.cursor.rest
  (more.map (fun links => (assembleTo n first.value links).1)).precededBy first.diagnostics

variable (operand : OperandReader)

theorem linksTo_suffix (n last : Nat) (tokens : List Token) :
    (linksTo operand n last tokens).cursor.rest <:+ tokens := by
  fun_induction linksTo operand n last tokens with
  | case1 => exact List.suffix_refl _
  | case2 last token rest s hsign htier right more ih =>
      have hright := operand.suffix (some token.stop) (.after token rest)
      exact (ih.trans hright).trans (List.suffix_cons _ _)
  | case3 => exact List.suffix_refl _
  | case4 => exact List.suffix_refl _

theorem chainTo_suffix (n : Nat) (after : Option Nat) (c : Cursor) :
    (chainTo operand n after c).cursor.rest <:+ c.rest :=
  (linksTo_suffix operand n _ _).trans (operand.suffix after c)

theorem linksTo_tiers (n last : Nat) (tokens : List Token) :
    ∀ link ∈ (linksTo operand n last tokens).value, link.op.tier < n := by
  fun_induction linksTo operand n last tokens with
  | case1 => simp
  | case2 last token rest s hsign htier right more ih =>
      intro link hlink
      rcases List.mem_cons.1 hlink with rfl | hlink
      · exact htier
      · exact ih link hlink
  | case3 => simp
  | case4 => simp

/-- The links end before a sign that is looser. -/
theorem linksTo_next (n last : Nat) (tokens : List Token) :
    ∀ token ∈ (linksTo operand n last tokens).cursor.rest.head?, ∀ s, token.lexeme = .sign s →
      n ≤ s.operator.tier := by
  fun_induction linksTo operand n last tokens with
  | case1 => simp
  | case2 last token rest s hsign htier right more ih => exact ih
  | case3 last token rest s hsign htier =>
      intro next hnext s' hs'
      cases hnext
      rw [hsign] at hs'
      cases hs'
      omega
  | case4 last token rest hno =>
      intro next hnext s' hs'
      cases hnext
      exact absurd hs' (hno s')

/-- There are no links where no sign of the tiers comes next. -/
theorem linksTo_stop {n : Nat} (last : Nat) (tokens : List Token)
    (h : ∀ token ∈ tokens.head?, ∀ s, token.lexeme = .sign s → n ≤ s.operator.tier) :
    linksTo operand n last tokens = ⟨[], [], ⟨tokens, last⟩⟩ := by
  fun_cases linksTo operand n last tokens with
  | case1 => rfl
  | case2 token rest s hsign htier right more =>
      have hle := h token rfl s hsign
      omega
  | case3 => rfl
  | case4 => rfl

/-- **The links of some tiers start with those of fewer tiers.** -/
theorem linksTo_split {m n : Nat} (h : m ≤ n) (last : Nat) (tokens : List Token) :
    linksTo operand n last tokens
      = ((linksTo operand n (linksTo operand m last tokens).cursor.last
            (linksTo operand m last tokens).cursor.rest).map
          ((linksTo operand m last tokens).value ++ ·)).precededBy
        (linksTo operand m last tokens).diagnostics := by
  fun_induction linksTo operand m last tokens with
  | case1 => rfl
  | case2 last token rest s hsign htier right more ih =>
      rw [linksTo, hsign]
      simp only [show s.operator.tier < n by omega, if_true]
      rw [ih]
      simp only [Reading.map, Reading.precededBy, List.cons_append, List.append_assoc]
      rfl
  | case3 => rfl
  | case4 => rfl

/-- The links of `n + 1` tiers from a sign of tier `n` on: the sign with its operand, the links of
`n` tiers after that, and so on. -/
theorem linksTo_sign {n : Nat} {token : Token} {s : Sign} (hsign : token.lexeme = .sign s)
    (htier : s.operator.tier = n) (last : Nat) (rest : List Token) :
    linksTo operand (n + 1) last (token :: rest)
      = let right := operand.read (some token.stop) (.after token rest)
        let inner := linksTo operand n right.cursor.last right.cursor.rest
        let more := linksTo operand (n + 1) inner.cursor.last inner.cursor.rest
        ⟨⟨s.operator, token.span, right.value⟩ :: (inner.value ++ more.value),
          right.diagnostics ++ (inner.diagnostics ++ more.diagnostics), more.cursor⟩ := by
  rw [linksTo, hsign]
  simp only [htier, Nat.lt_succ_self, if_true]
  rw [linksTo_split operand (Nat.le_succ n)]
  rfl

/-- No sign is looser than the fourth tier. -/
theorem linksTo_four (last : Nat) (tokens : List Token) :
    linksTo operand 4 last tokens = links operand last tokens := by
  fun_induction links operand last tokens with
  | case1 => rw [linksTo]
  | case2 last token rest s hsign right more ih =>
      have htier : s.operator.tier < 4 := by
        have := s.operator.binding_add_tier
        omega
      rw [linksTo, hsign]
      simp only [htier, if_true]
      rw [ih]
  | case3 last token rest hno =>
      rw [linksTo]
      split
      · exact absurd ‹_› (hno _)
      · rfl

/-- Without operators a chain is its operand. -/
theorem chainTo_zero (after : Option Nat) (c : Cursor) :
    chainTo operand 0 after c = operand.read after c := by
  have hlinks : ∀ last tokens, linksTo operand 0 last tokens = ⟨[], [], ⟨tokens, last⟩⟩ := by
    intro last tokens
    exact linksTo_stop operand last tokens (fun _ _ s _ => Nat.zero_le s.operator.tier)
  simp [chainTo, hlinks, assembleTo]

theorem chainTo_four (c : Cursor) : chainTo operand 4 none c = chain operand c := by
  simp only [chainTo, chain, linksTo_four]
  rfl

end LinearCalc
