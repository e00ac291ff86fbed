import LinearCalc.Proofs.Layout.Readers

set_option autoImplicit false

/-! # How far readers look ahead

A reader that stops before a token has looked at this token, but at nothing behind it. When the
tokens that it leaves are replaced by others that begin with the same token, it reads the same; and
when they are taken away it still reads the same up to places, since only the place of what is
missing depends on the next token (`chain_alike`).
-/

namespace LinearCalc

/-- What may stand instead of tokens that begin with `token`: nothing, or tokens that begin with it
too. -/
inductive Continues (token : Token) : List Token → Prop where
  | nothing : Continues token []
  | same (more : List Token) : Continues token (token :: more)

/-- Two cursors that stop before `unread` and before `other`, after the same tokens. -/
def Cursor.Alike (unread other : List Token) (c c' : Cursor) : Prop :=
  ∃ used, c.rest = used ++ unread ∧ c' = ⟨used ++ other, c.last⟩

theorem Cursor.Alike.refl (used unread other : List Token) (last : Nat) :
    Cursor.Alike unread other ⟨used ++ unread, last⟩ ⟨used ++ other, last⟩ :=
  ⟨used, rfl, rfl⟩

/-- Two readings that stop before `unread` and before `other` agree, and exactly so if `other` is
not nothing. -/
abbrev Reading.Alike {β γ : Type} (f : β → γ) (unread other : List Token) (r r' : Reading β) :
    Prop :=
  r.Agree (other ≠ []) (Cursor.Alike unread other) f r'

/-- A value that is read without looking at what is left. -/
theorem Reading.Agree.refl {β γ : Type} {f : β → γ} (value : β) (found : List Diagnostic)
    (last : Nat) (used unread other : List Token) :
    Reading.Alike f unread other ⟨value, found, ⟨used ++ unread, last⟩⟩
      ⟨value, found, ⟨used ++ other, last⟩⟩ :=
  ⟨rfl, fun _ => rfl, rfl, .refl used unread other last⟩

open LinearCalc.Expr (erase eraseRows)

variable {token : Token} {more other : List Token}

/-! ## What is left unread -/

/-- What is left behind a token does not begin with this token and all that is behind it. -/
theorem not_unread {rest : List Token} (hunread : token :: more <:+ rest) (htaken : rest <:+ more) :
    False := by
  have hle := Nat.le_trans hunread.length_le htaken.length_le
  rw [List.length_cons] at hle
  omega

/-- A token that is taken stands in front of those that are left unread. -/
theorem exists_used {first : Token} {rest used left : List Token}
    (h : first :: rest = used ++ token :: more) (hunread : token :: more <:+ left)
    (hleft : left <:+ rest) : ∃ used', used = first :: used' ∧ rest = used' ++ token :: more := by
  cases used with
  | nil =>
      obtain ⟨rfl, rfl⟩ := List.cons.inj h
      exact (not_unread hunread hleft).elim
  | cons next used =>
      obtain ⟨rfl, rfl⟩ := List.cons.inj h
      exact ⟨used, rfl, rfl⟩

/-- What is known of the next word holds also where nothing is left, or other tokens behind the
same. -/
theorem Continues.head? (hnext : Continues token other) {P : Lexeme → Prop} (used : List Token)
    (h : ∀ next ∈ (used ++ token :: more).head?, P next.lexeme) :
    ∀ next ∈ (used ++ other).head?, P next.lexeme := by
  cases used with
  | cons first used => exact h
  | nil =>
      cases hnext with
      | nothing => simp
      | same left => simpa using h

/-! ## Passing over -/

/-- What becomes of a word does not depend on what is behind it. -/
theorem skipMinuses_step (last : Nat) (first : Token) :
    (∀ rest, skipMinuses last (first :: rest) = skipMinuses first.stop rest) ∨
      ∀ rest, skipMinuses last (first :: rest) = ⟨first :: rest, last⟩ := by
  by_cases hminus : first.lexeme = .sign .minus
  · left
    intro rest
    rw [skipMinuses, if_pos hminus]
  · right
    intro rest
    rw [skipMinuses, if_neg hminus]

theorem skipBalanced_step (depth last : Nat) (first : Token) :
    (∃ depth', ∀ rest, skipBalanced depth last (first :: rest)
        = skipBalanced depth' first.stop rest) ∨
      (∀ rest, skipBalanced depth last (first :: rest) = .after first rest) ∨
      ∀ rest, skipBalanced depth last (first :: rest) = ⟨first :: rest, last⟩ := by
  -- the first token alone decides whether it is passed over, taken as the last one, or left
  by_cases hopens : first.lexeme.opens = true
  · refine .inl ⟨depth + 1, fun rest => ?_⟩
    rw [skipBalanced.eq_def _ _ (first :: rest)]
    dsimp only
    rw [if_pos hopens]
  · by_cases hcloses : first.lexeme.closes = true
    · rcases depth with _ | _ | depth
      · exact .inr (.inr (fun rest => by rw [skipBalanced, if_neg hopens, if_pos hcloses]))
      · exact .inr (.inl (fun rest => by rw [skipBalanced, if_neg hopens, if_pos hcloses]))
      · exact .inl ⟨depth + 1, fun rest => by rw [skipBalanced, if_neg hopens, if_pos hcloses]⟩
    · by_cases hdepth : depth = 0
      · subst hdepth
        by_cases hstarts : first.lexeme.startsOperand = true
        · refine .inr (.inl (fun rest => ?_))
          rw [skipBalanced, if_neg hopens, if_neg hcloses, if_pos rfl, if_pos hstarts]
        · refine .inr (.inr (fun rest => ?_))
          rw [skipBalanced, if_neg hopens, if_neg hcloses, if_pos rfl, if_neg hstarts]
      · refine .inl ⟨depth, fun rest => ?_⟩
        rw [skipBalanced.eq_def _ _ (first :: rest)]
        dsimp only
        rw [if_neg hopens, if_neg hcloses, if_neg hdepth]

theorem skipMinuses_alike (hnext : Continues token other) (used : List Token) (last : Nat)
    (hunread : token :: more <:+ (skipMinuses last (used ++ token :: more)).rest) :
    Cursor.Alike (token :: more) other (skipMinuses last (used ++ token :: more))
      (skipMinuses last (used ++ other)) := by
  -- the loop cannot take the unread token, so it stops among the tokens before it or at it
  induction used generalizing last with
  | nil =>
      rw [List.nil_append] at hunread ⊢
      rw [List.nil_append]
      rcases skipMinuses_step last token with htaken | hleft
      · rw [htaken] at hunread
        exact (not_unread hunread (skipMinuses_suffix _ _)).elim
      · rw [hleft]
        cases hnext with
        | nothing => exact .refl [] _ _ last
        | same left =>
            rw [hleft]
            exact .refl [] _ _ last
  | cons first used ih =>
      rw [List.cons_append] at hunread ⊢
      rw [List.cons_append]
      rcases skipMinuses_step last first with htaken | hleft
      · rw [htaken] at hunread
        rw [htaken, htaken]
        exact ih first.stop hunread
      · rw [hleft, hleft]
        exact .refl (first :: used) _ _ last

theorem skipBalanced_alike (hnext : Continues token other) (used : List Token) (depth last : Nat)
    (hunread : token :: more <:+ (skipBalanced depth last (used ++ token :: more)).rest) :
    Cursor.Alike (token :: more) other (skipBalanced depth last (used ++ token :: more))
      (skipBalanced depth last (used ++ other)) := by
  -- by the tokens that are read, as for the minuses; the balance changes with them
  induction used generalizing depth last with
  | nil =>
      rw [List.nil_append] at hunread ⊢
      rw [List.nil_append]
      rcases skipBalanced_step depth last token with ⟨depth', htaken⟩ | htaken | hleft
      · rw [htaken] at hunread
        exact (not_unread hunread (skipBalanced_suffix _ _ _)).elim
      · rw [htaken] at hunread
        exact (not_unread hunread (List.suffix_refl more)).elim
      · rw [hleft]
        cases hnext with
        | nothing =>
            rw [skipBalanced]
            exact .refl [] _ _ last
        | same left =>
            rw [hleft]
            exact .refl [] _ _ last
  | cons first used ih =>
      rw [List.cons_append] at hunread ⊢
      rw [List.cons_append]
      rcases skipBalanced_step depth last first with ⟨depth', htaken⟩ | htaken | hleft
      · rw [htaken] at hunread
        rw [htaken, htaken]
        exact ih depth' first.stop hunread
      · rw [htaken, htaken]
        exact .refl used _ _ first.stop
      · rw [hleft, hleft]
        exact .refl (first :: used) _ _ last

theorem skipOperand_alike (hnext : Continues token other) (used : List Token) (last : Nat)
    (hunread : token :: more <:+ (skipOperand ⟨used ++ token :: more, last⟩).rest) :
    Cursor.Alike (token :: more) other (skipOperand ⟨used ++ token :: more, last⟩)
      (skipOperand ⟨used ++ other, last⟩) := by
  unfold skipOperand at hunread ⊢
  dsimp only at hunread ⊢
  obtain ⟨used', hrest, hcursor⟩ := skipMinuses_alike hnext used last
    (hunread.trans (skipBalanced_suffix _ _ _))
  rw [hrest] at hunread ⊢
  rw [hcursor]
  exact skipBalanced_alike hnext used' 0 _ hunread

/-! ## Readers -/

/-- Readings that leave all tokens from `token` on: they are alike whether these or `other` are
there. -/
def lookahead (token : Token) (more other : List Token) : ReaderInvariant where
  ofOperand n after c r := ∀ used, c.rest = used ++ token :: more →
    token :: more <:+ r.cursor.rest →
    r.Alike erase (token :: more) other ((operandReader n).read after ⟨used ++ other, c.last⟩)
  ofLinks n last tokens r := ∀ used, tokens = used ++ token :: more →
    token :: more <:+ r.cursor.rest →
    r.Alike (List.map Link.erase) (token :: more) other
      (links (operandReader n) last (used ++ other))
  ofChain n c r := ∀ used, c.rest = used ++ token :: more → token :: more <:+ r.cursor.rest →
    r.Alike erase (token :: more) other (chain (operandReader n) ⟨used ++ other, c.last⟩)
  ofItems n last tokens r := ∀ used, tokens = used ++ token :: more →
    token :: more <:+ r.cursor.rest →
    r.Alike eraseItems (token :: more) other (readItems (operandReader n) last (used ++ other))

/-- Only the place of what is missing depends on the next token. -/
theorem missingOperand_alike (hnext : Continues token other) (more : List Token)
    (after : Option Nat) (used : List Token) (last : Nat) :
    (missingOperand after ⟨used ++ token :: more, last⟩).Alike erase (token :: more) other
      (missingOperand after ⟨used ++ other, last⟩) := by
  -- behind nothing there is no next token, and the place of what is missing may differ
  have hposition : other ≠ [] → Cursor.position ⟨used ++ token :: more, last⟩
      = Cursor.position ⟨used ++ other, last⟩ := by
    intro hne
    cases used with
    | cons first used => rfl
    | nil =>
        cases hnext with
        | nothing => exact absurd rfl hne
        | same left => rfl
  cases after with
  | none =>
      refine ⟨rfl, fun hne => ?_, rfl, .refl used _ _ last⟩
      simp only [missingOperand, hposition hne]
  | some stop => exact .refl _ _ last used _ _

/-- **No way of reading looks further ahead than one token.** -/
theorem lookahead_kept (hnext : Continues token other) (more : List Token) :
    (lookahead token more other).Kept where
  -- in each clause what is unread lies behind what is read inside: so the inner reading also ends
  -- before it, and may be replaced by the one of the other tokens
  missing n after c hno used hrest _ := by
    obtain ⟨_, last⟩ := c
    obtain rfl := hrest
    have hno' : NoOperand (used ++ other) := hnext.head? (P := (·.startsOperand = false)) used hno
    rw [read_missing n after (c := ⟨used ++ other, last⟩) hno']
    exact missingOperand_alike hnext more after used last
  transpose n after start rest last used hrest hunread := by
    obtain ⟨used, rfl, rfl⟩ := exists_used hrest hunread (List.suffix_refl _)
    rw [List.cons_append, read_transpose]
    exact .refl _ _ _ used _ _
  number n after digits start rest last used hrest hunread := by
    obtain ⟨used, rfl, rfl⟩ := exists_used hrest hunread (List.suffix_refl _)
    rw [List.cons_append, read_number]
    exact .refl _ _ _ used _ _
  tooDeep after first rest last hnests used hrest hunread := by
    have htaken := skipOperand_advances first rest last (Lexeme.startsOperand_of_nests hnests)
    obtain ⟨used, rfl, rfl⟩ := exists_used hrest hunread htaken
    have hskip := skipOperand_alike hnext (first :: used) last hunread
    have hlast : (skipOperand ⟨first :: used ++ other, last⟩).last
        = (skipOperand ⟨first :: used ++ token :: more, last⟩).last := by
      obtain ⟨_, -, hcursor⟩ := hskip
      rw [hcursor]
    rw [List.cons_append, read_tooDeep after first _ last hnests]
    exact ⟨rfl, fun _ => congrArg (fun stop => Expr.placeholder ⟨first.start, stop⟩) hlast.symm,
      rfl, hskip⟩
  negativeNumber n after minus digits start rest last used hrest hunread := by
    obtain ⟨used, rfl, hbehind⟩ := exists_used hrest hunread (List.suffix_cons _ rest)
    obtain ⟨used, rfl, rfl⟩ := exists_used hbehind hunread (List.suffix_refl rest)
    rw [List.cons_append, List.cons_append, read_negativeNumber]
    exact .refl _ _ _ used _ _
  negation n after minus first rest last right hnests hread hright used hrest hunread := by
    have htaken : right.cursor.rest <:+ rest :=
      hread ▸ (operandReader n).advances none first rest (Sign.minus.token minus).stop
        (Lexeme.startsOperand_of_nests hnests)
    obtain ⟨used, rfl, hbehind⟩ := exists_used hrest hunread (htaken.trans (List.suffix_cons _ _))
    have hagree := hright used hbehind hunread
    obtain ⟨used, rfl, rfl⟩ := exists_used hbehind hunread htaken
    rw [List.cons_append, List.cons_append, read_negation n after minus first last hnests rfl]
    exact hagree.negation (fun _ => rfl)
  bareMinus n after minus rest last hnothing used hrest hunread := by
    obtain ⟨used, rfl, rfl⟩ := exists_used hrest hunread (List.suffix_refl _)
    rw [List.cons_append, read_bareMinus n after minus _ last
      (hnext.head? (P := (·.negatable = false)) used hnothing)]
    exact .refl _ _ _ used _ _
  closed n after opening closing rest left last inner hread hclosed hinner used hrest hunread := by
    have hleft : left <:+ inner.cursor.rest := hclosed ▸ List.suffix_cons _ _
    have htaken : inner.cursor.rest <:+ rest := hread ▸ chain_suffix _ _
    obtain ⟨used, rfl, hbehind⟩ := exists_used hrest hunread (hleft.trans htaken)
    have hagree := hinner used hbehind (List.IsSuffix.trans hunread hleft)
    obtain ⟨used', hrest', hcursor⟩ := hagree.cursor
    obtain ⟨used', rfl, rfl⟩ := exists_used (hclosed.symm.trans hrest') hunread (List.suffix_refl _)
    rw [List.cons_append,
      read_closed n after opening closing last rfl (congrArg Cursor.rest hcursor)]
    exact hagree.closed (fun _ => ⟨rfl, rfl⟩) (.refl used' _ _ _)
  unclosed n after opening rest last inner hread hopen hinner used hrest hunread := by
    have htaken : inner.cursor.rest <:+ rest := hread ▸ chain_suffix _ _
    obtain ⟨used, rfl, hbehind⟩ := exists_used hrest hunread htaken
    obtain ⟨inner', hread', hagree⟩ : ∃ inner', chain (operandReader n)
          (.after (Mark.openParen.token opening) (used ++ other)) = inner' ∧
        inner.Alike erase (token :: more) other inner' :=
      ⟨_, rfl, hinner used hbehind hunread⟩
    -- the token that shows the bracket missing is the unread one, or it stands before
    have hopen' : NotClosed inner'.cursor.rest := by
      obtain ⟨used', hrest', hcursor⟩ := hagree.cursor
      rw [hrest'] at hopen
      rw [hcursor]
      exact hnext.head? (P := (· ≠ .mark .closeParen)) used' hopen
    rw [List.cons_append, read_unclosed n after opening last hread' hopen']
    exact hagree.unclosed (fun _ => rfl)
  matrix n after opening rest last found hread hfound used hrest hunread := by
    have htaken : found.cursor.rest <:+ rest := hread ▸ readItems_suffix _ _ _
    obtain ⟨used, rfl, rfl⟩ := exists_used hrest hunread htaken
    rw [List.cons_append, read_matrix n after opening last rfl]
    exact (hfound used rfl hunread).matrix (fun _ => rfl)
  noLinks n last tokens hno used hrest _ := by
    obtain rfl := hrest
    rw [links_of_noSign _ last (hnext.head? (P := fun l => ∀ s, l ≠ .sign s) used hno)]
    exact .refl [] [] last used _ _
  link n last s start rest right links hread hlinks hright hmore used hrest hunread := by
    have htaken : right.cursor.rest <:+ rest := hread ▸ (operandReader n).suffix _ _
    have hleft : links.cursor.rest <:+ right.cursor.rest := hlinks ▸ links_suffix _ _ _
    obtain ⟨used, rfl, rfl⟩ := exists_used hrest hunread (hleft.trans htaken)
    obtain ⟨right', hread', hagree⟩ : ∃ right', (operandReader n).read (some (s.token start).stop)
          (.after (s.token start) (used ++ other)) = right' ∧
        right.Alike erase (token :: more) other right' :=
      ⟨_, rfl, hright used rfl (List.IsSuffix.trans hunread hleft)⟩
    rw [List.cons_append, links_sign _ last s start _ hread']
    obtain ⟨used', hrest', hcursor⟩ := hagree.cursor
    refine hagree.link ?_ s (fun _ => rfl)
    rw [hcursor]
    exact hmore used' hrest' hunread
  grouped n c first links hread hlinks hfirst hmore used hrest hunread := by
    have hleft : links.cursor.rest <:+ first.cursor.rest := hlinks ▸ links_suffix _ _ _
    have hagree := hfirst used hrest (List.IsSuffix.trans hunread hleft)
    obtain ⟨used', hrest', hcursor⟩ := hagree.cursor
    refine hagree.grouped ?_
    rw [hcursor]
    exact hmore used' hrest' hunread
  noBracket n last used hrest _ := by
    simp at hrest
  bracket n last closing rest used hrest hunread := by
    obtain ⟨used, rfl, rfl⟩ := exists_used hrest hunread (List.suffix_refl _)
    rw [List.cons_append, readItems_close]
    exact .refl _ _ _ used _ _
  separator n last first item rest items hseparates hread hmore used hrest hunread := by
    have htaken : items.cursor.rest <:+ rest := hread ▸ readItems_suffix _ _ _
    obtain ⟨used, rfl, rfl⟩ := exists_used hrest hunread htaken
    rw [List.cons_append, readItems_separator _ last hseparates]
    exact (hmore used rfl hunread).item rfl (fun _ => rfl)
  stray n last start rest items hread hmore used hrest hunread := by
    have htaken : items.cursor.rest <:+ rest := hread ▸ readItems_suffix _ _ _
    obtain ⟨used, rfl, rfl⟩ := exists_used hrest hunread htaken
    rw [List.cons_append, readItems_stray]
    exact (hmore used rfl hunread).precededBy rfl
  element n last first rest e items hrole hread hitems hchain hmore used hrest hunread := by
    have htaken : e.cursor.rest <:+ rest :=
      hread ▸ chain_advances _ first rest last (Lexeme.startsOperand_or_sign_of_role hrole)
    have hleft : items.cursor.rest <:+ e.cursor.rest := hitems ▸ readItems_suffix _ _ _
    obtain ⟨used, rfl, rfl⟩ := exists_used hrest hunread (hleft.trans htaken)
    obtain ⟨e', hread', hagree⟩ : ∃ e', chain (operandReader n)
          ⟨first :: (used ++ other), last⟩ = e' ∧ e.Alike erase (token :: more) other e' :=
      ⟨_, rfl, hchain (first :: used) rfl (List.IsSuffix.trans hunread hleft)⟩
    rw [List.cons_append, readItems_element _ last first _ hrole hread']
    obtain ⟨used', hrest', hcursor⟩ := hagree.cursor
    refine hagree.element ?_
    rw [hcursor]
    exact hmore used' hrest' hunread

/-- **No chain is read with a look at more than the next token.** -/
theorem chain_alike (hnext : Continues token other) (n : Nat) (used : List Token) (last : Nat)
    (hunread : token :: more
      <:+ (chain (operandReader n) ⟨used ++ token :: more, last⟩).cursor.rest) :
    (chain (operandReader n) ⟨used ++ token :: more, last⟩).Alike erase (token :: more) other
      (chain (operandReader n) ⟨used ++ other, last⟩) :=
  (lookahead_kept hnext more).chain n ⟨used ++ token :: more, last⟩ used rfl hunread

end LinearCalc
