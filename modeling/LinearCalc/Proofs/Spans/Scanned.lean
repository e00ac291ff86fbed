import LinearCalc.Proofs.Scanning.LongestWords

set_option autoImplicit false

/-! # Tokens one after the other

The tokens of a text do not overlap, come in the order of the text and lie inside it
(`tokenize_follow`), and none of them is empty. The reason is that a word consists of the characters
that stand where it is found (`munch_length`).
-/

namespace LinearCalc

/-- The tokens come one after the other between two offsets. -/
def Follow (limit : Nat) : Nat → List Token → Prop
  | last, [] => last ≤ limit
  | last, token :: rest => last ≤ token.start ∧ Follow limit token.stop rest

variable {limit : Nat}

theorem Token.start_le_stop (token : Token) : token.start ≤ token.stop :=
  Nat.le_add_right _ _

theorem Follow.mono {last last' : Nat} {tokens : List Token} (h : Follow limit last tokens)
    (hle : last' ≤ last) : Follow limit last' tokens := by
  cases tokens with
  | nil => exact Nat.le_trans hle h
  | cons token rest => exact ⟨Nat.le_trans hle h.1, h.2⟩

theorem Follow.le {last : Nat} {tokens : List Token} (h : Follow limit last tokens) :
    last ≤ limit := by
  induction tokens generalizing last with
  | nil => exact h
  | cons token rest ih =>
      have hrest := ih h.2
      have htoken := token.start_le_stop
      have hstart := h.1
      omega

/-- All tokens start behind the offset that they follow. -/
theorem Follow.le_start {last : Nat} {tokens : List Token} (h : Follow limit last tokens) :
    ∀ t ∈ tokens, last ≤ t.start := by
  induction tokens generalizing last with
  | nil => simp
  | cons token rest ih =>
      intro t ht
      rcases List.mem_cons.1 ht with rfl | ht
      · exact h.1
      · have hrest := ih h.2 t ht
        have htoken := token.start_le_stop
        have hstart := h.1
        omega

/-- Tokens that come one after the other and are not empty are told apart by their spans. -/
theorem Follow.eq_of_span {last : Nat} {tokens : List Token} (h : Follow limit last tokens)
    (hlength : ∀ t ∈ tokens, t.start < t.stop) {a b : Token} (ha : a ∈ tokens) (hb : b ∈ tokens)
    (hspan : a.span = b.span) : a = b := by
  obtain ⟨hstart, -⟩ := Span.mk.inj hspan
  induction tokens generalizing last with
  | nil => cases ha
  | cons token rest ih =>
      have htoken := hlength token (by simp)
      -- all tokens behind this one start behind it, since it is not empty
      have hrest := h.2.le_start
      rw [List.mem_cons] at ha hb
      rcases ha with rfl | ha
      · rcases hb with rfl | hb
        · rfl
        · have hafter := hrest b hb
          omega
      · rcases hb with rfl | hb
        · have hafter := hrest a ha
          omega
        · exact ih h.2 (fun t ht => hlength t (List.mem_cons_of_mem _ ht)) ha hb

/-! ## Words -/

/-- A word covers the character at which it is found, and none behind the end of the text. -/
theorem munch_length {c : Char} {rest : List Char} {word : Lexeme}
    (h : munch c rest = some word) : 1 ≤ word.length ∧ word.length ≤ rest.length + 1 := by
  obtain ⟨after, hsplit, hlongest⟩ := munch_longest h
  have hpos : 0 < word.length := List.length_pos_iff.2 hlongest.ne_nil
  have hlength : rest.length + 1 = word.length + after.length := by
    rw [← List.length_cons, hsplit, List.length_append]
    rfl
  omega

/-! ## Texts -/

theorem scan_follow (offset : Nat) (text : List Char) :
    Follow (offset + text.length) offset (scan offset text) := by
  fun_induction scan offset text with
  | case1 offset => exact Nat.le_refl _
  | case2 offset c rest hnone ih =>
      -- the end of the text stays where it is while the offset moves on
      have hlimit : offset + 1 + rest.length = offset + (c :: rest).length := by
        rw [List.length_cons]
        omega
      rw [hlimit] at ih
      exact ih.mono (Nat.le_succ _)
  | case3 offset c rest word hword ih =>
      obtain ⟨hpos, hfits⟩ := munch_length hword
      have hlimit : offset + word.length + (rest.drop (word.length - 1)).length
          = offset + (c :: rest).length := by
        rw [List.length_drop, List.length_cons]
        omega
      rw [hlimit] at ih
      exact ⟨Nat.le_refl _, ih⟩

/-- No token is empty. -/
theorem scan_start_lt_stop (offset : Nat) (text : List Char) :
    ∀ t ∈ scan offset text, t.start < t.stop := by
  fun_induction scan offset text with
  | case1 offset => simp
  | case2 offset c rest hnone ih => exact ih
  | case3 offset c rest word hword ih =>
      intro t ht
      rcases List.mem_cons.1 ht with rfl | ht
      · have hpos := (munch_length hword).1
        show offset < offset + word.length
        omega
      · exact ih t ht

theorem tokenize_start_lt_stop (text : String) : ∀ t ∈ tokenize text, t.start < t.stop :=
  scan_start_lt_stop 0 text.toList

/-- **The tokens of a text come one after the other inside it.** -/
theorem tokenize_follow (text : String) : Follow text.length 0 (tokenize text) := by
  have h := scan_follow 0 text.toList
  rw [Nat.zero_add, String.length_toList] at h
  exact h

end LinearCalc
