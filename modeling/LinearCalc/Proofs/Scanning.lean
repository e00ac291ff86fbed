import LinearCalc.Proofs.Scanning.Numerals
import LinearCalc.Proofs.Spans.Scanned

set_option autoImplicit false

/-! # The tokens of a text

Scanning cuts a text into longest words, and there is no other way to do so (`tokenize_exact`).
What such a cut is does not mention the scanner: pieces of the text that do not overlap, each of
them a word that cannot be made longer, with nothing outside them that could belong to a word
(`LongestCut`). The proof follows the scanner through the text: at each offset the next character
settles whether a piece starts there (`LongestCut.skip_iff`), and which one
(`LongestCut.word_iff`).
-/

namespace LinearCalc

/-! ## Excerpts -/

/-- A piece of a text with the kind of word it is taken for. -/
structure Excerpt where
  kind : String
  chars : List Char
  start : Nat
  stop : Nat

def Token.excerpt (t : Token) : Excerpt := ⟨t.lexeme.kind, t.lexeme.chars, t.start, t.stop⟩

/-- The piece lies in the text, and its characters are those from its start to its stop. -/
def Excerpt.Reads (p : Excerpt) (text : List Char) : Prop :=
  p.stop ≤ text.length ∧ (text.drop p.start).take (p.stop - p.start) = p.chars

/-- The character at the offset belongs to the piece. -/
def Excerpt.Covers (p : Excerpt) (i : Nat) : Prop := p.start ≤ i ∧ i < p.stop

/-- The pieces cut the text, from an offset on, into words that cannot be longer. -/
structure LongestCut (text : List Char) (offset : Nat) (pieces : List Excerpt) : Prop where
  nonempty : ∀ p ∈ pieces, p.start < p.stop
  apart : pieces.Pairwise (fun p q => p.stop ≤ q.start)
  behind : ∀ p ∈ pieces, offset ≤ p.start
  reads : ∀ p ∈ pieces, p.Reads text
  longest : ∀ p ∈ pieces, LongestWord p.kind p.chars text[p.stop]?
  dropped : ∀ i c, offset ≤ i → text[i]? = some c → (∀ p ∈ pieces, ¬ p.Covers i) → ¬ Scannable c

variable {text : List Char} {offset : Nat} {pieces : List Excerpt}

theorem Excerpt.Reads.length {p : Excerpt} (h : p.Reads text) :
    p.stop - p.start = p.chars.length := by
  have hstop := h.1
  rw [← h.2, List.length_take, List.length_drop]
  omega

/-- A piece stands in the text from its start on, and after it comes what comes after it. -/
theorem Excerpt.Reads.split {p : Excerpt} (h : p.Reads text) (hne : p.start < p.stop) :
    ∃ after, text.drop p.start = p.chars ++ after ∧ text[p.stop]? = after.head? := by
  refine ⟨(text.drop p.start).drop (p.stop - p.start), ?_, ?_⟩
  · rw [← h.2, List.take_append_drop]
  · rw [List.head?_drop, List.getElem?_drop]
    congr 1
    omega

/-- A word that stands in the text is a piece of it. -/
theorem Token.excerpt_reads (token : Token) {after : List Char} (hne : 0 < token.lexeme.length)
    (h : text.drop token.start = token.lexeme.chars ++ after) :
    token.excerpt.Reads text ∧ text[token.stop]? = after.head? := by
  have hlength : token.excerpt.stop - token.excerpt.start = token.lexeme.chars.length :=
    Nat.add_sub_cancel_left _ _
  have hfits : token.start + token.lexeme.length ≤ text.length := by
    have htotal := congrArg List.length h
    rw [List.length_drop, List.length_append] at htotal
    rw [Lexeme.length] at hne ⊢
    omega
  refine ⟨⟨hfits, ?_⟩, ?_⟩
  · show (text.drop token.start).take (token.excerpt.stop - token.excerpt.start)
      = token.lexeme.chars
    rw [h, hlength, List.take_left]
  · have hnext : (text.drop token.start)[token.lexeme.length]? = after.head? := by
      rw [h, Lexeme.length, List.getElem?_append_right (Nat.le_refl _), Nat.sub_self,
        List.head?_eq_getElem?]
    rw [← hnext, List.getElem?_drop]
    rfl

/-! ## One step through the text -/

/-- Behind the text there is nothing to cut. -/
theorem LongestCut.end_iff (h : text.drop offset = []) :
    LongestCut text offset pieces ↔ pieces = [] := by
  have hlength : text.length ≤ offset := List.drop_eq_nil_iff.1 h
  constructor
  · intro hcut
    cases pieces with
    | nil => rfl
    | cons p more =>
        have hbehind := hcut.behind p (by simp)
        -- a piece is not empty, and it would have to be read off the empty rest
        obtain ⟨after, hsplit, -⟩ := (hcut.reads p (by simp)).split (hcut.nonempty p (by simp))
        rw [List.drop_eq_nil_of_le (Nat.le_trans hlength hbehind)] at hsplit
        exact absurd (List.append_eq_nil_iff.1 hsplit.symm).1 (hcut.longest p (by simp)).ne_nil
  · rintro rfl
    refine ⟨by simp, List.Pairwise.nil, by simp, by simp, by simp, ?_⟩
    intro i c hi hc
    rw [List.getElem?_eq_none (Nat.le_trans hlength hi)] at hc
    cases hc

/-- A piece that starts at the offset is what the scanner finds there. -/
theorem LongestCut.munch_of_start {c : Char} {rest : List Char}
    (hcut : LongestCut text offset pieces) (h : text.drop offset = c :: rest) {p : Excerpt}
    (hp : p ∈ pieces) (hstart : p.start = offset) :
    ∃ word, munch c rest = some word ∧ p = Token.excerpt ⟨word, offset⟩ := by
  have hreads := hcut.reads p hp
  have hne := hcut.nonempty p hp
  obtain ⟨after, hsplit, hnext⟩ := hreads.split hne
  have hlongest := hcut.longest p hp
  rw [hnext] at hlongest
  rw [hstart, h] at hsplit
  -- two longest words of one text begin with the same characters, so they are one
  obtain ⟨word, hword, hkind, hchars⟩ := munch_of_longest hsplit hlongest
  refine ⟨word, hword, ?_⟩
  have hlength := hreads.length
  obtain ⟨kind, chars, start, stop⟩ := p
  dsimp only at hkind hchars hlength hne hstart
  have hstop : stop = offset + word.length := by
    rw [Lexeme.length, hchars, ← hlength]
    omega
  rw [Token.excerpt, Token.stop, hkind, hchars, hstart, hstop]

/-- Where the scanner finds nothing, no piece starts, and the character is dropped. -/
theorem LongestCut.skip_iff {c : Char} {rest : List Char} (h : text.drop offset = c :: rest)
    (hnone : munch c rest = none) :
    LongestCut text offset pieces ↔ LongestCut text (offset + 1) pieces := by
  constructor
  · intro hcut
    refine ⟨hcut.nonempty, hcut.apart, ?_, hcut.reads, hcut.longest, ?_⟩
    · intro p hp
      have hbehind := hcut.behind p hp
      -- a piece that starts here would be a word that the scanner finds
      have hne : p.start ≠ offset := by
        intro hstart
        obtain ⟨word, hword, -⟩ := hcut.munch_of_start h hp hstart
        rw [hnone] at hword
        cases hword
      omega
    · intro i c' hi
      exact hcut.dropped i c' (by omega)
  · intro hcut
    refine ⟨hcut.nonempty, hcut.apart, ?_, hcut.reads, hcut.longest, ?_⟩
    · intro p hp
      exact Nat.le_trans (Nat.le_succ offset) (hcut.behind p hp)
    · intro i c' hi hc' hfree
      -- the character here is dropped because it begins no word
      by_cases hoffset : i = offset
      · have hfirst : text[offset]? = some c := by
          rw [← List.head?_drop, h]
          rfl
        rw [hoffset, hfirst] at hc'
        cases hc'
        exact not_scannable_of_munch hnone
      · exact hcut.dropped i c' (by omega) hc' hfree

/-- Where the scanner finds a word, a piece starts. -/
theorem LongestCut.exists_start (hcut : LongestCut text offset pieces) {c : Char}
    {rest : List Char} (h : text.drop offset = c :: rest) (hscannable : Scannable c) :
    ∃ p ∈ pieces, p.start = offset := by
  refine Classical.byContradiction (fun hnone => ?_)
  have hfirst : text[offset]? = some c := by
    rw [← List.head?_drop, h]
    rfl
  refine hcut.dropped offset c (Nat.le_refl _) hfirst ?_ hscannable
  intro p hp hcovers
  exact hnone ⟨p, hp, Nat.le_antisymm hcovers.1 (hcut.behind p hp)⟩

/-- The piece that starts first is the first one. -/
theorem LongestCut.head_start {p : Excerpt} {more : List Excerpt}
    (hcut : LongestCut text offset (p :: more)) (h : ∃ q ∈ p :: more, q.start = offset) :
    p.start = offset := by
  obtain ⟨q, hq, hstart⟩ := h
  rcases List.mem_cons.1 hq with rfl | hq
  · exact hstart
  · have hstop := (List.pairwise_cons.1 hcut.apart).1 q hq
    have hne := hcut.nonempty p (by simp)
    have hbehind := hcut.behind p (by simp)
    omega

/-- The other pieces cut what comes behind the first one. -/
theorem LongestCut.tail {p : Excerpt} {more : List Excerpt}
    (hcut : LongestCut text offset (p :: more)) : LongestCut text p.stop more := by
  obtain ⟨hbefore, hapart⟩ := List.pairwise_cons.1 hcut.apart
  have hne := hcut.nonempty p (by simp)
  have hbehind := hcut.behind p (by simp)
  refine ⟨fun q hq => hcut.nonempty q (by simp [hq]), hapart, hbefore,
    fun q hq => hcut.reads q (by simp [hq]), fun q hq => hcut.longest q (by simp [hq]), ?_⟩
  intro i c hi hc hfree
  refine hcut.dropped i c (by omega) hc ?_
  intro q hq hcovers
  rcases List.mem_cons.1 hq with rfl | hq
  · have hinside : i < q.stop := hcovers.2
    omega
  · exact hfree q hq hcovers

/-- A word in front of a cut of what comes behind it. -/
theorem LongestCut.cons {p : Excerpt} {more : List Excerpt} (hne : p.start < p.stop)
    (hreads : p.Reads text) (hlongest : LongestWord p.kind p.chars text[p.stop]?)
    (hcut : LongestCut text p.stop more) : LongestCut text p.start (p :: more) := by
  refine ⟨?_, List.pairwise_cons.2 ⟨hcut.behind, hcut.apart⟩, ?_, ?_, ?_, ?_⟩
  · exact List.forall_mem_cons.2 ⟨hne, hcut.nonempty⟩
  · refine List.forall_mem_cons.2 ⟨Nat.le_refl _, ?_⟩
    intro q hq
    exact Nat.le_trans (Nat.le_of_lt hne) (hcut.behind q hq)
  · exact List.forall_mem_cons.2 ⟨hreads, hcut.reads⟩
  · exact List.forall_mem_cons.2 ⟨hlongest, hcut.longest⟩
  · intro i c hi hc hfree
    refine hcut.dropped i c ?_ hc (fun q hq => hfree q (List.mem_cons_of_mem p hq))
    -- what is not behind the word belongs to it
    refine Nat.le_of_not_lt (fun hinside => ?_)
    exact hfree p List.mem_cons_self ⟨hi, hinside⟩

/-- **Where the scanner finds a word, that word is the first piece**, and the others cut what comes
behind it. -/
theorem LongestCut.word_iff {c : Char} {rest : List Char} (h : text.drop offset = c :: rest)
    {word : Lexeme} (hword : munch c rest = some word) :
    LongestCut text offset pieces ↔ ∃ more, pieces = Token.excerpt ⟨word, offset⟩ :: more ∧
      LongestCut text (offset + word.length) more := by
  constructor
  · intro hcut
    -- what the scanner finds is not dropped, so some piece starts here, and it is the first one
    have hstarts := hcut.exists_start h (scannable_of_munch hword)
    cases pieces with
    | nil =>
        obtain ⟨p, hp, -⟩ := hstarts
        cases hp
    | cons p more =>
        obtain ⟨word', hword', rfl⟩ :=
          hcut.munch_of_start h List.mem_cons_self (hcut.head_start hstarts)
        rw [hword] at hword'
        cases hword'
        exact ⟨more, rfl, hcut.tail⟩
  · rintro ⟨more, rfl, hcut⟩
    obtain ⟨after, hsplit, hlongest⟩ := munch_longest hword
    have hpos : 0 < word.length := (munch_length hword).1
    obtain ⟨hreads, hnext⟩ :=
      Token.excerpt_reads ⟨word, offset⟩ hpos (h.trans hsplit)
    rw [← hnext] at hlongest
    exact hcut.cons (Nat.lt_add_of_pos_right hpos) hreads hlongest

/-! ## Whole texts -/

/-- **The scanner cuts the text from an offset on into longest words, and this is the only way.** -/
theorem longestCut_iff (chars : List Char) (h : text.drop offset = chars) :
    LongestCut text offset pieces ↔ pieces = (scan offset chars).map Token.excerpt := by
  -- one case for each step of the scanner: the end, a dropped character, and a word
  fun_induction scan offset chars generalizing pieces with
  | case1 offset => exact LongestCut.end_iff h
  | case2 offset c rest hnone ih =>
      have hrest : text.drop (offset + 1) = rest := by
        rw [← List.drop_drop, h]
        rfl
      rw [LongestCut.skip_iff h hnone, ih hrest]
  | case3 offset c rest word hword ih =>
      have hpos : 0 < word.length := (munch_length hword).1
      have hrest : text.drop (offset + word.length) = rest.drop (word.length - 1) := by
        obtain ⟨n, hn⟩ : ∃ n, word.length = n + 1 := ⟨word.length - 1, by omega⟩
        rw [← List.drop_drop, h, hn]
        rfl
      rw [LongestCut.word_iff h hword, List.map_cons]
      constructor
      · rintro ⟨more, rfl, hmore⟩
        rw [(ih hrest).1 hmore]
      · intro hpieces
        exact ⟨_, hpieces, (ih hrest).2 rfl⟩

/-- **The tokens of a text are its only cut into longest words**, and its numbers are numerals. Each
word is what stands in the text at its place, none could have been continued, none overlaps the next
one, and no character outside them can belong to a word. The equivalence says both that the tokens
are such a cut and that there is no other. -/
theorem tokenize_exact (text : String) :
    (∀ pieces, LongestCut text.toList 0 pieces ↔
      pieces = (tokenize text).map Token.excerpt) ∧
    ∀ token ∈ tokenize text, token.lexeme.kind = "Number" →
      ∃ v, readDecimal? token.lexeme.text = some v := by
  have hcut : ∀ pieces, LongestCut text.toList 0 pieces ↔
      pieces = (tokenize text).map Token.excerpt :=
    fun pieces => longestCut_iff text.toList rfl
  refine ⟨hcut, ?_⟩
  intro token htoken hkind
  have hlongest := ((hcut _).2 rfl).longest token.excerpt (List.mem_map_of_mem htoken)
  have hnumber : LongestWord "Number" token.lexeme.chars text.toList[token.stop]? := by
    rw [← hkind]
    exact hlongest
  exact hnumber.exists_decimal

/-- The cut of `1.2.3`, whose first number takes in one point only. -/
theorem tokenize_exact_points :
    LongestCut "1.2.3".toList 0
      [⟨"Number", ['1', '.', '2'], 0, 3⟩, ⟨"Number", ['.', '3'], 3, 5⟩] ∧
    ⟨.number ['.', '3'], 3⟩ ∈ tokenize "1.2.3" ∧
    ∃ v, readDecimal? (Lexeme.text (.number ['.', '3'])) = some v := by
  have htokens : tokenize "1.2.3"
      = [⟨.number ['1', '.', '2'], 0⟩, ⟨.number ['.', '3'], 3⟩] := by decide +kernel
  have hlast : ⟨.number ['.', '3'], 3⟩ ∈ tokenize "1.2.3" := by
    rw [htokens]
    simp
  obtain ⟨hcut, hnumbers⟩ := tokenize_exact "1.2.3"
  have hdecimal := hnumbers _ hlast rfl
  refine ⟨(hcut _).2 ?_, hlast, hdecimal⟩
  rw [htokens]
  rfl

/-- A second point starts a new number, and a point between a number and a sign belongs to the
number. -/
example : (tokenize "1.2.3 4.^2").map (fun t => t.lexeme.text) = ["1.2", ".3", "4.", "^", "2"] := by
  decide +kernel

end LinearCalc
