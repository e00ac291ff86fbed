import LinearCalc.Proofs.Scanning.LongestWords
import LinearCalc.Proofs.Spans.Scanned
import LinearCalc.Text.Characters

set_option autoImplicit false

/-! # The words of a text

What a text says are its words, in their order, each known by its kind and its characters
(`words_eq_iff`). A character that can belong to no word may be put anywhere except inside a token,
and the words stay the same (`words_scan_insert`); blanks are such characters. The reason is that a
longest word ends where it did, whether the character after it stays the same or is the new one.
-/

namespace LinearCalc

def words (tokens : List Token) : List Lexeme := tokens.map Token.lexeme

/-- How a token is written: its kind and its text. -/
def Token.written (t : Token) : String × String := (t.lexeme.kind, t.lexeme.text)

/-! ## Words as they are written -/

theorem Sign.char_injective {s s' : Sign} (h : s.char = s'.char) : s = s' := by
  have hsign := Sign.ofChar?_char s
  rw [h, Sign.ofChar?_char] at hsign
  exact (Option.some.inj hsign).symm

theorem Mark.char_injective {m m' : Mark} (h : m.char = m'.char) : m = m' := by
  have hmark := Mark.ofChar?_char m
  rw [h, Mark.ofChar?_char] at hmark
  exact (Option.some.inj hmark).symm

theorem Sign.kind_ne_number (s : Sign) : (Lexeme.sign s).kind ≠ "Number" := by
  cases s <;> decide

theorem Sign.kind_ne_char (s : Sign) : (Lexeme.sign s).kind ≠ "Char" := by
  cases s <;> decide

/-- A word is known by its kind and its characters. -/
theorem Lexeme.eq_of_kind_chars {l l' : Lexeme} (hkind : l.kind = l'.kind)
    (hchars : l.chars = l'.chars) : l = l' := by
  match l, l' with
  | .number digits, .number digits' => exact congrArg Lexeme.number hchars
  | .number digits, .sign s => exact absurd hkind.symm s.kind_ne_number
  | .number digits, .mark m => exact absurd hkind (of_decide_eq_false rfl)
  | .sign s, .number digits => exact absurd hkind s.kind_ne_number
  | .sign s, .sign s' => rw [Sign.char_injective (List.cons.inj hchars).1]
  | .sign s, .mark m => exact absurd hkind s.kind_ne_char
  | .mark m, .number digits => exact absurd hkind (of_decide_eq_false rfl)
  | .mark m, .sign s => exact absurd hkind.symm s.kind_ne_char
  | .mark m, .mark m' => rw [Mark.char_injective (List.cons.inj hchars).1]

theorem Token.written_eq_iff (t t' : Token) : t.written = t'.written ↔ t.lexeme = t'.lexeme := by
  constructor
  · intro h
    obtain ⟨hkind, htext⟩ := Prod.mk.inj h
    exact Lexeme.eq_of_kind_chars hkind (String.ofList_injective htext)
  · intro h
    rw [Token.written, h, Token.written]

/-- **Tokens have the same words when they are written alike**, wherever they stand. -/
theorem words_eq_iff (tokens tokens' : List Token) :
    words tokens = words tokens' ↔ tokens.map Token.written = tokens'.map Token.written := by
  induction tokens generalizing tokens' with
  | nil => cases tokens' <;> simp [words]
  | cons t tokens ih =>
      cases tokens' with
      | nil => simp [words]
      | cons t' tokens' =>
          have hrest := ih tokens'
          simp only [words] at hrest
          simp only [words, List.map_cons, List.cons.injEq, Token.written_eq_iff, hrest]

/-! ## Characters that belong to no word -/

theorem toNat_of_isDigit {c : Char} (h : c.isDigit = true) : 48 ≤ c.toNat ∧ c.toNat ≤ 57 := by
  unfold Char.isDigit at h
  rw [Bool.and_eq_true, decide_eq_true_iff, decide_eq_true_iff] at h
  exact h

/-- Blanks belong to no word. -/
theorem not_scannable_of_isBlank {c : Char} (h : isBlank c = true) : ¬ Scannable c := by
  rintro (hdigit | ⟨kind, hknown⟩)
  · obtain ⟨hlow, hhigh⟩ := toNat_of_isDigit hdigit
    simp [isBlank, isWhiteSpace, isInformationSeparator] at h
    omega
  · have hall : ∀ p ∈ singleKinds, isBlank p.1 = false := by decide
    rw [hall _ hknown] at h
    cases h

theorem munch_eq_none {c : Char} (h : ¬ Scannable c) (rest : List Char) : munch c rest = none := by
  cases hmunch : munch c rest with
  | none => rfl
  | some word => exact absurd (scannable_of_munch hmunch) h

/-- A word that cannot be longer still cannot when such a character comes next. -/
theorem LongestWord.before_other {kind : String} {word : List Char} {next : Option Char} {c : Char}
    (h : LongestWord kind word next) (hc : ¬ Scannable c) : LongestWord kind word (some c) := by
  have hdigit : NoDigit (some c) := by
    rintro d ⟨⟩
    exact Bool.eq_false_iff.2 (fun hdigit => hc (.inl hdigit))
  cases h with
  | single known point => exact .single known (fun _ => hdigit)
  | whole nonempty digit noDigit noPoint =>
      refine .whole nonempty digit hdigit ?_
      rintro ⟨⟩
      exact hc (.inr ⟨"Dot", by decide⟩)
  | decimal nonempty digit digit' noDigit => exact .decimal nonempty digit digit' hdigit

/-! ## Inserting a character -/

def insertChar (c : Char) (i : Nat) (text : List Char) : List Char :=
  text.take i ++ c :: text.drop i

theorem insertChar_zero (c : Char) (text : List Char) : insertChar c 0 text = c :: text := by
  rw [insertChar, List.take_zero, List.drop_zero, List.nil_append]

theorem insertChar_succ (c d : Char) (i : Nat) (text : List Char) :
    insertChar c (i + 1) (d :: text) = d :: insertChar c i text := rfl

theorem insertChar_nil (c : Char) (i : Nat) : insertChar c i [] = [c] := by
  rw [insertChar, List.take_nil, List.drop_nil, List.nil_append]

theorem insertChar_append (c : Char) {i : Nat} {before : List Char} (h : before.length ≤ i)
    (after : List Char) :
    insertChar c i (before ++ after) = before ++ insertChar c (i - before.length) after := by
  rw [insertChar, insertChar, List.take_append, List.drop_append, List.take_of_length_le h,
    List.drop_eq_nil_of_le h, List.nil_append, List.append_assoc]

theorem drop_insertChar (c : Char) {i n : Nat} {text : List Char} (hi : n ≤ i)
    (hn : n ≤ text.length) :
    (insertChar c i text).drop n = insertChar c (i - n) (text.drop n) := by
  have hlength : (text.take n).length = n := by
    rw [List.length_take]
    omega
  have hsplit : insertChar c i text = text.take n ++ insertChar c (i - n) (text.drop n) := by
    calc insertChar c i text = insertChar c i (text.take n ++ text.drop n) := by
          rw [List.take_append_drop]
      _ = text.take n ++ insertChar c (i - n) (text.drop n) := by
          rw [insertChar_append c (by omega), hlength]
  rw [hsplit, List.drop_append, hlength, Nat.sub_self, List.drop_zero,
    List.drop_eq_nil_of_le (by omega), List.nil_append]

/-- The text begins as it did, or with the new character. -/
theorem head?_insertChar (c : Char) (i : Nat) (text : List Char) :
    (insertChar c i text).head? = text.head? ∨ (insertChar c i text).head? = some c := by
  cases i with
  | zero =>
      rw [insertChar_zero]
      exact .inr rfl
  | succ i =>
      cases text with
      | nil =>
          rw [insertChar_nil]
          exact .inr rfl
      | cons d text =>
          rw [insertChar_succ]
          exact .inl rfl

/-- Words do not depend on where the text starts. -/
theorem words_scan (offset offset' : Nat) (text : List Char) :
    words (scan offset text) = words (scan offset' text) := by
  fun_induction scan offset text generalizing offset' with
  | case1 => rw [scan]
  | case2 offset c rest hnone ih =>
      rw [scan, hnone]
      exact ih (offset' + 1)
  | case3 offset c rest word hword ih =>
      rw [scan, hword]
      exact congrArg (word :: ·) (ih (offset' + word.length))

variable {c : Char} (hc : ¬ Scannable c)
include hc

/-- A word that is found is also found when the character is put behind it. -/
theorem munch_insertChar {d : Char} {rest : List Char} {word : Lexeme} {i : Nat}
    (h : munch d rest = some word) (hi : word.length ≤ i + 1) :
    munch d (insertChar c i rest) = some word := by
  obtain ⟨after, hsplit, hlongest⟩ := munch_longest h
  have hsplit' : d :: insertChar c i rest
      = word.chars ++ insertChar c (i + 1 - word.length) after := by
    rw [← insertChar_succ, hsplit, insertChar_append c hi]
    rfl
  -- the word stays the longest one: behind it stands the character that stood there, or the new
  -- one, which goes on with no word
  have hlongest' : LongestWord word.kind word.chars
      (insertChar c (i + 1 - word.length) after).head? := by
    rcases head?_insertChar c (i + 1 - word.length) after with hsame | hnew
    · rw [hsame]
      exact hlongest
    · rw [hnew]
      exact hlongest.before_other hc
  obtain ⟨found, hfound, hkind, hchars⟩ := munch_of_longest hsplit' hlongest'
  rw [hfound, Lexeme.eq_of_kind_chars hkind hchars]

/-- At the front of a text the character is passed over. -/
theorem words_scan_cons (offset : Nat) (text : List Char) :
    words (scan offset (c :: text)) = words (scan offset text) := by
  rw [scan, munch_eq_none hc]
  exact words_scan (offset + 1) offset text

/-- **A character that belongs to no word may be put anywhere but inside a token.** -/
theorem words_scan_insert (offset i : Nat) (text : List Char)
    (h : ∀ t ∈ scan offset text, ¬ (t.start < offset + i ∧ offset + i < t.stop)) :
    words (scan offset (insertChar c i text)) = words (scan offset text) := by
  fun_induction scan offset text generalizing i with
  | case1 offset =>
      rw [insertChar_nil, words_scan_cons hc, scan]
  | case2 offset d rest hnone ih =>
      cases i with
      | zero => rw [insertChar_zero, words_scan_cons hc, scan, hnone]
      | succ i =>
          have hbehind : ∀ t ∈ scan (offset + 1) rest,
              ¬ (t.start < offset + 1 + i ∧ offset + 1 + i < t.stop) := by
            intro t ht hinside
            exact h t ht (by omega)
          rw [insertChar_succ, scan, munch_eq_none (not_scannable_of_munch hnone)]
          exact ih i hbehind
  | case3 offset d rest word hword ih =>
      obtain ⟨hpos, hfits⟩ := munch_length hword
      cases i with
      | zero =>
          rw [insertChar_zero, words_scan_cons hc, scan, hword]
      | succ i =>
          -- the character is not put inside the word
          have hi : word.length ≤ i + 1 := by
            refine Nat.le_of_not_lt (fun hlt => h ⟨word, offset⟩ List.mem_cons_self ?_)
            show offset < offset + (i + 1) ∧ offset + (i + 1) < offset + word.length
            omega
          have hbehind : ∀ t ∈ scan (offset + word.length) (rest.drop (word.length - 1)),
              ¬ (t.start < offset + word.length + (i - (word.length - 1)) ∧
                offset + word.length + (i - (word.length - 1)) < t.stop) := by
            intro t ht hinside
            exact h t (List.mem_cons_of_mem _ ht) (by omega)
          have hrest := ih (i - (word.length - 1)) hbehind
          rw [← drop_insertChar c (by omega) (by omega)] at hrest
          rw [insertChar_succ, scan, munch_insertChar hc hword hi]
          exact congrArg (word :: ·) hrest

end LinearCalc
