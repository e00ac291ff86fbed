import LinearCalc.Output.Tree
import LinearCalc.Token

set_option autoImplicit false

/-! # Longest words

The words of a text, said without the scanner: which characters are words of their own, what a
number looks like, and when neither can be made longer (`LongestWord`). At every character the
scanner finds the longest word that begins there (`munch_longest`), there is no other one
(`munch_of_longest`), and it finds none only where no word can be (`not_scannable_of_munch`).
-/

namespace LinearCalc

/-- The characters that are words of their own, with the kinds of these words. -/
def singleKinds : List (Char × String) :=
  [('+', "Add"), ('-', "Sub"), ('*', "Mult"), ('/', "Div"), ('^', "Exp"), ('.', "Dot"),
    ('x', "Cross"), ('×', "Cross"), ('(', "Char"), (')', "Char"), ('[', "Char"), (']', "Char"),
    (',', "Char"), (';', "Char"), ('T', "Char")]

/-- The character can belong to a word. -/
def Scannable (c : Char) : Prop := c.isDigit = true ∨ ∃ kind, (c, kind) ∈ singleKinds

def NoDigit (next : Option Char) : Prop := ∀ c ∈ next, c.isDigit = false

/-- A word of a kind that cannot be made longer, when `next` is the character after it. A point is
a word of its own only where no digit follows, and a number takes in all digits that follow, and a
point after its first digits. -/
inductive LongestWord : String → List Char → Option Char → Prop where
  | single {kind : String} {c : Char} {next : Option Char} (known : (c, kind) ∈ singleKinds)
      (point : c = '.' → NoDigit next) : LongestWord kind [c] next
  | whole {digits : List Char} {next : Option Char} (nonempty : digits ≠ [])
      (digit : ∀ c ∈ digits, c.isDigit = true) (noDigit : NoDigit next)
      (noPoint : next ≠ some '.') : LongestWord "Number" digits next
  | decimal {whole places : List Char} {next : Option Char} (nonempty : whole ≠ [] ∨ places ≠ [])
      (digit : ∀ c ∈ whole, c.isDigit = true) (digit' : ∀ c ∈ places, c.isDigit = true)
      (noDigit : NoDigit next) : LongestWord "Number" (whole ++ '.' :: places) next

/-! ## Words of one character -/

/-- The word that a character is on its own, if it is one. -/
def single? (c : Char) : Option Lexeme :=
  match Sign.ofChar? c with
  | some s => some (.sign s)
  | none => (Mark.ofChar? c).map .mark

theorem single?_eq_some {c : Char} {word : Lexeme} (h : single? c = some word) :
    word.chars = [c] ∧ (c, word.kind) ∈ singleKinds := by
  unfold single? at h
  cases hsign : Sign.ofChar? c with
  | some s =>
      rw [hsign] at h
      cases h
      rw [Sign.char_of_ofChar? hsign]
      cases s <;> decide
  | none =>
      rw [hsign, Option.map_eq_some_iff] at h
      obtain ⟨m, hmark, rfl⟩ := h
      rw [Mark.char_of_ofChar? hmark]
      cases m <;> decide

theorem exists_single? {c : Char} {kind : String} (h : (c, kind) ∈ singleKinds) :
    ∃ word, single? c = some word ∧ word.kind = kind := by
  simp only [singleKinds, List.mem_cons, Prod.mk.injEq, List.not_mem_nil, or_false] at h
  rcases h with h | h | h | h | h | h | h | h | h | h | h | h | h | h | h <;>
    (obtain ⟨rfl, rfl⟩ := h; exact ⟨_, rfl, rfl⟩)

theorem not_isDigit_of_mem {c : Char} {kind : String} (h : (c, kind) ∈ singleKinds) :
    c.isDigit = false := by
  have hall : ∀ p ∈ singleKinds, p.1.isDigit = false := by decide
  exact hall _ h

/-! ## Runs of digits -/

/-- Digits are taken up to where none comes next. -/
theorem takeWhile_digits {digits after : List Char} (h : ∀ c ∈ digits, c.isDigit = true)
    (hafter : NoDigit after.head?) : (digits ++ after).takeWhile Char.isDigit = digits ∧
      (digits ++ after).dropWhile Char.isDigit = after := by
  rw [List.takeWhile_append_of_pos h, List.dropWhile_append_of_pos h]
  cases after with
  | nil => simp
  | cons c after =>
      have hc : c.isDigit = false := hafter c rfl
      simp [hc]

theorem noDigit_dropWhile (text : List Char) : NoDigit (text.dropWhile Char.isDigit).head? := by
  have h := List.head?_dropWhile_not Char.isDigit text
  intro c hc
  rw [Option.mem_def] at hc
  rwa [hc] at h

theorem isDigit_of_mem_takeWhile {text : List Char} {c : Char}
    (h : c ∈ text.takeWhile Char.isDigit) : c.isDigit = true :=
  List.all_eq_true.1 List.all_takeWhile c h

/-! ## What the scanner finds -/

/-- A word begins with a digit, or with a point before a digit, or is a single character. -/
theorem digit_or_point_or_single (c : Char) (rest : List Char) :
    c.isDigit = true ∨ (c = '.' ∧ ∃ d more, rest = d :: more ∧ d.isDigit = true) ∨
      (c.isDigit = false ∧ (c = '.' → NoDigit rest.head?)) := by
  by_cases hdigit : c.isDigit = true
  · exact .inl hdigit
  · by_cases hpoint : c = '.' ∧ ∃ d more, rest = d :: more ∧ d.isDigit = true
    · exact .inr (.inl hpoint)
    · refine .inr (.inr ⟨Bool.eq_false_iff.2 hdigit, ?_⟩)
      intro hc d hd
      obtain ⟨more, hrest⟩ := List.head?_eq_some_iff.1 hd
      exact Bool.eq_false_iff.2 (fun hdigit => hpoint ⟨hc, d, more, hrest, hdigit⟩)

theorem munch_digit {c : Char} (h : c.isDigit = true) (rest : List Char) :
    munch c rest = some (.number (c :: numberTail rest)) :=
  if_pos h

theorem munch_point {d : Char} (h : d.isDigit = true) (rest : List Char) :
    munch '.' (d :: rest) = some (.number ('.' :: (d :: rest).takeWhile Char.isDigit)) := by
  have hpoint : ('.' == '.' && (d :: rest).head?.any Char.isDigit) = true := by simpa using h
  rw [munch, if_neg (by decide), if_pos hpoint]

theorem munch_single {c : Char} {rest : List Char} (h : c.isDigit = false)
    (hpoint : c = '.' → NoDigit rest.head?) : munch c rest = single? c := by
  have hno : ¬ (c == '.' && rest.head?.any Char.isDigit) = true := by
    rw [Bool.and_eq_true, beq_iff_eq, Option.any_eq_true]
    rintro ⟨hc, d, hd, hdigit⟩
    rw [hpoint hc d hd] at hdigit
    cases hdigit
  rw [munch, if_neg (by rw [h]; decide), if_neg hno]
  rfl

/-- A number takes in its digits, and also the point after them with the digits after that. -/
theorem numberTail_point {digits : List Char} (after : List Char)
    (h : ∀ c ∈ digits, c.isDigit = true) :
    numberTail (digits ++ '.' :: after) = digits ++ '.' :: after.takeWhile Char.isDigit := by
  have hnext : NoDigit ('.' :: after).head? := by
    rintro c ⟨⟩
    decide
  obtain ⟨htake, hdrop⟩ := takeWhile_digits h hnext
  rw [numberTail, htake, hdrop]
  rfl

theorem numberTail_whole {digits after : List Char} (h : ∀ c ∈ digits, c.isDigit = true)
    (hafter : NoDigit after.head?) (hpoint : after.head? ≠ some '.') :
    numberTail (digits ++ after) = digits := by
  obtain ⟨htake, hdrop⟩ := takeWhile_digits h hafter
  rw [numberTail, htake, hdrop]
  split
  · exact absurd rfl hpoint
  · exact List.append_nil digits

/-- **The scanner finds a word that cannot be longer**, made of the characters that come next. -/
theorem munch_longest {c : Char} {rest : List Char} {word : Lexeme}
    (h : munch c rest = some word) :
    ∃ after, c :: rest = word.chars ++ after ∧ LongestWord word.kind word.chars after.head? := by
  -- a number that begins with a digit, one that begins with its point, or a single character
  rcases digit_or_point_or_single c rest with
    hdigit | ⟨rfl, d, more, rfl, hd⟩ | ⟨hdigit, hnext⟩
  · rw [munch_digit hdigit] at h
    cases h
    have hsplit := List.takeWhile_append_dropWhile (p := Char.isDigit) (l := rest)
    have hdigits : ∀ d ∈ c :: rest.takeWhile Char.isDigit, d.isDigit = true := by
      intro d hd
      rcases List.mem_cons.1 hd with rfl | hd
      · exact hdigit
      · exact isDigit_of_mem_takeWhile hd
    have hnext := noDigit_dropWhile rest
    generalize rest.takeWhile Char.isDigit = digits at hsplit hdigits
    generalize rest.dropWhile Char.isDigit = behind at hsplit hnext
    subst hsplit
    -- a point behind the digits always belongs to the number, with or without digits after it
    by_cases hpoint : behind.head? = some '.'
    · obtain ⟨after, rfl⟩ : ∃ after, behind = '.' :: after := List.head?_eq_some_iff.1 hpoint
      have htail := numberTail_point after
        (fun d hd => hdigits d (List.mem_cons_of_mem c hd))
      refine ⟨after.dropWhile Char.isDigit, ?_, ?_⟩
      · simp only [Lexeme.chars, htail, List.cons_append, List.append_assoc,
          List.takeWhile_append_dropWhile]
      · simp only [Lexeme.chars, htail]
        exact .decimal (.inl (List.cons_ne_nil c digits)) hdigits
          (fun d hd => isDigit_of_mem_takeWhile hd) (noDigit_dropWhile after)
    · have htail := numberTail_whole (fun d hd => hdigits d (List.mem_cons_of_mem c hd)) hnext
        hpoint
      refine ⟨behind, ?_, ?_⟩
      · simp only [Lexeme.chars, htail, List.cons_append]
      · simp only [Lexeme.chars, htail]
        exact .whole (List.cons_ne_nil c digits) hdigits hnext hpoint
  · rw [munch_point hd] at h
    cases h
    refine ⟨(d :: more).dropWhile Char.isDigit, ?_, ?_⟩
    · simp only [Lexeme.chars, List.cons_append, List.takeWhile_append_dropWhile]
    · have hplaces : (d :: more).takeWhile Char.isDigit ≠ [] := by simp [hd]
      exact @LongestWord.decimal [] _ _ (.inr hplaces) (by simp)
        (fun d hd => isDigit_of_mem_takeWhile hd) (noDigit_dropWhile _)
  · rw [munch_single hdigit hnext] at h
    obtain ⟨hchars, hknown⟩ := single?_eq_some h
    refine ⟨rest, ?_, ?_⟩
    · rw [hchars]
      rfl
    · rw [hchars]
      exact .single hknown hnext

/-- **There is no other longest word.** -/
theorem munch_of_longest {c : Char} {rest after word : List Char} {kind : String}
    (hsplit : c :: rest = word ++ after) (h : LongestWord kind word after.head?) :
    ∃ found, munch c rest = some found ∧ found.kind = kind ∧ found.chars = word := by
  cases h with
  | single known point =>
      obtain ⟨rfl, rfl⟩ := List.cons.inj hsplit
      obtain ⟨found, hfound, hkind⟩ := exists_single? known
      refine ⟨found, ?_, hkind, (single?_eq_some hfound).1⟩
      rw [munch_single (not_isDigit_of_mem known) point, hfound]
  | whole nonempty digit noDigit noPoint =>
      cases word with
      | nil => exact absurd rfl nonempty
      | cons d digits =>
          obtain ⟨rfl, rfl⟩ := List.cons.inj hsplit
          refine ⟨_, munch_digit (digit c (by simp)) _, rfl, ?_⟩
          have htail := numberTail_whole (fun d hd => digit d (List.mem_cons_of_mem c hd)) noDigit
            noPoint
          exact congrArg (c :: ·) htail
  -- nothing may stand before the point; then the scanner needs the digit behind it to tell a number
  -- from the dot of a product
  | @decimal whole places next nonempty digit digit' noDigit =>
      cases whole with
      | nil =>
          obtain ⟨rfl, rfl⟩ := List.cons.inj hsplit
          cases places with
          | nil => exact absurd rfl (nonempty.resolve_left (fun h => h rfl))
          | cons d places =>
              refine ⟨_, munch_point (digit' d (by simp)) _, rfl, ?_⟩
              exact congrArg ('.' :: ·) (takeWhile_digits digit' noDigit).1
      | cons d digits =>
          rw [List.cons_append, List.cons_append] at hsplit
          obtain ⟨rfl, rfl⟩ := List.cons.inj hsplit
          refine ⟨_, munch_digit (digit c (by simp)) _, rfl, ?_⟩
          have htail := numberTail_point (places ++ after)
            (fun d hd => digit d (List.mem_cons_of_mem c hd))
          rw [(takeWhile_digits digit' noDigit).1] at htail
          rw [Lexeme.chars, List.append_assoc, List.cons_append, htail]
          rfl

/-- All characters of a word can belong to one. -/
theorem LongestWord.scannable {kind : String} {word : List Char} {next : Option Char}
    (h : LongestWord kind word next) : ∀ c ∈ word, Scannable c := by
  intro c hc
  cases h with
  | single known point =>
      rw [List.mem_singleton.1 hc]
      exact .inr ⟨kind, known⟩
  | whole nonempty digit noDigit noPoint => exact .inl (digit c hc)
  | decimal nonempty digit digit' noDigit =>
      rcases List.mem_append.1 hc with hc | hc
      · exact .inl (digit c hc)
      · rcases List.mem_cons.1 hc with rfl | hc
        · exact .inr ⟨"Dot", by decide⟩
        · exact .inl (digit' c hc)

theorem LongestWord.ne_nil {kind : String} {word : List Char} {next : Option Char}
    (h : LongestWord kind word next) : word ≠ [] := by
  cases h with
  | single known point => simp
  | whole nonempty digit noDigit noPoint => exact nonempty
  | decimal nonempty digit digit' noDigit => simp

/-- Where a word is found the character can belong to one. -/
theorem scannable_of_munch {c : Char} {rest : List Char} {word : Lexeme}
    (h : munch c rest = some word) : Scannable c := by
  obtain ⟨after, hsplit, hlongest⟩ := munch_longest h
  refine hlongest.scannable c ?_
  cases hchars : word.chars with
  | nil => exact absurd hchars hlongest.ne_nil
  | cons d chars =>
      rw [hchars, List.cons_append] at hsplit
      rw [(List.cons.inj hsplit).1]
      exact List.mem_cons_self

/-- Where no word is found the character can belong to none. -/
theorem not_scannable_of_munch {c : Char} {rest : List Char} (h : munch c rest = none) :
    ¬ Scannable c := by
  intro hscannable
  rcases digit_or_point_or_single c rest with
    hdigit | ⟨rfl, d, more, rfl, hd⟩ | ⟨hdigit, hnext⟩
  · rw [munch_digit hdigit] at h
    cases h
  · rw [munch_point hd] at h
    cases h
  · obtain ⟨kind, hknown⟩ := hscannable.resolve_left (by rw [hdigit]; decide)
    obtain ⟨word, hword, -⟩ := exists_single? hknown
    rw [munch_single hdigit hnext, hword] at h
    cases h

end LinearCalc
