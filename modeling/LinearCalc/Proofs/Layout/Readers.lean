import LinearCalc.Parse
import LinearCalc.Proofs.Layout.Erasure
import LinearCalc.Proofs.Layout.Words
import LinearCalc.Proofs.Readers

set_option autoImplicit false

/-! # Readers do not look at places

Two lists of tokens with the same words are read alike (`parse_agree`): the trees differ in their
places only, and what is found wrong is the same. Every reader is followed on both lists at once.
Two readings agree (`Reading.Agree`) when they give the same, up to places, and stop alike; what is
made of readings that agree agrees again, one lemma for each way of making it.
-/

namespace LinearCalc

/-- Two readings give the same value, as far as `f` tells values apart, and even the same one if
this is to be exact; they find the same wrong, and stop alike. -/
structure Reading.Agree {β γ : Type} (exact : Prop) (alike : Cursor → Cursor → Prop) (f : β → γ)
    (r r' : Reading β) : Prop where
  value : f r.value = f r'.value
  same : exact → r.value = r'.value
  diagnostics : r.diagnostics = r'.diagnostics
  cursor : alike r.cursor r'.cursor

variable {tokens tokens' : List Token}

open LinearCalc.Expr (erase eraseRows)

/-! ## Grouping -/

def Link.erase (link : Link) : Link := ⟨link.op, .nowhere, link.operand.erase⟩

theorem erase_join (first : Expr Float) (link : Link) :
    (first.join link).erase = first.erase.join link.erase := by
  simp [Expr.join, Link.erase, Span.nowhere, Span.point]

/-- Neighbours are joined whatever their places are. -/
theorem fuse_erase (level : Nat) (first : Expr Float) (links : List Link) :
    fuse level first.erase (links.map Link.erase)
      = ((fuse level first links).1.erase, (fuse level first links).2.map Link.erase) := by
  induction links generalizing first with
  | nil => rfl
  | cons link links ih =>
      have hop : link.erase.op = link.op := rfl
      have hoperand : link.erase.operand = link.operand.erase := rfl
      rw [List.map_cons, fuse, fuse, hop]
      by_cases hlevel : link.op.binding = level
      · rw [if_pos hlevel, if_pos hlevel, ← erase_join, ih]
      · rw [if_neg hlevel, if_neg hlevel, hoperand, ih]
        rfl

theorem assemble_erase (first : Expr Float) (links : List Link) :
    assemble first.erase (links.map Link.erase) = (assemble first links).erase := by
  simp only [assemble, fuse_erase]

/-! ## Slots -/

def Item.erase : Item → Item
  | element e => element e.erase
  | comma _ => comma .nowhere
  | semicolon _ => semicolon .nowhere

theorem erase_slotElement (found : Option (Expr Float)) (stop : Nat) :
    (slotElement found stop).erase = slotElement (found.map Expr.erase) Span.nowhere.start := by
  cases found <;> rfl

/-- Slots are filled whatever the places are. -/
theorem fillSlots_erase (stop : Nat) (found : Option (Expr Float)) (items : List Item) :
    fillSlots Span.nowhere.start (found.map Expr.erase) (items.map Item.erase)
      = (Expr.eraseRow (fillSlots stop found items).1,
        eraseRows (fillSlots stop found items).2) := by
  -- only an empty slot takes its place from a separator, and erasing forgets it
  fun_induction fillSlots stop found items with
  | case1 found =>
      rw [List.map_nil, fillSlots, ← erase_slotElement found stop]
      rfl
  | case2 e more ih => exact ih
  | case3 e _ more ih => exact ih
  | case4 found s more row rows hmore ih =>
      rw [Option.map_none, hmore] at ih
      rw [List.map_cons, Item.erase, fillSlots, ih, ← erase_slotElement found s.start]
      rfl
  | case5 found s more row rows hmore ih =>
      rw [Option.map_none, hmore] at ih
      rw [List.map_cons, Item.erase, fillSlots, ih, ← erase_slotElement found s.start]
      rfl

theorem rowsOfItems_erase (stop : Nat) (items : List Item) :
    rowsOfItems Span.nowhere.start (items.map Item.erase)
      = eraseRows (rowsOfItems stop items) := by
  have hfill := fillSlots_erase stop none items
  rw [Option.map_none] at hfill
  unfold rowsOfItems
  rw [hfill, Expr.eraseRows]

theorem surplus_erase (occupied : Bool) (items : List Item) :
    surplus occupied (items.map Item.erase) = surplus occupied items := by
  induction items generalizing occupied with
  | nil => rfl
  | cons item items ih =>
      cases item with
      | element e => rw [List.map_cons, Item.erase, surplus, surplus, ih]
      | comma s => rw [List.map_cons, Item.erase, surplus, surplus, ih]
      | semicolon s => rw [List.map_cons, Item.erase, surplus, surplus, ih]

/-- The items of a matrix without places; of the closing bracket only whether there is one. -/
def eraseItems (found : List Item × Option Token) : List Item × Bool :=
  (found.1.map Item.erase, found.2.isSome)

/-- An item more on both sides. -/
theorem eraseItems_cons {item item' : Item} (h : item.erase = item'.erase)
    {found found' : List Item × Option Token} (hfound : eraseItems found = eraseItems found') :
    eraseItems (item :: found.1, found.2) = eraseItems (item' :: found'.1, found'.2) := by
  obtain ⟨hitems, hclose⟩ := Prod.mk.inj hfound
  simp only [eraseItems, List.map_cons, h, hitems, hclose]

/-- The matrix that items make depends on its places only as far as the items do. -/
theorem erase_matrix_of_items {items items' : List Item}
    (h : items.map Item.erase = items'.map Item.erase) (stop stop' : Nat) (s s' : Span) :
    (Expr.matrix (rowsOfItems stop items) s).erase
      = (Expr.matrix (rowsOfItems stop' items') s').erase := by
  rw [Expr.erase, Expr.erase, ← rowsOfItems_erase, ← rowsOfItems_erase, h]

theorem surplus_of_items {items items' : List Item}
    (h : items.map Item.erase = items'.map Item.erase) (occupied : Bool) :
    surplus occupied items = surplus occupied items' := by
  rw [← surplus_erase occupied items, h, surplus_erase]

/-! ## Readings made of readings that agree -/

namespace Reading.Agree

section General

variable {β γ β' γ' : Type} {exact : Prop} {alike : Cursor → Cursor → Prop} {f : β → γ}
  {r r' : Reading β}

theorem map (h : Agree exact alike f r r') {k k' : β → β'} {g : β' → γ'}
    (hk : ∀ b b', f b = f b' → g (k b) = g (k' b')) (hsame : exact → k = k') :
    Agree exact alike g (r.map k) (r'.map k') := by
  refine ⟨hk _ _ h.value, fun hexact => ?_, h.diagnostics, h.cursor⟩
  show k r.value = k' r'.value
  rw [h.same hexact, hsame hexact]

theorem precededBy (h : Agree exact alike f r r') {found found' : List Diagnostic}
    (hfound : found = found') :
    Agree exact alike f (r.precededBy found) (r'.precededBy found') := by
  refine ⟨h.value, h.same, ?_, h.cursor⟩
  show found ++ r.diagnostics = found' ++ r'.diagnostics
  rw [hfound, h.diagnostics]

end General

variable {exact : Prop} {alike : Cursor → Cursor → Prop} {r r' right right' : Reading (Expr Float)}

theorem negation (h : Agree exact alike erase right right') {minus minus' : Nat}
    (hsame : exact → minus = minus') :
    Agree exact alike erase (.negation minus right) (.negation minus' right') :=
  h.map (fun e e' he => by simp only [Expr.negation, erase, he])
    (fun hexact => by rw [hsame hexact])

theorem closed (h : Agree exact alike erase r r') {opening opening' closing closing' : Nat}
    {more more' : List Token} (hsame : exact → opening = opening' ∧ closing = closing')
    (hcursor : alike (.after (Mark.closeParen.token closing) more)
      (.after (Mark.closeParen.token closing') more')) :
    Agree exact alike erase (.closed opening closing r more)
      (.closed opening' closing' r' more') := by
  refine ⟨?_, fun hexact => ?_, h.diagnostics, hcursor⟩
  · simp only [Reading.closed, erase, h.value]
  · obtain ⟨rfl, rfl⟩ := hsame hexact
    simp only [Reading.closed, h.same hexact]

theorem unclosed (h : Agree exact alike erase r r') {opening opening' : Nat}
    (hsame : exact → opening = opening') :
    Agree exact alike erase (.unclosed opening r) (.unclosed opening' r') := by
  refine ⟨?_, fun hexact => ?_, ?_, h.cursor⟩
  · simp only [Reading.unclosed, erase, h.value]
  · simp only [Reading.unclosed, hsame hexact, h.same hexact]
  · simp only [Reading.unclosed, h.diagnostics]

theorem matrix {found found' : Reading (List Item × Option Token)}
    (h : Agree exact alike eraseItems found found') {opening opening' : Nat}
    (hsame : exact → opening = opening') :
    Agree exact alike erase (.matrix opening found) (.matrix opening' found') := by
  have hitems := (Prod.mk.inj h.value).1
  refine ⟨erase_matrix_of_items hitems _ _ _ _, fun hexact => ?_, ?_, h.cursor⟩
  · simp only [Reading.matrix, hsame hexact, h.same hexact]
  · simp only [Reading.matrix, h.diagnostics, surplus_of_items hitems]

theorem link {more more' : Reading (List Link)} (hright : Agree exact alike erase right right')
    (hmore : Agree exact alike (List.map Link.erase) more more') (s : Sign) {start start' : Nat}
    (hsame : exact → start = start') :
    Agree exact alike (List.map Link.erase) (.link s start right more)
      (.link s start' right' more') := by
  refine (hmore.map (fun found found' hfound => ?_) (fun hexact => ?_)).precededBy
    hright.diagnostics
  · rw [List.map_cons, List.map_cons, hfound, Link.erase, Link.erase, hright.value]
  · rw [hsame hexact, hright.same hexact]

theorem grouped {more more' : Reading (List Link)} (h : Agree exact alike erase r r')
    (hmore : Agree exact alike (List.map Link.erase) more more') :
    Agree exact alike erase (.grouped r more) (.grouped r' more') := by
  refine (hmore.map (fun found found' hfound => ?_) (fun hexact => ?_)).precededBy h.diagnostics
  · rw [← assemble_erase, ← assemble_erase, h.value, hfound]
  · rw [h.same hexact]

variable {more more' : Reading (List Item × Option Token)}

theorem item (h : Agree exact alike eraseItems more more') {item item' : Item}
    (hitem : item.erase = item'.erase) (hsame : exact → item = item') :
    Agree exact alike eraseItems (more.item item) (more'.item item') :=
  h.map (fun _ _ => eraseItems_cons hitem) (fun hexact => by rw [hsame hexact])

theorem element (h : Agree exact alike erase r r')
    (hmore : Agree exact alike eraseItems more more') :
    Agree exact alike eraseItems (.element r more) (.element r' more') := by
  have hitem : (Item.element r.value).erase = (Item.element r'.value).erase :=
    congrArg Item.element h.value
  exact (hmore.item hitem (fun hexact => by rw [h.same hexact])).precededBy h.diagnostics

end Reading.Agree

/-! ## Lists with the same words -/

theorem eq_nil_of_words (h : words [] = words tokens') : tokens' = [] :=
  List.map_eq_nil_iff.1 h.symm

/-- The second list begins with the same word, at another offset. -/
theorem exists_cons_of_words {token : Token} {rest : List Token}
    (h : words (token :: rest) = words tokens') :
    ∃ start rest', tokens' = ⟨token.lexeme, start⟩ :: rest' ∧ words rest = words rest' := by
  cases tokens' with
  | nil => cases h
  | cons token' rest' =>
      obtain ⟨hlexeme, hrest⟩ := List.cons.inj h
      refine ⟨token'.start, rest', ?_, hrest⟩
      rw [hlexeme]

theorem exists_mark_of_words {m : Mark} {start : Nat} {rest : List Token}
    (h : words (m.token start :: rest) = words tokens') :
    ∃ start' rest', tokens' = m.token start' :: rest' ∧ words rest = words rest' :=
  exists_cons_of_words h

theorem exists_sign_of_words {s : Sign} {start : Nat} {rest : List Token}
    (h : words (s.token start :: rest) = words tokens') :
    ∃ start' rest', tokens' = s.token start' :: rest' ∧ words rest = words rest' :=
  exists_cons_of_words h

/-- What is known of the next word holds of the same word in the other list. -/
theorem head?_of_words {P : Lexeme → Prop} (h : words tokens = words tokens')
    (hnext : ∀ token ∈ tokens.head?, P token.lexeme) :
    ∀ token ∈ tokens'.head?, P token.lexeme := by
  cases tokens with
  | nil =>
      obtain rfl := eq_nil_of_words h
      simp
  | cons token rest =>
      obtain ⟨start, rest', rfl, -⟩ := exists_cons_of_words h
      simpa using hnext

/-- The same words are still to be read. -/
def Cursor.SameWords (c c' : Cursor) : Prop := words c.rest = words c'.rest

/-! ## Passing over -/

theorem skipMinuses_agree (last last' : Nat) (hwords : words tokens = words tokens') :
    words (skipMinuses last tokens).rest = words (skipMinuses last' tokens').rest := by
  induction tokens generalizing last last' tokens' with
  | nil =>
      obtain rfl := eq_nil_of_words hwords
      rfl
  | cons token rest ih =>
      obtain ⟨start, rest', rfl, hrest⟩ := exists_cons_of_words hwords
      rw [skipMinuses, skipMinuses]
      by_cases hminus : token.lexeme = .sign .minus
      · rw [if_pos hminus, if_pos hminus]
        exact ih _ _ hrest
      · rw [if_neg hminus, if_neg hminus]
        exact hwords

theorem skipBalanced_agree (depth last last' : Nat) (hwords : words tokens = words tokens') :
    words (skipBalanced depth last tokens).rest
      = words (skipBalanced depth last' tokens').rest := by
  -- each branch is chosen by the word of the first token and by the balance, and these are the same
  -- on both sides
  fun_induction skipBalanced depth last tokens generalizing last' tokens' with
  | case1 =>
      obtain rfl := eq_nil_of_words hwords
      rfl
  | case2 depth last token rest hopens ih =>
      obtain ⟨start, rest', rfl, hrest⟩ := exists_cons_of_words hwords
      rw [skipBalanced.eq_def _ _ (_ :: rest')]
      dsimp only
      rw [if_pos hopens]
      exact ih _ hrest
  | case3 last token rest hopens hcloses =>
      obtain ⟨start, rest', rfl, hrest⟩ := exists_cons_of_words hwords
      rw [skipBalanced, if_neg hopens, if_pos hcloses]
      exact hwords
  | case4 last token rest hopens hcloses =>
      obtain ⟨start, rest', rfl, hrest⟩ := exists_cons_of_words hwords
      rw [skipBalanced, if_neg hopens, if_pos hcloses]
      exact hrest
  | case5 last token rest hopens hcloses depth ih =>
      obtain ⟨start, rest', rfl, hrest⟩ := exists_cons_of_words hwords
      rw [skipBalanced, if_neg hopens, if_pos hcloses]
      exact ih _ hrest
  | case6 last token rest hopens hcloses hstarts =>
      obtain ⟨start, rest', rfl, hrest⟩ := exists_cons_of_words hwords
      rw [skipBalanced, if_neg hopens, if_neg hcloses, if_pos rfl, if_pos hstarts]
      exact hrest
  | case7 last token rest hopens hcloses hstarts =>
      obtain ⟨start, rest', rfl, hrest⟩ := exists_cons_of_words hwords
      rw [skipBalanced, if_neg hopens, if_neg hcloses, if_pos rfl, if_neg hstarts]
      exact hwords
  | case8 depth last token rest hopens hcloses hdepth ih =>
      obtain ⟨start, rest', rfl, hrest⟩ := exists_cons_of_words hwords
      rw [skipBalanced.eq_def _ _ (_ :: rest')]
      dsimp only
      rw [if_neg hopens, if_neg hcloses, if_neg hdepth]
      exact ih _ hrest

/-! ## Readers -/

/-- Readings from lists with the same words. Of the operator before an operand it matters only
whether there is one. -/
def blindness : ReaderInvariant where
  ofOperand n after c r := ∀ after' c', after.isSome = after'.isSome → c.SameWords c' →
    r.Agree False Cursor.SameWords erase ((operandReader n).read after' c')
  ofLinks n _ tokens r := ∀ last' tokens', words tokens = words tokens' →
    r.Agree False Cursor.SameWords (List.map Link.erase) (links (operandReader n) last' tokens')
  ofChain n c r := ∀ c', c.SameWords c' →
    r.Agree False Cursor.SameWords erase (chain (operandReader n) c')
  ofItems n _ tokens r := ∀ last' tokens', words tokens = words tokens' →
    r.Agree False Cursor.SameWords eraseItems (readItems (operandReader n) last' tokens')

theorem missingOperand_agree {after after' : Option Nat} {c c' : Cursor}
    (hafter : after.isSome = after'.isSome) (hwords : c.SameWords c') :
    (missingOperand after c).Agree False Cursor.SameWords erase (missingOperand after' c') := by
  cases after with
  | none =>
      cases after' with
      | none => exact ⟨rfl, False.elim, rfl, hwords⟩
      | some stop => cases hafter
  | some stop =>
      cases after' with
      | none => cases hafter
      | some stop' => exact ⟨rfl, False.elim, rfl, hwords⟩

/-- **No way of reading looks at places.** -/
theorem blindness_kept : blindness.Kept where
  missing n after c hno after' c' hafter hwords := by
    rw [read_missing n after' (head?_of_words (P := (·.startsOperand = false)) hwords hno)]
    exact missingOperand_agree hafter hwords
  transpose n after start rest last after' c' hafter hwords := by
    obtain ⟨rest', last'⟩ := c'
    obtain ⟨start', rest', rfl, hrest⟩ := exists_mark_of_words hwords
    rw [read_transpose]
    exact ⟨rfl, False.elim, rfl, hrest⟩
  number n after digits start rest last after' c' hafter hwords := by
    obtain ⟨rest', last'⟩ := c'
    obtain ⟨start', rest', rfl, hrest⟩ := exists_cons_of_words hwords
    rw [read_number]
    exact ⟨rfl, False.elim, rfl, hrest⟩
  tooDeep after token rest last hnests after' c' hafter hwords := by
    obtain ⟨rest', last'⟩ := c'
    obtain ⟨start', rest', rfl, -⟩ := exists_cons_of_words hwords
    rw [read_tooDeep after' ⟨token.lexeme, start'⟩ rest' last' hnests]
    exact ⟨rfl, False.elim, rfl, skipBalanced_agree 0 _ _ (skipMinuses_agree last last' hwords)⟩
  negativeNumber n after minus digits start rest last after' c' hafter hwords := by
    obtain ⟨rest', last'⟩ := c'
    obtain ⟨minus', rest', rfl, hrest⟩ := exists_sign_of_words hwords
    obtain ⟨start', rest', rfl, hmore⟩ := exists_cons_of_words hrest
    rw [read_negativeNumber]
    exact ⟨rfl, False.elim, rfl, hmore⟩
  negation n after minus token rest last right hnests _ hright after' c' hafter hwords := by
    obtain ⟨rest', last'⟩ := c'
    obtain ⟨minus', rest', rfl, hrest⟩ := exists_sign_of_words hwords
    have hagree := hright none (.after (Sign.minus.token minus') rest') rfl hrest
    obtain ⟨start', rest', rfl, -⟩ := exists_cons_of_words hrest
    rw [read_negation n after' minus' ⟨token.lexeme, start'⟩ last' hnests rfl]
    exact hagree.negation False.elim
  bareMinus n after minus rest last hnothing after' c' hafter hwords := by
    obtain ⟨rest', last'⟩ := c'
    obtain ⟨minus', rest', rfl, hrest⟩ := exists_sign_of_words hwords
    rw [read_bareMinus n after' minus' rest' last'
      (head?_of_words (P := (·.negatable = false)) hrest hnothing)]
    exact ⟨rfl, False.elim, rfl, hrest⟩
  closed n after opening closing rest more last inner _ hclosed hinner after' c' hafter hwords := by
    obtain ⟨rest', last'⟩ := c'
    obtain ⟨opening', rest', rfl, hrest⟩ := exists_mark_of_words hwords
    have hagree := hinner (.after (Mark.openParen.token opening') rest') hrest
    have hleft := hagree.cursor
    rw [Cursor.SameWords, hclosed] at hleft
    obtain ⟨closing', more', hclosed', hmore⟩ := exists_mark_of_words hleft
    rw [read_closed n after' opening' closing' last' rfl hclosed']
    exact hagree.closed False.elim hmore
  unclosed n after opening rest last inner _ hopen hinner after' c' hafter hwords := by
    obtain ⟨rest', last'⟩ := c'
    obtain ⟨opening', rest', rfl, hrest⟩ := exists_mark_of_words hwords
    have hagree := hinner (.after (Mark.openParen.token opening') rest') hrest
    have hopen' := head?_of_words (P := (· ≠ .mark .closeParen)) hagree.cursor hopen
    rw [read_unclosed n after' opening' last' rfl hopen']
    exact hagree.unclosed False.elim
  matrix n after opening rest last found _ hfound after' c' hafter hwords := by
    obtain ⟨rest', last'⟩ := c'
    obtain ⟨opening', rest', rfl, hrest⟩ := exists_mark_of_words hwords
    rw [read_matrix n after' opening' last' rfl]
    exact (hfound _ rest' hrest).matrix False.elim
  noLinks n last tokens hno last' tokens' hwords := by
    rw [links_of_noSign _ last' (head?_of_words (P := fun l => ∀ s, l ≠ .sign s) hwords hno)]
    exact ⟨rfl, False.elim, rfl, hwords⟩
  link n last s start rest right more _ _ hright hmore last' tokens' hwords := by
    obtain ⟨start', rest', rfl, hrest⟩ := exists_sign_of_words hwords
    have hagree := hright (some (s.token start').stop) (.after (s.token start') rest') rfl hrest
    rw [links_sign _ last' s start' rest' rfl]
    exact hagree.link (hmore _ _ hagree.cursor) s False.elim
  grouped n c first more _ _ hfirst hmore c' hwords := by
    have hagree := hfirst none c' rfl hwords
    exact hagree.grouped (hmore _ _ hagree.cursor)
  noBracket n last last' tokens' hwords := by
    obtain rfl := eq_nil_of_words hwords
    rw [readItems_nil]
    exact ⟨rfl, False.elim, rfl, rfl⟩
  bracket n last closing rest last' tokens' hwords := by
    obtain ⟨closing', rest', rfl, hrest⟩ := exists_mark_of_words hwords
    rw [readItems_close]
    exact ⟨rfl, False.elim, rfl, hrest⟩
  separator n last token item rest more hseparates _ hmore last' tokens' hwords := by
    cases hseparates with
    | comma start =>
        obtain ⟨start', rest', rfl, hrest⟩ := exists_mark_of_words hwords
        rw [readItems_separator _ last' (.comma start') rest']
        exact (hmore _ rest' hrest).item rfl False.elim
    | semicolon start =>
        obtain ⟨start', rest', rfl, hrest⟩ := exists_mark_of_words hwords
        rw [readItems_separator _ last' (.semicolon start') rest']
        exact (hmore _ rest' hrest).item rfl False.elim
  stray n last start rest more _ hmore last' tokens' hwords := by
    obtain ⟨start', rest', rfl, hrest⟩ := exists_mark_of_words hwords
    rw [readItems_stray]
    exact (hmore _ rest' hrest).precededBy rfl
  element n last token rest e more hrole _ _ hchain hmore last' tokens' hwords := by
    -- the element is read from the same word on, so what is behind it agrees too
    have hagree := hchain ⟨tokens', last'⟩ hwords
    obtain ⟨start', rest', rfl, -⟩ := exists_cons_of_words hwords
    rw [readItems_element _ last' ⟨token.lexeme, start'⟩ rest' hrole rfl]
    exact hagree.element (hmore _ _ hagree.cursor)

/-- **Lists with the same words are parsed alike.** -/
theorem parse_agree (hwords : words tokens = words tokens') :
    (parse tokens).1.erase = (parse tokens').1.erase ∧ (parse tokens).2 = (parse tokens').2 := by
  have hchain := blindness_kept.chain maxNesting ⟨tokens, 0⟩ ⟨tokens', 0⟩ hwords
  unfold parse
  generalize chain (operandReader maxNesting) ⟨tokens, 0⟩ = whole at hchain
  generalize chain (operandReader maxNesting) ⟨tokens', 0⟩ = whole' at hchain
  obtain ⟨value, found, rest, last⟩ := whole
  obtain ⟨value', found', rest', last'⟩ := whole'
  obtain ⟨hvalue, -, hfound, hrest⟩ := hchain
  dsimp only at hvalue hfound hrest ⊢
  -- what is left has the same words, so it is reported alike
  cases rest with
  | nil =>
      obtain rfl := eq_nil_of_words hrest
      exact ⟨hvalue, hfound⟩
  | cons token rest =>
      obtain ⟨start, rest', rfl, -⟩ := exists_cons_of_words hrest
      exact ⟨hvalue, congrArg (· ++ [Diagnostic.unexpected token.lexeme]) hfound⟩

end LinearCalc
