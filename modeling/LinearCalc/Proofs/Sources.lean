import LinearCalc.Proofs.NestingLimit.Layers
import LinearCalc.Proofs.Sources.Nodes
import LinearCalc.Proofs.Spans

set_option autoImplicit false

/-! # How texts become trees, and from what

However malformed a text is, its tree is made of its tokens: nothing is made up but zeros and
placeholders where something is missing, and nothing is used twice (`parseText_sources`).

Whatever a reader makes of the tokens of a text, it puts the tree together in one of five ways
(`Expr.Built`): a word or something made up for one that is missing, an operation, a negation, a
parenthesis or a matrix. Each way says which token the node comes from, where that token stands
between the children, and how many readers were inside one another. So what is known of parsed
trees apart from their spans is proved by induction on how they are built: that their nodes come
from the tokens (`Built.allSourced`), that brackets and negations are nested only so deep
(`Built.layered`), and that there are gaps between children.

That readers build trees this way is one invariant (`building_kept`). In a chain, each sign has to
stay between the operands it joins while neighbours are joined; `BuiltChain` keeps account of that.
-/

namespace LinearCalc

namespace Expr

/-- The expression starts with a character that none of its children covers, or with a minus that
negates an operand. -/
def Leading (e : Expr Float) : Prop :=
  (∀ c ∈ e.children, e.span.start < c.span.start) ∨ ∃ minus right s, e = negation minus right s

theorem leading_leaf {e : Expr Float} (hchildren : e.children = []) : e.Leading := by
  refine .inl ?_
  simp [hchildren]

/-- A tree that is read from the tokens with `n` readers inside one another. -/
inductive Built (tokens : List Token) : Nat → Expr Float → Prop where
  /-- A word, or what is made up for one. -/
  | leaf {n : Nat} {e : Expr Float} (source : e.Sourced tokens) (plain : e.nests = false)
      (children : e.children = []) : Built tokens n e
  /-- A sign between its operands. -/
  | operation {n : Nat} (t : Token) (s : Sign) (left right : Expr Float) (mem : t ∈ tokens)
      (lexeme : t.lexeme = .sign s) (afterLeft : left.span.stop ≤ t.start)
      (beforeRight : t.stop ≤ right.span.start) (builtLeft : Built tokens n left)
      (builtRight : Built tokens n right) :
      Built tokens n (.binary s.operator t.span left right ⟨left.span.start, right.span.stop⟩)
  /-- A minus before the operand that it negates. -/
  | negation {n : Nat} (minus : Nat) (right : Expr Float) (mem : Sign.minus.token minus ∈ tokens)
      (before : (Sign.minus.token minus).stop ≤ right.span.start) (leading : right.Leading)
      (built : Built tokens n right) :
      Built tokens (n + 1)
        (.negation (Sign.minus.token minus).span right ⟨minus, right.span.stop⟩)
  /-- A parenthesis before its content. -/
  | paren {n : Nat} (opening stop : Nat) (inner : Expr Float)
      (mem : Mark.openParen.token opening ∈ tokens)
      (before : (Mark.openParen.token opening).stop ≤ inner.span.start)
      (built : Built tokens n inner) : Built tokens (n + 1) (.paren inner ⟨opening, stop⟩)
  /-- A bracket before the elements of a matrix, which have gaps between them. -/
  | matrix {n : Nat} (opening stop : Nat) (rows : List (List (Expr Float)))
      (mem : Mark.openBracket.token opening ∈ tokens)
      (before : ∀ e ∈ rows.flatten, (Mark.openBracket.token opening).stop ≤ e.span.start)
      (apart : rows.flatten.Pairwise (fun c d => c.span.stop < d.span.start))
      (built : ∀ e ∈ rows.flatten, Built tokens n e) :
      Built tokens (n + 1) (.matrix rows ⟨opening, stop⟩)

namespace Built

variable {tokens : List Token} {n : Nat} {e : Expr Float}

/-- **Every node of a built tree comes from the tokens.** -/
theorem allSourced (h : e.Built tokens n) : e.AllSourced tokens := by
  induction h with
  | leaf source _ children => exact source.leaf children
  | operation t s left right mem lexeme afterLeft beforeRight _ _ ihLeft ihRight =>
      refine allSourced_iff.2 ⟨.operation t s left right _ mem lexeme afterLeft beforeRight, ?_⟩
      exact List.forall_mem_cons.2 ⟨ihLeft, List.forall_mem_singleton.2 ihRight⟩
  | negation minus right mem before _ _ ih =>
      refine allSourced_iff.2 ⟨.negation _ right _ mem rfl before, ?_⟩
      have hone : (Expr.number (-1) (Sign.minus.token minus).span).AllSourced tokens :=
        (Sourced.minusOne _ mem rfl).leaf rfl
      exact List.forall_mem_cons.2 ⟨hone, List.forall_mem_singleton.2 ih⟩
  | paren opening stop inner mem before _ ih =>
      exact allSourced_iff.2 ⟨.paren _ inner stop mem rfl before, List.forall_mem_singleton.2 ih⟩
  | matrix opening stop rows mem before _ _ ih =>
      exact allSourced_iff.2 ⟨.matrix _ rows stop mem rfl before, ih⟩

/-- **A built tree has as many layers as there were readers inside one another.** -/
theorem layered (h : e.Built tokens n) : e.Layered n := by
  induction h with
  | leaf _ plain children => exact .leaf _ plain children
  | operation t s left right _ lexeme afterLeft _ _ _ ihLeft ihRight =>
      have hlength : t.start < t.stop := by
        rw [Token.eq_sign lexeme]
        exact Nat.lt_succ_self _
      refine .plain (nests_binary_of_le afterLeft hlength) ?_
      exact List.forall_mem_cons.2 ⟨ihLeft, List.forall_mem_singleton.2 ihRight⟩
  | negation minus right _ _ _ _ ih =>
      refine .layer ?_
      exact List.forall_mem_cons.2 ⟨.leaf _ rfl rfl, List.forall_mem_singleton.2 ih⟩
  | paren opening stop inner _ _ _ ih => exact .layer (List.forall_mem_singleton.2 ih)
  | matrix opening stop rows _ _ _ _ ih => exact .layer ih

end Built
end Expr

open LinearCalc.Expr

variable {limit n : Nat} {tokens : List Token}

/-! ## Grouping -/

/-- The operator of a link is a sign of the text, after what is on its left and before its
operand. -/
def LinkSourced (tokens : List Token) (left : Expr Float) (link : Link) : Prop :=
  ∃ t ∈ tokens, ∃ s, t.lexeme = .sign s ∧ link.op = s.operator ∧ link.opSpan = t.span ∧
    left.span.stop ≤ t.start ∧ t.stop ≤ link.operand.span.start

/-- The operands of a chain are built from the tokens, and so are the operators between them. -/
def BuiltChain (tokens : List Token) (n : Nat) : Expr Float → List Link → Prop
  | first, [] => first.Built tokens n
  | first, link :: more =>
    first.Built tokens n ∧ LinkSourced tokens first link ∧ BuiltChain tokens n link.operand more

theorem BuiltChain.first {first : Expr Float} {links : List Link}
    (h : BuiltChain tokens n first links) : first.Built tokens n := by
  cases links with
  | nil => exact h
  | cons link more => exact h.1

/-- A chain is built in the same way after its first two operands are joined. -/
theorem BuiltChain.join {first : Expr Float} {link : Link} {more : List Link}
    (h : BuiltChain tokens n first (link :: more)) :
    BuiltChain tokens n (first.join link) more := by
  obtain ⟨hfirst, ⟨t, ht, s, hlexeme, hop, hspan, hafter, hbefore⟩, hmore⟩ := h
  have hjoin : (first.join link).Built tokens n := by
    rw [Expr.join, hop, hspan]
    exact .operation t s first link.operand ht hlexeme hafter hbefore hfirst hmore.first
  cases more with
  | nil => exact hjoin
  | cons next more => exact ⟨hjoin, hmore.2⟩

/-- A pass does not move the start of a chain. -/
theorem fuse_start (level : Nat) (first : Expr Float) (links : List Link) :
    (fuse level first links).1.span.start = first.span.start := by
  induction links generalizing first with
  | nil => rfl
  | cons link links ih =>
      by_cases hlevel : link.op.binding = level
      · rw [fuse, if_pos hlevel]
        exact ih (first.join link)
      · rw [fuse, if_neg hlevel]

theorem BuiltChain.fuse (level : Nat) {first : Expr Float} {links : List Link}
    (h : BuiltChain tokens n first links) :
    BuiltChain tokens n (fuse level first links).1 (fuse level first links).2 := by
  induction links generalizing first with
  | nil => exact h
  | cons link links ih =>
      by_cases hlevel : link.op.binding = level
      · rw [LinearCalc.fuse, if_pos hlevel]
        exact ih h.join
      · rw [LinearCalc.fuse, if_neg hlevel]
        obtain ⟨hfirst, ⟨t, ht, s, hlexeme, hop, hspan, hafter, hbefore⟩, hmore⟩ := h
        have hstart := fuse_start level link.operand links
        exact ⟨hfirst, ⟨t, ht, s, hlexeme, hop, hspan, hafter, hstart ▸ hbefore⟩, ih hmore⟩

/-- **Grouping builds a tree from a chain.** -/
theorem BuiltChain.assemble {first : Expr Float} {links : List Link}
    (h : BuiltChain tokens n first links) : (assemble first links).Built tokens n :=
  ((((h.fuse 3).fuse 2).fuse 1).fuse 0).first

/-! ## Slots -/

/-- An element is built from the tokens, and a separator is not empty. -/
def Item.Built (tokens : List Token) (n : Nat) : Item → Prop
  | .element e => e.Built tokens n
  | .comma s => s.start < s.stop
  | .semicolon s => s.start < s.stop

theorem Token.Separates.built {token : Token} {item : Item} (h : token.Separates item) :
    item.Built tokens n := by
  cases h with
  | comma start => exact Nat.lt_succ_self start
  | semicolon start => exact Nat.lt_succ_self start

/-- What holds of the expressions between the brackets of a matrix and of empty slots holds of all
elements. -/
theorem forall_mem_fillSlots {P : Expr Float → Prop}
    (hmissing : ∀ offset, P (.placeholder (.point offset))) (stop : Nat)
    (found : Option (Expr Float)) (items : List Item) (hfound : ∀ e ∈ found, P e)
    (hitems : ∀ e, .element e ∈ items → P e) :
    ∀ e ∈ (fillSlots stop found items).1 ++ (fillSlots stop found items).2.flatten, P e := by
  have hslot : ∀ (found : Option (Expr Float)) (stop : Nat), (∀ e ∈ found, P e) →
      P (slotElement found stop) := by
    intro found stop hfound
    cases found with
    | none => exact hmissing stop
    | some e => exact hfound e rfl
  -- an expression fills the open slot or is in excess; a separator closes the slot, which is then
  -- an element
  fun_induction fillSlots stop found items with
  | case1 found =>
      intro e he
      have he' : e = slotElement found stop := by simpa using he
      exact he' ▸ hslot found stop hfound
  | case2 d more ih =>
      refine ih ?_ (fun e he => hitems e (List.mem_cons_of_mem _ he))
      intro e he
      cases he
      exact hitems d List.mem_cons_self
  | case3 d surplus more ih =>
      exact ih hfound (fun e he => hitems e (List.mem_cons_of_mem _ he))
  | case4 found s more row rows hrest ih | case5 found s more row rows hrest ih =>
      have hmore := ih (by simp) (fun e he => hitems e (List.mem_cons_of_mem _ he))
      rw [hrest] at hmore
      intro e he
      have he' : e = slotElement found s.start ∨ e ∈ row ++ rows.flatten := by simpa using he
      rcases he' with rfl | he'
      · exact hslot found s.start hfound
      · exact hmore e he'

/-- The element of a slot stops before the separator that ends the slot. -/
theorem slotElement_stop_le {start stop : Nat} {s : Span} {more : List (Expr Float)}
    (found : Option (Expr Float))
    (h : InOrder start (found.toList ++ Expr.placeholder s :: more) stop) :
    (slotElement found s.start).span.stop ≤ s.start := by
  cases found with
  | none => exact Nat.le_refl _
  | some e => exact h.2.2.1

/-- **There is a separator between any two elements.** -/
theorem fillSlots_apart {start stop last : Nat} (found : Option (Expr Float)) (items : List Item)
    (h : InOrder start (found.toList ++ items.map Item.node) stop) (hlast : stop ≤ last)
    (hitems : ∀ item ∈ items, item.Built tokens n) :
    ((fillSlots last found items).1 ++ (fillSlots last found items).2.flatten).Pairwise
      (fun c d => c.span.stop < d.span.start) := by
  fun_induction fillSlots last found items generalizing start with
  | case1 found => simp
  | case2 e more ih => exact ih h (fun item hitem => hitems item (List.mem_cons_of_mem _ hitem))
  | case3 e surplus more ih =>
      obtain ⟨hstart, htidy, hafter, hsurplus, hmore⟩ := h
      have hordered := hsurplus.here.ordered
      exact ih ⟨hstart, htidy, hmore.mono (Nat.le_trans hafter hordered) (Nat.le_refl _)⟩
        (fun item hitem => hitems item (List.mem_cons_of_mem _ hitem))
  | case4 found s more row rows hrest ih | case5 found s more row rows hrest ih =>
      have hslot := slotElement_stop_le found h
      obtain ⟨-, hmore⟩ := slotElement_inOrder found h
      have hseparator : s.start < s.stop := hitems _ List.mem_cons_self
      have hbehind := fillSlots_inOrder none more hmore hlast
      have hgaps := ih hmore (fun item hitem => hitems item (List.mem_cons_of_mem _ hitem))
      rw [hrest] at hbehind hgaps
      refine List.pairwise_cons.2 ⟨?_, hgaps⟩
      intro d hd
      -- an element ends before the separator of its slot, and the next ones begin behind it
      calc (slotElement found s.start).span.stop ≤ s.start := hslot
        _ < s.stop := hseparator
        _ ≤ d.span.start := (hbehind.bounds d hd).1

/-! ## Readers -/

/-- How things are built that stand where the reader is placed in the text. An operand can follow a
minus. The links after a first operand are built when that operand stops before them. -/
def building (limit : Nat) (tokens : List Token) : ReaderInvariant where
  ofOperand n after c r := c.Placed limit → c.rest <:+ tokens → (∀ stop ∈ after, stop = c.last) →
    r.value.Built tokens n ∧ r.value.Leading
  ofLinks n last rest r := Follow limit last rest → rest <:+ tokens → ∀ first : Expr Float,
    first.Built tokens n → first.span.stop ≤ Cursor.position ⟨rest, last⟩ →
    BuiltChain tokens n first r.value
  ofChain n c r := c.Placed limit → c.rest <:+ tokens → r.value.Built tokens n
  ofItems n last rest r := Follow limit last rest → rest <:+ tokens →
    ∀ item ∈ r.value.1, item.Built tokens n

/-- A node without children can follow a minus. -/
theorem Expr.Sourced.built {e : Expr Float} (h : e.Sourced tokens) (hplain : e.nests = false)
    (hchildren : e.children = []) : e.Built tokens n ∧ e.Leading :=
  ⟨.leaf h hplain hchildren, leading_leaf hchildren⟩

/-- A parenthesis can follow a minus, whatever closes it. -/
theorem Expr.Built.parenthesis {opening last stop : Nat} {rest : List Token} {e : Expr Float}
    (h : e.Built tokens n) (hrest : Mark.openParen.token opening :: rest <:+ tokens)
    (hc : Cursor.Placed limit ⟨Mark.openParen.token opening :: rest, last⟩)
    (hstart : (Cursor.after (Mark.openParen.token opening) rest).position ≤ e.span.start) :
    (Expr.paren e ⟨opening, stop⟩).Built tokens (n + 1) ∧
      (Expr.paren e ⟨opening, stop⟩).Leading := by
  have hbefore : opening < e.span.start := Nat.le_trans hc.stop_le_position hstart
  exact ⟨.paren opening stop e (hrest.mem (by simp)) hbefore h,
    .inl (List.forall_mem_singleton.2 hbefore)⟩

/-- **Every way of reading builds a tree.** -/
theorem building_kept (limit : Nat) (tokens : List Token) : (building limit tokens).Kept where
  -- each clause puts a node over what was built inside it; that its own token lies outside is what
  -- the places of the readings say
  missing n after c _ _ _ _ := by
    cases after with
    | none => exact (Sourced.missingNumber c.position).built rfl rfl
    | some stop => exact (Sourced.missing stop).built rfl rfl
  transpose n after start rest last _ hrest _ :=
    (Sourced.transpose (Mark.transpose.token start) (hrest.mem (by simp)) rfl).built rfl rfl
  number n after digits start rest last _ hrest _ :=
    (Sourced.number ⟨.number digits, start⟩ digits (hrest.mem (by simp)) rfl).built rfl rfl
  tooDeep after token rest last hnests _ hrest _ :=
    (Sourced.tooDeep token _ (hrest.mem (by simp)) hnests).built rfl rfl
  negativeNumber n after minus digits start rest last _ hrest _ := by
    -- the literal is made of two tokens, and they must stand side by side
    have hadjacent : [Sign.minus.token minus, ⟨.number digits, start⟩] <:+: tokens :=
      (List.prefix_append [Sign.minus.token minus, ⟨.number digits, start⟩] rest).isInfix.trans
        hrest.isInfix
    exact (Sourced.negative _ _ digits hadjacent rfl rfl).built rfl rfl
  negation n after minus token rest last right _ hread hright hc hrest _ := by
    have hplaced := read_places n none hc.after (by simp)
    rw [hread] at hplaced
    obtain ⟨hbuilt, hleading⟩ := hright hc.after ((List.suffix_cons _ _).trans hrest) (by simp)
    have hbefore := Nat.le_trans hc.stop_le_position hplaced.inOrder.1
    exact ⟨.negation minus right.value (hrest.mem (by simp)) hbefore hleading hbuilt,
      .inr ⟨_, _, _, rfl⟩⟩
  bareMinus n after minus rest last _ _ hrest _ :=
    (Sourced.bareMinus (Sign.minus.token minus) (hrest.mem (by simp)) rfl).built rfl rfl
  closed n after opening closing rest more last inner hread _ hinner hc hrest _ := by
    have hplaced := chain_places n hc.after
    rw [hread] at hplaced
    exact (hinner hc.after ((List.suffix_cons _ _).trans hrest)).parenthesis hrest hc
      hplaced.inOrder.1
  unclosed n after opening rest last inner hread _ hinner hc hrest _ := by
    have hplaced := chain_places n hc.after
    rw [hread] at hplaced
    exact (hinner hc.after ((List.suffix_cons _ _).trans hrest)).parenthesis hrest hc
      hplaced.inOrder.1
  matrix n after opening rest last found hread hfound hc hrest _ := by
    have hitems := hfound hc.2 ((List.suffix_cons _ _).trans hrest)
    have hplaced := (readItems_places n hc.2).mono hc.stop_le_position
    rw [hread] at hplaced
    have hinner := hplaced.slots.1
    have hrows := fillSlots_inOrder none _ hinner (Nat.le_refl _)
    have hbefore := fun e he => (hrows.bounds e he).1
    refine ⟨.matrix opening _ _ (hrest.mem (by simp)) hbefore
      (fillSlots_apart none _ hinner (Nat.le_refl _) hitems) ?_, .inl hbefore⟩
    exact forall_mem_fillSlots (fun offset => .leaf (.missing offset) rfl rfl) _ none _ (by simp)
      (fun e he => hitems _ he)
  noLinks n last rest _ _ _ first hfirst _ := hfirst
  link n last s start rest right more hread _ hright hmore hc hrest first hfirst hstop := by
    have hafter : ∀ stop ∈ some (s.token start).stop,
        stop = (Cursor.after (s.token start) rest).last := by
      simp
    have hbehind : rest <:+ tokens := (List.suffix_cons _ rest).trans hrest
    have hplaced := read_places n (some (s.token start).stop)
      (c := .after (s.token start) rest) hc.2 hafter
    have hleft := (operandReader n).suffix (some (s.token start).stop) (.after (s.token start) rest)
    rw [hread] at hplaced hleft
    have hbuilt := (hright hc.2 hbehind hafter).1
    have hsourced : LinkSourced tokens first ⟨s.operator, (s.token start).span, right.value⟩ :=
      ⟨s.token start, hrest.mem (by simp), s, rfl, rfl, rfl, hstop, hplaced.inOrder.1⟩
    exact ⟨hfirst, hsourced,
      hmore hplaced.cursor (hleft.trans hbehind) right.value hbuilt hplaced.inOrder.2.2⟩
  grouped n c first more hread _ hfirst hmore hc hrest := by
    have hplaced := read_places n none hc (by simp)
    have hleft := (operandReader n).suffix none c
    rw [hread] at hplaced hleft
    have hbuilt := (hfirst hc hrest (by simp)).1
    exact (hmore hplaced.cursor (hleft.trans hrest) first.value hbuilt
      hplaced.inOrder.2.2).assemble
  noBracket n last _ _ := by simp
  bracket n last closing rest _ _ := by simp
  separator n last token item rest more hseparates _ hmore hc hrest :=
    List.forall_mem_cons.2
      ⟨hseparates.built, hmore hc.2 ((List.suffix_cons _ _).trans hrest)⟩
  stray n last start rest more _ hmore hc hrest := hmore hc.2 ((List.suffix_cons _ _).trans hrest)
  element n last token rest e more _ hread _ hchain hmore hc hrest := by
    have hplaced := chain_places n (c := ⟨token :: rest, last⟩) hc
    have hleft := chain_suffix (operandReader n) ⟨token :: rest, last⟩
    rw [hread] at hplaced hleft
    exact List.forall_mem_cons.2 ⟨hchain hc hrest, hmore hplaced.cursor (hleft.trans hrest)⟩

/-- **Parsing builds a tree** from tokens that come one after the other, with as many readers inside
one another as may be nested. -/
theorem parse_built {limit : Nat} {tokens : List Token} (h : Follow limit 0 tokens) :
    (parse tokens).1.Built tokens maxNesting := by
  rw [parse_value]
  exact (building_kept limit tokens).chain maxNesting ⟨tokens, 0⟩ h (List.suffix_refl _)

/-! ## Sources -/

/-- **Nothing is fabricated or used twice.** Every node of a parsed text has its source among the
tokens of the text, and a token that supplies two nodes is a minus that negates an operand: it
supplies the multiplication and the `-1` on its left. -/
theorem parseText_sources (text : String) :
    (∀ n ∈ (parseText text).1.preorder, n.Sourced (tokenize text)) ∧
    ∀ t ∈ tokenize text, (parseText text).1.preorder.Pairwise
      (fun a b => t.Supplies a → t.Supplies b → t.Negates a b) := by
  have hfollow := tokenize_follow text
  have hlength := tokenize_start_lt_stop text
  have hsourced : (parseText text).1.AllSourced (tokenize text) := (parse_built hfollow).allSourced
  have htidy : (parseText text).1.Tidy := (parse_tidy hfollow).1
  refine ⟨hsourced, ?_⟩
  intro t ht
  refine hsourced.pairwise_negates htidy (hlength t ht) ?_
  intro other hother hspan
  exact hfollow.eq_of_span hlength hother ht hspan

/-- The minus of `-(T` supplies nothing but its negation, though the parenthesis is not closed. -/
theorem parseText_sources_unclosed :
    (parseText "-(T").1.Sourced (tokenize "-(T") ∧
    Sign.minus.token 0 ∈ tokenize "-(T" ∧
    (parseText "-(T").1.preorder.Pairwise (fun a b => (Sign.minus.token 0).Supplies a →
      (Sign.minus.token 0).Supplies b → (Sign.minus.token 0).Negates a b) := by
  have hroot : (parseText "-(T").1 ∈ (parseText "-(T").1.preorder := self_mem_preorder _
  have hminus : Sign.minus.token 0 ∈ tokenize "-(T" := by decide +kernel
  have hsources := parseText_sources "-(T"
  exact ⟨hsources.1 _ hroot, hminus, hsources.2 _ hminus⟩

end LinearCalc
