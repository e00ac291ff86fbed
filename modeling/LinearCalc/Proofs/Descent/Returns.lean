import LinearCalc.Proofs.Descent.Calls

set_option autoImplicit false

/-! # Calls return on their level

Every call that returns has gone on in the tokens and is at the depth at which it began
(`Call.depth_of_ok`): a bracket or a minus counts the depth up, and down again when it has been
read. A call that is made below the nesting limit makes calls below the limit only
(`Call.Reaches.depth_le`), and one whose budget is enough makes only such calls
(`Call.Reaches.fits`). What is nested is read from fewer tokens than its bracket or its minus
(`nested_congr`).
-/

namespace LinearCalc
namespace Descent

variable {budget : Nat}

namespace Call

/-! ## Returning -/

/-- The budget is enough for the tokens that are left, and there is a token where a bracket or a
minus is to be read. -/
def Fits (call : Call) : Prop :=
  match call.job with
  | .chain _ _ | .operand _ | .passOver => call.context.rest.length < call.budget
  | .nested | .negation | .paren | .matrix =>
    call.context.rest ≠ [] ∧ call.context.rest.length ≤ call.budget

/-- The call comes to a reading from its context, or fails because it does not fit. -/
def Returns (call : Call) : Prop :=
  (∃ r : Reading (Expr Float), call.run = .ok (r.value, call.context.reached r)) ∨
    (∃ fault, call.run = .error fault) ∧ ¬ call.Fits

theorem Returns.of_settles {call : Call} {r : Reading (Expr Float)} {enough : Prop}
    (h : Settles call.run (r.value, call.context.reached r) enough)
    (hfits : call.Fits → enough) : call.Returns := by
  rcases h with hok | ⟨hspent, hnot⟩
  · exact .inl ⟨r, hok⟩
  · exact .inr ⟨⟨.spent, hspent⟩, fun h => hnot (hfits h)⟩

/-- A routine for a bracket or a minus takes the token at which it stands. -/
theorem returns_of_taking (job : Job)
    (hfits : ∀ c, Fits ⟨job, budget, c⟩ → c.rest ≠ [] ∧ c.rest.length ≤ budget)
    (hnil : ∀ last depth diagnostics,
      run ⟨job, budget, ⟨[], last, depth, diagnostics⟩⟩ = .error .pastEnd)
    (hcons : ∀ token rest last depth diagnostics, ∃ r : Reading (Expr Float),
      Settles (run ⟨job, budget, ⟨token :: rest, last, depth, diagnostics⟩⟩)
        (r.value, Context.reached ⟨token :: rest, last, depth, diagnostics⟩ r)
        (rest.length < budget)) (c : Context) : Returns ⟨job, budget, c⟩ := by
  obtain ⟨rest, last, depth, diagnostics⟩ := c
  cases rest with
  | nil => exact .inr ⟨⟨.pastEnd, hnil last depth diagnostics⟩, fun h => (hfits _ h).1 rfl⟩
  | cons token rest =>
      obtain ⟨r, hr⟩ := hcons token rest last depth diagnostics
      exact .of_settles hr (fun h => (hfits _ h).2)

theorem ofWord_returns (word : Option Lexeme) (budget : Nat) (c : Context) :
    Returns ⟨.ofWord word, budget, c⟩ := by
  unfold Job.ofWord
  split
  · exact returns_of_taking .matrix (fun _ h => h) (fun _ _ _ => rfl)
      (fun token rest last depth diagnostics =>
        ⟨_, matrix_settles (expression_follows budget depth) token rest last diagnostics⟩) c
  · exact returns_of_taking .paren (fun _ h => h) (fun _ _ _ => rfl)
      (fun token rest last depth diagnostics =>
        ⟨_, paren_settles (expression_follows budget depth) token rest last diagnostics⟩) c
  · exact returns_of_taking .negation (fun _ h => h) (fun _ _ _ => rfl)
      (fun token rest last depth diagnostics =>
        ⟨_, negation_settles (operand_follows budget depth) token rest last diagnostics⟩) c

theorem ofWord_fits (word : Option Lexeme) (budget : Nat) (c : Context) :
    Fits ⟨.ofWord word, budget, c⟩ ↔ c.rest ≠ [] ∧ c.rest.length ≤ budget := by
  unfold Job.ofWord
  split <;> rfl

/-- The depth is counted down as often as it is counted up. -/
theorem nested_returns (budget : Nat) (c : Context) : Returns ⟨.nested, budget, c⟩ := by
  by_cases hlimit : c.depth < maxNesting
  · have hnested : run ⟨.nested, budget, c⟩ = _ :=
      nested_of_lt (Descent.operand budget) budget hlimit
    -- what is inside gives back the depth it was entered with, and leaving takes one off it
    rcases ofWord_returns c.word? budget { c with depth := c.depth + 1 } with
      ⟨r, hr⟩ | ⟨⟨fault, hfault⟩, hnot⟩
    · refine .inl ⟨r, ?_⟩
      simp only [run] at hr
      rw [hnested, hr]
      rfl
    · refine .inr ⟨⟨fault, ?_⟩, ?_⟩
      · simp only [run] at hfault
        rw [hnested, hfault]
        rfl
      · exact fun hfits => hnot ((ofWord_fits _ _ _).2 hfits)
  · have hpassed : run ⟨.nested, budget, c⟩ = skip (budget + 1) c :=
      if_pos (Nat.not_lt.1 hlimit)
    refine .of_settles (hpassed ▸ skip_settles c) ?_
    exact fun hfits => Nat.lt_succ_of_le hfits.2

/-- **Every call returns** what is read from its place, unless it does not fit. -/
theorem returns (call : Call) : call.Returns := by
  obtain ⟨job, budget, c⟩ := call
  cases job with
  | chain n after =>
      exact .of_settles (climb_follows (operand_follows budget c.depth) n after c rfl) id
  | operand after => exact .of_settles (operand_follows budget c.depth after c rfl) id
  | nested => exact nested_returns budget c
  | passOver => exact .of_settles (skip_settles c) id
  | negation => exact ofWord_returns none budget c
  | paren => exact ofWord_returns (some (.mark .openParen)) budget c
  | matrix => exact ofWord_returns (some (.mark .openBracket)) budget c

/-- **A call that returns is at the depth at which it began.** -/
theorem depth_of_ok {call : Call} {e : Expr Float} {c : Context} (h : call.run = .ok (e, c)) :
    c.depth = call.context.depth := by
  rcases call.returns with ⟨r, hr⟩ | ⟨⟨fault, hfault⟩, -⟩
  · rw [hr] at h
    cases h
    rfl
  · rw [hfault] at h
    cases h

theorem Fits.exists_ok {call : Call} (h : call.Fits) : ∃ e c, call.run = .ok (e, c) := by
  rcases call.returns with ⟨r, hr⟩ | ⟨-, hnot⟩
  · exact ⟨_, _, hr⟩
  · exact absurd h hnot

end Call

/-! ## Between the calls -/

/-- The second context is on the level of the first one, at the same place or behind it. -/
structure Further (c c' : Context) : Prop where
  depth : c'.depth = c.depth
  length : c'.rest.length ≤ c.rest.length

theorem advance_further {c inside : Context} {token : Token}
    (h : c.advance = .ok (token, inside)) : Further c inside := by
  refine ⟨?_, Nat.le_of_lt (advance_lt h)⟩
  obtain ⟨rest, last, depth, diagnostics⟩ := c
  cases rest with
  | nil => cases h
  | cons next rest =>
      cases h
      rfl

theorem Further.trans {c c' c'' : Context} (h : Further c c') (h' : Further c' c'') :
    Further c c'' :=
  ⟨h'.depth.trans h.depth, Nat.le_trans h'.length h.length⟩

/-- The loop of a chain stays on its level. -/
theorem chain_further {n : Nat} {after : Option Nat} {c c' : Context} {left : Expr Float}
    {state : Expr Float × Context}
    (hfirst : climb (operand budget) budget n after c = .ok (left, c'))
    (hgoes : Goes (operatorRound (climb (operand budget) budget n) n) (left, c') state) :
    Further c state.2 := by
  have hfollows := climb_follows (operand_follows budget c.depth) n
  cases (hfollows after c rfl).eq_of_ok hfirst
  have hstart : Completes (operandReader (maxNesting - c.depth)) n c.depth _ _ :=
    Completes.start n after c rfl
  obtain ⟨hcompletes, hle⟩ := (operatorRound_advances hfollows).goes hstart hgoes
  exact ⟨hcompletes.depth, Nat.le_trans hle (chainTo_suffix _ n after c.cursor).length_le⟩

/-- The loop of a matrix stays on its level. -/
theorem matrix_further {c : Context} {state : List Item × Context}
    (hgoes : Goes (itemRound (expression budget)) ([], c) state) : Further c state.2 := by
  have hadvances := itemRound_advances (expression_follows budget c.depth)
  obtain ⟨hcollects, hle⟩ := hadvances.goes ⟨rfl, rfl⟩ hgoes
  exact ⟨hcollects.1, hle⟩

/-! ## What a call hands on -/

namespace Call

variable {call call' : Call}

/-- A call hands on a context of its own level, or enters a bracket or a minus, before the limit and
without a step in the tokens. -/
theorem Makes.further_or_enters (h : call.Makes call') :
    Further call.context call'.context ∨ call.context.depth < maxNesting ∧
      call'.context.depth = call.context.depth + 1 ∧ call'.context.rest = call.context.rest := by
  cases h with
  | first | tightest | nested | passOver => exact .inl ⟨rfl, Nat.le_refl _⟩
  | next first goes word tier taken =>
      exact .inl ((chain_further first goes).trans (advance_further taken))
  | enter limit => exact .inr ⟨limit, rfl, rfl⟩
  | negated taken | content taken => exact .inl (advance_further taken)
  | element taken goes => exact .inl ((advance_further taken).trans (matrix_further goes))

/-- **One call below the limit makes calls below the limit.** Only to enter a bracket or a minus
counts the depth up, and that is not done at the limit. -/
theorem Makes.depth_le (h : call.Makes call') (hdepth : call.context.depth ≤ maxNesting) :
    call'.context.depth ≤ maxNesting := by
  rcases h.further_or_enters with hfurther | ⟨hlimit, hdeeper, -⟩
  · exact hfurther.depth ▸ hdepth
  · exact hdeeper ▸ hlimit

/-- No call goes back in the tokens. -/
theorem Makes.length_le (h : call.Makes call') :
    call'.context.rest.length ≤ call.context.rest.length := by
  rcases h.further_or_enters with hfurther | ⟨-, -, hrest⟩
  · exact hfurther.length
  · exact Nat.le_of_eq (congrArg List.length hrest)

/-- **A call that fits makes calls that fit.** -/
theorem Makes.fits (h : call.Makes call') (hfits : call.Fits) : call'.Fits := by
  cases h with
  | first | tightest => exact hfits
  | next first goes word tier taken =>
      -- the loop has only gone on since the call began, and the operator takes one more token
      have hfurther := (chain_further first goes).trans (advance_further taken)
      exact Nat.lt_of_le_of_lt hfurther.length hfits
  | @nested after budget c opening word nests =>
      have hrest : c.rest ≠ [] := by
        intro hnil
        simp [Context.word?, hnil] at word
      exact ⟨hrest, Nat.le_of_lt_succ hfits⟩
  | passOver limit => exact Nat.lt_succ_of_le hfits.2
  | enter limit => exact (ofWord_fits _ _ _).2 hfits
  | negated taken | content taken => exact Nat.lt_of_lt_of_le (advance_lt taken) hfits.2
  | element taken goes =>
      have hlength := (matrix_further goes).length
      exact Nat.lt_of_le_of_lt hlength (Nat.lt_of_lt_of_le (advance_lt taken) hfits.2)

/-- A bracket or a minus is taken before what stands inside it is read. -/
theorem Makes.length_lt_of_ofWord {word : Option Lexeme} {c : Context}
    (h : Makes ⟨.ofWord word, budget, c⟩ call') :
    call'.context.rest.length < c.rest.length := by
  unfold Job.ofWord at h
  split at h
  · cases h with
    | element taken goes => exact Nat.lt_of_le_of_lt (matrix_further goes).length (advance_lt taken)
  · cases h with
    | content taken => exact advance_lt taken
  · cases h with
    | negated taken => exact advance_lt taken

/-- **No call in the course of another is deeper than the limit.** -/
theorem Reaches.depth_le (h : call.Reaches call') (hdepth : call.context.depth ≤ maxNesting) :
    call'.context.depth ≤ maxNesting := by
  induction h with
  | refl => exact hdepth
  | tail _ hmakes ih => exact hmakes.depth_le ih

/-- **All calls in the course of one that fits return.** -/
theorem Reaches.fits (h : call.Reaches call') (hfits : call.Fits) : call'.Fits := by
  induction h with
  | refl => exact hfits
  | tail _ hmakes ih => exact hmakes.fits ih

theorem Reaches.length_le (h : call.Reaches call') :
    call'.context.rest.length ≤ call.context.rest.length := by
  induction h with
  | refl => exact Nat.le_refl _
  | tail _ hmakes ih => exact Nat.le_trans hmakes.length_le ih

/-- The operands inside a bracket or behind a minus are called for with fewer tokens. -/
theorem Reaches.length_lt_of_nested {after : Option Nat} {budget' : Nat} {c c' : Context}
    (h : Reaches ⟨.nested, budget, c⟩ ⟨.operand after, budget', c'⟩) :
    c'.rest.length < c.rest.length := by
  obtain heq | ⟨first, hfirst, hrest⟩ := Relation.ReflTransGen.cases_head h
  · cases heq
  · cases hfirst with
    | passOver =>
        obtain heq | ⟨_, hnone, -⟩ := Relation.ReflTransGen.cases_head hrest
        · cases heq
        · cases hnone
    | enter =>
        obtain heq | ⟨second, hsecond, hrest⟩ := Relation.ReflTransGen.cases_head hrest
        · have hjob : Job.ofWord c.word? = .operand after := congrArg Call.job heq
          unfold Job.ofWord at hjob
          split at hjob <;> cases hjob
        · exact Nat.lt_of_le_of_lt (Reaches.length_le hrest) hsecond.length_lt_of_ofWord

end Call

/-- **What is nested is read from fewer tokens.** It makes no difference how the routine for what
stands inside works on as many tokens, or more. -/
theorem nested_congr {other : Routine} (c : Context)
    (h : AgreeBelow c.rest.length other (operand budget)) :
    nested other budget c = nested (operand budget) budget c := by
  refine Call.runWith_eq ⟨.nested, budget, c⟩ other ?_
  intro after inside hreaches
  exact h after inside hreaches.length_lt_of_nested

end Descent
end LinearCalc
