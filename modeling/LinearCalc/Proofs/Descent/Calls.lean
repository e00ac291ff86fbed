import LinearCalc.Proofs.Descent.Progress
import Mathlib.Logic.Relation

set_option autoImplicit false

/-! # Calls

The routines of the machine call one another. A `Call` is a routine with its budget and the context
that it is given, and `Call.Makes` lists which calls a call makes. That none is missing from the
list is `Call.runWith_eq`: a call gives the same result with any other routine for operands that
agrees on the operands called for. From one step of the list follows what holds of all calls of a
run: how deep they are (`Call.Reaches.depth_le`) and that they return (`Call.Reaches.fits`).
-/

namespace LinearCalc
namespace Descent

variable {budget : Nat}

/-! ## Loops -/

/-- Rounds lead from one state to the other. -/
def Goes {σ τ : Type} (round : σ → Except Fault (Round σ τ)) : σ → σ → Prop :=
  Relation.ReflTransGen (fun state state' => round state = .ok (.again state'))

/-- What one round keeps, any number of rounds keeps. -/
theorem Advances.goes {σ τ : Type} {round : σ → Except Fault (Round σ τ)} {size : σ → Nat}
    {Leads : σ → τ → Prop} {fuel : Nat} (h : Advances round size Leads fuel) {state state' : σ}
    {result : τ} (hleads : Leads state result) (hgoes : Goes round state state') :
    Leads state' result ∧ size state' ≤ size state := by
  induction hgoes with
  | refl => exact ⟨hleads, Nat.le_refl _⟩
  | tail _ hround ih =>
      obtain ⟨hleads', hle⟩ := ih
      rcases h _ result hleads' with ⟨next, hsettles, hless, hnext⟩ | hsettles
      · cases hsettles.eq_of_ok hround
        exact ⟨hnext, Nat.le_trans (Nat.le_of_lt hless) hle⟩
      · cases hsettles.eq_of_ok hround

/-! ## Routines -/

/-- What a routine of the machine is for. -/
inductive Job where
  /-- To read a chain of the `n` tightest tiers. -/
  | chain (n : Nat) (after : Option Nat)
  /-- To read an operand. -/
  | operand (after : Option Nat)
  /-- To read a bracket or a minus, one level further down. -/
  | nested
  /-- To pass over an operand. -/
  | passOver
  /-- To read a minus with what follows it. -/
  | negation
  /-- To read an expression in parentheses. -/
  | paren
  /-- To read a matrix. -/
  | matrix

namespace Job

/-- Does a job, with another routine for the operands in it. -/
def runWith (inside : Routine) (budget : Nat) :
    Job → Context → Except Fault (Expr Float × Context)
  | chain n after => climb inside budget n after
  | operand after => inside after
  | nested => Descent.nested inside budget
  | passOver => skip budget
  | negation => Descent.negation inside
  | paren => Descent.paren (climb inside budget 4)
  | matrix => Descent.matrix (climb inside budget 4) budget

def ofWord : Option Lexeme → Job
  | some (.mark .openBracket) => matrix
  | some (.mark .openParen) => paren
  | _ => negation

end Job

/-- Reading further down is what the word comes to, with the depth counted up and down again. -/
theorem nested_of_lt (inside : Routine) (budget : Nat) {c : Context} (h : c.depth < maxNesting) :
    nested inside budget c = do
      let (e, c) ← (Job.ofWord c.word?).runWith inside budget { c with depth := c.depth + 1 }
      return (e, { c with depth := c.depth - 1 }) := by
  rw [nested, if_neg (Nat.not_le.2 h)]
  generalize c.word? = word
  cases word with
  | none => rfl
  | some word =>
      cases word with
      | number | sign => rfl
      | mark mark => cases mark <;> rfl

/-- A routine that is called: its job, its budget and the context at the beginning. -/
structure Call where
  job : Job
  budget : Nat
  context : Context

namespace Call

def run (call : Call) : Except Fault (Expr Float × Context) :=
  call.job.runWith (operand call.budget) call.budget call.context

/-! ## Which calls a call makes -/

inductive Makes : Call → Call → Prop where
  /-- A chain begins with a chain of tighter operators. -/
  | first (n : Nat) (after : Option Nat) (budget : Nat) (c : Context) :
      Makes ⟨.chain (n + 1) after, budget, c⟩ ⟨.chain n after, budget, c⟩
  /-- Behind each operator of the chain there is another one. -/
  | next {n : Nat} {after : Option Nat} {budget : Nat} {c c' inside : Context} {left : Expr Float}
      {state : Expr Float × Context} {token : Token} {s : Sign}
      (first : climb (operand budget) budget n after c = .ok (left, c'))
      (goes : Goes (operatorRound (climb (operand budget) budget n) n) (left, c') state)
      (word : state.2.word? = some (.sign s)) (tier : s.operator.tier = n)
      (taken : state.2.advance = .ok (token, inside)) :
      Makes ⟨.chain (n + 1) after, budget, c⟩ ⟨.chain n (some token.stop), budget, inside⟩
  /-- A chain without operators is an operand. -/
  | tightest (after : Option Nat) (budget : Nat) (c : Context) :
      Makes ⟨.chain 0 after, budget, c⟩ ⟨.operand after, budget, c⟩
  /-- An operand begins with a bracket or a minus. -/
  | nested {after : Option Nat} {budget : Nat} {c : Context} {opening : Lexeme}
      (word : c.word? = some opening) (nests : opening.nests = true) :
      Makes ⟨.operand after, budget + 1, c⟩ ⟨.nested, budget, c⟩
  /-- At the nesting limit it is passed over. -/
  | passOver {budget : Nat} {c : Context} (limit : maxNesting ≤ c.depth) :
      Makes ⟨.nested, budget, c⟩ ⟨.passOver, budget + 1, c⟩
  /-- Before the limit it is read one level further down. -/
  | enter {budget : Nat} {c : Context} (limit : c.depth < maxNesting) :
      Makes ⟨.nested, budget, c⟩ ⟨.ofWord c.word?, budget, { c with depth := c.depth + 1 }⟩
  /-- A minus is followed by a bracket or another minus. -/
  | negated {budget : Nat} {c inside : Context} {minus : Token} {opening : Lexeme}
      (taken : c.advance = .ok (minus, inside)) (word : inside.word? = some opening)
      (nests : opening.nests = true) :
      Makes ⟨.negation, budget, c⟩ ⟨.operand none, budget, inside⟩
  /-- The content of parentheses. -/
  | content {budget : Nat} {c inside : Context} {opening : Token}
      (taken : c.advance = .ok (opening, inside)) :
      Makes ⟨.paren, budget, c⟩ ⟨.chain 4 none, budget, inside⟩
  /-- The elements of a matrix. -/
  | element {budget : Nat} {c inside : Context} {opening : Token} {state : List Item × Context}
      {start : Lexeme} (taken : c.advance = .ok (opening, inside))
      (goes : Goes (itemRound (expression budget)) ([], inside) state)
      (word : state.2.word? = some start) (role : start.role = .expression) :
      Makes ⟨.matrix, budget, c⟩ ⟨.chain 4 none, budget, state.2⟩

/-- The second call is made in the course of the first one. -/
def Reaches : Call → Call → Prop := Relation.ReflTransGen Makes

end Call

/-! ## No call is missing -/

/-- The other routine agrees with the machine on all operands called for. -/
def Call.Agrees (call : Call) (other : Routine) : Prop :=
  ∀ after c, call.Reaches ⟨.operand after, call.budget, c⟩ →
    other after c = operand call.budget after c

theorem Call.Agrees.makes {job job' : Job} {c c' : Context} {other : Routine}
    (h : Call.Agrees ⟨job, budget, c⟩ other)
    (hmakes : Call.Makes ⟨job, budget, c⟩ ⟨job', budget, c'⟩) :
    Call.Agrees ⟨job', budget, c'⟩ other :=
  fun after inside hreaches => h after inside (.head hmakes hreaches)

theorem climb_eq_of_agrees {other : Routine} (n : Nat) (after : Option Nat) (c : Context)
    (h : Call.Agrees ⟨.chain n after, budget, c⟩ other) :
    climb other budget n after c = climb (operand budget) budget n after c := by
  induction n generalizing after c with
  | zero => exact h after c (.single (.tightest after budget c))
  | succ n ih =>
      simp only [climb, ih after c (h.makes (.first n after budget c))]
      refine bind_congr_ok ?_
      rintro ⟨left, c'⟩ hleft
      -- the two loops need to agree only on states that the loop reaches: `Goes` is the invariant
      -- that says so, and it is what makes the next operand a call of the list
      refine loop_congr (Goes (operatorRound (climb (operand budget) budget n) n) (left, c'))
        ?_ (fun state state' hgoes hround => hgoes.tail hround) budget _ .refl
      intro state hgoes
      unfold operatorRound
      split
      · rename_i s hword
        split
        · rename_i htier
          refine bind_congr_ok ?_
          rintro ⟨token, inside⟩ htaken
          have hnext := ih (some token.stop) inside
            (h.makes (.next hleft hgoes hword htier htaken))
          exact congrArg (· >>= _) hnext
        · rfl
      · rfl

theorem negation_eq_of_agrees {other : Routine} (c : Context)
    (h : Call.Agrees ⟨.negation, budget, c⟩ other) :
    negation other c = negation (operand budget) c := by
  unfold negation
  refine bind_congr_ok ?_
  rintro ⟨minus, inside⟩ htaken
  have hoperand : ∀ word : Lexeme, inside.word? = some word → word.nests = true →
      other none inside = operand budget none inside :=
    fun word hword hnests => h none inside (.single (.negated htaken hword hnests))
  dsimp only
  split
  · rfl
  · rw [hoperand _ ‹_› rfl]
  · rw [hoperand _ ‹_› rfl]
  · rw [hoperand _ ‹_› rfl]
  · rfl

theorem paren_eq_of_agrees {other : Routine} (c : Context)
    (h : Call.Agrees ⟨.paren, budget, c⟩ other) :
    paren (climb other budget 4) c = paren (expression budget) c := by
  unfold paren
  refine bind_congr_ok ?_
  rintro ⟨opening, inside⟩ htaken
  have hinner := climb_eq_of_agrees 4 none inside (h.makes (.content htaken))
  dsimp only
  rw [hinner]
  rfl

theorem matrix_eq_of_agrees {other : Routine} (c : Context)
    (h : Call.Agrees ⟨.matrix, budget, c⟩ other) :
    matrix (climb other budget 4) budget c = matrix (expression budget) budget c := by
  unfold matrix
  -- as for a chain: only the states that the loop reaches count
  refine bind_congr_ok ?_
  rintro ⟨opening, inside⟩ htaken
  have hloop : loop (itemRound (climb other budget 4)) budget ([], inside)
      = loop (itemRound (expression budget)) budget ([], inside) := by
    refine loop_congr (Goes (itemRound (expression budget)) ([], inside)) ?_
      (fun state state' hgoes hround => hgoes.tail hround) budget _ .refl
    intro state hgoes
    unfold itemRound
    split
    · rfl
    · rename_i word hword
      split
      · rfl
      · rfl
      · rfl
      · rfl
      · rename_i hrole
        have helement := climb_eq_of_agrees 4 none state.2
          (h.makes (.element htaken hgoes hword hrole))
        exact congrArg (· >>= _) helement
  dsimp only
  rw [hloop]

/-- **No call is missing.** What a call comes to depends on the operands that it is listed to call
for, and on no others. -/
theorem Call.runWith_eq (call : Call) (other : Routine) (h : call.Agrees other) :
    call.job.runWith other call.budget call.context = call.run := by
  obtain ⟨job, budget, c⟩ := call
  have hentered : ∀ word c, Call.Agrees ⟨.ofWord word, budget, c⟩ other →
      (Job.ofWord word).runWith other budget c
        = (Job.ofWord word).runWith (Descent.operand budget) budget c := by
    intro word c h
    unfold Job.ofWord at h ⊢
    split at h
    · exact matrix_eq_of_agrees c h
    · exact paren_eq_of_agrees c h
    · exact negation_eq_of_agrees c h
  cases job with
  | chain n after => exact climb_eq_of_agrees n after c h
  | operand after => exact h after c .refl
  | nested =>
      show Descent.nested other budget c = Descent.nested (Descent.operand budget) budget c
      -- past the limit nothing is entered, and the operand is passed over without a call
      by_cases hlimit : c.depth < maxNesting
      · rw [nested_of_lt _ _ hlimit, nested_of_lt _ _ hlimit,
          hentered _ _ (h.makes (.enter hlimit))]
      · have hpassed : maxNesting ≤ c.depth := Nat.not_lt.1 hlimit
        rw [Descent.nested, Descent.nested, if_pos hpassed, if_pos hpassed]
  | passOver => rfl
  | negation => exact negation_eq_of_agrees c h
  | paren => exact paren_eq_of_agrees c h
  | matrix => exact matrix_eq_of_agrees c h

end Descent
end LinearCalc
