import LinearCalc.Proofs.Descent

set_option autoImplicit false

/-! # Runs that settle

A run settles when it gives the expected result, and the only thing that can keep it from doing so
is a budget that is not enough. Runs that settle can be put together (`Settles.bind`), and a loop
settles when each of its rounds settles and leaves less to do (`loop_settles`).
-/

namespace LinearCalc
namespace Descent

variable {α β σ τ : Type}

/-- The run gives this result, or the budget is spent because it was not enough. -/
def Settles (run : Except Fault α) (result : α) (enough : Prop) : Prop :=
  run = .ok result ∨ run = .error .spent ∧ ¬ enough

theorem Settles.ok (result : α) (enough : Prop) : Settles (.ok result) result enough :=
  .inl rfl

/-- One run after the other. -/
theorem Settles.bind {run : Except Fault α} {next : α → Except Fault β} {a : α} {b : β}
    {enough : Prop} (h : Settles run a enough) (hnext : Settles (next a) b enough) :
    Settles (run >>= next) b enough := by
  rcases h with hok | ⟨hspent, hnot⟩
  · rw [hok]
    exact hnext
  · rw [hspent]
    exact .inr ⟨rfl, hnot⟩

theorem Settles.mono {run : Except Fault α} {result : α} {enough enough' : Prop}
    (h : Settles run result enough) (himp : enough' → enough) : Settles run result enough' := by
  rcases h with hok | ⟨hspent, hnot⟩
  · exact .inl hok
  · exact .inr ⟨hspent, fun h' => hnot (himp h')⟩

/-- A budget that is enough is not spent. -/
theorem Settles.eq_ok {run : Except Fault α} {result : α} {enough : Prop}
    (h : Settles run result enough) (henough : enough) : run = .ok result := by
  rcases h with hok | ⟨-, hnot⟩
  · exact hok
  · exact absurd henough hnot

/-- There is no other result. -/
theorem Settles.eq_of_ok {run : Except Fault α} {result other : α} {enough : Prop}
    (h : Settles run result enough) (hok : run = .ok other) : other = result := by
  rcases h with h | ⟨h, -⟩
  · rw [hok] at h
    exact Except.ok.inj h
  · rw [hok] at h
    cases h

theorem Settles.ne_pastEnd {run : Except Fault α} {result : α} {enough : Prop}
    (h : Settles run result enough) : run ≠ .error .pastEnd := by
  rcases h with h | ⟨h, -⟩ <;> rw [h] <;> simp

/-- Every round settles: from a state that leads to a result, it leaves the loop with that result
or goes on in a state that has less to do and leads to the same result. -/
def Advances (round : σ → Except Fault (Round σ τ)) (size : σ → Nat) (Leads : σ → τ → Prop)
    (fuel : Nat) : Prop :=
  ∀ state result, Leads state result →
    (∃ state', Settles (round state) (.again state') (size state < fuel) ∧
      size state' < size state ∧ Leads state' result) ∨
    Settles (round state) (.done result) (size state < fuel)

variable {round : σ → Except Fault (Round σ τ)} {size : σ → Nat} {Leads : σ → τ → Prop} {fuel : Nat}

/-- A round that goes on leaves less to do. -/
theorem Advances.lt (h : Advances round size Leads fuel) {state state' : σ} {result : τ}
    (hleads : Leads state result) (hround : round state = .ok (.again state')) :
    size state' < size state := by
  rcases h state result hleads with ⟨next, hsettles, hless, -⟩ | hsettles
  · have heq := hsettles.eq_of_ok hround
    cases heq
    exact hless
  · have heq := hsettles.eq_of_ok hround
    cases heq

/-- **A loop settles** when its rounds advance: then it needs no more rounds than there is to
do. -/
theorem loop_settles (h : Advances round size Leads fuel) (budget : Nat) (state : σ) (result : τ)
    (hleads : Leads state result) :
    Settles (loop round budget state) result (size state < budget ∧ size state < fuel) := by
  induction budget generalizing state with
  | zero =>
      refine .inr ⟨rfl, ?_⟩
      rintro ⟨h0, -⟩
      omega
  | succ budget ih =>
      rcases h state result hleads with ⟨state', hsettles, hless, hleads'⟩ | hsettles
      · have hrest := ih state' hleads'
        refine (hsettles.mono And.right).bind (hrest.mono ?_)
        rintro ⟨hbudget, hfuel⟩
        exact ⟨by omega, by omega⟩
      · exact (hsettles.mono And.right).bind (.ok result _)

end Descent
end LinearCalc
