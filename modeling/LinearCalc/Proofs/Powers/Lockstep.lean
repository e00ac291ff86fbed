import LinearCalc.Proofs.Powers.Algebra
import Mathlib.Data.List.Forall2

set_option autoImplicit false

/-! # Two arithmetics in step

The algebra of grids uses zero, sums and products and nothing else. So a relation between two kinds
of numbers that zero and sums of products keep holds between the cells of any two products, powers
and chains, once it holds between the cells that these start from (`InStep.mul`, `InStep.pow`,
`InStep.chain`). Factors may be related more weakly than sums: a sum begins with zero, a typed
number does not.
-/

namespace LinearCalc

variable {α β : Type}

theorem forall₂_and_right {r : α → β → Prop} {P : β → Prop} {u : List α} {v : List β}
    (h : List.Forall₂ r u v) (hv : ∀ y ∈ v, P y) : List.Forall₂ (fun x y => r x y ∧ P y) u v := by
  induction h with
  | nil => exact .nil
  | cons hxy _ ih =>
      exact .cons ⟨hxy, hv _ List.mem_cons_self⟩ (ih (fun y hy => hv y (List.mem_cons_of_mem _ hy)))

/-- Cells at the same places are related. -/
def Related (r : α → β → Prop) : Grid α → Grid β → Prop := List.Forall₂ (List.Forall₂ r)

namespace Related

variable {r r' : α → β → Prop} {a : Grid α} {b : Grid β}

theorem imp (h : ∀ x y, r x y → r' x y) (hab : Related r a b) : Related r' a b :=
  List.Forall₂.imp (fun _ _ => List.Forall₂.imp h) hab

/-- What every cell on the right is can be said along with the relation. -/
theorem and_right {P : β → Prop} (hab : Related r a b) (hb : ∀ row ∈ b, ∀ y ∈ row, P y) :
    Related (fun x y => r x y ∧ P y) a b :=
  List.Forall₂.imp (fun _ _ hrow => forall₂_and_right hrow.1 hrow.2) (forall₂_and_right hab hb)

/-- What follows from being related, for every cell on the left. -/
theorem forall_left {P : α → Prop} (h : ∀ x y, r x y → P x) (hab : Related r a b) :
    ∀ row ∈ a, ∀ x ∈ row, P x := by
  have hrows : List.Forall₂ (fun u v => (∀ x ∈ u, P x) ∧ List.Forall₂ r u v) a b := by
    refine List.Forall₂.imp (fun u v huv => ?_) hab
    exact (List.forall₂_and_left u v).1 (List.Forall₂.imp (fun x y hxy => ⟨h x y hxy, hxy⟩) huv)
  exact ((List.forall₂_and_left a b).1 hrows).1

theorem map_right (f : α → β) (h : ∀ x, r x (f x)) (a : Grid α) : Related r a (a.map f) :=
  List.forall₂_map_right_iff.2 (List.forall₂_same.2 (fun _ _ =>
    List.forall₂_map_right_iff.2 (List.forall₂_same.2 (fun x _ => h x))))

theorem eq_map {f : α → β} (h : Related (fun x y => f x = y) a b) : a.map f = b := by
  have hrows : List.Forall₂ (List.Forall₂ (· = ·)) (a.map f) b :=
    List.forall₂_map_left_iff.2 (List.Forall₂.imp (fun _ _ => List.forall₂_map_left_iff.2) h)
  rwa [List.forall₂_eq_eq_eq, List.forall₂_eq_eq_eq] at hrows

/-- There is one grid on the left for every grid on the right. -/
theorem left_unique (h : Relator.LeftUnique r) {c : Grid α} (ha : Related r a b)
    (hc : Related r c b) : a = c :=
  h.forall₂.forall₂ ha hc

theorem shape_eq (h : Related r a b) : shape a = shape b := by
  cases h with
  | nil => rfl
  | cons hrow hrows =>
      simp [hrow.length_eq, hrows.length_eq]

theorem zipWith_cons {u : List α} {v : List β} (huv : List.Forall₂ r u v) (h : Related r a b) :
    Related r (List.zipWith List.cons u a) (List.zipWith List.cons v b) := by
  induction huv generalizing a b with
  | nil => exact .nil
  | cons hxy _ ih =>
      cases h with
      | nil => exact .nil
      | cons hrow hrows => exact .cons (.cons hxy hrow) (ih hrows)

theorem transpose (h : Related r a b) : Related r (transpose a) (transpose b) := by
  unfold LinearCalc.transpose
  rw [h.shape_eq]
  generalize (shape b).2 = n
  induction h with
  | nil =>
      induction n with
      | zero => exact .nil
      | succ n ih => exact .cons .nil ih
  | cons hrow _ ih => exact zipWith_cons hrow ih

end Related

variable [Add α] [Mul α] [Zero α] [Add β] [Mul β] [Zero β]

/-- Sums that begin with zero are related, and factors are related at least weakly. -/
structure InStep (weak strong : α → β → Prop) : Prop where
  zero : strong 0 0
  weaken : ∀ {x y}, strong x y → weak x y
  step : ∀ {x y u v z w}, strong z w → weak x y → weak u v → strong (z + x * u) (w + y * v)

namespace InStep

variable {weak strong : α → β → Prop} {a a' : Grid α} {b b' : Grid β}

theorem dot (h : InStep weak strong) {u u' : List α} {v v' : List β}
    (hu : List.Forall₂ weak u v) (hu' : List.Forall₂ weak u' v') :
    strong (Grid.dot u u') (Grid.dot v v') := by
  have hsums : ∀ {z w}, strong z w → strong ((List.zipWith (· * ·) u u').foldl (· + ·) z)
      ((List.zipWith (· * ·) v v').foldl (· + ·) w) := by
    induction hu generalizing u' v' with
    | nil => exact fun hzw => hzw
    | cons hxy _ ih =>
        intro z w hzw
        cases hu' with
        | nil => exact hzw
        | cons hxy' hrest => exact ih hrest (h.step hzw hxy hxy')
  exact hsums h.zero

/-- **The cells of products are related.** -/
theorem mul (h : InStep weak strong) (hab : Related weak a b) (hab' : Related weak a' b') :
    Related strong (a.mul a') (b.mul b') := by
  have hcolumns := hab'.transpose
  refine List.forall₂_map_left_iff.2 (List.forall₂_map_right_iff.2 (List.Forall₂.imp ?_ hab))
  intro row row' hrow
  refine List.forall₂_map_left_iff.2 (List.forall₂_map_right_iff.2 (List.Forall₂.imp ?_ hcolumns))
  intro column column' hcolumn
  exact h.dot hrow hcolumn

/-- What repeated squaring returns is a product, unless the first factor is the only one. -/
theorem powBits (h : InStep weak strong) {result : Option (Grid α)} {result' : Option (Grid β)}
    {square : Grid α} {square' : Grid β} {n : Nat}
    (hresult : Option.Rel (Related weak) result result') (hsquare : Related weak square square')
    (hdone : n = 0 → ∃ r r', result = some r ∧ result' = some r' ∧ Related strong r r')
    (hlast : n = 1 → result = none → Related strong square square') :
    ∃ r r', Grid.powBits result square n = some r ∧ Grid.powBits result' square' n = some r' ∧
      Related strong r r' := by
  induction n using Nat.strongRecOn generalizing result result' square square' with
  | ind n ih =>
      rcases Nat.eq_zero_or_pos n with rfl | hpos
      · rw [Grid.powBits_zero, Grid.powBits_zero]
        exact hdone rfl
      have hsquares := h.mul hsquare hsquare
      have hfactor : Related weak (square.mul square) (square'.mul square') :=
        hsquares.imp fun _ _ => h.weaken
      rcases Nat.mod_two_eq_zero_or_one n with heven | hodd
      · rw [Grid.powBits_even hpos heven, Grid.powBits_even hpos heven]
        exact ih (n / 2) (by omega) hresult hfactor (by omega) (fun _ _ => hsquares)
      · rw [Grid.powBits_odd hodd, Grid.powBits_odd hodd]
        cases hresult with
        | none =>
            -- the square becomes the result as it is; if it is the last one, it is a product
            exact ih (n / 2) (by omega) (.some hsquare) hfactor
              (fun _ => ⟨_, _, rfl, rfl, hlast (by omega) rfl⟩) (fun _ _ => hsquares)
        | some hr =>
            have hproduct := h.mul hr hsquare
            exact ih (n / 2) (by omega) (.some (hproduct.imp fun _ _ => h.weaken)) hfactor
              (fun _ => ⟨_, _, rfl, rfl, hproduct⟩) (fun _ _ => hsquares)

/-- **The cells of powers are related**, also where the cells of the grid itself are only weakly
so. -/
theorem pow (h : InStep weak strong) (hab : Related weak a b) {n : Nat} (hn : 2 ≤ n) :
    Related strong (a.pow n) (b.pow n) := by
  have hsquare := h.mul hab hab
  unfold Grid.pow
  split
  · exact hsquare
  · exact h.mul (hsquare.imp fun _ _ => h.weaken) hab
  · obtain ⟨r, r', hr, hr', hrelated⟩ := h.powBits (n := n) .none hab (by omega)
      (by omega)
    rw [hr, hr']
    exact hrelated

/-- Where there is no product, the cells are related as they were. -/
theorem pow_weak (h : InStep weak strong) (hab : Related weak a b) {n : Nat} (hn : 1 ≤ n) :
    Related weak (a.pow n) (b.pow n) := by
  rcases Nat.eq_or_lt_of_le hn with rfl | hn
  · rw [Grid.pow_of_one, Grid.pow_of_one]
    exact hab
  · exact (h.pow hab hn).imp fun _ _ => h.weaken

/-- **The cells of chains are related.** -/
theorem chain (h : InStep weak strong) (hab : Related weak a b) (n : Nat) :
    Related strong (a.chain (n + 1)) (b.chain (n + 1)) := by
  induction n with
  | zero => exact h.mul hab hab
  | succ n ih => exact h.mul (ih.imp fun _ _ => h.weaken) hab

theorem chain_weak (h : InStep weak strong) (hab : Related weak a b) (n : Nat) :
    Related weak (a.chain n) (b.chain n) := by
  cases n with
  | zero => exact hab
  | succ n => exact (h.chain hab n).imp fun _ _ => h.weaken

end InStep

/-! ## Maps -/

/-- The map keeps zero, sums and products. -/
structure Keeps (f : α → β) : Prop where
  zero : f 0 = 0
  add : ∀ x y, f (x + y) = f x + f y
  mul : ∀ x y, f (x * y) = f x * f y

namespace Keeps

variable {f : α → β} {a a' : Grid α}

theorem inStep (h : Keeps f) : InStep (fun x y => f x = y) (fun x y => f x = y) where
  zero := h.zero
  weaken hxy := hxy
  step := by
    rintro x _ u _ z _ rfl rfl rfl
    rw [h.add, h.mul]

theorem map_mul (h : Keeps f) (a a' : Grid α) : (a.mul a').map f = (a.map f).mul (a'.map f) :=
  (h.inStep.mul (.map_right f (fun _ => rfl) a) (.map_right f (fun _ => rfl) a')).eq_map

theorem map_pow (h : Keeps f) (a : Grid α) {n : Nat} (hn : 1 ≤ n) :
    (a.pow n).map f = (a.map f).pow n :=
  (h.inStep.pow_weak (.map_right f (fun _ => rfl) a) hn).eq_map

theorem map_chain (h : Keeps f) (a : Grid α) (n : Nat) : (a.chain n).map f = (a.map f).chain n :=
  (h.inStep.chain_weak (.map_right f (fun _ => rfl) a) n).eq_map

end Keeps
end LinearCalc
