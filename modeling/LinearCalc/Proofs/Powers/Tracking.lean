import LinearCalc.Proofs.Floats.Exact
import LinearCalc.Proofs.NotANumber
import LinearCalc.Proofs.Powers.Lockstep
import LinearCalc.Proofs.Values.Computed

set_option autoImplicit false

/-! # Calculations without rounding

A calculation is exact when every number that comes up on the way can be stored. Tracked numbers
remember this: next to its value, each says whether it was found exactly (`Tracked`). Wherever a
tracked calculation was exact, the floating-point numbers are the values (`inStep_float`), and the
values obey the laws of a ring (`keeps_value`); so the same matrix is found along every way that
is exact (`eq_of_exact`). For integers it is enough that none becomes too long on the way
(`Short.allExact_of_allShort`).
-/

namespace LinearCalc

/-- A rational number, and whether it and all numbers on the way to it can be stored. -/
structure Tracked where
  value : ℚ
  exact : Prop

namespace Tracked

instance : Zero Tracked := ⟨⟨0, True⟩⟩

instance : Add Tracked where
  add p q := ⟨p.value + q.value, p.exact ∧ q.exact ∧ Representable (p.value + q.value)⟩

instance : Mul Tracked where
  mul p q := ⟨p.value * q.value, p.exact ∧ q.exact ∧ Representable (p.value * q.value)⟩

/-- A floating-point number to start from, which is exact if it is finite. -/
def of (x : Float) : Tracked := ⟨(exactValue? x).getD 0, (exactValue? x).isSome = true⟩

def AllExact (p : Grid Tracked) : Prop := ∀ row ∈ p, ∀ c ∈ row, c.exact

/-! ## Values -/

theorem keeps_value : Keeps value := ⟨rfl, fun _ _ => rfl, fun _ _ => rfl⟩

/-- The number is the value, if that was found exactly. -/
def Found (x : Float) (p : Tracked) : Prop := p.exact → exactValue? x = some p.value

/-- The same, and the number is not negative zero. -/
def FoundSum (x : Float) (p : Tracked) : Prop := p.exact → IsExactly x p.value

theorem found_of (x : Float) : Found x (of x) := by
  intro h
  obtain ⟨q, hq⟩ := Option.isSome_iff_exists.1 h
  rw [of, hq]
  rfl

/-- **Floating-point numbers keep in step with tracked ones.** -/
theorem inStep_float : InStep Found FoundSum where
  zero _ := isExactly_zero
  weaken h hexact := (h hexact).value_eq
  step := by
    rintro x p y q z r hz hx hy ⟨hr, ⟨hp, hq, hproduct⟩, hsum⟩
    exact (hz hr).add (exactValue?_mul (hx hp) (hy hq) hproduct) hsum

/-! ## Exact calculations -/

variable {p p' : Grid Tracked} {cells cells' : Grid Float} {m k n : Nat}

/-- What was found exactly has the values themselves in its cells. -/
theorem related_values {r : Float → ℚ → Prop}
    (h : Related (fun x c => c.exact → r x c.value) cells p) (hexact : AllExact p) :
    Related r cells (p.map value) := by
  refine List.forall₂_map_right_iff.2 (List.Forall₂.imp (fun _ _ hrow => ?_) (h.and_right hexact))
  exact List.forall₂_map_right_iff.2 (List.Forall₂.imp (fun _ _ hc => hc.1 hc.2) hrow)

/-- What was found exactly on two ways is the same, if the values are. -/
theorem eq_of_exact (h : Related FoundSum cells p) (h' : Related FoundSum cells' p')
    (hexact : AllExact p) (hexact' : AllExact p') (hvalues : p.map value = p'.map value) :
    cells = cells' := by
  have hcells := related_values h hexact
  rw [hvalues] at hcells
  exact hcells.left_unique (fun _ _ _ hx hy => hx.unique hy) (related_values h' hexact')

theorem isNaN_of_exactValue? {x : Float} {q : ℚ} (h : exactValue? x = some q) :
    x.isNaN = false := by
  by_contra hnan
  rw [Bool.not_eq_false, isNaN_iff_unpack] at hnan
  rw [exactValue?, Binary64.ofFloat_eq, hnan] at h
  cases h

/-- What was found exactly is a number. -/
theorem numberCells_of_exact (h : Related Found cells p) (hexact : AllExact p) :
    NumberCells cells :=
  (related_values (r := fun x q => exactValue? x = some q) h hexact).forall_left
    (fun _ _ => isNaN_of_exactValue?)

/-! ## Factors -/

/-- An exact dot product has exact factors. -/
theorem exact_of_dot {u v : List Tracked} (hlength : u.length = v.length)
    (h : (Grid.dot u v).exact) : (∀ c ∈ u, c.exact) ∧ ∀ c ∈ v, c.exact := by
  -- a sum is exact only if what it began with is, so the exactness goes back to every product
  have hsums : ∀ z : Tracked, ((List.zipWith (· * ·) u v).foldl (· + ·) z).exact →
      z.exact ∧ (∀ c ∈ u, c.exact) ∧ ∀ c ∈ v, c.exact := by
    clear h
    induction u generalizing v with
    | nil =>
        cases v with
        | nil => exact fun z hz => ⟨hz, by simp, by simp⟩
        | cons d v => cases hlength
    | cons c u ih =>
        cases v with
        | nil => cases hlength
        | cons d v =>
            intro z hz
            obtain ⟨⟨hz, ⟨hc, hd, -⟩, -⟩, hu, hv⟩ := ih (Nat.succ.inj hlength) _ hz
            exact ⟨hz, List.forall_mem_cons.2 ⟨hc, hu⟩, List.forall_mem_cons.2 ⟨hd, hv⟩⟩
  exact (hsums 0 h).2

/-- **An exact product has exact factors.** -/
theorem allExact_factors (hp : Rect m k p) (hp' : Rect k n p') (hm : 0 < m) (hk : 0 < k)
    (hn : 0 < n) (h : AllExact (p.mul p')) : AllExact p ∧ AllExact p' := by
  -- every row meets the first column, and every column the first row
  have hdots : ∀ i < m, ∀ j < n,
      (∀ c ∈ rowAt p i, c.exact) ∧ ∀ c ∈ columnAt p' j, c.exact := by
    intro i hi j hj
    have hcell := elementAt_mul_eq hp hp' hk hi hj
    obtain ⟨row, hrow, hmem⟩ := mem_of_elementAt hcell
    refine exact_of_dot ?_ (h row hrow _ hmem)
    rw [length_rowAt hp hi, ← rowAt_transpose hp' hk hj, length_rowAt (hp'.transpose hk) hj]
  refine ⟨?_, ?_⟩
  · intro row hrow
    obtain ⟨i, hi, rfl⟩ := List.getElem_of_mem hrow
    have hrowAt : rowAt p i = p[i] := by
      rw [rowAt, List.getElem?_eq_getElem hi, Option.getD_some]
    rw [← hrowAt]
    exact (hdots i (hp.height ▸ hi) 0 hn).1
  · intro row hrow c hc
    obtain ⟨l, hl, rfl⟩ := List.getElem_of_mem hrow
    obtain ⟨j, hj, rfl⟩ := List.getElem_of_mem hc
    have hcell := elementAt_getElem hl hj
    obtain ⟨-, hj'⟩ := hp'.lt_of_elementAt hcell
    rw [← getElem?_columnAt hp' hk hj' l] at hcell
    exact (hdots 0 hm j hj').2 _ (List.mem_of_getElem? hcell)

/-- The parts of an exact chain are exact. -/
theorem allExact_chain_of_le (hp : Rect k k p) (hk : 0 < k) {i : Nat} (hi : i ≤ n)
    (h : AllExact (p.chain n)) : AllExact (p.chain i) := by
  induction n with
  | zero => rwa [Nat.le_zero.1 hi]
  | succ n ih =>
      rcases Nat.le_succ_iff.1 hi with hi | rfl
      · exact ih hi (allExact_factors (hp.chain hk n) hp hk hk hk h).1
      · exact h

/-! ## Powers -/

theorem related_of (cells : Grid Float) : Related Found cells (cells.map of) :=
  .map_right of found_of cells

/-- **Where they are exact, the power and the product of equal factors are the same.** -/
theorem pow_eq_chain (hcells : Rect k k cells) (hk : 0 < k) (hn : 2 ≤ n)
    (hpow : AllExact ((cells.map of).pow n)) (hchain : AllExact ((cells.map of).chain (n - 1))) :
    cells.pow n = cells.chain (n - 1) := by
  obtain ⟨i, rfl⟩ : ∃ i, n = i + 2 := ⟨n - 2, by omega⟩
  refine eq_of_exact (inStep_float.pow (related_of cells) hn)
    (inStep_float.chain (related_of cells) i) hpow hchain ?_
  have hvalues : Rect k k (Grid.map value (Grid.map of cells)) := (hcells.map of).map value
  rw [keeps_value.map_pow _ (by omega), keeps_value.map_chain, Grid.pow_eq_chain hvalues hk]

/-- **Where they are exact, the product of two powers and the power with the sum of the exponents
are the same.** -/
theorem pow_mul_pow (hcells : Rect k k cells) (hk : 0 < k) (hm : 1 ≤ m) (hn : 1 ≤ n)
    (hproduct : AllExact (((cells.map of).pow m).mul ((cells.map of).pow n)))
    (hpow : AllExact ((cells.map of).pow (m + n))) :
    (cells.pow m).mul (cells.pow n) = cells.pow (m + n) := by
  refine eq_of_exact
    (inStep_float.mul (inStep_float.pow_weak (related_of cells) hm)
      (inStep_float.pow_weak (related_of cells) hn))
    (inStep_float.pow (related_of cells) (by omega)) hproduct hpow ?_
  have hvalues : Rect k k (Grid.map value (Grid.map of cells)) := (hcells.map of).map value
  rw [keeps_value.map_mul, keeps_value.map_pow _ hm, keeps_value.map_pow _ hn,
    keeps_value.map_pow _ (by omega), Grid.pow_mul_pow hvalues hk hm hn]

end Tracked

/-! ## Short integers -/

/-- An integer of at most fifty-three bits. Longer ones are not kept. -/
structure Short where
  value? : Option ℤ

namespace Short

/-- The integer, if it is short enough. -/
def limit (z : ℤ) : Short := ⟨if z.natAbs < twoPow 53 then some z else none⟩

/-- The result of an operation on integers, if it and its operands are short enough. -/
def lift (f : ℤ → ℤ → ℤ) (a b : Short) : Short :=
  match a.value?, b.value? with
  | some y, some z => limit (f y z)
  | _, _ => ⟨none⟩

instance : Zero Short := ⟨⟨some 0⟩⟩

instance : Add Short := ⟨lift (· + ·)⟩

instance : Mul Short := ⟨lift (· * ·)⟩

def allShort (a : Grid Short) : Bool := a.all (fun row => row.all (fun c => c.value?.isSome))

/-- The tracked number is the integer and was found exactly, if there is an integer. -/
def Kept (p : Tracked) (a : Short) : Prop := ∀ z, a.value? = some z → p.exact ∧ p.value = z

theorem kept_of {x : Float} {y : ℤ} (h : exactValue? x = some (y : ℚ)) :
    Kept (.of x) ⟨some y⟩ := by
  rintro z ⟨rfl⟩
  rw [Tracked.of, h]
  exact ⟨rfl, rfl⟩

theorem of_limit {y z : ℤ} (h : (limit y).value? = some z) : Representable y ∧ y = z := by
  unfold limit at h
  split at h
  · rename_i hshort
    exact ⟨representable_int hshort, Option.some.inj h⟩
  · cases h

theorem of_lift {f : ℤ → ℤ → ℤ} {a b : Short} {z : ℤ} (h : (lift f a b).value? = some z) :
    ∃ x y, a.value? = some x ∧ b.value? = some y ∧ Representable (f x y : ℤ) ∧ f x y = z := by
  unfold lift at h
  split at h
  · rename_i x y hx hy
    exact ⟨x, y, hx, hy, of_limit h⟩
  · cases h

/-- An operation on integers and the same operation on the rational numbers. -/
theorem kept_lift {f : ℤ → ℤ → ℤ} {g : ℚ → ℚ → ℚ} (hfg : ∀ x y : ℤ, g x y = f x y)
    {p q : Tracked} {a b : Short} (hp : Kept p a) (hq : Kept q b) :
    Kept ⟨g p.value q.value, p.exact ∧ q.exact ∧ Representable (g p.value q.value)⟩
      (lift f a b) := by
  intro z hz
  obtain ⟨x, y, hx, hy, hstored, rfl⟩ := of_lift hz
  obtain ⟨hexact, hx⟩ := hp x hx
  obtain ⟨hexact', hy⟩ := hq y hy
  have hvalue : g p.value q.value = f x y := by rw [hx, hy, hfg]
  exact ⟨⟨hexact, hexact', hvalue ▸ hstored⟩, hvalue⟩

/-- **Tracked numbers keep in step with short integers.** -/
theorem inStep_kept : InStep Kept Kept where
  zero := by
    rintro z ⟨rfl⟩
    exact ⟨trivial, Int.cast_zero.symm⟩
  weaken h := h
  step hz hx hy := kept_lift (fun x y => (Int.cast_add x y).symm) hz
    (kept_lift (fun x y => (Int.cast_mul x y).symm) hx hy)

/-- **Where no integer becomes too long, everything is exact.** -/
theorem allExact_of_allShort {p : Grid Tracked} {a : Grid Short} (h : Related Kept p a)
    (hshort : allShort a = true) : Tracked.AllExact p := by
  have hcells : ∀ row ∈ a, ∀ c ∈ row, c.value?.isSome = true := by
    simpa only [allShort, List.all_eq_true] using hshort
  refine (h.and_right hcells).forall_left ?_
  rintro c b ⟨hkept, hsome⟩
  obtain ⟨z, hz⟩ := Option.isSome_iff_exists.1 hsome
  exact (hkept z hz).1

end Short
end LinearCalc
