import LinearCalc.Proofs.Transposes.Values

set_option autoImplicit false

/-! # Operations on all cells at once

What an operation makes of the numbers of whole matrices is what it makes of their cells one by
one (`numbers?_elementwise`, `numbers?_scaled`, `numbers?_divided`). A cell that has no number
spoils both, and so does a result that is not a number. All that is needed of the arithmetic is
that what is not a number stays so, and that factors may be exchanged.
-/

namespace LinearCalc

/-! ## Lists of options -/

section Options

variable {β γ δ ε : Type}

/-- Whether all elements become something may be asked before or after they are changed. -/
theorem mapM_map_eq_bind {φ : β → Option γ} {f : γ → δ} {κ : δ → Option ε} {g : β → β}
    {φ' : β → Option ε} (h : ∀ x, φ' (g x) = (φ x).bind (fun u => κ (f u))) (l : List β) :
    (l.map g).mapM φ' = (l.mapM φ).bind (fun us => (us.map f).mapM κ) := by
  induction l with
  | nil => rfl
  | cons x l ih =>
      rw [List.map_cons, List.mapM_cons, List.mapM_cons, h x, ih]
      cases φ x with
      | none => rfl
      | some u =>
          cases l.mapM φ with
          | none => cases hu : κ (f u) <;> simp [hu]
          | some us => simp [List.mapM_cons]

/-- Whether all elements become something may be asked before or after two lists are combined. -/
theorem mapM_zipWith_eq_bind {φ : β → Option γ} {f : γ → γ → δ} {κ : δ → Option ε}
    {g : β → β → β} {φ' : β → Option ε} {a b : List β} (hlength : a.length = b.length)
    (h : ∀ x ∈ a, ∀ y ∈ b, φ' (g x y) = (φ x).bind (fun u => (φ y).bind (fun v => κ (f u v)))) :
    (List.zipWith g a b).mapM φ' = (a.mapM φ).bind (fun us =>
      (b.mapM φ).bind (fun vs => (List.zipWith f us vs).mapM κ)) := by
  induction a generalizing b with
  | nil =>
      obtain rfl := List.eq_nil_of_length_eq_zero hlength.symm
      rfl
  | cons x a ih =>
      obtain ⟨y, b, rfl⟩ := List.exists_cons_of_length_eq_add_one hlength.symm
      have hfirst := h x (by simp) y (by simp)
      have hrest := ih (Nat.succ.inj hlength)
        (fun x' hx y' hy => h x' (by simp [hx]) y' (by simp [hy]))
      rw [List.zipWith_cons_cons, List.mapM_cons, List.mapM_cons, List.mapM_cons, hfirst, hrest]
      -- both sides ask the same questions in another order, so a failure of either must be seen to
      -- make both fail
      cases φ x with
      | none => rfl
      | some u =>
          cases φ y with
          | none => cases a.mapM φ <;> rfl
          | some v =>
              cases a.mapM φ with
              | none => cases hu : κ (f u v) <;> simp [hu]
              | some us =>
                  cases b.mapM φ with
                  | none => cases hu : κ (f u v) <;> simp [hu]
                  | some vs => simp [List.mapM_cons]

end Options

/-! ## Numbers of matrices -/

variable {α : Type} [Scalar α]

namespace Value

/-- A matrix with a cell that is no number has no numbers. -/
theorem numbers?_eq_none_of_mem {rows : List (List (Value α))} {row : List (Value α)} {x : Value α}
    (hrow : row ∈ rows) (hx : x ∈ row) (h : x.number? = none) : (matrix rows).numbers? = none := by
  cases hnumbers : (matrix rows).numbers? with
  | none => rfl
  | some cells =>
      have hcells := (mapM_rows_eq_some_iff number? rows cells).1 hnumbers
      have hmem : none ∈ row.map number? := h ▸ List.mem_map_of_mem hx
      have hmem' : row.map number? ∈ List.map (List.map some) cells :=
        hcells ▸ List.mem_map_of_mem hrow
      obtain ⟨us, -, hus⟩ := List.mem_map.1 hmem'
      rw [← hus] at hmem
      simp at hmem

/-- The numbers of a computed matrix, when one cell that is not a number spoils it. -/
theorem numbers?_ofGrid (cells : Grid α) (left : Value α) :
    ((Computed.ofGrid cells).value left).numbers? = (matrix (cells.map scalar)).numbers? := by
  unfold Computed.ofGrid
  by_cases hany : (cells.any (fun row => row.any Scalar.isNaN)) = true
  · rw [if_pos hany]
    obtain ⟨row, hrow, hnan⟩ := List.any_eq_true.1 hany
    obtain ⟨v, hv, hv'⟩ := List.any_eq_true.1 hnan
    refine (numbers?_eq_none_of_mem (List.mem_map_of_mem hrow) (List.mem_map_of_mem hv) ?_).symm
    exact if_pos hv'
  · rw [if_neg hany]
    rfl

/-- **Cells that are changed one by one have the numbers that are changed at once.** -/
theorem numbers?_map_cells {g : Value α → Value α} {f : α → α}
    (h : ∀ x, (g x).number? = x.number?.bind (fun u => (scalar (f u)).number?))
    (rows : List (List (Value α))) (left : Value α) :
    (matrix (Grid.map g rows)).numbers?
      = (matrix rows).numbers?.bind (fun cells =>
          ((Computed.ofGrid (cells.map f)).value left).numbers?) := by
  simp only [numbers?_ofGrid, Grid.map_map]
  exact mapM_map_eq_bind (fun row => mapM_map_eq_bind h row) rows

/-- **Cells that are combined one by one have the numbers that are combined at once.** -/
theorem numbers?_zipWith_cells {g : Value α → Value α → Value α} {f : α → α → α}
    (h : ∀ x y, (g x y).number?
      = x.number?.bind (fun u => y.number?.bind (fun v => (scalar (f u v)).number?)))
    {m n : Nat} {a b : List (List (Value α))} (ha : Rect m n a) (hb : Rect m n b)
    (left : Value α) :
    (matrix (Grid.zipWith g a b)).numbers?
      = (matrix a).numbers?.bind (fun x => (matrix b).numbers?.bind (fun y =>
          ((Computed.ofGrid (x.zipWith f y)).value left).numbers?)) := by
  have hcells : ∀ x y : Grid α, Grid.map scalar (x.zipWith f y)
      = List.zipWith (List.zipWith (fun u v => scalar (f u v))) x y := by
    intro x y
    simp [Grid.map, Grid.zipWith, List.map_zipWith]
  simp only [numbers?_ofGrid, hcells]
  refine mapM_zipWith_eq_bind (ha.height.trans hb.height.symm) (fun row hrow row' hrow' => ?_)
  have hlength : row.length = row'.length := (ha.width row hrow).trans (hb.width row' hrow').symm
  exact mapM_zipWith_eq_bind hlength (fun x _ y _ => h x y)

/-! ## Cells -/

/-- Where nothing can be made of what is not a number, nothing needs to be asked before. -/
theorem number?_bind_of_strict {u : α} {rest : α → Option α}
    (h : Scalar.isNaN u = true → rest u = none) : (scalar u).number?.bind rest = rest u := by
  rw [number?]
  by_cases hu : Scalar.isNaN u = true
  · rw [if_pos hu, h hu, Option.bind_none]
  · rw [if_neg hu, Option.bind_some]

section Operations

variable (hnan : Scalar.isNaN (Scalar.nan : α) = true)
include hnan

theorem number?_invalid : (invalid : Value α).number? = none := if_pos hnan

/-- A computed matrix is no number, and neither is a spoilt one. -/
theorem number?_ofGrid (cells : Grid α) (left : Value α) :
    ((Computed.ofGrid cells).value left).number? = none := by
  unfold Computed.ofGrid
  split
  · exact number?_invalid hnan
  · rfl

/-- A sum is no number unless both operands are. -/
theorem number?_elementwise_matrix {f : α → α → α} {x y : Value α}
    (h : ∀ u v, x = scalar u → y ≠ scalar v) :
    ((x.elementwise f y).value x).number? = none := by
  unfold elementwise
  split
  · exact absurd rfl (h _ _ rfl)
  · split
    · split
      · exact number?_ofGrid hnan _ x
      · exact number?_invalid hnan
    · exact number?_invalid hnan

/-- **One cell of a sum**, and so for every operation that goes cell by cell. -/
theorem number?_elementwise {f : α → α → α}
    (hf : ∀ {u v : α}, Scalar.isNaN u = true ∨ Scalar.isNaN v = true → Scalar.isNaN (f u v) = true)
    (x y : Value α) :
    ((x.elementwise f y).value x).number?
      = x.number?.bind (fun u => y.number?.bind (fun v => (scalar (f u v)).number?)) := by
  cases x with
  | matrix rows =>
      refine number?_elementwise_matrix hnan ?_
      intro u v hu
      cases hu
  | scalar u =>
      cases y with
      | matrix rows' =>
          have hnone : (scalar u : Value α).number?.bind (fun _ => (none : Option α)) = none := by
            cases (scalar u : Value α).number? <;> rfl
          refine (number?_elementwise_matrix hnan ?_).trans hnone.symm
          intro u v _ hv
          cases hv
      | scalar v =>
          -- the operation passes on what is not a number, so asking an operand first loses nothing
          have hv : (scalar v).number?.bind (fun v => (scalar (f u v)).number?)
              = (scalar (f u v)).number? :=
            number?_bind_of_strict (fun hv => if_pos (hf (.inr hv)))
          have hu : Scalar.isNaN u = true →
              (scalar v).number?.bind (fun v => (scalar (f u v)).number?) = none := by
            intro hu
            rw [hv]
            exact if_pos (hf (.inl hu))
          rw [number?_bind_of_strict hu, hv]
          rfl

/-- One cell of a multiple. -/
theorem number?_scaled (hmul : ∀ {u v : α}, Scalar.isNaN u = true ∨ Scalar.isNaN v = true →
      Scalar.isNaN (u * v) = true) (hcomm : ∀ u v : α, u * v = v * u) (factor : α) (x : Value α) :
    (((scalar factor).multiply x).value (scalar factor)).number?
      = x.number?.bind (fun u => (scalar (u * factor)).number?) := by
  cases x with
  | scalar u =>
      rw [number?_bind_of_strict (fun hu => if_pos (hmul (.inl hu))), hcomm u factor]
      rfl
  | matrix rows =>
      rw [multiply_scalar_matrix]
      split
      · exact number?_ofGrid hnan _ _
      · exact number?_invalid hnan

/-- One cell of a quotient. -/
theorem number?_divided (hdiv : ∀ {u v : α}, Scalar.isNaN u = true ∨ Scalar.isNaN v = true →
      Scalar.isNaN (u / v) = true) {divisor : α} (hzero : Scalar.isZero divisor = false)
    (x : Value α) :
    ((x.divide (scalar divisor)).value x).number?
      = x.number?.bind (fun u => (scalar (u / divisor)).number?) := by
  cases x with
  | scalar u =>
      rw [number?_bind_of_strict (fun hu => if_pos (hdiv (.inl hu)))]
      show ((if Scalar.isZero divisor then Computed.invalid else .scalar (u / divisor)).value
        (scalar u)).number? = _
      rw [hzero]
      rfl
  | matrix rows =>
      rw [divide_matrix, hzero, if_neg Bool.false_ne_true]
      split
      · exact number?_ofGrid hnan _ _
      · exact number?_invalid hnan

/-! ## Matrices -/

/-- **Sums of matrices are matrices of sums**, and so for every operation that goes cell by
cell. -/
theorem numbers?_elementwise {f : α → α → α}
    (hf : ∀ {u v : α}, Scalar.isNaN u = true ∨ Scalar.isNaN v = true → Scalar.isNaN (f u v) = true)
    {m n : Nat} (hm : 0 < m) {a b : List (List (Value α))} (ha : Rect m n a) (hb : Rect m n b) :
    (((matrix a).elementwise f (matrix b)).value (matrix a)).numbers?
      = (matrix (Grid.zipWith (fun x y => (x.elementwise f y).value x) a b)).numbers? := by
  rw [numbers?_zipWith_cells (number?_elementwise hnan hf) ha hb (matrix a), elementwise_matrix]
  unfold bothNumbers?
  cases hx : (matrix a).numbers? with
  | none => rfl
  | some x =>
      cases hy : (matrix b).numbers? with
      | none => rfl
      | some y =>
          have hshape : shape x = shape y := by
            rw [(ha.mapM hx).shape_eq hm, (hb.mapM hy).shape_eq hm]
          simp only [Option.bind_eq_bind, Option.bind_some, hshape, if_true]

/-- **Multiples of matrices are matrices of multiples.** -/
theorem numbers?_scaled (hmul : ∀ {u v : α}, Scalar.isNaN u = true ∨ Scalar.isNaN v = true →
      Scalar.isNaN (u * v) = true) (hcomm : ∀ u v : α, u * v = v * u) (factor : α)
    (a : List (List (Value α))) (left : Value α) :
    (((scalar factor).multiply (matrix a)).value left).numbers?
      = (matrix (Grid.map (fun x => ((scalar factor).multiply x).value (scalar factor)) a)).numbers?
      := by
  rw [numbers?_map_cells (number?_scaled hnan hmul hcomm factor) a left, multiply_scalar_matrix]
  cases (matrix a).numbers? <;> rfl

/-- **Quotients of matrices are matrices of quotients.** -/
theorem numbers?_divided (hdiv : ∀ {u v : α}, Scalar.isNaN u = true ∨ Scalar.isNaN v = true →
      Scalar.isNaN (u / v) = true) (divisor : α) {a : List (List (Value α))}
    (ha : (matrix a).Rectangular) (left : Value α) :
    (((matrix a).divide (scalar divisor)).value left).numbers?
      = (matrix (Grid.map (fun x => (x.divide (scalar divisor)).value x) a)).numbers? := by
  cases hzero : Scalar.isZero divisor with
  | false =>
      rw [numbers?_map_cells (number?_divided hnan hdiv hzero) a left, divide_matrix, hzero,
        if_neg Bool.false_ne_true]
      cases (matrix a).numbers? <;> rfl
  | true =>
      -- there is a cell, and no number is divided by zero
      obtain ⟨m, n, hm, hn, hrect⟩ := (rectangular_iff a).1 ha
      obtain ⟨row, hrow⟩ := List.exists_mem_of_length_pos (hrect.height.symm ▸ hm)
      obtain ⟨x, hx⟩ := List.exists_mem_of_length_pos ((hrect.width row hrow).symm ▸ hn)
      have hinvalid : x.divide (scalar divisor) = .invalid := if_pos hzero
      have hcell : ((x.divide (scalar divisor)).value x).number? = none := by
        rw [hinvalid]
        exact number?_invalid hnan
      rw [divide_matrix, hzero, if_pos rfl]
      exact (numbers?_eq_none_of_mem (List.mem_map_of_mem hrow) (List.mem_map_of_mem hx)
        hcell).symm

end Operations

end Value
end LinearCalc
