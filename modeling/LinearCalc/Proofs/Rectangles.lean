import LinearCalc.Grid

set_option autoImplicit false

/-! # Rectangles

`Rect m n rows` says that there are `m` rows of `n` elements each. What is done to grids keeps to
rectangles: elements are changed where they are, a rectangle is turned by the transpose
(`Rect.transpose`), and products and powers are rectangles again (`Rect.mul`, `Rect.pow`).
-/

namespace LinearCalc

variable {β γ : Type}

/-- There are `m` rows, of `n` elements each. -/
structure Rect (m n : Nat) (rows : List (List β)) : Prop where
  height : rows.length = m
  width : ∀ row ∈ rows, row.length = n

theorem Rect.cons {m n : Nat} {row : List β} {rows : List (List β)} (hrow : row.length = n)
    (h : Rect m n rows) : Rect (m + 1) n (row :: rows) := by
  refine ⟨?_, ?_⟩
  · rw [List.length_cons, h.height]
  · intro r hr
    rcases List.mem_cons.1 hr with rfl | hr
    · exact hrow
    · exact h.width r hr

theorem rectangular_iff (rows : List (List β)) :
    rectangular rows = true ↔ ∃ m n, 0 < m ∧ 0 < n ∧ Rect m n rows := by
  cases rows with
  | nil =>
      constructor
      · intro h
        cases h
      · rintro ⟨m, n, hm, hn, h⟩
        have hheight : 0 = m := h.height
        omega
  | cons row rows =>
      constructor
      · intro h
        obtain ⟨hne, hwidth⟩ := rectangular_cons.1 h
        have hpos : 0 < row.length := List.length_pos_iff.2 hne
        exact ⟨rows.length + 1, row.length, Nat.succ_pos _, hpos, Rect.cons rfl ⟨rfl, hwidth⟩⟩
      · rintro ⟨m, n, hm, hn, h⟩
        have hrow : row.length = n := h.width row (by simp)
        have hne : row ≠ [] := by
          intro hnil
          rw [hnil, List.length_nil] at hrow
          omega
        refine rectangular_cons.2 ⟨hne, ?_⟩
        intro r hr
        rw [hrow]
        exact h.width r (by simp [hr])

theorem Rect.shape_eq {m n : Nat} {rows : List (List β)} (h : Rect m n rows) (hm : 0 < m) :
    shape rows = (m, n) := by
  cases rows with
  | nil =>
      have hheight : 0 = m := h.height
      omega
  | cons row rows =>
      have hrow : row.length = n := h.width row (by simp)
      rw [shape_cons, hrow, ← h.height, List.length_cons]

/-! ## Changing elements -/

theorem Rect.map {m n : Nat} {rows : List (List β)} (f : β → γ) (h : Rect m n rows) :
    Rect m n (rows.map (List.map f)) := by
  refine ⟨?_, ?_⟩
  · rw [List.length_map, h.height]
  · intro row hrow
    obtain ⟨r, hr, rfl⟩ := List.mem_map.1 hrow
    rw [List.length_map, h.width r hr]

theorem Rect.of_map {m n : Nat} {rows : List (List β)} {f : β → γ}
    (h : Rect m n (rows.map (List.map f))) : Rect m n rows := by
  refine ⟨?_, fun row hrow => ?_⟩
  · rw [← h.height, List.length_map]
  · rw [← h.width _ (List.mem_map_of_mem hrow), List.length_map]

/-- The shape of rows does not depend on their elements. -/
@[simp] theorem shape_map (f : β → γ) (rows : List (List β)) :
    shape (rows.map (List.map f)) = shape rows := by
  cases rows with
  | nil => rfl
  | cons row rows => simp

/-- Whether rows are a matrix does not depend on their elements. -/
@[simp] theorem rectangular_map (f : β → γ) (rows : List (List β)) :
    rectangular (rows.map (List.map f)) = rectangular rows := by
  cases rows with
  | nil => rfl
  | cons row rows => rw [Bool.eq_iff_iff]; simp

/-- All elements of a list become something, namely the elements of the result. -/
theorem mapM_eq_some_iff (f : β → Option γ) (l : List β) (r : List γ) :
    l.mapM f = some r ↔ l.map f = r.map some := by
  induction l generalizing r with
  | nil => cases r <;> simp
  | cons b l ih =>
      cases r with
      | nil => cases hb : f b <;> cases hl : l.mapM f <;> simp [hb, hl]
      | cons c r =>
          have hrest := ih r
          rw [List.mapM_cons, List.map_cons, List.map_cons, List.cons.injEq, ← hrest]
          cases hb : f b <;> cases hl : l.mapM f <;> simp

/-- The same for all elements of rows. -/
theorem mapM_rows_eq_some_iff (f : β → Option γ) (rows : List (List β)) (out : List (List γ)) :
    rows.mapM (fun row => row.mapM f) = some out
      ↔ rows.map (List.map f) = out.map (List.map some) := by
  rw [mapM_eq_some_iff]
  induction rows generalizing out with
  | nil => cases out <;> simp
  | cons row rows ih =>
      cases out with
      | nil => simp
      | cons first rest =>
          simp only [List.map_cons, List.cons.injEq, mapM_eq_some_iff, ih rest]

theorem Rect.mapM {m n : Nat} {f : β → Option γ} {rows : List (List β)} {out : List (List γ)}
    (h : Rect m n rows) (hout : rows.mapM (fun row => row.mapM f) = some out) : Rect m n out := by
  have hsome : Rect m n (out.map (List.map some)) := by
    rw [← (mapM_rows_eq_some_iff f rows out).1 hout]
    exact h.map f
  refine ⟨?_, ?_⟩
  · rw [← hsome.height, List.length_map]
  · intro row hrow
    rw [← hsome.width _ (List.mem_map_of_mem hrow), List.length_map]

theorem Rect.zipWith {m n : Nat} {a b : Grid β} (f : β → β → β) (ha : Rect m n a)
    (hb : Rect m n b) : Rect m n (a.zipWith f b) := by
  refine ⟨?_, ?_⟩
  · rw [Grid.zipWith, List.length_zipWith, ha.height, hb.height, Nat.min_self]
  · intro row hrow
    obtain ⟨i, hi, rfl⟩ := List.getElem_of_mem hrow
    simp only [Grid.zipWith, List.getElem_zipWith, List.length_zipWith]
    rw [ha.width _ (List.getElem_mem _), hb.width _ (List.getElem_mem _), Nat.min_self]

/-! ## Elements -/

/-- The element in row `i` and column `j`, if there is one. -/
def elementAt (rows : List (List β)) (i j : Nat) : Option β := rows[i]?.bind (fun row => row[j]?)

theorem elementAt_map (f : β → γ) (rows : List (List β)) (i j : Nat) :
    elementAt (rows.map (List.map f)) i j = (elementAt rows i j).map f := by
  rw [elementAt, elementAt, List.getElem?_map]
  cases rows[i]? with
  | none => rfl
  | some row => exact List.getElem?_map

theorem elementAt_getElem {rows : List (List β)} {i j : Nat} (hi : i < rows.length)
    (hj : j < rows[i].length) : elementAt rows i j = some rows[i][j] := by
  rw [elementAt, List.getElem?_eq_getElem hi, Option.bind_some, List.getElem?_eq_getElem hj]

/-- What is at a place of a matrix is an element of one of its rows. -/
theorem mem_of_elementAt {rows : List (List β)} {i j : Nat} {c : β}
    (h : elementAt rows i j = some c) : ∃ row ∈ rows, c ∈ row := by
  obtain ⟨row, hrow, hc⟩ := Option.bind_eq_some_iff.1 h
  exact ⟨row, List.mem_of_getElem? hrow, List.mem_of_getElem? hc⟩

theorem Rect.lt_of_elementAt {m n : Nat} {rows : List (List β)} (h : Rect m n rows) {i j : Nat}
    {c : β} (hc : elementAt rows i j = some c) : i < m ∧ j < n := by
  obtain ⟨row, hrow, hmem⟩ := Option.bind_eq_some_iff.1 hc
  refine ⟨h.height ▸ (List.getElem?_eq_some_iff.1 hrow).1, ?_⟩
  exact h.width row (List.mem_of_getElem? hrow) ▸ (List.getElem?_eq_some_iff.1 hmem).1

/-- Rectangles of one shape are equal when they have the same elements at the same places. -/
theorem Rect.eq_of_elements {m n : Nat} {a b : List (List β)} (ha : Rect m n a) (hb : Rect m n b)
    (h : ∀ i j c c', elementAt a i j = some c → elementAt b i j = some c' → c = c') : a = b := by
  refine List.ext_getElem (ha.height.trans hb.height.symm) ?_
  intro i hi hi'
  have hwidth := ha.width a[i] (List.getElem_mem hi)
  have hwidth' := hb.width b[i] (List.getElem_mem hi')
  refine List.ext_getElem (hwidth.trans hwidth'.symm) ?_
  intro j hj hj'
  exact h i j _ _ (elementAt_getElem hi hj) (elementAt_getElem hi' hj')

/-! ## Turning -/

/-- Putting a row of `n` elements in front of `n` columns makes each of them longer by one. -/
theorem Rect.zipWith_cons {k n : Nat} {row : List β} {columns : List (List β)}
    (hrow : row.length = n) (h : Rect n k columns) :
    Rect n (k + 1) (List.zipWith List.cons row columns) := by
  refine ⟨?_, ?_⟩
  · rw [List.length_zipWith, hrow, h.height, Nat.min_self]
  · intro column hcolumn
    obtain ⟨i, hi, rfl⟩ := List.getElem_of_mem hcolumn
    rw [List.getElem_zipWith, List.length_cons, h.width _ (List.getElem_mem _)]

theorem Rect.foldr {m n : Nat} {rows : List (List β)} (h : Rect m n rows) :
    Rect n m (rows.foldr (List.zipWith List.cons) (List.replicate n [])) := by
  induction rows generalizing m with
  | nil =>
      have hheight : 0 = m := h.height
      subst hheight
      refine ⟨List.length_replicate, ?_⟩
      intro row hrow
      rw [(List.mem_replicate.1 hrow).2, List.length_nil]
  | cons row rows ih =>
      have hheight : rows.length + 1 = m := h.height
      subst hheight
      have hrest : Rect rows.length n rows := ⟨rfl, fun r hr => h.width r (by simp [hr])⟩
      exact Rect.zipWith_cons (h.width row (by simp)) (ih hrest)

/-- **The transpose of a rectangle is the rectangle turned.** -/
theorem Rect.transpose {m n : Nat} {rows : List (List β)} (h : Rect m n rows) (hm : 0 < m) :
    Rect n m (LinearCalc.transpose rows) := by
  have hfold := h.foldr
  rw [LinearCalc.transpose, h.shape_eq hm]
  exact hfold

/-- Elements that are changed one by one may be changed before or after the turn. -/
theorem transpose_map (f : β → γ) (rows : List (List β)) :
    LinearCalc.transpose (rows.map (List.map f))
      = (LinearCalc.transpose rows).map (List.map f) := by
  rw [LinearCalc.transpose, LinearCalc.transpose, shape_map]
  generalize (shape rows).2 = width
  induction rows with
  | nil => simp
  | cons row rows ih =>
      rw [List.map_cons, List.foldr_cons, List.foldr_cons, ih, List.zipWith_map, List.map_zipWith]
      rfl

/-! ## Products and powers -/

section Products

variable [Add β] [Mul β] [Zero β]

theorem Rect.mul {m k n : Nat} {a b : Grid β} (ha : Rect m k a) (hb : Rect k n b) (hk : 0 < k) :
    Rect m n (a.mul b) := by
  refine ⟨?_, ?_⟩
  · simp only [Grid.mul, List.length_map, ha.height]
  · intro row hrow
    simp only [Grid.mul, List.mem_map] at hrow
    obtain ⟨r, -, rfl⟩ := hrow
    rw [List.length_map, (hb.transpose hk).height]

theorem Rect.powBits {n : Nat} (hn : 0 < n) (result : Option (Grid β)) (square : Grid β) (e : Nat)
    (hresult : ∀ r ∈ result, Rect n n r) (hsquare : Rect n n square) :
    ∀ r ∈ Grid.powBits result square e, Rect n n r := by
  fun_induction Grid.powBits result square e with
  | case1 => exact hresult
  | case2 result square e hne result' ih =>
      refine ih ?_ (hsquare.mul hsquare hn)
      intro r hr
      by_cases hodd : e % 2 = 1
      · simp only [result', dif_pos hodd, Option.mem_def, Option.some.injEq] at hr
        subst hr
        cases result with
        | none => exact hsquare
        | some product => exact (hresult product rfl).mul hsquare hn
      · simp only [result', dif_neg hodd] at hr
        exact hresult r hr

theorem Rect.pow {n : Nat} {a : Grid β} (ha : Rect n n a) (hn : 0 < n) (e : Nat) :
    Rect n n (a.pow e) := by
  unfold Grid.pow
  split
  · exact ha.mul ha hn
  · exact (ha.mul ha hn).mul ha hn
  · have hbits := Rect.powBits hn none a e (by simp) ha
    cases hresult : Grid.powBits none a e with
    | none => exact ha
    | some r => exact hbits r hresult

end Products

/-- Three cells arranged as a row or as a column. -/
theorem rectangular_arrangeLike (model : Grid β) {cells : List β} (h : cells.length = 3) :
    rectangular (Grid.arrangeLike model cells) = true := by
  rw [rectangular_iff]
  unfold Grid.arrangeLike
  split
  · refine ⟨1, 3, by omega, by omega, rfl, ?_⟩
    intro row hrow
    rw [List.mem_singleton.1 hrow, h]
  · refine ⟨3, 1, by omega, by omega, ?_, ?_⟩
    · rw [List.length_map, h]
    · intro row hrow
      obtain ⟨c, -, rfl⟩ := List.mem_map.1 hrow
      rfl

end LinearCalc
