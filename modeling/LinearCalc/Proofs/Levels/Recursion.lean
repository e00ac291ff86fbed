import LinearCalc.Proofs.Levels
import LinearCalc.Proofs.Spans.Results
import LinearCalc.Proofs.Values.Results
import LinearCalc.Render.Formula
import Mathlib.Data.List.Chain

set_option autoImplicit false

/-! # How deep the recursion goes

`simplifyWithin` evaluates an expression with calls nested at most as deep as its budget, and
`formulaWithin` writes its formula so; each gives nothing when the budget is spent. A call is made
for every operand, for the content of a parenthesis and for every element that is looked at. What
an operation looks at are the elements of the matrices that its operands have come to, which are
evaluated for this only now (`Evaluates`). The budget is spent just when there is a chain of so many
calls, each made by the one before (`Budgeted.eq_none_iff`). As a matrix is no deeper than the
expression it has come from (`depth_simplify_le`), calls go down in the tree, and its depth is
budget enough for all of it (`simplifyWithin_eq`, `formulaWithin_eq`).
-/

namespace LinearCalc

/-! ## Values that no operation can tell apart -/

namespace Value

variable {α : Type} [Scalar α]

/-- Both are the same number, or both are matrices with the same numbers in the same cells, and no
numbers in the others. -/
inductive SameNumbers : Value α → Value α → Prop where
  | scalar (v : α) : SameNumbers (.scalar v) (.scalar v)
  | matrix (rows rows' : List (List (Value α)))
      (h : rows.map (List.map number?) = rows'.map (List.map number?)) :
      SameNumbers (.matrix rows) (.matrix rows')

/-- The numbers of a matrix are the numbers of its cells. -/
theorem numbers?_matrix_eq (rows : List (List (Value α))) :
    (matrix rows).numbers?
      = (rows.map (List.map number?)).mapM (fun row => row.mapM (fun n => n)) := by
  simp only [numbers?, List.mapM_map, Function.comp_def]

theorem SameNumbers.numbers? {a b : Value α} (h : SameNumbers a b) : a.numbers? = b.numbers? := by
  cases h with
  | scalar v => rfl
  | matrix rows rows' h => rw [numbers?_matrix_eq, numbers?_matrix_eq, h]

theorem shape_of_number?_eq {rows rows' : List (List (Value α))}
    (h : rows.map (List.map number?) = rows'.map (List.map number?)) :
    shape rows = shape rows' := by
  rw [← shape_map number? rows, ← shape_map number? rows', h]

namespace SameNumbers

variable {a a' b b' : Value α}

theorem bothNumbers? (ha : a.SameNumbers a') (hb : b.SameNumbers b') :
    Value.bothNumbers? a b = Value.bothNumbers? a' b' := by
  rw [Value.bothNumbers?, Value.bothNumbers?, ha.numbers?, hb.numbers?]

theorem vectors? (ha : a.SameNumbers a') (hb : b.SameNumbers b') :
    Value.vectors? a b = Value.vectors? a' b' := by
  rw [Value.vectors?, Value.vectors?, ha.bothNumbers? hb]

theorem elementwise (ha : a.SameNumbers a') (hb : b.SameNumbers b') (f : α → α → α) :
    a.elementwise f b = a'.elementwise f b' := by
  have hboth := ha.bothNumbers? hb
  cases ha <;> cases hb
  case scalar.scalar => rfl
  all_goals simp only [Value.elementwise, hboth]

theorem multiply (ha : a.SameNumbers a') (hb : b.SameNumbers b') :
    a.multiply b = a'.multiply b' := by
  have hleft := ha.numbers?
  have hright := hb.numbers?
  have hboth := ha.bothNumbers? hb
  cases ha <;> cases hb
  case scalar.scalar => rfl
  case scalar.matrix => simp only [Value.multiply, hright]
  case matrix.scalar => simp only [Value.multiply, hleft]
  case matrix.matrix => simp only [Value.multiply, hboth]

theorem divide (ha : a.SameNumbers a') (hb : b.SameNumbers b') : a.divide b = a'.divide b' := by
  have hleft := ha.numbers?
  cases hb with
  | matrix => rfl
  | scalar divisor =>
      cases ha with
      | scalar => rfl
      | matrix => simp only [Value.divide, hleft]

theorem power (ha : a.SameNumbers a') (hb : b.SameNumbers b') : a.power b = a'.power b' := by
  have hleft := ha.numbers?
  cases ha with
  | scalar v =>
      cases hb with
      | scalar | matrix => rfl
  | matrix rows rows' h =>
      cases hb with
      | matrix => rfl
      | scalar exponent =>
          have hexponent : Value.matrixExponent? rows exponent
              = Value.matrixExponent? rows' exponent := by
            rw [Value.matrixExponent?, Value.matrixExponent?, shape_of_number?_eq h]
          simp only [Value.power, hleft, hexponent]

/-- **An operation looks at nothing but the numbers.** -/
theorem apply (op : Operator) (ha : a.SameNumbers a') (hb : b.SameNumbers b') :
    op.apply a b = op.apply a' b' := by
  cases op with
  | add | sub => exact ha.elementwise hb _
  | mul => exact ha.multiply hb
  | div => exact ha.divide hb
  | pow => exact ha.power hb
  | dot => simp only [Operator.apply, Value.dotProduct, ha.vectors? hb]
  | cross => simp only [Operator.apply, Value.crossProduct, ha.vectors? hb]

end SameNumbers
end Value

/-- All elements of rows become something, if each of them does. -/
theorem mapM_rows_eq_some {β γ : Type} (f : β → Option γ) (g : β → γ) (rows : List (List β))
    (h : ∀ b ∈ rows.flatten, f b = some (g b)) :
    rows.mapM (fun row => row.mapM f) = some (rows.map (List.map g)) := by
  rw [mapM_rows_eq_some_iff, List.map_map]
  refine List.map_congr_left (fun row hrow => ?_)
  rw [Function.comp_apply, List.map_map]
  exact List.map_congr_left (fun b hb => h b (List.mem_flatten.2 ⟨row, hrow, hb⟩))

/-- If one element of rows becomes nothing, all of them do. -/
theorem mapM_rows_eq_none {β γ : Type} {f : β → Option γ} {rows : List (List β)} {b : β}
    (hb : b ∈ rows.flatten) (h : f b = none) : rows.mapM (fun row => row.mapM f) = none := by
  rw [Option.eq_none_iff_forall_ne_some]
  intro cells hcells
  rw [mapM_rows_eq_some_iff] at hcells
  have hmem : f b ∈ (cells.map (List.map some)).flatten := by
    rw [← hcells, ← List.map_flatten]
    exact List.mem_map_of_mem hb
  rw [← List.map_flatten, h] at hmem
  obtain ⟨c, -, hc⟩ := List.mem_map.1 hmem
  cases hc

namespace Expr

/-! ## Depths -/

section Depths

variable {α : Type}

theorem depthRow_le_iff (row : List (Expr α)) (d : Nat) :
    depthRow row ≤ d ↔ ∀ e ∈ row, e.depth ≤ d := by
  induction row with
  | nil => simp
  | cons e row ih => rw [depthRow, Nat.max_le, ih, List.forall_mem_cons]

/-- Children are less deep than their parent. -/
theorem depth_lt_of_mem_children {e c : Expr α} (h : c ∈ e.children) : c.depth < e.depth := by
  have hchild := (depthRow_le_iff e.children _).1 (Nat.le_refl _) c h
  rw [e.depth_eq]
  omega

/-- The elements of a matrix are less deep than the matrix. -/
theorem depth_lt_of_mem {rows : List (List (Expr α))} {c : Expr α} (h : c ∈ rows.flatten)
    (s : Span) : c.depth < (matrix rows s).depth :=
  depth_lt_of_mem_children (e := matrix rows s) h

/-- A matrix is one level deeper than its elements may be. -/
theorem depth_matrix_le {rows : List (List (Expr α))} {d : Nat}
    (h : ∀ c ∈ rows.flatten, c.depth ≤ d) (s : Span) : (matrix rows s).depth ≤ 1 + d := by
  rw [depth_eq]
  exact Nat.add_le_add_left ((depthRow_le_iff _ _).2 h) 1

theorem depth_pos (e : Expr α) : 1 ≤ e.depth := by
  rw [depth_eq]
  omega

variable [Scalar α]

/-- **A result is no deeper than the expression it has come from.** -/
theorem depth_simplify_le (e : Expr α) : e.simplify.depth ≤ e.depth := by
  match e with
  | number v s => exact Nat.le_refl _
  | symbol t s => exact Nat.le_refl _
  | placeholder s => exact Nat.le_refl _
  | paren inner s =>
      have hinner := depth_simplify_le inner
      rw [simplify, depth]
      omega
  | matrix rows s =>
      rw [simplify]
      split
      · exact Nat.le_refl _
      · exact depth_pos _
  | unsupported sign os left right s => exact depth_pos (unsupported sign os left right s)
  | binary op os left right s =>
      have hleft := depth_simplify_le left
      have hpos := depth_pos left
      have hdepth : (binary op os left right s).depth = 1 + max left.depth right.depth := rfl
      have hinvalid : (invalid s : Expr α).depth = 1 := rfl
      rcases mark_or_operation op right with ⟨rfl, text, hmark⟩ | hoperation
      · rw [simplify_mark hmark]
        split
        · -- a transpose has the elements of the operand
          cases htree : left.simplify with
          | matrix rows t =>
              have hturned : (matrix (transpose rows) s).depth ≤ 1 + (matrix rows t).depth :=
                depth_matrix_le (fun c hc => Nat.le_of_lt
                  (depth_lt_of_mem (mem_of_mem_transpose hc) t)) s
              rw [htree] at hleft
              rw [transposed]
              omega
          | _ =>
              rw [transposed, hinvalid]
              · omega
              · simp
        · omega
      · rw [simplify_binary hoperation]
        cases op.apply left.value right.value with
        | scalar v => exact depth_pos (binary op os left right s)
        | grid cells =>
            have hcells : ∀ c ∈ (cells.map (fun v => number v s)).flatten, c.depth ≤ 1 := by
              intro c hc
              obtain ⟨row, hrow, hc⟩ := List.mem_flatten.1 hc
              obtain ⟨r, -, rfl⟩ := List.mem_map.1 hrow
              obtain ⟨v, -, rfl⟩ := List.mem_map.1 hc
              exact Nat.le_refl _
            have hgrid := depth_matrix_le hcells s
            rw [Computed.expr]
            omega
        | unchanged =>
            rw [Computed.expr]
            omega
        | invalid => exact depth_pos (binary op os left right s)

end Depths

/-! ## Chains of calls -/

/-- `calls` are nested: the first is made by the call for `e`, and each of the others by the one
before. -/
def Nests {α : Type} (call : Expr α → Expr α → Prop) (e : Expr α) (calls : List (Expr α)) : Prop :=
  (e :: calls).IsChain call

/-- A recursion within a budget comes to a result if all the calls do that it makes, with one unit
less, and to nothing if one of them comes to nothing. -/
structure Budgeted {α β : Type} (call : Expr α → Expr α → Prop) (run : Nat → Expr α → Option β)
    (result : Expr α → β) : Prop where
  zero (e : Expr α) : run 0 e = none
  enough {budget : Nat} {e : Expr α} (h : ∀ c, call e c → run budget c = some (result c)) :
    run (budget + 1) e = some (result e)
  spent {budget : Nat} {e c : Expr α}
    (hsound : ∀ d, run budget d = none ∨ run budget d = some (result d)) (hcall : call e c)
    (h : run budget c = none) : run (budget + 1) e = none

namespace Budgeted

variable {α β : Type} {call : Expr α → Expr α → Prop} {run : Nat → Expr α → Option β}
  {result : Expr α → β}

/-- Either the budget is enough, or there are as many nested calls as it allows. -/
theorem cases (h : Budgeted call run result) (budget : Nat) (e : Expr α) :
    (run budget e = some (result e) ∧ ¬ ∃ calls, calls.length = budget ∧ Nests call e calls) ∨
      (run budget e = none ∧ ∃ calls, calls.length = budget ∧ Nests call e calls) := by
  induction budget generalizing e with
  | zero => exact .inr ⟨h.zero e, [], rfl, List.isChain_singleton e⟩
  | succ budget ih =>
      have hsound : ∀ d, run budget d = none ∨ run budget d = some (result d) := by
        intro d
        exact (ih d).elim (fun hd => .inr hd.1) (fun hd => .inl hd.1)
      -- the budget is spent in one of the calls, or in none of them
      by_cases hcalls : ∃ c, call e c ∧ run budget c = none
      · obtain ⟨c, hcall, hnone⟩ := hcalls
        rcases ih c with ⟨hsome, -⟩ | ⟨-, calls, hlength, hchain⟩
        · rw [hnone] at hsome
          cases hsome
        · refine .inr ⟨h.spent hsound hcall hnone, c :: calls,
            by rw [List.length_cons, hlength], ?_⟩
          exact List.IsChain.cons_cons hcall hchain
      · have hall : ∀ c, call e c → run budget c = some (result c) := by
          intro c hcall
          exact (hsound c).resolve_left (fun hnone => hcalls ⟨c, hcall, hnone⟩)
        refine .inl ⟨h.enough hall, ?_⟩
        rintro ⟨calls, hlength, hchain⟩
        cases calls with
        | nil => cases hlength
        | cons c calls =>
            rcases ih c with ⟨-, hno⟩ | ⟨hnone, -⟩
            · exact hno ⟨calls, Nat.succ.inj hlength, hchain.of_cons⟩
            · exact hcalls ⟨c, hchain.rel, hnone⟩

/-- **The budget is spent just when so many calls are nested.** -/
theorem eq_none_iff (h : Budgeted call run result) (budget : Nat) (e : Expr α) :
    run budget e = none ↔ ∃ calls, calls.length = budget ∧ Nests call e calls := by
  rcases h.cases budget e with ⟨hsome, hno⟩ | ⟨hnone, hchain⟩
  · rw [hsome]
    exact ⟨nofun, fun hchain => absurd hchain hno⟩
  · exact ⟨fun _ => hchain, fun _ => hnone⟩

/-- A budget for which there are not so many nested calls is enough. -/
theorem eq_some (h : Budgeted call run result) {budget : Nat} {e : Expr α}
    (hno : ∀ calls, Nests call e calls → calls.length < budget) :
    run budget e = some (result e) := by
  rcases h.cases budget e with ⟨hsome, -⟩ | ⟨-, calls, hlength, hchain⟩
  · exact hsome
  · have hlt := hno calls hchain
    omega

end Budgeted

/-- Calls that go down in the tree are nested less deep than the tree. -/
theorem Nests.length_lt_depth {α : Type} {call : Expr α → Expr α → Prop}
    (hdown : ∀ {e c}, call e c → c.depth < e.depth) {e : Expr α} {calls : List (Expr α)}
    (h : Nests call e calls) : calls.length < e.depth := by
  induction calls generalizing e with
  | nil => exact e.depth_pos
  | cons c calls ih =>
      have hlt := hdown h.rel
      have hrest := ih h.of_cons
      rw [List.length_cons]
      omega

/-! ## Evaluating within a budget -/

section Evaluating

variable {α : Type} [Scalar α]

/-- The calls that are made to evaluate an expression: for the content of a parenthesis, for the
operands of an operation, and for the elements of the matrices that these have come to. The mark of
a transpose is not evaluated, and no element is. -/
inductive Evaluates : Expr α → Expr α → Prop where
  | content {inner : Expr α} {s : Span} : Evaluates (paren inner s) inner
  | left {op : Operator} {os : Span} {left right : Expr α} {s : Span} :
      Evaluates (binary op os left right s) left
  | right {op : Operator} {os : Span} {left right : Expr α} {s : Span}
      (hoperation : op = .pow → right.symbol? = none) : Evaluates (binary op os left right s) right
  | leftElement {op : Operator} {os : Span} {left right : Expr α} {s : Span}
      (hoperation : op = .pow → right.symbol? = none) {rows : List (List (Expr α))} {t : Span}
      (hleft : left.simplify = matrix rows t) {c : Expr α} (hc : c ∈ rows.flatten) :
      Evaluates (binary op os left right s) c
  | rightElement {op : Operator} {os : Span} {left right : Expr α} {s : Span}
      (hoperation : op = .pow → right.symbol? = none) {rows : List (List (Expr α))} {t : Span}
      (hright : right.simplify = matrix rows t) {c : Expr α} (hc : c ∈ rows.flatten) :
      Evaluates (binary op os left right s) c

/-- The elements of a result are less deep than the expression. -/
theorem depth_lt_of_simplify_eq {e : Expr α} {rows : List (List (Expr α))} {t : Span}
    (h : e.simplify = matrix rows t) {c : Expr α} (hc : c ∈ rows.flatten) : c.depth < e.depth := by
  have hle := e.depth_simplify_le
  rw [h] at hle
  exact Nat.lt_of_lt_of_le (depth_lt_of_mem hc t) hle

/-- **Evaluating goes down in the tree**, to elements of results, too. -/
theorem Evaluates.depth_lt {e c : Expr α} (h : Evaluates e c) : c.depth < e.depth := by
  cases h with
  | content => exact depth_lt_of_mem_children (by simp)
  | left => exact depth_lt_of_mem_children (by simp)
  | right => exact depth_lt_of_mem_children (by simp)
  | leftElement _ hleft hc =>
      exact Nat.lt_trans (depth_lt_of_simplify_eq hleft hc)
        (depth_lt_of_mem_children (by simp))
  | rightElement _ hright hc =>
      exact Nat.lt_trans (depth_lt_of_simplify_eq hright hc)
        (depth_lt_of_mem_children (by simp))

/-- What an operation sees of an element that has been evaluated: a number, or something else. -/
def cell : Expr α → Value α
  | number v _ => .scalar v
  | _ => .matrix []

/-- What an operation sees of an operand that has been evaluated: a number, or the elements of a
matrix, each of which is evaluated for this. -/
def operandWithin (evaluate : Expr α → Option (Expr α)) : Expr α → Option (Value α)
  | number v _ => some (.scalar v)
  | matrix rows _ => do
    let cells ← rows.mapM (fun row => row.mapM evaluate)
    return .matrix (cells.map (List.map cell))
  | _ => some .invalid

/-- Evaluates an expression with calls nested at most as deep as the budget. -/
def simplifyWithin : Nat → Expr α → Option (Expr α)
  | 0, _ => none
  | _ + 1, number v s => some (number v s)
  | _ + 1, symbol _ s => some (invalid s)
  | _ + 1, placeholder s => some (invalid s)
  | budget + 1, paren inner _ => simplifyWithin budget inner
  | _ + 1, matrix rows s => some (if rectangular rows then matrix rows s else invalid s)
  | budget + 1, binary op _ left right s =>
    match op, right.symbol? with
    | .pow, some text => do
      let l ← simplifyWithin budget left
      return if text = transposeSymbol then l.transposed s else invalid s
    | op, _ => do
      let l ← simplifyWithin budget left
      let r ← simplifyWithin budget right
      let a ← operandWithin (simplifyWithin budget) l
      let b ← operandWithin (simplifyWithin budget) r
      return (op.apply a b).expr s l
  | _ + 1, unsupported _ _ _ _ s => some (invalid s)

theorem simplifyWithin_mark {right : Expr α} {text : String} (h : right.symbol? = some text)
    (budget : Nat) (os : Span) (left : Expr α) (s : Span) :
    simplifyWithin (budget + 1) (binary .pow os left right s) = do
      let l ← simplifyWithin budget left
      return if text = transposeSymbol then l.transposed s else invalid s := by
  simp only [simplifyWithin, h]

theorem simplifyWithin_binary {op : Operator} {right : Expr α}
    (h : op = .pow → right.symbol? = none) (budget : Nat) (os : Span) (left : Expr α) (s : Span) :
    simplifyWithin (budget + 1) (binary op os left right s) = do
      let l ← simplifyWithin budget left
      let r ← simplifyWithin budget right
      let a ← operandWithin (simplifyWithin budget) l
      let b ← operandWithin (simplifyWithin budget) r
      return (op.apply a b).expr s l := by
  rw [simplifyWithin]
  intro text hop hsymbol
  rw [h hop] at hsymbol
  cases hsymbol

theorem number?_cell_simplify (e : Expr α) : e.simplify.cell.number? = e.value.number? := by
  rcases simplify_kind e with ⟨v, s, htree, hvalue⟩ | ⟨rows, s, -, htree, hvalue⟩
  · rw [htree, hvalue]
    rfl
  · rw [htree, hvalue]
    rfl

/-- An operand that has been evaluated shows the numbers of its value, if its elements can be
evaluated. -/
theorem operandWithin_simplify (evaluate : Expr α → Option (Expr α)) (e : Expr α)
    (h : ∀ {rows t}, e.simplify = matrix rows t →
      ∀ c ∈ rows.flatten, evaluate c = some c.simplify) :
    ∃ a, operandWithin evaluate e.simplify = some a ∧ a.SameNumbers e.value := by
  rcases simplify_kind e with ⟨v, s, htree, hvalue⟩ | ⟨rows, s, -, htree, hvalue⟩
  · rw [htree, hvalue]
    exact ⟨_, rfl, .scalar v⟩
  · have hcells : rows.mapM (fun row => row.mapM evaluate)
        = some (rows.map (List.map simplify)) :=
      mapM_rows_eq_some _ _ _ (h htree)
    rw [htree, hvalue, operandWithin, hcells]
    refine ⟨_, rfl, .matrix _ _ ?_⟩
    simp [Function.comp_def, number?_cell_simplify]

/-- An operand shows nothing if one of its elements cannot be evaluated. -/
theorem operandWithin_eq_none {evaluate : Expr α → Option (Expr α)} {e c : Expr α}
    {rows : List (List (Expr α))} {t : Span} (hrows : e = matrix rows t) (hc : c ∈ rows.flatten)
    (h : evaluate c = none) : operandWithin evaluate e = none := by
  rw [hrows, operandWithin, mapM_rows_eq_none hc h]
  rfl

/-- Evaluation within a budget makes the calls of `Evaluates`. -/
theorem budgeted_simplifyWithin :
    Budgeted (α := α) Evaluates simplifyWithin simplify where
  zero e := rfl
  enough := by
    intro budget e h
    cases e with
    | number | symbol | placeholder | matrix | unsupported => rfl
    | paren inner s => exact h inner .content
    | binary op os left right s =>
        -- the exponent `T` is never evaluated, and what stands before it always is
        rcases mark_or_operation op right with ⟨rfl, text, hmark⟩ | hoperation
        · rw [simplifyWithin_mark hmark, simplify_mark hmark, h left .left]
          rfl
        · obtain ⟨a, ha, hsame⟩ := operandWithin_simplify (simplifyWithin budget) left
            (fun hleft c hc => h c (.leftElement hoperation hleft hc))
          obtain ⟨b, hb, hsame'⟩ := operandWithin_simplify (simplifyWithin budget) right
            (fun hright c hc => h c (.rightElement hoperation hright hc))
          rw [simplifyWithin_binary hoperation, simplify_binary hoperation, h left .left,
            h right (.right hoperation), ← Value.SameNumbers.apply op hsame hsame']
          simp only [Option.bind_eq_bind, Option.bind_some, ha, hb]
          rfl
  spent := by
    intro budget e c hsound hcall hnone
    cases hcall with
    | content => exact hnone
    | @left op os left right s =>
        rcases mark_or_operation op right with ⟨rfl, text, hmark⟩ | hoperation
        · rw [simplifyWithin_mark hmark, hnone]
          rfl
        · rw [simplifyWithin_binary hoperation, hnone]
          rfl
    | @right op os left right s hoperation =>
        rw [simplifyWithin_binary hoperation, hnone]
        cases simplifyWithin budget left <;> rfl
    | @leftElement op os left right s hoperation rows t hleft _ hc =>
        rw [simplifyWithin_binary hoperation]
        -- the elements of an operand are evaluated after both operands, and only when the operand
        -- came to a matrix
        rcases hsound left with hspent | hdone
        · rw [hspent]
          rfl
        · have hspent := operandWithin_eq_none hleft hc hnone
          rw [hdone]
          cases simplifyWithin budget right <;> simp [hspent]
    | @rightElement op os left right s hoperation rows t hright _ hc =>
        rw [simplifyWithin_binary hoperation]
        rcases hsound right with hspent | hdone
        · rw [hspent]
          cases simplifyWithin budget left <;> rfl
        · have hspent := operandWithin_eq_none hright hc hnone
          rw [hdone]
          cases simplifyWithin budget left <;> simp [hspent]

/-- **The depth of a tree is budget enough to evaluate it.** -/
theorem simplifyWithin_eq {budget : Nat} {e : Expr α} (h : e.depth ≤ budget) :
    simplifyWithin budget e = some e.simplify :=
  budgeted_simplifyWithin.eq_some (fun _ hcalls =>
    Nat.lt_of_lt_of_le (hcalls.length_lt_depth Evaluates.depth_lt) h)

end Evaluating

/-! ## Formulas within a budget -/

/-- Formulas side by side in a row. -/
def joinRow : List (Except UnknownSign (List Piece)) → Except UnknownSign (List Piece)
  | [] => .ok []
  | [formula] => formula
  | formula :: row => do
    let pieces ← formula
    let more ← joinRow row
    return pieces ++ .literal " & " :: more

/-- Rows of formulas one below the other. -/
def joinRows : List (List (Except UnknownSign (List Piece))) → Except UnknownSign (List Piece)
  | [] => .ok []
  | [row] => joinRow row
  | row :: rows => do
    let pieces ← joinRow row
    let more ← joinRows rows
    return pieces ++ .literal " \\\\ " :: more

/-- Writes a formula with calls nested at most as deep as the budget. -/
def formulaWithin : Nat → Expr Float → Option (Except UnknownSign (List Piece))
  | 0, _ => none
  | _ + 1, number v _ => some (.ok [.literal (numberText defaultPrecision v)])
  | _ + 1, symbol text _ => some (.ok (symbolPieces text))
  | _ + 1, placeholder _ => some (.ok [.box])
  | budget + 1, paren inner _ => do
    let content ← formulaWithin budget inner
    return content.map (Piece.within .paren)
  | budget + 1, matrix rows _ => do
    let cells ← rows.mapM (fun row => row.mapM (formulaWithin budget))
    return (joinRows cells).map (Piece.within .matrix)
  | budget + 1, binary op _ left right _ => do
    let l ← formulaWithin budget left
    let r ← formulaWithin budget right
    return do
      let leftPieces ← l
      let rightPieces ← r
      return operationPieces op leftPieces rightPieces
  | budget + 1, unsupported sign _ left right _ => do
    let l ← formulaWithin budget left
    let r ← formulaWithin budget right
    return do
      let _ ← l
      let _ ← r
      throw ⟨sign⟩

theorem formulaRow_eq (row : List (Expr Float)) : formulaRow row = joinRow (row.map formula) := by
  induction row with
  | nil => rfl
  | cons e row ih =>
      cases row with
      | nil => rfl
      | cons next row =>
          rw [formulaRow, ih]
          · rfl
          · simp

theorem formulaRows_eq (rows : List (List (Expr Float))) :
    formulaRows rows = joinRows (rows.map (List.map formula)) := by
  induction rows with
  | nil => rfl
  | cons row rows ih =>
      cases rows with
      | nil => exact formulaRow_eq row
      | cons next rows =>
          rw [formulaRows, ih, formulaRow_eq]
          · rfl
          · simp

/-- A formula is written with a call for every child. -/
theorem budgeted_formulaWithin :
    Budgeted (fun e c => c ∈ e.children) formulaWithin formula where
  zero e := rfl
  enough := by
    intro budget e h
    cases e with
    | number | symbol | placeholder => rfl
    | paren inner s =>
        rw [formulaWithin, h inner (by simp), formula]
        cases inner.formula <;> rfl
    | matrix rows s =>
        have hcells : rows.mapM (fun row => row.mapM (formulaWithin budget))
            = some (rows.map (List.map formula)) := mapM_rows_eq_some _ _ _ h
        rw [formulaWithin, hcells, formula, formulaRows_eq]
        show some _ = some _
        cases joinRows (rows.map (List.map formula)) <;> rfl
    | binary op os left right s | unsupported sign os left right s =>
        rw [formulaWithin, h left (by simp), h right (by simp), formula]
        rfl
  spent := by
    intro budget e c hsound hcall hnone
    -- here every child is called for, so the cases are those of the tree
    cases e with
    | number | symbol | placeholder => cases hcall
    | paren inner s =>
        rw [List.mem_singleton.1 hcall] at hnone
        rw [formulaWithin, hnone]
        rfl
    | matrix rows s =>
        rw [formulaWithin, mapM_rows_eq_none hcall hnone]
        rfl
    | binary op os left right s | unsupported sign os left right s =>
        rw [formulaWithin]
        rcases List.mem_pair.1 hcall with rfl | rfl
        · rw [hnone]
          rfl
        · rw [hnone]
          cases formulaWithin budget left <;> rfl

/-- **The depth of a tree is budget enough to write its formula.** -/
theorem formulaWithin_eq {budget : Nat} {e : Expr Float} (h : e.depth ≤ budget) :
    formulaWithin budget e = some e.formula :=
  budgeted_formulaWithin.eq_some (fun _ hcalls =>
    Nat.lt_of_lt_of_le (hcalls.length_lt_depth depth_lt_of_mem_children) h)

end Expr
end LinearCalc
