import LinearCalc.Evaluate
import LinearCalc.Proofs.Values.Invalid
import LinearCalc.Proofs.Values.Results

set_option autoImplicit false

/-! # Poisoning

An operand without a value poisons the operation that it belongs to, and so everything around it
that is reached through operators and parentheses only. The one gap are powers that absorb what is
not a number: `x^0` and `1^x` are one whatever `x` is. `poisons_iff` says that there is no other
gap, for a single operation and for a whole text.
-/

namespace LinearCalc
namespace Expr

variable {α : Type}

/-! ## Ways through an expression -/

/-- The operation transposes its left operand, and its right operand is the mark for that. -/
def transposes (op : Operator) (right : Expr α) : Bool :=
  op == .pow && right.symbol? == some transposeSymbol

/-- The nodes that are reached through operators and parentheses, the root included. The mark of a
transpose is no operand. -/
def exposed : Expr α → List (Expr α)
  | number v s => [number v s]
  | symbol t s => [symbol t s]
  | placeholder s => [placeholder s]
  | matrix rows s => [matrix rows s]
  | paren inner s => paren inner s :: inner.exposed
  | binary op os left right s =>
    binary op os left right s ::
      (left.exposed ++ if transposes op right then [] else right.exposed)
  | unsupported sign os left right s =>
    unsupported sign os left right s :: (left.exposed ++ right.exposed)

/-- The operation has a value although one of its operands has none. -/
def absorbs : Expr Float → Bool
  | binary op _ left right _ => right.symbol?.isNone && op.absorbs left.value right.value
  | _ => false

/-- Nothing can be made of the node, whatever its operands are: an operand is missing, or it is a
mark or rows that are no matrix, or it is none that the operation makes sense of. -/
def misapplied : Expr Float → Bool
  | symbol _ _ => true
  | placeholder _ => true
  | matrix rows _ => !rectangular rows
  | binary op _ left right _ =>
    if transposes op right then left.value.transposed.isInvalid
    else !op.accepts left.value right.value
  | unsupported _ _ _ _ _ => true
  | _ => false

/-! ## Trees and values -/

/-- What is no mark is no transpose. -/
theorem transposes_eq_false {op : Operator} {right : Expr α}
    (h : op = .pow → right.symbol? = none) : transposes op right = false := by
  by_cases hop : op = .pow
  · simp [transposes, h hop]
  · simp [transposes, hop]

/-- The tree is what has no value just when there is no value. -/
theorem isInvalid_simplify [Scalar α] (e : Expr α) : e.simplify.isInvalid = e.value.isInvalid := by
  rcases simplify_kind e with ⟨v, s, htree, hvalue⟩ | ⟨rows, s, -, htree, hvalue⟩
  · rw [htree, hvalue]
    rfl
  · rw [htree, hvalue]
    rfl

theorem isInvalid_invalid (s : Span) : (invalid s : Expr Float).isInvalid = true := by
  show (0.0 / 0.0 : Float).isNaN = true
  decide +kernel

/-- Only matrices are transposed. -/
theorem transposed_eq_invalid {left : Expr Float} (h : left.value.transposed.isInvalid = true)
    (s : Span) : left.simplify.transposed s = invalid s := by
  rcases simplify_kind left with ⟨v, s', htree, -⟩ | ⟨rows, s', -, -, hvalue⟩
  · rw [htree]
    rfl
  · rw [hvalue] at h
    cases h

/-- The result of what is computed without a value. -/
theorem computed_expr_of_isInvalid {c : Computed Float} (h : c.isInvalid = true) (s : Span)
    (left : Expr Float) : c.expr s left = invalid s := by
  cases c with
  | scalar v =>
      have hnan : v = 0.0 / 0.0 := eq_nan h
      rw [hnan]
      rfl
  | grid cells => cases h
  | unchanged => cases h
  | invalid => rfl

/-! ## One operation -/

/-- What is no transpose absorbs what the values of its operands let it absorb. -/
theorem absorbs_binary {op : Operator} {right : Expr Float} (h : op = .pow → right.symbol? = none)
    (os : Span) (left : Expr Float) (s : Span) :
    (binary op os left right s).absorbs = op.absorbs left.value right.value := by
  rw [absorbs]
  by_cases hop : op = .pow
  · rw [h hop]
    rfl
  · have hnot : op.absorbs left.value right.value = false := by
      cases op with
      | pow => exact absurd rfl hop
      | _ => rfl
    rw [hnot, Bool.and_false]

/-- One of the operands that are absorbed is not a number. -/
theorem operand_of_absorbs {op : Operator} {left right : Value Float}
    (h : op.absorbs left right = true) : left.isInvalid = true ∨ right.isInvalid = true := by
  unfold Operator.absorbs at h
  split at h
  · simp only [Bool.or_eq_true, Bool.and_eq_true] at h
    exact h.imp And.left And.right
  · cases h

/-- Only numbers are absorbed, and the result is a number. -/
theorem apply_of_absorbs {op : Operator} {left right : Value Float}
    (h : op.absorbs left right = true) : ∃ v, op.apply left right = .scalar v := by
  unfold Operator.absorbs at h
  split at h
  · exact ⟨_, rfl⟩
  · cases h

/-- **An operand without a value poisons its operation**, and only what is absorbed does not. -/
theorem simplify_eq_invalid_iff (op : Operator) (os : Span) (left right : Expr Float) (s : Span)
    (h : left.simplify.isInvalid = true ∨
      right.simplify.isInvalid = true ∧ transposes op right = false) :
    (binary op os left right s).simplify = invalid s ↔
      (binary op os left right s).absorbs = false := by
  rcases mark_or_operation op right with ⟨rfl, text, hmark⟩ | hoperation
  · -- a mark is never absorbed, and it transposes nothing but matrices
    have habsorbs : (binary .pow os left right s).absorbs = false := by
      simp [absorbs, hmark]
    have hresult : (binary .pow os left right s).simplify = invalid s := by
      rw [simplify_mark hmark]
      by_cases htext : text = transposeSymbol
      · rw [if_pos htext]
        rcases h with h | ⟨-, h⟩
        · rw [isInvalid_simplify] at h
          exact transposed_eq_invalid (Value.transposed_isInvalid h) s
        · simp [transposes, hmark, htext] at h
      · rw [if_neg htext]
    exact ⟨fun _ => habsorbs, fun _ => hresult⟩
  · have hoperand : left.value.isInvalid = true ∨ right.value.isInvalid = true := by
      rw [← isInvalid_simplify, ← isInvalid_simplify]
      exact h.imp_right And.left
    have happly := apply_isInvalid op (value_rectangular left) (value_rectangular right) hoperand
    rw [simplify_binary hoperation, absorbs_binary hoperation]
    constructor
    · intro hresult
      rcases Bool.eq_false_or_eq_true (op.absorbs left.value right.value) with habsorbs | hnot
      · obtain ⟨v, hv⟩ := apply_of_absorbs habsorbs
        rw [habsorbs, hv] at happly
        rw [hv] at hresult
        have hinvalid : (number v s : Expr Float).isInvalid = true := by
          rw [show number v s = invalid s from hresult]
          exact isInvalid_invalid s
        rw [show (Computed.scalar v).isInvalid = true from hinvalid] at happly
        cases happly
      · exact hnot
    · intro hnot
      rw [hnot] at happly
      exact computed_expr_of_isInvalid happly s left.simplify

/-- **An operation that makes no sense of its operands has no value.** -/
theorem simplify_of_misapplied {e : Expr Float} (h : e.misapplied = true) :
    e.simplify = invalid e.span := by
  cases e with
  | number v s => cases h
  | symbol t s => rfl
  | placeholder s => rfl
  | paren inner s => cases h
  | matrix rows s =>
      have hrows : rectangular rows = false := by simpa [misapplied] using h
      rw [simplify, hrows]
      rfl
  | unsupported sign os left right s => rfl
  | binary op os left right s =>
      rw [misapplied] at h
      -- a mark in the exponent is looked at unevaluated; any other operation fails by the kinds and
      -- the shapes of its operands
      rcases mark_or_operation op right with ⟨rfl, text, hmark⟩ | hoperation
      · rw [simplify_mark hmark]
        by_cases htext : text = transposeSymbol
        · have htransposes : transposes .pow right = true := by simp [transposes, hmark, htext]
          rw [if_pos htransposes] at h
          rw [if_pos htext]
          exact transposed_eq_invalid h s
        · rw [if_neg htext]
          rfl
      · rw [transposes_eq_false hoperation] at h
        have haccepts : op.accepts left.value right.value = false := by simpa using h
        rw [simplify_binary hoperation, apply_of_accepts_eq_false op (value_rectangular left)
          (value_rectangular right) haccepts]
        rfl

/-! ## Everything around an operation -/

theorem self_mem_exposed (e : Expr α) : e ∈ e.exposed := by
  cases e <;> exact List.mem_cons_self

/-- What is exposed within an exposed node is exposed. -/
theorem exposed_trans {sub e t : Expr α} (hsub : sub ∈ e.exposed) (he : e ∈ t.exposed) :
    sub ∈ t.exposed := by
  match t with
  | number _ _ | symbol _ _ | placeholder _ | matrix _ _ =>
      obtain rfl := List.mem_singleton.1 he
      exact hsub
  | paren inner s =>
      rw [exposed] at he
      rcases List.mem_cons.1 he with rfl | he
      · exact hsub
      · exact List.mem_cons_of_mem _ (exposed_trans hsub he)
  | binary op os left right s =>
      rw [exposed] at he
      rcases List.mem_cons.1 he with rfl | he
      · exact hsub
      · refine List.mem_cons_of_mem _ (List.mem_append.2 ?_)
        rcases List.mem_append.1 he with he | he
        · exact .inl (exposed_trans hsub he)
        -- the mark of a transpose is not exposed, as it is never evaluated
        · split at he
          · cases he
          · rename_i htransposes
            rw [if_neg htransposes]
            exact .inr (exposed_trans hsub he)
  | unsupported sign os left right s =>
      rw [exposed] at he
      rcases List.mem_cons.1 he with rfl | he
      · exact hsub
      · refine List.mem_cons_of_mem _ (List.mem_append.2 ?_)
        rcases List.mem_append.1 he with he | he
        · exact .inl (exposed_trans hsub he)
        · exact .inr (exposed_trans hsub he)

/-- **What has no value poisons everything around it**, unless a power absorbs it on the way. -/
theorem exposed_poisons {sub : Expr Float} (hsub : sub.simplify.isInvalid = true) (t : Expr Float)
    (hmem : sub ∈ t.exposed) (hnone : ∀ power ∈ t.exposed, power.absorbs = false) :
    t.simplify.isInvalid = true := by
  match t with
  | number _ _ | matrix _ _ =>
      obtain rfl := List.mem_singleton.1 hmem
      exact hsub
  | symbol _ s | placeholder s | unsupported _ _ _ _ s => exact isInvalid_invalid s
  | paren inner s =>
      rw [exposed] at hmem hnone
      rcases List.mem_cons.1 hmem with rfl | hmem
      · exact hsub
      · rw [simplify]
        exact exposed_poisons hsub inner hmem
          (fun power hpower => hnone power (List.mem_cons_of_mem _ hpower))
  | binary op os left right s =>
      have hself := hnone _ (self_mem_exposed _)
      rw [exposed] at hmem hnone
      rcases List.mem_cons.1 hmem with rfl | hmem
      · exact hsub
      -- by the induction one of the operands has no value; that this is the result of the
      -- operation, too, is what not absorbing means
      · have hoperand : left.simplify.isInvalid = true ∨
            right.simplify.isInvalid = true ∧ transposes op right = false := by
          rcases List.mem_append.1 hmem with hleft | hright
          · refine .inl (exposed_poisons hsub left hleft (fun power hpower => ?_))
            exact hnone power (List.mem_cons_of_mem _ (List.mem_append_left _ hpower))
          · split at hright
            · cases hright
            · rename_i htransposes
              rw [if_neg htransposes] at hnone
              refine .inr ⟨exposed_poisons hsub right hright (fun power hpower => ?_),
                Bool.eq_false_iff.2 htransposes⟩
              exact hnone power (List.mem_cons_of_mem _ (List.mem_append_right _ hpower))
        rw [(simplify_eq_invalid_iff op os left right s hoperand).2 hself]
        exact isInvalid_invalid s

/-- Whatever absorbs has an exposed operand without a value. -/
theorem exposed_of_absorbs {power t : Expr Float} (hmem : power ∈ t.exposed)
    (h : power.absorbs = true) : ∃ sub ∈ t.exposed, sub.simplify.isInvalid = true := by
  cases power with
  | binary op os left right s =>
      rw [absorbs, Bool.and_eq_true] at h
      obtain ⟨hsymbol, habsorbs⟩ := h
      -- a power absorbs only what it evaluates, so its exponent is not a mark, and both operands
      -- are exposed
      have htransposes : transposes op right = false :=
        transposes_eq_false (fun _ => Option.isNone_iff_eq_none.1 hsymbol)
      have hleft : left ∈ t.exposed := by
        refine exposed_trans ?_ hmem
        exact List.mem_cons_of_mem _ (List.mem_append_left _ (self_mem_exposed left))
      have hright : right ∈ t.exposed := by
        refine exposed_trans ?_ hmem
        rw [exposed, htransposes]
        exact List.mem_cons_of_mem _ (List.mem_append_right _ (self_mem_exposed right))
      rcases operand_of_absorbs habsorbs with hvalue | hvalue
      · exact ⟨left, hleft, (isInvalid_simplify left).trans hvalue⟩
      · exact ⟨right, hright, (isInvalid_simplify right).trans hvalue⟩
  | _ => cases h

/-! ## Texts -/

/-- A text is no success if its tree has no value, or if it is rejected. -/
theorem ok_of_isInvalid {text : String} (precision : Int)
    (h : (parseText text).1.simplify.isInvalid = true) : (evaluate text precision).ok = false := by
  unfold evaluate
  split
  · rfl
  · rename_i tree diagnostics hparsed
    have htree : (parseText text).1 = tree := by
      unfold parseWithin at hparsed
      split at hparsed
      · cases hparsed
      · dsimp only at hparsed
        split at hparsed
        · cases hparsed
        · rw [Except.ok.inj hparsed]
    rw [htree] at h
    show (!tree.simplify.isInvalid) = false
    rw [h]
    rfl

end Expr

/-- **What has no value poisons everything around it except where a power absorbs it.** An operation
on it has no value unless it absorbs it, as a power does with the exponent zero or with the base
one. A text that evaluates without an error although there is no value for something within it is
one in which a power absorbs something, and the other way round. Nothing else that is wrong with an
operation has a value. -/
theorem poisons_iff (text : String) (precision : Int) :
    (∀ (op : Operator) (os : Span) (left right : Expr Float) (s : Span),
      (left.simplify.isInvalid = true ∨
        right.simplify.isInvalid = true ∧ Expr.transposes op right = false) →
      ((Expr.binary op os left right s).simplify = .invalid s ↔
        (Expr.binary op os left right s).absorbs = false)) ∧
    (((evaluate text precision).ok = true ∧
        ∃ sub ∈ (parseText text).1.exposed, sub.simplify.isInvalid = true) ↔
      ((evaluate text precision).ok = true ∧
        ∃ power ∈ (parseText text).1.exposed, power.absorbs = true)) ∧
    (∀ e : Expr Float, e.misapplied = true → e.simplify = .invalid e.span) := by
  refine ⟨fun op os left right s => Expr.simplify_eq_invalid_iff op os left right s, ?_,
    fun e => Expr.simplify_of_misapplied⟩
  constructor
  · rintro ⟨hok, sub, hmem, hsub⟩
    -- with nothing absorbing anywhere, what has no value would reach the whole text
    by_cases hsome : ∃ power ∈ (parseText text).1.exposed, power.absorbs = true
    · exact ⟨hok, hsome⟩
    · have hnone : ∀ power ∈ (parseText text).1.exposed, power.absorbs = false := by
        intro power hpower
        exact Bool.eq_false_iff.2 (fun h => hsome ⟨power, hpower, h⟩)
      have hinvalid := Expr.exposed_poisons hsub (parseText text).1 hmem hnone
      rw [Expr.ok_of_isInvalid precision hinvalid] at hok
      cases hok
  · rintro ⟨hok, power, hmem, hpower⟩
    exact ⟨hok, Expr.exposed_of_absorbs hmem hpower⟩

/-- The power of a quotient that has no value, in a text that evaluates without an error. -/
theorem absorbed_quotient :
    ¬ ∀ (text : String) (precision : Int),
      (∃ sub ∈ (parseText text).1.exposed, sub.misapplied = true) →
      (evaluate text precision).ok = false := by
  intro h
  have hok : (evaluate "(5/0)^0" 6).ok = true := by decide +kernel
  have hany : (parseText "(5/0)^0").1.exposed.any (·.misapplied) = true := by decide +kernel
  rw [h "(5/0)^0" 6 (List.any_eq_true.1 hany)] at hok
  cases hok

end LinearCalc
