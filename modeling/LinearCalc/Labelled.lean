set_option autoImplicit false

/-! # Labelled things

Things that each have a label. The order is that in which the labels came up first; a label that
comes up again keeps its place and gets the new thing.
-/

namespace LinearCalc

/-- Things with their labels. -/
abbrev Labelled (α : Type) := List (String × α)

namespace Labelled

variable {α : Type}

def labels (l : Labelled α) : List String := l.map Prod.fst

def put (label : String) (a : α) : Labelled α → Labelled α
  | [] => [(label, a)]
  | (other, b) :: more =>
    if other = label then (label, a) :: more else (other, b) :: put label a more

def ofList (entries : List (String × α)) : Labelled α :=
  entries.foldl (fun l entry => l.put entry.1 entry.2) []

@[simp] theorem labels_nil : labels ([] : Labelled α) = [] := rfl

@[simp] theorem labels_cons (entry : String × α) (l : Labelled α) :
    labels (entry :: l) = entry.1 :: l.labels := rfl

@[simp] theorem labels_append (l l' : Labelled α) : labels (l ++ l') = l.labels ++ l'.labels :=
  List.map_append

@[simp] theorem length_labels (l : Labelled α) : l.labels.length = l.length := List.length_map _

/-- Putting something under a label that is there changes no label, and under another one adds it
at the end. -/
theorem labels_put (label : String) (a : α) (l : Labelled α) :
    (l.put label a).labels = if label ∈ l.labels then l.labels else l.labels ++ [label] := by
  induction l with
  | nil => simp [put]
  | cons entry more ih =>
    obtain ⟨other, b⟩ := entry
    by_cases h : other = label
    · simp [put, h]
    · by_cases hm : label ∈ labels more <;> simp [put, h, Ne.symm h, hm, ih]

@[simp, grind =] theorem mem_labels_put {label other : String} {a : α} {l : Labelled α} :
    other ∈ (l.put label a).labels ↔ other ∈ l.labels ∨ other = label := by
  rw [labels_put]
  grind

theorem put_of_notMem {label : String} {l : Labelled α} (h : label ∉ l.labels) (a : α) :
    l.put label a = l ++ [(label, a)] := by
  induction l with
  | nil => rfl
  | cons entry more ih =>
    obtain ⟨hne, hmore⟩ : label ≠ entry.1 ∧ label ∉ labels more := by simpa using h
    rw [put, if_neg (Ne.symm hne), ih hmore, List.cons_append]

end Labelled

end LinearCalc
