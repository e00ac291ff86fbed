import LinearCalc.Log.Activity
import LinearCalc.Proofs.Limits
import LinearCalc.Proofs.Painting
import LinearCalc.Proofs.Plotting.Vectors

set_option autoImplicit false

/-! # What a plot decides

A plot goes over its texts twice. The first time it parses them, and the first text beyond the
limits ends it. The second time it parts the values into those that stand for vectors of the plane,
which are drawn, and the others, each of which is skipped with a warning (`Parted`). Nothing is
warned of, and no file is touched, before all texts have been found to be within the limits
(`PlotRequest.plot_decides`).
-/

namespace LinearCalc

namespace Labelled

def parsed (texts : Labelled String) : Labelled (Expr Float) :=
  texts.map (fun entry => (entry.1, (parseText entry.2).1))

def values (entries : Labelled (Expr Float)) : Labelled (Expr Float) :=
  entries.map (fun entry => (entry.1, entry.2.simplify))

end Labelled

/-- Either a first text is beyond the limits, or all texts are parsed. -/
theorem parseAll_cases (texts : Labelled String) :
    (∃ before label text more reason, texts = before ++ (label, text) :: more ∧
      (∀ entry ∈ before, WithinLimits entry.2) ∧ BeyondLimits text reason ∧
      parseAll texts = .error (label, reason)) ∨
    ((∀ entry ∈ texts, WithinLimits entry.2) ∧
      parseAll texts = .ok texts.parsed) := by
  induction texts with
  | nil => exact .inr ⟨by simp, rfl⟩
  | cons entry texts ih =>
      obtain ⟨label, text⟩ := entry
      rw [parseAll]
      -- the first text beyond the limits is this one, or the first among the others
      rcases parseWithin_cases text with ⟨reason, hbeyond, hparse⟩ | ⟨hwithin, hparse⟩
      · rw [hparse]
        exact .inl ⟨[], label, text, texts, reason, rfl, by simp, hbeyond, rfl⟩
      · rw [hparse]
        rcases ih with ⟨before, other, bad, more, reason, rfl, hbefore, hbeyond, hall⟩ |
          ⟨hall, hparsed⟩
        · refine .inl ⟨(label, text) :: before, other, bad, more, reason, rfl, ?_, hbeyond, ?_⟩
          · rintro entry (_ | ⟨_, hentry⟩)
            · exact hwithin
            · exact hbefore entry hentry
          · simp only [hall]
            rfl
        · refine .inr ⟨?_, ?_⟩
          · rintro entry (_ | ⟨_, hentry⟩)
            · exact hwithin
            · exact hall entry hentry
          · simp only [hparsed]
            rfl

/-! ## Drawn and skipped -/

/-- Values parted into those that are drawn, with the vectors that they stand for, and the labels
of those that are skipped, both in the order of the values. -/
inductive Parted :
    Labelled (Expr Float) → Labelled (List (Position Float)) → List String → Prop where
  | nil : Parted [] [] []
  | draw {label : String} {value : Expr Float} {vectors : List (Position Float)}
      {values : Labelled (Expr Float)} {drawn : Labelled (List (Position Float))}
      {skipped : List String} (h : StandsFor value vectors) (rest : Parted values drawn skipped) :
      Parted ((label, value) :: values) ((label, vectors) :: drawn) skipped
  | skip {label : String} {value : Expr Float} {values : Labelled (Expr Float)}
      {drawn : Labelled (List (Position Float))} {skipped : List String}
      (h : ∀ vectors, ¬ StandsFor value vectors) (rest : Parted values drawn skipped) :
      Parted ((label, value) :: values) drawn (label :: skipped)

/-- The values of entries are parted into what can be drawn and what is skipped. -/
theorem Labelled.parted (entries : Labelled (Expr Float)) :
    Parted entries.values entries.drawable entries.skipped := by
  induction entries with
  | nil => exact .nil
  | cons entry entries ih =>
      obtain ⟨label, e⟩ := entry
      cases hvectors : e.vectors? with
      | some vectors =>
          rw [drawable_cons_of_some _ hvectors, skipped_cons_of_some _ hvectors]
          exact .draw ((e.vectors?_eq_some_iff vectors).1 hvectors) ih
      | none =>
          rw [drawable_cons_of_none _ hvectors, skipped_cons_of_none _ hvectors]
          refine .skip (fun vectors h => ?_) ih
          rw [← e.vectors?_eq_some_iff, hvectors] at h
          cases h

/-- There is no other way to part the values of entries. -/
theorem Labelled.eq_of_parted {entries : Labelled (Expr Float)}
    {drawn : Labelled (List (Position Float))} {skipped : List String}
    (h : Parted entries.values drawn skipped) :
    drawn = entries.drawable ∧ skipped = entries.skipped := by
  -- entry by entry: what it stands for is unique, and it is skipped only if that is nothing
  induction entries generalizing drawn skipped with
  | nil =>
      cases h
      exact ⟨rfl, rfl⟩
  | cons entry entries ih =>
      obtain ⟨label, e⟩ := entry
      cases h with
      | draw h rest =>
          obtain ⟨rfl, rfl⟩ := ih rest
          have hvectors := (e.vectors?_eq_some_iff _).2 h
          exact ⟨by simp [hvectors], by simp [hvectors]⟩
      | skip h rest =>
          obtain ⟨rfl, rfl⟩ := ih rest
          have hvectors : e.vectors? = none :=
            Option.eq_none_iff_forall_ne_some.2 (fun vectors hsome =>
              h vectors ((e.vectors?_eq_some_iff vectors).1 hsome))
          exact ⟨by simp [hvectors], by simp [hvectors]⟩

/-- Values stand for the vectors that can be read off the trees already. -/
theorem Labelled.drawable_values (entries : Labelled (Expr Float)) :
    entries.values.drawable = entries.drawable := by
  rw [drawable, drawable, values, List.filterMap_map]
  simp only [Function.comp_def, Expr.vectors?, Expr.simplify_simplify]

/-! ## Warnings -/

def warnings (records : List LogRecord) : List LogRecord :=
  records.filter (fun record => record.level = .warning)

theorem warnings_append (records more : List LogRecord) :
    warnings (records ++ more) = warnings records ++ warnings more :=
  List.filter_append ..

theorem warnings_remarks (remarks : List Remark) : warnings (remarks.map Remark.record) = [] := by
  refine List.filter_eq_nil_iff.2 ?_
  intro record hrecord
  obtain ⟨remark, -, rfl⟩ := List.mem_map.1 hrecord
  cases remark <;> simp [Remark.record, LogRecord.of]

theorem warnings_parseRecords (text : String) : warnings (parseRecords text) = [] := by
  unfold parseRecords diagnosticRecords
  by_cases hlength : text.length > maxLength
  · rw [if_pos hlength]
    rfl
  · rw [if_neg hlength]
    cases hdiagnostics : (parseText text).2.isEmpty <;>
      simp [hdiagnostics, warnings, scanRecord, LogRecord.of]

/-- Nothing is warned of while texts are parsed. -/
theorem warnings_plotTextRecords (texts : Labelled String) :
    warnings (plotTextRecords texts) = [] := by
  induction texts with
  | nil => rfl
  | cons entry texts ih =>
      obtain ⟨label, text⟩ := entry
      rw [plotTextRecords, warnings_append, warnings_parseRecords, List.nil_append]
      cases parseWithin text with
      | error rejection => rfl
      | ok parsed => simp only [warnings_append, warnings_remarks, ih, List.append_nil]

theorem warnings_paintRecords (drawing : Drawing) (destination : Destination) (ending : PaintEnd) :
    warnings (paintRecords drawing destination ending) = [] := by
  cases ending with
  | saved => rfl
  | failed fault => cases fault <;> rfl
  | escaped fault => rfl

/-- There is one warning for each entry that is skipped, in their order. -/
theorem warnings_vectorRecords (entries : Labelled (Expr Float)) :
    warnings (entries.flatMap (fun entry => vectorRecords entry.1 entry.2)) =
      entries.skipped.map skipRecord := by
  induction entries with
  | nil => rfl
  | cons entry entries ih =>
      obtain ⟨label, e⟩ := entry
      rw [List.flatMap_cons, warnings_append, ih, vectorRecords, warnings_append, warnings_remarks,
        List.nil_append]
      cases hvectors : e.vectors? with
      | some vectors => simp [hvectors, warnings]
      | none => simp [hvectors, warnings, skipRecord, LogRecord.of]

namespace PlotRequest

/-- What a plot warns of: the entries that it skips, unless it is ended by a text beyond the
limits. -/
theorem warnings_records (r : PlotRequest) (painter : Painter) :
    warnings (r.records painter) =
      match parseAll r.texts with
      | .error _ => []
      | .ok entries => entries.skipped.map skipRecord := by
  rw [records, textRecords, warnings_append, warnings_append, warnings_plotTextRecords,
    List.nil_append, entryRecords, plot]
  cases parseAll r.texts with
  | error rejected => rfl
  | ok entries =>
      -- painting logs its end, but warns of nothing
      simp only [warnings_vectorRecords]
      cases entries.drawable.isEmpty with
      | true => exact List.append_nil _
      | false => simp only [Bool.false_eq_true, if_false, warnings_paintRecords, List.append_nil]

variable {r : PlotRequest} {entries : Labelled (Expr Float)}

theorem plot_of_error {label : String} {reason : Rejection}
    (hparsed : parseAll r.texts = .error (label, reason)) (painter : Painter) :
    r.plot painter = .rejected label reason := by
  rw [plot, hparsed]

theorem plot_of_empty (hparsed : parseAll r.texts = .ok entries) (hdrawn : entries.drawable = [])
    (painter : Painter) : r.plot painter = .empty entries.skipped := by
  rw [plot, hparsed]
  exact if_pos (List.isEmpty_iff.2 hdrawn)

theorem plot_of_drawable (hparsed : parseAll r.texts = .ok entries) (hdrawn : entries.drawable ≠ [])
    (painter : Painter) :
    r.plot painter = .painted (entries.drawing r.view r.canvas) entries.skipped
      ((entries.drawing r.view r.canvas).paint painter r.destination) := by
  rw [plot, hparsed]
  exact if_neg (mt List.isEmpty_iff.1 hdrawn)

/-! ## On the disk -/

/-- Makes a plot on the disk: nothing is done there before all texts are within the limits. -/
def plotOn (r : PlotRequest) (painter : Painter) (image : ByteArray) : OnDisk Outcome :=
  match parseAll r.texts with
  | .error (label, reason) => pure (.failure (label ++ ": " ++ reason.message))
  | .ok entries => entries.values.plotOn r.view r.canvas painter r.destination image

theorem plotOn_of_error {label : String} {reason : Rejection}
    (hparsed : parseAll r.texts = .error (label, reason)) (painter : Painter) (image : ByteArray) :
    r.plotOn painter image = pure (.failure (label ++ ": " ++ reason.message)) := by
  rw [plotOn, hparsed]

theorem plotOn_of_ok (hparsed : parseAll r.texts = .ok entries) (painter : Painter)
    (image : ByteArray) :
    r.plotOn painter image =
      if entries.drawable.isEmpty then pure (.failure nothingToPlot)
      else (entries.drawing r.view r.canvas).paintOn painter r.destination image := by
  rw [plotOn, hparsed]
  -- what is drawn of the values is what can be read off the trees
  simp only [Labelled.plotOn, Labelled.drawing, entries.drawable_values]

theorem plotOn_of_empty (hparsed : parseAll r.texts = .ok entries) (hdrawn : entries.drawable = [])
    (painter : Painter) (image : ByteArray) :
    r.plotOn painter image = pure (.failure nothingToPlot) := by
  rw [plotOn_of_ok hparsed, if_pos (List.isEmpty_iff.2 hdrawn)]

theorem plotOn_of_drawable (hparsed : parseAll r.texts = .ok entries)
    (hdrawn : entries.drawable ≠ []) (painter : Painter) (image : ByteArray) :
    r.plotOn painter image =
      (entries.drawing r.view r.canvas).paintOn painter r.destination image := by
  rw [plotOn_of_ok hparsed, if_neg (mt List.isEmpty_iff.1 hdrawn)]

/-- **Plotting on the disk ends as `plot` tells**, if a temporary file is a new one. -/
theorem run_plotOn (r : PlotRequest) (painter : Painter) (image : ByteArray) (disk : Disk)
    (hfresh : r.destination.temporary = true → disk r.destination.path = none) :
    (r.plotOn painter image).run disk =
      r.destination.finish image disk (r.plot painter).file
        ((r.plot painter).outcome r.destination) := by
  cases hparsed : parseAll r.texts with
  | error rejected =>
      rw [plotOn_of_error hparsed, plot_of_error hparsed]
      rfl
  | ok entries =>
      by_cases hdrawn : entries.drawable = []
      · rw [plotOn_of_empty hparsed hdrawn, plot_of_empty hparsed hdrawn]
        rfl
      · rw [plotOn_of_drawable hparsed hdrawn, plot_of_drawable hparsed hdrawn,
          Drawing.paintOn_eq _ _ _ _ _ hfresh]
        rfl

/-- **A plot ends at the first text beyond the limits, and otherwise parts the values into those
that are drawn and those that are skipped with a warning.** In the first case nothing is drawn,
warned of or written. In the second case the vectors and the skipped labels are those of `Parted`,
in the order of the texts; without any vectors there is an error and no file. On the disk it ends
the same way: only a plot that has drawn something, and that has not failed at any stage, writes to
its file. -/
theorem plot_decides (r : PlotRequest) (painter : Painter) :
    ((∃ entry ∈ r.texts, ¬ WithinLimits entry.2) →
      ∃ before label text more reason, r.texts = before ++ (label, text) :: more
        ∧ (∀ entry ∈ before, WithinLimits entry.2) ∧ BeyondLimits text reason
        ∧ (r.plot painter).outcome r.destination =
          .ok (.failure (label ++ ": " ++ reason.message))
        ∧ warnings (r.records painter) = [] ∧ (r.plot painter).file = .untouched
        ∧ ∀ (image : ByteArray) (disk : Disk), (r.plotOn painter image).run disk =
          .ok (.failure (label ++ ": " ++ reason.message)) disk) ∧
    ((∀ entry ∈ r.texts, WithinLimits entry.2) →
      ∃ drawn skipped,
        Parted r.texts.parsed.values drawn skipped
        ∧ warnings (r.records painter) = skipped.map skipRecord
        ∧ (drawn = [] → (r.plot painter).outcome r.destination = .ok (.failure nothingToPlot)
          ∧ (r.plot painter).file = .untouched
          ∧ ∀ (image : ByteArray) (disk : Disk),
            (r.plotOn painter image).run disk = .ok (.failure nothingToPlot) disk)
        ∧ (drawn ≠ [] →
          (∃ result, r.plot painter = .painted ⟨r.view, r.canvas, drawn⟩ skipped result)
          ∧ ((∀ stage ∈ Drawing.stages ⟨r.view, r.canvas, drawn⟩,
              painter ⟨r.view, r.canvas, drawn⟩ stage = none) →
            (r.plot painter).outcome r.destination =
              .ok { ok := true, result := some r.destination.path }
            ∧ (r.plot painter).file = .image
            ∧ ∀ (image : ByteArray) (disk : Disk),
              (r.destination.temporary = true → disk r.destination.path = none) →
              (r.plotOn painter image).run disk =
                .ok { ok := true, result := some r.destination.path }
                  (disk.write r.destination.path image)))) := by
  have hwarnings := r.warnings_records painter
  -- all texts are parsed before anything is evaluated, so the first one beyond the limits ends the
  -- plot before any warning
  rcases parseAll_cases r.texts with
    ⟨before, label, text, more, reason, htexts, hbefore, hbeyond, hparsed⟩ | ⟨hwithin, hparsed⟩
  · rw [hparsed] at hwarnings
    refine ⟨fun _ => ?_, fun hall => ?_⟩
    · refine ⟨before, label, text, more, reason, htexts, hbefore, hbeyond, ?_, hwarnings, ?_,
        fun image disk => ?_⟩
      · rw [plot_of_error hparsed]
        rfl
      · rw [plot_of_error hparsed]
        rfl
      · rw [plotOn_of_error hparsed]
        rfl
    · have hwithin := hall (label, text) (by simp [htexts])
      exact absurd hwithin hbeyond.not_withinLimits
  · rw [hparsed] at hwarnings
    refine ⟨?_, fun _ => ?_⟩
    · rintro ⟨entry, hentry, hbeyond⟩
      exact absurd (hwithin entry hentry) hbeyond
    · refine ⟨r.texts.parsed.drawable, r.texts.parsed.skipped, r.texts.parsed.parted, hwarnings,
        fun hdrawn => ?_, fun hdrawn => ?_⟩
      · rw [plot_of_empty hparsed hdrawn]
        refine ⟨rfl, rfl, fun image disk => ?_⟩
        rw [plotOn_of_empty hparsed hdrawn]
        rfl
      -- from here on only the painter and the disk decide
      · have hplot := plot_of_drawable hparsed hdrawn painter
        refine ⟨⟨_, hplot⟩, fun hstages => ?_⟩
        rw [Labelled.drawing, Drawing.paint_saved hstages] at hplot
        refine ⟨?_, ?_, fun image disk hfresh => ?_⟩
        · rw [hplot]
          rfl
        · rw [hplot]
          rfl
        · rw [r.run_plotOn painter image disk hfresh, hplot]
          rfl

/-- Of a row and a number the row is drawn and the number is skipped, and the image is all that is
new on the disk. With a text of too many ones behind them, nothing is drawn. -/
theorem plot_decides_row :
    let row : PlotRequest :=
      { texts := [("u", "[1,2]"), ("w", "3")], destination := ⟨"a.png", false⟩ }
    let long := String.ofList (List.replicate 10001 '1')
    let painter : Painter := fun _ _ => none
    let image : ByteArray := ⟨#[1]⟩
    ((∃ result, row.plot painter =
        .painted ⟨row.view, row.canvas, [("u", [⟨1, 0⟩, ⟨2, 0⟩])]⟩ ["w"] result)
      ∧ Parted row.texts.parsed.values [("u", [⟨1, 0⟩, ⟨2, 0⟩])] ["w"]
      ∧ warnings (row.records painter) = [skipRecord "w"]
      ∧ (row.plot painter).file = .image
      ∧ (row.plotOn painter image).run (fun _ => none) =
        .ok { ok := true, result := some "a.png" } (Disk.write "a.png" image (fun _ => none))) ∧
    ∃ message,
      (({ row with texts := row.texts ++ [("v", long)] } : PlotRequest).plot painter).outcome
        row.destination = .ok (.failure message) := by
  intro row long painter image
  have hrow : ∀ entry ∈ row.texts, WithinLimits entry.2 := by
    -- one goal for each of the two texts, and none for the end of the list
    rintro entry (_ | ⟨_, _ | ⟨_, hnone⟩⟩)
    · exact ⟨by decide, by decide +kernel⟩
    · exact ⟨by decide, by decide +kernel⟩
    · cases hnone
  have hlong : ¬ WithinLimits long := by
    rintro ⟨hlength, -⟩
    rw [String.length_ofList, List.length_replicate] at hlength
    omega
  refine ⟨?_, ?_⟩
  · obtain ⟨drawn, skipped, hparted, hwarnings, -, hdrawn⟩ := (plot_decides row painter).2 hrow
    -- `Parted` fixes what was drawn and skipped, so it can be computed
    obtain ⟨rfl, rfl⟩ := Labelled.eq_of_parted hparted
    have hvectors : row.texts.parsed.drawable = [("u", [⟨1, 0⟩, ⟨2, 0⟩])] := by decide +kernel
    have hnumber : row.texts.parsed.skipped = ["w"] := by decide +kernel
    rw [hvectors, hnumber] at hparted hdrawn
    rw [hnumber] at hwarnings
    obtain ⟨hplot, hsaved⟩ := hdrawn (List.cons_ne_nil _ _)
    obtain ⟨-, hfile, hdisk⟩ := hsaved (fun _ _ => rfl)
    exact ⟨hplot, hparted, hwarnings, hfile, hdisk image _ (fun htemporary => by cases htemporary)⟩
  · obtain ⟨before, label, text, more, reason, -, -, -, houtcome, -⟩ :=
      (plot_decides { row with texts := row.texts ++ [("v", long)] } painter).1
        ⟨("v", long), by simp, hlong⟩
    exact ⟨_, houtcome⟩

end PlotRequest

end LinearCalc
