import LinearCalc.Plot
import Mathlib.Logic.Function.Basic

set_option autoImplicit false

/-! # Painting on the disk

`Drawing.paint` tells at once how painting ends and what is in the file of the drawing by then.
Here the painter goes from stage to stage instead, with the files of a disk as its state: a stage
that fails breaks off the work, and a handler around the stages that are watched removes the
temporary file. The two agree (`Drawing.paintOn_eq`). So a plot that fails leaves the files as they
were, unless the figure cannot be made, since nothing watches that stage (`Labelled.plotOn_fails`).
-/

namespace LinearCalc

/-! ## Files -/

/-- The files of a disk: what is in the file at a path, if there is one. -/
abbrev Disk := String → Option ByteArray

namespace Disk

/-- Writes a file. What was in it is gone. -/
def write (path : String) (content : ByteArray) (disk : Disk) : Disk :=
  Function.update disk path (some content)

def remove (path : String) (disk : Disk) : Disk := Function.update disk path none

@[simp] theorem write_write (path : String) (a b : ByteArray) (disk : Disk) :
    (disk.write path a).write path b = disk.write path b :=
  Function.update_idem _ _ _

/-- Removing a file that was not there before it was written leaves no trace of it. -/
theorem remove_write {path : String} {disk : Disk} (h : disk path = none) (content : ByteArray) :
    (disk.write path content).remove path = disk := by
  rw [write, remove, Function.update_idem, ← h, Function.update_eq_self]

end Disk

/-- Work on files that a fault may break off. It leaves the files as they are by then. -/
abbrev OnDisk := EStateM Fault Disk

namespace OnDisk

variable {α β : Type} {x : OnDisk α} {f : α → OnDisk β} {handler : Fault → OnDisk α}
  {disk disk' : Disk}

theorem bind_ok {a : α} (h : x.run disk = .ok a disk') :
    (x >>= f).run disk = (f a).run disk' := by
  rw [EStateM.run_bind, h]

theorem bind_error {fault : Fault} (h : x.run disk = .error fault disk') :
    (x >>= f).run disk = .error fault disk' := by
  rw [EStateM.run_bind, h]

theorem tryCatch_ok {a : α} (h : x.run disk = .ok a disk') :
    (tryCatch x handler).run disk = .ok a disk' := by
  change EStateM.tryCatch x handler disk = _
  delta EStateM.tryCatch
  rw [show x disk = .ok a disk' from h]

/-- The handler goes on with the files as the fault has left them. -/
theorem tryCatch_error {fault : Fault} (h : x.run disk = .error fault disk') :
    (tryCatch x handler).run disk = (handler fault).run disk' := by
  change EStateM.tryCatch x handler disk = _
  delta EStateM.tryCatch
  rw [show x disk = .error fault disk' from h]
  rfl

end OnDisk

/-! ## Stages on the disk -/

namespace Destination

/-- Makes the temporary file, without an image, if one is needed. -/
def prepare (d : Destination) : OnDisk Unit :=
  if d.temporary then modify (Disk.write d.path .empty) else pure ()

def discard (d : Destination) : OnDisk Unit :=
  if d.temporary then modify (Disk.remove d.path) else pure ()

def prepared (d : Destination) (disk : Disk) : Disk :=
  if d.temporary then disk.write d.path .empty else disk

theorem run_prepare (d : Destination) (disk : Disk) :
    d.prepare.run disk = .ok () (d.prepared disk) := by
  unfold prepare prepared
  cases d.temporary <;> rfl

/-- Removing the temporary file leaves the files as they were before there was one. -/
theorem run_discard {d : Destination} {disk : Disk}
    (hfresh : d.temporary = true → disk d.path = none) :
    d.discard.run (d.prepared disk) = .ok () disk := by
  unfold discard prepared
  cases htemporary : d.temporary with
  | false => rfl
  | true => exact congrArg (EStateM.Result.ok ()) (Disk.remove_write (hfresh htemporary) .empty)

/-- It makes no difference for a file that is written whether it was prepared. -/
theorem write_prepared (d : Destination) (image : ByteArray) (disk : Disk) :
    (d.prepared disk).write d.path image = disk.write d.path image := by
  unfold prepared
  cases d.temporary with
  | false => rfl
  | true => exact Disk.write_write d.path .empty image disk

end Destination

namespace Drawing

/-- Does the work of one stage. Only saving writes to the file, and only if it does not fail. -/
def perform (d : Drawing) (painter : Painter) (destination : Destination) (image : ByteArray)
    (stage : Stage) : OnDisk Unit :=
  match painter d stage with
  | some fault => throw fault
  | none => if stage = .save then modify (Disk.write destination.path image) else pure ()

/-- Paints a drawing stage by stage into its file, where `image` is to be in the end. -/
def paintOn (d : Drawing) (painter : Painter) (destination : Destination) (image : ByteArray) :
    OnDisk Outcome := do
  destination.prepare
  d.perform painter destination image .figure
  try
    forM d.watchedStages (d.perform painter destination image)
    pure { ok := true, result := some destination.path }
  catch fault =>
    destination.discard
    pure fault.outcome

variable {d : Drawing} {painter : Painter} {destination : Destination} {image : ByteArray}
  {disk : Disk}

theorem run_perform_fault {stage : Stage} {fault : Fault} (h : painter d stage = some fault) :
    (d.perform painter destination image stage).run disk = .error fault disk := by
  rw [perform, h]
  rfl

theorem run_perform_save (h : painter d .save = none) :
    (d.perform painter destination image .save).run disk =
      .ok () (disk.write destination.path image) := by
  rw [perform, h]
  rfl

theorem run_perform {stage : Stage} (h : painter d stage = none) (hsave : stage ≠ .save) :
    (d.perform painter destination image stage).run disk = .ok () disk := by
  rw [perform, h]
  simp only [if_neg hsave]
  rfl

/-- Stages before saving leave the files as they are, whether one of them fails or not. -/
theorem run_stages {stages : List Stage} (hsave : .save ∉ stages) :
    (forM stages (d.perform painter destination image)).run disk =
      match stages.findSome? (painter d) with
      | some fault => .error fault disk
      | none => .ok () disk := by
  induction stages with
  | nil => rfl
  | cons stage stages ih =>
      rw [List.mem_cons, not_or] at hsave
      rw [List.forM_cons, List.findSome?_cons]
      cases hstage : painter d stage with
      | some fault => exact OnDisk.bind_error (run_perform_fault hstage)
      | none =>
          rw [OnDisk.bind_ok (run_perform hstage (Ne.symm hsave.1))]
          exact ih hsave.2

/-- Of the stages that are watched only the last one saves. -/
theorem watchedStages_eq (d : Drawing) :
    ∃ stages, d.watchedStages = stages ++ [.save] ∧ Stage.save ∉ stages := by
  refine ⟨.axes :: (d.arrows.labels.map .arrows ++ [.legend]), ?_, ?_⟩
  · simp [watchedStages]
  · simp

/-- The stages that are watched write the image, or nothing at all. -/
theorem run_watchedStages :
    (forM d.watchedStages (d.perform painter destination image)).run disk =
      match d.watchedStages.findSome? (painter d) with
      | some fault => .error fault disk
      | none => .ok () (disk.write destination.path image) := by
  -- a fault before saving leaves the files alone, and so does one in saving itself
  obtain ⟨stages, hstages, hsave⟩ := d.watchedStages_eq
  rw [hstages, List.forM_append, List.findSome?_append]
  have hrun : (forM stages (d.perform painter destination image)).run disk = _ := run_stages hsave
  cases hfault : stages.findSome? (painter d) with
  | some fault =>
      rw [hfault] at hrun
      exact OnDisk.bind_error hrun
  | none =>
      rw [hfault] at hrun
      rw [OnDisk.bind_ok hrun, Option.none_or, List.findSome?_singleton, List.forM_cons]
      cases hlast : painter d .save with
      | some fault => exact OnDisk.bind_error (run_perform_fault hlast)
      | none => exact OnDisk.bind_ok (run_perform_save hlast)

end Drawing

/-! ## Agreement -/

/-- The files of a disk with that of a drawing as painting leaves it. -/
def ImageFile.put (path : String) (image : ByteArray) (disk : Disk) : ImageFile → Disk
  | .untouched => disk
  | .blank => disk.write path .empty
  | .image => disk.write path image

/-- The end of work on the files, after which a drawing has left this in its file. -/
def Destination.finish (d : Destination) (image : ByteArray) (disk : Disk) (file : ImageFile) :
    Except Fault Outcome → EStateM.Result Fault Disk Outcome
  | .ok outcome => .ok outcome (file.put d.path image disk)
  | .error fault => .error fault (file.put d.path image disk)

namespace Drawing

/-- **Painting stage by stage ends as `paint` tells**, if a temporary file is a new one. -/
theorem paintOn_eq (d : Drawing) (painter : Painter) (destination : Destination)
    (image : ByteArray) (disk : Disk)
    (hfresh : destination.temporary = true → disk destination.path = none) :
    (d.paintOn painter destination image).run disk =
      destination.finish image disk (d.paint painter destination).file
        ((d.paint painter destination).ending.outcome destination) := by
  unfold paintOn paint
  rw [OnDisk.bind_ok (destination.run_prepare disk)]
  cases hfigure : painter d .figure with
  | some fault =>
      -- outside the handler: the temporary file, if there is one, is there and blank
      rw [OnDisk.bind_error (run_perform_fault hfigure)]
      unfold Destination.prepared
      cases destination.temporary <;> rfl
  | none =>
      rw [OnDisk.bind_ok (run_perform hfigure (by decide))]
      have hrun : (forM d.watchedStages (d.perform painter destination image)).run
          (destination.prepared disk) = _ := run_watchedStages
      cases hfault : d.watchedStages.findSome? (painter d) with
      | some fault =>
          rw [hfault] at hrun
          rw [OnDisk.tryCatch_error (OnDisk.bind_error hrun)]
          exact OnDisk.bind_ok (Destination.run_discard hfresh)
      | none =>
          rw [hfault, destination.write_prepared] at hrun
          exact OnDisk.tryCatch_ok (OnDisk.bind_ok hrun)

end Drawing

/-! ## Ends of painting -/

def Drawing.stages (d : Drawing) : List Stage := .figure :: d.watchedStages

/-- Where no stage fails, the image is saved. -/
theorem Drawing.paint_saved {d : Drawing} {painter : Painter}
    (h : ∀ stage ∈ d.stages, painter d stage = none) (destination : Destination) :
    d.paint painter destination = ⟨.saved, .image⟩ := by
  have hwatched : d.watchedStages.findSome? (painter d) = none :=
    List.findSome?_eq_none_iff.2 (fun stage hstage => h stage (List.mem_cons_of_mem _ hstage))
  unfold paint
  rw [h .figure List.mem_cons_self, hwatched]

/-- Where painting fails at a stage that is watched, nothing is left and the fault is reported. -/
theorem Drawing.paint_failed {d : Drawing} {painter : Painter} (hfigure : painter d .figure = none)
    (hfault : ∃ stage ∈ d.stages, painter d stage ≠ none) (destination : Destination) :
    ∃ fault, d.paint painter destination = ⟨.failed fault, .untouched⟩ := by
  obtain ⟨stage, hstage, hne⟩ := hfault
  have hwatched : stage ∈ d.watchedStages := by
    rcases List.mem_cons.1 hstage with rfl | hwatched
    · exact absurd hfigure hne
    · exact hwatched
  unfold paint
  rw [hfigure]
  cases hsome : d.watchedStages.findSome? (painter d) with
  | none => exact absurd (List.findSome?_eq_none_iff.1 hsome stage hwatched) hne
  | some fault => exact ⟨fault, rfl⟩

/-! ## Plots that fail -/

namespace Labelled

/-- The drawing of the entries that stand for vectors of the plane. -/
def drawing (entries : Labelled (Expr Float)) (view : Viewport Float) (canvas : Canvas Pixels) :
    Drawing :=
  ⟨view, canvas, entries.drawable⟩

/-- Plots entries on the disk: draws those that stand for vectors of the plane, if there are any. -/
def plotOn (entries : Labelled (Expr Float)) (view : Viewport Float) (canvas : Canvas Pixels)
    (painter : Painter) (destination : Destination) (image : ByteArray) : OnDisk Outcome :=
  if entries.drawable.isEmpty then pure (.failure nothingToPlot)
  else (entries.drawing view canvas).paintOn painter destination image

theorem drawable_ne_nil {entries : Labelled (Expr Float)}
    (h : ∃ entry ∈ entries, entry.2.vectors?.isSome = true) : entries.drawable.isEmpty = false := by
  obtain ⟨entry, hentry, hvectors⟩ := h
  obtain ⟨vectors, hvectors⟩ := Option.isSome_iff_exists.1 hvectors
  have hdrawn : (entry.1, vectors) ∈ entries.drawable :=
    List.mem_filterMap.2 ⟨entry, hentry, by rw [hvectors]; rfl⟩
  exact List.isEmpty_eq_false_iff.2 (List.ne_nil_of_mem hdrawn)

/-- **A plot that fails leaves the files as they were and reports an error, unless it fails at the
figure.** A fault at any other stage is caught, the temporary file is removed again, and the fault
is told in the outcome. The figure is made before anything watches: its fault gets out, and a
temporary file stays behind. -/
theorem plotOn_fails (entries : Labelled (Expr Float)) (view : Viewport Float)
    (canvas : Canvas Pixels) (painter : Painter) (destination : Destination) (image : ByteArray)
    (disk : Disk) (hplottable : ∃ entry ∈ entries, entry.2.vectors?.isSome = true)
    (hfresh : destination.temporary = true → disk destination.path = none)
    (hfault : ∃ stage ∈ (entries.drawing view canvas).stages,
      painter (entries.drawing view canvas) stage ≠ none) :
    match painter (entries.drawing view canvas) .figure with
    | none =>
      ∃ outcome, (entries.plotOn view canvas painter destination image).run disk = .ok outcome disk
        ∧ outcome.ok = false ∧ outcome.error.isSome = true
    | some fault =>
      (entries.plotOn view canvas painter destination image).run disk =
        .error fault (destination.prepared disk) := by
  rw [plotOn, drawable_ne_nil hplottable, if_neg Bool.false_ne_true,
    Drawing.paintOn_eq _ _ _ _ _ hfresh]
  cases hfigure : painter (entries.drawing view canvas) .figure with
  | none =>
      obtain ⟨fault, hpaint⟩ := Drawing.paint_failed hfigure hfault destination
      rw [hpaint]
      refine ⟨fault.outcome, rfl, ?_, ?_⟩
      · cases fault <;> rfl
      · cases fault <;> rfl
  | some fault =>
      rw [Drawing.paint, hfigure]
      unfold Destination.prepared
      cases destination.temporary <;> rfl

/-- A row of one number, whose axes cannot be set up: the zoom is zero. -/
theorem plotOn_fails_zoom_zero :
    let entries : Labelled (Expr Float) := [("a", .matrix [[.number 1 ⟨1, 2⟩]] ⟨0, 3⟩)]
    ∃ outcome, (entries.plotOn ⟨⟨0, 0⟩, 0⟩ defaultCanvas (usualPainter "a.png" none)
      ⟨"a.png", true⟩ .empty).run (fun _ => none) = .ok outcome (fun _ => none)
      ∧ outcome.ok = false ∧ outcome.error.isSome = true :=
  plotOn_fails [("a", .matrix [[.number 1 ⟨1, 2⟩]] ⟨0, 3⟩)] ⟨⟨0, 0⟩, 0⟩ defaultCanvas
    (usualPainter "a.png" none) ⟨"a.png", true⟩ .empty (fun _ => none)
    ⟨_, List.mem_singleton_self _, by decide +kernel⟩ (fun _ => rfl)
    ⟨.axes, by simp [Drawing.stages, Drawing.watchedStages], by decide +kernel⟩

/-- A row of one number on a canvas of negative width: the plot breaks off with a fault, and leaves
the temporary file. -/
theorem plotOn_escapes :
    let entries : Labelled (Expr Float) := [("a", .matrix [[.number 1 ⟨1, 2⟩]] ⟨0, 3⟩)]
    let canvas : Canvas Pixels := ⟨.whole (-800), 600⟩
    ∃ fault disk, (entries.plotOn defaultViewport canvas (usualPainter "a.png" none)
      ⟨"a.png", true⟩ .empty).run (fun _ => none) = .error fault disk
      ∧ fault.message = "figure size must be positive finite not (-8.0, 6.0)"
      ∧ disk "a.png" = some .empty := by
  intro entries canvas
  let fault : Fault := .refused "figure size must be positive finite not (-8.0, 6.0)"
  have hfigure : usualPainter "a.png" none (entries.drawing defaultViewport canvas) .figure =
      some fault := by
    decide +kernel
  have hdrawable : entries.drawable.isEmpty = false := by decide +kernel
  refine ⟨fault, Disk.write "a.png" .empty (fun _ => none), ?_, rfl, Function.update_self _ _ _⟩
  rw [plotOn, hdrawable, if_neg Bool.false_ne_true, Drawing.paintOn_eq _ _ _ _ _ (fun _ => rfl),
    Drawing.paint, hfigure]
  rfl

end Labelled

end LinearCalc
