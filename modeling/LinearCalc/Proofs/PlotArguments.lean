import LinearCalc.CommandLine.Settings
import Mathlib.Data.List.Nodup
import Mathlib.Data.List.Perm.Subperm

set_option autoImplicit false

/-! # Arguments of plots and their names

An argument of a plot has the name that comes with it, or the name of its place. As long as no two
arguments get the same name, each of them is plotted under its own name and in its own place; once
two of them do, one is lost. If the names that come with arguments all differ, this happens just
when one of them is the name of the place of an argument without a name (`NameTaken`,
`CommandLine.plotTexts_complete`), as in `v2=5` and `[1,1]` (`CommandLine.plotTexts_replaces`).
-/

namespace LinearCalc

/-! ## Labelling one after the other -/

namespace Labelled

variable {α : Type}

theorem nodup_labels_put {l : Labelled α} (h : l.labels.Nodup) (label : String) (a : α) :
    (l.put label a).labels.Nodup := by
  rw [labels_put]
  split
  · exact h
  · rename_i hnew
    rw [← List.concat_eq_append]
    exact h.concat hnew

/-- **No label comes twice**, and none comes from elsewhere. -/
theorem labels_foldl_put (entries : List (String × α)) (l : Labelled α) (h : l.labels.Nodup) :
    (labels (entries.foldl (fun l entry => l.put entry.1 entry.2) l)).Nodup ∧
      labels (entries.foldl (fun l entry => l.put entry.1 entry.2) l)
        ⊆ l.labels ++ entries.map Prod.fst := by
  induction entries generalizing l with
  | nil => exact ⟨h, by simp⟩
  | cons entry entries ih =>
      obtain ⟨hnodup, hsubset⟩ := ih (l.put entry.1 entry.2) (nodup_labels_put h _ _)
      refine ⟨hnodup, ?_⟩
      intro label hlabel
      rcases List.mem_append.1 (hsubset hlabel) with hput | hlater
      · rcases mem_labels_put.1 hput with hold | rfl
        · exact List.mem_append_left _ hold
        · exact List.mem_append_right _ List.mem_cons_self
      · exact List.mem_append_right _ (List.mem_cons_of_mem _ hlater)

theorem foldl_put_of_nodup (entries : List (String × α)) (l : Labelled α)
    (h : (l.labels ++ entries.map Prod.fst).Nodup) :
    entries.foldl (fun l entry => l.put entry.1 entry.2) l = l ++ entries := by
  induction entries generalizing l with
  | nil => exact (List.append_nil l).symm
  | cons entry entries ih =>
      have hnew : entry.1 ∉ l.labels := by
        intro hmem
        exact (List.nodup_append.1 h).2.2 _ hmem _ List.mem_cons_self rfl
      have hnext : labels (l ++ [entry]) ++ entries.map Prod.fst
          = l.labels ++ (entry :: entries).map Prod.fst := by
        simp
      rw [List.foldl_cons, put_of_notMem hnew, ih _ (hnext ▸ h), List.append_assoc]
      rfl

/-- **Entries with different labels all stay**, in their order. -/
theorem ofList_of_nodup {entries : List (String × α)} (h : (entries.map Prod.fst).Nodup) :
    ofList entries = entries :=
  foldl_put_of_nodup entries [] h

/-- **If a label comes again, an entry is lost.** -/
theorem length_ofList_lt {entries : List (String × α)} (h : ¬ (entries.map Prod.fst).Nodup) :
    (ofList entries).length < entries.length := by
  obtain ⟨hnodup, hsubset⟩ := labels_foldl_put entries [] List.nodup_nil
  have hsub : (labels (ofList entries)).Subperm (entries.map Prod.fst) :=
    List.subperm_of_subset hnodup hsubset
  by_contra hge
  have hlength : (entries.map Prod.fst).length ≤ (labels (ofList entries)).length := by
    simpa using hge
  exact h ((hsub.perm_of_length_le hlength).nodup_iff.1 hnodup)

end Labelled

namespace CommandLine

/-! ## What an argument is made of -/

def givenName? (argument : String) : Option String := (splitArgument argument).1

def expressionOf (argument : String) : String := (splitArgument argument).2

/-- The first equals sign of an argument stands behind its name, and without one there is no name.
Blanks around a name or an expression do not count. -/
inductive Splits : String → Option String → String → Prop where
  | named (name text : String) (h : '=' ∉ name.toList) :
      Splits (name ++ "=" ++ text) (some (trimBlanks name)) (trimBlanks text)
  | unnamed (text : String) (h : '=' ∉ text.toList) : Splits text none (trimBlanks text)

/-- **Arguments are split at their first equals sign.** -/
theorem splits (argument : String) :
    Splits argument (givenName? argument) (expressionOf argument) := by
  unfold givenName? expressionOf splitArgument
  have hparts := List.takeWhile_append_dropWhile (p := (· != '=')) (l := argument.toList)
  have hhead := List.head?_dropWhile_not (· != '=') argument.toList
  have hname : '=' ∉ argument.toList.takeWhile (· != '=') := by
    intro hmem
    simpa using List.all_eq_true.1 List.all_takeWhile _ hmem
  dsimp only
  -- what is behind the name begins with the equals sign, unless there is none
  generalize argument.toList.dropWhile (· != '=') = behind at hparts hhead
  cases behind with
  | nil =>
      rw [List.append_nil] at hparts
      exact .unnamed argument (hparts ▸ hname)
  | cons sign text =>
      obtain rfl : sign = '=' := by simpa using hhead
      have hargument : argument
          = String.ofList (argument.toList.takeWhile (· != '=')) ++ "=" ++ String.ofList text := by
        apply String.toList_injective
        conv_lhs => rw [← hparts]
        simp
      have hsplits := Splits.named (String.ofList (argument.toList.takeWhile (· != '=')))
        (String.ofList text) (by rwa [String.toList_ofList])
      rwa [← hargument] at hsplits

/-! ## Names by place -/

/-- The name of an argument in a place: the one that comes with it, or the one of the place. -/
def nameAt (place : Nat) (argument : String) : String :=
  (givenName? argument).getD (placeName place)

theorem placeName_injective {i j : Nat} (h : placeName i = placeName j) : i = j := by
  have hdigits : Nat.toDigits 10 (i + 1) = Nat.toDigits 10 (j + 1) := by
    simpa [placeName, Nat.toString_eq_ofList_toDigits] using congrArg String.toList h
  have hplaces : i + 1 = j + 1 := by
    calc i + 1 = Nat.ofDigitChars 10 (Nat.toDigits 10 (i + 1)) 0 :=
          Nat.ofDigitChars_ten_toDigits.symm
      _ = Nat.ofDigitChars 10 (Nat.toDigits 10 (j + 1)) 0 := by rw [hdigits]
      _ = j + 1 := Nat.ofDigitChars_ten_toDigits
  exact Nat.succ.inj hplaces

theorem nameArguments_eq_mapIdx (place : Nat) (arguments : List String) :
    nameArguments place arguments
      = arguments.mapIdx (fun i a => (nameAt (place + i) a, expressionOf a)) := by
  induction arguments generalizing place with
  | nil => rfl
  | cons argument more ih =>
      have hplace : ∀ i, place + 1 + i = place + (i + 1) := by omega
      rw [List.mapIdx_cons, nameArguments, ih]
      simp only [hplace]
      rfl

/-- A name that comes with one argument is the one of the place of another argument, which comes
without a name. -/
def NameTaken (arguments : List String) : Prop :=
  ∃ i j : Fin arguments.length,
    givenName? arguments[i] = none ∧ givenName? arguments[j] = some (placeName i)

instance (arguments : List String) : Decidable (NameTaken arguments) :=
  inferInstanceAs (Decidable (∃ _ _, _))

/-- Two arguments with one name, if the names that come with arguments all differ: one of the two
has the name of its place, and the other one comes with it. -/
theorem nameTaken_of_nameAt_eq {arguments : List String}
    (h : (arguments.filterMap givenName?).Nodup) {i j : Nat} (hi : i < arguments.length)
    (hj : j < arguments.length) (hij : i < j)
    (heq : nameAt i arguments[i] = nameAt j arguments[j]) : NameTaken arguments := by
  have hdiffer := List.pairwise_iff_getElem.1 (List.pairwise_filterMap.1 h) i j hi hj hij
  unfold nameAt at heq
  -- names of places are all different, and so are the given ones: only a name of each kind may be
  -- the same
  cases hleft : givenName? arguments[i] with
  | none =>
      cases hright : givenName? arguments[j] with
      | none =>
          rw [hleft, hright] at heq
          exact absurd (placeName_injective heq) (Nat.ne_of_lt hij)
      | some name =>
          rw [hleft, hright] at heq
          exact ⟨⟨i, hi⟩, ⟨j, hj⟩, hleft, hright.trans (congrArg some heq.symm)⟩
  | some name =>
      cases hright : givenName? arguments[j] with
      | none =>
          rw [hleft, hright] at heq
          exact ⟨⟨j, hj⟩, ⟨i, hi⟩, hright, hleft.trans (congrArg some heq)⟩
      | some other =>
          rw [hleft, hright] at heq
          exact absurd heq (hdiffer name hleft other hright)

/-- **The names of arguments all differ** just when no name that comes with an argument is taken
from a place. -/
theorem nodup_names_iff {arguments : List String} (h : (arguments.filterMap givenName?).Nodup) :
    (arguments.mapIdx nameAt).Nodup ↔ ¬ NameTaken arguments := by
  constructor
  · rintro hnodup ⟨⟨i, hi⟩, ⟨j, hj⟩, hunnamed, hnamed⟩
    dsimp only [Fin.getElem_fin] at hunnamed hnamed
    have hleft : i < (arguments.mapIdx nameAt).length := by simpa using hi
    have hright : j < (arguments.mapIdx nameAt).length := by simpa using hj
    have hsame : (arguments.mapIdx nameAt)[i] = (arguments.mapIdx nameAt)[j] := by
      simp [nameAt, hunnamed, hnamed]
    -- one argument would have a name and have none
    obtain rfl : i = j := hnodup.getElem_inj_iff.1 hsame
    rw [hunnamed] at hnamed
    cases hnamed
  · intro hfree
    rw [List.nodup_iff_pairwise_ne, List.pairwise_iff_getElem]
    intro i j hi hj hij heq
    rw [List.getElem_mapIdx, List.getElem_mapIdx] at heq
    exact hfree (nameTaken_of_nameAt_eq h (by simpa using hi) (by simpa using hj) hij heq)

/-! ## What is plotted -/

/-- **Every argument is plotted, or a name is taken.** Arguments whose given names all differ are
plotted one by one in their order, each under its name, unless a given name is the one of a place
whose argument has no name. Then there is less to plot than there are arguments. -/
theorem plotTexts_complete (arguments : List String)
    (h : (arguments.filterMap givenName?).Nodup) :
    (∀ a ∈ arguments, Splits a (givenName? a) (expressionOf a)) ∧
    (plotTexts arguments).labels.Nodup ∧
    (¬ NameTaken arguments →
      plotTexts arguments = arguments.mapIdx (fun i a => (nameAt i a, expressionOf a))) ∧
    (NameTaken arguments → (plotTexts arguments).length < arguments.length) := by
  have hentries : nameArguments 0 arguments
      = arguments.mapIdx (fun i a => (nameAt i a, expressionOf a)) := by
    simpa using nameArguments_eq_mapIdx 0 arguments
  have hnames : (nameArguments 0 arguments).map Prod.fst = arguments.mapIdx nameAt := by
    rw [hentries]
    exact List.ext_getElem (by simp) (by simp)
  have hlength : (nameArguments 0 arguments).length = arguments.length := by
    rw [hentries, List.length_mapIdx]
  refine ⟨fun a _ => splits a, ?_, ?_, ?_⟩
  · exact (Labelled.labels_foldl_put _ [] List.nodup_nil).1
  -- all names differ, so no entry is put in the place of another
  · intro hfree
    rw [plotTexts, Labelled.ofList_of_nodup, hentries]
    rw [hnames, nodup_names_iff h]
    exact hfree
  · intro htaken
    rw [← hlength]
    refine Labelled.length_ofList_lt ?_
    rw [hnames, nodup_names_iff h]
    exact not_not_intro htaken

/-- The name `v3` is free: the argument in the third place has a name of its own. -/
theorem plotTexts_complete_named :
    (["v3=[1]", " [2]", "a = [3;4]"].filterMap givenName?).Nodup ∧
    plotTexts ["v3=[1]", " [2]", "a = [3;4]"] = [("v3", "[1]"), ("v2", "[2]"), ("a", "[3;4]")] := by
  have hnodup : (["v3=[1]", " [2]", "a = [3;4]"].filterMap givenName?).Nodup := by
    decide +kernel
  have hfree : ¬ NameTaken ["v3=[1]", " [2]", "a = [3;4]"] := by decide +kernel
  refine ⟨hnodup, ((plotTexts_complete _ hnodup).2.2.1 hfree).trans ?_⟩
  decide +kernel

/-- The name `v2` is taken by the first argument, and the second one replaces it. -/
theorem plotTexts_replaces :
    (["v2=5", "[1,1]"].filterMap givenName?).Nodup ∧
    plotTexts ["v2=5", "[1,1]"] = [("v2", "[1,1]")] ∧
    ¬ ∀ arguments : List String, (arguments.filterMap givenName?).Nodup →
      (plotTexts arguments).map Prod.snd = arguments.map expressionOf := by
  have hnodup : (["v2=5", "[1,1]"].filterMap givenName?).Nodup := by decide +kernel
  have hlost : plotTexts ["v2=5", "[1,1]"] = [("v2", "[1,1]")] := by decide +kernel
  refine ⟨hnodup, hlost, ?_⟩
  intro hall
  have hkept := congrArg List.length (hall _ hnodup)
  rw [hlost] at hkept
  cases hkept

end CommandLine
end LinearCalc
