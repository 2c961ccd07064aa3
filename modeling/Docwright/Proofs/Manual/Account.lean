import Docwright.Proofs.Manual.TakenUp
import Docwright.Proofs.Program.Steps

/-!
# The manual is accounted for

Whatever the services answer, a run that writes the manual leaves a disk on which all is
accounted for: the table of contents and the sections are written only when a text for
them was received. If no answer is an interruption the run ends well.
-/

namespace Docwright.Manual

open Docwright.Disk
open Docwright.Job
open Docwright.Path
open Docwright.Program

variable {disk : Disk} {services : Services} {known : List (Request × Json.Value)}
  {reason : Fault → Prop}

theorem loadFile_step (path : String) :
    Brings (Knows disk services known) (loadFile path) (fun _ => Knows disk services known)
      (Stopped disk services reason) := by
  apply Brings.hasItem_bind
  intro found
  split
  · exact say_step _ (Brings.pure fun _ h => h)
  · apply attempt_step (failed_of_catchable (readText_catchable _ path))
    · exact fun text => Brings.pure fun _ h => h
    · exact fun fault => say_step _ (Brings.pure fun _ h => h)

theorem saveSection_step {title path text : String}
    (hpath : LeadsTo path ["final_documentation", sectionName title])
    (hdrawn : Drawn known ["final_documentation", sectionName title] (.str text)) :
    Brings (Knows disk services known) (saveSection title path text)
      (fun _ => Knows disk services known) (Stopped disk services reason) := by
  apply attempt_step (document_step hpath hdrawn)
  · exact fun _ => say_last _
  · exact fun fault => say_last _

theorem savedContents_step (settings : Settings) :
    Brings (Knows disk services known) (savedContents settings)
      (fun _ => Knows disk services known) (Stopped disk services reason) := by
  apply say_step
  apply Brings.hasItem_bind
  intro found
  split
  · exact say_step _ (Brings.pure fun _ h => h)
  · apply say_step
    apply Brings.bind (loadFile_step _)
    intro contents?
    split
    · exact Brings.pure fun _ h => h
    · exact say_step _ (Brings.pure fun _ h => h)

theorem readContents_step (contents : String) {E : Fault → Site → Prop} :
    Brings (Knows disk services known) (readContents contents)
      (fun _ => Knows disk services known) E := by
  apply Brings.intro
  intro site h
  obtain ⟨hresult, hspoken⟩ := readContents_ends contents site
  rw [apply_eq_ok hresult]
  exact h.spoken hspoken

/-- Table of contents and sections are at their usual places. -/
structure Settings.IsUsual (settings : Settings) : Prop where
  contentsFile : settings.contentsFile = "./high-level-overview/TABLE_OF_CONTENTS.md"
  manualFolder : settings.manualFolder = "./final_documentation"

theorem isUsual (model : Json.Value) : Settings.IsUsual { model := model } := ⟨rfl, rfl⟩

section Run

variable {settings : Settings} (husual : settings.IsUsual)

include husual

theorem writeSection_step (overview contents title : String) :
    Brings (Knows disk services known) (writeSection settings overview contents title)
      (fun _ => Knows disk services known) (Stopped disk services reason) := by
  have hfolder : LeadsTo settings.manualFolder ["final_documentation"] := by
    rw [husual.manualFolder]
    exact isTopFolder_manual.leadsTo
  apply Brings.hasItem_bind
  intro found
  split
  · exact say_last _
  · apply Brings.bind (draft_step _ _)
    intro text?
    split
    · rename_i text htext
      apply (saveSection_step (leadsTo_sectionPath hfolder title) _).imp (fun _ h => h)
        (fun _ _ h => h.forget) fun _ _ h => h
      exact .answer (.manualSection title overview contents) (mem_known_of_draft htext)
    · exact (say_last _).imp (fun _ h => h) (fun _ _ h => h.forget) fun _ _ h => h

theorem writeSections_step (overview contents : String) (total number : Nat)
    (titles : List String) :
    Brings (Knows disk services known)
      (writeSections settings overview contents total number titles)
      (fun _ => Knows disk services known) (Stopped disk services reason) := by
  induction titles generalizing number with
  | nil => exact Brings.pure fun _ h => h
  | cons title rest ih =>
      apply say_step
      exact Brings.bind (writeSection_step husual overview contents title) fun _ => ih (number + 1)

theorem saveContents_step {contents : String}
    (hdrawn : Drawn known ["high-level-overview", "TABLE_OF_CONTENTS.md"] (.str contents)) :
    Brings (Knows disk services known) (saveContents settings contents)
      (fun _ => Knows disk services known) (Stopped disk services reason) := by
  have hpath : LeadsTo settings.contentsFile ["high-level-overview", "TABLE_OF_CONTENTS.md"] := by
    rw [husual.contentsFile]
    exact ⟨by decide, by simp [IsStep]⟩
  apply attempt_step (document_step hpath hdrawn)
  · exact fun _ => say_last _
  · exact fun fault => say_step _ (say_last _)

theorem obtainContents_step (overview : String) :
    Brings (Knows disk services known) (obtainContents settings overview)
      (fun _ => Knows disk services known) (Stopped disk services reason) := by
  apply Brings.bind (draft_step _ _)
  intro text?
  split
  · rename_i text htext
    apply Brings.bind
    · apply saveContents_step husual
      exact .answer (.contents overview) (mem_known_of_draft htext)
    · exact fun _ => Brings.pure fun _ h => h.forget
  · exact (savedContents_step settings).imp (fun _ h => h.forget) (fun _ _ h => h) fun _ _ h => h

theorem writeManual_step (overview contents : String) :
    Brings (Knows disk services known) (writeManual settings overview contents)
      (fun _ => Knows disk services known) (Stopped disk services reason) := by
  apply say_step
  apply Brings.bind (readContents_step contents)
  intro titles
  split
  · exact say_last _
  · exact Brings.bind (writeSections_step husual overview contents _ _ titles) fun _ => say_last _

/-- A run leaves all accounted for, and stops early only if it is interrupted. -/
theorem run_accounts :
    Brings (Accounts disk services) (run settings) (fun _ => Accounts disk services)
      (Stopped disk services fun _ => False) := by
  have hrun : Brings (Knows disk services []) (run settings) (fun _ => Knows disk services [])
      (Stopped disk services fun _ => False) := by
    unfold run
    rw [husual.manualFolder]
    apply Brings.bind (loadFile_step _)
    intro overview?
    split
    · exact say_last _
    · rename_i overview hoverview
      apply open_step isTopFolder_manual (by simp [IsOutputFolder])
      apply say_step
      apply Brings.bind (obtainContents_step husual overview)
      intro contents?
      cases contents? with
      | none => exact Brings.pure fun _ h => h
      | some contents => exact writeManual_step husual overview contents
  exact hrun.imp (fun _ h => h.knows) (fun _ _ h => h.accounts) fun _ _ h => h

end Run

end Docwright.Manual
