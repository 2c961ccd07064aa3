import Docwright.Proofs.Component.Requests
import Docwright.Proofs.Program.Steps

/-!
# The overview is accounted for

Whatever the services answer, a run that asks for the overview leaves a disk on which all
is accounted for: the overview is written only when a text for it was received. If no
answer is an interruption the run ends well, unless the notes or the pages are to be
listed and are no folder.
-/

namespace Docwright.Overview

open Docwright.Disk
open Docwright.Job
open Docwright.Path
open Docwright.Program

variable {disk : Disk} {services : Services} {known : List (Request × Json.Value)}
  {reason : Fault → Prop}

theorem complete_step (model maxTokens : Json.Value) (prompt : String) :
    Brings (Knows disk services known) (complete model (.str prompt) maxTokens)
      (fun given => Knows disk services
        (answered (.write model maxTokens (.str prompt)) given.present? ++ known))
      (Stopped disk services reason) := by
  apply Brings.bind (M := fun _ => Knows disk services known) (Brings.pure fun _ h => h)
  intro length
  apply say_step
  apply request_step
  · intro known given
    exact Brings.bind (lengthOf_catchable _ given) fun length => say_last _
  · exact fun known code body => say_last _

theorem loadBlock_step (folder name : String) :
    Brings (Knows disk services known) (loadBlock folder name)
      (fun _ => Knows disk services known) (Stopped disk services reason) := by
  apply attempt_step (failed_of_catchable (readText_catchable _ _))
  · exact fun content => say_step _ (Brings.pure fun _ h => h)
  · exact fun fault => say_step _ (Brings.pure fun _ h => h)

theorem loadStructure_step (settings : Settings) :
    Brings (Knows disk services known) (loadStructure settings)
      (fun _ => Knows disk services known) (Stopped disk services reason) := by
  apply Brings.hasItem_bind
  intro found
  split
  · exact say_step _ (Brings.pure fun _ h => h)
  · apply attempt_step (failed_of_catchable (readJson_catchable _ _))
    · exact fun value => say_step _ (Brings.pure fun _ h => h)
    · exact fun fault => say_step _ (Brings.pure fun _ h => h)

theorem loadFolder_step {path folder : String} (htop : IsTopFolder path folder)
    (houtput : IsOutputFolder [folder]) :
    Brings (Knows disk services known) (loadFolder path) (fun _ => Knows disk services known)
      (Stopped disk services fun _ => ¬ OutputsOpen disk) := by
  apply present_step htop fun site h => h.accounts.plain
  · apply Brings.bind (M := fun _ site =>
      Knows disk services known site ∧ site.disk.get? [folder] ≠ none)
    · exact .intro fun site h => ⟨h.1.spoken rfl, h.2⟩
    · intro _
      apply Brings.bind (list_step htop houtput)
      intro names
      apply Brings.bind
      · apply Brings.mapM fun _ _ => True
        exact fun name _ => (loadBlock_step path name).imp (fun _ h => h) (fun _ _ h => ⟨trivial, h⟩)
          fun _ _ h => h
      · exact fun blocks => Brings.pure fun _ h => h.2
  · exact say_step _ (Brings.pure fun _ h => h)

theorem assemble_step (settings : Settings) (digest : Digest) {E : Fault → Site → Prop} :
    Brings (Knows disk services known) (assemble settings digest)
      (fun _ => Knows disk services known) E := by
  apply Brings.intro
  intro site h
  obtain ⟨left, happly, hspoken⟩ := assemble_apply settings digest site
  rw [happly]
  exact h.spoken hspoken

/-- Notes, pages and overview are at their usual places. -/
structure Settings.IsUsual (settings : Settings) : Prop where
  notesFolder : settings.notesFolder = "./file_notes"
  pageFolder : settings.pageFolder = "./intermediate_docs"
  overviewFolder : settings.overviewFolder = "./high-level-overview"

theorem isUsual (model maxTokens : Json.Value) (budget : Int) :
    Settings.IsUsual { model := model, maxTokens := maxTokens, budget := budget } :=
  ⟨rfl, rfl, rfl⟩

theorem isTopFolder_overview : IsTopFolder "./high-level-overview" "high-level-overview" :=
  ⟨by decide, isName_iff.1 (by decide)⟩

section Run

variable {settings : Settings} (husual : settings.IsUsual)

include husual

theorem loadDigest_step :
    Brings (Knows disk services known) (loadDigest settings) (fun _ => Knows disk services known)
      (Stopped disk services fun _ => ¬ OutputsOpen disk) := by
  unfold loadDigest
  rw [husual.notesFolder, husual.pageFolder]
  apply Brings.bind (loadStructure_step settings)
  intro structureText
  apply Brings.bind (loadFolder_step isTopFolder_notes (by simp [IsOutputFolder]))
  intro notes
  apply Brings.bind (loadFolder_step Component.isTopFolder_pages (by simp [IsOutputFolder]))
  exact fun pages => Brings.pure fun _ h => h

theorem save_step {overview : Json.Value}
    (hdrawn : Drawn known ["high-level-overview", "project_overview.md"] overview) :
    Brings (Knows disk services known) (save settings overview) (fun _ => Knows disk services known)
      (Stopped disk services reason) := by
  have hpath : LeadsTo (Path.join settings.overviewFolder "project_overview.md")
      ["high-level-overview", "project_overview.md"] := by
    rw [husual.overviewFolder]
    exact ⟨by decide, by simp [IsStep]⟩
  apply attempt_step (M := fun _ => Knows disk services known)
  · apply Brings.bind (document_step hpath hdrawn)
    intro _
    apply Brings.bind (failed_of_catchable (lengthOf_catchable _ overview))
    exact fun length => say_last _
  · exact fun _ => Brings.pure fun _ h => h
  · exact fun fault => say_last _

/-- A run leaves all accounted for, and stops early only if a folder that it lists is no
folder. -/
theorem run_accounts :
    Brings (Accounts disk services) (run settings) (fun _ => Accounts disk services)
      (Stopped disk services fun _ => ¬ OutputsOpen disk) := by
  have hrun : Brings (Knows disk services []) (run settings) (fun _ => Accounts disk services)
      (Stopped disk services fun _ => ¬ OutputsOpen disk) := by
    unfold run
    rw [husual.overviewFolder]
    apply open_step isTopFolder_overview (by simp [IsOutputFolder])
    apply say_step
    apply Brings.bind (loadDigest_step husual)
    intro digest
    apply Brings.bind (assemble_step settings digest)
    intro material
    apply say_step
    apply Brings.bind (complete_step _ _ _)
    intro given
    split
    · rename_i overview hpresent
      apply (save_step husual _).imp (fun _ h => h) (fun _ _ h => h.accounts) fun _ _ h => h
      exact .answer (.overview _ _ material) (mem_known_of_answer hpresent)
    · exact (say_last _).imp (fun _ h => h) (fun _ _ h => h.accounts) fun _ _ h => h
  exact hrun.imp (fun _ h => h.knows) (fun _ _ h => h) fun _ _ h => h

end Run

end Docwright.Overview
