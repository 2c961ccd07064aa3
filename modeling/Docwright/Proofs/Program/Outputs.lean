import Docwright.Program
import Docwright.Proofs.Component.Course
import Docwright.Proofs.Disk.Access
import Docwright.Proofs.Manual.Course
import Docwright.Proofs.Notes.Course
import Docwright.Proofs.Overview.Course
import Docwright.Proofs.Survey.Course

/-!
# What the programs write

The programs make five folders and write the structure file, files directly in
three of the folders, and two files about the whole project. Of these, notes and
sections are written once and the others may be written again. `outputs` is that
scope. Every program grows the disk within it, whatever it reads and whatever the
services answer, if its results go to the usual places.
-/

namespace Docwright

open Docwright.Disk
open Docwright.Job
open Docwright.Path

namespace ReferenceIndex

/-- The folder of the index is made if it is missing; what the service saves in it
is not on the disk. -/
theorem run_growsDisk {scope : Scope} {settings : Settings}
    (hmake : GrowsDisk scope (makeFolders settings.indexFolder)) :
    GrowsDisk scope (run settings) := by
  refine Respects.bind (.of_still (hasItem_still _)) fun found => ?_
  cases found with
  | false => exact (say_keeps_disk _).respects
  | true =>
      refine Respects.bind (say_keeps_disk _).respects fun _ => ?_
      refine Respects.bind (ask_keeps_disk _).respects fun _ => ?_
      refine Respects.bind (.of_still get_still) fun site => ?_
      refine Respects.bind (.of_still (ofAnswer_still _)) fun documents => ?_
      split
      · exact (say_keeps_disk _).respects
      · refine Respects.bind (say_keeps_disk _).respects fun _ => ?_
        refine Respects.bind (say_keeps_disk _).respects fun _ => ?_
        refine Respects.bind (ask_keeps_disk _).respects fun _ => ?_
        refine Respects.bind (.of_still get_still) fun site => ?_
        refine Respects.bind (.of_still (ofAnswer_still _)) fun _ => ?_
        refine Respects.bind (say_keeps_disk _).respects fun _ => ?_
        refine Respects.bind (.of_still (hasItem_still _)) fun found => ?_
        cases found
        -- A missing folder is made first; the rest is the same.
        case' false => refine Respects.bind hmake fun _ => ?_
        all_goals
          refine Respects.bind (ask_keeps_disk _).respects fun _ => ?_
          refine Respects.bind (.of_still get_still) fun site => ?_
          exact Respects.bind (.of_still (ofAnswer_still _)) fun _ => (say_keeps_disk _).respects

end ReferenceIndex

namespace Program

/-- The places of the folders that programs make. -/
def IsOutputFolder : Place → Prop
  | [name] => name ∈ ["file_notes", "intermediate_docs", "high-level-overview",
      "final_documentation", "rag_index"]
  | _ => False

def IsProjectFile : Place → Prop
  | [name] => name = "repo_structure.json"
  | [folder, name] => folder = "high-level-overview" ∧
      name ∈ ["project_overview.md", "TABLE_OF_CONTENTS.md"]
  | _ => False

def IsChildOf (folder : String) (place : Place) : Prop := ∃ name, place = [folder, name]

/-- Where programs make folders, where they write files, and which of these they
write again. -/
def outputs : Scope where
  folder := IsOutputFolder
  file place := IsProjectFile place ∨ IsChildOf "file_notes" place ∨
    IsChildOf "intermediate_docs" place ∨ IsChildOf "final_documentation" place
  rewritable place := IsProjectFile place ∨ IsChildOf "intermediate_docs" place

theorem outputFolder_cases {name : String} (h : IsOutputFolder [name]) :
    name = "file_notes" ∨ name = "intermediate_docs" ∨ name = "high-level-overview" ∨
      name = "final_documentation" ∨ name = "rag_index" := by
  simpa [IsOutputFolder] using h

theorem leadsTo_outputFolder {path name : String} (h : IsOutputFolder [name])
    (hpath : path = "./" ++ name) :
    LeadsTo path [name] ∧ GrowsDisk outputs (makeFolders path) := by
  have hleads : LeadsTo path [name] := by
    rcases outputFolder_cases h with rfl | rfl | rfl | rfl | rfl
    all_goals
      rw [hpath]
      exact ⟨by decide, by simp [IsStep]⟩
  have hparts : parent path = "." ∧ (base path).isEmpty = false := by
    rcases outputFolder_cases h with rfl | rfl | rfl | rfl | rfl
    all_goals
      rw [hpath]
      decide
  exact ⟨hleads, makeFolders_growsDisk hleads h hparts.1 hparts.2⟩

theorem survey_growsDisk {settings : Survey.Settings}
    (h : settings.structureFile = "./repo_structure.json") :
    GrowsDisk outputs (Survey.run settings) := by
  have hpath : LeadsTo settings.structureFile ["repo_structure.json"] := h ▸ leadsTo_structure
  exact (Survey.run_onlyWrites settings).growsDisk hpath (Or.inl rfl) (Or.inl rfl)

theorem notes_growsDisk {settings : Notes.Settings} (h : settings.notesFolder = "./file_notes") :
    GrowsDisk outputs (Notes.run settings) := by
  have hname : IsOutputFolder ["file_notes"] := by simp [IsOutputFolder]
  obtain ⟨hfolder, hmake⟩ := leadsTo_outputFolder hname (h.trans (by decide))
  exact Notes.run_growsDisk hfolder (fun _ => Or.inr (Or.inl ⟨_, rfl⟩)) hmake

theorem referenceIndex_growsDisk {settings : ReferenceIndex.Settings}
    (h : settings.indexFolder = "./rag_index") :
    GrowsDisk outputs (ReferenceIndex.run settings) := by
  have hname : IsOutputFolder ["rag_index"] := by simp [IsOutputFolder]
  exact ReferenceIndex.run_growsDisk (leadsTo_outputFolder hname (h.trans (by decide))).2

theorem components_growsDisk {settings : Component.Settings}
    (h : settings.pageFolder = "./intermediate_docs") :
    GrowsDisk outputs (Component.run settings) := by
  have hname : IsOutputFolder ["intermediate_docs"] := by simp [IsOutputFolder]
  obtain ⟨hfolder, hmake⟩ := leadsTo_outputFolder hname (h.trans (by decide))
  exact Component.run_growsDisk hfolder
    (fun _ => ⟨Or.inr (Or.inr (Or.inl ⟨_, rfl⟩)), Or.inr ⟨_, rfl⟩⟩) hmake

theorem overview_growsDisk {settings : Overview.Settings}
    (h : settings.overviewFolder = "./high-level-overview") :
    GrowsDisk outputs (Overview.run settings) := by
  have hname : IsOutputFolder ["high-level-overview"] := by simp [IsOutputFolder]
  have hproject : IsProjectFile ["high-level-overview", "project_overview.md"] := by
    simp [IsProjectFile]
  obtain ⟨hfolder, hmake⟩ := leadsTo_outputFolder hname (h.trans (by decide))
  refine Overview.run_growsDisk hmake ?_ ⟨Or.inl hproject, Or.inl hproject⟩
  exact hfolder.join (by simp [IsStep]) (by decide)

theorem manual_growsDisk {settings : Manual.Settings}
    (h : settings.manualFolder = "./final_documentation")
    (hcontents : settings.contentsFile = "./high-level-overview/TABLE_OF_CONTENTS.md") :
    GrowsDisk outputs (Manual.run settings) := by
  have hname : IsOutputFolder ["final_documentation"] := by simp [IsOutputFolder]
  have hproject : IsProjectFile ["high-level-overview", "TABLE_OF_CONTENTS.md"] := by
    simp [IsProjectFile]
  obtain ⟨hfolder, hmake⟩ := leadsTo_outputFolder hname (h.trans (by decide))
  have hfile : LeadsTo settings.contentsFile ["high-level-overview", "TABLE_OF_CONTENTS.md"] := by
    rw [hcontents]
    exact ⟨by decide, by simp [IsStep]⟩
  exact Manual.run_growsDisk hfolder (fun _ => Or.inr (Or.inr (Or.inr ⟨_, rfl⟩))) hmake hfile
    ⟨Or.inl hproject, Or.inl hproject⟩

theorem connected_growsDisk (report : Fault → List String) {job : Job Unit}
    (h : GrowsDisk outputs job) : GrowsDisk outputs (connected report job) := by
  have hconnect : GrowsDisk outputs (do ofAnswer (← get).services.connection) :=
    Respects.bind (.of_still get_still) fun _ => .of_still (ofAnswer_still _)
  refine Respects.bind (.attempt hconnect) fun result => ?_
  cases result with
  | ok done => exact h
  | error fault =>
      refine Respects.bind (Respects.forM (fun line => ?_) _) fun _ => .throw _
      exact (say_keeps_disk line).respects

theorem draftKey_keeps_disk (environment : Environment) :
    Keeps Site.disk (draftKey environment) := by
  unfold draftKey
  split
  · exact Respects.pure _
  · refine Respects.bind (say_keeps_disk _) fun _ => ?_
    split
    · exact Respects.pure _
    · exact Respects.bind (say_keeps_disk _) fun _ => .throw _

/-- Every program makes the disk grow within its outputs. -/
theorem run_growsDisk (environment : Environment) (program : Program) :
    GrowsDisk outputs (run environment program) := by
  cases program with
  | survey => exact survey_growsDisk rfl
  | notes => exact connected_growsDisk _ (notes_growsDisk rfl)
  | referenceIndex => exact referenceIndex_growsDisk rfl
  | components => exact connected_growsDisk _ (components_growsDisk rfl)
  | overview => exact connected_growsDisk _ (overview_growsDisk rfl)
  | manual =>
      refine Respects.bind (draftKey_keeps_disk environment).respects fun key => ?_
      refine Respects.bind (ask_keeps_disk _).respects fun _ => ?_
      refine Respects.bind (ask_keeps_disk _).respects fun _ => ?_
      exact manual_growsDisk rfl rfl

end Program

end Docwright
