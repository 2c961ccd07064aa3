import Docwright.Component
import Docwright.Proofs.Disk.Growth
import Docwright.Proofs.Disk.Names

/-!
# The course of a component run

Notes are read and pages are asked for without a change of the disk. A page is
written under a name that is made from the last name of a path in the structure
file, whatever that path is, so directly in the folder of the pages.
-/

namespace Docwright.Component

open Docwright.Disk
open Docwright.Job
open Docwright.Path

theorem complete_keeps_disk (settings : Settings) (prompt : Json.Value) :
    Keeps Site.disk (complete settings prompt) :=
  OnlyAsks.keeps_disk
    (Completion.request_onlyAsks _ _ prompt (fun _ => .pure ()) fun _ _ => .pure ())

theorem loadJson_onlySpeaks (path : String) : OnlySpeaks (loadJson path) := by
  refine Respects.bind (.of_still (hasItem_still path)) fun found => ?_
  cases found with
  | false => exact Respects.bind (say_onlySpeaks _) fun _ => .pure _
  | true =>
      refine Respects.bind (.attempt (.of_still (readJson_still path))) fun result => ?_
      cases result with
      | ok value => exact Respects.pure value
      | error fault => exact Respects.bind (say_onlySpeaks _) fun _ => .pure _

theorem notesOn_keeps_disk (settings : Settings) (name : String) :
    Keeps Site.disk (notesOn settings name) := by
  refine Respects.bind (.of_still (hasItem_still _)) fun found => ?_
  cases found with
  | false => exact Respects.bind (say_keeps_disk _) fun _ => .pure _
  | true =>
      refine Respects.bind (.attempt (.of_still (readText_still _))) fun result => ?_
      cases result with
      | ok notes => exact Respects.pure _
      | error fault => exact Respects.bind (say_keeps_disk _) fun _ => .pure _

theorem pairPage_keeps_disk (settings : Settings) (headerPath sourcePath : String)
    (headerNotes sourceNotes : Option String) (header source : Json.Value) : Keeps Site.disk
      (pairPage settings headerPath sourcePath headerNotes sourceNotes header source) := by
  refine Respects.bind (.of_still (ofResult_still _)) fun headerOutline => ?_
  refine Respects.bind (.of_still (ofResult_still _)) fun sourceOutline => ?_
  exact Respects.bind (say_keeps_disk _) fun _ => complete_keeps_disk settings _

theorem singlePage_keeps_disk (settings : Settings) (path : String) (notes : Option String)
    (entry : Json.Value) : Keeps Site.disk (singlePage settings path notes entry) := by
  refine Respects.bind (.of_still (ofResult_still _)) fun outline => ?_
  exact Respects.bind (say_keeps_disk _) fun _ => complete_keeps_disk settings _

theorem save_onlyWrites (progress : Progress) (word path : String) (page : Json.Value) :
    OnlyWrites path (save progress word path page) := by
  refine Respects.bind_keeps (.attempt (writeValue_onlyWrites _ _)) fun result => ?_
  cases result with
  | ok done => exact Respects.bind (say_keeps_disk _) fun _ => .pure _
  | error fault => exact Respects.bind (say_keeps_disk _) fun _ => .pure _

section Run

variable {scope : Scope} {place : Place} {settings : Settings}
  (hfolder : LeadsTo settings.pageFolder place)
  (hscope : ∀ name, scope.file (place ++ [name]) ∧ scope.rewritable (place ++ [name]))

include hfolder hscope

/-- A page is saved directly in the folder of the pages. -/
theorem savePage_growsDisk {name ending : String} (hname : '/' ∉ name.toList)
    (hending : '/' ∉ ending.toList) (hlong : 2 < ending.length) (progress : Progress)
    (word : String) (page : Json.Value) : GrowsDisk scope
      (save progress word (Path.join settings.pageFolder (name ++ ending)) page) := by
  have hpath := hfolder.join_append hname hending hlong
  exact (save_onlyWrites progress word _ page).growsDisk hpath (hscope _).1 (hscope _).2

theorem handlePair_growsDisk (progress : Progress) (headerPath sourcePath : String)
    (header source : Json.Value) :
    GrowsDisk scope (handlePair settings progress headerPath sourcePath header source) := by
  have hstem : '/' ∉ (Path.stem (Path.base headerPath)).toList :=
    fun hslash => not_mem_base headerPath (mem_of_mem_stem hslash)
  refine Respects.bind (say_keeps_disk _).respects fun _ => ?_
  refine Respects.bind (notesOn_keeps_disk settings _).respects fun headerNotes => ?_
  refine Respects.bind (notesOn_keeps_disk settings _).respects fun sourceNotes => ?_
  split
  · exact Respects.bind (say_keeps_disk _).respects fun _ => .pure _
  · refine Respects.bind (pairPage_keeps_disk settings _ _ _ _ _ _).respects fun page => ?_
    split
    · refine Respects.bind ?_ fun progress => .pure _
      exact savePage_growsDisk hfolder hscope hstem (by decide) (by decide) progress _ _
    · exact Respects.bind (say_keeps_disk _).respects fun _ => .pure _

theorem handleSingle_growsDisk (progress : Progress) (path : String) (entry : Json.Value) :
    GrowsDisk scope (handleSingle settings progress path entry) := by
  refine Respects.bind (notesOn_keeps_disk settings _).respects fun notes => ?_
  split
  · exact Respects.bind (say_keeps_disk _).respects fun _ => .pure _
  · refine Respects.bind (singlePage_keeps_disk settings _ _ _).respects fun page => ?_
    split
    · refine Respects.bind ?_ fun progress => .pure _
      exact savePage_growsDisk hfolder hscope (not_mem_base path) (by decide) (by decide) progress _ _
    · exact Respects.bind (say_keeps_disk _).respects fun _ => .pure _

theorem pairRound_growsDisk (files : List (String × Json.Value)) (progress : Progress)
    (file : String × Json.Value) : GrowsDisk scope (pairRound settings files progress file) := by
  obtain ⟨path, entry⟩ := file
  unfold pairRound
  dsimp only
  split
  · exact Respects.pure progress
  · split
    · split
      · exact handlePair_growsDisk hfolder hscope progress path _ entry _
      · exact Respects.pure progress
    · exact Respects.pure progress

theorem singleRound_growsDisk (progress : Progress) (file : String × Json.Value) :
    GrowsDisk scope (singleRound settings progress file) := by
  obtain ⟨path, entry⟩ := file
  unfold singleRound
  dsimp only
  split
  · exact Respects.pure progress
  · split
    · exact handleSingle_growsDisk hfolder hscope progress path entry
    · exact Respects.pure progress

theorem document_growsDisk (files : List (String × Json.Value)) :
    GrowsDisk scope (document settings files) := by
  refine Respects.bind (.foldlM files ?_ _) fun progress => ?_
  · exact fun file _ progress => pairRound_growsDisk hfolder hscope files progress file
  refine Respects.bind (say_keeps_disk _).respects fun _ => ?_
  refine Respects.bind (.foldlM files ?_ _) fun progress => (say_keeps_disk _).respects
  exact fun file _ progress => singleRound_growsDisk hfolder hscope progress file

/-- Pages are written directly in their folder, which is made if it is missing. -/
theorem run_growsDisk (hmake : GrowsDisk scope (makeFolders settings.pageFolder)) :
    GrowsDisk scope (run settings) := by
  have hload : Keeps Site.disk (loadJson settings.structureFile) :=
    (loadJson_onlySpeaks _).keeps fun _ _ => rfl
  refine Respects.bind hload.respects fun listing => ?_
  cases listing.isPresent with
  | false => exact (say_keeps_disk _).respects
  | true =>
      refine Respects.bind (.of_still (hasItem_still _)) fun found => ?_
      cases found
      -- A missing folder is made first; the rest is the same.
      case' false =>
        refine Respects.bind hmake fun _ => Respects.bind (say_keeps_disk _).respects fun _ => ?_
      all_goals
        refine Respects.bind (say_keeps_disk _).respects fun _ => ?_
        split
        · exact document_growsDisk hfolder hscope _
        · exact Respects.throw _

end Run

end Docwright.Component
