import Docwright.Proofs.Disk.Growth
import Docwright.Proofs.Manual.Drafting
import Docwright.Proofs.Manual.SectionName

/-!
# The course of a manual run

The overview and a saved table of contents are read, and texts are drafted,
without a change of the disk. The table of contents is written at its own path,
and a section only if there is no file of its name.
-/

namespace Docwright.Manual

open Docwright.Disk
open Docwright.Job
open Docwright.Path

theorem loadFile_onlySpeaks (path : String) : OnlySpeaks (loadFile path) := by
  refine Respects.bind (.of_still (hasItem_still path)) fun found => ?_
  cases found with
  | false => exact Respects.bind (say_onlySpeaks _) fun _ => .pure _
  | true =>
      refine Respects.bind (.attempt (.of_still (readText_still path))) fun result => ?_
      cases result with
      | ok text => exact Respects.pure _
      | error fault => exact Respects.bind (say_onlySpeaks _) fun _ => .pure _

theorem readContents_onlySpeaks (contents : String) : OnlySpeaks (readContents contents) := by
  have hlast : OnlySpeaks (do
      let titles := sectionTitles contents
      say <| s!"Parsed ToC. Found {titles.length} sections: " ++ Text.quoteList titles
      return titles) := Respects.bind (say_onlySpeaks _) fun _ => .pure _
  unfold readContents
  dsimp only
  split
  · exact Respects.bind (say_onlySpeaks _) fun _ => hlast
  · exact hlast

theorem savedContents_onlySpeaks (settings : Settings) : OnlySpeaks (savedContents settings) := by
  refine Respects.bind (say_onlySpeaks _) fun _ => ?_
  refine Respects.bind (.of_still (hasItem_still _)) fun found => ?_
  cases found with
  | false => exact Respects.bind (say_onlySpeaks _) fun _ => .pure _
  | true =>
      refine Respects.bind (say_onlySpeaks _) fun _ => ?_
      refine Respects.bind (loadFile_onlySpeaks _) fun contents => ?_
      split
      · exact Respects.pure _
      · exact Respects.bind (say_onlySpeaks _) fun _ => .pure _

theorem saveSection_onlyWrites (title path text : String) :
    OnlyWrites path (saveSection title path text) := by
  refine Respects.bind_keeps (.attempt (writeText_onlyWrites _ _)) fun result => ?_
  cases result with
  | ok done => exact say_keeps_disk _
  | error fault => exact say_keeps_disk _

/-- A section is written only where there is none of its name. -/
theorem writeSection_growsDisk {scope : Scope} {place : Place} {settings : Settings}
    (overview contents title : String) (hpath : LeadsTo (settings.sectionPath title) place)
    (hscope : scope.file place) :
    GrowsDisk scope (writeSection settings overview contents title) := by
  refine growsDisk_unless_hasItem (say_keeps_disk _) ?_ hpath hscope
  refine (complete_asks _ _).onlyAsks.keeps_disk.bind_onlyWrites fun result => ?_
  split
  · exact saveSection_onlyWrites title _ _
  · exact Keeps.onlyWrites (say_keeps_disk _)

theorem saveContents_onlyWrites (settings : Settings) (contents : String) :
    OnlyWrites settings.contentsFile (saveContents settings contents) := by
  refine Respects.bind_keeps (.attempt (writeText_onlyWrites _ _)) fun result => ?_
  cases result with
  | ok done => exact say_keeps_disk _
  | error fault => exact Respects.bind (say_keeps_disk _) fun _ => say_keeps_disk _

theorem obtainContents_onlyWrites (settings : Settings) (overview : String) :
    OnlyWrites settings.contentsFile (obtainContents settings overview) := by
  refine (complete_asks _ _).onlyAsks.keeps_disk.bind_onlyWrites fun result => ?_
  split
  · exact Respects.bind_keeps (saveContents_onlyWrites settings _) fun _ => .pure _
  · exact Keeps.onlyWrites ((savedContents_onlySpeaks settings).keeps fun _ _ => rfl)

section Run

variable {scope : Scope} {place : Place} {settings : Settings}
  (hfolder : LeadsTo settings.manualFolder place) (hscope : ∀ name, scope.file (place ++ [name]))

include hfolder hscope

theorem writeSections_growsDisk (overview contents : String) (total number : Nat)
    (titles : List String) :
    GrowsDisk scope (writeSections settings overview contents total number titles) := by
  induction titles generalizing number with
  | nil => exact Respects.pure ()
  | cons title rest ih =>
      refine Respects.bind (say_keeps_disk _).respects fun _ => ?_
      refine Respects.bind ?_ fun _ => ih (number + 1)
      exact writeSection_growsDisk overview contents title (leadsTo_sectionPath hfolder title)
        (hscope _)

theorem writeManual_growsDisk (overview contents : String) :
    GrowsDisk scope (writeManual settings overview contents) := by
  refine Respects.bind (say_keeps_disk _).respects fun _ => ?_
  refine Respects.bind (Keeps.respects ((readContents_onlySpeaks contents).keeps fun _ _ => rfl))
    fun titles => ?_
  split
  · exact (say_keeps_disk _).respects
  · refine Respects.bind ?_ fun _ => (say_keeps_disk _).respects
    exact writeSections_growsDisk hfolder hscope overview contents _ 1 titles

/-- Sections are added directly in their folder, which is made if it is missing, and
the table of contents is written at its path. -/
theorem run_growsDisk (hmake : GrowsDisk scope (makeFolders settings.manualFolder))
    {contentsPlace : Place} (hcontents : LeadsTo settings.contentsFile contentsPlace)
    (hcontentsScope : scope.file contentsPlace ∧ scope.rewritable contentsPlace) :
    GrowsDisk scope (run settings) := by
  refine Respects.bind (Keeps.respects ((loadFile_onlySpeaks _).keeps fun _ _ => rfl)) fun found => ?_
  split
  · exact (say_keeps_disk _).respects
  · rename_i overview hoverview
    have hobtain : GrowsDisk scope (obtainContents settings overview) :=
      (obtainContents_onlyWrites settings overview).growsDisk hcontents hcontentsScope.1
        hcontentsScope.2
    refine Respects.bind (.of_still (hasItem_still _)) fun found => ?_
    cases found
    -- A missing folder is made first; the rest is the same.
    case' false =>
      refine Respects.bind hmake fun _ => Respects.bind (say_keeps_disk _).respects fun _ => ?_
    all_goals
      refine Respects.bind (say_keeps_disk _).respects fun _ => ?_
      refine Respects.bind hobtain fun contents => ?_
      cases contents with
      | none => exact Respects.pure ()
      | some contents => exact writeManual_growsDisk hfolder hscope overview contents

end Run

end Docwright.Manual
