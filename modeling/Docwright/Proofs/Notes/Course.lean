import Docwright.Notes
import Docwright.Proofs.Disk.Growth
import Docwright.Proofs.Disk.Names

/-!
# The course of a notes run

Asking for notes and addenda leaves the disk as it was. The notes on a file are
written only if there are none, under a name that is made from the name of the
file, so directly in the folder of the notes.
-/

namespace Docwright.Notes

open Docwright.Disk
open Docwright.Job
open Docwright.Path

theorem complete_onlyAsks (prompt maxTokens model : Json.Value) :
    OnlyAsks (complete prompt maxTokens model) := by
  refine Completion.request_onlyAsks model maxTokens prompt (fun _ => .pure ()) ?_
  intro code body
  split
  · exact say_onlyAsks _
  · split
    · exact say_onlyAsks _
    · exact Respects.pure ()

theorem consult_onlyAsks (text : String) : OnlyAsks (consult text) := by
  refine Respects.bind (say_onlyAsks _) fun _ => ?_
  refine Respects.bind (openIndex_onlyAsks _) fun _ => ?_
  refine Respects.bind (.attempt (search_onlyAsks _ _)) fun result => ?_
  split
  · exact Respects.bind (say_onlyAsks _) fun _ => .pure _
  · exact Respects.bind (say_onlyAsks _) fun _ => .pure _
  · refine Respects.bind (say_onlyAsks _) fun _ => ?_
    split
    · exact Respects.pure _
    · exact Respects.bind (say_onlyAsks _) fun _ => .pure _

theorem withAddendum_onlyAsks (settings : Settings) (notes : Json.Value) (content path : String) :
    OnlyAsks (withAddendum settings notes content path) := by
  have haddendum : ∀ found, OnlyAsks (addendum settings notes found path) := by
    intro found
    refine Respects.bind (say_onlyAsks _) fun _ => ?_
    exact Respects.bind (complete_onlyAsks _ _ _) fun _ => .of_still (ofResult_still _)
  refine Respects.bind (consult_onlyAsks _) fun found => ?_
  split
  · exact Respects.bind (say_onlyAsks _) fun _ => .pure _
  · refine Respects.bind (haddendum _) fun added => ?_
    split
    · exact Respects.bind (say_onlyAsks _) fun _ => .pure _
    · refine Respects.bind (.of_still (ofResult_still _)) fun both => ?_
      exact Respects.bind (say_onlyAsks _) fun _ => .pure _

theorem save_onlyWrites (path : String) (notes : Json.Value) : OnlyWrites path (save path notes) := by
  refine Respects.bind_keeps (.attempt (writeValue_onlyWrites _ _)) fun result => ?_
  cases result with
  | ok done => exact Respects.bind (say_keeps_disk _) fun _ => .pure _
  | error fault => exact Respects.bind (say_keeps_disk _) fun _ => .pure _

theorem annotateContent_onlyWrites (settings : Settings) (path notesPath content : String) :
    OnlyWrites notesPath (annotateContent settings path notesPath content) := by
  have hfirst : OnlyAsks (firstNotes settings content path) :=
    Respects.bind (say_onlyAsks _) fun _ => complete_onlyAsks _ _ _
  unfold annotateContent
  split
  · exact Keeps.onlyWrites (Respects.bind (say_keeps_disk _) fun _ => .pure _)
  · refine hfirst.keeps_disk.bind_onlyWrites fun notes => ?_
    split
    · exact Keeps.onlyWrites (Respects.bind (say_keeps_disk _) fun _ => .pure _)
    · refine (withAddendum_onlyAsks settings _ content path).keeps_disk.bind_onlyWrites fun both => ?_
      exact save_onlyWrites notesPath both

/-- Notes are written only where there are none. -/
theorem annotate_growsDisk {scope : Scope} {place : Place} (settings : Settings) (path : String)
    {notesPath : String} (hpath : LeadsTo notesPath place) (hscope : scope.file place) :
    GrowsDisk scope (annotate settings path notesPath) := by
  refine growsDisk_unless_hasItem ?_ ?_ hpath hscope
  · exact Respects.bind (say_keeps_disk _) fun _ => .pure _
  · refine (say_keeps_disk _).bind_onlyWrites fun _ => ?_
    refine Keeps.bind_onlyWrites (.attempt (.of_still (readTextLenient_still _))) fun result => ?_
    cases result with
    | error fault => exact Keeps.onlyWrites (Respects.bind (say_keeps_disk _) fun _ => .pure _)
    | ok content => exact annotateContent_onlyWrites settings path notesPath content

section Run

variable {scope : Scope} {place : Place} {settings : Settings}
  (hfolder : LeadsTo settings.notesFolder place) (hscope : ∀ name, scope.file (place ++ [name]))
  (hmake : GrowsDisk scope (makeFolders settings.notesFolder))

include hfolder hscope in
theorem visit_growsDisk (count : Nat) (folder : Folder) :
    GrowsDisk scope (visit settings count folder) := by
  refine growsDisk_disk_bind fun disk hplain => ?_
  refine Respects.foldlM _ (fun name hname count => ?_) count
  have hslash := (hplain.isName_of_mem_fileNames (List.mem_filter.1 hname).1).noSlash
  have hpath : LeadsTo (settings.notesPath name) (place ++ [name ++ ".md"]) :=
    hfolder.join_append hslash (by decide) (by decide)
  exact Respects.bind (annotate_growsDisk settings _ hpath (hscope _)) fun saved => .pure _

include hmake in
theorem prepare_growsDisk : GrowsDisk scope (prepare settings) := by
  refine Respects.bind (.of_still (hasItem_still _)) fun found => ?_
  cases found with
  | true => exact Respects.pure true
  | false =>
      refine Respects.bind (.attempt hmake) fun result => ?_
      cases result with
      | ok done => exact Respects.bind (say_keeps_disk _).respects fun _ => .pure _
      | error fault =>
          dsimp only
          cases fault.isDiskError with
          | true =>
              refine Respects.bind (say_keeps_disk _).respects fun _ => ?_
              exact Respects.bind (say_keeps_disk _).respects fun _ => .pure _
          | false => exact Respects.throw_bind _ _

include hfolder hscope hmake in
/-- Notes are added directly in their folder, which is made if it is missing. -/
theorem run_growsDisk : GrowsDisk scope (run settings) := by
  have hload : Keeps Site.disk (loadIndex settings) := by
    refine Respects.bind (ask_keeps_disk _) fun _ => ?_
    exact Respects.bind (.of_still get_still) fun site => .of_still (ofAnswer_still _)
  have hall : GrowsDisk scope (annotateAll settings) := by
    refine Respects.bind (visitFolders_respects (visit_growsDisk hfolder hscope) _ _) fun count => ?_
    exact (say_keeps_disk _).respects
  refine Respects.bind (.of_still (hasItem_still _)) fun found => ?_
  cases found with
  | false => exact (say_keeps_disk _).respects
  | true =>
      refine Respects.bind (prepare_growsDisk hmake) fun prepared => ?_
      cases prepared with
      | false => exact Respects.pure ()
      | true =>
          refine Respects.bind (.of_still (hasItem_still _)) fun found => ?_
          cases found with
          | false => exact (say_keeps_disk _).respects
          | true =>
              refine Respects.bind (say_keeps_disk _).respects fun _ => ?_
              refine Respects.bind (Respects.attempt hload.respects) fun result => ?_
              cases result with
              | error fault => exact (say_keeps_disk _).respects
              | ok done => exact Respects.bind (say_keeps_disk _).respects fun _ => hall

end Run

end Docwright.Notes
