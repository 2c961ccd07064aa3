import Docwright.Proofs.Disk.Growth
import Docwright.Survey

/-!
# The course of a survey

A survey reads the source files and puts queries to them, and at the end it
writes the structure file. Nothing else on the disk changes.
-/

namespace Docwright.Survey

open Docwright.Job

theorem extractOne_onlyAsks (content : List UInt8) (file : ParsedFile) (key : String)
    (definition : Json.Value) : OnlyAsks (extractOne content file key definition) := by
  refine Respects.bind (.of_still (ofResult_still _)) fun text => ?_
  refine Respects.bind (.of_still (ofResult_still _)) fun names => ?_
  split
  · exact Respects.pure _
  · refine Respects.bind (.attempt (query_onlyAsks file text)) fun result => ?_
    split
    · exact Respects.bind (say_onlyAsks _) fun _ => .pure _
    · exact Respects.bind (say_onlyAsks _) fun _ => .pure _
    · split
      · exact Respects.bind (say_onlyAsks _) fun _ => .pure _
      · exact Respects.pure _

/-- What is looked for in a file is looked for after it was parsed. -/
theorem extract_asksFor (content : List UInt8) (definitions : List (String × Json.Value)) :
    Respects (AskingFor (.parse content.length)) (extract content definitions) := by
  refine (parse_asksFor content).bind_onlyAsks fun file => Respects.mapM ?_ _
  rintro ⟨key, definition⟩
  exact extractOne_onlyAsks content file key definition

theorem entryOf_onlyAsks (settings : Settings) (path : String) :
    OnlyAsks (entryOf settings path) := by
  have hanalyse : OnlyAsks (analyse settings path) := by
    refine Respects.bind (.of_still (readBytes_still path)) fun content => ?_
    split
    · exact Respects.bind (say_onlyAsks _) fun _ => .pure _
    · exact Respects.bind (extract_asksFor content _).onlyAsks fun _ => .pure _
  refine Respects.bind (say_onlyAsks _) fun _ => ?_
  refine Respects.bind (.attempt hanalyse) fun result => ?_
  cases result with
  | ok entry => exact Respects.pure entry
  | error fault => exact Respects.bind (say_onlyAsks _) fun _ => .pure _

theorem survey_keeps_disk (settings : Settings) : Keeps Site.disk (survey settings) := by
  refine visitFolders_respects (fun found folder => ?_) _ _
  refine Respects.bind (.of_still disk_still) fun disk => ?_
  refine Respects.foldlM _ (fun name _ found => ?_) found
  exact Respects.bind (entryOf_onlyAsks settings _).keeps_disk fun _ => .pure _

theorem save_onlyWrites (settings : Settings) (found : Structure) :
    OnlyWrites settings.structureFile (save settings found) := by
  refine Respects.bind_keeps (.attempt (writeText_onlyWrites _ _)) fun result => ?_
  cases result with
  | ok done => exact Respects.bind (say_keeps_disk _) fun _ => say_keeps_disk _
  | error fault => exact say_keeps_disk _

theorem loadGrammar_keeps_disk : Keeps Site.disk loadGrammar := by
  refine Respects.bind (ask_keeps_disk _) fun _ => ?_
  refine Respects.bind (.of_still get_still) fun site => ?_
  refine Respects.bind (.of_still (ofAnswer_still _)) fun _ => ?_
  refine Respects.bind (ask_keeps_disk _) fun _ => ?_
  exact Respects.bind (.of_still get_still) fun site => .of_still (ofAnswer_still _)

/-- A survey writes the structure file only. -/
theorem run_onlyWrites (settings : Settings) : OnlyWrites settings.structureFile (run settings) := by
  refine (say_keeps_disk _).bind_onlyWrites fun _ => ?_
  refine Keeps.bind_onlyWrites (.attempt loadGrammar_keeps_disk) fun result => ?_
  cases result with
  | error fault =>
      exact Keeps.onlyWrites (Respects.bind (say_keeps_disk _) fun _ => say_keeps_disk _)
  | ok done =>
      refine (say_keeps_disk _).bind_onlyWrites fun _ => ?_
      refine Keeps.bind_onlyWrites (.of_still (hasItem_still _)) fun found => ?_
      cases found with
      | false => exact Keeps.onlyWrites (say_keeps_disk _)
      | true =>
          refine (say_keeps_disk _).bind_onlyWrites fun _ => ?_
          refine (survey_keeps_disk settings).bind_onlyWrites fun found => ?_
          cases found.isEmpty with
          | true => exact Keeps.onlyWrites (say_keeps_disk _)
          | false => exact save_onlyWrites settings found

end Docwright.Survey
