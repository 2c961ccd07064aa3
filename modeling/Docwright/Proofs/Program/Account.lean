import Docwright.Component
import Docwright.Manual
import Docwright.Notes
import Docwright.Overview
import Docwright.Proofs.Disk.Depth
import Docwright.Proofs.Job.Brings
import Docwright.Proofs.Program.Outputs
import Docwright.Proofs.Service.Received

/-!
# Documents and the answers they are drawn from

A request concerns the document that its answer is meant for, and a document is drawn
from what was received: it is made for one answer, or for notes with their addendum. It
holds that value if it is a text, and is empty otherwise.
`Accounts disk services site` says of a site in the course of a run that everything on
its disk is accounted for: it was there when the run started, it is a folder of results,
or it is a document that is drawn from what the services have answered so far.

The steps of the programs keep the account. They end with a fault that no job catches
only if the services are not calm.
-/

namespace Docwright.Program

open Docwright.Disk
open Docwright.Job
open Docwright.Path

/-- The request is one for the document at a place. -/
inductive Concerns : Request → Place → Prop where
  | notes (model maxTokens : Json.Value) (content path : String) :
      Concerns (.write model maxTokens (.str (Notes.notesPrompt content path)))
        ["file_notes", base path ++ ".md"]
  | pair (model maxTokens : Json.Value) (headerPath sourcePath headerNotes sourceNotes : String)
      (header source : Component.Outline) :
      Concerns (.write model maxTokens (.str (Component.pairPrompt headerPath sourcePath
        headerNotes sourceNotes header source)))
        ["intermediate_docs", stem (base headerPath) ++ "_pair.md"]
  | single (model maxTokens : Json.Value) (path notes : String) (outline : Component.Outline) :
      Concerns (.write model maxTokens (.str (Component.singlePrompt path notes outline)))
        ["intermediate_docs", base path ++ "_single.md"]
  | overview (model maxTokens : Json.Value) (material : String) :
      Concerns (.write model maxTokens (.str (Overview.overviewPrompt material)))
        ["high-level-overview", "project_overview.md"]
  | contents (overview : String) :
      Concerns (.draft (.str (Manual.contentsPrompt overview)))
        ["high-level-overview", "TABLE_OF_CONTENTS.md"]
  | manualSection (title overview contents : String) :
      Concerns (.draft (.str (Manual.sectionPrompt title overview contents)))
        ["final_documentation", Manual.sectionName title]

/-- The value for a place is drawn from what was received: it was received for the
document there, or it is made of notes and an addendum that were. -/
inductive Drawn (received : List (Request × Json.Value)) : Place → Json.Value → Prop where
  | answer {request : Request} {place : Place} {value : Json.Value}
      (hrequest : Concerns request place) (hreceived : (request, value) ∈ received) :
      Drawn received place value
  | addendum {model notesTokens addendumTokens notes both : Json.Value}
      {content path found added : String}
      (hnotes : (.write model notesTokens (.str (Notes.notesPrompt content path)), notes) ∈ received)
      (hadded : (.write model addendumTokens
        (.str (Notes.addendumPrompt notes.display found path)), .str added) ∈ received)
      (hboth : Notes.extended notes (Notes.addendumSeparator ++ added) = .ok both) :
      Drawn received ["file_notes", base path ++ ".md"] both

/-- What stands at a place is what stood there on the disk, or a folder of results, or a
document drawn from what was received. -/
def Accounted (disk : Disk) (received : List (Request × Json.Value)) (place : Place)
    (item : Option Item) : Prop :=
  item = disk.get? place ∨
    IsOutputFolder place ∧ disk.get? place = none ∧ item = some .folder ∨
    ∃ value, Drawn received place value ∧ item = some (.file value.content)

/-- A folder of results is a folder or missing. -/
def OutputsOpen (disk : Disk) : Prop :=
  ∀ name, IsOutputFolder [name] → disk.get? [name] = none ∨ disk.get? [name] = some .folder

/-- In the course of a run that started with that disk and those services, all that is on
the disk is accounted for. -/
structure Accounts (disk : Disk) (services : Services) (site : Site) : Prop where
  plain : site.disk.Plain
  sources : AgreeBelow "src" site.disk disk
  answers : site.services = site.asked.foldl Services.next services
  items : ∀ place, Accounted disk (services.received site.asked) place (site.disk.get? place)

section Drawn

variable {received : List (Request × Json.Value)} {place : Place} {value : Json.Value}

theorem Drawn.mono {more : List (Request × Json.Value)} (h : Drawn received place value)
    (hmore : ∀ pair ∈ received, pair ∈ more) : Drawn more place value := by
  cases h with
  | answer hrequest hreceived => exact .answer hrequest (hmore _ hreceived)
  | addendum hnotes hadded hboth => exact .addendum (hmore _ hnotes) (hmore _ hadded) hboth

theorem Drawn.exists_concerns (h : Drawn received place value) :
    ∃ request answer, Concerns request place ∧ (request, answer) ∈ received := by
  cases h with
  | answer hrequest hreceived => exact ⟨_, _, hrequest, hreceived⟩
  | addendum hnotes hadded hboth => exact ⟨_, _, .notes _ _ _ _, hnotes⟩

/-- Documents are in the folders of results. -/
theorem Concerns.place_eq {request : Request} (h : Concerns request place) :
    ∃ folder name, place = [folder, name] ∧ folder ≠ "src" := by
  cases h with
  | notes => exact ⟨_, _, rfl, by decide⟩
  | pair => exact ⟨_, _, rfl, by decide⟩
  | single => exact ⟨_, _, rfl, by decide⟩
  | overview => exact ⟨_, _, rfl, by decide⟩
  | contents => exact ⟨_, _, rfl, by decide⟩
  | manualSection => exact ⟨_, _, rfl, by decide⟩

theorem Drawn.place_eq (h : Drawn received place value) :
    ∃ folder name, place = [folder, name] ∧ folder ≠ "src" := by
  obtain ⟨request, answer, hrequest, -⟩ := h.exists_concerns
  exact hrequest.place_eq

theorem Accounted.mono {disk : Disk} {more : List (Request × Json.Value)} {item : Option Item}
    (h : Accounted disk received place item) (hmore : ∀ pair ∈ received, pair ∈ more) :
    Accounted disk more place item := by
  obtain h | h | ⟨value, hdrawn, hitem⟩ := h
  · exact .inl h
  · exact .inr (.inl h)
  · exact .inr (.inr ⟨value, hdrawn.mono hmore, hitem⟩)

end Drawn

namespace Accounts

variable {disk : Disk} {services : Services} {site : Site}

theorem start (hplain : site.disk.Plain) (hfresh : site.asked = []) :
    Accounts site.disk site.services site :=
  ⟨hplain, rfl, by rw [hfresh, List.foldl_nil], fun _ => .inl rfl⟩

theorem spoken (h : Accounts disk services site) {left : Site} (hleft : Spoken site left) :
    Accounts disk services left := by
  rw [Spoken] at hleft
  rw [hleft]
  exact ⟨h.plain, h.sources, h.answers, h.items⟩

theorem requested (h : Accounts disk services site) (request : Request) :
    Accounts disk services { site with
      asked := site.asked ++ [request]
      services := site.services.next request } := by
  refine ⟨h.plain, h.sources, ?_, fun place => (h.items place).mono ?_⟩
  · rw [h.answers, List.foldl_append]
    rfl
  · exact fun pair hpair => Services.mem_received_append _ hpair

theorem mem_received (h : Accounts disk services site) {request : Request} {value : Json.Value}
    (hvalue : site.services.answer? request = some value) :
    (request, value) ∈ services.received (site.asked ++ [request]) :=
  Services.mem_received_concat (h.answers ▸ hvalue)

theorem calm (h : Accounts disk services site) (hcalm : services.Calm) : site.services.Calm :=
  h.answers ▸ hcalm.foldl site.asked

theorem insert (h : Accounts disk services site) {place : Place} {value : Json.Value}
    (hdrawn : Drawn (services.received site.asked) place value) (hhold : site.disk.CanHold place)
    (hname : ∀ name ∈ place, IsName name) :
    Accounts disk services { site with
      disk := site.disk.insert place (.file value.content) } := by
  refine ⟨h.plain.insert hhold hname (by simp), ?_, h.answers, fun q => ?_⟩
  · obtain ⟨folder, name, rfl, hfolder⟩ := hdrawn.place_eq
    exact (AgreeBelow.insert (Ne.symm hfolder) site.disk [name] _).trans h.sources
  · rw [get?_insert_of_canHold hhold]
    split
    · rename_i hq
      rw [hq]
      exact .inr (.inr ⟨value, hdrawn, rfl⟩)
    · exact h.items q

theorem withFolder (h : Accounts disk services site) {folder : String} (hname : IsName folder)
    (houtput : IsOutputFolder [folder]) :
    Accounts disk services { site with disk := site.disk.withFolder folder } := by
  have hsource : "src" ≠ folder := by
    rintro rfl
    exact absurd houtput (by simp [IsOutputFolder])
  have hsources := (AgreeBelow.withFolder hsource site.disk).trans h.sources
  refine ⟨h.plain.withFolder hname, hsources, h.answers, fun q => ?_⟩
  rw [get?_withFolder hname.short]
  split
  · rename_i hq
    have hitem := h.items q
    rw [hq.1, hq.2] at hitem
    rw [hq.1]
    obtain hnone | ⟨-, -, hfolder⟩ | ⟨value, -, hfile⟩ := hitem
    · exact .inr (.inl ⟨houtput, hnone.symm, rfl⟩)
    · exact absurd hfolder (by simp)
    · exact absurd hfile (by simp)
  · exact h.items q

/-- What is in the place of a folder of results and is no folder was there at the start. -/
theorem not_outputsOpen (h : Accounts disk services site) {folder : String}
    (houtput : IsOutputFolder [folder]) {item : Item} (hitem : site.disk.get? [folder] = some item)
    (hfolder : item ≠ .folder) : ¬ OutputsOpen disk := by
  intro hopen
  obtain hsame | ⟨-, -, hmade⟩ | ⟨value, hdrawn, -⟩ := h.items [folder]
  · obtain hnone | hfound := hopen folder houtput
    · exact absurd (hitem.symm.trans (hsame.trans hnone)) (by simp)
    · exact hfolder (Option.some.inj (hitem.symm.trans (hsame.trans hfound)))
  · exact hfolder (Option.some.inj (hitem.symm.trans hmade))
  · obtain ⟨outer, name, hplace, -⟩ := hdrawn.place_eq
    exact absurd hplace (by simp)

end Accounts

end Docwright.Program
