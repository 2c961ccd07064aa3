import Docwright.Proofs.Disk.Depth
import Docwright.Proofs.Notes.Run
import Docwright.Proofs.Program.Steps

/-!
# Notes are accounted for

Whatever the services answer, a run that takes notes leaves a disk on which all is
accounted for: a file of notes is opened only when something for it was received. If no
answer is an interruption, the run can stop early only once it has loaded the index.
-/

namespace Docwright.Notes

open Docwright.Disk
open Docwright.Job
open Docwright.Path
open Docwright.Program

variable {disk : Disk} {services : Services} {known : List (Request × Json.Value)}
  {reason : Fault → Prop}

theorem complete_step (prompt maxTokens model : Json.Value) :
    Brings (Knows disk services known) (complete prompt maxTokens model)
      (fun given => Knows disk services
        (answered (.write model maxTokens prompt) given.present? ++ known))
      (Stopped disk services reason) := by
  apply request_step
  · exact fun known given => Brings.pure fun _ h => h
  · intro known code body
    split
    · exact say_last _
    · split
      · exact say_last _
      · exact Brings.pure fun _ h => h

section Loaded

variable (hreason : ∀ fault, reason fault)

include hreason

theorem consult_step (text : String) :
    Brings (Knows disk services known) (consult text) (fun _ => Knows disk services known)
      (Stopped disk services reason) := by
  apply say_step
  apply Brings.bind (openIndex_step searchLimit hreason)
  intro _
  apply attempt_step (search_step searchLimit text)
  · intro found
    cases found with
    | nil => exact say_step _ (Brings.pure fun _ h => h)
    | cons first rest =>
        apply say_step
        split
        · exact Brings.pure fun _ h => h
        · exact say_step _ (Brings.pure fun _ h => h)
  · exact fun fault => say_step _ (Brings.pure fun _ h => h)

variable (settings : Settings)

theorem addendum_step (notes : Json.Value) (found path : String) :
    Brings (Knows disk services known) (addendum settings notes found path)
      (fun given site => Knows disk services known site ∧
        ∀ added, Text.nonempty? given.text? = some added →
          (.write settings.model settings.addendumTokens
            (.str (addendumPrompt notes.display found path)), .str added) ∈
              services.received site.asked)
      (Stopped disk services reason) := by
  apply say_step
  apply Brings.bind (complete_step _ _ _)
  intro given
  cases haccept : acceptAddendum given with
  | error fault => exact Brings.throw fun site h => ⟨h.accounts, fun _ => hreason fault⟩
  | ok accepted =>
      refine Brings.pure fun site h => ⟨h.forget, fun added hadded => ?_⟩
      exact h.received _ (mem_known_of_answer (present?_of_accepted haccept hadded))

theorem withAddendum_step {notes : Json.Value} {content path : String}
    (hnotes : (.write settings.model settings.notesTokens (.str (notesPrompt content path)), notes) ∈
      known) :
    Brings (Knows disk services known) (withAddendum settings notes content path)
      (fun both site => Knows disk services known site ∧
        Drawn (services.received site.asked) ["file_notes", base path ++ ".md"] both)
      (Stopped disk services reason) := by
  have halone : ∀ site, Knows disk services known site → Knows disk services known site ∧
      Drawn (services.received site.asked) ["file_notes", base path ++ ".md"] notes :=
    fun site h => ⟨h, .answer (.notes _ _ content path) (h.received _ hnotes)⟩
  apply Brings.bind (consult_step hreason _)
  intro found?
  split
  · exact say_step _ (Brings.pure halone)
  · apply Brings.bind (addendum_step hreason settings notes _ path)
    intro given
    split
    · exact Brings.pre (fun _ h => h.1) (say_step _ (Brings.pure halone))
    · rename_i added hadded
      apply Brings.bind (M := fun both site => Knows disk services known site ∧
        Drawn (services.received site.asked) ["file_notes", base path ++ ".md"] both)
      · cases hboth : extended notes (addendumSeparator ++ added) with
        | error fault => exact Brings.throw fun site h => ⟨h.1.accounts, fun _ => hreason fault⟩
        | ok both =>
            exact Brings.pure fun site h =>
              ⟨h.1, .addendum (h.1.received _ hnotes) (h.2 added hadded) hboth⟩
      · intro both
        apply Brings.bind (M := fun _ site => Knows disk services known site ∧
          Drawn (services.received site.asked) ["file_notes", base path ++ ".md"] both)
        · exact .intro fun site h => ⟨h.1.spoken rfl, h.2⟩
        · exact fun _ => Brings.pure fun _ h => h

omit hreason in
theorem save_step {path notesPath : String}
    (hpath : LeadsTo notesPath ["file_notes", base path ++ ".md"]) (notes : Json.Value) :
    Brings
      (fun site => Knows disk services known site ∧
        Drawn (services.received site.asked) ["file_notes", base path ++ ".md"] notes)
      (save notesPath notes) (fun _ => Knows disk services known)
      (Stopped disk services reason) := by
  apply attempt_step (writeValue_step hpath)
  · exact fun _ => say_step _ (Brings.pure fun _ h => h)
  · exact fun fault => say_step _ (Brings.pure fun _ h => h)

theorem annotateContent_step {path notesPath : String}
    (hpath : LeadsTo notesPath ["file_notes", base path ++ ".md"]) (content : String) :
    Brings (Knows disk services known) (annotateContent settings path notesPath content)
      (fun _ => Knows disk services known) (Stopped disk services reason) := by
  unfold annotateContent
  split
  · exact say_step _ (Brings.pure fun _ h => h)
  · apply Brings.bind (say_step _ (complete_step _ _ _))
    intro given
    split
    · exact say_step _ (Brings.pure fun _ h => h.forget)
    · rename_i notes hnotes
      refine Brings.bind (withAddendum_step hreason settings (mem_known_of_answer hnotes))
        fun both => ?_
      exact (save_step hpath both).imp (fun _ h => h) (fun _ _ h => h.forget) fun _ _ h => h

theorem annotate_step {path notesPath : String}
    (hpath : LeadsTo notesPath ["file_notes", base path ++ ".md"]) :
    Brings (Knows disk services known) (annotate settings path notesPath)
      (fun _ => Knows disk services known) (Stopped disk services reason) := by
  apply Brings.hasItem_bind
  intro found
  cases found with
  | true => exact say_step _ (Brings.pure fun _ h => h)
  | false =>
      apply say_step
      apply attempt_step (failed_of_catchable (readTextLenient_catchable _ path))
      · exact fun content => annotateContent_step hreason settings hpath content
      · exact fun fault => say_step _ (Brings.pure fun _ h => h)

variable {settings} (husual : settings.IsUsual)

include husual

theorem visit_step {folder : Folder} (hfolder : folder.IsBelow ["src"]) (count : Nat) :
    Brings (Knows disk services known) (visit settings count folder)
      (fun _ => Knows disk services known) (Stopped disk services reason) := by
  apply disk_step
  intro now hplain _
  apply Brings.foldlM fun _ _ => Knows disk services known
  intro done name rest count hall
  have hname : name ∈ (now.fileNames folder).filter settings.selects := by simp [← hall]
  have hisName := hplain.isName_of_mem_fileNames (List.mem_filter.1 hname).1
  apply Brings.bind
  · apply annotate_step hreason
    rw [hfolder.leadsTo.base_join hisName.noSlash, Settings.notesPath, husual.notesFolder]
    exact (isFilePath_notes hisName).leadsTo
  · exact fun saved => Brings.pure fun _ h => h

theorem annotateAll_step :
    Brings (Knows disk services known) (annotateAll settings) (fun _ => Knows disk services known)
      (Stopped disk services reason) := by
  unfold annotateAll
  rw [husual.sourceFolder]
  apply Brings.bind (M := fun _ => Knows disk services known)
  · apply Brings.intro
    intro start hstart
    have hloop : Brings (Knows disk services known)
        ((start.disk.walk start.limits.levels "./src").folders.foldlM (visit settings) 0)
        (fun _ => Knows disk services known) (Stopped disk services reason) := by
      apply Brings.foldlM fun _ _ => Knows disk services known
      intro done folder rest count hall
      have hfolder : folder ∈ (start.disk.walk start.limits.levels "./src").folders := by
        simp [← hall]
      exact visit_step hreason husual
        (isBelow_of_mem_walk hstart.accounts.plain isTopFolder_sources.leadsTo hfolder) count
    have hvisits := Brings.visitFolders (hloop.pre fun site (h : site = start) => h ▸ hstart)
      (fun site h => by rw [h])
      (fun _ _ _ h => ⟨h.accounts, fun _ => hreason _⟩)
    exact (hvisits.post fun _ _ h => h.2).ends rfl
  · exact fun count => say_last _

end Loaded

theorem loadIndex_step (settings : Settings) :
    Brings (Knows disk services known) (loadIndex settings)
      (fun _ site => services.indexLoad = .ok () ∧ Knows disk services known site)
      (Failed disk services known) := by
  apply Brings.intro
  intro site h
  have hindex : site.services.indexLoad = services.indexLoad := by
    rw [h.accounts.answers, Services.indexLoad_foldl]
  have hleft := (h.requested (.loadIndex settings.indexFolder)).forget
  have hcalm := fun hservices => (h.accounts.calm hservices).index
  have happly : loadIndex settings site = ofAnswer site.services.indexLoad
      { site with asked := site.asked ++ [.loadIndex settings.indexFolder] } := rfl
  rw [happly]
  cases hload : site.services.indexLoad with
  | ok _ => exact ⟨hindex.symm.trans hload, hleft⟩
  | error failure =>
      refine hleft.failed_service fun hservices kind message hsame => ?_
      exact hcalm hservices kind message (hload.trans (congrArg _ hsame))

section Run

variable {settings : Settings} (husual : settings.IsUsual)

include husual

theorem prepare_step {E : Fault → Site → Prop} :
    Brings
      (fun site => site.disk.get? ["rag_index"] = disk.get? ["rag_index"] ∧
        Knows disk services known site)
      (prepare settings)
      (fun _ site => site.disk.get? ["rag_index"] = disk.get? ["rag_index"] ∧
        Knows disk services known site) E := by
  apply Brings.intro
  rintro site ⟨hsame, h⟩
  obtain ⟨hresult, hspoken⟩ := prepare_ends husual h.accounts.plain site.said
  have hopened := h.accounts.withFolder isTopFolder_notes.isName (by simp [IsOutputFolder])
  rw [apply_eq_ok hresult]
  refine ⟨?_, Knows.spoken ⟨hopened, h.received⟩ hspoken⟩
  rw [hspoken.part_eq Site.disk fun _ _ => rfl, get?_withFolder (by decide)]
  simpa using hsame

/-- The index is loaded in a run that starts with that disk and those services. -/
def Loads (disk : Disk) (services : Services) : Prop :=
  disk.get? ["src"] ≠ none ∧ disk.get? ["rag_index"] ≠ none ∧ services.indexLoad = .ok ()

theorem run_step :
    Brings
      (fun site => site.disk.get? ["rag_index"] = disk.get? ["rag_index"] ∧
        Knows disk services known site)
      (run settings) (fun _ => Knows disk services known)
      (Stopped disk services fun _ => Loads disk services) := by
  unfold run
  rw [husual.sourceFolder]
  apply present_step isTopFolder_sources fun site h => h.2.accounts.plain
  · apply Brings.pre (P := fun site => disk.get? ["src"] ≠ none ∧
      site.disk.get? ["rag_index"] = disk.get? ["rag_index"] ∧ Knows disk services known site)
    · exact fun site h => ⟨h.1.2.accounts.sources.get?_eq [] ▸ h.2, h.1⟩
    · apply Brings.assume
      intro hsources
      apply Brings.bind (prepare_step husual)
      intro prepared
      split
      · exact Brings.pure fun _ h => h.2
      · rw [husual.indexFolder]
        apply present_step isTopFolder_index fun site h => h.2.accounts.plain
        · apply Brings.pre (P := fun site => disk.get? ["rag_index"] ≠ none ∧
            Knows disk services known site)
          · exact fun site h => ⟨h.1.1 ▸ h.2, h.1.2⟩
          · apply Brings.assume
            intro hindex
            apply say_step
            apply attempt_step (loadIndex_step settings)
            · intro loaded
              apply Brings.assume
              intro hload
              exact say_step _ (annotateAll_step (fun _ => ⟨hsources, hindex, hload⟩) husual)
            · exact fun fault => say_last _
        · exact Brings.pre (fun _ h => h.2) (say_last _)
  · exact Brings.pre (fun _ h => h.2) (say_last _)

/-- A run leaves all accounted for, and stops early only once the index is loaded. -/
theorem run_accounts {start : Site} (hplain : start.disk.Plain) (hfresh : start.asked = []) :
    Brings (fun site => site = start) (run settings)
      (fun _ => Accounts start.disk start.services)
      (Stopped start.disk start.services fun _ => Loads start.disk start.services) := by
  apply Brings.imp (Q := fun _ => Knows start.disk start.services []) (run_step husual)
  · rintro site rfl
    exact ⟨rfl, (Accounts.start hplain hfresh).knows⟩
  · exact fun _ _ h => h.accounts
  · exact fun _ _ h => h

end Run

end Docwright.Notes
