import Docwright.Proofs.Component.Requests
import Docwright.Proofs.Program.Steps

/-!
# Component pages are accounted for

Whatever the services answer and whatever the structure file holds, a run that asks for
component pages leaves a disk on which all is accounted for: a page is written only when a
text for it was received. If no answer is an interruption the run ends well, unless the
structure file has a value that is no listing.
-/

namespace Docwright.Component

open Docwright.Disk
open Docwright.Job
open Docwright.Path
open Docwright.Program

def IsObject (value : Json.Value) : Prop := ∃ fields, value = .obj fields

/-- The value lists entries with fields. -/
def IsListing (value : Json.Value) : Prop :=
  ∃ files, value = .obj files ∧ ∀ file ∈ files, IsObject file.2

theorem mem_of_fieldOf? {name : String} {value : Json.Value} {files : List (String × Json.Value)}
    (h : Json.fieldOf? name files = some value) : (name, value) ∈ files := by
  induction files with
  | nil => exact absurd h (by simp [Json.fieldOf?])
  | cons file rest ih =>
      unfold Json.fieldOf? at h
      split at h
      · rename_i hname
        rw [← hname, ← Option.some.inj h]
        exact List.mem_cons_self
      · exact List.mem_cons_of_mem _ (ih h)

variable {disk : Disk} {services : Services} {known : List (Request × Json.Value)}
  {reason : Fault → Prop}

section Entries

variable {entry header source : Json.Value}
  (hentry : ¬ IsObject entry → ∀ fault, reason fault)
  (hheader : ¬ IsObject header → ∀ fault, reason fault)
  (hsource : ¬ IsObject source → ∀ fault, reason fault)

include hentry in
theorem outlineOf_step :
    Brings (Knows disk services known) (ofResult (outlineOf entry))
      (fun _ => Knows disk services known) (Stopped disk services reason) := by
  cases houtline : outlineOf entry with
  | ok outline => exact Brings.pure fun _ h => h
  | error fault =>
      apply Brings.throw
      refine fun site h => ⟨h.accounts, fun _ => hentry ?_ fault⟩
      rintro ⟨fields, rfl⟩
      exact absurd houtline (by simp [outlineOf])

include hentry in
theorem outlineIfPresent_step :
    Brings (Knows disk services known) (ofResult (outlineIfPresent entry))
      (fun _ => Knows disk services known) (Stopped disk services reason) := by
  unfold outlineIfPresent
  split
  · exact outlineOf_step hentry
  · exact Brings.pure fun _ h => h

theorem complete_step (settings : Settings) (prompt : Json.Value) :
    Brings (Knows disk services known) (complete settings prompt)
      (fun given => Knows disk services
        (answered (.write settings.model settings.maxTokens prompt) given.present? ++ known))
      (Stopped disk services reason) :=
  request_step _ _ _ (fun _ _ => Brings.pure fun _ h => h) fun _ _ _ => Brings.pure fun _ h => h

theorem notesOn_step (settings : Settings) (name : String) :
    Brings (Knows disk services known) (notesOn settings name) (fun _ => Knows disk services known)
      (Stopped disk services reason) := by
  apply Brings.hasItem_bind
  intro found
  split
  · exact say_step _ (Brings.pure fun _ h => h)
  · apply attempt_step (failed_of_catchable (readText_catchable _ _))
    · exact fun notes => Brings.pure fun _ h => h
    · exact fun fault => say_step _ (Brings.pure fun _ h => h)

theorem loadJson_step (path : String) :
    Brings (Knows disk services known) (loadJson path) (fun _ => Knows disk services known)
      (Stopped disk services reason) := by
  apply Brings.hasItem_bind
  intro found
  split
  · exact say_step _ (Brings.pure fun _ h => h)
  · apply attempt_step (failed_of_catchable (readJson_catchable _ path))
    · exact fun value => Brings.pure fun _ h => h
    · exact fun fault => say_step _ (Brings.pure fun _ h => h)

include hheader hsource in
theorem pairPage_step (settings : Settings) (headerPath sourcePath : String)
    (headerNotes sourceNotes : Option String) :
    Brings (Knows disk services known)
      (pairPage settings headerPath sourcePath headerNotes sourceNotes header source)
      (fun given site => Knows disk services known site ∧ ∀ page, given.present? = some page →
        Drawn (services.received site.asked)
          ["intermediate_docs", stem (base headerPath) ++ "_pair.md"] page)
      (Stopped disk services reason) := by
  apply Brings.bind (outlineIfPresent_step hheader)
  intro headerOutline
  apply Brings.bind (outlineIfPresent_step hsource)
  intro sourceOutline
  apply say_step
  apply (complete_step settings _).post
  exact fun given site h => h.drawn (.pair _ _ _ _ _ _ _ _)

include hentry in
theorem singlePage_step (settings : Settings) (path : String) (notes : Option String) :
    Brings (Knows disk services known) (singlePage settings path notes entry)
      (fun given site => Knows disk services known site ∧ ∀ page, given.present? = some page →
        Drawn (services.received site.asked) ["intermediate_docs", base path ++ "_single.md"] page)
      (Stopped disk services reason) := by
  apply Brings.bind (outlineOf_step hentry)
  intro outline
  apply say_step
  apply (complete_step settings _).post
  exact fun given site h => h.drawn (.single _ _ _ _ _)

theorem save_step {path : String} {page : Json.Value} {place : Place} (hpath : LeadsTo path place)
    (progress : Progress) (word : String) :
    Brings
      (fun site => Knows disk services known site ∧
        Drawn (services.received site.asked) place page)
      (save progress word path page) (fun _ => Knows disk services known)
      (Stopped disk services reason) := by
  apply attempt_step (writeValue_step hpath)
  · exact fun _ => say_step _ (Brings.pure fun _ h => h)
  · exact fun fault => say_step _ (Brings.pure fun _ h => h)

end Entries

section Run

variable {settings : Settings} (hfolder : settings.pageFolder = "./intermediate_docs")

include hfolder

theorem leadsTo_page {name ending : String} (hname : '/' ∉ name.toList)
    (hending : '/' ∉ ending.toList) (hlong : 2 < ending.length) :
    LeadsTo (Path.join settings.pageFolder (name ++ ending))
      ["intermediate_docs", name ++ ending] := by
  rw [hfolder]
  exact isTopFolder_pages.leadsTo.join_append hname hending hlong

theorem handlePair_step {header source : Json.Value}
    (hheader : ¬ IsObject header → ∀ fault, reason fault)
    (hsource : ¬ IsObject source → ∀ fault, reason fault) (progress : Progress)
    (headerPath sourcePath : String) :
    Brings (Knows disk services known)
      (handlePair settings progress headerPath sourcePath header source)
      (fun _ => Knows disk services known) (Stopped disk services reason) := by
  have hstem : '/' ∉ (stem (base headerPath)).toList :=
    fun hslash => not_mem_base headerPath (mem_of_mem_stem hslash)
  apply say_step
  apply Brings.bind (notesOn_step settings _)
  intro headerNotes
  apply Brings.bind (notesOn_step settings _)
  intro sourceNotes
  split
  · exact say_step _ (Brings.pure fun _ h => h)
  · apply Brings.bind (pairPage_step hheader hsource settings headerPath sourcePath _ _)
    intro given
    split
    · rename_i page hpage
      apply Brings.bind
      · exact Brings.pre (fun _ h => ⟨h.1, h.2 page hpage⟩)
          (save_step (leadsTo_page hfolder hstem (by decide) (by decide)) progress _)
      · exact fun progress => Brings.pure fun _ h => h
    · refine Brings.pre (fun _ h => h.1) ?_
      exact say_step _ (Brings.pure fun _ h => h)

theorem handleSingle_step {entry : Json.Value} (hentry : ¬ IsObject entry → ∀ fault, reason fault)
    (progress : Progress) (path : String) :
    Brings (Knows disk services known) (handleSingle settings progress path entry)
      (fun _ => Knows disk services known) (Stopped disk services reason) := by
  apply Brings.bind (notesOn_step settings _)
  intro notes?
  split
  · exact say_step _ (Brings.pure fun _ h => h)
  · apply Brings.bind (singlePage_step hentry settings path _)
    intro given
    split
    · rename_i page hpage
      apply Brings.bind
      · exact Brings.pre (fun _ h => ⟨h.1, h.2 page hpage⟩)
          (save_step (leadsTo_page hfolder (not_mem_base path) (by decide) (by decide)) progress _)
      · exact fun progress => Brings.pure fun _ h => h
    · refine Brings.pre (fun _ h => h.1) ?_
      exact say_step _ (Brings.pure fun _ h => h)

theorem document_step {files : List (String × Json.Value)}
    (hfiles : ∀ file ∈ files, ¬ IsObject file.2 → ∀ fault, reason fault) :
    Brings (Knows disk services known) (document settings files)
      (fun _ => Knows disk services known) (Stopped disk services reason) := by
  apply Brings.bind
  · apply Brings.foldlM fun _ _ => Knows disk services known
    rintro done ⟨path, entry⟩ rest progress hall
    have hmem : (path, entry) ∈ files := by simp [← hall]
    unfold pairRound
    dsimp only
    split
    · exact Brings.pure fun _ h => h
    · split
      · split
        · rename_i source hsource
          have hlisted := mem_of_fieldOf? hsource
          exact handlePair_step hfolder (hfiles _ hmem) (hfiles _ hlisted) progress path _
        · exact Brings.pure fun _ h => h
      · exact Brings.pure fun _ h => h
  · intro progress
    apply say_step
    apply Brings.bind
    · apply Brings.foldlM fun _ _ => Knows disk services known
      rintro done ⟨path, entry⟩ rest progress hall
      have hmem : (path, entry) ∈ files := by simp [← hall]
      unfold singleRound
      dsimp only
      split
      · exact Brings.pure fun _ h => h
      · split
        · exact handleSingle_step hfolder (hfiles _ hmem) progress path
        · exact Brings.pure fun _ h => h
    · exact fun progress => say_last _

/-- A run leaves all accounted for, and stops early only if the structure file has a value
that is no listing. -/
theorem run_accounts {start : Site} (hplain : start.disk.Plain) (hfresh : start.asked = []) :
    Brings (fun site => site = start) (run settings)
      (fun _ => Accounts start.disk start.services)
      (Stopped start.disk start.services fun _ => ∃ value,
        result (loadJson settings.structureFile) start = .ok value ∧
          value.isPresent = true ∧ ¬ IsListing value) := by
  have hstart : Knows start.disk start.services [] start := (Accounts.start hplain hfresh).knows
  unfold run
  rw [hfolder]
  apply Brings.bind ((loadJson_step settings.structureFile).at_start hstart)
  intro value
  apply Brings.assume
  intro hvalue
  split
  · exact (say_last _).post fun _ _ h => h.accounts
  · rename_i hpresent
    rw [Bool.not_eq_true, Bool.not_eq_false'] at hpresent
    apply open_step isTopFolder_pages (by simp [IsOutputFolder])
    apply say_step
    split
    · rename_i files
      refine (document_step hfolder fun file hfile hobject fault => ?_).post fun _ _ h => h.accounts
      refine ⟨_, hvalue, hpresent, ?_⟩
      rintro ⟨listed, hlisted, hobjects⟩
      obtain rfl := Json.Value.obj.inj hlisted
      exact hobject (hobjects file hfile)
    · rename_i hother
      apply Brings.throw
      refine fun site h => ⟨h.accounts, fun _ => ⟨_, hvalue, hpresent, ?_⟩⟩
      rintro ⟨files, hfiles, -⟩
      exact hother files hfiles

end Run

end Docwright.Component
