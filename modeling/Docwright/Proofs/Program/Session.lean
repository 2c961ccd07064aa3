import Docwright.Proofs.Completion.Obtained
import Docwright.Proofs.Program.Outputs

/-!
# Sessions

A session runs programs one after the other on the same disk. A run starts with
services and limits of its own, and what it changed before a fault stays. Any of the
programs may be run, under any settings by which its results go to the usual
places, wherever it reads from.

One run grows a plain disk within the outputs, so a session does. What a session
may change and what it never overwrites is read off that.
-/

namespace Docwright.Program

open Docwright.Disk
open Docwright.Job
open Docwright.Path

/-- What is run: a program with its set-up, or its main part under settings by which
its results go to the usual places. -/
inductive Launch where
  | whole (environment : Environment) (program : Program)
  | survey (settings : Survey.Settings)
  | notes (settings : Notes.Settings)
  | referenceIndex (settings : ReferenceIndex.Settings)
  | components (settings : Component.Settings)
  | overview (settings : Overview.Settings)
  | manual (settings : Manual.Settings)

def Launch.job : Launch → Job Unit
  | .whole environment program => run environment program
  | .survey settings => Survey.run { settings with structureFile := "./repo_structure.json" }
  | .notes settings => Notes.run { settings with notesFolder := "./file_notes" }
  | .referenceIndex settings => ReferenceIndex.run { settings with indexFolder := "./rag_index" }
  | .components settings => Component.run { settings with pageFolder := "./intermediate_docs" }
  | .overview settings =>
      Overview.run { settings with overviewFolder := "./high-level-overview" }
  | .manual settings =>
      Manual.run { settings with
        contentsFile := "./high-level-overview/TABLE_OF_CONTENTS.md"
        manualFolder := "./final_documentation" }

/-- A launch, what the services answer in it, and how deep it may go. -/
structure Run where
  launch : Launch
  services : Services
  limits : Limits

def Run.left (run : Run) (disk : Disk) : Disk :=
  (after run.launch.job { disk := disk, services := run.services, limits := run.limits }).disk

def session : List Run → Disk → Disk
  | [], disk => disk
  | run :: rest, disk => session rest (run.left disk)

theorem Launch.job_growsDisk (launch : Launch) : GrowsDisk outputs launch.job := by
  cases launch with
  | whole environment program => exact run_growsDisk environment program
  | survey settings => exact survey_growsDisk rfl
  | notes settings => exact notes_growsDisk rfl
  | referenceIndex settings => exact referenceIndex_growsDisk rfl
  | components settings => exact components_growsDisk rfl
  | overview settings => exact overview_growsDisk rfl
  | manual settings => exact manual_growsDisk rfl rfl

theorem Run.grows (run : Run) {disk : Disk} (hplain : disk.Plain) :
    Grows outputs disk (run.left disk) :=
  run.launch.job_growsDisk { disk := disk, services := run.services, limits := run.limits } hplain

theorem session_grows (runs : List Run) {disk : Disk} (hplain : disk.Plain) :
    Grows outputs disk (session runs disk) := by
  induction runs generalizing disk with
  | nil => exact Grows.refl hplain
  | cons run rest ih =>
      have hfirst := run.grows hplain
      exact hfirst.trans (ih hfirst.plain)

theorem session_append (first later : List Run) (disk : Disk) :
    session (first ++ later) disk = session later (session first disk) := by
  induction first generalizing disk with
  | nil => rfl
  | cons run rest ih => exact ih (run.left disk)

theorem top_of_outputs {top : String} {rest : Place}
    (h : outputs.folder (top :: rest) ∨ outputs.file (top :: rest)) :
    top ∈ ["repo_structure.json", "file_notes", "intermediate_docs", "high-level-overview",
      "final_documentation", "rag_index"] := by
  have hchild : ∀ {folder : String}, IsChildOf folder (top :: rest) → top = folder := by
    rintro folder ⟨name, hplace⟩
    exact (List.cons.inj hplace).1
  rcases h with hfolder | hproject | hplace | hplace | hplace
  · cases rest with
    | nil => exact List.mem_cons_of_mem _ hfolder
    | cons name rest => exact hfolder.elim
  · cases rest with
    | nil => exact List.mem_cons.2 (Or.inl hproject)
    | cons name rest =>
        cases rest with
        | nil => simp [hproject.1]
        | cons name rest => exact hproject.elim
  · simp [hchild hplace]
  · simp [hchild hplace]
  · simp [hchild hplace]

theorem not_rewritable {folder : String} (h : folder = "file_notes" ∨ folder = "final_documentation")
    (name : String) : ¬ outputs.rewritable [folder, name] := by
  rcases h with rfl | rfl
  all_goals
    rintro (⟨hfolder, _⟩ | ⟨_, hplace⟩)
    · exact absurd hfolder (by decide)
    · exact absurd (List.cons.inj hplace).1 (by decide)

theorem file_of_rewritable {place : Place} (h : outputs.rewritable place) : outputs.file place := by
  rcases h with hproject | hpage
  · exact Or.inl hproject
  · exact Or.inr (Or.inr (Or.inl hpage))

theorem outputs_of_ne {disk left : Disk} (h : Grows outputs disk left)
    {place : Place} (hne : left.get? place ≠ disk.get? place) :
    outputs.folder place ∧ left.get? place = some .folder ∨
      outputs.file place ∧ ∃ new, left.get? place = some (.file new) := by
  cases hitem : disk.get? place with
  | none =>
      rcases h.fresh hitem with hnone | hfolder | hfile
      · exact absurd (hnone.trans hitem.symm) hne
      · exact Or.inl hfolder
      · exact Or.inr hfile
  | some item =>
      have hother : item.isFile = true := by
        rw [← Bool.not_eq_false]
        exact fun hfile => hne ((h.other hitem hfile).trans hitem.symm)
      cases item with
      | file content =>
          rcases h.file hitem with hsame | ⟨hrewritable, hnew⟩
          · exact absurd (hsame.trans hitem.symm) hne
          · exact Or.inr ⟨file_of_rewritable hrewritable, hnew⟩
      | _ => exact absurd hother (by simp [Item.isFile])

/-- A session removes nothing and turns nothing into something else. What it changes
or adds are outputs, in particular nothing among the sources and the reference
documents. -/
theorem session_changes_only_outputs (runs : List Run) {disk : Disk} (hplain : disk.Plain) :
    (∀ place item, disk.get? place = some item → item.isFile = false →
        (session runs disk).get? place = some item) ∧
      (∀ place content, disk.get? place = some (.file content) →
        ∃ new, (session runs disk).get? place = some (.file new)) ∧
      (∀ place, (session runs disk).get? place ≠ disk.get? place →
        outputs.folder place ∧ (session runs disk).get? place = some .folder ∨
          outputs.file place ∧ ∃ new, (session runs disk).get? place = some (.file new)) ∧
      (∀ rest, (session runs disk).get? ("src" :: rest) = disk.get? ("src" :: rest)) ∧
      ∀ rest, (session runs disk).get? ("metadata" :: rest) = disk.get? ("metadata" :: rest) := by
  have hgrows := session_grows runs hplain
  have hsource : ∀ top rest, top ∉ ["repo_structure.json", "file_notes", "intermediate_docs",
      "high-level-overview", "final_documentation", "rag_index"] →
      (session runs disk).get? (top :: rest) = disk.get? (top :: rest) := by
    intro top rest htop
    by_cases hsame : (session runs disk).get? (top :: rest) = disk.get? (top :: rest)
    · exact hsame
    · rcases outputs_of_ne hgrows hsame with ⟨hfolder, _⟩ | ⟨hfile, _⟩
      · exact absurd (top_of_outputs (Or.inl hfolder)) htop
      · exact absurd (top_of_outputs (Or.inr hfile)) htop
  refine ⟨fun _ _ => hgrows.other, fun _ _ => hgrows.exists_file,
    fun _ => outputs_of_ne hgrows, ?_, ?_⟩
  · exact fun rest => hsource "src" rest (by decide)
  · exact fun rest => hsource "metadata" rest (by decide)

/-- Two source files of one name in different folders, and an index. -/
def twinDisk : Disk :=
  ⟨[("src", .folder
      [("x", .folder [("a.h", .file [120])]), ("y", .folder [("a.h", .file [121])])]),
    ("rag_index", .folder [])]⟩

/-- A run that takes notes; every text it asks for is the same. -/
def notesRun (text : String) : Run where
  launch := .whole {} .notes
  services :=
    { Services.failing with
      writer := ⟨[], Completion.oneText text⟩
      searches := ⟨[], .ok []⟩ }
  limits := .ample

/-- Notes on the twins are added, and all else is as it was. -/
theorem session_changes_only_outputs_twins :
    isPlainEntries twinDisk.entries = true ∧
      (session [notesRun "n"] twinDisk).get? ["file_notes", "a.h.md"] = some (.file [110]) ∧
      (∀ place, (session [notesRun "n"] twinDisk).get? place ≠ twinDisk.get? place →
        outputs.folder place ∧ (session [notesRun "n"] twinDisk).get? place = some .folder ∨
          outputs.file place ∧
            ∃ new, (session [notesRun "n"] twinDisk).get? place = some (.file new)) ∧
      ∀ rest, (session [notesRun "n"] twinDisk).get? ("src" :: rest) =
        twinDisk.get? ("src" :: rest) := by
  have hplain : isPlainEntries twinDisk.entries = true := by decide +kernel
  obtain ⟨_, _, hchanges, hsource, _⟩ :=
    session_changes_only_outputs [notesRun "n"] (plain_of_isPlain hplain)
  exact ⟨hplain, by decide +kernel, hchanges, hsource⟩

theorem file_eq_of_grows {disk left : Disk} (h : Grows outputs disk left) {folder : String}
    (hfolder : folder = "file_notes" ∨ folder = "final_documentation") {name : String}
    {content : List UInt8} (hfile : disk.get? [folder, name] = some (.file content)) :
    left.get? [folder, name] = some (.file content) := by
  rcases h.file hfile with hsame | ⟨hrewritable, _⟩
  · exact hsame
  · exact absurd hrewritable (not_rewritable hfolder name)

/-- The notes on a file and the sections of the manual are written once: a file that
is there after some runs is there, with the same content, after any further ones.
The same holds from one source file to the next and from one section to the next
within a run, whatever their names and titles are. -/
theorem session_keeps_notes_and_sections {folder : String}
    (hfolder : folder = "file_notes" ∨ folder = "final_documentation") (name : String)
    (content : List UInt8) :
    (∀ (disk : Disk) (first later : List Run), disk.Plain →
      (session first disk).get? [folder, name] = some (.file content) →
      (session (first ++ later) disk).get? [folder, name] = some (.file content)) ∧
    ∀ site : Site, site.disk.Plain → site.disk.get? [folder, name] = some (.file content) →
      (∀ (settings : Notes.Settings) (path source : String), '/' ∉ source.toList →
        (after (Notes.annotate settings path (Path.join "./file_notes" (source ++ ".md")))
          site).disk.get? [folder, name] = some (.file content)) ∧
      ∀ (settings : Manual.Settings) (overview contents title : String),
        (after (Manual.writeSection { settings with manualFolder := "./final_documentation" }
          overview contents title) site).disk.get? [folder, name] = some (.file content) := by
  constructor
  · intro disk first later hplain hfile
    have hfirst := session_grows first hplain
    rw [session_append]
    exact file_eq_of_grows (session_grows later hfirst.plain) hfolder hfile
  · intro site hplain hfile
    constructor
    · intro settings path source hslash
      have hnotes : LeadsTo "./file_notes" ["file_notes"] :=
        (leadsTo_outputFolder (by simp [IsOutputFolder]) (by decide)).1
      have hpath : LeadsTo (Path.join "./file_notes" (source ++ ".md"))
          ["file_notes", source ++ ".md"] :=
        hnotes.join_append hslash (by decide) (by decide)
      have hgrows : GrowsDisk outputs (Notes.annotate settings path _) :=
        Notes.annotate_growsDisk settings path hpath (Or.inr (Or.inl ⟨_, rfl⟩))
      exact file_eq_of_grows (hgrows site hplain) hfolder hfile
    · intro settings overview contents title
      have hmanual : LeadsTo "./final_documentation" ["final_documentation"] :=
        (leadsTo_outputFolder (by simp [IsOutputFolder]) (by decide)).1
      have hgrows : GrowsDisk outputs (Manual.writeSection
          { settings with manualFolder := "./final_documentation" } overview contents title) :=
        Manual.writeSection_growsDisk overview contents title
          (Manual.leadsTo_sectionPath hmanual title) (Or.inr (Or.inr (Or.inr ⟨_, rfl⟩)))
      exact file_eq_of_grows (hgrows site hplain) hfolder hfile

/-- The notes on the first twin are kept when the second one is met, and in a second
run, which would have other notes. -/
theorem session_keeps_notes_and_sections_twins :
    isPlainEntries twinDisk.entries = true ∧
      (session [notesRun "n"] twinDisk).get? ["file_notes", "a.h.md"] = some (.file [110]) ∧
      (session ([notesRun "n"] ++ [notesRun "m"]) twinDisk).get? ["file_notes", "a.h.md"] =
        some (.file [110]) := by
  have hplain : isPlainEntries twinDisk.entries = true := by decide +kernel
  have hfile : (session [notesRun "n"] twinDisk).get? ["file_notes", "a.h.md"] =
      some (.file [110]) := by
    decide +kernel
  have hkeeps := session_keeps_notes_and_sections (Or.inl rfl) "a.h.md" [110]
  exact ⟨hplain, hfile, hkeeps.1 twinDisk _ _ (plain_of_isPlain hplain) hfile⟩

end Docwright.Program
