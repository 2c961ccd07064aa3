import Docwright.Proofs.Component.Account
import Docwright.Proofs.Manual.Account
import Docwright.Proofs.Notes.Account
import Docwright.Proofs.Overview.Account
import Docwright.Proofs.Program.HandOff

/-!
# What failures of the services come to

Four programs ask services for texts. Whatever they are answered, every document that one
of them changes is drawn from something that it received, and a document for which it
received nothing stays as it was. What is received should be a text; a document that is
opened for anything else is left empty.

Where no answer is an interruption, the programs end well: a failure is caught wherever it
is met. What can still stop them, beside a file in the place of a folder of results, a
structure file that lists no entries and a tree of sources that goes down further than a
walk does, is met by the notes alone: the index cannot be opened, or something other than a
text is joined to notes or put to a test that only texts pass.
-/

namespace Docwright.Program

open Docwright.Disk
open Docwright.Job
open Docwright.Path

variable {disk : Disk} {services : Services}

theorem Drawn.isPresent {made : List Request} {place : Place} {value : Json.Value}
    (h : Drawn (services.received made) place value) : value.isPresent = true := by
  cases h with
  | answer hrequest hreceived => exact Services.isPresent_of_mem_received hreceived
  | addendum hnotes hadded hboth =>
      exact Notes.isPresent_extended (Services.isPresent_of_mem_received hnotes) hboth

section Contract

variable {P : Site → Prop} {job : Job Unit} {reason : Fault → Prop} {site : Site}
  (h : Brings P job (fun _ => Accounts disk services) (Stopped disk services reason))

include h

/-- Without an interruption and without a reason to stop, a program ends well. -/
theorem result_eq_ok_of_calm (hcalm : services.Calm) (hreason : ∀ fault, ¬ reason fault)
    (hsite : P site) : result job site = .ok () := by
  cases happly : job site with
  | ok done left => exact result_ok happly
  | error fault left => exact absurd ((h.of_error hsite happly).2 hcalm) (hreason fault)

end Contract

theorem isListing_toValue (found : Survey.Structure) : Component.IsListing found.toValue := by
  refine ⟨_, rfl, ?_⟩
  intro file hfile
  obtain ⟨⟨path, entry⟩, -, rfl⟩ := List.mem_map.1 hfile
  cases entry with
  | analysed findings => exact ⟨_, rfl⟩
  | blank => exact ⟨_, rfl⟩
  | failed error => exact ⟨_, rfl⟩

theorem loadJson_eq_null {path : String} {site : Site}
    (hunread : ∀ value, result (readJson path) site ≠ .ok value) {value : Json.Value}
    (h : result (Component.loadJson path) site = .ok value) : value = .null := by
  rw [Component.loadJson, result_bind_ok (hasItem_apply path site)] at h
  split at h
  · exact (Except.ok.inj h).symm
  · cases hread : readJson path site with
    | ok found left => exact absurd (result_ok hread) (hunread found)
    | error fault left =>
        have hordinary := ((readJson_catchable (fun _ => True) path).of_error trivial hread).1
        rw [result_bind_ok (attempt_eq_error (result_error hread) hordinary)] at h
        exact (Except.ok.inj h).symm

/-- The structure file has no value, or holds what a survey of some disk writes. -/
def StructureUsable (site : Site) : Prop :=
  (∀ value, result (readJson "./repo_structure.json") site ≠ .ok value) ∨
    ∃ (surveyed : Site) (found : Survey.Structure), surveyed.disk.Named ∧
      result (Survey.survey {}) surveyed = .ok found ∧
      site.disk.read? "./repo_structure.json" = .ok (Text.Utf8.encode found.text.toList)

theorem StructureUsable.isListing {site : Site} (h : StructureUsable site) {value : Json.Value}
    (hvalue : result (Component.loadJson "./repo_structure.json") site = .ok value)
    (hpresent : value.isPresent = true) : Component.IsListing value := by
  obtain hunread | ⟨surveyed, found, hnamed, hfound, hfile⟩ := h
  · rw [loadJson_eq_null hunread hvalue] at hpresent
    exact absurd hpresent (by simp [Json.Value.isPresent])
  · have hmapping := (Survey.survey_isMapping hnamed hfound).textual site.limits
    have hloaded := result_ok (loadJson_written (by decide) hmapping hfile)
    rw [← Except.ok.inj (hloaded.symm.trans hvalue)]
    exact isListing_toValue found

/-- Where no answer is an interruption, the programs end well on a plain disk whose folders
of results are free or folders. Component pages are made if the structure file has no value
that can be read, or what a survey writes. The notes are taken to their end unless the index
is loaded and an exchange about some file breaks the run, or the tree of the sources goes
down further than a walk may. No exchange does if the services give texts. -/
theorem service_failures_do_not_escape {site : Site} (hplain : site.disk.Plain)
    (hfresh : site.asked = []) (hopen : OutputsOpen site.disk) (hcalm : site.services.Calm) :
    let beyond := site.disk.GoesBeyond site.limits.levels "./src" ["src"]
    (¬ Notes.Loads site.disk site.services → result (Notes.run {}) site = .ok ()) ∧
      (Notes.Loads site.disk site.services → ∀ fault,
        result (Notes.run {}) site = .error fault ↔
          (∃ turn ∈ Notes.turnsOf {} site, (turn.exchange {}).Breaks fault) ∨
          (∀ turn ∈ Notes.turnsOf {} site, ∀ other, ¬ (turn.exchange {}).Breaks other) ∧
            beyond ∧ fault = .deepPath) ∧
      (site.services.GivesTexts → ¬ beyond → result (Notes.run {}) site = .ok ()) ∧
      result (Overview.run {}) site = .ok () ∧
      result (Manual.run {}) site = .ok () ∧
      (StructureUsable site → result (Component.run {}) site = .ok ()) := by
  intro beyond
  have hstart : Accounts site.disk site.services site := .start hplain hfresh
  have husual : ({} : Notes.Settings).IsUsual := Notes.isUsual _ _ _
  have hready : Notes.Ready site := ⟨hplain, hcalm.writer, hcalm.searches⟩
  have hnotes : ¬ Notes.Loads site.disk site.services → result (Notes.run {}) site = .ok () :=
    fun hloads => result_eq_ok_of_calm (Notes.run_accounts husual hplain hfresh) hcalm
      (fun _ => hloads) rfl
  refine ⟨hnotes, ?_, fun htexts hbeyond => ?_, ?_, ?_, fun husable => ?_⟩
  · rintro ⟨hsources, hindex, hload⟩ fault
    exact Notes.result_run_eq_error_iff husual hready hsources hindex hload
  · by_cases hloads : Notes.Loads site.disk site.services
    · obtain ⟨hsources, hindex, hload⟩ := hloads
      have hbreaks : ∀ turn ∈ Notes.turnsOf {} site, ∀ fault, ¬ (turn.exchange {}).Breaks fault := by
        intro turn hturn fault
        -- a turn has the answers that are left, and of those too every one is a text
        obtain ⟨before, later, hsplit⟩ := List.append_of_mem hturn
        refine Notes.Turn.not_breaks ?_
        rw [Notes.services_of_turnsOf husual hready hsources hindex hload hsplit]
        exact htexts.foldl _
      cases hresult : result (Notes.run {}) site with
      | ok done => rfl
      | error fault =>
          obtain ⟨turn, hturn, hbreak⟩ | ⟨-, hdown, -⟩ :=
            (Notes.result_run_eq_error_iff husual hready hsources hindex hload).1 hresult
          · exact absurd hbreak (hbreaks turn hturn fault)
          · exact absurd hdown hbeyond
    · exact hnotes hloads
  · exact result_eq_ok_of_calm (Overview.run_accounts (Overview.isUsual _ _ _)) hcalm
      (fun _ h => h hopen) hstart
  · exact result_eq_ok_of_calm (Manual.run_accounts (Manual.isUsual _)) hcalm (fun _ h => h) hstart
  · refine result_eq_ok_of_calm (Component.run_accounts rfl hplain hfresh) hcalm ?_ rfl
    rintro fault ⟨value, hvalue, hpresent, hlisting⟩
    exact hlisting (husable.isListing hvalue hpresent)

theorem outputsOpen_of_forall (h : ∀ name ∈ ["file_notes", "intermediate_docs",
      "high-level-overview", "final_documentation", "rag_index"],
    disk.get? [name] = none ∨ disk.get? [name] = some .folder) : OutputsOpen disk :=
  fun name houtput => h name houtput

/-- A site whose tree of sources goes down as many levels as a walk may, with an index that
can be loaded and services that fail. -/
def deepSite (limit : Nat) : Site where
  disk := ⟨[("rag_index", .folder []), ("src", nested limit)]⟩
  services := Services.failing
  limits := { Limits.ample with levels := some limit }

theorem plain_deepSite (limit : Nat) : (deepSite limit).disk.Plain := by
  have hnames : isName "rag_index" = true ∧ isName "src" = true := by decide
  apply plain_of_isPlain
  simp [deepSite, isPlainEntries, isPlainTree, isPlainTree_nested, hnames]

theorem calm_failing : Services.failing.Calm where
  writer := Feed.ordinary_of_not_isInterruption rfl
  drafter := Feed.ordinary_of_not_isInterruption rfl
  openings := Feed.ordinary_of_not_isInterruption rfl
  searches := Feed.ordinary_of_not_isInterruption rfl
  index := by simp [Services.failing]

theorem givesTexts_failing : Services.failing.GivesTexts where
  openings n := by
    have hanswer := Services.failing.openings.answer_mem n
    simpa [Services.failing] using hanswer
  writer n hpresent := by
    have hanswer : Services.failing.writer.answer n = .error (.raised "RuntimeError" "") := by
      simpa [Services.failing] using Services.failing.writer.answer_mem n
    rw [hanswer] at hpresent
    exact absurd hpresent (by simp [Completion.obtained, Json.Value.isPresent])

/-- All programs end well though every request fails, also where the tree of the sources
goes down as far as a walk may. -/
theorem service_failures_do_not_escape_deep :
    (deepSite 990).disk.Plain ∧ OutputsOpen (deepSite 990).disk ∧ (deepSite 990).services.Calm ∧
      result (Notes.run {}) (deepSite 990) = .ok () ∧
      result (Overview.run {}) (deepSite 990) = .ok () ∧
      result (Manual.run {}) (deepSite 990) = .ok () ∧
      result (Component.run {}) (deepSite 990) = .ok () := by
  have hopen : OutputsOpen (deepSite 990).disk := outputsOpen_of_forall (by decide +kernel)
  obtain ⟨-, -, hnotes, hoverview, hmanual, hpages⟩ :=
    service_failures_do_not_escape (plain_deepSite 990) rfl hopen calm_failing
  refine ⟨plain_deepSite 990, hopen, calm_failing, hnotes givesTexts_failing ?_, hoverview,
    hmanual, hpages (.inl ?_)⟩
  · rintro ⟨limit, hlimit, names, hlength, hfolder, -⟩
    obtain ⟨item, hitem, -⟩ := (Option.any_eq_true _ _).1 hfolder
    have hle : names.length ≤ 990 := length_le_of_nested hitem
    rw [hlength, ← Option.some.inj hlimit] at hle
    exact absurd hle (by decide)
  · have hunread : (result (readJson "./repo_structure.json") (deepSite 990)).isOk = false := rfl
    intro value hvalue
    have hread : result (readJson "./repo_structure.json") (deepSite 990) = .ok value := hvalue
    rw [hread] at hunread
    exact absurd hunread (by simp [Except.isOk, Except.toBool])

/-- A number in the place of an addendum stops the taking of notes. -/
theorem notes_run_raises_on_number :
    let site := Notes.oneFileSite [.str "n", .int 5] [.str "f"]
    site.disk.Plain ∧ OutputsOpen site.disk ∧ site.services.Calm ∧
      ¬ site.disk.GoesBeyond site.limits.levels "./src" ["src"] ∧
      result (Notes.run {}) site = .error (.noMember "int" "strip") := by
  intro site
  have hplain : site.disk.Plain := plain_of_isPlain (by decide +kernel)
  have hcalm : site.services.Calm :=
    ⟨Feed.ordinary_of_not_isInterruption (by decide +kernel), calm_failing.drafter,
      calm_failing.openings, Feed.ordinary_of_not_isInterruption (by decide +kernel),
      calm_failing.index⟩
  have hexchange : .supported "x" (.str "n") "f" (.int 5) ∈
      (Notes.turnsOf {} site).map (Notes.Turn.exchange {}) := by
    decide +kernel
  obtain ⟨turn, hturn, hsupported⟩ := List.mem_map.1 hexchange
  have hready : Notes.Ready site := ⟨hplain, hcalm.writer, hcalm.searches⟩
  refine ⟨hplain, outputsOpen_of_forall (by decide +kernel), hcalm, ?_, ?_⟩
  · rintro ⟨limit, hlimit, -⟩
    exact absurd hlimit (by simp [site, Notes.oneFileSite, Limits.ample])
  · refine (Notes.result_run_eq_error_iff (Notes.isUsual _ _ _) hready (by decide +kernel)
      (by decide +kernel) rfl).2 (.inl ⟨turn, hturn, ?_⟩)
    rw [hsupported]
    exact .reply "x" (.str "n") "f" (by decide) rfl

end Docwright.Program
