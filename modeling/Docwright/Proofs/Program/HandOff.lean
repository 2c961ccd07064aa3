import Docwright.Component
import Docwright.Overview
import Docwright.Proofs.Disk.Access
import Docwright.Proofs.Survey.Report
import Docwright.Proofs.Text.Lines
import Docwright.Proofs.Text.Utf8

/-!
# The structure file between the programs

The survey writes the structure file, and two programs read it. Both get the mapping
that the survey built, with its paths and the keys of its entries in the same order:
the component pages are asked for from the value that was read, and the overview from
that value written again with another indentation, which reading would bring back too.
-/

namespace Docwright

open Docwright.Job

section Reading

variable {site : Site} {path : String} {indent : Nat} {v : Json.Value}

/-- The file at the path holds a written form of the value. -/
def Disk.HoldsWritten (disk : Disk) (path : String) (indent : Nat) (v : Json.Value) : Prop :=
  disk.read? path = .ok (Text.Utf8.encode (v.write indent).toList)

theorem Disk.HoldsWritten.hasItem {disk : Disk} (h : disk.HoldsWritten path indent v) :
    disk.hasItem path = true := by
  unfold HoldsWritten read? at h
  unfold Disk.hasItem
  split at h
  · exact absurd h (by simp)
  · rename_i hresolve
    rw [hresolve]
  all_goals exact absurd h (by simp)

variable (hnull : path.toList.any (·.toNat == 0) = false)
  (hvalue : Json.Textual site.limits.nesting v) (hfile : site.disk.HoldsWritten path indent v)

include hnull hvalue hfile

theorem readJson_written : readJson path site = .ok v site := by
  have hbytes : readBytes path site = .ok (Text.Utf8.encode (v.write indent).toList) site := by
    have hends := readBytes_ends hnull site
    rw [hfile] at hends
    rw [apply_eq_ok hends.1, ← readBytes_still path site]
  have hnewlines : Text.unifyNewlines (v.write indent).toList = (v.write indent).toList := by
    apply Text.unifyNewlines_eq_self
    intro hmem
    exact absurd (Json.isPlainChar_writeAt hvalue indent 0 _ hmem) (by decide)
  have htext : readText path site = .ok (v.write indent) site := by
    rw [readText, bind_apply, hbytes]
    simp only [Text.Utf8.decode_encode, hnewlines, String.ofList_toList]
    rfl
  rw [readJson, get_bind_apply, bind_apply, htext]
  simp only [Json.parse_write indent hvalue]
  rfl

theorem loadJson_written : Component.loadJson path site = .ok v site := by
  have hread := readJson_written hnull hvalue hfile
  rw [Component.loadJson, bind_apply, hasItem_apply, hnull, hfile.hasItem]
  change (attempt (readJson path) >>= _) site = _
  rw [bind_apply, attempt, hread]
  rfl

/-- The overview shows the value in another written form. -/
theorem loadStructure_written (settings : Overview.Settings)
    (hpath : settings.structureFile = path) :
    result (Overview.loadStructure settings) site = .ok (v.write 2) := by
  have hitem := hasItem_apply path site
  rw [hnull, hfile.hasItem] at hitem
  have hread := attempt_eq_ok (result_ok (readJson_written hnull hvalue hfile))
  rw [Overview.loadStructure, hpath, result_bind_ok hitem]
  change result (attempt (readJson path) >>= _) site = _
  rw [result_bind_ok hread]
  rfl

end Reading

theorem result_bind_eq_ok {α β : Type} {first : Job α} {next : α → Job β} {site : Site} {b : β}
    (h : result (first >>= next) site = .ok b) :
    ∃ a, result first site = .ok a ∧ result (next a) (after first site) = .ok b := by
  cases happly : first site with
  | ok a left =>
      rw [result_bind_ok happly] at h
      exact ⟨a, result_ok happly, after_ok happly ▸ h⟩
  | error fault left =>
      rw [result, bind_apply, happly] at h
      exact absurd h (by simp)

theorem Overview.repository_eq {settings : Settings} {site : Site} {digest : Digest} {shown : String}
    (hshown : result (loadStructure settings) site = .ok shown)
    (hdigest : result (loadDigest settings) site = .ok digest) :
    digest.repository = (structureSection shown).toList := by
  obtain ⟨text, htext, hdigest⟩ := result_bind_eq_ok hdigest
  obtain ⟨notes, _, hdigest⟩ := result_bind_eq_ok hdigest
  obtain ⟨pages, _, hdigest⟩ := result_bind_eq_ok hdigest
  rw [← Except.ok.inj (htext.symm.trans hshown), ← Except.ok.inj hdigest]

theorem Disk.read?_of_write? {disk left : Disk} {path : String} {place : Place}
    {content : List UInt8} (hplain : disk.Plain) (hpath : Path.LeadsTo path place)
    (hnull : ∀ c ∈ path.toList, c.toNat ≠ 0)
    (hwrite : disk.write? path content = .ok left) : left.read? path = .ok content := by
  obtain ⟨hshort, hcan, rfl⟩ := (write?_eq_ok_iff hplain hpath content left).1 hwrite
  have hleft : (disk.insert place (.file content)).Plain :=
    hplain.insert hcan (hcan.isName hplain hpath hnull) (by simp)
  apply read?_of_file hleft hpath hshort
  rw [get?_insert_of_canHold hcan, if_pos rfl]

theorem Survey.save_holdsWritten {site : Site} (hplain : site.disk.Plain)
    {found : Survey.Structure}
    (hwrite : (result (writeText "./repo_structure.json" found.text) site).isOk = true) :
    (after (Survey.save {} found) site).disk.HoldsWritten "./repo_structure.json" 4
      found.toValue := by
  have happly := writeText_apply (show ("./repo_structure.json" : String).toList.any
    (·.toNat == 0) = false by decide) found.text site
  rw [isOk_writeText (by decide)] at hwrite
  cases hchange : site.disk.write? "./repo_structure.json"
      (Text.Utf8.encode found.text.toList) with
  | error error =>
      rw [hchange] at hwrite
      exact absurd hwrite (by simp [Except.isOk, Except.toBool])
  | ok changed =>
      rw [hchange] at happly
      have hsave : (after (Survey.save {} found) site).disk = changed := by
        rw [Survey.save, after_bind_ok (attempt_eq_ok (result_ok happly)), after_ok happly]
        rfl
      rw [Disk.HoldsWritten, hsave]
      exact Disk.read?_of_write? hplain Disk.leadsTo_structure
        (Disk.toNat_ne_zero_of_noNull (by decide)) hchange

section Surveyed

variable {site : Site} (hplain : site.disk.Plain) (hlanguage : site.services.language = .ok ())
  (hparser : site.services.parserLoad = .ok ())
  (hcalm : ∀ fault, ¬ Survey.Interrupts site.services.parser fault)
  (hroom : site.disk.CanHold ["repo_structure.json"])
  (hcomplete : (site.disk.walk site.limits.levels "./src").complete = true)
  (hsome : Survey.sourcePaths site ≠ [])

include hplain hlanguage hparser hcalm hroom hcomplete hsome

/-- A survey that finds source files leaves what it lists in the structure file. -/
theorem Survey.run_holdsWritten :
    (after (run {}) site).disk.HoldsWritten "./repo_structure.json" 4
      (listed {} site.disk site.services.parser (sourcePaths site)).toValue := by
  obtain ⟨left, happly, hreported⟩ := run_of_complete hlanguage hparser hcalm hcomplete
  have hwrite := (Disk.write?_eq_ok_iff hplain Disk.leadsTo_structure
    (Text.Utf8.encode (listed {} site.disk site.services.parser (sourcePaths site)).text.toList)
    _).2 ⟨by decide, hroom, rfl⟩
  obtain ⟨hleft, -⟩ := hreported.saved (mt listed_eq_nil_iff.1 hsome) _ hwrite
  rw [after_ok happly, Disk.HoldsWritten, hleft]
  exact Disk.read?_of_write? hplain Disk.leadsTo_structure
    (Disk.toNat_ne_zero_of_noNull (by decide)) hwrite

theorem Survey.loadJson_after_run {later : Site} (hlater : later.disk = (after (run {}) site).disk) :
    result (Component.loadJson "./repo_structure.json") later =
      .ok (listed {} site.disk site.services.parser (sourcePaths site)).toValue := by
  have hfile := run_holdsWritten hplain hlanguage hparser hcalm hroom hcomplete hsome
  rw [← hlater] at hfile
  have hnodup : (sourcePaths site).Nodup :=
    Disk.nodup_filePaths hplain.named _ _ Disk.isTopFolder_sources.leadsTo
  exact result_ok (loadJson_written (by decide)
    ((listed_isMapping {} _ _ hnodup).textual later.limits) hfile)

end Surveyed

/-- The structure that a survey builds is handed on whole. Its written form is in ASCII.
Where the structure file holds that form, the component pages are made from the same
mapping, and what stands between the marks of the overview's material is a form of it
too. Saving it on a plain disk leaves that form in the file. -/
theorem structure_is_handed_on {site : Site} (hnamed : site.disk.Named) {found : Survey.Structure}
    (hfound : result (Survey.survey {}) site = .ok found) :
    (∀ c ∈ found.text.toList, Json.IsPlainChar c) ∧
      (∀ later : Site,
        later.disk.read? "./repo_structure.json" = .ok (Text.Utf8.encode found.text.toList) →
          result (Component.loadJson "./repo_structure.json") later = .ok found.toValue ∧
            ∃ shown, Json.parse later.limits.nesting shown = .ok found.toValue ∧
              result (Overview.loadStructure {}) later = .ok shown ∧
              ∀ digest, result (Overview.loadDigest {}) later = .ok digest →
                digest.repository = (Overview.structureSection shown).toList) ∧
      (site.disk.Plain → (result (writeText "./repo_structure.json" found.text) site).isOk = true →
        (after (Survey.save {} found) site).disk.read? "./repo_structure.json" =
          .ok (Text.Utf8.encode found.text.toList)) := by
  have hvalue := (Survey.survey_isMapping hnamed hfound).textual
  refine ⟨Json.isPlainChar_writeAt (hvalue site.limits) 4 0, fun later hfile => ?_,
    fun hplain => Survey.save_holdsWritten hplain⟩
  have hshown := loadStructure_written (by decide) (hvalue later.limits) hfile {} rfl
  exact ⟨result_ok (loadJson_written (by decide) (hvalue later.limits) hfile), found.toValue.write 2,
    Json.parse_write 2 (hvalue later.limits), hshown, fun digest => Overview.repository_eq hshown⟩

/-- A source file whose name needs every kind of escape, before a parser that fails. -/
def oddSite : Site where
  disk := ⟨[("src", .folder [("a\"\\\té😀.h", .file [120])])]⟩
  services := { Services.failing with parser := ⟨[], .error (.raised "ValueError" "\x7f\n")⟩ }
  limits := .ample

def oddStructure : Survey.Structure :=
  [("./src/a\"\\\té😀.h", .failed "\x7f\n")]

theorem structure_is_handed_on_odd :
    Disk.isPlainEntries oddSite.disk.entries = true ∧
      (result (Survey.survey {}) oddSite).toOption = some oddStructure ∧
      (result (writeText "./repo_structure.json" oddStructure.text) oddSite).isOk = true ∧
      result (Component.loadJson "./repo_structure.json")
        (after (Survey.save {} oddStructure) oddSite) = .ok oddStructure.toValue := by
  have hplain : Disk.isPlainEntries oddSite.disk.entries = true := by decide +kernel
  have hfound : (result (Survey.survey {}) oddSite).toOption = some oddStructure := by
    decide +kernel
  have hwrite : (result (writeText "./repo_structure.json" oddStructure.text) oddSite).isOk =
      true := by decide +kernel
  obtain ⟨-, hread, hsave⟩ := structure_is_handed_on (Disk.plain_of_isPlain hplain).named
    (result_eq_ok hfound)
  exact ⟨hplain, hfound, hwrite, (hread _ (hsave (Disk.plain_of_isPlain hplain) hwrite)).1⟩

end Docwright
