import Docwright.Proofs.Job.Brings
import Docwright.Proofs.Manual.Material

/-!
# Writing the manual once more

In a run each section of the table of contents is dealt with: it has a file, or it was asked
for. What stops a run within the turn of a section stops it after the request, and leaves the
section without a file. So where every request for a section came to a file, all sections
have one, and a run that obtains the same table of contents asks for nothing else.
-/

namespace Docwright.Manual

open Docwright.Disk
open Docwright.Job
open Docwright.Path

variable {settings : Settings} {site : Site}

section First

variable {overview contents title : String} {disk : Disk} {done : List String}

/-- The sections that are done with have a file or were asked for, and beside the sections
the disk is the given one. -/
structure Written (overview contents : String) (disk : Disk) (done : List String) (site : Site) :
    Prop where
  plain : site.disk.Plain
  beside : ∀ name, site.disk.get? ["high-level-overview", name] =
    disk.get? ["high-level-overview", name]
  folder : site.disk.get? ["final_documentation"] ≠ none
  dealt : ∀ title ∈ done, site.disk.get? ["final_documentation", sectionName title] ≠ none ∨
    sectionRequest overview contents title ∈ site.asked

def Missing (overview contents : String) (titles : List String) (site : Site) : Prop :=
  ∃ title ∈ titles, sectionRequest overview contents title ∈ site.asked ∧
    site.disk.get? ["final_documentation", sectionName title] = none

theorem Missing.mono {titles more : List String} (h : Missing overview contents titles site)
    (hmore : ∀ title ∈ titles, title ∈ more) : Missing overview contents more site := by
  obtain ⟨title, htitle, hmissing⟩ := h
  exact ⟨title, hmore title htitle, hmissing⟩

theorem Written.asking (h : Written overview contents disk done site) {left : Site}
    (hleft : Asking site left) : Written overview contents disk done left := by
  obtain ⟨hplain, hbeside, hfolder, hdealt⟩ := h
  rw [← hleft.disk] at hplain hbeside hfolder hdealt
  refine ⟨hplain, hbeside, hfolder, fun title htitle => ?_⟩
  obtain hfile | hrequest := hdealt title htitle
  · exact .inl hfile
  · exact .inr (hleft.asked hrequest)

theorem Written.concat (h : Written overview contents disk done site)
    (htitle : site.disk.get? ["final_documentation", sectionName title] ≠ none ∨
      sectionRequest overview contents title ∈ site.asked) :
    Written overview contents disk (done ++ [title]) site := by
  refine ⟨h.plain, h.beside, h.folder, fun other hother => ?_⟩
  obtain hdone | hlast := List.mem_append.1 hother
  · exact h.dealt other hdone
  · rw [List.mem_singleton.1 hlast]
    exact htitle

theorem Written.insert (h : Written overview contents disk done site)
    (hhold : site.disk.CanHold ["final_documentation", sectionName title])
    (hnames : ∀ name ∈ ["final_documentation", sectionName title], IsName name)
    (content : List UInt8) :
    Written overview contents disk done
      { site with
        disk := site.disk.insert ["final_documentation", sectionName title] (.file content) } := by
  have hstays : ∀ place, site.disk.get? place ≠ none →
      (site.disk.insert ["final_documentation", sectionName title] (.file content)).get? place ≠
        none := by
    intro place hplace
    rw [get?_insert_of_canHold hhold]
    split
    · simp
    · exact hplace
  refine ⟨h.plain.insert hhold hnames (by simp), fun name => ?_, hstays _ h.folder,
    fun other hother => ?_⟩
  · rw [← h.beside name, get?_insert_of_canHold hhold, if_neg]
    simp
  · obtain hfile | hrequest := h.dealt other hother
    · exact .inl (hstays _ hfile)
    · exact .inr hrequest

variable (hstores : settings.StoresAt ["final_documentation"])

include hstores

theorem saveSection_writes (text : String) {E : Fault → Site → Prop} :
    Brings (Written overview contents disk done)
      (saveSection title (settings.sectionPath title) text)
      (fun _ => Written overview contents disk done) E := by
  have hpath := leadsTo_sectionPath hstores.leadsTo title
  have hnull := hstores.noNull_sectionPath title
  generalize settings.sectionPath title = path at hpath hnull ⊢
  apply Brings.intro
  intro site h
  obtain ⟨hresult, hspoken⟩ := saveSection_apply hnull title text site
  rw [apply_eq_ok hresult]
  obtain hsame | ⟨hhold, hchanged⟩ :=
    write?_getD_cases h.plain hpath (Text.Utf8.encode text.toList)
  · rw [hsame] at hspoken
    exact h.asking hspoken.asking
  · have hnames := hhold.isName h.plain hpath (by simpa using hnull)
    rw [hchanged] at hspoken
    exact (h.insert hhold hnames _).asking hspoken.asking

omit hstores in
theorem complete_deals (model : Json.Value) :
    Brings
      (fun site => Written overview contents disk done site ∧
        site.disk.get? ["final_documentation", sectionName title] = none)
      (complete model (.str (sectionPrompt title overview contents)))
      (fun _ => Written overview contents disk (done ++ [title]))
      fun _ => Missing overview contents [title] := by
  have hboth : Brings
      (fun site => Written overview contents disk done site ∧
        site.disk.get? ["final_documentation", sectionName title] = none)
      (complete model (.str (sectionPrompt title overview contents)))
      (fun _ site => Written overview contents disk (done ++ [title]) site ∧
        Missing overview contents [title] site)
      fun _ site => Written overview contents disk (done ++ [title]) site ∧
        Missing overview contents [title] site := by
    apply Brings.of_after (S := fun site =>
      Written overview contents disk (done ++ [title]) site ∧ Missing overview contents [title] site)
    rintro site ⟨h, hnone⟩
    obtain ⟨hleft, hrequest⟩ := complete_asks model (sectionPrompt title overview contents) site
    refine ⟨(h.asking hleft).concat (.inr hrequest), title, List.mem_singleton_self title, hrequest,
      ?_⟩
    rw [hleft.disk]
    exact hnone
  exact hboth.imp (fun _ h => h) (fun _ _ h => h.1) fun _ _ h => h.2

/-- The turn of a section deals with it, unless it is broken off after the request. -/
theorem writeSection_deals (title : String) :
    Brings (Written overview contents disk done) (writeSection settings overview contents title)
      (fun _ => Written overview contents disk (done ++ [title]))
      fun _ => Missing overview contents [title] := by
  apply Brings.intro
  intro site h
  rw [writeSection, bind_apply, hasItem_sectionPath_apply hstores h.plain]
  cases hget : site.disk.get? (["final_documentation"] ++ [sectionName title]) with
  | some item =>
      have hthere : site.disk.get? (["final_documentation"] ++ [sectionName title]) ≠ none :=
        fun hnone => absurd (hget.symm.trans hnone) (by simp)
      exact (h.concat (.inl hthere)).asking (say_onlyAsks _ site)
  | none =>
      refine Brings.ends (Brings.bind (complete_deals settings.model) fun text? => ?_) ⟨h, hget⟩
      split
      · exact saveSection_writes hstores _
      · exact .intro fun site h => h.asking (say_onlyAsks _ site)

theorem writeSections_deals (total number : Nat) (titles : List String) :
    Brings (Written overview contents disk done)
      (writeSections settings overview contents total number titles)
      (fun _ => Written overview contents disk (done ++ titles))
      fun _ => Missing overview contents titles := by
  induction titles generalizing number done with
  | nil =>
      rw [List.append_nil]
      exact Brings.pure fun _ h => h
  | cons title rest ih =>
      unfold writeSections
      apply Brings.bind (M := fun _ => Written overview contents disk done)
      · exact .intro fun site h => h.asking (say_onlyAsks _ site)
      · intro _
        apply Brings.bind
        · apply (writeSection_deals hstores title).imp (fun _ h => h) (fun _ _ h => h)
          exact fun _ _ h => h.mono (by simp)
        · intro _
          rw [show done ++ title :: rest = done ++ [title] ++ rest by simp]
          apply (ih (number + 1)).imp (fun _ h => h) (fun _ _ h => h)
          exact fun _ _ h => h.mono fun other => List.mem_cons_of_mem title

theorem writeManual_deals :
    Brings (Written overview contents disk []) (writeManual settings overview contents)
      (fun _ => Written overview contents disk (sectionTitles contents))
      fun _ => Missing overview contents (sectionTitles contents) := by
  unfold writeManual
  apply Brings.bind (M := fun _ => Written overview contents disk [])
  · exact .intro fun site h => h.asking (say_onlyAsks _ site)
  · intro _
    apply Brings.bind (M := fun titles site => titles = sectionTitles contents ∧
      Written overview contents disk [] site)
    · apply Brings.intro
      intro site h
      obtain ⟨hresult, hspoken⟩ := readContents_ends contents site
      rw [apply_eq_ok hresult]
      exact ⟨rfl, h.asking hspoken.asking⟩
    · intro titles
      apply Brings.assume
      rintro rfl
      split
      · rename_i hempty
        rw [List.isEmpty_iff.1 hempty]
        exact .intro fun site h => h.asking (say_onlyAsks _ site)
      · apply Brings.bind (writeSections_deals hstores _ 1 _)
        exact fun _ => .intro fun site h => h.asking (say_onlyAsks _ site)

end First

section Again

variable {model : Json.Value} {overview contents : String}

/-- The disk holds all that a run with that overview and that table of contents writes. -/
structure Finished (overview contents : String) (disk : Disk) : Prop where
  plain : disk.Plain
  overview : disk.text? "./high-level-overview/project_overview.md" = some overview
  folder : disk.get? ["final_documentation"] ≠ none
  saved : disk.get? ["high-level-overview", "TABLE_OF_CONTENTS.md"] =
    some (.file (Text.Utf8.encode contents.toList))
  sections : ∀ title ∈ sectionTitles contents,
    disk.get? ["final_documentation", sectionName title] ≠ none

theorem leadsTo_overview : LeadsTo "./high-level-overview/project_overview.md"
    ["high-level-overview", "project_overview.md"] := ⟨by decide, by simp [IsStep]⟩

/-- A run that obtains a table of contents and saves it, and after which every section that
was asked for has a file, leaves the manual finished. -/
theorem finished_after_run (hplain : site.disk.Plain)
    (hoverview : site.disk.text? "./high-level-overview/project_overview.md" = some overview)
    (hnonempty : overview ≠ "") (hcontents : drafting 3 site.services.drafter = .ok (some contents))
    (hsaved : (after (run { model := model }) site).disk.get?
        ["high-level-overview", "TABLE_OF_CONTENTS.md"] =
      some (.file (Text.Utf8.encode contents.toList)))
    (hsections : ∀ title ∈ sectionTitles contents,
      sectionRequest overview contents title ∈ (after (run { model := model }) site).asked →
        (after (run { model := model }) site).disk.get?
          ["final_documentation", sectionName title] ≠ none) :
    Finished overview contents (after (run { model := model }) site).disk := by
  have hfound : contentsFrom { model := model } (some contents)
      (site.disk.withFolder "final_documentation") = some contents := by
    rw [contentsFrom, nonempty?_of_drafting hcontents, Option.some_or]
  obtain ⟨said, happly⟩ := run_apply model hplain hoverview hnonempty hcontents hfound
  -- The overview is beside the sections, so it is the one that was loaded.
  have hbeside := get?_supplied model overview (some contents) hplain
    (show "project_overview.md" ≠ "TABLE_OF_CONTENTS.md" by decide)
  have hwritten : Written overview contents (supplied { model := model } overview (some contents)
      site).disk [] (saying (supplied { model := model } overview (some contents) site) said) :=
    ⟨plain_supplied model overview _ hplain, fun _ => rfl, folder_supplied model overview _ hplain,
      fun _ htitle => absurd htitle List.not_mem_nil⟩
  have hdeals := (writeManual_deals (storesAt_usual { model := model })).ends hwritten
  rw [← happly] at hdeals
  cases hend : run { model := model } site with
  | ok done left =>
      rw [hend] at hdeals
      rw [after_ok hend] at hsaved hsections ⊢
      refine ⟨hdeals.plain, ?_, hdeals.folder, hsaved, fun title htitle => ?_⟩
      · rw [← hoverview]
        refine text?_congr hdeals.plain hplain leadsTo_overview (by decide) ?_
        rw [hdeals.beside, hbeside]
      · exact (hdeals.dealt title htitle).elim id (hsections title htitle)
  | error fault left =>
      rw [hend] at hdeals
      rw [after_error hend] at hsections
      obtain ⟨title, htitle, hrequest, hnone⟩ := hdeals
      exact absurd hnone (hsections title htitle hrequest)

theorem writeSections_present (hstores : settings.StoresAt ["final_documentation"])
    (hplain : site.disk.Plain) {titles : List String}
    (hthere : ∀ title ∈ titles, site.disk.get? ["final_documentation", sectionName title] ≠ none)
    (total number : Nat) (said : List String) :
    Ends (writeSections settings overview contents total number titles) (saying site said) (.ok ())
      site := by
  induction titles generalizing number said with
  | nil => exact .pure
  | cons title rest ih =>
      obtain ⟨htitle, hrest⟩ := List.forall_mem_cons.1 hthere
      refine Ends.bind (.say _) fun said => ?_
      have hhere : (saying site said).disk.Plain := hplain
      obtain ⟨hresult, hspoken, _⟩ :=
        writeSection_present overview contents hstores hhere htitle
      exact Ends.bind ⟨hresult, hspoken⟩ fun said => ih hrest (number + 1) said

theorem writeManual_present (overview : String) (hstores : settings.StoresAt ["final_documentation"])
    (hplain : site.disk.Plain)
    (hthere : ∀ title ∈ sectionTitles contents,
      site.disk.get? ["final_documentation", sectionName title] ≠ none) :
    Ends (writeManual settings overview contents) site (.ok ()) site := by
  refine Ends.bind (.say _) fun said => ?_
  refine Ends.bind (readContents_ends contents _) fun said => ?_
  by_cases hempty : (sectionTitles contents).isEmpty = true
  · rw [if_pos hempty]
    exact Ends.respoken (.say _) rfl
  · rw [if_neg hempty]
    refine Ends.bind (writeSections_present hstores hplain hthere _ 1 said) fun said => ?_
    exact Ends.respoken (.say _) rfl

/-- With a finished manual, a run that is answered with the same table of contents at once
asks for nothing else and leaves the disk as it was. -/
theorem run_again (h : Finished overview contents site.disk) (hnonempty : overview ≠ "")
    (hanswer : outcome site.services.drafter.head = .ok (some contents)) :
    ∃ left, Ends (run { model := model }) site (.ok ()) left ∧
      left.asked = site.asked ++ [.draft (.str (contentsPrompt overview))] ∧
      ∀ place, left.disk.get? place = site.disk.get? place := by
  have hcontents : drafting 3 site.services.drafter = .ok (some contents) := by
    simp [drafting, hanswer]
  have htries : tries 3 site.services.drafter = 1 := by simp [tries, hanswer]
  have hfolder : site.disk.withFolder "final_documentation" = site.disk := by
    simp [Disk.withFolder, h.folder]
  have hview : ∀ place, (supplied { model := model } overview (some contents) site).disk.get? place =
      site.disk.get? place := by
    rw [supplied, hfolder]
    refine get?_withContents_saved rfl h.plain (some contents) fun text htext => ?_
    rw [nonempty?_of_drafting hcontents] at htext
    rw [h.saved, Option.some.inj htext]
  have hfound : contentsFrom { model := model } (some contents)
      (site.disk.withFolder "final_documentation") = some contents := by
    rw [contentsFrom, nonempty?_of_drafting hcontents, Option.some_or]
  obtain ⟨said, happly⟩ := run_apply model h.plain h.overview hnonempty hcontents hfound
  refine ⟨supplied { model := model } overview (some contents) site, ?_, ?_, hview⟩
  · refine Ends.of_apply happly ?_
    have hplain :
        (saying (supplied { model := model } overview (some contents) site) said).disk.Plain :=
      plain_supplied model overview (some contents) h.plain
    refine Ends.respoken
      (writeManual_present overview (storesAt_usual { model := model }) hplain ?_) rfl
    intro title htitle
    rw [hview]
    exact h.sections title htitle
  · rw [supplied, htries]
    rfl

end Again

end Docwright.Manual
