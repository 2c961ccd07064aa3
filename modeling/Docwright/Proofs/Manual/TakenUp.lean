import Docwright.Proofs.Disk.Access
import Docwright.Proofs.Manual.Sections
import Mathlib.Data.List.Nodup

/-!
# Which sections are taken up

A section is left out if there is a file of its name. In a run that starts with an
empty manual and in which every request gives a text, such a file is that of an
earlier section: `takenUp` lists the titles for which a text is asked for. All of them
are taken up exactly if the names, as far as the disk takes them, are different.

A title is not told by its name in general, and a heading not by its title. A name
that spells its title in full does tell it (`sectionName_injective`).
-/

namespace Docwright.Manual

open Docwright.Disk
open Docwright.Job
open Docwright.Path

/-- The disk takes a file of that name. -/
def Fits (name : String) : Prop := name.utf8ByteSize ≤ nameLimit

instance (name : String) : Decidable (Fits name) := inferInstanceAs (Decidable (_ ≤ _))

/-- The names of the files that are there once a title was taken up. -/
def addName (there : List String) (title : String) : List String :=
  if Fits (sectionName title) then sectionName title :: there else there

/-- The titles that are taken up if there are files of some names: those without a
file, from before or of an earlier title. -/
def takenUp : List String → List String → List String
  | _, [] => []
  | there, title :: rest =>
      if sectionName title ∈ there then takenUp there rest
      else title :: takenUp (addName there title) rest

theorem takenUp_sublist (there titles : List String) : (takenUp there titles).Sublist titles := by
  induction titles generalizing there with
  | nil => exact List.Sublist.refl _
  | cons title rest ih =>
      unfold takenUp
      split
      · exact (ih there).cons title
      · exact (ih _).cons_cons title

theorem mem_addName {there : List String} {title name : String} :
    name ∈ addName there title ↔
      name = sectionName title ∧ Fits (sectionName title) ∨ name ∈ there := by
  unfold addName
  by_cases hfits : Fits (sectionName title)
  · simp [hfits]
  · simp [hfits]

/-- No title is left out exactly if none has a file and no two that the disk takes have
one name. -/
theorem takenUp_eq_iff (there titles : List String) :
    takenUp there titles = titles ↔ (∀ title ∈ titles, sectionName title ∉ there) ∧
      ((titles.map sectionName).filter (Fits ·)).Nodup := by
  induction titles generalizing there with
  | nil => simp [takenUp]
  | cons title rest ih =>
      unfold takenUp
      by_cases hthere : sectionName title ∈ there
      · rw [if_pos hthere]
        have hshorter := (takenUp_sublist there rest).length_le
        constructor
        · intro hsame
          rw [hsame, List.length_cons] at hshorter
          omega
        · intro hall
          exact absurd hthere (hall.1 title List.mem_cons_self)
      · rw [if_neg hthere, List.cons.injEq, ih]
        simp only [true_and, List.mem_cons, forall_eq_or_imp, hthere, not_false_eq_true,
          mem_addName, List.map_cons]
        by_cases hfits : Fits (sectionName title)
        · rw [List.filter_cons_of_pos (by simpa using hfits), List.nodup_cons, List.mem_filter,
            List.mem_map]
          simp only [hfits, and_true, decide_true, not_exists, not_and, not_or]
          constructor
          · rintro ⟨hnames, hnodup⟩
            exact ⟨fun other hother => (hnames other hother).2,
              fun other hother => (hnames other hother).1, hnodup⟩
          · rintro ⟨hnames, hother, hnodup⟩
            exact ⟨fun other hmem => ⟨hother other hmem, hnames other hmem⟩, hnodup⟩
        · rw [List.filter_cons_of_neg (by simpa using hfits)]
          simp only [hfits, and_false, false_or]

/-- Every answer of the drafting service comes to a text. -/
def AnswersAll (feed : Feed DrafterReply) : Prop :=
  ∀ n, ∃ text, outcome (feed.answer n) = .ok (some text)

namespace AnswersAll

variable {feed : Feed DrafterReply}

theorem tail (h : AnswersAll feed) : AnswersAll feed.tail := fun n => h (n + 1)

theorem ordinary (h : AnswersAll feed) : feed.Ordinary := by
  intro n kind message hanswer
  obtain ⟨text, htext⟩ := h n
  rw [hanswer] at htext
  exact absurd htext (by simp [outcome])

theorem drafted_eq (h : AnswersAll feed) :
    ∃ text, outcome feed.head = .ok (some text) ∧ drafted 3 feed = some text ∧
      tries 3 feed = 1 ∧ Text.nonempty? (some text) = some text := by
  obtain ⟨text, htext⟩ := h 0
  have hhead : outcome feed.head = .ok (some text) := htext
  refine ⟨text, hhead, ?_, ?_, ?_⟩
  · rw [drafted, hhead]
  · rw [tries, hhead]
  · unfold outcome at hhead
    split at hhead
    · exact absurd hhead (by simp)
    · split at hhead
      · rename_i found _
        have hfound := Except.ok.inj hhead
        obtain ⟨hsame, hnonempty⟩ := Option.filter_eq_some_iff.1 hfound
        exact Option.filter_eq_some_iff.2 ⟨rfl, hnonempty⟩
      · exact absurd hhead (by simp)

end AnswersAll

def answersText (answer : Except Failure DrafterReply) : Bool :=
  match outcome answer with
  | .ok (some _) => true
  | _ => false

theorem answersAll_of_all {feed : Feed DrafterReply}
    (h : (feed.after :: feed.next).all answersText = true) : AnswersAll feed := by
  intro n
  have hanswer := List.all_eq_true.1 h _ (feed.answer_mem n)
  unfold answersText at hanswer
  split at hanswer
  · rename_i text htext
    exact ⟨text, htext⟩
  · exact absurd hanswer (by simp)

/-- A site at which every request gives a text and the manual has files of those names
and nothing else. -/
structure Fresh (there : List String) (site : Site) : Prop where
  plain : site.disk.Plain
  answers : AnswersAll site.services.drafter
  folder : site.disk.get? ["final_documentation"] = some .folder
  onlyFiles : ∀ name, (site.disk.get? ["final_documentation", name]).all Item.isFile = true
  files : ∀ name, site.disk.get? ["final_documentation", name] ≠ none ↔ name ∈ there

def sectionRequest (overview contents title : String) : Request :=
  .draft (.str (sectionPrompt title overview contents))

section Sections

variable {settings : Settings} (hstores : settings.StoresAt ["final_documentation"])
  (overview contents : String) {there : List String} {site : Site} {title : String}

theorem Fresh.takesFile_iff (h : Fresh there site) (name : String) :
    site.disk.TakesFile "final_documentation" name ↔ Fits name :=
  ⟨fun htakes => htakes.2.2, fun hfits => ⟨h.folder, h.onlyFiles name, hfits⟩⟩

theorem Fresh.of_view (h : Fresh there site) {left : Site} (hplain : left.disk.Plain)
    (hanswers : AnswersAll left.services.drafter)
    (hview : ∀ rest, left.disk.get? ("final_documentation" :: rest) =
      site.disk.get? ("final_documentation" :: rest)) : Fresh there left := by
  refine ⟨hplain, hanswers, ?_, fun name => ?_, fun name => ?_⟩
  · rw [hview]
    exact h.folder
  · rw [hview]
    exact h.onlyFiles name
  · rw [hview]
    exact h.files name

theorem Fresh.saying (h : Fresh there site) (said : List String) :
    Fresh there (Job.saying site said) :=
  h.of_view h.plain h.answers fun _ => rfl

theorem Fresh.get?_eq_none (h : Fresh there site) {name : String} (hname : name ∉ there) :
    site.disk.get? ["final_documentation", name] = none :=
  Classical.not_not.1 fun hsome => hname ((h.files name).1 hsome)

include hstores

theorem Fresh.insert (h : Fresh there site) (hfits : Fits (sectionName title))
    (content : List UInt8) {left : Site} (hanswers : AnswersAll left.services.drafter)
    (hdisk : left.disk =
      site.disk.insert ["final_documentation", sectionName title] (.file content)) :
    Fresh (sectionName title :: there) left := by
  have hhold : site.disk.CanHold ["final_documentation", sectionName title] :=
    canHold_iff_takesFile.2 ((h.takesFile_iff _).2 hfits)
  have hpath : LeadsTo (settings.sectionPath title) ["final_documentation", sectionName title] :=
    leadsTo_sectionPath hstores.leadsTo title
  have hnull : ∀ c ∈ (settings.sectionPath title).toList, c.toNat ≠ 0 := by
    simpa using hstores.noNull_sectionPath title
  have hview := get?_insert_of_canHold hhold (.file content)
  rw [← hdisk] at hview
  refine ⟨?_, hanswers, ?_, fun name => ?_, fun name => ?_⟩
  · rw [hdisk]
    exact h.plain.insert hhold (hhold.isName h.plain hpath hnull) (by simp)
  · rw [hview, if_neg (by simp)]
    exact h.folder
  · rw [hview]
    by_cases hname : name = sectionName title
    · simp [hname, Item.isFile]
    · simpa [hname] using h.onlyFiles name
  · rw [hview]
    by_cases hname : name = sectionName title
    · simp [hname]
    · simpa [hname] using h.files name

/-- In a folder that has no file of the name, a text that is obtained is saved exactly if the disk
takes the name. -/
theorem saved?_of_vacant (hplain : site.disk.Plain) (hordinary : site.services.drafter.Ordinary)
    (hfolder : site.disk.get? ["final_documentation"] = some .folder)
    (hvacant : site.disk.get? ["final_documentation", sectionName title] = none) {text : String}
    (hdrafted : drafted 3 site.services.drafter = some text)
    (hnonempty : Text.nonempty? (some text) = some text) :
    Turn.saved? settings overview contents ⟨title, site⟩ =
      if Fits (sectionName title) then some text else none := by
  have htakes : site.disk.TakesFile "final_documentation" (sectionName title) ↔
      Fits (sectionName title) :=
    ⟨fun htakes => htakes.2.2, fun hfits => ⟨hfolder, by simp [hvacant], hfits⟩⟩
  have hwrite := write?_toOption hplain (leadsTo_sectionPath hstores.leadsTo title)
    (hstores.short_sectionPath title) (Text.Utf8.encode text.toList)
  rw [saved?_of_absent overview contents hstores hplain hordinary hvacant, hdrafted, hnonempty,
    Option.filter_some]
  simp only [htakes] at hwrite
  generalize site.disk.write? (settings.sectionPath title) (Text.Utf8.encode text.toList) = result
    at hwrite ⊢
  by_cases hfits : Fits (sectionName title)
  · rw [if_pos hfits] at hwrite ⊢
    cases result with
    | ok changed => rfl
    | error error => exact absurd hwrite (by simp [Except.toOption])
  · rw [if_neg hfits] at hwrite ⊢
    cases result with
    | ok changed => exact absurd hwrite (by simp [Except.toOption])
    | error error => rfl

theorem writeSection_takes (h : Fresh there site) (htitle : sectionName title ∉ there) :
    ∃ left, Ends (writeSection settings overview contents title) site (.ok ()) left ∧
      Fresh (addName there title) left ∧
      left.asked = site.asked ++ [sectionRequest overview contents title] := by
  obtain ⟨text, _, hdrafted, htries, hnonempty⟩ := h.answers.drafted_eq
  have hends := writeSection_absent overview contents hstores h.plain h.answers.ordinary
    (h.get?_eq_none htitle)
  rw [saved?_of_vacant hstores overview contents h.plain h.answers.ordinary h.folder
    (h.get?_eq_none htitle) hdrafted hnonempty, htries] at hends
  refine ⟨_, hends, ?_, rfl⟩
  unfold addName
  by_cases hfits : Fits (sectionName title)
  · simp only [if_pos hfits, Option.elim_some]
    exact h.insert hstores hfits _ h.answers.tail rfl
  · simp only [if_neg hfits, Option.elim_none]
    exact h.of_view h.plain h.answers.tail fun _ => rfl

theorem writeSections_takes (h : Fresh there site) (total number : Nat) (titles : List String) :
    ∃ left, Ends (writeSections settings overview contents total number titles) site (.ok ())
        left ∧
      left.asked = site.asked ++ (takenUp there titles).map (sectionRequest overview contents) := by
  induction titles generalizing there site number with
  | nil => exact ⟨site, .pure, by simp [takenUp]⟩
  | cons title rest ih =>
      unfold writeSections takenUp
      refine Ends.bind_exists (.say _) fun heard => ?_
      have hhere := h.saying heard
      by_cases hthere : sectionName title ∈ there
      · obtain ⟨hresult, hspoken, _⟩ := writeSection_present overview contents hstores hhere.plain
          ((hhere.files _).2 hthere)
        rw [if_pos hthere]
        exact Ends.bind_exists ⟨hresult, hspoken⟩ fun said => ih (hhere.saying said) (number + 1)
      · obtain ⟨middle, hmiddle, hfresh, hrequest⟩ :=
          writeSection_takes hstores overview contents hhere hthere
        refine hmiddle.bind_exists fun said => ?_
        obtain ⟨left, hleft, hasked⟩ := ih (hfresh.saying said) (number + 1)
        refine ⟨left, hleft, ?_⟩
        rw [hasked, if_neg hthere, List.map_cons]
        simp [hrequest]

end Sections

section Run

variable {settings : Settings} {there : List String} {site : Site} {overview contents : String}

theorem readContents_ends (contents : String) (site : Site) :
    Ends (readContents contents) site (.ok (sectionTitles contents)) site := by
  have hlast : ∀ said, Ends (do
      let titles := sectionTitles contents
      say <| s!"Parsed ToC. Found {titles.length} sections: " ++ Text.quoteList titles
      return titles) (saying site said) (.ok (sectionTitles contents)) site :=
    fun said => Ends.bind (.say _) fun said => .pure
  unfold readContents
  dsimp only
  split
  · exact Ends.bind (.say _) hlast
  · exact hlast site.said

theorem saveContents_ends (hnull : settings.contentsFile.toList.any (·.toNat == 0) = false)
    (contents : String) (site : Site) :
    Ends (saveContents settings contents) site (.ok ())
      { site with disk := (site.disk.write? settings.contentsFile
        (Text.Utf8.encode contents.toList)).toOption.getD site.disk } := by
  obtain ⟨r, hwrite, _⟩ := attempt_writeText_ends hnull site contents
  refine hwrite.bind fun said => ?_
  cases r with
  | ok done => exact Ends.respoken (.say _) rfl
  | error fault => exact Ends.bind (.say _) fun said => Ends.respoken (.say _) rfl

theorem leadsTo_contents : LeadsTo "./high-level-overview/TABLE_OF_CONTENTS.md"
    ["high-level-overview", "TABLE_OF_CONTENTS.md"] := ⟨by decide, by simp [IsStep]⟩

/-- What is saved at the path of the table of contents is none of the sections. -/
theorem saveContents_takes (hfile : settings.contentsFile =
      "./high-level-overview/TABLE_OF_CONTENTS.md") (h : Fresh there site) :
    ∃ left, Ends (saveContents settings contents) site (.ok ()) left ∧
      Fresh there left ∧ left.asked = site.asked := by
  have hnull : "./high-level-overview/TABLE_OF_CONTENTS.md".toList.any (·.toNat == 0) = false := by
    decide
  have hsave := saveContents_ends (hfile ▸ hnull) contents site
  refine ⟨_, hsave, ?_, rfl⟩
  rw [hfile]
  cases hchanged : site.disk.write? "./high-level-overview/TABLE_OF_CONTENTS.md"
      (Text.Utf8.encode contents.toList) with
  | error error => exact h.of_view h.plain h.answers fun _ => rfl
  | ok changed =>
      obtain ⟨_, hhold, rfl⟩ := (write?_eq_ok_iff h.plain leadsTo_contents _ changed).1 hchanged
      refine h.of_view ?_ h.answers fun rest => ?_
      · refine h.plain.insert hhold (hhold.isName h.plain leadsTo_contents ?_) (by simp)
        exact fun c hc => by simpa using List.any_eq_false.1 hnull c hc
      · exact (get?_insert_of_canHold hhold _ _).trans (if_neg (by simp))

theorem obtainContents_takes (hfile : settings.contentsFile =
      "./high-level-overview/TABLE_OF_CONTENTS.md") (h : Fresh there site)
    (hcontents : outcome site.services.drafter.head = .ok (some contents)) :
    ∃ left, Ends (obtainContents settings overview) site (.ok (some contents)) left ∧
      Fresh there left ∧ left.asked = site.asked ++ [.draft (.str (contentsPrompt overview))] := by
  obtain ⟨text, hhead, hdrafted, htries, hnonempty⟩ := h.answers.drafted_eq
  obtain rfl : text = contents := Option.some.inj (Except.ok.inj (hhead.symm.trans hcontents))
  have hcomplete := complete_apply settings.model (contentsPrompt overview) h.answers.ordinary
  rw [hdrafted, htries] at hcomplete
  unfold obtainContents
  refine Ends.bind_exists hcomplete fun said => ?_
  rw [hnonempty]
  have hhere : Fresh there (saying (requested (draftLog (.str (contentsPrompt overview)) 1 10) 1
      site) said) := h.of_view h.plain h.answers.tail fun _ => rfl
  obtain ⟨left, hleft, hfresh, hasked⟩ := saveContents_takes hfile hhere
  exact ⟨left, hleft.bind fun said => .pure, hfresh, hasked⟩

theorem writeManual_takes (hstores : settings.StoresAt ["final_documentation"])
    (h : Fresh there site) :
    ∃ left, Ends (writeManual settings overview contents) site (.ok ()) left ∧
      left.asked = site.asked ++
        (takenUp there (sectionTitles contents)).map (sectionRequest overview contents) := by
  unfold writeManual
  refine Ends.bind_exists (.say _) fun heard => ?_
  refine Ends.bind_exists (readContents_ends contents _) fun said => ?_
  by_cases hempty : (sectionTitles contents).isEmpty = true
  · rw [if_pos hempty, List.isEmpty_iff.1 hempty]
    exact ⟨site, Ends.respoken (.say _) rfl, by simp [takenUp]⟩
  · rw [if_neg hempty]
    obtain ⟨left, hleft, hasked⟩ := writeSections_takes hstores overview contents
      ((h.saying heard).saying said) (sectionTitles contents).length 1 (sectionTitles contents)
    exact ⟨left, hleft.bind fun said => Ends.respoken (.say _) rfl, hasked⟩

theorem isTopFolder_manual : IsTopFolder "./final_documentation" "final_documentation" :=
  ⟨by decide, isName_iff.1 (by decide)⟩

/-- A manual that is empty or missing has no files once its folder was made. -/
theorem fresh_withFolder (hplain : site.disk.Plain) (hanswers : AnswersAll site.services.drafter)
    (hfolder : site.disk.get? ["final_documentation"] = none ∨
      site.disk.get? ["final_documentation"] = some .folder)
    (hempty : ∀ name, site.disk.get? ["final_documentation", name] = none) :
    Fresh [] { site with disk := site.disk.withFolder "final_documentation" } := by
  have hname := isTopFolder_manual.isName
  have hview : ∀ q, (site.disk.withFolder "final_documentation").get? q = _ :=
    get?_withFolder hname.short
  refine ⟨hplain.withFolder hname, hanswers, ?_, fun name => ?_, fun name => ?_⟩
  · rw [hview]
    rcases hfolder with hnone | hsome
    · simp [hnone]
    · simp [hsome]
  · rw [hview]
    simp [hempty]
  · rw [hview]
    simp [hempty]

theorem run_takes (model : Json.Value) (hplain : site.disk.Plain)
    (hanswers : AnswersAll site.services.drafter)
    (hfolder : site.disk.get? ["final_documentation"] = none ∨
      site.disk.get? ["final_documentation"] = some .folder)
    (hempty : ∀ name, site.disk.get? ["final_documentation", name] = none)
    (hoverview : result (loadFile "./high-level-overview/project_overview.md") site =
      .ok (some overview)) (hnonempty : overview ≠ "")
    (hcontents : outcome site.services.drafter.head = .ok (some contents)) :
    ∃ left, Ends (run { model := model }) site (.ok ()) left ∧
      left.asked = site.asked ++ .draft (.str (contentsPrompt overview)) ::
        (takenUp [] (sectionTitles contents)).map (sectionRequest overview contents) := by
  have hload := (loadFile_onlySpeaks "./high-level-overview/project_overview.md").ends site
  rw [hoverview] at hload
  have hsome : Text.nonempty? (some overview) = some overview := by
    simp [Text.nonempty?, Option.filter, hnonempty]
  unfold run
  refine hload.bind_exists fun heard => ?_
  rw [hsome]
  have hhere : (saying site heard).disk.Plain := hplain
  refine exists_ends_of_apply (isTopFolder_manual.opened hhere _ _) fun said => ?_
  refine Ends.bind_exists (.say _) fun line => ?_
  have hfresh := ((fresh_withFolder hhere hanswers hfolder hempty).saying said).saying line
  have hfile : Settings.contentsFile { model := model } =
      "./high-level-overview/TABLE_OF_CONTENTS.md" := rfl
  obtain ⟨middle, hmiddle, hready, hasked⟩ := obtainContents_takes hfile hfresh hcontents
  refine hmiddle.bind_exists fun said => ?_
  obtain ⟨left, hleft, hrest⟩ := writeManual_takes (storesAt_usual { model := model })
    (hready.saying said)
  refine ⟨left, hleft, ?_⟩
  rw [hrest]
  simp [hasked]

end Run

/-- A run with an overview, an empty manual and a text for every request asks for the
table of contents and then, in order, for the sections of `takenUp`. No section is left
out for the file of an earlier one exactly if the names of the sections, as far as the
disk takes them, are different. That is so for different titles that their names spell
in full. -/
theorem run_takes_all_sections_iff (model : Json.Value) {site : Site}
    {overview contents : String} (hplain : site.disk.Plain)
    (hanswers : AnswersAll site.services.drafter)
    (hfolder : site.disk.get? ["final_documentation"] = none ∨
      site.disk.get? ["final_documentation"] = some .folder)
    (hempty : ∀ name, site.disk.get? ["final_documentation", name] = none)
    (hoverview : result (loadFile "./high-level-overview/project_overview.md") site =
      .ok (some overview)) (hnonempty : overview ≠ "")
    (hcontents : outcome site.services.drafter.head = .ok (some contents)) :
    let titles := sectionTitles contents
    result (run { model := model }) site = .ok () ∧
      (after (run { model := model }) site).asked =
        site.asked ++ .draft (.str (contentsPrompt overview)) ::
          (takenUp [] titles).map (sectionRequest overview contents) ∧
      (takenUp [] titles = titles ↔ ((titles.map sectionName).filter (Fits ·)).Nodup) ∧
      (titles.Nodup → (∀ title ∈ titles, IsSpelled title.toList) → takenUp [] titles = titles) := by
  intro titles
  obtain ⟨left, ⟨hresult, hspoken⟩, hasked⟩ :=
    run_takes model hplain hanswers hfolder hempty hoverview hnonempty hcontents
  have htaken : takenUp [] titles = titles ↔
      ((titles.map sectionName).filter (Fits ·)).Nodup := by
    rw [takenUp_eq_iff]
    simp
  refine ⟨hresult, ?_, htaken, fun hdistinct hspelled => htaken.2 ?_⟩
  · rw [← hasked]
    exact hspoken.part_eq Site.asked fun _ _ => rfl
  · refine List.Nodup.filter _ (hdistinct.map_on fun title htitle other hother hname => ?_)
    exact sectionName_injective (hspelled title htitle) (hspelled other hother) hname

/-- A site with an overview and no manual, where the drafting service answers first
with a table of contents and then always with one text. -/
def draftSite (contents : String) : Site where
  disk := ⟨[("high-level-overview", .folder [("project_overview.md", .file [111])])]⟩
  services := { Services.failing with drafter := ⟨[oneText contents], oneText "x"⟩ }
  limits := .ample

/-- Both titles are spelled in full, and both sections are asked for. -/
theorem run_takes_all_sections_labelled :
    isPlainEntries (draftSite "# 1. A B\n# 2. C").disk.entries = true ∧
      ((draftSite "# 1. A B\n# 2. C").services.drafter.after ::
        (draftSite "# 1. A B\n# 2. C").services.drafter.next).all answersText = true ∧
      (result (loadFile "./high-level-overview/project_overview.md")
        (draftSite "# 1. A B\n# 2. C")).toOption = some (some "o") ∧
      sectionTitles "# 1. A B\n# 2. C" = ["A B", "C"] ∧
      (after (run {}) (draftSite "# 1. A B\n# 2. C")).asked =
        [.draft (.str (contentsPrompt "o")), sectionRequest "o" "# 1. A B\n# 2. C" "A B",
          sectionRequest "o" "# 1. A B\n# 2. C" "C"] := by
  have hplain : isPlainEntries (draftSite "# 1. A B\n# 2. C").disk.entries = true := by
    decide +kernel
  have hanswers : ((draftSite "# 1. A B\n# 2. C").services.drafter.after ::
      (draftSite "# 1. A B\n# 2. C").services.drafter.next).all answersText = true := by
    decide +kernel
  have hoverview : (result (loadFile "./high-level-overview/project_overview.md")
      (draftSite "# 1. A B\n# 2. C")).toOption = some (some "o") := by
    decide +kernel
  have htitles : sectionTitles "# 1. A B\n# 2. C" = ["A B", "C"] := by decide +kernel
  have hspelled : ∀ title ∈ ["A B", "C"], IsSpelled title.toList := by
    simp only [List.mem_cons, List.not_mem_nil, or_false, forall_eq_or_imp, forall_eq]
    exact ⟨by decide +kernel, by decide +kernel⟩
  obtain ⟨_, hasked, _, htaken⟩ := run_takes_all_sections_iff (.str "gemini-1.5-flash-latest")
    (plain_of_isPlain hplain) (answersAll_of_all hanswers) (Or.inl (by decide +kernel))
    (fun name => rfl) (result_eq_ok hoverview) (by decide)
    (show outcome (oneText "# 1. A B\n# 2. C") = .ok (some "# 1. A B\n# 2. C") by decide +kernel)
  rw [htitles] at htaken hasked
  rw [htaken (by decide) hspelled] at hasked
  exact ⟨hplain, hanswers, hoverview, htitles, hasked⟩

/-- Two headings that differ in the first number of their labels have one title and one
file, and the second section is neither asked for nor written. -/
theorem run_leaves_out_section :
    sectionTitles "# 1.1 X\n# 2.1 X" = ["1 X", "1 X"] ∧
      (after (run {}) (draftSite "# 1.1 X\n# 2.1 X")).asked =
        [.draft (.str (contentsPrompt "o")), sectionRequest "o" "# 1.1 X\n# 2.1 X" "1 X"] ∧
      (after (run {}) (draftSite "# 1.1 X\n# 2.1 X")).disk.names ["final_documentation"] =
        ["1_X.md"] := by
  have htitles : sectionTitles "# 1.1 X\n# 2.1 X" = ["1 X", "1 X"] := by decide +kernel
  have hplain : isPlainEntries (draftSite "# 1.1 X\n# 2.1 X").disk.entries = true := by
    decide +kernel
  have hanswers : ((draftSite "# 1.1 X\n# 2.1 X").services.drafter.after ::
      (draftSite "# 1.1 X\n# 2.1 X").services.drafter.next).all answersText = true := by
    decide +kernel
  have hoverview : (result (loadFile "./high-level-overview/project_overview.md")
      (draftSite "# 1.1 X\n# 2.1 X")).toOption = some (some "o") := by
    decide +kernel
  obtain ⟨left, ⟨_, hspoken⟩, hasked⟩ := run_takes (.str "gemini-1.5-flash-latest")
    (plain_of_isPlain hplain) (answersAll_of_all hanswers) (Or.inl (by decide +kernel))
    (fun name => rfl) (result_eq_ok hoverview) (by decide)
    (show outcome (oneText "# 1.1 X\n# 2.1 X") = .ok (some "# 1.1 X\n# 2.1 X") by decide +kernel)
  have htaken : takenUp [] ["1 X", "1 X"] = ["1 X"] := by decide +kernel
  rw [htitles, htaken] at hasked
  refine ⟨htitles, ?_, by decide +kernel⟩
  exact (hspoken.part_eq Site.asked fun _ _ => rfl).trans hasked

end Docwright.Manual
