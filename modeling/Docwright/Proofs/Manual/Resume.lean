import Docwright.Proofs.Manual.Material
import Docwright.Proofs.Text.Lines

/-!
# Going on from the saved table of contents

A run announces every section before it looks for its file, and says nothing else that
begins like an announcement, so the announcements of a run tell which sections it went
through. If no table of contents is obtained, the saved one is read. Reading unifies its
newlines, which leaves its lines and so its titles as they were: the run goes through the
sections of the run that saved it.
-/

namespace Docwright.Manual

open Docwright.Disk
open Docwright.Job
open Docwright.Path

section Announcements

def isAnnouncement (line : String) : Bool :=
  "\n--- Generating content for section ".toList.isPrefixOf line.toList

def announced (site : Site) : List String := site.said.filter isAnnouncement

def announcement (total number : Nat) (title : String) : String :=
  s!"\n--- Generating content for section {number}/{total}: '{title}' ---"

def announcementsFrom (total : Nat) : Nat → List String → List String
  | _, [] => []
  | number, title :: rest =>
      announcement total number title :: announcementsFrom total (number + 1) rest

def announcements (titles : List String) : List String := announcementsFrom titles.length 1 titles

/-- Started at that site, the job announces these in order: all of them if it ends with a
result, and the first ones of them if it ends with a fault. -/
structure Announces {α : Type} (lines : List String) (job : Job α) (site : Site) : Prop where
  of_ok : ∀ {a : α} {left : Site}, job site = .ok a left → announced left = announced site ++ lines
  of_error : ∀ {fault : Fault} {left : Site}, job site = .error fault left →
    ∃ front, front <+: lines ∧ announced left = announced site ++ front

variable {α β : Type} {lines rest : List String} {job first : Job α} {next : α → Job β}
  {site : Site}

theorem Announces.of_keeps (h : Keeps announced job) (site : Site) : Announces [] job site := by
  have hsame : announced (after job site) = announced site ++ [] :=
    (h.after_eq site).trans (List.append_nil _).symm
  exact ⟨fun happly => after_ok happly ▸ hsame,
    fun happly => ⟨[], List.prefix_rfl, after_error happly ▸ hsame⟩⟩

theorem Announces.bind (hfirst : Announces lines first site)
    (hnext : ∀ a left, first site = .ok a left → Announces rest (next a) left) :
    Announces (lines ++ rest) (first >>= next) site := by
  cases happly : first site with
  | error fault left =>
      obtain ⟨front, hfront, hleft⟩ := hfirst.of_error happly
      constructor
      · intro b last hend
        rw [bind_apply, happly] at hend
        exact absurd hend (by simp)
      · intro other last hend
        rw [bind_apply, happly] at hend
        obtain ⟨-, rfl⟩ := EStateM.Result.error.inj hend
        exact ⟨front, hfront.trans (List.prefix_append lines rest), hleft⟩
  | ok a middle =>
      have hmiddle := hfirst.of_ok happly
      have hrest := hnext a middle happly
      constructor
      · intro b left hend
        rw [bind_apply, happly] at hend
        rw [hrest.of_ok hend, hmiddle, List.append_assoc]
      · intro fault left hend
        rw [bind_apply, happly] at hend
        obtain ⟨front, hfront, hleft⟩ := hrest.of_error hend
        refine ⟨lines ++ front, (List.prefix_append_right_inj lines).2 hfront, ?_⟩
        rw [hleft, hmiddle, List.append_assoc]

theorem Announces.after_keeps (hfirst : Keeps announced first)
    (hnext : ∀ a left, first site = .ok a left → Announces rest (next a) left) :
    Announces rest (first >>= next) site :=
  (Announces.of_keeps hfirst site).bind hnext

end Announcements

section Steps

/-- The text begins with a character other than a line feed. A literal is its list of characters
here, so nothing has to compute the list. -/
inductive StartsPlainly : String → Prop where
  | ofList {c : Char} (hc : c ≠ '\n') (rest : List Char) : StartsPlainly (String.ofList (c :: rest))
  | append {text : String} (h : StartsPlainly text) (more : String) : StartsPlainly (text ++ more)

theorem StartsPlainly.of_parts {c : Char} {rest : List Char} (parts : List String)
    (hc : c ≠ '\n') : StartsPlainly (parts.foldl (· ++ ·) (String.ofList (c :: rest))) := by
  have hmore : ∀ text, StartsPlainly text → StartsPlainly (parts.foldl (· ++ ·) text) := by
    induction parts with
    | nil => exact fun text h => h
    | cons more others ih => exact fun text h => ih _ (h.append more)
  exact hmore _ (.ofList hc rest)

theorem StartsPlainly.exists_toList {text : String} (h : StartsPlainly text) :
    ∃ c rest, text.toList = c :: rest ∧ c ≠ '\n' := by
  induction h with
  | ofList hc rest => exact ⟨_, rest, String.toList_ofList, hc⟩
  | append _ more ih =>
      obtain ⟨c, rest, htext, hc⟩ := ih
      refine ⟨c, rest ++ more.toList, ?_, hc⟩
      rw [String.toList_append, htext, List.cons_append]

theorem StartsPlainly.isAnnouncement_eq_false {line : String} (h : StartsPlainly line) :
    isAnnouncement line = false := by
  obtain ⟨c, rest, hline, hc⟩ := h.exists_toList
  obtain ⟨more, hstart⟩ : ∃ more, "\n--- Generating content for section ".toList = '\n' :: more :=
    ⟨_, String.toList_ofList⟩
  rw [isAnnouncement, hstart, hline, List.isPrefixOf, beq_false_of_ne hc.symm, Bool.false_and]

theorem say_keeps_announced {line : String}
    (h : isAnnouncement line = false := by
      rw [isAnnouncement, String.toList_ofList, String.toList_ofList]
      decide) :
    Keeps announced (say line) := by
  intro site
  change site.said.filter isAnnouncement = (site.said ++ [line]).filter isAnnouncement
  simp [h]

/-- Only a line that begins with a line feed can be an announcement. The line is given by its
parts, the first of them a literal. -/
theorem report_keeps_announced {c : Char} {rest : List Char} (parts : List String)
    (hc : c ≠ '\n') :
    Keeps announced (say (parts.foldl (· ++ ·) (String.ofList (c :: rest)))) :=
  say_keeps_announced (StartsPlainly.of_parts parts hc).isAnnouncement_eq_false

theorem loadFile_keeps_announced (path : String) : Keeps announced (loadFile path) := by
  refine Respects.bind (.of_still (hasItem_still path)) fun found => ?_
  cases found with
  | false =>
      exact Respects.bind (report_keeps_announced [_, _] (by decide)) fun _ => .pure _
  | true =>
      refine Respects.bind (.attempt (.of_still (readText_still path))) fun result => ?_
      cases result with
      | ok text => exact Respects.pure _
      | error fault =>
          exact Respects.bind (report_keeps_announced [_, _, _] (by decide)) fun _ => .pure _

theorem draft_keeps_announced (prompt : Json.Value) : Keeps announced (draft prompt) :=
  Respects.bind (fun _ => rfl) fun _ => Respects.bind (.of_still get_still) fun _ =>
    Respects.bind (fun _ => rfl) fun _ => .of_still (ofAnswer_still _)

theorem draftOnce_keeps_announced (prompt : Json.Value) : Keeps announced (draftOnce prompt) := by
  refine Respects.bind (draft_keeps_announced prompt) fun reply => ?_
  split
  · exact Respects.throw _
  · exact Respects.bind (report_keeps_announced [_] (by decide)) fun _ => .pure _
  · exact Respects.bind (report_keeps_announced [_] (by decide)) fun _ => .pure _
  · refine Respects.bind (report_keeps_announced [_] (by decide)) fun _ => ?_
    split
    · exact Respects.bind (report_keeps_announced [_] (by decide)) fun _ => .pure _
    · exact Respects.pure _

theorem draftWithin_keeps_announced (model prompt : Json.Value) (left number delay : Nat) :
    Keeps announced (draftWithin model prompt left number delay) := by
  induction left generalizing number delay with
  | zero => exact Respects.pure none
  | succ left ih =>
      refine Respects.bind (.attempt (draftOnce_keeps_announced prompt)) fun result => ?_
      split
      · exact Respects.pure _
      · refine Respects.bind (report_keeps_announced [_, _, _, _, _] (by decide)) fun _ => ?_
        split
        · exact Respects.bind (report_keeps_announced [] (by decide)) fun _ => .pure _
        · refine Respects.bind (report_keeps_announced [_, _] (by decide)) fun _ => ?_
          exact Respects.bind (fun _ => rfl) fun _ => ih (number + 1) (delay * 2)

theorem complete_keeps_announced (model prompt : Json.Value) :
    Keeps announced (complete model prompt) := by
  refine Respects.bind (.of_still (lengthOf_still prompt)) fun length => ?_
  refine Respects.bind (report_keeps_announced [_, _, _] (by decide)) fun _ => ?_
  exact draftWithin_keeps_announced _ _ 3 1 10

theorem readContents_keeps_announced (contents : String) :
    Keeps announced (readContents contents) := by
  have hlast : Keeps announced (do
      let titles := sectionTitles contents
      say <| s!"Parsed ToC. Found {titles.length} sections: " ++ Text.quoteList titles
      return titles) := by
    exact Respects.bind (report_keeps_announced [_, _, _] (by decide)) fun _ => .pure _
  unfold readContents
  dsimp only
  split
  · exact Respects.bind (report_keeps_announced [] (by decide)) fun _ => hlast
  · exact hlast

theorem saveSection_keeps_announced (title path text : String) :
    Keeps announced (saveSection title path text) := by
  refine Respects.bind (.attempt (writeText_keeps (fun _ _ => rfl) _ _)) fun result => ?_
  split
  · exact report_keeps_announced [_, _, _] (by decide)
  · exact report_keeps_announced [_, _, _, _, _] (by decide)

theorem writeSection_keeps_announced (settings : Settings) (overview contents title : String) :
    Keeps announced (writeSection settings overview contents title) := by
  refine Respects.bind (.of_still (hasItem_still _)) fun found => ?_
  split
  · exact report_keeps_announced [_, _, _] (by decide)
  · refine Respects.bind (complete_keeps_announced _ _) fun text? => ?_
    split
    · exact saveSection_keeps_announced _ _ _
    · exact report_keeps_announced [_, _] (by decide)

theorem saveContents_keeps_announced (settings : Settings) (contents : String) :
    Keeps announced (saveContents settings contents) := by
  refine Respects.bind (.attempt (writeText_keeps (fun _ _ => rfl) _ _)) fun result => ?_
  split
  · exact report_keeps_announced [_] (by decide)
  · refine Respects.bind (report_keeps_announced [_, _, _] (by decide)) fun _ => ?_
    exact report_keeps_announced [_] (by decide)

theorem savedContents_keeps_announced (settings : Settings) :
    Keeps announced (savedContents settings) := by
  refine Respects.bind (report_keeps_announced [_] (by decide)) fun _ => ?_
  refine Respects.bind (.of_still (hasItem_still _)) fun found => ?_
  cases found with
  | false => exact Respects.bind (report_keeps_announced [] (by decide)) fun _ => .pure _
  | true =>
      refine Respects.bind (report_keeps_announced [_] (by decide)) fun _ => ?_
      refine Respects.bind (loadFile_keeps_announced _) fun contents => ?_
      split
      · exact Respects.pure _
      · exact Respects.bind (report_keeps_announced [] (by decide)) fun _ => .pure _

theorem obtainContents_keeps_announced (settings : Settings) (overview : String) :
    Keeps announced (obtainContents settings overview) := by
  refine Respects.bind (complete_keeps_announced _ _) fun text? => ?_
  split
  · exact Respects.bind (saveContents_keeps_announced settings _) fun _ => .pure _
  · exact savedContents_keeps_announced settings

/-- Nothing is announced before there is a table of contents. -/
theorem material_keeps_announced (settings : Settings) : Keeps announced (material settings) := by
  refine Respects.bind (loadFile_keeps_announced _) fun text? => ?_
  split
  · exact Respects.bind (report_keeps_announced [] (by decide)) fun _ => .pure _
  · rename_i overview hoverview
    have hrest : Keeps announced (do
        say "\n--- Generating Table of Contents ---"
        return (← obtainContents settings overview).map (overview, ·)) :=
      Respects.bind (say_keeps_announced) fun _ =>
        Respects.bind (obtainContents_keeps_announced settings overview) fun _ => .pure _
    refine Respects.bind (.of_still (hasItem_still _)) fun found => ?_
    split
    · refine Respects.bind (makeFolders_keeps (fun _ _ => rfl) _) fun _ => ?_
      exact Respects.bind (report_keeps_announced [_] (by decide)) fun _ => hrest
    · exact hrest

end Steps

section Run

variable {settings : Settings} {overview contents : String} {site : Site}

theorem isAnnouncement_announcement (total number : Nat) (title : String) :
    isAnnouncement (announcement total number title) = true := by
  have htext : ∀ text : String, toString text = text := fun _ => rfl
  unfold isAnnouncement announcement
  simp only [htext, List.isPrefixOf_iff_prefix, String.toList_append, List.append_assoc]
  exact List.prefix_append _ _

theorem say_announces {line : String} (h : isAnnouncement line = true) (site : Site) :
    Announces [line] (say line) site := by
  have hsaid : announced { site with said := site.said ++ [line] } = announced site ++ [line] := by
    simp [announced, h]
  have happly : say line site = .ok () { site with said := site.said ++ [line] } := rfl
  constructor
  · intro a left hend
    obtain ⟨-, rfl⟩ := EStateM.Result.ok.inj (happly.symm.trans hend)
    exact hsaid
  · intro fault left hend
    exact absurd (happly.symm.trans hend) (by simp)

theorem writeSections_cons (overview contents : String) (total number : Nat) (title : String)
    (rest : List String) :
    writeSections settings overview contents total number (title :: rest) = (do
      say (announcement total number title)
      writeSection settings overview contents title
      writeSections settings overview contents total (number + 1) rest) := by
  unfold announcement
  simp only [writeSections]

theorem writeSections_announces (overview contents : String) (total number : Nat)
    (titles : List String) (site : Site) :
    Announces (announcementsFrom total number titles)
      (writeSections settings overview contents total number titles) site := by
  induction titles generalizing number site with
  | nil => exact Announces.of_keeps (Respects.pure ()) site
  | cons title rest ih =>
      have hsay := say_announces (isAnnouncement_announcement total number title) site
      have hsection := writeSection_keeps_announced settings overview contents title
      rw [announcementsFrom, writeSections_cons, ← List.singleton_append]
      refine hsay.bind fun _ middle _ => ?_
      exact Announces.after_keeps hsection fun _ left _ => ih (number + 1) left

theorem writeManual_announces (overview contents : String) (site : Site) :
    Announces (announcements (sectionTitles contents)) (writeManual settings overview contents)
      site := by
  have hfirst : Keeps announced (say "\n--- Generating Content for Each Section from ToC ---") :=
    say_keeps_announced
  have hlast : Keeps announced
      (say "\n--- Final documentation generation process completed using Gemini API ---") :=
    say_keeps_announced
  refine Announces.after_keeps hfirst fun _ middle _ => ?_
  refine Announces.after_keeps (readContents_keeps_announced contents) fun titles left happly => ?_
  obtain rfl : titles = sectionTitles contents :=
    Except.ok.inj ((result_ok happly).symm.trans (readContents_ends contents middle).1)
  split
  · rename_i hempty
    rw [List.isEmpty_iff.1 hempty]
    exact Announces.of_keeps (report_keeps_announced [] (by decide)) left
  · rw [announcements, ← List.append_nil (announcementsFrom _ _ _)]
    refine (writeSections_announces overview contents _ 1 _ left).bind fun _ last _ => ?_
    exact Announces.of_keeps hlast last

theorem result_writeManual (hstores : settings.StoresAt ["final_documentation"])
    (overview contents : String) (hplain : site.disk.Plain)
    (hordinary : site.services.drafter.Ordinary) :
    result (writeManual settings overview contents) site = .ok () := by
  have hends : ∃ left, Ends (writeManual settings overview contents) site (.ok ()) left ∧ True := by
    refine Ends.bind_exists (.say _) fun heard => ?_
    refine Ends.bind_exists (readContents_ends contents _) fun said => ?_
    split
    · exact ⟨_, .say _, trivial⟩
    · have hhere : (saying site said).disk.Plain := hplain
      have hsections := (writeSections_apply hstores overview contents
        (sectionTitles contents).length 1 (sectionTitles contents) hhere hordinary).1
      exact Ends.bind_exists ⟨hsections, rfl⟩ fun said => ⟨_, .say _, trivial⟩
  obtain ⟨left, hends, -⟩ := hends
  exact hends.1

variable {model : Json.Value} {text? : Option String} (hplain : site.disk.Plain)
  (hoverview : site.disk.text? "./high-level-overview/project_overview.md" = some overview)
  (hnonempty : overview ≠ "") (hgiven : drafting 3 site.services.drafter = .ok text?)
  (hfound : contentsFrom { model := model } text? (site.disk.withFolder "final_documentation") =
    some contents)

include hplain hoverview hnonempty hgiven hfound

theorem run_announces :
    Announces (announcements (sectionTitles contents)) (run { model := model }) site := by
  have hmaterial := (material_ends model hplain hoverview hnonempty hgiven).1
  rw [hfound] at hmaterial
  rw [run_eq]
  refine Announces.after_keeps (material_keeps_announced _) fun found left happly => ?_
  obtain rfl : found = some (overview, contents) :=
    Except.ok.inj ((result_ok happly).symm.trans hmaterial)
  exact writeManual_announces overview contents left

theorem result_run (hordinary : site.services.drafter.Ordinary) :
    result (run { model := model }) site = .ok () := by
  obtain ⟨said, happly⟩ := run_apply model hplain hoverview hnonempty hgiven hfound
  rw [result, happly]
  exact result_writeManual (storesAt_usual { model := model }) overview contents
    (plain_supplied model overview text? hplain) (hordinary.drop _)

end Run

section Saved

variable {model : Json.Value} {contents : String} {disk : Disk}

/-- Reading a table of contents from its file does not change its titles. -/
theorem sectionTitles_unifyNewlines (contents : String) :
    sectionTitles (String.ofList (Text.unifyNewlines contents.toList)) = sectionTitles contents := by
  have htitles : titles (Text.unifyNewlines contents.toList) = titles contents.toList := by
    unfold titles headingTitles itemTitles
    rw [Text.lines_unifyNewlines]
  rw [sectionTitles, sectionTitles, String.toList_ofList, htitles]

/-- The table of contents that was saved is found again. -/
theorem contentsFrom_saved (hplain : disk.Plain) (hnonempty : contents ≠ "")
    (hsaved : disk.get? ["high-level-overview", "TABLE_OF_CONTENTS.md"] =
      some (.file (Text.Utf8.encode contents.toList))) :
    contentsFrom { model := model } none disk =
      some (String.ofList (Text.unifyNewlines contents.toList)) := by
  have htext : disk.text? "./high-level-overview/TABLE_OF_CONTENTS.md" =
      some (String.ofList (Text.unifyNewlines contents.toList)) := by
    rw [text?_eq hplain leadsTo_contents (by decide), hsaved]
    exact textOf?_encode contents.toList
  have hread : String.ofList (Text.unifyNewlines contents.toList) ≠ "" := by
    intro hempty
    have hnil := Text.unifyNewlines_eq_nil (String.ofList_eq_empty_iff.1 hempty)
    exact hnonempty (String.toList_eq_nil_iff.1 hnil)
  have hnone : Text.nonempty? none = none := rfl
  rw [contentsFrom, htext, hnone, Option.none_or]
  simp [Text.nonempty?, Option.filter, hread]

theorem contents_after_writeManual {site : Site} (overview contents : String)
    (hplain : site.disk.Plain) {content : List UInt8}
    (hsaved : site.disk.get? ["high-level-overview", "TABLE_OF_CONTENTS.md"] =
      some (.file content)) :
    (after (writeManual { model := model } overview contents) site).disk.get?
      ["high-level-overview", "TABLE_OF_CONTENTS.md"] = some (.file content) := by
  let scope : Scope := ⟨fun _ => False, fun _ => True, fun _ => False⟩
  have hgrows : GrowsDisk scope (writeManual { model := model } overview contents) :=
    writeManual_growsDisk (storesAt_usual { model := model }).leadsTo (fun _ => trivial) _ _
  obtain hsame | ⟨hrewritten, -⟩ := (hgrows site hplain).file hsaved
  · exact hsame
  · exact hrewritten.elim

/-- A run that obtains a table of contents and one that finds it in its file go through the
same sections in the same order, whatever ends the lines of it. If neither is interrupted,
both get to the last one. The file is left as it was. -/
theorem resumed_run_goes_through_same_sections {first later : Site} {overview again : String}
    (hfirst : first.disk.Plain) (hlater : later.disk.Plain)
    (hoverview : first.disk.text? "./high-level-overview/project_overview.md" = some overview)
    (hnonempty : overview ≠ "") (hgiven : drafting 3 first.services.drafter = .ok (some contents))
    (hsaved : (after (run {}) first).disk.get? ["high-level-overview", "TABLE_OF_CONTENTS.md"] =
      some (.file (Text.Utf8.encode contents.toList)))
    (hagain : later.disk.text? "./high-level-overview/project_overview.md" = some again)
    (hfull : again ≠ "") (hnone : drafting 3 later.services.drafter = .ok none)
    (hkept : later.disk.get? ["high-level-overview", "TABLE_OF_CONTENTS.md"] =
      (after (run {}) first).disk.get? ["high-level-overview", "TABLE_OF_CONTENTS.md"]) :
    Announces (announcements (sectionTitles contents)) (run {}) first ∧
      Announces (announcements (sectionTitles contents)) (run {}) later ∧
      (first.services.drafter.Ordinary → result (run {}) first = .ok ()) ∧
      (later.services.drafter.Ordinary → result (run {}) later = .ok ()) ∧
      (after (run {}) later).disk.get? ["high-level-overview", "TABLE_OF_CONTENTS.md"] =
        later.disk.get? ["high-level-overview", "TABLE_OF_CONTENTS.md"] := by
  have htext := nonempty?_of_drafting hgiven
  have hnew : contentsFrom {} (some contents) (first.disk.withFolder "final_documentation") =
      some contents := by
    rw [contentsFrom, htext, Option.some_or]
  have hname := isTopFolder_manual.isName
  have hthere : (later.disk.withFolder "final_documentation").get?
      ["high-level-overview", "TABLE_OF_CONTENTS.md"] =
        some (.file (Text.Utf8.encode contents.toList)) := by
    rw [get?_withFolder hname.short, if_neg (by simp), hkept, hsaved]
  have hcontents : contents ≠ "" := by
    rintro rfl
    exact absurd htext (by simp [Text.nonempty?])
  have hfound : contentsFrom {} none (later.disk.withFolder "final_documentation") = some _ :=
    contentsFrom_saved (hlater.withFolder hname) hcontents hthere
  refine ⟨run_announces hfirst hoverview hnonempty hgiven hnew, ?_,
    result_run hfirst hoverview hnonempty hgiven hnew,
    result_run hlater hagain hfull hnone hfound, ?_⟩
  · rw [← sectionTitles_unifyNewlines]
    exact run_announces hlater hagain hfull hnone hfound
  · obtain ⟨said, happly⟩ := run_apply _ hlater hagain hfull hnone hfound
    have hplain : (saying (supplied {} again none later) said).disk.Plain :=
      plain_supplied ({} : Settings).model again none hlater
    rw [hkept, hsaved, after_eq_of_apply happly]
    exact contents_after_writeManual again _ hplain hthere

def mixedContents : String := "# A\r\n## B\r\r\n# C\u2028# D\r# E"

/-- A site where a table of contents is given whose lines end in different ways, and nothing
else. -/
def mixedContentsSite : Site where
  disk := ⟨[("high-level-overview", .folder [("project_overview.md", .file [111])])]⟩
  services := { Services.failing with
    drafter := ⟨[oneText mixedContents], .error (.raised "RuntimeError" "")⟩ }
  limits := .ample

/-- The site that it leaves, where nothing is given. -/
def mixedContentsLeft : Site :=
  { disk := (after (run {}) mixedContentsSite).disk
    services := Services.failing
    limits := .ample }

/-- After a run without a single section, the next one goes through all five of them. -/
theorem resumed_run_goes_through_same_sections_mixed :
    sectionTitles mixedContents = ["A", "B", "C", "D", "E"] ∧
      Announces (announcements (sectionTitles mixedContents)) (run {}) mixedContentsLeft := by
  have hplain : isPlainEntries mixedContentsSite.disk.entries = true := by decide +kernel
  -- The three are evaluated together, so that the run is evaluated once.
  obtain ⟨hleft, hagain, hsaved⟩ : isPlainEntries mixedContentsLeft.disk.entries = true ∧
      mixedContentsLeft.disk.text? "./high-level-overview/project_overview.md" = some "o" ∧
      (after (run {}) mixedContentsSite).disk.get?
        ["high-level-overview", "TABLE_OF_CONTENTS.md"] =
          some (.file (Text.Utf8.encode mixedContents.toList)) := by
    decide +kernel
  have hdisk : ∀ (disk : Disk) (services : Services) (limits : Limits),
      ({ disk := disk, services := services, limits := limits } : Site).disk = disk :=
    fun _ _ _ => rfl
  have hkept : ∀ place, mixedContentsLeft.disk.get? place =
      (after (run {}) mixedContentsSite).disk.get? place := by
    intro place
    rw [mixedContentsLeft, hdisk]
  refine ⟨by decide +kernel, ?_⟩
  exact (resumed_run_goes_through_same_sections (plain_of_isPlain hplain) (plain_of_isPlain hleft)
    (show _ = some "o" by decide +kernel) (by decide) (by decide +kernel) hsaved hagain (by decide)
    (by decide +kernel) (hkept _)).2.1

end Saved

end Docwright.Manual
