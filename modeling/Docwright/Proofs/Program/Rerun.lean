import Docwright.Proofs.Manual.Rerun
import Docwright.Proofs.Notes.Rerun

/-!
# Running the programs once more

The notes and the manual are the work of many requests, and a run that did not get all of
them is to be taken up by another one. A run after which every document asked for was saved
leaves nothing to ask for: the next one asks no more than it has to before it can tell, and
leaves every file as it was. What else happened on the disk does not matter, as long as the
files that the run reads and writes are the same.
-/

namespace Docwright

open Docwright.Disk
open Docwright.Job

/-- A run that takes notes loads the index, and every file that it asks for notes on has
notes in the end. -/
structure Notes.Succeeds (site : Site) : Prop where
  sources : site.disk.get? ["src"] ≠ none
  index : site.disk.get? ["rag_index"] ≠ none
  loaded : site.services.indexLoad = .ok ()
  saved : ∀ source ∈ Notes.sources {} site,
    source.Requested {} (after (Notes.run {}) site).asked →
      (after (Notes.run {}) site).disk.get? source.notesPlace ≠ none

/-- A run that writes the manual is given that text for the table of contents, which is
saved, and every section that it asks for has a file in the end. -/
structure Manual.Succeeds (overview contents : String) (site : Site) : Prop where
  loaded : site.disk.text? "./high-level-overview/project_overview.md" = some overview
  nonempty : overview ≠ ""
  given : Manual.drafting 3 site.services.drafter = .ok (some contents)
  contents_saved : (after (Manual.run {}) site).disk.get?
      ["high-level-overview", "TABLE_OF_CONTENTS.md"] =
    some (.file (Text.Utf8.encode contents.toList))
  saved : ∀ title ∈ Manual.sectionTitles contents,
    Manual.sectionRequest overview contents title ∈ (after (Manual.run {}) site).asked →
      (after (Manual.run {}) site).disk.get? ["final_documentation", Manual.sectionName title] ≠
        none

namespace Program

variable {first again : Site}

/-- After a run in which every document asked for was saved, the next one repeats nothing.
Notes are not asked for again, whatever the services would answer and whether the index is
there or not, if the first run ended well or a walk goes down as far as before. The manual asks
for the table of contents again; if that is the same at once, it asks for nothing else. -/
theorem second_run_repeats_nothing (hplain : first.disk.Plain) (hagain : again.disk.Plain)
    (hfresh : again.asked = []) :
    (Notes.Succeeds first →
      (result (Notes.run {}) first = .ok () ∨ again.limits.levels = first.limits.levels) →
      AgreeBelow "src" again.disk (after (Notes.run {}) first).disk →
      AgreeBelow "file_notes" again.disk (after (Notes.run {}) first).disk →
        (∀ request ∈ (after (Notes.run {}) again).asked, request = .loadIndex "./rag_index") ∧
        (after (Notes.run {}) again).disk = again.disk) ∧
    (∀ overview contents, Manual.Succeeds overview contents first →
      AgreeBelow "high-level-overview" again.disk (after (Manual.run {}) first).disk →
      AgreeBelow "final_documentation" again.disk (after (Manual.run {}) first).disk →
      Manual.outcome again.services.drafter.head = .ok (some contents) →
        result (Manual.run {}) again = .ok () ∧
        (after (Manual.run {}) again).asked = [.draft (.str (Manual.contentsPrompt overview))] ∧
        ∀ place, (after (Manual.run {}) again).disk.get? place = again.disk.get? place) := by
  constructor
  · intro h hlevels hsources hnotes
    have husual : ({} : Notes.Settings).IsUsual := Notes.isUsual _ _ _
    obtain ⟨hleft, hfolder, hbefore, hsettled⟩ :=
      Notes.settled_after_run husual hplain h.sources h.index h.loaded h.saved
    have hwalk := hlevels.imp_left
      (Notes.complete_walk_of_result husual hplain h.sources h.index h.loaded)
    have hhere := Notes.settled_of_agree husual hsources hnotes hbefore hagain hleft hplain hwalk
      hsettled
    rw [← hnotes.get?_eq []] at hfolder
    have hstart : Notes.Idle again again := ⟨rfl, rfl, by simp [hfresh]⟩
    have hidle := (Notes.run_idles husual hagain hfolder hhere).after hstart
    exact ⟨hidle.asked, hidle.disk⟩
  · intro overview contents h hoverview hmanual hanswer
    -- that the manual is finished depends on two folders alone, which are as they were left
    have hleft := Manual.finished_after_run hplain h.loaded h.nonempty h.given
      h.contents_saved h.saved
    have hhere : Manual.Finished overview contents again.disk := by
      refine ⟨hagain, ?_, ?_, ?_, ?_⟩
      · rw [← hleft.overview]
        exact text?_congr hagain hleft.plain Manual.leadsTo_overview (by decide)
          (hoverview.get?_eq _)
      · rw [hmanual.get?_eq]
        exact hleft.folder
      · rw [hoverview.get?_eq]
        exact hleft.saved
      · intro title htitle
        rw [hmanual.get?_eq]
        exact hleft.sections title htitle
    obtain ⟨last, ⟨hresult, hspoken⟩, hasked, hdisk⟩ := Manual.run_again hhere h.nonempty hanswer
    refine ⟨hresult, ?_, fun place => ?_⟩
    · rw [hspoken.part_eq Site.asked fun _ _ => rfl, hasked, hfresh]
      rfl
    · rw [hspoken.part_eq Site.disk fun _ _ => rfl]
      exact hdisk place

/-- A site with two source files of one name and an overview, where every request is
answered; the table of contents has two sections. -/
def answeredSite : Site where
  disk := ⟨[("src", .folder [("a.h", .file [120]), ("c", .folder [("a.h", .file [121])])]),
    ("rag_index", .folder []),
    ("high-level-overview", .folder [("project_overview.md", .file [111])])]⟩
  services := { Services.failing with
    writer := ⟨[], Completion.oneText "n"⟩
    drafter := ⟨[Manual.oneText "# A\n# B"], Manual.oneText "s"⟩
    searches := ⟨[], .ok []⟩
    indexLoad := .ok () }
  limits := .ample

/-- The site with what the job left on the disk, and nothing asked for. -/
def nextSite (job : Job Unit) (services : Services) : Site :=
  { disk := (after job answeredSite).disk, services := services, limits := .ample }

/-- After both programs were answered throughout, neither repeats a request, though the
index cannot be loaded any more. -/
theorem second_run_repeats_nothing_answered :
    (after (Notes.run {}) answeredSite).asked.length = 4 ∧
      (∀ request ∈ (after (Notes.run {}) (nextSite (Notes.run {}) Services.failing)).asked,
        request = .loadIndex "./rag_index") ∧
      (after (Manual.run {}) answeredSite).asked.length = 3 ∧
      (after (Manual.run {}) (nextSite (Manual.run {}) answeredSite.services)).asked =
        [.draft (.str (Manual.contentsPrompt "o"))] := by
  have hplain : isPlainEntries answeredSite.disk.entries = true := by decide +kernel
  have hnotes : isPlainEntries (nextSite (Notes.run {}) Services.failing).disk.entries = true := by
    decide +kernel
  have hmanual : isPlainEntries
      (nextSite (Manual.run {}) answeredSite.services).disk.entries = true := by
    decide +kernel
  have hsources : ((Notes.sources {} answeredSite).all fun source =>
      ((after (Notes.run {}) answeredSite).disk.get? source.notesPlace).isSome) = true := by
    decide +kernel
  have hsections : ((Manual.sectionTitles "# A\n# B").all fun title =>
      ((after (Manual.run {}) answeredSite).disk.get?
        ["final_documentation", Manual.sectionName title]).isSome) = true := by
    decide +kernel
  have hagree : ∀ (top : String) (job : Job Unit) (services : Services),
      AgreeBelow top (nextSite job services).disk (after job answeredSite).disk :=
    fun _ _ _ => rfl
  refine ⟨by decide +kernel, ?_, by decide +kernel, ?_⟩
  · refine ((second_run_repeats_nothing (plain_of_isPlain hplain) (plain_of_isPlain hnotes) rfl).1
      ⟨by decide, by decide, rfl, fun source hsource _ => ?_⟩ (.inl (by decide +kernel))
        (hagree _ _ _) (hagree _ _ _)).1
    exact Option.isSome_iff_ne_none.1 (List.all_eq_true.1 hsources source hsource)
  · refine ((second_run_repeats_nothing (plain_of_isPlain hplain) (plain_of_isPlain hmanual) rfl).2
      "o" "# A\n# B" ⟨by decide +kernel, by decide, by decide +kernel, by decide +kernel,
        fun title htitle _ => ?_⟩ (hagree _ _ _) (hagree _ _ _) (by decide +kernel)).2.1
    exact Option.isSome_iff_ne_none.1 (List.all_eq_true.1 hsections title htitle)

end Program

end Docwright
