import Docwright.Proofs.Component.Pages
import Docwright.Proofs.Notes.Run
import Docwright.Proofs.Program.Session

/-!
# Notes are found by name

Notes are saved and looked up under the name of a file, wherever the file is. After a
run that takes notes, and a survey, the notes that a prompt for a page holds for a file
are therefore those of the first file of its name on which notes were saved. They are
its own if no other source file has its name; if there are others, only the first can
have its own, and no later one ever gets any.
-/

namespace Docwright.Program

open Docwright.Component
open Docwright.Disk
open Docwright.Job
open Docwright.Json
open Docwright.Path

def reread (text : String) : String := String.ofList (Text.unifyNewlines text.toList)

/-- The notes on a name after those turns, if there were none before. -/
def notesAfter (settings : Notes.Settings) (turns : List Notes.Turn) (name : String) :
    Option String :=
  (Notes.firstSaved? settings name turns).map reread

section Turns

variable {settings : Notes.Settings} (husual : settings.IsUsual) {site : Site}
  (hready : Notes.Ready site) (hsources : site.disk.get? ["src"] ≠ none)
  (hindex : site.disk.get? ["rag_index"] ≠ none) (hload : site.services.indexLoad = .ok ())

include husual hready hsources hindex hload

/-- Where notes on a name were saved in a run, they are found by that name. -/
theorem notesOf?_after_notes (hempty : ∀ name, site.disk.get? ["file_notes", name] = none)
    {name : String} (hname : IsName name) :
    notesOf? (after (Notes.run settings) site).disk name =
      notesAfter settings (Notes.turnsOf settings site) name := by
  obtain ⟨hstart, hproper⟩ := Notes.started_isProper husual hready hsources hindex hload
  have hnone : (Notes.started settings site).disk.get? ["file_notes", name ++ ".md"] = none := by
    rw [Notes.disk_started husual hready.plain hsources hindex hload, get?_withFolder (by decide),
      if_neg (by simp)]
    exact hempty _
  have hplain := (Notes.follows_turnsOf husual hready hsources hindex hload).2.ready.plain
  rw [Notes.disk_run husual hready hsources hindex hload, notesOf?_eq hplain hname, Notes.turnsOf,
    Notes.get?_reached husual.notesFolder hstart hproper, hnone, Option.none_or, notesAfter]
  cases Notes.firstSaved? settings name _ with
  | none => rfl
  | some text => exact textOf?_encode text.toList

/-- The notes on the name of a file are those of its own turn, unless none were saved in
that turn and some in another. -/
theorem notesAfter_eq_iff {turn : Notes.Turn} (hturn : turn ∈ Notes.turnsOf settings site) :
    notesAfter settings (Notes.turnsOf settings site) turn.source.name =
        (turn.saved? settings).map reread ↔
      (turn.saved? settings).isSome ∨ ∀ other ∈ Notes.turnsOf settings site,
        other.source.name = turn.source.name → other.saved? settings = none := by
  obtain ⟨hstart, hproper⟩ := Notes.started_isProper husual hready hsources hindex hload
  rw [notesAfter]
  cases hsaved : turn.saved? settings with
  | some text =>
      have hfirst : Notes.firstSaved? settings turn.source.name (Notes.turnsOf settings site) =
          some text :=
        Notes.firstSaved?_eq_some husual.notesFolder hstart hproper hturn hsaved
      simp [hfirst]
  | none => simpa using Notes.firstSaved?_eq_none_iff

theorem notesAfter_eq_of_only {before rest : List Notes.Turn} {turn : Notes.Turn}
    (hsplit : Notes.turnsOf settings site = before ++ turn :: rest)
    (honly : ∀ other ∈ before ++ rest, other.source.name ≠ turn.source.name) :
    notesAfter settings (Notes.turnsOf settings site) turn.source.name =
      (turn.saved? settings).map reread := by
  have hturn : turn ∈ Notes.turnsOf settings site := by simp [hsplit]
  apply (notesAfter_eq_iff husual hready hsources hindex hload hturn).2
  cases hsaved : turn.saved? settings with
  | some text => exact Or.inl rfl
  | none =>
      right
      intro other hother hname
      rw [hsplit, List.mem_append, List.mem_cons] at hother
      rcases hother with hbefore | rfl | hrest
      · exact absurd hname (honly other (List.mem_append_left _ hbefore))
      · exact hsaved
      · exact absurd hname (honly other (List.mem_append_right _ hrest))

theorem base_path_of_mem_turnsOf {turn : Notes.Turn} (h : turn ∈ Notes.turnsOf settings site) :
    base turn.source.path = turn.source.name := by
  obtain ⟨hstart, hproper⟩ := Notes.started_isProper husual hready hsources hindex hload
  obtain ⟨hsource, _⟩ := (Notes.follows_course husual.notesFolder hstart hproper).1 turn h
  exact Notes.base_path_of_mem_sources husual hready.plain hsource

end Turns

section Session

variable {settings : Notes.Settings} (husual : settings.IsUsual) {noted : Site}

theorem notesOf?_survey (surveySettings : Survey.Settings) (services : Services) (limits : Limits)
    {disk : Disk} (hplain : disk.Plain) {name : String} (hname : IsName name) :
    notesOf? (Run.left ⟨.survey surveySettings, services, limits⟩ disk) name =
      notesOf? disk name := by
  have hwrites : Writes "./repo_structure.json" disk
      (Run.left ⟨.survey surveySettings, services, limits⟩ disk) :=
    Survey.run_onlyWrites _ { disk := disk, services := services, limits := limits }
  rw [notesOf?_eq (Run.grows _ hplain).plain hname, notesOf?_eq hplain hname,
    hwrites.get?_of_ne hplain leadsTo_structure (by simp)]

include husual in
/-- After a run that takes notes and a survey, the notes on a name are those of the first
turn in which some were saved. -/
theorem ready_session (surveySettings : Survey.Settings) (surveyServices : Services)
    (surveyLimits : Limits) {disk : Disk} {notesServices : Services} {notesLimits : Limits}
    (hready : Notes.Ready { disk := disk, services := notesServices, limits := notesLimits })
    (hempty : ∀ name, disk.get? ["file_notes", name] = none)
    (hsources : disk.get? ["src"] ≠ none) (hindex : disk.get? ["rag_index"] ≠ none)
    (hload : notesServices.indexLoad = .ok ()) {surveyed : Site}
    (hdisk : surveyed.disk = session [⟨.notes settings, notesServices, notesLimits⟩,
      ⟨.survey surveySettings, surveyServices, surveyLimits⟩] disk)
    (hordinary : surveyed.services.writer.Ordinary) :
    Ready (notesAfter settings (Notes.turnsOf settings
      { disk := disk, services := notesServices, limits := notesLimits })) surveyed := by
  have hplain := (Run.grows ⟨.notes settings, notesServices, notesLimits⟩ hready.plain).plain
  have hsame : { settings with notesFolder := "./file_notes" } = settings := by
    rw [← husual.notesFolder]
  have hleft : Run.left ⟨.notes settings, notesServices, notesLimits⟩ disk =
      (after (Notes.run settings)
        { disk := disk, services := notesServices, limits := notesLimits }).disk := by
    rw [Run.left, Launch.job, hsame]
  refine ⟨hdisk ▸ (session_grows _ hready.plain).plain, hordinary, fun name hname => ?_⟩
  rw [hdisk, session, session, session,
    notesOf?_survey surveySettings surveyServices surveyLimits hplain hname, hleft]
  exact notesOf?_after_notes husual hready hsources hindex hload hempty hname

end Session

/-- A prompt for a page holds, as the notes on a file, those of the first turn in which
notes on a file of that name were saved. They are the ones obtained for the file itself
exactly if notes were saved in its own turn or in no turn of that name, in particular if
no other source file has its name. But once notes on a file are saved, none are saved on
any other file of that name. -/
theorem components_take_first_notes (writerModel notesTokens addendumTokens : Value)
    (surveySettings : Survey.Settings) (model maxTokens : Value) {disk : Disk}
    {notesServices surveyServices services : Services} (notesLimits surveyLimits limits : Limits)
    {listing : List (String × Fields)}
    (hplain : disk.Plain) (hempty : ∀ name, disk.get? ["file_notes", name] = none)
    (hsources : disk.get? ["src"] ≠ none) (hindex : disk.get? ["rag_index"] ≠ none)
    (hload : notesServices.indexLoad = .ok ()) (hwriter : notesServices.writer.Ordinary)
    (hsearches : notesServices.searches.Ordinary) (hordinary : services.writer.Ordinary)
    (hpaths : ∀ file ∈ listing, IsSourcePath file.1) (hdistinct : (listing.map (·.1)).Nodup) :
    let notesSettings : Notes.Settings :=
      { model := writerModel, notesTokens := notesTokens, addendumTokens := addendumTokens }
    let settings : Component.Settings := { model := model, maxTokens := maxTokens }
    let surveyed : Site :=
      { disk := session [⟨.notes notesSettings, notesServices, notesLimits⟩,
          ⟨.survey surveySettings, surveyServices, surveyLimits⟩] disk
        services := services
        limits := limits }
    let turns := Notes.turnsOf notesSettings
      { disk := disk, services := notesServices, limits := notesLimits }
    let notes := notesAfter notesSettings turns
    result (loadJson "./repo_structure.json") surveyed = .ok (.obj (files listing)) →
      (after (Component.run settings) surveyed).asked =
          (subjects notes listing).map (Subject.request settings notes) ∧
        ∀ before turn rest, turns = before ++ turn :: rest →
          (notes (base turn.source.path) = (turn.saved? notesSettings).map reread ↔
            (turn.saved? notesSettings).isSome ∨ ∀ other ∈ turns,
              other.source.name = turn.source.name → other.saved? notesSettings = none) ∧
          ((∀ other ∈ before ++ rest, other.source.name ≠ turn.source.name) →
            notes (base turn.source.path) = (turn.saved? notesSettings).map reread) ∧
          ∀ other ∈ before, other.source.name = turn.source.name →
            (other.saved? notesSettings).isSome → turn.saved? notesSettings = none := by
  intro notesSettings settings surveyed turns notes hlisting
  have husual : notesSettings.IsUsual := Notes.isUsual _ _ _
  have hready : Notes.Ready { disk := disk, services := notesServices, limits := notesLimits } :=
    ⟨hplain, hwriter, hsearches⟩
  -- what the survey is given and finds does not matter: it leaves the notes alone
  have hsurveyed : Ready notes surveyed :=
    ready_session husual surveySettings surveyServices surveyLimits hready hempty hsources hindex
      hload rfl hordinary
  constructor
  · have hsettings : settings.IsUsual := isUsual _ _
    obtain ⟨_, hasked⟩ := run_asks hsettings hsurveyed hpaths hdistinct hlisting
    rw [hasked, List.nil_append]
  · intro before turn rest hsplit
    have hturn : turn ∈ turns := by simp [hsplit]
    rw [base_path_of_mem_turnsOf husual hready hsources hindex hload hturn]
    refine ⟨notesAfter_eq_iff husual hready hsources hindex hload hturn,
      notesAfter_eq_of_only husual hready hsources hindex hload hsplit,
      fun other hother hname hsome => ?_⟩
    obtain ⟨text, hsaved⟩ := Option.isSome_iff_exists.1 hsome
    obtain ⟨hstart, hproper⟩ := Notes.started_isProper husual hready hsources hindex hload
    exact Notes.saved?_eq_none_of_earlier husual.notesFolder hstart hproper hsplit hother hname
      hsaved

/-- Services by which two texts can be written and no search finds anything. -/
def twoTexts : Services := { Completion.writing [.str "m", .str "n"] with searches := ⟨[], .ok []⟩ }

/-- The site after notes on the twins and a survey whose parser fails. -/
def surveyedTwins : Site :=
  { disk := session [⟨.notes {}, twoTexts, .ample⟩, ⟨.survey {}, Services.failing, .ample⟩] twinDisk
    services := Services.failing
    limits := .ample }

def unparsed : Fields :=
  [("includes", .arr []), ("functions", .arr []), ("classes", .arr []), ("error", .str "")]

def twinListing : List (String × Fields) :=
  [("./src/x/a.h", unparsed), ("./src/y/a.h", unparsed)]

theorem isSourcePath_twinListing : ∀ file ∈ twinListing, IsSourcePath file.1 :=
  isSourcePath_twinFiles

def notedTwins : Site :=
  { disk := Run.left ⟨.notes {}, twoTexts, .ample⟩ twinDisk
    services := Services.failing
    limits := .ample }

def unnotedTwins : Site := { disk := twinDisk, services := twoTexts, limits := .ample }

theorem disk_surveyedTwins : surveyedTwins.disk = (after (Survey.run {}) notedTwins).disk := by
  rw [surveyedTwins, session, session, session, Run.left, Launch.job, notedTwins]

theorem listing_surveyedTwins :
    (result (loadJson "./repo_structure.json") surveyedTwins).toOption =
      some (.obj (files twinListing)) := by
  have hdisk : twinDisk.Plain := plain_of_isPlain (by decide +kernel)
  have hgrown := Run.grows ⟨.notes {}, twoTexts, .ample⟩ hdisk
  have hplain : notedTwins.disk.Plain := by
    rw [notedTwins]
    with_reducible exact hgrown.plain
  have hroom : notedTwins.disk.HasRoom ["repo_structure.json"] :=
    hasRoom_top (by decide) (by decide +kernel)
  have hlisted : Survey.listed {} notedTwins.disk notedTwins.services.parser
      (Survey.sourcePaths notedTwins) =
        [("./src/x/a.h", .failed ""), ("./src/y/a.h", .failed "")] := by
    decide +kernel
  have hsome : Survey.sourcePaths notedTwins ≠ [] := by
    intro hnone
    rw [hnone] at hlisted
    exact absurd hlisted (by simp [Survey.listed])
  rw [Survey.loadJson_after_run hplain rfl rfl (Survey.not_interrupts (by decide +kernel)) hroom.1
    (by decide +kernel) hsome disk_surveyedTwins, hlisted]
  rfl

theorem saved?_turns_twins :
    (Notes.turnsOf {} unnotedTwins).map
        (fun turn => (turn.source.path, turn.saved? {})) =
      [("./src/x/a.h", some "m"), ("./src/y/a.h", none)] := by
  decide +kernel

theorem noNotes_twinDisk (name : String) : twinDisk.get? ["file_notes", name] = none := by
  rfl

/-- The prompts for both twins hold the notes on the first of them. -/
theorem components_take_first_notes_twins :
    let turns := Notes.turnsOf {} unnotedTwins
    let notes := notesAfter {} turns
    isPlainEntries twinDisk.entries = true ∧
      (result (loadJson "./repo_structure.json") surveyedTwins).toOption =
        some (.obj (files twinListing)) ∧
      turns.map (fun turn => (turn.source.path, turn.saved? {})) =
        [("./src/x/a.h", some "m"), ("./src/y/a.h", none)] ∧
      (after (Component.run {}) surveyedTwins).asked =
        (subjects notes twinListing).map (Subject.request {} notes) := by
  intro turns notes
  have hplain : isPlainEntries twinDisk.entries = true := by decide +kernel
  have hwriter : (twoTexts.writer.after :: twoTexts.writer.next).all
      (!Feed.isInterruption ·) = true := by decide +kernel
  obtain ⟨hasked, _⟩ := components_take_first_notes (.str Completion.modelName) (.int 4000)
    (.int 1000) {} (.str Completion.modelName) (.int 4000) .ample .ample .ample
    (plain_of_isPlain hplain) noNotes_twinDisk (by decide +kernel) (by decide +kernel) rfl
    (Feed.ordinary_of_not_isInterruption hwriter)
    (Feed.ordinary_of_not_isInterruption (by decide +kernel))
    (Feed.ordinary_of_not_isInterruption (by decide +kernel)) isSourcePath_twinListing
    (by decide +kernel) (result_eq_ok listing_surveyedTwins)
  exact ⟨hplain, listing_surveyedTwins, saved?_turns_twins, hasked⟩

/-- No notes are taken on the second twin, and yet the prompt for it holds some: those on
the first. -/
theorem components_take_notes_of_twin :
    (Notes.turnsOf {} unnotedTwins).map
          (fun turn => (turn.source.path, turn.saved? {})) =
        [("./src/x/a.h", some "m"), ("./src/y/a.h", none)] ∧
      (after (Component.run {}) surveyedTwins).asked.getLast? =
        some (.write (.str Completion.modelName) (.int 4000)
          (.str (singlePrompt "./src/y/a.h" "m" (.ofFields unparsed)))) := by
  refine ⟨saved?_turns_twins, ?_⟩
  have hnotes : notesAfter {} (Notes.turnsOf {} unnotedTwins) "a.h" =
      some "m" := by
    decide +kernel
  have hnotesReady : Notes.Ready unnotedTwins :=
    ⟨plain_of_isPlain (by decide +kernel),
      Feed.ordinary_of_not_isInterruption (by decide +kernel),
      Feed.ordinary_of_not_isInterruption (by decide +kernel)⟩
  have hdisk : surveyedTwins.disk =
      session [⟨.notes {}, twoTexts, .ample⟩, ⟨.survey {}, Services.failing, .ample⟩] twinDisk := by
    rw [surveyedTwins]
  have hready : Ready (notesAfter {} (Notes.turnsOf {} unnotedTwins)) surveyedTwins :=
    ready_session (Notes.isUsual _ _ _) {} Services.failing .ample hnotesReady noNotes_twinDisk
      (by decide +kernel) (by decide +kernel) rfl hdisk
      (Feed.ordinary_of_not_isInterruption (by decide +kernel))
  have husual : ({} : Component.Settings).IsUsual := isUsual _ _
  obtain ⟨_, hasked⟩ := run_asks husual hready isSourcePath_twinListing (by decide +kernel)
    (result_eq_ok listing_surveyedTwins)
  have hsubjects : subjects (notesAfter {} (Notes.turnsOf {} unnotedTwins))
      twinListing = [.single ("./src/x/a.h", unparsed), .single ("./src/y/a.h", unparsed)] := by
    decide +kernel
  have hbase : base "./src/y/a.h" = "a.h" := by decide
  rw [hasked, hsubjects, List.map_cons, List.map_cons, List.map_nil, List.getLast?_append]
  simp only [Subject.request, Subject.prompt, hbase, hnotes]
  rfl

end Docwright.Program
