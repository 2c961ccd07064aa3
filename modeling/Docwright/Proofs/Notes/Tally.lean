import Docwright.Proofs.Notes.Run

/-!
# The number of files that got notes

At its end a run reports on how many files it took notes. A turn that opens the file of the
notes puts one new name into their folder and takes none away, so the names in the folder at
the end are those at the start and one for each of these turns (`perm_notesNames_reached`).
The file is filled if the notes are a text and stays empty otherwise, and only the former is
counted. So the number reported is that of the new files that are not empty. If a turn or the
walk over the sources breaks the run off, it ends with a fault and without a report.
-/

namespace Docwright.Notes

open Docwright.Disk
open Docwright.Job
open Docwright.Path

section Names

def notesNames (disk : Disk) : List String := (disk.list? "./file_notes").toOption.getD []

/-- The names that are in the folder of the notes on the second disk and not on the first. -/
def appeared (disk left : Disk) : List String :=
  (notesNames left).filter (· ∉ notesNames disk)

/-- The names that are new in the folder of the notes and not those of empty files. -/
def appearedFilled (disk left : Disk) : List String :=
  (appeared disk left).filter fun name => left.get? ["file_notes", name] ≠ some (.file [])

theorem notesNames_eq {disk : Disk} (hplain : disk.Plain) :
    notesNames disk =
      if disk.get? ["file_notes"] = some .folder then disk.names ["file_notes"] else [] := by
  rw [notesNames, list?_toOption hplain isTopFolder_notes.leadsTo isTopFolder_notes.short]
  split
  · rfl
  · rfl

theorem mem_notesNames {disk : Disk} (hplain : disk.Plain) {name : String} :
    name ∈ notesNames disk ↔ disk.get? ["file_notes", name] ≠ none := by
  rw [notesNames_eq hplain]
  by_cases hfolder : disk.get? ["file_notes"] = some .folder
  · rw [if_pos hfolder]
    exact mem_names_iff
  · rw [if_neg hfolder]
    have hnone : disk.get? ["file_notes", name] = none :=
      (nothing_below (List.cons_ne_nil name []) hfolder).1
    simp [hnone]

theorem nodup_notesNames {disk : Disk} (hplain : disk.Plain) : (notesNames disk).Nodup := by
  rw [notesNames_eq hplain]
  split
  · exact nodup_names disk _
  · exact List.nodup_nil

theorem appeared_withFolder {disk : Disk} (hplain : disk.Plain) (left : Disk) :
    appeared (disk.withFolder "file_notes") left = appeared disk left := by
  have hmade : (disk.withFolder "file_notes").Plain := hplain.withFolder isTopFolder_notes.isName
  refine List.filter_congr fun name _ => ?_
  rw [decide_eq_decide, mem_notesNames hmade, mem_notesNames hplain,
    get?_withFolder (by decide), if_neg (by simp)]

end Names

section Count

variable {settings : Settings} (hfolder : settings.notesFolder = "./file_notes")

def Turn.openedName? (settings : Settings) (turn : Turn) : Option String :=
  (turn.opened? settings).map fun _ => turn.source.name ++ ".md"

include hfolder

/-- A turn adds the name of the file that it opens. -/
theorem perm_notesNames_left {turn : Turn} (hready : Ready turn.site)
    (hproper : turn.source.IsProper) :
    (notesNames (turn.left settings).disk).Perm
      ((turn.openedName? settings).toList ++ notesNames turn.site.disk) := by
  have hleft := Turn.plain_left hfolder hready hproper
  rw [Turn.disk_left hfolder hready hproper] at hleft ⊢
  rw [Turn.openedName?]
  cases hopened : turn.opened? settings with
  | none => exact List.Perm.refl _
  | some notes =>
      obtain ⟨hnone, hhold⟩ := Turn.of_opened?_eq_some hfolder hready hproper hopened
      have hnew : turn.source.name ++ ".md" ∉ notesNames turn.site.disk := by
        rw [mem_notesNames hready.plain, Classical.not_not]
        exact hnone
      rw [hopened] at hleft
      refine (List.perm_ext_iff_of_nodup (nodup_notesNames hleft)
        (List.nodup_cons.2 ⟨hnew, nodup_notesNames hready.plain⟩)).2 fun name => ?_
      rw [mem_notesNames hleft, List.mem_cons, mem_notesNames hready.plain, Option.elim_some,
        get?_insert_of_canHold hhold]
      by_cases hsame : name = turn.source.name ++ ".md"
      · simp [hsame, Source.notesPlace]
      · simp [hsame, Source.notesPlace]

theorem perm_notesNames_reached {site : Site} (hready : Ready site) {sources : List Source}
    (hproper : ∀ source ∈ sources, source.IsProper) :
    (notesNames (reached settings site (course settings site sources)).disk).Perm
      ((course settings site sources).filterMap (Turn.openedName? settings) ++
        notesNames site.disk) := by
  refine course_induction (P := fun site turns =>
    (notesNames (reached settings site turns).disk).Perm
      (turns.filterMap (Turn.openedName? settings) ++ notesNames site.disk)) hfolder hready hproper
    (fun _ => List.Perm.refl _) ?_
  intro turn later hready hproper hlater
  have hcons : (turn :: later).filterMap (Turn.openedName? settings) =
      (turn.openedName? settings).toList ++ later.filterMap (Turn.openedName? settings) := by
    rw [List.filterMap_cons]
    cases turn.openedName? settings with
    | none => rfl
    | some name => rfl
  have hleft := perm_notesNames_left hfolder hready hproper
  refine List.Perm.trans hlater ((hleft.append_left _).trans ?_)
  rw [hcons, ← List.append_assoc]
  exact List.Perm.append_right _ List.perm_append_comm

/-- The names that are new are those of the files that were opened. -/
theorem perm_appeared {site : Site} (hready : Ready site) {sources : List Source}
    (hproper : ∀ source ∈ sources, source.IsProper) :
    (appeared site.disk (reached settings site (course settings site sources)).disk).Perm
      ((course settings site sources).filterMap (Turn.openedName? settings)) := by
  have hperm := perm_notesNames_reached hfolder hready hproper
  have hlast := (follows_course hfolder hready hproper).2.ready.plain
  have hnodup := hperm.nodup_iff.1 (nodup_notesNames hlast)
  have hnew : ∀ name ∈ (course settings site sources).filterMap (Turn.openedName? settings),
      name ∉ notesNames site.disk :=
    fun name hopened hold => (List.nodup_append.1 hnodup).2.2 name hopened name hold rfl
  have hfront := List.filter_eq_self.2 fun name hname => decide_eq_true (hnew name hname)
  have hback : (notesNames site.disk).filter (· ∉ notesNames site.disk) = [] :=
    List.filter_eq_nil_iff.2 (by simp)
  have hfiltered := hperm.filter (· ∉ notesNames site.disk)
  rw [List.filter_append, hfront, hback, List.append_nil] at hfiltered
  exact hfiltered

/-- Notes are saved in a turn that opens their file for a text. -/
theorem ended_eq_true_iff {turn : Turn} (hready : Ready turn.site)
    (hproper : turn.source.IsProper) :
    (turn.ended settings).toOption = some true ↔
      ((turn.opened? settings).bind Json.Value.text?).isSome = true := by
  rw [turn.ended_eq hfolder hready hproper, Turn.ending, Turn.opened?]
  cases (turn.exchange settings).outcome with
  | error fault => simp [Except.map, Except.toOption]
  | ok notes? => simp [Except.map, Except.toOption]

end Count

section Report

variable {settings : Settings} {site : Site} (husual : settings.IsUsual) (hready : Ready site)
  (hsources : site.disk.get? ["src"] ≠ none) (hindex : site.disk.get? ["rag_index"] ≠ none)
  (hload : site.services.indexLoad = .ok ())

include husual hready hsources hindex hload

/-- As many names of files that are not empty are new after a run as turns saved notes. -/
theorem length_appearedFilled_run :
    (appearedFilled site.disk (after (run settings) site).disk).length =
      tally settings (turnsOf settings site) := by
  have hfolder := husual.notesFolder
  obtain ⟨hstart, hproper⟩ := started_isProper husual hready hsources hindex hload
  have hperm : (appeared (started settings site).disk
      (reached settings (started settings site) (turnsOf settings site)).disk).Perm _ :=
    perm_appeared hfolder hstart hproper
  rw [disk_started husual hready.plain hsources hindex hload, appeared_withFolder hready.plain,
    ← disk_run husual hready hsources hindex hload] at hperm
  -- the new names are those of the opened files, so a name counts if its turn saved a text
  rw [appearedFilled, (hperm.filter _).length_eq, List.filter_filterMap,
    List.length_filterMap_eq_countP, tally]
  apply List.countP_congr
  intro turn hturn
  obtain ⟨hproper, hfollows⟩ :=
    (follows_turnsOf husual hready hsources hindex hload).1 turn hturn
  rw [decide_eq_true_iff, ended_eq_true_iff hfolder hfollows.ready hproper, Turn.openedName?]
  cases hopened : turn.opened? settings with
  | none => simp
  | some notes =>
      have hfile := (get?_of_opened? husual hready hsources hindex hload hturn hopened).2
      have hpresent := Turn.isPresent_of_outcome
        ((Turn.opened?_eq_some_iff hfolder hfollows.ready hproper).1 hopened).1
      rw [Source.notesPlace] at hfile
      simp [Option.filter_some, hfile, content_eq_nil_iff hpresent, Option.isSome_iff_ne_none]

theorem said_run (h : result (run settings) site = .ok ()) :
    ∃ heard, (after (run settings) site).said =
      heard ++ [processedLine (tally settings (turnsOf settings site))] := by
  have hrun := run_eq_turns husual hready hsources hindex hload
  cases houtcome : outcome settings site (turnsOf settings site) with
  | error fault =>
      rw [houtcome] at hrun
      exact absurd (h.symm.trans (result_error hrun)) (by simp)
  | ok count =>
      rw [houtcome, outcome_eq_ok houtcome] at hrun
      exact ⟨_, congrArg Site.said (after_ok hrun)⟩

end Report

/-- A run loads the index and then goes through the source files, up to the first whose
exchange breaks the run. Each has its turn at the site that the turns before it left, with
the answers that these have not used up, and the requests of the run are those of the turns,
one after the other. What comes of a turn is in the file of its notes from then on, if the
disk takes the file, and otherwise the turn leaves the disk as it was. The run ends with the
fault of the turn that breaks it, or as the walk over the sources does. If it ends well, its
report gives the number of new files among the notes that are not empty. -/
theorem run_exchanges_in_turn {settings : Settings} (husual : settings.IsUsual) {site : Site}
    (hready : Ready site) (hsources : site.disk.get? ["src"] ≠ none)
    (hindex : site.disk.get? ["rag_index"] ≠ none) (hload : site.services.indexLoad = .ok ()) :
    let turns := turnsOf settings site
    let left := after (run settings) site
    left.asked = site.asked ++ .loadIndex "./rag_index" ::
        turns.flatMap (Turn.requests settings) ∧
      turns.map Turn.source <+: sources settings site ∧
      (∀ before turn later, turns = before ++ turn :: later →
        let path := settings.notesPath turn.source.name
        turn.site.services =
            (before.flatMap (Turn.requests settings)).foldl Services.next site.services ∧
          (∀ fault, (turn.exchange settings).Breaks fault →
            later = [] ∧ result (run settings) site = .error fault) ∧
          (∀ notes, (turn.exchange settings).outcome = .ok (some notes) →
            (turn.site.disk.write? path notes.content).isOk = true →
              (turn.left settings).disk.read? path = .ok notes.content ∧
              left.disk.read? path = .ok notes.content) ∧
          ((∀ notes, (turn.exchange settings).outcome = .ok (some notes) →
            (turn.site.disk.write? path notes.content).isOk = false) →
              (turn.left settings).disk = turn.site.disk)) ∧
      ((∀ turn ∈ turns, ∀ fault, ¬ (turn.exchange settings).Breaks fault) →
        turns.map Turn.source = sources settings site ∧
        result (run settings) site =
          if (site.disk.walk site.limits.levels "./src").complete then .ok ()
          else .error .deepPath) ∧
      (result (run settings) site = .ok () →
        ∃ heard, left.said =
          heard ++ [processedLine (appearedFilled site.disk left.disk).length]) := by
  intro turns left
  have hfolder := husual.notesFolder
  have hspoken := spoken_started husual hready.plain hsources hindex hload
  obtain ⟨hstart, hproper⟩ := started_isProper husual hready hsources hindex hload
  have hbreaks : ∀ turn ∈ turns, ∀ fault,
      turn.ended settings = .error fault ↔ (turn.exchange settings).Breaks fault :=
    fun turn hturn fault =>
      ended_eq_error_iff_of_mem_turnsOf husual hready hsources hindex hload hturn
  obtain ⟨hfirst, hwhole⟩ :=
    course_sources settings (started settings site) (sources settings site)
  refine ⟨?_, hfirst, ?_, fun hnone => ?_, fun hok => ?_⟩
  · have hasked := asked_reached hfolder hstart hproper
    rw [hspoken.part_eq Site.asked fun _ _ => rfl] at hasked
    rw [(run_ends husual hready hsources hindex hload).2.part_eq Site.asked fun _ _ => rfl]
    exact hasked.trans (List.append_assoc _ _ _)
  · intro before turn later hsplit path
    have hturn : turn ∈ turns := by simp [hsplit]
    obtain ⟨hturnProper, hfollows⟩ :=
      (follows_turnsOf husual hready hsources hindex hload).1 turn hturn
    obtain ⟨_, _, _, _, _, hlast⟩ := course_eq_append hsplit
    refine ⟨?_, fun fault hfault => ⟨?_, ?_⟩, fun notes hnotes hwrite => ?_, fun hnone => ?_⟩
    · exact services_of_turnsOf husual hready hsources hindex hload hsplit
    · exact hlast fault ((hbreaks turn hturn fault).2 hfault)
    · exact (result_run_eq_error_iff husual hready hsources hindex hload).2
        (.inl ⟨turn, hturn, hfault⟩)
    · exact read?_run husual hready hsources hindex hload hturn hnotes hwrite
    · have hopened : turn.opened? settings = none := by
        rw [Option.eq_none_iff_forall_ne_some]
        intro notes hopened
        obtain ⟨hnotes, hwrite⟩ :=
          (Turn.opened?_eq_some_iff hfolder hfollows.ready hturnProper).1 hopened
        exact absurd (hwrite.symm.trans (hnone notes hnotes)) (by simp)
      rw [Turn.disk_left hfolder hfollows.ready hturnProper, hopened]
      rfl
  · have hended : ∀ turn ∈ turns, ∀ fault, turn.ended settings ≠ .error fault :=
      fun turn hturn fault hended => hnone turn hturn fault ((hbreaks turn hturn fault).1 hended)
    refine ⟨hwhole hended, ?_⟩
    rw [(run_ends husual hready hsources hindex hload).1, outcome, counted_of_ok 0 hended,
      husual.sourceFolder]
    cases (site.disk.walk site.limits.levels "./src").complete with
    | true => rfl
    | false => rfl
  · rw [length_appearedFilled_run husual hready hsources hindex hload]
    exact said_run husual hready hsources hindex hload hok

/-- A site with source files for many ways in which a turn can go, and answers for them. -/
def mixedSite : Site where
  disk :=
    ⟨[("src", .folder
        [("a.h", .file [120]), ("b.h", .file [121]), ("c.h", .file [122]), ("d.h", .file [118]),
          ("e.h", .file [32]), ("f.h", .file [119])]),
      ("file_notes", .folder [("f.h.md", .file [113])]),
      ("rag_index", .folder [])]⟩
  services := {
    Completion.writing [.str "n", .str "a", .str "m", .str "NO_ADDENDUM_NEEDED", .int 5] with
    searches := ⟨[.ok [.str "s"], .ok [.str "t"]], .ok []⟩ }
  limits := .ample

/-- Notes are saved on two files, one with an addendum, and a third gets an empty file since
its notes are a number. The last two files are blank and have notes already. -/
theorem run_exchanges_in_turn_mixed :
    let turns := turnsOf {} mixedSite
    let left := after (run {}) mixedSite
    isPlainEntries mixedSite.disk.entries = true ∧
      turns.map (Turn.exchange {}) =
        [.supported "x" (.str "n") "s" (.str "a"),
          .supported "y" (.str "m") "t" (.str "NO_ADDENDUM_NEEDED"), .unsupported "z" (.int 5),
          .unanswered "v", .skipped, .skipped] ∧
      left.asked = .loadIndex "./rag_index" :: turns.flatMap (Turn.requests {}) ∧
      left.disk.read? "./file_notes/a.h.md" =
        .ok (Text.Utf8.encode ("n" ++ addendumSeparator ++ "a").toList) ∧
      ∃ heard, left.said = heard ++ [processedLine 2] := by
  intro turns left
  have hplain : isPlainEntries mixedSite.disk.entries = true := by decide +kernel
  have hready : Ready mixedSite :=
    ⟨plain_of_isPlain hplain, Feed.ordinary_of_not_isInterruption (by decide +kernel),
      Feed.ordinary_of_not_isInterruption (by decide +kernel)⟩
  have hexchanges : turns.map (Turn.exchange {}) =
      [.supported "x" (.str "n") "s" (.str "a"),
        .supported "y" (.str "m") "t" (.str "NO_ADDENDUM_NEEDED"), .unsupported "z" (.int 5),
        .unanswered "v", .skipped, .skipped] := by
    decide +kernel
  have husual : ({} : Settings).IsUsual := isUsual _ _ _
  obtain ⟨hasked, _, hturns, _, hreport⟩ :=
    run_exchanges_in_turn husual hready (by decide +kernel) (by decide +kernel) rfl
  have hfiles : sources {} mixedSite = ⟨"./src/a.h", "a.h"⟩ :: (sources {} mixedSite).tail := by
    decide +kernel
  obtain ⟨rest, hsplit⟩ : ∃ rest, turns =
      [] ++ ⟨⟨"./src/a.h", "a.h"⟩, started {} mixedSite⟩ :: rest := by
    unfold turns
    rw [turnsOf, hfiles]
    exact ⟨_, rfl⟩
  obtain ⟨_, _, hnotes, _⟩ := hturns [] _ rest hsplit
  have hpath : ({} : Settings).notesPath "a.h" = "./file_notes/a.h.md" := by decide
  have hread := hnotes (.str ("n" ++ addendumSeparator ++ "a")) (by decide +kernel)
    (by decide +kernel)
  rw [hpath] at hread
  have hsaid := hreport (result_eq_ok (by decide +kernel))
  have hcount : (appearedFilled mixedSite.disk left.disk).length = 2 := by decide +kernel
  rw [hcount] at hsaid
  exact ⟨hplain, hexchanges, hasked, hread.2, hsaid⟩

/-- A number for notes is taken for notes: the index is searched, and an empty file is left
that the report does not count. -/
theorem run_searches_after_notes_without_text :
    let left := after (run {}) (oneFileSite [.int 5] [])
    left.asked = [.loadIndex "./rag_index", notesRequest {} "x" "./src/a.h",
        .openIndex searchLimit, searchRequest "x"] ∧
      left.disk.get? ["file_notes", "a.h.md"] = some (.file []) ∧
      left.said.getLast? = some (processedLine 0) := by
  decide +kernel

end Docwright.Notes
