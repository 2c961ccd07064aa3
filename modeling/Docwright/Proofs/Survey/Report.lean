import Docwright.Proofs.Disk.Depth
import Docwright.Proofs.Survey.Findings
import Docwright.Proofs.Survey.Listing

/-!
# What a survey reports

A survey whose grammar is loaded lists every source file of the walk, saves the list and says
how many files it has. Without source files nothing is saved. An entry is made of what is read
and parsed of its own file, so a failure shows in that entry and nowhere else. The survey is
stopped only by an interruption and by a tree that goes down further than a walk does, and
then nothing is saved either.
-/

namespace Docwright.Survey

open Docwright.Disk
open Docwright.Job

theorem walk_of_not_hasItem {disk : Disk} {path : String} (h : disk.hasItem path = false)
    (levels : Option Nat) : disk.walk levels path = {} := by
  have hfolder : disk.folder? path = none := by
    unfold Disk.hasItem at h
    unfold folder?
    cases hresolve : disk.resolve path with
    | error error => rfl
    | ok target =>
        cases target with
        | found place item =>
            rw [hresolve] at h
            exact absurd h (by simp)
        | _ => rfl
  rw [walk, hfolder]

section Run

variable {disk : Disk} {start : Site}

/-- The site is before a survey: the disk, the limits and the answers of the parser are those
at the start. -/
structure Before (start site : Site) : Prop extends At start.disk start.services.parser site where
  language_eq : site.services.language = start.services.language
  load_eq : site.services.parserLoad = start.services.parserLoad
  limits_eq : site.limits = start.limits

theorem Before.refl (site : Site) : Before site site := ⟨⟨rfl, rfl⟩, rfl, rfl, rfl⟩

theorem say_before (line : String) {E : Fault → Site → Prop} :
    Brings (Before start) (say line) (fun _ => Before start) E :=
  .intro fun _ h => ⟨h.toAt.spoken line, h.language_eq, h.load_eq, h.limits_eq⟩

def Loads (site : Site) : Prop :=
  site.services.language = .ok () ∧ site.services.parserLoad = .ok ()

theorem loadGrammar_before :
    Brings (Before start) loadGrammar (fun _ left => Loads start ∧ Before start left)
      fun _ left => ¬ Loads start ∧ left.disk = start.disk := by
  have hask : ∀ request {E : Fault → Site → Prop},
      Brings (Before start) (ask request) (fun _ => Before start) E :=
    fun _ => .intro fun site h =>
      ⟨⟨h.disk_eq, h.parser_eq⟩, h.language_eq, h.load_eq, h.limits_eq⟩
  have hanswer : ∀ answer : Except Failure Unit, Brings (Before start)
      (ofAnswer answer) (fun _ left => answer = .ok () ∧ Before start left)
      fun _ left => answer ≠ .ok () ∧ left.disk = start.disk := by
    rintro (failure | ⟨⟩)
    · exact Brings.throw fun _ h => ⟨by simp, h.disk_eq⟩
    · exact Brings.pure fun _ h => ⟨rfl, h⟩
  apply Brings.bind (hask _)
  intro _
  apply Brings.bind (M := fun seen left =>
    seen.services.language = start.services.language ∧ Before start left)
  · exact .intro fun site h => ⟨h.language_eq, h⟩
  intro seen
  apply Brings.assume
  intro hseen
  rw [hseen]
  apply Brings.bind ((hanswer _).imp (fun _ h => h) (fun _ _ h => h)
    fun _ _ h => ⟨fun hboth => h.1 hboth.1, h.2⟩)
  intro _
  apply Brings.assume
  intro hlanguage
  apply Brings.bind (hask _)
  intro _
  apply Brings.bind (M := fun last left =>
    last.services.parserLoad = start.services.parserLoad ∧ Before start left)
  · exact .intro fun site h => ⟨h.load_eq, h⟩
  intro last
  apply Brings.assume
  intro hlast
  rw [hlast]
  exact (hanswer _).imp (fun _ h => h) (fun _ _ h => ⟨⟨hlanguage, h.1⟩, h.2⟩)
    fun _ _ h => ⟨fun hboth => h.1 hboth.2, h.2⟩

/-- A run that has found this saves it, if it is anything and the disk takes the structure
file, and says last how many files there are. -/
structure Reported (settings : Settings) (disk : Disk) (found : Structure) (left : Site) :
    Prop where
  untouched : found = [] → left.disk = disk
  saved : found ≠ [] → ∀ changed,
    disk.write? settings.structureFile (Text.Utf8.encode found.text.toList) = .ok changed →
      left.disk = changed ∧ ∃ heard, left.said = heard ++ [s!"Analyzed {found.length} files."]
  refused : ∀ error,
    disk.write? settings.structureFile (Text.Utf8.encode found.text.toList) = .error error →
      left.disk = disk

variable {settings : Settings}

theorem reported_nil {left : Site} (h : left.disk = disk) : Reported settings disk [] left where
  untouched := fun _ => h
  saved := fun hfound => absurd rfl hfound
  refused := fun _ _ => h

theorem save_reports (hnull : settings.structureFile.toList.any (·.toNat == 0) = false)
    {found : Structure} (hfound : found ≠ []) {E : Fault → Site → Prop} :
    Brings (·.disk = disk) (save settings found) (fun _ => Reported settings disk found) E := by
  apply Brings.attempt_bind
    (M := fun _ site =>
      disk.write? settings.structureFile (Text.Utf8.encode found.text.toList) = .ok site.disk)
    (F := fun fault site => site.disk = disk ∧ fault.isOrdinary = true ∧ ∃ error,
      disk.write? settings.structureFile (Text.Utf8.encode found.text.toList) = .error error)
  · apply Brings.intro
    rintro site rfl
    rw [writeText_apply hnull]
    cases site.disk.write? settings.structureFile (Text.Utf8.encode found.text.toList) with
    | ok changed => rfl
    | error error => exact ⟨rfl, rfl, error, rfl⟩
  · intro _
    apply Brings.intro
    intro site hwrite
    refine ⟨fun hnil => absurd hnil hfound, fun _ changed hchanged => ?_, fun error herror => ?_⟩
    · rw [hwrite] at hchanged
      exact ⟨Except.ok.inj hchanged, _, rfl⟩
    · rw [hwrite] at herror
      exact absurd herror (by simp)
  · intro fault _
    apply Brings.intro
    rintro site ⟨hdisk, -, error, hwrite⟩
    refine ⟨fun hnil => absurd hnil hfound, fun _ changed hchanged => ?_, fun _ _ => hdisk⟩
    rw [hwrite] at hchanged
    exact absurd hchanged (by simp)
  · rintro fault site hfault ⟨-, hordinary, -⟩
    exact absurd hordinary (by simp [hfault])

/-- A run whose grammar is loaded reports on all source files, unless it is interrupted or the
walk breaks off. In any other case it leaves the disk as it was. -/
theorem run_reports (hsource : settings.sourceFolder.toList.any (·.toNat == 0) = false)
    (hnull : settings.structureFile.toList.any (·.toNat == 0) = false) :
    let walk := start.disk.walk start.limits.levels settings.sourceFolder
    let paths := start.disk.filePaths start.limits.levels settings.selects settings.sourceFolder
    Brings (Before start) (run settings)
      (fun _ left => ¬ Loads start ∧ left.disk = start.disk ∨
        walk.complete = true ∧ Reported settings start.disk
          (listed settings start.disk start.services.parser paths) left)
      fun fault left => left.disk = start.disk ∧ (¬ Loads start ∨
        Interrupts start.services.parser fault ∨ fault = .deepPath ∧ walk.complete = false) := by
  intro walk paths
  apply Brings.bind (say_before _)
  intro _
  apply Brings.attempt_bind loadGrammar_before
  · intro _
    apply Brings.assume
    intro _
    apply Brings.bind (say_before _)
    intro _
    apply Brings.hasItem_disk_bind hsource fun site h => h.disk_eq
    cases hitem : start.disk.hasItem settings.sourceFolder with
    | false =>
        -- without a source tree the walk is empty and complete, and so is the report
        have hwalk : walk = {} := walk_of_not_hasItem hitem start.limits.levels
        have hpaths : paths = [] := by
          unfold paths
          rw [filePaths, show start.disk.walk _ _ = _ from hwalk, List.flatMap_nil]
        rw [hwalk, hpaths]
        exact .intro fun site h => .inr ⟨rfl, reported_nil h.disk_eq⟩
    | true =>
        apply Brings.bind (say_before _)
        intro _
        apply Brings.bind ((survey_surveys settings start.limits.levels).imp
          (fun _ h => ⟨h.toAt, congrArg Limits.levels h.limits_eq⟩) (fun _ _ h => h)
          fun _ _ h => ⟨h.1, .inr h.2⟩)
        intro found
        apply Brings.assume
        intro hcomplete
        apply Brings.assume
        rintro rfl
        split
        · rename_i hempty
          rw [List.isEmpty_iff] at hempty
          unfold paths
          rw [hempty]
          exact .intro fun site h => .inr ⟨hcomplete, reported_nil h.disk_eq⟩
        · rename_i hempty
          rw [List.isEmpty_iff] at hempty
          exact (save_reports hnull hempty).imp (fun site h => h.disk_eq)
            (fun _ left h => .inr ⟨hcomplete, h⟩) fun _ _ h => h
  · exact fun _ _ => .intro fun site h => .inl h
  · exact fun _ site _ h => ⟨h.2, .inl h.1⟩

end Run

/-! ### What is in the structure file -/

theorem Settings.entry_lists (settings : Settings) (content? : Except Fault (List UInt8))
    (answer : Except Failure ParsedFile) {key : String}
    (hkey : key ∈ ["includes", "functions", "classes"]) :
    ∃ texts, fieldIn (settings.entry content? answer).toValue key = .ok (.texts texts) ∧
      texts.Pairwise fun a b => a.toList < b.toList := by
  have hempty : ∀ more, fieldIn (.obj (emptyLists ++ more)) key = .ok (.texts []) := by
    intro more
    simp only [List.mem_cons, List.not_mem_nil, or_false] at hkey
    rcases hkey with rfl | rfl | rfl
    · rfl
    · rfl
    · rfl
  cases hentry : settings.entry content? answer with
  | analysed findings =>
      obtain ⟨content, file, -, -, rfl⟩ := entry_eq_analysed hentry
      simp only [List.mem_cons, List.not_mem_nil, or_false] at hkey
      rcases hkey with rfl | rfl | rfl
      · exact ⟨_, rfl, Lookup.texts_inOrder ..⟩
      · exact ⟨_, rfl, Lookup.texts_inOrder ..⟩
      · exact ⟨_, rfl, Lookup.texts_inOrder ..⟩
  | blank => exact ⟨[], hempty [], List.Pairwise.nil⟩
  | failed error => exact ⟨[], hempty [("error", .str error)], List.Pairwise.nil⟩

theorem fieldOf?_of_mem {name : String} {value : Json.Value} {fields : List (String × Json.Value)}
    (hnodup : (fields.map (·.1)).Nodup) (hmem : (name, value) ∈ fields) :
    Json.fieldOf? name fields = some value := by
  induction fields with
  | nil => exact absurd hmem List.not_mem_nil
  | cons field rest ih =>
      obtain ⟨first, found⟩ := field
      rw [List.map_cons, List.nodup_cons] at hnodup
      rw [Json.fieldOf?]
      obtain hfirst | hrest := List.mem_cons.1 hmem
      · obtain ⟨rfl, rfl⟩ := Prod.mk.inj hfirst
        rw [if_pos rfl]
      · have hother : first ≠ name := by
          rintro rfl
          exact hnodup.1 (List.mem_map.2 ⟨_, hrest, rfl⟩)
        rw [if_neg hother]
        exact ih hnodup.2 hrest

abbrev sourcePaths (site : Site) : List String :=
  site.disk.filePaths site.limits.levels ({} : Settings).selects "./src"

/-- The entry of a file after some others, as it stands in the structure file. -/
abbrev entryAfter (site : Site) (earlier : List String) (path : String) : Entry :=
  ({} : Settings).entry (contentAt site.disk path)
    (site.services.parser.answer (earlier.countP (isParsed site.disk)))

/-- What a run leaves that saves the structure: a mapping that can be read back, with the
paths of the source files in the order of the walk. The entry of a file is made of its own
content and of the answer of the parser for it, and it has its three lists in order. The last
line said is the number of files. -/
structure Report (site left : Site) (files : List (String × Json.Value)) : Prop where
  saved : site.disk.write? "./repo_structure.json"
    (Text.Utf8.encode ((Json.Value.obj files).write 4).toList) = .ok left.disk
  readable : ∀ limits : Limits,
    Json.parse limits.nesting ((Json.Value.obj files).write 4) = .ok (.obj files)
  paths : files.map (·.1) = sourcePaths site
  nodup : (files.map (·.1)).Nodup
  entries : ∀ earlier path later, sourcePaths site = earlier ++ path :: later →
    Json.fieldOf? path files = some (entryAfter site earlier path).toValue
  lists : ∀ file ∈ files, ∀ key ∈ ["includes", "functions", "classes"],
    ∃ texts, fieldIn file.2 key = .ok (.texts texts) ∧
      texts.Pairwise fun a b => a.toList < b.toList
  counted : ∃ heard, left.said = heard ++ [s!"Analyzed {files.length} files."]

variable {site : Site}

theorem report_of_saved (hnamed : site.disk.Named) {left : Site} {found : Structure}
    (hfound : found = listed {} site.disk site.services.parser (sourcePaths site))
    (hsaved : site.disk.write? "./repo_structure.json" (Text.Utf8.encode found.text.toList) =
      .ok left.disk)
    (hcounted : ∃ heard, left.said = heard ++ [s!"Analyzed {found.length} files."]) :
    ∃ files, Report site left files := by
  have hnodup : (sourcePaths site).Nodup := nodup_filePaths hnamed _ _ isTopFolder_sources.leadsTo
  have hmapping : found.IsMapping := hfound ▸ listed_isMapping {} _ _ hnodup
  have hpaths : found.map (·.1) = sourcePaths site := hfound ▸ map_fst_listed {} _
  have hmem : ∀ path entry, (path, entry) ∈ found ↔ ∃ earlier later,
      sourcePaths site = earlier ++ path :: later ∧ entry = entryAfter site earlier path :=
    fun _ _ => hfound ▸ mem_listed_iff
  have hvalue : found.toValue = .obj (found.map fun file => (file.1, file.2.toValue)) := rfl
  have hkeys : (found.map fun file => (file.1, file.2.toValue)).map (·.1) = found.map (·.1) := by
    rw [List.map_map]
    rfl
  have hunique : ((found.map fun file => (file.1, file.2.toValue)).map (·.1)).Nodup := by
    rw [hkeys]
    exact hmapping.paths
  have hread := fun limits => Json.parse_write 4 (hmapping.textual limits)
  rw [Structure.text] at hsaved
  rw [hvalue] at hsaved hread
  refine ⟨_, hsaved, hread, hkeys.trans hpaths, hunique, ?_, ?_, ?_⟩
  · intro earlier path later hsplit
    have hentry := (hmem path _).2 ⟨earlier, later, hsplit, rfl⟩
    exact fieldOf?_of_mem hunique (List.mem_map.2 ⟨_, hentry, rfl⟩)
  · intro file hfile key hkey
    obtain ⟨⟨path, entry⟩, hentry, rfl⟩ := List.mem_map.1 hfile
    obtain ⟨earlier, later, -, rfl⟩ := (hmem path entry).1 hentry
    exact Settings.entry_lists {} _ _ hkey
  · rw [List.length_map]
    exact hcounted

/-- A run leaves the disk as it was or saves a report on all source files. -/
theorem run_saves_report (hnamed : site.disk.Named) :
    (after (run {}) site).disk = site.disk ∨ ∃ files, Report site (after (run {}) site) files := by
  have hrun : Brings (Before site) (run {}) _ _ := run_reports (by decide) (by decide)
  cases happly : run {} site with
  | error fault left =>
      rw [after_error happly]
      exact .inl (hrun.of_error (.refl site) happly).1
  | ok done left =>
      rw [after_ok happly]
      obtain ⟨-, hdisk⟩ | ⟨-, hreported⟩ := hrun.of_ok (.refl site) happly
      · exact .inl hdisk
      · generalize hfound : listed {} site.disk site.services.parser _ = found at hreported
        by_cases hnil : found = []
        · exact .inl (hreported.untouched hnil)
        · cases hwrite : site.disk.write? "./repo_structure.json"
              (Text.Utf8.encode found.text.toList) with
          | error error => exact .inl (hreported.refused error hwrite)
          | ok changed =>
              obtain ⟨rfl, hcounted⟩ := hreported.saved hnil changed hwrite
              exact .inr (report_of_saved hnamed hfound.symm hwrite hcounted)

section Calm

variable (hlanguage : site.services.language = .ok ())
  (hparser : site.services.parserLoad = .ok ())
  (hcalm : ∀ fault, ¬ Interrupts site.services.parser fault)

include hlanguage hparser hcalm

theorem run_of_loaded :
    (∃ left, run {} site = .ok () left ∧
      (site.disk.walk site.limits.levels "./src").complete = true ∧
      Reported {} site.disk
        (listed {} site.disk site.services.parser (sourcePaths site)) left) ∨
    ∃ left, run {} site = .error .deepPath left ∧
      (site.disk.walk site.limits.levels "./src").complete = false ∧
      left.disk = site.disk := by
  have hrun : Brings (Before site) (run {}) _ _ := run_reports (by decide) (by decide)
  cases happly : run {} site with
  | error fault left =>
      obtain ⟨hdisk, hloaded | hinterrupts | ⟨rfl, hbroken⟩⟩ := hrun.of_error (.refl site) happly
      · exact absurd ⟨hlanguage, hparser⟩ hloaded
      · exact absurd hinterrupts (hcalm fault)
      · exact .inr ⟨left, rfl, hbroken, hdisk⟩
  | ok done left =>
      obtain ⟨hloaded, -⟩ | ⟨hdone, hreported⟩ := hrun.of_ok (.refl site) happly
      · exact absurd ⟨hlanguage, hparser⟩ hloaded
      · exact .inl ⟨left, rfl, hdone, hreported⟩

theorem run_of_not_complete
    (hcomplete : (site.disk.walk site.limits.levels "./src").complete = false) :
    ∃ left, run {} site = .error .deepPath left ∧ left.disk = site.disk := by
  obtain ⟨left, -, hdone, -⟩ | ⟨left, happly, -, hdisk⟩ := run_of_loaded hlanguage hparser hcalm
  · exact absurd (hdone.symm.trans hcomplete) (by simp)
  · exact ⟨left, happly, hdisk⟩

theorem run_of_complete (hcomplete : (site.disk.walk site.limits.levels "./src").complete = true) :
    ∃ left, run {} site = .ok () left ∧ Reported {} site.disk
      (listed {} site.disk site.services.parser (sourcePaths site)) left := by
  obtain ⟨left, happly, -, hreported⟩ | ⟨left, -, hbroken, -⟩ :=
    run_of_loaded hlanguage hparser hcalm
  · exact ⟨left, happly, hreported⟩
  · exact absurd (hcomplete.symm.trans hbroken) (by simp)

theorem exists_report (hnamed : site.disk.Named)
    (hwritable : ∀ content, ∃ changed,
      site.disk.write? "./repo_structure.json" content = .ok changed)
    (hcomplete : (site.disk.walk site.limits.levels "./src").complete = true)
    (hsome : sourcePaths site ≠ []) :
    ∃ files, Report site (after (run {}) site) files := by
  obtain ⟨left, happly, hreported⟩ := run_of_complete hlanguage hparser hcalm hcomplete
  obtain ⟨changed, hwrite⟩ := hwritable _
  obtain ⟨rfl, hcounted⟩ := hreported.saved (mt listed_eq_nil_iff.1 hsome) changed hwrite
  rw [after_ok happly]
  exact report_of_saved hnamed rfl hwrite hcounted

/-- A survey whose grammar is loaded, whose parser does not interrupt it and whose structure
file can be written reports on every source file, unless there is none. Only a tree that goes
down further than a walk does stops it, and then nothing is saved. -/
theorem survey_reports_every_source_file (hnamed : site.disk.Named)
    (hwritable : ∀ content, ∃ changed,
      site.disk.write? "./repo_structure.json" content = .ok changed) :
    let left := after (run {}) site
    (site.disk.Plain → ((site.disk.walk site.limits.levels "./src").complete = true ↔
      ¬ site.disk.GoesBeyond site.limits.levels "./src" ["src"])) ∧
    ((site.disk.walk site.limits.levels "./src").complete = false →
      result (run {}) site = .error .deepPath ∧ left.disk = site.disk) ∧
    ((site.disk.walk site.limits.levels "./src").complete = true →
      result (run {}) site = .ok () ∧
      (sourcePaths site = [] → left.disk = site.disk) ∧
      (sourcePaths site ≠ [] → ∃ files, Report site left files)) := by
  intro left
  refine ⟨fun hplain => complete_walk_iff hplain isTopFolder_sources.leadsTo, fun hcomplete => ?_,
    fun hcomplete => ?_⟩
  · obtain ⟨last, happly, hdisk⟩ := run_of_not_complete hlanguage hparser hcalm hcomplete
    have hleft : left = last := after_error happly
    exact ⟨result_error happly, hleft ▸ hdisk⟩
  · obtain ⟨last, happly, hreported⟩ := run_of_complete hlanguage hparser hcalm hcomplete
    have hleft : left = last := after_ok happly
    refine ⟨result_ok happly, fun hnone => ?_, fun hsome => ?_⟩
    · exact hleft ▸ hreported.untouched (listed_eq_nil_iff.2 hnone)
    · exact exists_report hlanguage hparser hcalm hnamed hwritable hcomplete hsome

end Calm

/-! ### Some sites -/

def isCalm : Except Failure ParsedFile → Bool
  | .ok file => file.answers.all fun entry => !Feed.isInterruption entry.2
  | .error failure => (Fault.service failure).isOrdinary

theorem not_interrupts {feed : Feed ParsedFile}
    (h : (feed.after :: feed.next).all isCalm = true) (fault : Fault) :
    ¬ Interrupts feed fault := by
  rintro ⟨n, ⟨kind, message, hanswer, -⟩ | ⟨file, hanswer, hfile⟩⟩
  · have hcalm := List.all_eq_true.1 h _ (feed.answer_mem n)
    rw [hanswer] at hcalm
    exact absurd hcalm (by simp [isCalm, Fault.isOrdinary])
  · have hcalm := List.all_eq_true.1 h _ (feed.answer_mem n)
    rw [hanswer] at hcalm
    exact not_fileInterrupts hcalm fault hfile

def sourceSite (sources : Entries) (answers : List (Except Failure ParsedFile)) : Site where
  disk := ⟨[("src", .folder sources)]⟩
  services := { Services.failing with parser := ⟨answers, .ok {}⟩ }
  limits := .ample

section SourceSite

variable {sources : Entries} (answers : List (Except Failure ParsedFile))

theorem plain_sourceSite (h : isPlainEntries sources = true) :
    (sourceSite sources answers).disk.Plain := by
  have hname : isName "src" = true := by decide
  apply plain_of_isPlain
  simp [sourceSite, isPlainEntries, isPlainTree, hname, h]

theorem writable_sourceSite (h : isPlainEntries sources = true) (content : List UInt8) :
    ∃ changed, (sourceSite sources answers).disk.write? "./repo_structure.json" content =
      .ok changed := by
  have hroom : (sourceSite sources answers).disk.HasRoom ["repo_structure.json"] :=
    hasRoom_top (by decide) rfl
  exact ⟨_, (write?_eq_ok_iff (plain_sourceSite answers h) leadsTo_structure content _).2
    ⟨by decide, hroom.1, rfl⟩⟩

end SourceSite

/-- A file that is analysed, a blank one and one that the parser fails for, in an inner
folder. A file and a folder are locked. -/
def mixedSite : Site :=
  sourceSite
    [("a.h", .file [120]), ("b.h", .file [32]), ("c", .folder [("d.cpp", .file [121])]),
      ("k.h", .locked false), ("l", .locked true)]
    [.ok {}, .error (.raised "ValueError" "m")]

/-- The failures of the last two files are in their entries, and the others are as they would
be. -/
theorem survey_reports_every_source_file_mixed :
    isPlainEntries mixedSite.disk.entries = true ∧
      mixedSite.services.language = .ok () ∧ mixedSite.services.parserLoad = .ok () ∧
      (∀ fault, ¬ Interrupts mixedSite.services.parser fault) ∧
      (∀ content, ∃ changed,
        mixedSite.disk.write? "./repo_structure.json" content = .ok changed) ∧
      (mixedSite.disk.walk mixedSite.limits.levels "./src").complete = true ∧
      result (run {}) mixedSite = .ok () ∧
      ∃ files, Report mixedSite (after (run {}) mixedSite) files ∧
        files.map (·.1) = ["./src/a.h", "./src/b.h", "./src/k.h", "./src/c/d.cpp"] ∧
        Json.fieldOf? "./src/a.h" files = some (.obj emptyLists) ∧
        Json.fieldOf? "./src/k.h" files = some (.obj (emptyLists ++
          [("error", .str "[Errno 13] Permission denied: './src/k.h'")])) ∧
        Json.fieldOf? "./src/c/d.cpp" files =
          some (.obj (emptyLists ++ [("error", .str "m")])) := by
  have hplain : isPlainEntries mixedSite.disk.entries = true := by decide +kernel
  have hcalm : ∀ fault, ¬ Interrupts mixedSite.services.parser fault :=
    not_interrupts (by decide +kernel)
  have hwritable : ∀ content, ∃ changed,
      mixedSite.disk.write? "./repo_structure.json" content = .ok changed :=
    writable_sourceSite _ (by decide +kernel)
  have hcomplete : (mixedSite.disk.walk mixedSite.limits.levels "./src").complete = true := by
    decide +kernel
  have hpaths : sourcePaths mixedSite =
      ["./src/a.h", "./src/b.h", "./src/k.h", "./src/c/d.cpp"] := by
    decide +kernel
  obtain ⟨hresult, -, hreport⟩ := (survey_reports_every_source_file rfl rfl hcalm
    (plain_of_isPlain hplain).named hwritable).2.2 hcomplete
  obtain ⟨files, hfiles⟩ := hreport (by simp [hpaths])
  refine ⟨hplain, rfl, rfl, hcalm, hwritable, hcomplete, hresult, files, hfiles,
    hfiles.paths.trans hpaths, ?_, ?_, ?_⟩
  · rw [hfiles.entries [] _ _ hpaths]
    decide +kernel
  · rw [hfiles.entries ["./src/a.h", "./src/b.h"] _ _ hpaths]
    decide +kernel
  · rw [hfiles.entries ["./src/a.h", "./src/b.h", "./src/k.h"] _ _ hpaths]
    decide +kernel

/-- A site whose sources go down one level more than a walk may go. -/
def deepSourceSite (limit : Nat) : Site :=
  { sourceSite [("a", nested limit), ("a.h", .file [120])] [] with
    limits := { Limits.ample with levels := some limit } }

/-- Whatever limit there is to a walk, in a tree that goes beyond it the survey comes to a
source file and still saves nothing. -/
theorem run_deepSourceSite {limit : Nat} (hlimit : limit < 2000) :
    let site := deepSourceSite limit
    site.disk.Plain ∧
      site.services.language = .ok () ∧ site.services.parserLoad = .ok () ∧
      (∀ fault, ¬ Interrupts site.services.parser fault) ∧
      (∀ content, ∃ changed, site.disk.write? "./repo_structure.json" content = .ok changed) ∧
      "./src/a.h" ∈ sourcePaths site ∧
      result (run {}) site = .error .deepPath ∧
      (after (run {}) site).disk.get? ["repo_structure.json"] = none := by
  intro site
  have hentries : isPlainEntries [("a", nested limit), ("a.h", .file [120])] = true := by
    have hnames : isName "a" = true ∧ isName "a.h" = true := by decide
    simp [isPlainEntries, isPlainTree_nested, isPlainTree, hnames]
  have hplain : site.disk.Plain := plain_sourceSite [] hentries
  have hcalm : ∀ fault, ¬ Interrupts site.services.parser fault := not_interrupts rfl
  have hpath : Path.join "./src" "a" = "./src/a" := by decide
  have hinner : Path.LeadsTo (Path.join "./src" "a") (["src"] ++ ["a"]) := by
    rw [hpath]
    exact ⟨by decide, by simp [Path.IsStep]⟩
  have hshort : (Path.join "./src" "a").utf8ByteSize + 2 * limit < pathLimit := by
    have hsize : ("./src/a" : String).utf8ByteSize = 7 := by decide
    rw [hpath, hsize, pathLimit]
    omega
  have hdown : site.disk.GoesDown (limit + 1) "./src" ["src"] :=
    goesDown_succ.2 ⟨by decide, "a", goesDown_nested hinner rfl hshort⟩
  have hcomplete : (site.disk.walk site.limits.levels "./src").complete = false := by
    rw [← Bool.not_eq_true, complete_walk_iff hplain isTopFolder_sources.leadsTo,
      Classical.not_not]
    exact ⟨limit, rfl, hdown⟩
  have hfile : "a.h" ∈ (site.disk.fileNames ⟨"./src", ["src"]⟩).filter ({} : Settings).selects := by
    have hget : site.disk.get? (["src"] ++ ["a.h"]) = some (.file [120]) := rfl
    refine List.mem_filter.2 ⟨List.mem_filter.2 ⟨mem_names_iff.2 ?_, rfl⟩, by decide⟩
    rw [hget]
    simp
  obtain ⟨left, happly, hdisk⟩ := run_of_not_complete rfl rfl hcalm hcomplete
  refine ⟨hplain, rfl, rfl, hcalm, writable_sourceSite [] hentries, ?_, result_error happly, ?_⟩
  · refine List.mem_flatMap.2 ⟨⟨"./src", ["src"]⟩, mem_walk_top _ ?_, List.mem_map.2 ⟨_, hfile, rfl⟩⟩
    rw [folder?_eq hplain isTopFolder_sources.leadsTo, if_pos ⟨by decide, hdown.folder⟩]
  · rw [after_error happly, hdisk]
    rfl

theorem survey_raises_on_deep_tree :
    let site := deepSourceSite 990
    site.disk.Plain ∧
      site.services.language = .ok () ∧ site.services.parserLoad = .ok () ∧
      (∀ fault, ¬ Interrupts site.services.parser fault) ∧
      (∀ content, ∃ changed, site.disk.write? "./repo_structure.json" content = .ok changed) ∧
      "./src/a.h" ∈ sourcePaths site ∧
      result (run {}) site = .error .deepPath ∧
      (after (run {}) site).disk.get? ["repo_structure.json"] = none :=
  run_deepSourceSite (by decide)

/-! ### What an entry tells -/

/-- What the value of an entry tells of a file with that content, if it was read, and that
answer of the parser. An error is that of reading or of parsing the file, and a blank file has
the entry of one in which nothing was found. -/
structure Tells (content? : Except Fault (List UInt8)) (answer : Except Failure ParsedFile)
    (value : Json.Value) : Prop where
  error_iff : (∃ text, fieldIn value "error" = .ok text) ↔
    (∃ fault, content? = .error fault) ∨ ∃ content failure,
      content? = .ok content ∧ content.all isBlankByte = false ∧ answer = .error failure
  unread : ∀ fault, content? = .error fault → fieldIn value "error" = .ok (.str fault.message)
  unparsed : ∀ content failure, content? = .ok content → content.all isBlankByte = false →
    answer = .error failure → fieldIn value "error" = .ok (.str failure.message)
  blank : ∀ content, content? = .ok content → content.all isBlankByte = true →
    value = (Entry.analysed [("includes", []), ("functions", []), ("classes", [])]).toValue

theorem Settings.entry_tells (settings : Settings) (content? : Except Fault (List UInt8))
    (answer : Except Failure ParsedFile) :
    Tells content? answer (settings.entry content? answer).toValue := by
  cases content? with
  | error fault =>
      refine ⟨⟨fun _ => .inl ⟨fault, rfl⟩, fun _ => ⟨_, rfl⟩⟩, ?_, by simp, by simp⟩
      intro other hother
      rw [Except.error.inj hother]
      rfl
  | ok content =>
      cases hblank : content.all isBlankByte with
      | true =>
          have hentry : settings.entry (.ok content) answer = .blank := if_pos hblank
          have hunmarked : fieldIn Entry.blank.toValue "error" = .error (.noField "error") := rfl
          rw [hentry]
          refine ⟨by simp [hunmarked, hblank, -List.all_eq_false], by simp, ?_, fun _ _ _ => rfl⟩
          intro other failure hother hfull
          rw [← Except.ok.inj hother, hblank] at hfull
          exact absurd hfull (by simp)
      | false =>
          have hentry : settings.entry (.ok content) answer = match answer with
              | .ok file => .analysed (settings.findings content file)
              | .error failure => .failed failure.message := if_neg (by simp [hblank])
          rw [hentry]
          cases answer with
          | ok file =>
              have hunmarked : fieldIn (Entry.analysed (settings.findings content file)).toValue
                  "error" = .error (.noField "error") := rfl
              exact ⟨by simp [hunmarked], by simp, by simp, by simp [hblank, -List.all_eq_true]⟩
          | error failure =>
              have hmarked : fieldIn (Entry.failed failure.message).toValue "error" =
                  .ok (.str failure.message) := rfl
              refine ⟨by simp [hmarked, hblank, -List.all_eq_false], by simp, ?_,
                by simp [hblank, -List.all_eq_true]⟩
              intro _ other _ _ hother
              rw [← Except.error.inj hother]
              exact hmarked

/-- In every structure that a run saves, an entry has an error exactly if its file could not be
read or not be parsed. That a file is blank, and was not analysed for that reason, does not
show. -/
theorem entries_tell_failures (hnamed : site.disk.Named) :
    let left := after (run {}) site
    left.disk = site.disk ∨ ∃ files, Report site left files ∧
      ∀ earlier path later, sourcePaths site = earlier ++ path :: later →
        ∃ value, Json.fieldOf? path files = some value ∧ Tells (contentAt site.disk path)
          (site.services.parser.answer (earlier.countP (isParsed site.disk))) value := by
  intro left
  obtain hdisk | ⟨files, hreport⟩ := run_saves_report hnamed
  · exact .inl hdisk
  · refine .inr ⟨files, hreport, fun earlier path later hsplit => ?_⟩
    exact ⟨_, hreport.entries earlier path later hsplit, Settings.entry_tells {} _ _⟩

def linkedSite : Site :=
  { mixedSite with disk := mixedSite.disk.insert ["src", "e.h"] (.link "nowhere") }

/-- The files that could not be read or parsed have their errors, in either folder. -/
theorem entries_tell_failures_linked :
    linkedSite.disk.Named ∧
      ∃ files, Report linkedSite (after (run {}) linkedSite) files ∧
        ∃ unread unparsed, Json.fieldOf? "./src/e.h" files = some unread ∧
          fieldIn unread "error" =
            .ok (.str "[Errno 2] No such file or directory: './src/e.h'") ∧
          Json.fieldOf? "./src/c/d.cpp" files = some unparsed ∧
          fieldIn unparsed "error" = .ok (.str "m") := by
  have hplain : mixedSite.disk.Plain := plain_sourceSite _ (by decide +kernel)
  have hnamed : linkedSite.disk.Named := by
    refine Named.insert hplain.named ⟨["src"], "e.h", rfl, rfl, ?_, by decide⟩ ?_ _
    · have hnone : mixedSite.disk.get? ["src", "e.h"] = none := by decide +kernel
      simp [hnone]
    · have hnames : ∀ name ∈ ["src", "e.h"], isName name = true := by decide
      exact fun name hname => isName_iff.1 (hnames name hname)
  have hpaths : sourcePaths linkedSite =
      ["./src/a.h", "./src/b.h", "./src/e.h", "./src/k.h", "./src/c/d.cpp"] := by decide +kernel
  have hwritten : (after (run {}) linkedSite).disk.get? ["repo_structure.json"] ≠
      linkedSite.disk.get? ["repo_structure.json"] := by decide +kernel
  obtain hsame | ⟨files, hreport, htells⟩ := entries_tell_failures hnamed
  · exact absurd (congrArg (·.get? ["repo_structure.json"]) hsame) hwritten
  · obtain ⟨unread, hunread, htold⟩ := htells ["./src/a.h", "./src/b.h"] _ _ hpaths
    obtain ⟨unparsed, hunparsed, htold'⟩ :=
      htells ["./src/a.h", "./src/b.h", "./src/e.h", "./src/k.h"] _ _ hpaths
    have hread : contentAt linkedSite.disk "./src/e.h" = .error (.disk .missing "./src/e.h") := by
      decide +kernel
    refine ⟨hnamed, files, hreport, unread, unparsed, hunread, ?_, hunparsed, ?_⟩
    · rw [htold.unread _ hread]
      decide +kernel
    · exact htold'.unparsed [121] _ (by decide +kernel) (by decide) rfl

/-- A blank file has the entry of a file in which nothing was found, without an error. -/
theorem blank_file_is_not_told :
    let site := sourceSite [("a.h", .file [32]), ("b.h", .file [120])] []
    ∃ files, Report site (after (run {}) site) files ∧
      Json.fieldOf? "./src/a.h" files = Json.fieldOf? "./src/b.h" files ∧
      ∃ value, Json.fieldOf? "./src/a.h" files = some value ∧
        fieldIn value "error" = .error (.noField "error") := by
  intro site
  have hentries : isPlainEntries [("a.h", .file [32]), ("b.h", .file [120])] = true := by
    decide +kernel
  have hcomplete : (site.disk.walk site.limits.levels "./src").complete = true := by decide +kernel
  have hpaths : sourcePaths site = ["./src/a.h", "./src/b.h"] := by decide +kernel
  have hsome : sourcePaths site ≠ [] := by simp [hpaths]
  obtain ⟨files, hreport⟩ := exists_report rfl rfl (not_interrupts (by decide))
    (plain_sourceSite _ hentries).named (writable_sourceSite _ hentries) hcomplete hsome
  refine ⟨files, hreport, ?_, _, hreport.entries [] _ _ hpaths, ?_⟩
  · rw [hreport.entries [] _ _ hpaths, hreport.entries ["./src/a.h"] _ _ hpaths]
    decide +kernel
  · decide +kernel

end Docwright.Survey
