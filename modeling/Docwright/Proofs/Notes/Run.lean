import Docwright.Proofs.Notes.Turns

/-!
# A run that takes notes

A run makes a folder for the notes and loads the index. Then it goes through the source
files of the folders that a walk finds, which are the same at every turn as at the start, so
the run is the course of their turns (`run_eq_turns`). It reports the number of files that
it took notes on, unless a turn or the walk breaks it off.
-/

namespace Docwright.Notes

open Docwright.Disk
open Docwright.Job
open Docwright.Path

def processedLine (count : Nat) : String :=
  s!"\\nAnnotation process completed. Processed {count} new files."

/-- How the turns of a run end, with the walk over the sources. -/
def outcome (settings : Settings) (site : Site) (turns : List Turn) : Except Fault Nat := do
  let count ← counted settings 0 turns
  if (site.disk.walk site.limits.levels settings.sourceFolder).complete then return count
  else throw .deepPath

/-- Turns end with a fault if one of them does, or if none does and the walk breaks off. -/
theorem outcome_eq_error_iff {settings : Settings} {site start : Site} {sources : List Source}
    {fault : Fault} :
    outcome settings site (course settings start sources) = .error fault ↔
      (∃ turn ∈ course settings start sources, turn.ended settings = .error fault) ∨
      (∀ turn ∈ course settings start sources, ∀ other, turn.ended settings ≠ .error other) ∧
        (site.disk.walk site.limits.levels settings.sourceFolder).complete = false ∧
        fault = .deepPath := by
  rw [outcome]
  cases hcounted : counted settings 0 (course settings start sources) with
  | error other =>
      obtain ⟨turn, hturn, hended⟩ := counted_course_eq_error_iff.1 hcounted
      constructor
      · intro h
        obtain rfl : other = fault := Except.error.inj h
        exact .inl ⟨turn, hturn, hended⟩
      · rintro (hbroken | ⟨hnone, -⟩)
        · exact congrArg Except.error (Except.error.inj
            (hcounted.symm.trans (counted_course_eq_error_iff.2 hbroken)))
        · exact absurd hended (hnone turn hturn other)
  | ok count =>
      have hnone : ∀ turn ∈ course settings start sources, ∀ other,
          turn.ended settings ≠ .error other := by
        intro turn hturn other hended
        have herror : counted settings 0 (course settings start sources) = .error other :=
          counted_course_eq_error_iff.2 ⟨turn, hturn, hended⟩
        exact absurd (hcounted.symm.trans herror) (by simp)
      cases (site.disk.walk site.limits.levels settings.sourceFolder).complete with
      | true =>
          refine ⟨fun h => absurd h (by simp [bind, Except.bind, pure, Except.pure]), ?_⟩
          rintro (⟨turn, hturn, hended⟩ | ⟨-, hbroken, -⟩)
          · exact absurd hended (hnone turn hturn fault)
          · exact absurd hbroken (by simp)
      | false =>
          constructor
          · exact fun h => .inr ⟨hnone, rfl, (Except.error.inj h).symm⟩
          · rintro (⟨turn, hturn, hended⟩ | ⟨-, -, rfl⟩)
            · exact absurd hended (hnone turn hturn fault)
            · rfl

theorem outcome_eq_ok {settings : Settings} {site start : Site} {sources : List Source}
    {count : Nat} (h : outcome settings site (course settings start sources) = .ok count) :
    count = tally settings (course settings start sources) := by
  have hok : ∀ turn ∈ course settings start sources, ∀ fault,
      turn.ended settings ≠ .error fault := by
    intro turn hturn fault hended
    have herror : outcome settings site _ = .error fault :=
      outcome_eq_error_iff.2 (.inl ⟨turn, hturn, hended⟩)
    exact absurd (h.symm.trans herror) (by simp)
  rw [outcome, counted_of_ok 0 hok, Nat.zero_add] at h
  change (if _ then _ else _) = _ at h
  split at h
  · exact (Except.ok.inj h).symm
  · exact absurd h (by simp [throw, throwThe, MonadExceptOf.throw])

/-- The first part of a run: a folder for the notes is made and the index loaded. It tells
whether notes can be taken. -/
def setUp (settings : Settings) : Job Bool := do
  if !(← hasItem settings.sourceFolder) then
    say s!"Source directory '{settings.sourceFolder}' not found."
    return false
  else if !(← prepare settings) then
    return false
  else if !(← hasItem settings.indexFolder) then
    say <| s!"RAG index directory '{settings.indexFolder}' not found. " ++
      "Please run build_rag_index.py first."
    return false
  else
    say "Loading RAG index..."
    match ← attempt (loadIndex settings) with
    | .error fault =>
        say s!"Failed to load RAG index: {fault.message}"
        return false
    | .ok () =>
        say "RAG index loaded successfully."
        return true

theorem run_eq (settings : Settings) :
    run settings = setUp settings >>= fun ready =>
      if ready then annotateAll settings else pure () := by
  have hstop : ∀ line, (do say line; return false) >>= (fun ready =>
      if ready then annotateAll settings else pure ()) = say line := by
    intro line
    rw [bind_assoc]
    exact bind_pure_unit
  unfold run setUp
  rw [bind_assoc]
  refine congrArg _ (funext fun found => ?_)
  cases found with
  | false => exact (hstop _).symm
  | true =>
      rw [if_neg (by decide), if_neg (by decide), bind_assoc]
      refine congrArg _ (funext fun prepared => ?_)
      cases prepared with
      | false => rfl
      | true =>
          rw [if_neg (by decide), if_neg (by decide), bind_assoc]
          refine congrArg _ (funext fun found => ?_)
          cases found with
          | false => exact (hstop _).symm
          | true =>
              rw [if_neg (by decide), if_neg (by decide), bind_assoc]
              refine congrArg _ (funext fun _ => ?_)
              rw [bind_assoc]
              refine congrArg _ (funext fun result => ?_)
              cases result with
              | error fault => exact (hstop _).symm
              | ok done =>
                  rw [bind_assoc]
                  rfl

theorem isTopFolder_index : IsTopFolder "./rag_index" "rag_index" :=
  ⟨by decide, isName_iff.1 (by decide)⟩

variable {settings : Settings} (husual : settings.IsUsual) {site : Site}

include husual

theorem prepare_ends (hplain : site.disk.Plain) (said : List String) :
    Ends (prepare settings) (saying site said) (.ok true)
      { site with disk := site.disk.withFolder "file_notes" } := by
  have hitem : hasItem "./file_notes" (saying site said) = _ :=
    isTopFolder_notes.hasItem_eq hplain
  unfold prepare
  rw [husual.notesFolder]
  refine Ends.bind (.intro hitem) fun heard => ?_
  cases hthere : site.disk.get? ["file_notes"] with
  | some item =>
      have hsame : site.disk.withFolder "file_notes" = site.disk := by
        simp [withFolder, hthere]
      rw [hsame]
      exact .pure
  | none =>
      have hmade : Ends (makeFolders "./file_notes") (saying (saying site said) heard) (.ok ()) _ :=
        isTopFolder_notes.makeFolders_ends hplain hthere
      refine Ends.bind (hmade.attempt (by simp)) fun said => ?_
      exact Ends.bind (.say _) fun said => .pure

theorem visits_apply {start : Site} (hstart : start.disk.Plain) {folders : List Folder}
    (hfolders : ∀ folder ∈ folders, folder.IsBelow ["src"]) (count : Nat)
    (hsite : Follows start site) :
    folders.foldlM (visit settings) count site =
      (folders.flatMap (sourcesIn settings start.disk)).foldlM (countTurn settings) count site := by
  induction folders generalizing count site with
  | nil => rfl
  | cons folder rest ih =>
      obtain ⟨hfolder, hrest⟩ := List.forall_mem_cons.1 hfolders
      have hfiles : sourcesIn settings site.disk folder = sourcesIn settings start.disk folder :=
        sourcesIn_eq hsite.sources hsite.ready.plain hfolder
      have hproper : ∀ source ∈ sourcesIn settings start.disk folder, source.IsProper :=
        fun source hsource => isProper_of_mem_sourcesIn hstart hfolder hsource
      have hleft := hsite.trans (follows_course husual.notesFolder hsite.ready hproper).2
      rw [List.foldlM_cons, bind_apply, visit_apply, hfiles, List.flatMap_cons, List.foldlM_append,
        bind_apply, foldlM_countTurn_apply]
      cases counted settings count (course settings site (sourcesIn settings start.disk folder)) with
      | ok count => exact ih hrest count hleft
      | error fault => rfl

/-- Taking notes on the whole tree is going through the course of its source files. -/
theorem annotateAll_apply (hready : Ready site) :
    let turns := course settings site (sources settings site)
    annotateAll settings site =
      (ofResult (outcome settings site turns) >>= fun count => say (processedLine count))
        (reached settings site turns) := by
  intro turns
  have hfolders : ∀ folder ∈ (site.disk.walk site.limits.levels settings.sourceFolder).folders,
      folder.IsBelow ["src"] := by
    rw [husual.sourceFolder]
    exact fun folder hfolder =>
      isBelow_of_mem_walk hready.plain isTopFolder_sources.leadsTo hfolder
  have hvisits := visits_apply husual hready.plain hfolders 0 ⟨hready, rfl, rfl⟩
  have hloop := hvisits.trans (foldlM_countTurn_apply settings 0 site (sources settings site))
  have hwalk : visitFolders settings.sourceFolder (visit settings) 0 site =
      ofResult (outcome settings site turns) (reached settings site turns) := by
    change ((site.disk.walk site.limits.levels settings.sourceFolder).folders.foldlM
      (visit settings) 0 >>= fun count =>
        if (site.disk.walk site.limits.levels settings.sourceFolder).complete then pure count
        else throw .deepPath) site = _
    rw [bind_apply, hloop, outcome]
    cases counted settings 0 turns with
    | error fault => rfl
    | ok count =>
        cases (site.disk.walk site.limits.levels settings.sourceFolder).complete with
        | true => rfl
        | false => rfl
  rw [annotateAll, bind_apply, hwalk, bind_apply]
  rfl

def prepared (site : Site) : Site :=
  { site with
    disk := site.disk.withFolder "file_notes"
    asked := site.asked ++ [.loadIndex "./rag_index"] }

/-- The site at which the first source file has its turn. -/
def started (settings : Settings) (site : Site) : Site := after (setUp settings) site

section Loaded

variable (hplain : site.disk.Plain) (hsources : site.disk.get? ["src"] ≠ none)
  (hindex : site.disk.get? ["rag_index"] ≠ none) (hload : site.services.indexLoad = .ok ())

include hplain hsources hindex hload

theorem setUp_ends : Ends (setUp settings) site (.ok true) (prepared site) := by
  have hmade : (prepared site).disk.Plain := hplain.withFolder isTopFolder_notes.isName
  unfold setUp
  rw [husual.sourceFolder, husual.indexFolder]
  refine Ends.bind (.intro (isTopFolder_sources.hasItem_eq hplain)) fun said => ?_
  rw [Option.isSome_iff_ne_none.2 hsources]
  refine Ends.bind (prepare_ends husual hplain said) fun said => ?_
  have hitem : hasItem "./rag_index"
      (saying { site with disk := site.disk.withFolder "file_notes" } said) = _ :=
    isTopFolder_index.hasItem_eq hmade
  refine Ends.bind (.intro hitem) fun said => ?_
  have hthere : (site.disk.withFolder "file_notes").get? ["rag_index"] ≠ none := by
    rw [get?_withFolder (by decide)]
    simpa using hindex
  rw [Option.isSome_iff_ne_none.2 hthere]
  refine Ends.bind (.say _) fun said => ?_
  have hloaded : Ends (loadIndex settings)
      (saying { site with disk := site.disk.withFolder "file_notes" } said) (.ok ())
      (prepared site) := by
    have happly : loadIndex settings
        (saying { site with disk := site.disk.withFolder "file_notes" } said) =
          ofAnswer site.services.indexLoad (saying (prepared site) said) := by
      rw [loadIndex, husual.indexFolder]
      rfl
    have hanswer := Ends.answer happly
    rw [hload] at hanswer
    exact hanswer.respoken rfl
  refine Ends.bind (hloaded.attempt (by simp)) fun said => ?_
  exact Ends.bind (.say _) fun said => .pure

theorem spoken_started : Spoken (prepared site) (started settings site) :=
  (setUp_ends husual hplain hsources hindex hload).2

theorem run_apply : run settings site = annotateAll settings (started settings site) := by
  have hsetUp := apply_eq_ok (setUp_ends husual hplain hsources hindex hload).1
  rw [run_eq, bind_apply, hsetUp]
  rfl

theorem disk_started : (started settings site).disk = site.disk.withFolder "file_notes" :=
  (spoken_started husual hplain hsources hindex hload).part_eq Site.disk fun _ _ => rfl

theorem plain_started : (started settings site).disk.Plain := by
  rw [disk_started husual hplain hsources hindex hload]
  exact hplain.withFolder isTopFolder_notes.isName

theorem agreeBelow_started : AgreeBelow "src" (started settings site).disk site.disk := by
  rw [disk_started husual hplain hsources hindex hload]
  exact AgreeBelow.withFolder (by decide) site.disk

theorem limits_started : (started settings site).limits = site.limits :=
  (spoken_started husual hplain hsources hindex hload).part_eq Site.limits fun _ _ => rfl

theorem sources_started : sources settings (started settings site) = sources settings site :=
  sources_eq husual hplain (agreeBelow_started husual hplain hsources hindex hload)
    (plain_started husual hplain hsources hindex hload)
    (limits_started husual hplain hsources hindex hload)

theorem outcome_started (turns : List Turn) :
    outcome settings (started settings site) turns = outcome settings site turns := by
  have hwalk : (started settings site).disk.walk site.limits.levels "./src" = _ :=
    (agreeBelow_started husual hplain hsources hindex hload).walk_eq
      (plain_started husual hplain hsources hindex hload) hplain isTopFolder_sources.leadsTo
  rw [outcome, outcome, limits_started husual hplain hsources hindex hload, husual.sourceFolder,
    hwalk]

end Loaded

def turnsOf (settings : Settings) (site : Site) : List Turn :=
  course settings (started settings site) (sources settings site)

section Ready

variable (hready : Ready site) (hsources : site.disk.get? ["src"] ≠ none)
  (hindex : site.disk.get? ["rag_index"] ≠ none) (hload : site.services.indexLoad = .ok ())

include hready hsources hindex hload

theorem ready_started : Ready (started settings site) := by
  have hservices : (started settings site).services = site.services :=
    (spoken_started husual hready.plain hsources hindex hload).part_eq Site.services fun _ _ => rfl
  refine ⟨plain_started husual hready.plain hsources hindex hload, ?_, ?_⟩
  · rw [hservices]
    exact hready.writer
  · rw [hservices]
    exact hready.searches

theorem started_isProper :
    Ready (started settings site) ∧ ∀ source ∈ sources settings site, source.IsProper :=
  ⟨ready_started husual hready hsources hindex hload,
    fun _ => isProper_of_mem_sources husual hready.plain⟩

/-- A run is its turns, and the report on them if they and the walk over the sources come to
their end. -/
theorem run_eq_turns :
    run settings site =
      (ofResult (outcome settings site (turnsOf settings site)) >>= fun count =>
        say (processedLine count))
          (reached settings (started settings site) (turnsOf settings site)) := by
  have hall := annotateAll_apply husual (ready_started husual hready hsources hindex hload)
  rw [sources_started husual hready.plain hsources hindex hload] at hall
  dsimp only at hall
  rw [outcome_started husual hready.plain hsources hindex hload] at hall
  exact (run_apply husual hready.plain hsources hindex hload).trans hall

theorem run_ends :
    Ends (run settings) site ((outcome settings site (turnsOf settings site)).map fun _ => ())
      (reached settings (started settings site) (turnsOf settings site)) := by
  refine Ends.of_apply (run_eq_turns husual hready hsources hindex hload) ?_
  cases outcome settings site (turnsOf settings site) with
  | error fault => exact (Ends.throw fault).bind_fault
  | ok count => exact ⟨rfl, rfl⟩

theorem disk_run : (after (run settings) site).disk =
    (reached settings (started settings site) (turnsOf settings site)).disk :=
  (run_ends husual hready hsources hindex hload).2.part_eq Site.disk fun _ _ => rfl

/-- At every turn of a run notes can be taken on the file, and the sources are the same. -/
theorem follows_turnsOf :
    (∀ turn ∈ turnsOf settings site,
        turn.source.IsProper ∧ Follows (started settings site) turn.site) ∧
      Follows (started settings site)
        (reached settings (started settings site) (turnsOf settings site)) := by
  obtain ⟨hstart, hproper⟩ := started_isProper husual hready hsources hindex hload
  obtain ⟨hturns, hreached⟩ := follows_course husual.notesFolder hstart hproper
  refine ⟨fun turn hturn => ?_, hreached⟩
  obtain ⟨hsource, hfollows⟩ := hturns turn hturn
  exact ⟨hproper turn.source hsource, hfollows⟩

/-- A turn starts with the answers that the requests before it have left. -/
theorem services_of_turnsOf {before later : List Turn} {turn : Turn}
    (hsplit : turnsOf settings site = before ++ turn :: later) :
    turn.site.services =
      (before.flatMap (Turn.requests settings)).foldl Services.next site.services := by
  have hspoken := spoken_started husual hready.plain hsources hindex hload
  obtain ⟨hstart, hproper⟩ := started_isProper husual hready hsources hindex hload
  obtain ⟨done, rest, hfiles, hbefore, hsite, -⟩ := course_eq_append hsplit
  have hdone : ∀ source ∈ done, source.IsProper :=
    fun source hsource => hproper source (by simp [hfiles, hsource])
  have hservices := services_reached husual.notesFolder hstart hdone
  rw [hbefore, ← hsite, hspoken.part_eq Site.services fun _ _ => rfl] at hservices
  exact hservices

theorem ended_eq_error_iff_of_mem_turnsOf {turn : Turn} (hturn : turn ∈ turnsOf settings site)
    {fault : Fault} :
    turn.ended settings = .error fault ↔ (turn.exchange settings).Breaks fault := by
  obtain ⟨hproper, hfollows⟩ :=
    (follows_turnsOf husual hready hsources hindex hload).1 turn hturn
  exact turn.ended_eq_error_iff husual.notesFolder hfollows.ready hproper

/-- A run ends with a fault if one of its exchanges breaks it, or if none does and there are
sources further down than a walk may go. -/
theorem result_run_eq_error_iff {fault : Fault} :
    result (run settings) site = .error fault ↔
      (∃ turn ∈ turnsOf settings site, (turn.exchange settings).Breaks fault) ∨
      (∀ turn ∈ turnsOf settings site, ∀ other, ¬ (turn.exchange settings).Breaks other) ∧
        site.disk.GoesBeyond site.limits.levels "./src" ["src"] ∧ fault = .deepPath := by
  have hmap : ∀ r : Except Fault Nat, (r.map fun _ => ()) = .error fault ↔ r = .error fault := by
    intro r
    cases r with
    | ok count => simp [Except.map]
    | error other => simp [Except.map]
  have hbreaks : ∀ turn ∈ turnsOf settings site, ∀ fault,
      turn.ended settings = .error fault ↔ (turn.exchange settings).Breaks fault :=
    fun turn hturn fault =>
      ended_eq_error_iff_of_mem_turnsOf husual hready hsources hindex hload hturn
  have hwalk : (site.disk.walk site.limits.levels "./src").complete = false ↔
      site.disk.GoesBeyond site.limits.levels "./src" ["src"] := by
    rw [← Bool.not_eq_true, complete_walk_iff hready.plain isTopFolder_sources.leadsTo,
      Classical.not_not]
  rw [(run_ends husual hready hsources hindex hload).1, hmap, turnsOf, outcome_eq_error_iff,
    husual.sourceFolder, hwalk]
  refine or_congr (exists_congr fun turn => and_congr_right fun hturn => hbreaks turn hturn fault) ?_
  refine and_congr_left fun _ => forall₂_congr fun turn hturn => forall_congr' fun other => ?_
  exact not_congr (hbreaks turn hturn other)

/-- What the file of the notes is opened for in a turn is in it after the turn and at the end
of the run. -/
theorem get?_of_opened? {turn : Turn} (hturn : turn ∈ turnsOf settings site) {notes : Json.Value}
    (hopened : turn.opened? settings = some notes) :
    (turn.left settings).disk.get? turn.source.notesPlace = some (.file notes.content) ∧
      (after (run settings) site).disk.get? turn.source.notesPlace =
        some (.file notes.content) := by
  have hfolder := husual.notesFolder
  obtain ⟨hstart, hall⟩ := started_isProper husual hready hsources hindex hload
  obtain ⟨hproper, hfollows⟩ :=
    (follows_turnsOf husual hready hsources hindex hload).1 turn hturn
  obtain ⟨hnone, -⟩ := Turn.of_opened?_eq_some hfolder hfollows.ready hproper hopened
  have hsaved : turn.saved? settings = some (notes.text?.getD "") := by
    rw [Turn.saved?, hopened]
    rfl
  rw [Source.notesPlace] at hnone ⊢
  constructor
  · rw [Turn.get?_left hfolder hfollows.ready hproper, if_pos rfl, hsaved, hnone]
    rfl
  · -- Nothing was there at the start, since nothing was there at the turn.
    obtain ⟨before, later, hsplit⟩ := List.append_of_mem hturn
    obtain ⟨done, rest, hfiles, hbefore, hsite, -⟩ := course_eq_append hsplit
    have hdone : ∀ source ∈ done, source.IsProper :=
      fun source hsource => hall source (by simp [hfiles, hsource])
    rw [hsite, ← hbefore, get?_reached hfolder hstart hdone, Option.or_eq_none_iff] at hnone
    have hfirst := firstSaved?_eq_some hfolder hstart hall hturn hsaved
    rw [disk_run husual hready hsources hindex hload, turnsOf, get?_reached hfolder hstart hall,
      hnone.1, hfirst]
    rfl

/-- Notes that come of a turn are read from their file after the turn and at the end of the
run, if the disk takes the file. -/
theorem read?_run {turn : Turn} (hturn : turn ∈ turnsOf settings site) {notes : Json.Value}
    (hnotes : (turn.exchange settings).outcome = .ok (some notes))
    (hwrite : (turn.site.disk.write? (settings.notesPath turn.source.name) notes.content).isOk =
      true) :
    (turn.left settings).disk.read? (settings.notesPath turn.source.name) = .ok notes.content ∧
      (after (run settings) site).disk.read? (settings.notesPath turn.source.name) =
        .ok notes.content := by
  obtain ⟨hturns, hlast⟩ := follows_turnsOf husual hready hsources hindex hload
  obtain ⟨hproper, hfollows⟩ := hturns turn hturn
  have hpath := isFilePath_notesPath husual.notesFolder hproper.isName
  have hopened : turn.opened? settings = some notes :=
    (Turn.opened?_eq_some_iff husual.notesFolder hfollows.ready hproper).2 ⟨hnotes, hwrite⟩
  obtain ⟨hleft, hend⟩ := get?_of_opened? husual hready hsources hindex hload hturn hopened
  have hplain : (after (run settings) site).disk.Plain := by
    rw [disk_run husual hready hsources hindex hload]
    exact hlast.ready.plain
  exact ⟨read?_of_file (Turn.plain_left husual.notesFolder hfollows.ready hproper) hpath.leadsTo
    hpath.short hleft, read?_of_file hplain hpath.leadsTo hpath.short hend⟩

end Ready

/-- A site with one source file, where these values are written one after the other and
every search finds the same. -/
def oneFileSite (written found : List Json.Value) : Site where
  disk := ⟨[("src", .folder [("a.h", .file [120])]), ("rag_index", .folder [])]⟩
  services := { Completion.writing written with searches := ⟨[], .ok found⟩ }
  limits := .ample

end Docwright.Notes
