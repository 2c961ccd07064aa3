import Docwright.Proofs.Data.Lists
import Docwright.Proofs.Disk.Depth
import Docwright.Proofs.Notes.Taking

/-!
# The turns of a run that takes notes

Each source file has its turn, at the site that the turns before it left, until a turn ends
with a fault. The turns that take place are the `course`, and a loop over the files does
nothing else (`foldlM_countTurn_apply`).

A turn adds at most the file of the notes on its own file, at a place where nothing is yet.
So the tree of the sources stays the one that was walked, and what is at the place of the
notes on a name at the end was there before or comes from the first turn of a file of that
name in which the file of the notes was opened (`get?_reached`).
-/

namespace Docwright.Notes

open Docwright.Disk
open Docwright.Job
open Docwright.Path

def sourcesIn (settings : Settings) (disk : Disk) (folder : Folder) : List Source :=
  ((disk.fileNames folder).filter settings.selects).map fun name =>
    ⟨Path.join folder.path name, name⟩

/-- The source files that a walk comes to, in the order of their turns. -/
def sources (settings : Settings) (site : Site) : List Source :=
  (site.disk.walk site.limits.levels settings.sourceFolder).folders.flatMap
    (sourcesIn settings site.disk)

/-- Sources, notes and index are at their usual places. -/
structure Settings.IsUsual (settings : Settings) : Prop where
  sourceFolder : settings.sourceFolder = "./src"
  notesFolder : settings.notesFolder = "./file_notes"
  indexFolder : settings.indexFolder = "./rag_index"

theorem isUsual (model notesTokens addendumTokens : Json.Value) :
    Settings.IsUsual
      { model := model, notesTokens := notesTokens, addendumTokens := addendumTokens } :=
  ⟨rfl, rfl, rfl⟩

section Sources

variable {settings : Settings} {disk : Disk} {folder : Folder} {source : Source}

theorem isName_of_mem_sourcesIn (hplain : disk.Plain)
    (h : source ∈ sourcesIn settings disk folder) : IsName source.name := by
  obtain ⟨name, hname, rfl⟩ := List.mem_map.1 h
  exact hplain.isName_of_mem_fileNames (List.mem_filter.1 hname).1

theorem base_path_of_mem_sourcesIn (hplain : disk.Plain) {place : Place}
    (hfolder : folder.IsBelow place) (h : source ∈ sourcesIn settings disk folder) :
    base source.path = source.name := by
  obtain ⟨name, hname, rfl⟩ := List.mem_map.1 h
  have hisName := hplain.isName_of_mem_fileNames (List.mem_filter.1 hname).1
  exact hfolder.leadsTo.base_join hisName.noSlash

theorem isProper_of_mem_sourcesIn (hplain : disk.Plain) {place : Place}
    (hfolder : folder.IsBelow place) (h : source ∈ sourcesIn settings disk folder) :
    source.IsProper := by
  refine ⟨isName_of_mem_sourcesIn hplain h, ?_⟩
  obtain ⟨name, hname, rfl⟩ := List.mem_map.1 h
  exact hfolder.noNull_join hplain (List.mem_filter.1 hname).1

theorem sourcesIn_eq {now : Disk} (hagree : AgreeBelow "src" now disk) (hnow : now.Plain)
    (hfolder : folder.IsBelow ["src"]) :
    sourcesIn settings now folder = sourcesIn settings disk folder := by
  rw [sourcesIn, sourcesIn, hagree.fileNames_eq hnow hfolder]

variable (husual : settings.IsUsual) {site : Site} (hplain : site.disk.Plain)

include husual hplain

theorem exists_folder_of_mem_sources (h : source ∈ sources settings site) :
    ∃ folder : Folder, folder.IsBelow ["src"] ∧ source ∈ sourcesIn settings site.disk folder := by
  rw [sources, husual.sourceFolder] at h
  obtain ⟨folder, hfolder, hin⟩ := List.mem_flatMap.1 h
  exact ⟨folder, isBelow_of_mem_walk hplain isTopFolder_sources.leadsTo hfolder, hin⟩

theorem isProper_of_mem_sources (h : source ∈ sources settings site) : source.IsProper := by
  obtain ⟨folder, hfolder, hin⟩ := exists_folder_of_mem_sources husual hplain h
  exact isProper_of_mem_sourcesIn hplain hfolder hin

theorem base_path_of_mem_sources (h : source ∈ sources settings site) :
    base source.path = source.name := by
  obtain ⟨folder, hfolder, hin⟩ := exists_folder_of_mem_sources husual hplain h
  exact base_path_of_mem_sourcesIn hplain hfolder hin

theorem sources_eq {now : Site} (hagree : AgreeBelow "src" now.disk site.disk)
    (hnow : now.disk.Plain) (hlimits : now.limits = site.limits) :
    sources settings now = sources settings site := by
  have hwalk : now.disk.walk site.limits.levels "./src" = _ :=
    hagree.walk_eq hnow hplain isTopFolder_sources.leadsTo
  rw [sources, sources, husual.sourceFolder, hlimits, hwalk]
  apply List.flatMap_congr
  intro folder hfolder
  exact sourcesIn_eq hagree hnow (isBelow_of_mem_walk hplain isTopFolder_sources.leadsTo hfolder)

/-- A later walk over the same files goes through no others, if it goes down as far, or the
earlier one came to its end. -/
theorem sources_subset {now : Site} (hagree : AgreeBelow "src" now.disk site.disk)
    (hnow : now.disk.Plain)
    (hlevels : (site.disk.walk site.limits.levels "./src").complete = true ∨
      now.limits.levels = site.limits.levels) :
    sources settings now ⊆ sources settings site := by
  have hfolders : (now.disk.walk now.limits.levels "./src").folders ⊆
      (site.disk.walk site.limits.levels "./src").folders := by
    rw [hagree.walk_eq hnow hplain isTopFolder_sources.leadsTo]
    obtain hcomplete | hsame := hlevels
    · exact walk_subset hcomplete
    · rw [hsame]
      exact List.Subset.refl _
  intro source hsource
  rw [sources, husual.sourceFolder] at hsource ⊢
  obtain ⟨folder, hfolder, hin⟩ := List.mem_flatMap.1 hsource
  have hbelow := isBelow_of_mem_walk hplain isTopFolder_sources.leadsTo (hfolders hfolder)
  rw [sourcesIn_eq hagree hnow hbelow] at hin
  exact List.mem_flatMap.2 ⟨folder, hfolders hfolder, hin⟩

end Sources

section Course

namespace Turn

variable (settings : Settings) (turn : Turn)

def ended : Except Fault Bool :=
  result (annotate settings turn.source.path (settings.notesPath turn.source.name)) turn.site

def left : Site :=
  after (annotate settings turn.source.path (settings.notesPath turn.source.name)) turn.site

end Turn

/-- The turns of source files from a site on. The first one that ends with a fault is the
last to take place. -/
def course (settings : Settings) : Site → List Source → List Turn
  | _, [] => []
  | site, source :: rest =>
      let turn : Turn := ⟨source, site⟩
      turn :: match turn.ended settings with
        | .ok _ => course settings (turn.left settings) rest
        | .error _ => []

def reached (settings : Settings) (site : Site) (turns : List Turn) : Site :=
  turns.foldl (fun _ turn => turn.left settings) site

/-- How turns end together: with the number of those that saved notes, or with a fault. -/
def counted (settings : Settings) (count : Nat) (turns : List Turn) : Except Fault Nat :=
  turns.foldlM (fun count turn => do
    let saved ← turn.ended settings
    return if saved then count + 1 else count) count

variable {settings : Settings} {site : Site} {sources : List Source} {turn : Turn}

/-- The first turn is at the site where the course starts, and the others follow if it ends
well. -/
theorem course_cons (settings : Settings) (site : Site) (source : Source) (rest : List Source) :
    let turn : Turn := ⟨source, site⟩
    (∃ saved, turn.ended settings = .ok saved ∧
        course settings site (source :: rest) =
          turn :: course settings (turn.left settings) rest) ∨
      ∃ fault, turn.ended settings = .error fault ∧
        course settings site (source :: rest) = [turn] := by
  intro turn
  rw [course]
  cases hended : turn.ended settings with
  | ok saved => exact .inl ⟨saved, rfl, rfl⟩
  | error fault => exact .inr ⟨fault, rfl, rfl⟩

/-- What each turn preserves holds at the start of every turn and at the end. -/
theorem course_invariant {P : Site → Prop}
    (hstep : ∀ turn : Turn, turn.source ∈ sources → P turn.site → P (turn.left settings))
    (hsite : P site) :
    (∀ turn ∈ course settings site sources, turn.source ∈ sources ∧ P turn.site) ∧
      P (reached settings site (course settings site sources)) := by
  induction sources generalizing site with
  | nil => exact ⟨fun turn hturn => absurd hturn List.not_mem_nil, hsite⟩
  | cons source rest ih =>
      have hleft : P (Turn.left settings ⟨source, site⟩) := hstep _ List.mem_cons_self hsite
      obtain ⟨saved, -, hcourse⟩ | ⟨fault, -, hcourse⟩ := course_cons settings site source rest
      · obtain ⟨hturns, hreached⟩ :=
          ih (fun turn hturn => hstep turn (List.mem_cons_of_mem source hturn)) hleft
        rw [hcourse]
        refine ⟨List.forall_mem_cons.2 ⟨⟨List.mem_cons_self, hsite⟩, fun turn hturn => ?_⟩, hreached⟩
        obtain ⟨hsource, hP⟩ := hturns turn hturn
        exact ⟨List.mem_cons_of_mem source hsource, hP⟩
      · rw [hcourse]
        exact ⟨by simpa using hsite, hleft⟩

/-- A turn is at the site that those before it left. They are the course of the files before
its own, and it is the last one if it ends with a fault. -/
theorem course_eq_append {before later : List Turn}
    (h : course settings site sources = before ++ turn :: later) :
    ∃ done rest, sources = done ++ turn.source :: rest ∧ course settings site done = before ∧
      turn.site = reached settings site before ∧
      (∀ fault, turn.ended settings = .error fault → later = []) := by
  -- by the turns before it, each of which ended well, or the course would have ended there
  induction before generalizing site sources with
  | nil =>
      cases sources with
      | nil => exact absurd h (by simp [course])
      | cons source rest =>
          obtain ⟨saved, hended, hcourse⟩ | ⟨fault, -, hcourse⟩ :=
            course_cons settings site source rest
          · rw [hcourse] at h
            obtain ⟨rfl, -⟩ := List.cons.inj h
            exact ⟨[], rest, rfl, rfl, rfl, fun fault hfault =>
              absurd (hended.symm.trans hfault) (by simp)⟩
          · rw [hcourse] at h
            obtain ⟨rfl, hlater⟩ := List.cons.inj h
            exact ⟨[], rest, rfl, rfl, rfl, fun _ _ => hlater.symm⟩
  | cons first before ih =>
      cases sources with
      | nil => exact absurd h (by simp [course])
      | cons source rest =>
          obtain ⟨saved, hended, hcourse⟩ | ⟨fault, -, hcourse⟩ :=
            course_cons settings site source rest
          · rw [hcourse] at h
            obtain ⟨rfl, hlater⟩ := List.cons.inj h
            obtain ⟨done, later, rfl, hbefore, hsite, hlast⟩ := ih hlater
            refine ⟨source :: done, later, rfl, ?_, hsite, hlast⟩
            rw [course, hended, ← hbefore]
          · rw [hcourse] at h
            exact absurd (List.cons.inj h).2 (by simp)

/-- The turns are those of the first files, and of all of them if none ends with a fault. -/
theorem course_sources (settings : Settings) (site : Site) (sources : List Source) :
    (course settings site sources).map Turn.source <+: sources ∧
      ((∀ turn ∈ course settings site sources, ∀ fault, turn.ended settings ≠ .error fault) →
        (course settings site sources).map Turn.source = sources) := by
  induction sources generalizing site with
  | nil => exact ⟨List.prefix_refl _, fun _ => rfl⟩
  | cons source rest ih =>
      obtain ⟨saved, -, hcourse⟩ | ⟨fault, hended, hcourse⟩ := course_cons settings site source rest
      · obtain ⟨hsources, hall⟩ := ih (Turn.left settings ⟨source, site⟩)
        rw [hcourse]
        refine ⟨List.cons_prefix_cons.2 ⟨rfl, hsources⟩, fun h => ?_⟩
        exact congrArg (source :: ·) (hall (List.forall_mem_cons.1 h).2)
      · rw [hcourse]
        refine ⟨List.cons_prefix_cons.2 ⟨rfl, List.nil_prefix⟩, fun h => ?_⟩
        exact absurd hended (h _ (List.mem_singleton_self _) fault)

def tally (settings : Settings) (turns : List Turn) : Nat :=
  turns.countP fun turn => (turn.ended settings).toOption = some true

theorem counted_of_ok {turns : List Turn} (count : Nat)
    (h : ∀ turn ∈ turns, ∀ fault, turn.ended settings ≠ .error fault) :
    counted settings count turns = .ok (count + tally settings turns) := by
  induction turns generalizing count with
  | nil => rfl
  | cons turn rest ih =>
      obtain ⟨hturn, hrest⟩ := List.forall_mem_cons.1 h
      rw [counted, List.foldlM_cons]
      cases hended : turn.ended settings with
      | error fault => exact absurd hended (hturn fault)
      | ok saved =>
          refine (ih _ hrest).trans (congrArg Except.ok ?_)
          rw [tally, tally, List.countP_cons, hended]
          cases saved with
          | true => simp [Except.toOption, Nat.add_assoc, Nat.add_comm 1]
          | false => simp [Except.toOption]

theorem counted_course_eq_error_iff {count : Nat} {fault : Fault} :
    counted settings count (course settings site sources) = .error fault ↔
      ∃ turn ∈ course settings site sources, turn.ended settings = .error fault := by
  induction sources generalizing count site with
  | nil => simp [course, counted, pure, Except.pure]
  | cons source rest ih =>
      obtain ⟨saved, hended, hcourse⟩ | ⟨other, hended, hcourse⟩ :=
        course_cons settings site source rest
      · rw [hcourse, counted, List.foldlM_cons, hended, List.exists_mem_cons_iff, hended]
        refine Iff.trans ih ⟨.inr, fun h => h.resolve_left (by simp)⟩
      · rw [hcourse, counted, List.foldlM_cons, hended, List.exists_mem_cons_iff, hended]
        simp [bind, Except.bind]

/-- The turn of a source file, counted if notes were saved in it. -/
def countTurn (settings : Settings) (count : Nat) (source : Source) : Job Nat := do
  let saved ← annotate settings source.path (settings.notesPath source.name)
  return if saved then count + 1 else count

theorem visit_apply (settings : Settings) (count : Nat) (folder : Folder) (site : Site) :
    visit settings count folder site =
      (sourcesIn settings site.disk folder).foldlM (countTurn settings) count site := by
  rw [sourcesIn, List.foldlM_map]
  rfl

theorem countTurn_apply (settings : Settings) (count : Nat) (source : Source) (site : Site) :
    let turn : Turn := ⟨source, site⟩
    countTurn settings count source site =
      ofResult ((turn.ended settings).map fun saved => if saved then count + 1 else count)
        (turn.left settings) := by
  intro turn
  have happly : annotate settings source.path (settings.notesPath source.name) site =
      ofResult (turn.ended settings) (turn.left settings) :=
    apply_eq_ofResult _ site
  rw [countTurn, bind_apply, happly]
  cases turn.ended settings with
  | ok saved => rfl
  | error fault => rfl

theorem foldlM_countTurn_apply (settings : Settings) (count : Nat) (site : Site)
    (sources : List Source) :
    sources.foldlM (countTurn settings) count site =
      ofResult (counted settings count (course settings site sources))
        (reached settings site (course settings site sources)) := by
  induction sources generalizing count site with
  | nil => rfl
  | cons source rest ih =>
      rw [List.foldlM_cons, bind_apply, countTurn_apply]
      obtain ⟨saved, hended, hcourse⟩ | ⟨fault, hended, hcourse⟩ :=
        course_cons settings site source rest
      · rw [hcourse, counted, List.foldlM_cons, hended]
        exact ih _ _
      · rw [hcourse, counted, List.foldlM_cons, hended]
        rfl

end Course

section Step

variable {settings : Settings} (hfolder : settings.notesFolder = "./file_notes") {turn : Turn}
  (hready : Ready turn.site) (hproper : turn.source.IsProper)

theorem ordinary_foldl_next {services : Services} (requests : List Request)
    (hwriter : services.writer.Ordinary) (hsearches : services.searches.Ordinary) :
    (requests.foldl Services.next services).writer.Ordinary ∧
      (requests.foldl Services.next services).searches.Ordinary := by
  induction requests generalizing services with
  | nil => exact ⟨hwriter, hsearches⟩
  | cons request rest ih =>
      cases request with
      | write model maxTokens prompt => exact ih hwriter.tail hsearches
      | search limit text => exact ih hwriter hsearches.tail
      | _ => exact ih hwriter hsearches

include hfolder hready hproper

namespace Turn

theorem ended_eq : turn.ended settings = turn.ending settings :=
  (annotate_ends hfolder hready hproper turn.site.said).1

theorem spoken_left : Spoken (turn.taken settings) (turn.left settings) :=
  (annotate_ends hfolder hready hproper turn.site.said).2

theorem ended_eq_error_iff {fault : Fault} :
    turn.ended settings = .error fault ↔ (turn.exchange settings).Breaks fault := by
  rw [turn.ended_eq hfolder hready hproper, ending, ← Exchange.outcome_eq_error_iff]
  cases (turn.exchange settings).outcome with
  | ok notes? => simp [Except.map]
  | error other => simp [Except.map]

theorem disk_left :
    (turn.left settings).disk =
      (turn.opened? settings).elim turn.site.disk fun notes =>
        turn.site.disk.insert turn.source.notesPlace (.file notes.content) :=
  ((spoken_left hfolder hready hproper).part_eq Site.disk fun _ _ => rfl).trans
    (turn.disk_taken settings)

theorem asked_left :
    (turn.left settings).asked = turn.site.asked ++ turn.requests settings :=
  (spoken_left hfolder hready hproper).part_eq Site.asked fun _ _ => rfl

theorem services_left :
    (turn.left settings).services =
      (turn.requests settings).foldl Services.next turn.site.services :=
  (spoken_left hfolder hready hproper).part_eq Site.services fun _ _ => rfl

theorem limits_left : (turn.left settings).limits = turn.site.limits :=
  (spoken_left hfolder hready hproper).part_eq Site.limits fun _ _ => rfl

theorem opened?_eq_some_iff {notes : Json.Value} :
    turn.opened? settings = some notes ↔
      (turn.exchange settings).outcome = .ok (some notes) ∧
        (turn.site.disk.write? (settings.notesPath turn.source.name) notes.content).isOk = true := by
  have hpath := isFilePath_notesPath hfolder hproper.isName
  rw [opened?, Option.filter_eq_some_iff, decide_eq_true_iff,
    isOk_write?_iff hready.plain hpath.leadsTo hpath.short]
  cases (turn.exchange settings).outcome with
  | error fault => simp [Except.toOption]
  | ok notes? => simp [Except.toOption]

theorem of_opened?_eq_some {notes : Json.Value} (h : turn.opened? settings = some notes) :
    turn.site.disk.get? turn.source.notesPlace = none ∧
      turn.site.disk.CanHold turn.source.notesPlace := by
  obtain ⟨houtcome, htakes⟩ := Option.filter_eq_some_iff.1 h
  refine ⟨?_, canHold_iff_takesFile.2 (of_decide_eq_true htakes)⟩
  by_contra hthere
  rw [turn.exchange_of_settled hfolder hready.plain hproper.isName (.inl hthere)] at houtcome
  exact absurd houtcome (by simp [Exchange.outcome, Except.toOption])

theorem plain_left : (turn.left settings).disk.Plain := by
  rw [disk_left hfolder hready hproper]
  cases hopened : turn.opened? settings with
  | none => exact hready.plain
  | some notes =>
      obtain ⟨_, hhold⟩ := of_opened?_eq_some hfolder hready hproper hopened
      have hpath := isFilePath_notes hproper.isName
      refine hready.plain.insert hhold (hhold.isName hready.plain hpath.leadsTo ?_) (by simp)
      simpa using hpath.noNull

theorem ready_left : Ready (turn.left settings) := by
  have hservices := services_left hfolder hready hproper
  obtain ⟨hwriter, hsearches⟩ :=
    ordinary_foldl_next (turn.requests settings) hready.writer hready.searches
  rw [← hservices] at hwriter hsearches
  exact ⟨plain_left hfolder hready hproper, hwriter, hsearches⟩

theorem agreeBelow_left : AgreeBelow "src" (turn.left settings).disk turn.site.disk := by
  rw [disk_left hfolder hready hproper]
  cases turn.opened? settings with
  | none => rfl
  | some notes => exact AgreeBelow.insert (by decide) turn.site.disk _ _

/-- The notes on a name come from a turn only if there were none. -/
theorem get?_left (name : String) :
    (turn.left settings).disk.get? ["file_notes", name ++ ".md"] =
      (turn.site.disk.get? ["file_notes", name ++ ".md"]).or
        ((if turn.source.name = name then turn.saved? settings else none).map fun text =>
          .file (Text.Utf8.encode text.toList)) := by
  rw [disk_left hfolder hready hproper, saved?]
  cases hopened : turn.opened? settings with
  | none => simp
  | some notes =>
      obtain ⟨hnone, hhold⟩ := of_opened?_eq_some hfolder hready hproper hopened
      rw [Option.elim_some, get?_insert_of_canHold hhold]
      by_cases hname : turn.source.name = name
      · subst hname
        have hplace : turn.site.disk.get? ["file_notes", turn.source.name ++ ".md"] = none := hnone
        rw [Source.notesPlace, if_pos rfl, if_pos rfl, hplace, Option.none_or]
        rfl
      · have hplace : ["file_notes", name ++ ".md"] ≠ turn.source.notesPlace := by
          simpa [Source.notesPlace, String.append_left_inj] using Ne.symm hname
        rw [if_neg hplace, if_neg hname, Option.map_none, Option.or_none]

end Turn

end Step

section Reached

variable {settings : Settings} (hfolder : settings.notesFolder = "./file_notes") {site : Site}
  {sources : List Source}

/-- A site that the turns of a run lead to. -/
structure Follows (site now : Site) : Prop where
  ready : Ready now
  sources : AgreeBelow "src" now.disk site.disk
  limits : now.limits = site.limits

theorem Follows.trans {now later : Site} (h : Follows site now) (hlater : Follows now later) :
    Follows site later :=
  ⟨hlater.ready, hlater.sources.trans h.sources, hlater.limits.trans h.limits⟩

/-- The text of the first turn in which the file of the notes on that name was opened. -/
def firstSaved? (settings : Settings) (name : String) (turns : List Turn) : Option String :=
  turns.findSome? fun turn => if turn.source.name = name then turn.saved? settings else none

theorem firstSaved?_eq_none_iff {name : String} {turns : List Turn} :
    firstSaved? settings name turns = none ↔
      ∀ turn ∈ turns, turn.source.name = name → turn.saved? settings = none := by
  rw [firstSaved?, List.findSome?_eq_none_iff]
  refine forall₂_congr fun turn _ => ?_
  by_cases hname : turn.source.name = name
  · simp [hname]
  · simp [hname]

include hfolder

theorem Follows.left {turn : Turn} (h : Follows site turn.site) (hproper : turn.source.IsProper) :
    Follows site (turn.left settings) where
  ready := Turn.ready_left hfolder h.ready hproper
  sources := (Turn.agreeBelow_left hfolder h.ready hproper).trans h.sources
  limits := (Turn.limits_left hfolder h.ready hproper).trans h.limits

variable (hready : Ready site) (hproper : ∀ source ∈ sources, source.IsProper)

include hready hproper

/-- Notes can be taken in every turn and after the last one, on sources that are the same. -/
theorem follows_course :
    (∀ turn ∈ course settings site sources, turn.source ∈ sources ∧ Follows site turn.site) ∧
      Follows site (reached settings site (course settings site sources)) := by
  apply course_invariant
  · exact fun turn hturn h => h.left hfolder (hproper turn.source hturn)
  · exact ⟨hready, rfl, rfl⟩

/-- Induction along a course: from what holds of the turns after a turn, and of the site it
leaves, to what holds of that turn and those after it. -/
theorem course_induction {P : Site → List Turn → Prop} (hnil : ∀ site, P site [])
    (hcons : ∀ (turn : Turn) (later : List Turn), Ready turn.site → turn.source.IsProper →
      P (turn.left settings) later → P turn.site (turn :: later)) :
    P site (course settings site sources) := by
  induction sources generalizing site with
  | nil => exact hnil site
  | cons source rest ih =>
      obtain ⟨hfirst, hrest⟩ := List.forall_mem_cons.1 hproper
      have hleft : Ready (Turn.left settings ⟨source, site⟩) :=
        Turn.ready_left hfolder hready hfirst
      have hturn := fun later => hcons ⟨source, site⟩ later hready hfirst
      obtain ⟨saved, -, hcourse⟩ | ⟨fault, -, hcourse⟩ := course_cons settings site source rest
      · rw [hcourse]
        exact hturn _ (ih hleft hrest)
      · rw [hcourse]
        exact hturn _ (hnil _)

theorem asked_reached :
    (reached settings site (course settings site sources)).asked =
      site.asked ++ (course settings site sources).flatMap (Turn.requests settings) := by
  refine course_induction (P := fun site turns => (reached settings site turns).asked =
    site.asked ++ turns.flatMap (Turn.requests settings)) hfolder hready hproper ?_ ?_
  · intro site
    simp [reached]
  · intro turn later hready hproper hlater
    rw [List.flatMap_cons, ← List.append_assoc, ← Turn.asked_left hfolder hready hproper]
    exact hlater

theorem services_reached :
    (reached settings site (course settings site sources)).services =
      ((course settings site sources).flatMap (Turn.requests settings)).foldl Services.next
        site.services := by
  refine course_induction (P := fun site turns => (reached settings site turns).services =
    (turns.flatMap (Turn.requests settings)).foldl Services.next site.services) hfolder hready
    hproper (fun _ => rfl) ?_
  intro turn later hready hproper hlater
  rw [List.flatMap_cons, List.foldl_append, ← Turn.services_left hfolder hready hproper]
  exact hlater

/-- What is at the place of the notes on a name was there before, or comes from the first
turn in which the file of notes on that name was opened. -/
theorem get?_reached (name : String) :
    (reached settings site (course settings site sources)).disk.get? ["file_notes", name ++ ".md"] =
      (site.disk.get? ["file_notes", name ++ ".md"]).or
        ((firstSaved? settings name (course settings site sources)).map fun text =>
          .file (Text.Utf8.encode text.toList)) := by
  refine course_induction (P := fun site turns =>
    (reached settings site turns).disk.get? ["file_notes", name ++ ".md"] =
      (site.disk.get? ["file_notes", name ++ ".md"]).or
        ((firstSaved? settings name turns).map fun text =>
          .file (Text.Utf8.encode text.toList))) hfolder hready hproper ?_ ?_
  · intro site
    simp [reached, firstSaved?]
  · intro turn later hready hproper hlater
    rw [firstSaved?, Lists.findSome?_cons_eq_or, Option.map_or, ← Option.or_assoc,
      ← Turn.get?_left hfolder hready hproper]
    exact hlater

/-- After a turn that opened the file of notes on a name, no turn of that name does. -/
theorem saved?_eq_none_of_earlier {before rest : List Turn} {turn : Turn}
    (h : course settings site sources = before ++ turn :: rest) {other : Turn} {text : String}
    (hother : other ∈ before) (hname : other.source.name = turn.source.name)
    (hsaved : other.saved? settings = some text) : turn.saved? settings = none := by
  obtain ⟨done, later, hall, hbefore, hsite, -⟩ := course_eq_append h
  have hturn : turn ∈ course settings site sources := by simp [h]
  obtain ⟨hsource, hfollows⟩ := (follows_course hfolder hready hproper).1 turn hturn
  have hdone : ∀ source ∈ done, source.IsProper :=
    fun source hsource => hproper source (by simp [hall, hsource])
  have hfirst : firstSaved? settings turn.source.name (course settings site done) ≠ none := by
    rw [hbefore, Ne, firstSaved?_eq_none_iff]
    intro hnone
    exact absurd (hsaved.symm.trans (hnone other hother hname)) (by simp)
  have hthere : turn.site.disk.get? turn.source.notesPlace ≠ none := by
    rw [hsite, ← hbefore, Source.notesPlace, get?_reached hfolder hready hdone]
    simp [hfirst]
  rw [Turn.saved?, Turn.opened?, turn.exchange_of_settled hfolder hfollows.ready.plain
    (hproper turn.source hsource).isName (.inl hthere)]
  rfl

theorem firstSaved?_eq_some {turn : Turn} {text : String}
    (hturn : turn ∈ course settings site sources) (hsaved : turn.saved? settings = some text) :
    firstSaved? settings turn.source.name (course settings site sources) = some text := by
  obtain ⟨before, rest, hsplit⟩ := List.append_of_mem hturn
  have hbefore : firstSaved? settings turn.source.name before = none := by
    rw [firstSaved?_eq_none_iff]
    intro other hother hname
    cases hearlier : other.saved? settings with
    | none => rfl
    | some earlier =>
        have hnone := saved?_eq_none_of_earlier hfolder hready hproper hsplit hother hname hearlier
        exact absurd (hnone.symm.trans hsaved) (by simp)
  rw [firstSaved?] at hbefore
  rw [hsplit, firstSaved?, List.findSome?_append, hbefore, Option.none_or, List.findSome?_cons,
    if_pos rfl, hsaved]

end Reached

end Docwright.Notes
