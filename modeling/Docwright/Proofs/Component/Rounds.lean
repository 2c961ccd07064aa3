import Docwright.Json.Writer
import Docwright.Proofs.Component.Requests
import Docwright.Proofs.Program.HandOff

/-!
# The rounds of a component run

The two rounds of a run have only the list of handled files between them. The first
one hands over the files of all listed pairs, whether or not a page was obtained or
saved, and a file is listed once, so the second one takes just the files that are in
no pair. With that a run takes the `subjects` of the listing in order (`rounds_ends`),
and its requests are theirs.
-/

namespace Docwright.Component

open Docwright.Disk
open Docwright.Job
open Docwright.Json
open Docwright.Path

section Rounds

def files (listing : List (String × Fields)) : List (String × Value) :=
  listing.map fun file => (file.1, .obj file.2)

variable {listing : List (String × Fields)}

theorem fieldOf?_files (name : String) :
    fieldOf? name (files listing) = (listing.lookup name).map .obj := by
  induction listing with
  | nil => rfl
  | cons file rest ih =>
      unfold files at ih ⊢
      rw [List.map_cons, fieldOf?, List.lookup_cons]
      by_cases hname : file.1 = name
      · simp [hname]
      · simp [hname, Ne.symm hname, ih, beq_false_of_ne]

/-- The first round handles a file if the implementation beside it is listed. -/
theorem pairRound_eq (settings : Settings) {progress : Progress} {file : String × Fields}
    (hnew : extension (base file.1) = ".h" → file.1 ∉ progress.handled) :
    pairRound settings (files listing) progress (file.1, .obj file.2) =
      match source? listing file.1 with
      | some source => handlePair settings progress file.1 source.1 (.obj file.2) (.obj source.2)
      | none => pure progress := by
  unfold pairRound source?
  dsimp only
  by_cases hheader : extension (base file.1) = ".h"
  · have hnot : progress.handled.contains file.1 = false := by
      simpa using hnew hheader
    rw [hnot, if_neg Bool.false_ne_true, if_pos hheader, if_pos hheader, fieldOf?_files]
    cases listing.lookup (siblingOf file.1) with
    | none => simp only [Option.map_none]
    | some fields => simp only [Option.map_some]
  · rw [if_neg hheader, if_neg hheader, ite_self]

variable {settings : Settings} (husual : settings.IsUsual) {notes : String → Option String}
  {site : Site} (hpaths : ∀ file ∈ listing, IsSourcePath file.1)

include husual hpaths

theorem pairRound_ends {file : String × Fields} (hfile : file ∈ listing)
    (hready : Ready notes site) {handled : List String}
    (hnew : extension (base file.1) = ".h" → file.1 ∉ handled) (saved : Nat) :
    let account := (pair? notes listing file).elim ⟨site, saved⟩
      (Account.take settings notes ⟨site, saved⟩)
    Ends (pairRound settings (files listing) ⟨handled, saved⟩ (file.1, .obj file.2)) site
      (.ok ⟨handled ++ pairPaths listing file, account.saved⟩) account.site := by
  intro account
  have hpath := hpaths file hfile
  rw [pairRound_eq settings hnew]
  cases hsource : source? listing file.1 with
  | none =>
      simp only [account, pair?, pairPaths, hsource, Option.bind_none, Option.elim_none,
        List.append_nil]
      exact .pure
  | some source =>
      obtain ⟨hheader, _, hlisted⟩ := source?_eq_some hsource
      have hsourceName := (hpaths source hlisted).isName_base
      have hpair := handlePair_ends husual hready hpath.isName_base hsourceName
        (isNamed_pair hpath hheader) handled saved
      have haccount : account =
          if (notes (base file.1)).isNone && (notes (base source.1)).isNone then ⟨site, saved⟩
          else Account.take settings notes ⟨site, saved⟩ (.pair file source) := by
        simp only [account, pair?, hsource, Option.bind_some]
        split
        · rfl
        · rfl
      rw [haccount]
      simp only [pairPaths, hsource]
      exact hpair

def lonePaths (listing : List (String × Fields)) (file : String × Fields) : List String :=
  if file.1 ∉ pairedPaths listing ∧ extension (base file.1) ∈ Survey.sourceExtensions then [file.1]
  else []

theorem singleRound_ends {file : String × Fields} (hfile : file ∈ listing)
    (hready : Ready notes site) {handled : List String}
    (hhandled : file.1 ∈ handled ↔ file.1 ∈ pairedPaths listing) (saved : Nat) :
    let account := (single? notes listing file).elim ⟨site, saved⟩
      (Account.take settings notes ⟨site, saved⟩)
    Ends (singleRound settings ⟨handled, saved⟩ (file.1, .obj file.2)) site
      (.ok ⟨handled ++ lonePaths listing file, account.saved⟩) account.site := by
  intro account
  have hpath := hpaths file hfile
  unfold singleRound
  dsimp only
  rw [List.contains_eq_mem, husual.extensions, List.contains_eq_mem]
  by_cases hpaired : file.1 ∈ pairedPaths listing
  · simp only [account, single?, lonePaths, hhandled.2 hpaired, hpaired, decide_true, if_true,
      not_true, false_and, if_false, Option.elim_none, List.append_nil]
    exact .pure
  · have hnew : file.1 ∉ handled := fun hmem => hpaired (hhandled.1 hmem)
    by_cases hextension : extension (base file.1) ∈ Survey.sourceExtensions
    · have hsingle := handleSingle_ends husual hready hpath.isName_base (isNamed_single hpath)
        handled saved
      have haccount : account =
          if (Text.nonempty? (notes (base file.1))).isSome then
            Account.take settings notes ⟨site, saved⟩ (.single file)
          else ⟨site, saved⟩ := by
        simp only [account, single?, hpaired, hextension, if_false, true_and]
        split
        · rfl
        · rfl
      rw [haccount]
      simp only [lonePaths, hnew, hpaired, hextension, decide_false, decide_true, if_true,
        Bool.false_eq_true, if_false, not_false_eq_true, and_self]
      exact hsingle
    · simp only [account, single?, lonePaths, hnew, hpaired, hextension, decide_false, if_false,
        Bool.false_eq_true, false_and, and_false, Option.elim_none, List.append_nil]
      exact .pure

omit husual hpaths in
theorem Ready.foldl_take {subjects : List Subject} (hnamed : ∀ subject ∈ subjects, subject.IsNamed)
    {account : Account} (h : Ready notes account.site) :
    Ready notes (subjects.foldl (Account.take settings notes) account).site := by
  induction subjects generalizing account with
  | nil => exact h
  | cons subject rest ih =>
      rw [List.foldl_cons]
      refine ih (fun other hother => hnamed other (List.mem_cons_of_mem _ hother)) ?_
      exact h.take (hnamed subject List.mem_cons_self)

section Round

variable {step : Progress → String × Value → Job Progress}
  {subject? : String × Fields → Option Subject} {paths : String × Fields → List String}
  {handled : List String}
  (hnamed : ∀ file ∈ listing, ∀ subject, subject? file = some subject → subject.IsNamed)
  (hstep : ∀ done file rest site saved, listing = done ++ file :: rest → Ready notes site →
    let account := (subject? file).elim ⟨site, saved⟩ (Account.take settings notes ⟨site, saved⟩)
    Ends (step ⟨handled ++ done.flatMap paths, saved⟩ (file.1, .obj file.2)) site
      (.ok ⟨handled ++ done.flatMap paths ++ paths file, account.saved⟩) account.site)

include hnamed hstep

omit husual hpaths in
theorem round_rest_ends {done rest : List (String × Fields)} (hlisting : listing = done ++ rest)
    {account : Account} (hready : Ready notes account.site) (said : List String) :
    let left := (rest.filterMap subject?).foldl (Account.take settings notes) account
    Ends (rest.foldlM (fun progress file => step progress (file.1, .obj file.2))
        ⟨handled ++ done.flatMap paths, account.saved⟩) (saying account.site said)
      (.ok ⟨handled ++ listing.flatMap paths, left.saved⟩) left.site := by
  -- what was handled before is that of the files before the rest, whatever came of them
  induction rest generalizing done account said with
  | nil =>
      rw [hlisting, List.append_nil]
      exact .pure
  | cons file rest ih =>
      have hhere : Ready notes (saying account.site said) :=
        ⟨hready.plain, hready.ordinary, hready.notes⟩
      have hturn := hstep done file rest _ account.saved hlisting hhere
      have hnext : listing = done ++ [file] ++ rest := by
        rw [hlisting, List.append_assoc]
        rfl
      have hhandled : handled ++ done.flatMap paths ++ paths file =
          handled ++ (done ++ [file]).flatMap paths := by
        rw [List.flatMap_append, List.flatMap_singleton, List.append_assoc]
      rw [hhandled] at hturn
      rw [List.foldlM_cons]
      cases hsubject : subject? file with
      | none =>
          rw [hsubject] at hturn
          rw [List.filterMap_cons_none hsubject]
          exact (hturn.respoken rfl).bind fun said => ih hnext hready said
      | some subject =>
          rw [hsubject] at hturn
          obtain ⟨hsaved, hspoken⟩ := take_saying settings notes subject account.site account.saved
            said
          have hfile : file ∈ listing := by simp [hlisting]
          simp only [Option.elim_some] at hturn
          rw [hsaved] at hturn
          rw [List.filterMap_cons_some hsubject, List.foldl_cons]
          exact (hturn.respoken hspoken).bind fun said =>
            ih hnext (hready.take (hnamed file hfile subject hsubject)) said

omit husual hpaths in
/-- A round over the listed files takes the subjects that the files give and adds the
files they handle, if that is what it does at each file. -/
theorem round_ends {start : Account} (hready : Ready notes start.site) (said : List String) :
    let account := (listing.filterMap subject?).foldl (Account.take settings notes) start
    Ends ((files listing).foldlM step ⟨handled, start.saved⟩) (saying start.site said)
      (.ok ⟨handled ++ listing.flatMap paths, account.saved⟩) account.site := by
  intro account
  have hround := round_rest_ends hnamed hstep (List.nil_append listing).symm hready said
  rw [List.flatMap_nil, List.append_nil] at hround
  unfold files
  rw [List.foldlM_map]
  exact hround

end Round

variable (hdistinct : (listing.map (·.1)).Nodup)

/-- The two rounds, without the report at the end. -/
def rounds (settings : Settings) (files : List (String × Value)) : Job Progress := do
  let progress ← files.foldlM (pairRound settings files) {}
  say "\nStarting Strategy 2: Processing standalone C++ files..."
  files.foldlM (singleRound settings) progress

def report (saved : Nat) : String :=
  "\nIntermediate documentation generation process completed. " ++ s!"Generated {saved} documents."

omit husual hpaths in
theorem document_eq (settings : Settings) (files : List (String × Value)) :
    document settings files =
      rounds settings files >>= fun progress => say (report progress.saved) := by
  unfold document rounds report
  rw [bind_assoc]
  refine congrArg _ (funext fun progress => ?_)
  rw [bind_assoc]

omit husual in
theorem isNamed_of_mem_subjects {subject : Subject} (h : subject ∈ subjects notes listing) :
    subject.IsNamed := by
  rcases List.mem_append.1 h with hpair | hsingle
  · obtain ⟨file, hfile, heq⟩ := List.mem_filterMap.1 hpair
    obtain ⟨source, hsource, rfl⟩ := pair?_eq_some heq
    exact isNamed_pair (hpaths file hfile) (source?_eq_some hsource).1
  · obtain ⟨file, hfile, heq⟩ := List.mem_filterMap.1 hsingle
    obtain ⟨_, rfl⟩ := single?_eq_some heq
    exact isNamed_single (hpaths file hfile)

include hdistinct

omit husual hpaths in
theorem ne_of_mem_done {done rest : List (String × Fields)} {file other : String × Fields}
    (hlisting : listing = done ++ file :: rest) (hother : other ∈ done) : file.1 ≠ other.1 := by
  intro hsame
  rw [hlisting, List.map_append, List.map_cons, List.nodup_append'] at hdistinct
  refine hdistinct.2.2 (List.mem_map.2 ⟨other, hother, rfl⟩) ?_
  rw [← hsame]
  exact List.mem_cons_self

omit husual in
/-- In the first round no header is handled before its turn. -/
theorem header_not_mem_done {done rest : List (String × Fields)} {file : String × Fields}
    (hlisting : listing = done ++ file :: rest) (hheader : extension (base file.1) = ".h") :
    file.1 ∉ done.flatMap (pairPaths listing) := by
  intro hmem
  obtain ⟨other, hother, hpath⟩ := List.mem_flatMap.1 hmem
  obtain ⟨source, hsource, hpath⟩ := mem_pairPaths.1 hpath
  rcases hpath with hsame | hsame
  · exact ne_of_mem_done hdistinct hlisting hother hsame
  · exact ne_source hpaths (by simp [hlisting, hother]) hheader hsource hsame

omit husual hpaths in
/-- In the second round only the files of pairs are handled before their turn. -/
theorem mem_done_iff {done rest : List (String × Fields)} {file : String × Fields}
    (hlisting : listing = done ++ file :: rest) :
    file.1 ∈ pairedPaths listing ++ done.flatMap (lonePaths listing) ↔
      file.1 ∈ pairedPaths listing := by
  rw [List.mem_append, or_iff_left]
  intro hmem
  obtain ⟨other, hother, hpath⟩ := List.mem_flatMap.1 hmem
  unfold lonePaths at hpath
  split at hpath
  · exact ne_of_mem_done hdistinct hlisting hother (List.mem_singleton.1 hpath)
  · exact absurd hpath (by simp)

theorem rounds_ends (hready : Ready notes site) (said : List String) :
    let account := (subjects notes listing).foldl (Account.take settings notes) ⟨site, 0⟩
    ∃ handled, Ends (rounds settings (files listing)) (saying site said)
      (.ok ⟨handled, account.saved⟩) account.site := by
  intro account
  -- the second round starts where the first one ended
  let middle := (listing.filterMap (pair? notes listing)).foldl (Account.take settings notes)
    ⟨site, 0⟩
  have hnamed : ∀ file ∈ listing, ∀ subject, pair? notes listing file = some subject →
      subject.IsNamed := fun file hfile subject heq =>
    isNamed_of_mem_subjects hpaths
      (List.mem_append_left _ (List.mem_filterMap.2 ⟨file, hfile, heq⟩))
  have hnamed' : ∀ file ∈ listing, ∀ subject, single? notes listing file = some subject →
      subject.IsNamed := fun file hfile subject heq =>
    isNamed_of_mem_subjects hpaths
      (List.mem_append_right _ (List.mem_filterMap.2 ⟨file, hfile, heq⟩))
  have hstart : Ready notes (Account.mk site 0).site := hready
  have hpairs : Ends ((files listing).foldlM (pairRound settings (files listing)) {})
      (saying site said) (.ok ⟨[] ++ listing.flatMap (pairPaths listing), middle.saved⟩)
      middle.site := by
    refine round_ends hnamed (fun done file rest site saved hlisting hready => ?_) hstart said
    have hfile : file ∈ listing := by simp [hlisting]
    exact pairRound_ends husual hpaths hfile hready
      (header_not_mem_done hpaths hdistinct hlisting) saved
  have hmiddle : Ready notes middle.site := by
    refine hstart.foldl_take fun subject hsubject => ?_
    exact isNamed_of_mem_subjects hpaths (List.mem_append_left _ hsubject)
  refine ⟨pairedPaths listing ++ listing.flatMap (lonePaths listing), hpairs.bind fun said => ?_⟩
  refine Ends.bind (.say _) fun said => ?_
  have haccount : account =
      (listing.filterMap (single? notes listing)).foldl (Account.take settings notes) middle :=
    List.foldl_append
  rw [haccount]
  refine round_ends hnamed' (fun done file rest site saved hlisting hready => ?_) hmiddle _
  exact singleRound_ends husual hpaths (by simp [hlisting]) hready
    (mem_done_iff hdistinct hlisting) saved

theorem document_apply (hready : Ready notes site) (heard : List String) :
    let account := (subjects notes listing).foldl (Account.take settings notes) ⟨site, 0⟩
    ∃ said, document settings (files listing) (saying site heard) =
      .ok () (saying account.site (said ++ [report account.saved])) := by
  intro account
  obtain ⟨handled, hrounds⟩ := rounds_ends husual hpaths hdistinct hready heard
  rw [document_eq]
  exact hrounds.bind_eq _

end Rounds

section Run

variable {settings : Settings} (husual : settings.IsUsual) {notes : String → Option String}
  {site : Site} {listing : List (String × Fields)}

/-- The site once there is a folder for the pages. -/
def prepared (site : Site) : Site :=
  { site with disk := site.disk.withFolder "intermediate_docs" }

theorem Ready.prepared (h : Ready notes site) : Ready notes (prepared site) := by
  have hname := isTopFolder_pages.isName
  have hplain : (Component.prepared site).disk.Plain := h.plain.withFolder hname
  refine ⟨hplain, h.ordinary, fun name hisName => ?_⟩
  have hplace : ["file_notes", name ++ ".md"] ≠ ["intermediate_docs"] := by simp
  rw [← h.notes name hisName, notesOf?_eq hplain hisName, notesOf?_eq h.plain hisName,
    Component.prepared, get?_withFolder hname.short]
  simp only [hplace, false_and, if_false]

include husual

/-- A run that finds files listed documents them. -/
theorem run_apply (hplain : site.disk.Plain) (hnonempty : listing ≠ [])
    (hlisting : result (loadJson settings.structureFile) site = .ok (.obj (files listing))) :
    ∃ said,
      run settings site = document settings (files listing) (saying (prepared site) said) := by
  have hload := (loadJson_onlySpeaks settings.structureFile).ends site
  rw [hlisting] at hload
  have hpresent : (Value.obj (files listing)).isPresent = true := by
    cases listing with
    | nil => exact absurd rfl hnonempty
    | cons file rest => rfl
  unfold run
  obtain ⟨heard, hloaded⟩ := hload.bind_eq _
  rw [hloaded, hpresent, husual.pageFolder, Bool.not_true, if_neg Bool.false_ne_true]
  have hhere : (saying site heard).disk.Plain := hplain
  obtain ⟨said, hopened⟩ := isTopFolder_pages.opened hhere _ _
  exact ⟨_, hopened⟩

omit husual in
theorem run_nil (hlisting : result (loadJson settings.structureFile) site = .ok (.obj [])) :
    Ends (run settings) site (.ok ()) site := by
  have hload := (loadJson_onlySpeaks settings.structureFile).ends site
  rw [hlisting] at hload
  exact hload.bind fun said => Ends.respoken (.say _) rfl

omit husual in
theorem asked_foldl_take (settings : Settings) (notes : String → Option String)
    (account : Account) (subjects : List Subject) :
    (subjects.foldl (Account.take settings notes) account).site.asked =
      account.site.asked ++ subjects.map (Subject.request settings notes) := by
  induction subjects generalizing account with
  | nil => simp
  | cons subject rest ih =>
      rw [List.foldl_cons, ih, asked_take]
      simp

variable (hready : Ready notes site) (hpaths : ∀ file ∈ listing, IsSourcePath file.1)
  (hdistinct : (listing.map (·.1)).Nodup)
  (hlisting : result (loadJson settings.structureFile) site = .ok (.obj (files listing)))

include hready hpaths hdistinct hlisting

/-- A run that finds files listed takes their subjects in order and ends with its
report. -/
theorem run_takes_subjects (hnonempty : listing ≠ []) :
    let account := (subjects notes listing).foldl (Account.take settings notes)
      ⟨prepared site, 0⟩
    ∃ said, run settings site = .ok () (saying account.site (said ++ [report account.saved])) := by
  intro account
  obtain ⟨heard, hrun⟩ := run_apply husual hready.plain hnonempty hlisting
  rw [hrun]
  exact document_apply husual hpaths hdistinct hready.prepared heard

theorem run_asks :
    result (run settings) site = .ok () ∧
      (after (run settings) site).asked =
        site.asked ++ (subjects notes listing).map (Subject.request settings notes) := by
  by_cases hnonempty : listing = []
  · subst hnonempty
    obtain ⟨hresult, hspoken⟩ := run_nil hlisting
    refine ⟨hresult, ?_⟩
    rw [hspoken]
    simp [subjects]
  · obtain ⟨said, hrun⟩ := run_takes_subjects husual hready hpaths hdistinct hlisting hnonempty
    rw [result_ok hrun, after_ok hrun, saying, asked_foldl_take]
    exact ⟨rfl, rfl⟩

end Run

/-- An implementation before its header, another header of that name without one, and
a file on which the notes are empty. -/
def mixedListing : List (String × Fields) :=
  [("./src/x/a.cpp", []), ("./src/x/a.h", [("includes", .arr [])]), ("./src/a.h", []),
    ("./src/b.i", [])]

theorem leadsTo_innerSources : LeadsTo "./src/x" ["src", "x"] := ⟨by decide, by simp [IsStep]⟩

theorem isSourcePath_mixedListing : ∀ file ∈ mixedListing, IsSourcePath file.1 := by
  intro file hfile
  simp only [mixedListing, List.mem_cons, List.not_mem_nil, or_false] at hfile
  rcases hfile with rfl | rfl | rfl | rfl
  · exact ⟨"./src/x", ["x"], "a.cpp", leadsTo_innerSources, isName_iff.1 (by decide), by decide⟩
  · exact ⟨"./src/x", ["x"], "a.h", leadsTo_innerSources, isName_iff.1 (by decide), by decide⟩
  · exact ⟨"./src", [], "a.h", isTopFolder_sources.leadsTo, isName_iff.1 (by decide), by decide⟩
  · exact ⟨"./src", [], "b.i", isTopFolder_sources.leadsTo, isName_iff.1 (by decide), by decide⟩

/-- A site with that listing, where every request fails. -/
def mixedSite : Site where
  disk :=
    ⟨[("repo_structure.json",
        .file (Text.Utf8.encode ((Value.obj (files mixedListing)).write 2).toList)),
      ("file_notes", .folder [("a.h.md", .file [110]), ("b.i.md", .file [])])]⟩
  services := Services.failing
  limits := .ample

theorem textual_mixedListing (limits : Limits) :
    Textual limits.nesting (.obj (files mixedListing)) := by
  obtain ⟨depth, hdepth⟩ := Nat.exists_eq_add_of_le' limits.three_le_nesting
  have hnone : Textual (depth + 2) (.obj []) := .obj (depth + 1) [] (by simp) (by simp)
  have hincludes : Textual (depth + 2) (.obj [("includes", .arr [])]) :=
    .obj (depth + 1) _ (by simp) (by simpa using Textual.arr depth [] (by simp))
  rw [hdepth]
  refine .obj (depth + 2) _ (by decide) ?_
  simp [files, mixedListing, hnone, hincludes]

theorem plain_mixedSite : mixedSite.disk.Plain := plain_of_isPlain (by decide +kernel)

theorem loadJson_mixedSite {site : Site} (hdisk : site.disk = mixedSite.disk) :
    (result (loadJson "./repo_structure.json") site).toOption =
      some (.obj (files mixedListing)) := by
  have hfile : site.disk.HoldsWritten "./repo_structure.json" 2 (.obj (files mixedListing)) := by
    rw [hdisk]
    exact read?_of_file plain_mixedSite leadsTo_structure (by decide) rfl
  rw [result_ok (loadJson_written (by decide) (textual_mixedListing site.limits) hfile)]
  rfl

end Docwright.Component
