import Docwright.Proofs.Disk.Depth
import Docwright.Proofs.Job.Brings
import Docwright.Proofs.Notes.Course
import Docwright.Proofs.Notes.Run

/-!
# Taking notes once more

In a run each source file is dealt with: it is settled, or notes on it were asked for. What
stops a run within the turn of a file stops it after the request, and leaves the file
without notes. So where every request came to notes, all files are settled, and a run over
settled files asks for nothing and leaves the disk as it was.
-/

namespace Docwright.Notes

open Docwright.Disk
open Docwright.Job
open Docwright.Path

variable {settings : Settings} {disk : Disk} {source : Source} {done : List Source} {site : Site}

def Source.Requested (settings : Settings) (source : Source) (asked : List Request) : Prop :=
  ∃ content, .write settings.model settings.notesTokens (.str (notesPrompt content source.path)) ∈
    asked

section Asking

theorem firstNotes_onlyAsks (settings : Settings) (content path : String) :
    OnlyAsks (firstNotes settings content path) :=
  Respects.bind (say_onlyAsks _) fun _ => complete_onlyAsks _ _ _

theorem firstNotes_asks (settings : Settings) (content path : String) :
    Respects (Via Site.asked (OneMore
      (.write settings.model settings.notesTokens (.str (notesPrompt content path)))))
      (firstNotes settings content path) := by
  have honStatus : ∀ (code : Int) (_ : String), Keeps Site.asked (
      if code = 401 then say "Please check your ANTHROPIC_API_KEY."
      else if code = 404 then
        say s!"Model '{settings.model}' might not be available or the API endpoint is incorrect."
      else pure ()) := by
    intro code _
    split
    · exact say_keeps_asked _
    · split
      · exact say_keeps_asked _
      · exact Respects.pure ()
  intro site
  exact Completion.request_asks _ _ _ (fun _ => .pure ()) honStatus _

end Asking

section Files

variable {now : Disk} {folder : Folder}

theorem contentOf?_eq (hagree : AgreeBelow "src" now disk) (hnow : now.Plain) (hplain : disk.Plain)
    (hfolder : folder.IsBelow ["src"]) (hsource : source ∈ sourcesIn settings disk folder) :
    contentOf? now source.path = contentOf? disk source.path := by
  obtain ⟨name, hname, rfl⟩ := List.mem_map.1 hsource
  have hisName := hplain.isName_of_mem_fileNames (List.mem_filter.1 hname).1
  obtain ⟨rest, hplace⟩ := hfolder.below
  have hpath : LeadsTo (Path.join folder.path name) ("src" :: (rest ++ [name])) := by
    have hjoin := hfolder.leadsTo.join hisName.isStep hisName.noSlash
    rw [← hplace, List.append_assoc] at hjoin
    exact hjoin
  rw [contentOf?, contentOf?, hagree.read?_eq hnow hplain hpath]

/-- Whether the source files are settled depends on them and the notes alone. -/
theorem settled_of_agree (husual : settings.IsUsual) {now : Site} {left : Disk}
    (hsources : AgreeBelow "src" now.disk left) (hnotes : AgreeBelow "file_notes" now.disk left)
    (hbefore : AgreeBelow "src" left site.disk) (hnow : now.disk.Plain) (hleft : left.Plain)
    (hplain : site.disk.Plain)
    (hlevels : (site.disk.walk site.limits.levels "./src").complete = true ∨
      now.limits.levels = site.limits.levels)
    (h : ∀ source ∈ sources settings site, source.Settled left) :
    ∀ source ∈ sources settings now, source.Settled now.disk := by
  intro source hlater
  have hsource := sources_subset husual hplain (hsources.trans hbefore) hnow hlevels hlater
  have hsettled := h source hsource
  obtain ⟨folder, hbelow, hin⟩ := exists_folder_of_mem_sources husual hplain hsource
  rw [← sourcesIn_eq hbefore hleft hbelow] at hin
  unfold Source.Settled at hsettled ⊢
  rw [contentOf?_eq hsources hnow hleft hbelow hin,
    show now.disk.get? source.notesPlace = _ from hnotes.get?_eq [source.name ++ ".md"]]
  exact hsettled

end Files

section First

/-- The files that are done with have notes, or no content to take notes on, or notes on
them were asked for. -/
structure Dealt (settings : Settings) (disk : Disk) (done : List Source) (site : Site) : Prop where
  plain : site.disk.Plain
  sources : AgreeBelow "src" site.disk disk
  folder : site.disk.get? ["file_notes"] ≠ none
  dealt : ∀ source ∈ done, site.disk.get? source.notesPlace ≠ none ∨
    contentOf? disk source.path = none ∨ source.Requested settings site.asked

def Pending (settings : Settings) (files : List Source) (site : Site) : Prop :=
  ∃ source ∈ files, source.Requested settings site.asked ∧ site.disk.get? source.notesPlace = none

theorem Pending.mono {files more : List Source} (h : Pending settings files site)
    (hmore : ∀ source ∈ files, source ∈ more) : Pending settings more site := by
  obtain ⟨source, hsource, hpending⟩ := h
  exact ⟨source, hmore source hsource, hpending⟩

theorem Dealt.asking (h : Dealt settings disk done site) {left : Site} (hleft : Asking site left) :
    Dealt settings disk done left := by
  obtain ⟨hplain, hsources, hfolder, hdealt⟩ := h
  rw [← hleft.disk] at hplain hsources hfolder hdealt
  refine ⟨hplain, hsources, hfolder, fun source hsource => ?_⟩
  obtain hnotes | hcontent | ⟨content, hrequest⟩ := hdealt source hsource
  · exact .inl hnotes
  · exact .inr (.inl hcontent)
  · exact .inr (.inr ⟨content, hleft.asked hrequest⟩)

theorem Dealt.concat (h : Dealt settings disk done site)
    (hsource : site.disk.get? source.notesPlace ≠ none ∨ contentOf? disk source.path = none ∨
      source.Requested settings site.asked) : Dealt settings disk (done ++ [source]) site := by
  refine ⟨h.plain, h.sources, h.folder, fun other hother => ?_⟩
  obtain hdone | hlast := List.mem_append.1 hother
  · exact h.dealt other hdone
  · rw [List.mem_singleton.1 hlast]
    exact hsource

theorem Dealt.kept (h : Dealt settings disk done site) (hname : IsName source.name)
    (notes? : Option Json.Value) :
    Dealt settings disk done (Notes.kept source notes? site).2 := by
  unfold Notes.kept
  cases hsaved : notes?.filter fun _ =>
      site.disk.TakesFile "file_notes" (source.name ++ ".md") with
  | none => exact h
  | some notes =>
      have hhold : site.disk.CanHold source.notesPlace :=
        canHold_iff_takesFile.2 (of_decide_eq_true (Option.filter_eq_some_iff.1 hsaved).2)
      have hpath := isFilePath_notes hname
      have hstays : ∀ place, site.disk.get? place ≠ none →
          (site.disk.insert source.notesPlace (.file notes.content)).get? place ≠ none := by
        intro place hplace
        rw [get?_insert_of_canHold hhold]
        split
        · simp
        · exact hplace
      refine ⟨?_, ?_, hstays _ h.folder, fun other hother => ?_⟩
      · refine h.plain.insert hhold (hhold.isName h.plain hpath.leadsTo ?_) (by simp)
        simpa using hpath.noNull
      · exact (AgreeBelow.insert (by decide) site.disk _ _).trans h.sources
      · obtain hnotes | hrest := h.dealt other hother
        · exact .inl (hstays _ hnotes)
        · exact .inr hrest

/-- All but the last file are dealt with, and notes on the last one were asked for. There
are none so far. -/
structure Awaited (settings : Settings) (disk : Disk) (done : List Source) (source : Source)
    (site : Site) : Prop where
  dealt : Dealt settings disk done site
  requested : source.Requested settings site.asked
  missing : site.disk.get? source.notesPlace = none

theorem Awaited.asking (h : Awaited settings disk done source site) {left : Site}
    (hleft : Asking site left) : Awaited settings disk done source left := by
  obtain ⟨content, hrequest⟩ := h.requested
  exact ⟨h.dealt.asking hleft, ⟨content, hleft.asked hrequest⟩, hleft.disk ▸ h.missing⟩

theorem Awaited.pending (h : Awaited settings disk done source site) :
    Pending settings [source] site :=
  ⟨source, List.mem_singleton_self source, h.requested, h.missing⟩

theorem firstNotes_awaits (content : String) :
    Brings
      (fun site => Dealt settings disk done site ∧ site.disk.get? source.notesPlace = none)
      (firstNotes settings content source.path) (fun _ => Awaited settings disk done source)
      fun _ => Pending settings [source] := by
  have hafter : ∀ site, (Dealt settings disk done site ∧ site.disk.get? source.notesPlace = none) →
      Awaited settings disk done source (after (firstNotes settings content source.path) site) := by
    rintro site ⟨hdealt, hmissing⟩
    have hleft := firstNotes_onlyAsks settings content source.path site
    have hasked : (after (firstNotes settings content source.path) site).asked = _ :=
      firstNotes_asks settings content source.path site
    refine ⟨hdealt.asking hleft, ⟨content, ?_⟩, hleft.disk ▸ hmissing⟩
    rw [hasked]
    exact List.mem_append_right _ (List.mem_singleton_self _)
  exact (Brings.of_after hafter).imp (fun _ h => h) (fun _ _ h => h) fun _ _ h => h.pending

theorem withAddendum_awaits (notes : Json.Value) (content : String) :
    Brings (Awaited settings disk done source) (withAddendum settings notes content source.path)
      (fun _ => Awaited settings disk done source) fun _ => Pending settings [source] := by
  have hafter : ∀ site, Awaited settings disk done source site →
      Awaited settings disk done source
        (after (withAddendum settings notes content source.path) site) :=
    fun site h => h.asking (withAddendum_onlyAsks settings notes content source.path site)
  exact (Brings.of_after hafter).imp (fun _ h => h) (fun _ _ h => h) fun _ _ h => h.pending

variable (hfolder : settings.notesFolder = "./file_notes") (hname : IsName source.name)

include hfolder hname

theorem save_deals (notes : Json.Value) {E : Fault → Site → Prop} :
    Brings (Awaited settings disk done source) (save (settings.notesPath source.name) notes)
      (fun _ => Dealt settings disk (done ++ [source])) E := by
  apply Brings.intro
  intro site h
  obtain ⟨hresult, hspoken⟩ := save_ends hfolder hname h.dealt.plain notes site.said
  have hkept := (h.dealt.concat (.inr (.inr h.requested))).kept hname (some notes)
  rw [apply_eq_ok hresult]
  exact hkept.asking hspoken.asking

/-- The turn of a file that is not settled deals with it by a request. If it is broken off,
the file has no notes. -/
theorem annotateContent_deals {content : String} (hblank : Text.isBlankText content = false) :
    Brings
      (fun site => Dealt settings disk done site ∧ site.disk.get? source.notesPlace = none)
      (annotateContent settings source.path (settings.notesPath source.name) content)
      (fun _ => Dealt settings disk (done ++ [source])) fun _ => Pending settings [source] := by
  unfold annotateContent
  rw [hblank]
  apply Brings.bind (firstNotes_awaits content)
  intro given
  split
  · apply Brings.bind (M := fun _ => Awaited settings disk done source)
    · exact .intro fun site h => h.asking (say_onlyAsks _ site)
    · exact fun _ => Brings.pure fun site h => h.dealt.concat (.inr (.inr h.requested))
  · exact Brings.bind (withAddendum_awaits _ content) fun both => save_deals hfolder hname both

omit hname in
/-- The turn of a source file deals with it, unless it is broken off after the request. -/
theorem annotate_deals (hplain : disk.Plain) {folder : Folder} (hbelow : folder.IsBelow ["src"])
    (hsource : source ∈ sourcesIn settings disk folder) :
    Brings (Dealt settings disk done)
      (annotate settings source.path (settings.notesPath source.name))
      (fun _ => Dealt settings disk (done ++ [source])) fun _ => Pending settings [source] := by
  obtain ⟨hname, hnull⟩ := isProper_of_mem_sourcesIn hplain hbelow hsource
  apply Brings.intro
  intro site h
  have hsame := contentOf?_eq h.sources h.plain hplain hbelow hsource
  by_cases hsettled : source.Settled site.disk
  · obtain ⟨hresult, hspoken⟩ := annotate_settled hfolder hname h.plain hnull hsettled site.said
    have hleft : Dealt settings disk (done ++ [source]) site := by
      obtain hnotes | hnone := hsettled
      · exact h.concat (.inl hnotes)
      · exact h.concat (.inr (.inl (hsame.symm.trans hnone)))
    rw [apply_eq_ok hresult]
    exact hleft.asking hspoken.asking
  · obtain ⟨hmissing, hsome⟩ := not_or.1 hsettled
    obtain ⟨content, hcontent⟩ := Option.ne_none_iff_exists'.1 hsome
    obtain ⟨hblank, heard, happly⟩ :=
      annotate_unsettled hfolder hname h.plain hnull (Classical.not_not.1 hmissing) hcontent site.said
    rw [show annotate settings source.path (settings.notesPath source.name) site = _ from happly]
    have hspoken : Spoken site (saying site heard) := rfl
    exact (annotateContent_deals hfolder hname hblank).ends
      ⟨h.asking hspoken.asking, Classical.not_not.1 hmissing⟩

omit hname in
theorem visit_deals (hplain : disk.Plain) {folder : Folder} (hbelow : folder.IsBelow ["src"])
    (count : Nat) :
    Brings (Dealt settings disk done) (visit settings count folder)
      (fun _ => Dealt settings disk (done ++ sourcesIn settings disk folder))
      fun _ => Pending settings (sourcesIn settings disk folder) := by
  have hloop : Brings (Dealt settings disk (done ++ []))
      ((sourcesIn settings disk folder).foldlM (countTurn settings) count)
      (fun _ => Dealt settings disk (done ++ sourcesIn settings disk folder))
      fun _ => Pending settings (sourcesIn settings disk folder) := by
    apply Brings.foldlM fun finished _ => Dealt settings disk (done ++ finished)
    intro finished source rest count hall
    have hsource : source ∈ sourcesIn settings disk folder := by simp [← hall]
    rw [← List.append_assoc]
    apply Brings.bind
    · apply (annotate_deals hfolder hplain hbelow hsource).imp (fun _ h => h) (fun _ _ h => h)
      exact fun _ _ h => h.mono (by simpa using hsource)
    · exact fun saved => Brings.pure fun _ h => h
  apply Brings.intro
  intro site h
  rw [visit_apply, sourcesIn_eq h.sources h.plain hbelow]
  rw [List.append_nil] at hloop
  exact hloop.ends h

omit hfolder hname in
theorem annotateAll_deals (husual : settings.IsUsual) {start : Site} (hplain : start.disk.Plain)
    (hthere : start.disk.get? ["file_notes"] ≠ none) :
    Brings (fun site => site = start) (annotateAll settings)
      (fun _ site => Pending settings (sources settings start) site ∨
        Dealt settings start.disk (sources settings start) site)
      fun _ site => Pending settings (sources settings start) site ∨
        Dealt settings start.disk (sources settings start) site := by
  have hloop : Brings (Dealt settings start.disk [])
      ((start.disk.walk start.limits.levels settings.sourceFolder).folders.foldlM (visit settings) 0)
      (fun _ => Dealt settings start.disk (sources settings start)) fun _ site =>
        Pending settings (sources settings start) site ∨
          Dealt settings start.disk (sources settings start) site := by
    apply Brings.foldlM fun visited _ =>
      Dealt settings start.disk (visited.flatMap (sourcesIn settings start.disk))
    intro visited folder rest count hwalk
    have hfolder : folder ∈ (start.disk.walk start.limits.levels settings.sourceFolder).folders := by
      simp [← hwalk]
    have hbelow : folder.IsBelow ["src"] := by
      rw [husual.sourceFolder] at hfolder
      exact isBelow_of_mem_walk hplain isTopFolder_sources.leadsTo hfolder
    rw [List.flatMap_append, List.flatMap_singleton]
    apply (visit_deals husual.notesFolder hplain hbelow count).imp (fun _ h => h) (fun _ _ h => h)
    exact fun _ _ h => .inl
      (h.mono fun source hsource => List.mem_flatMap.2 ⟨folder, hfolder, hsource⟩)
  have hstart : ∀ site, site = start → Dealt settings start.disk [] site := by
    rintro site rfl
    exact ⟨hplain, rfl, hthere, by simp⟩
  apply Brings.bind
  · exact (hloop.pre hstart).visitFolders (fun site hsite => by rw [hsite]) fun _ _ _ h => .inr h
  · exact fun count => .intro fun site h => .inr (h.2.asking (say_onlyAsks _ site))

end First

/-- What takes notes ends well only after the walk came to its end. -/
theorem annotateAll_walks (start : Site) :
    Brings (fun site => site = start) (annotateAll settings)
      (fun _ _ => (start.disk.walk start.limits.levels settings.sourceFolder).complete = true)
      fun _ _ => True := by
  have hloop : Brings (fun site => site = start)
      ((start.disk.walk start.limits.levels settings.sourceFolder).folders.foldlM (visit settings) 0)
      (fun _ _ => True) fun _ _ => True :=
    .intro fun site _ => by split <;> trivial
  apply Brings.bind
  · exact hloop.visitFolders (fun site hsite => by rw [hsite]) fun _ _ _ _ => trivial
  · exact fun count => .intro fun site h => h.1

theorem complete_walk_of_result (husual : settings.IsUsual) (hplain : site.disk.Plain)
    (hsources : site.disk.get? ["src"] ≠ none) (hindex : site.disk.get? ["rag_index"] ≠ none)
    (hload : site.services.indexLoad = .ok ()) (h : result (run settings) site = .ok ()) :
    (site.disk.walk site.limits.levels "./src").complete = true := by
  have hall := apply_eq_ok h
  rw [run_apply husual hplain hsources hindex hload] at hall
  have hwalk := (annotateAll_walks (started settings site)).of_ok rfl hall
  rw [limits_started husual hplain hsources hindex hload, husual.sourceFolder,
    (agreeBelow_started husual hplain hsources hindex hload).walk_eq
      (plain_started husual hplain hsources hindex hload) hplain isTopFolder_sources.leadsTo] at hwalk
  exact hwalk

/-- After a run in which the index was loaded and every request for notes came to notes, all
source files are settled. -/
theorem settled_after_run (husual : settings.IsUsual) (hplain : site.disk.Plain)
    (hsources : site.disk.get? ["src"] ≠ none) (hindex : site.disk.get? ["rag_index"] ≠ none)
    (hload : site.services.indexLoad = .ok ())
    (hnotes : ∀ source ∈ sources settings site,
      source.Requested settings (after (run settings) site).asked →
        (after (run settings) site).disk.get? source.notesPlace ≠ none) :
    (after (run settings) site).disk.Plain ∧
      (after (run settings) site).disk.get? ["file_notes"] ≠ none ∧
      AgreeBelow "src" (after (run settings) site).disk site.disk ∧
      ∀ source ∈ sources settings site, source.Settled (after (run settings) site).disk := by
  have hleft := after_eq_of_apply (run_apply husual hplain hsources hindex hload)
  have hmade := plain_started husual hplain hsources hindex hload
  have hfolder : (started settings site).disk.get? ["file_notes"] ≠ none := by
    rw [disk_started husual hplain hsources hindex hload, get?_withFolder (by decide)]
    split
    · simp
    · rename_i hthere
      exact fun hnone => hthere ⟨rfl, hnone⟩
  have hall := (annotateAll_deals husual hmade hfolder).after rfl
  rw [← hleft, sources_started husual hplain hsources hindex hload] at hall
  obtain ⟨source, hsource, hrequested, hmissing⟩ | h := hall
  · exact absurd hmissing (hnotes source hsource hrequested)
  · have hsame := agreeBelow_started husual hplain hsources hindex hload
    refine ⟨h.plain, h.folder, h.sources.trans hsame, fun source hsource => ?_⟩
    obtain hthere | hcontent | hrequested := h.dealt source hsource
    · exact .inl hthere
    · rw [← sources_started husual hplain hsources hindex hload] at hsource
      obtain ⟨folder, hbelow, hin⟩ := exists_folder_of_mem_sources husual hmade hsource
      exact .inr ((contentOf?_eq h.sources h.plain hmade hbelow hin).trans hcontent)
    · exact .inl (hnotes source hsource hrequested)

section Again

/-- The site is the given one, and nothing was asked for but the index. -/
structure Idle (start site : Site) : Prop where
  disk : site.disk = start.disk
  limits : site.limits = start.limits
  asked : ∀ request ∈ site.asked, request = .loadIndex "./rag_index"

variable {start : Site}

theorem Idle.spoken (h : Idle start site) {left : Site} (hleft : Spoken site left) :
    Idle start left := by
  have hasked : left.asked = site.asked := hleft.part_eq Site.asked fun _ _ => rfl
  refine ⟨?_, ?_, hasked ▸ h.asked⟩
  · exact (hleft.part_eq Site.disk fun _ _ => rfl).trans h.disk
  · exact (hleft.part_eq Site.limits fun _ _ => rfl).trans h.limits

theorem say_idles (line : String) {E : Fault → Site → Prop} :
    Brings (Idle start) (say line) (fun _ => Idle start) E :=
  .intro fun site h => h.spoken (say_onlySpeaks line site)

variable (husual : settings.IsUsual) (hplain : start.disk.Plain)

include husual hplain

theorem visit_idles {folder : Folder} (hbelow : folder.IsBelow ["src"])
    (hsettled : ∀ source ∈ sourcesIn settings start.disk folder, source.Settled start.disk)
    (count : Nat) {E : Fault → Site → Prop} :
    Brings (Idle start) (visit settings count folder) (fun _ => Idle start) E := by
  apply Brings.intro
  intro site h
  rw [visit_apply, h.disk]
  apply Brings.ends _ h
  apply Brings.foldlM fun _ _ => Idle start
  intro done source rest count hall
  have hsource : source ∈ sourcesIn settings start.disk folder := by simp [← hall]
  obtain ⟨hname, hnull⟩ := isProper_of_mem_sourcesIn hplain hbelow hsource
  apply Brings.bind (M := fun _ => Idle start)
  · apply Brings.intro
    intro site h
    have hhere : source.Settled site.disk := h.disk ▸ hsettled source hsource
    obtain ⟨hresult, hspoken⟩ :=
      annotate_settled husual.notesFolder hname (h.disk ▸ hplain) hnull hhere site.said
    rw [apply_eq_ok hresult]
    exact h.spoken hspoken
  · exact fun saved => Brings.pure fun _ h => h

theorem visitFolders_idles
    (hsettled : ∀ source ∈ sources settings start, source.Settled start.disk) :
    Brings (Idle start) (visitFolders settings.sourceFolder (visit settings) 0)
      (fun _ => Idle start) fun _ => Idle start := by
  have hloop : Brings (Idle start)
      ((start.disk.walk start.limits.levels settings.sourceFolder).folders.foldlM (visit settings) 0)
      (fun _ => Idle start) fun _ => Idle start := by
    apply Brings.foldlM fun _ _ => Idle start
    intro done folder rest count hall
    have hmem : folder ∈ (start.disk.walk start.limits.levels settings.sourceFolder).folders := by
      simp [← hall]
    apply visit_idles husual hplain
    · rw [husual.sourceFolder] at hmem
      exact isBelow_of_mem_walk hplain isTopFolder_sources.leadsTo hmem
    · exact fun source hsource => hsettled source (List.mem_flatMap.2 ⟨folder, hmem, hsource⟩)
  have hvisits := hloop.visitFolders (fun site h => by rw [h.disk, h.limits]) fun _ _ _ h => h
  exact hvisits.post fun _ _ h => h.2

/-- The folder of the notes is there and is not made again. -/
theorem prepare_idles (hfolder : start.disk.get? ["file_notes"] ≠ none) {E : Fault → Site → Prop} :
    Brings (Idle start) (prepare settings) (fun _ => Idle start) E := by
  apply Brings.intro
  intro site h
  obtain ⟨hresult, hspoken⟩ := prepare_ends husual (h.disk ▸ hplain) site.said
  have hsame : site.disk.withFolder "file_notes" = site.disk := if_neg (h.disk ▸ hfolder)
  rw [hsame] at hspoken
  rw [apply_eq_ok hresult]
  exact h.spoken hspoken

omit hplain in
theorem loadIndex_idles :
    Brings (Idle start) (loadIndex settings) (fun _ => Idle start) fun _ => Idle start := by
  apply Brings.of_after
  intro site h
  have hask : Idle start { site with asked := site.asked ++ [.loadIndex settings.indexFolder] } := by
    rw [husual.indexFolder]
    refine ⟨h.disk, h.limits, fun request hrequest => ?_⟩
    obtain hbefore | hlast := List.mem_append.1 hrequest
    · exact h.asked request hbefore
    · exact List.mem_singleton.1 hlast
  have hanswer := ofAnswer_still site.services.indexLoad
    { site with asked := site.asked ++ [.loadIndex settings.indexFolder] }
  exact hanswer ▸ hask

theorem run_idles (hfolder : start.disk.get? ["file_notes"] ≠ none)
    (hsettled : ∀ source ∈ sources settings start, source.Settled start.disk) :
    Brings (Idle start) (run settings) (fun _ => Idle start) fun _ => Idle start := by
  apply Brings.hasItem_bind
  intro found
  split
  · exact say_idles _
  · apply Brings.bind (prepare_idles husual hplain hfolder)
    intro prepared
    split
    · exact Brings.pure fun _ h => h
    · apply Brings.hasItem_bind
      intro found
      split
      · exact say_idles _
      · apply Brings.bind (say_idles _)
        intro _
        apply Brings.attempt_bind (loadIndex_idles husual)
        · intro loaded
          apply Brings.bind (say_idles _)
          intro _
          exact Brings.bind (visitFolders_idles husual hplain hsettled) fun count => say_idles _
        · exact fun fault _ => say_idles _
        · exact fun fault site _ h => h

end Again

end Docwright.Notes
