import Docwright.Proofs.Component.Rounds
import Mathlib.Data.Prod.Basic

/-!
# The pages of a component run

`openedPages` lists the pages that a run opens, in order, with the values they are
opened for. Those whose value is a text are saved, and the report at the end gives their
number; the others are left empty. What is then on the disk under a name is the last page
opened with it.

The name of a page is made from the name of the file or header it is about, without
the folder. Two pages of one sort have one name if the files have, and then the text of
the first is lost, also if the second is left empty: the report gives the number of texts
on the disk exactly if that does not happen (`run_reports_distinct_pages_iff`).
-/

namespace Docwright.Component

open Docwright.Disk
open Docwright.Job
open Docwright.Json
open Docwright.Path

/-- The pages that are opened, with the values they are opened for. -/
def openedPages (disk : Disk) : Feed WriterReply → List Subject → List (Subject × Value)
  | _, [] => []
  | writer, subject :: rest =>
      ((subject.page? disk writer).map (subject, ·)).toList ++ openedPages disk writer.tail rest

/-- The pages of which the text is saved. -/
def savedPages (pages : List (Subject × Value)) : List (Subject × Value) :=
  pages.filter fun page => page.2.text?.isSome

/-- The last of some pages with a name. -/
def lastPage? (name : String) (pages : List (Subject × Value)) : Option (Subject × Value) :=
  pages.reverse.find? fun page => page.1.pageName = name

section Opened

variable {settings : Settings} {notes : String → Option String}

theorem openedPages_insert {disk : Disk} {place : Place} (h : disk.CanHold place)
    (content : List UInt8) (writer : Feed WriterReply) (subjects : List Subject) :
    openedPages (disk.insert place (.file content)) writer subjects =
      openedPages disk writer subjects := by
  induction subjects generalizing writer with
  | nil => rfl
  | cons subject rest ih =>
      have hpage : subject.page? (disk.insert place (.file content)) writer =
          subject.page? disk writer := by
        unfold Subject.page?
        simp only [takesFile_insert h]
      rw [openedPages, openedPages, hpage, ih]

theorem openedPages_take (account : Account) (subject : Subject) (writer : Feed WriterReply)
    (subjects : List Subject) :
    openedPages (account.take settings notes subject).site.disk writer subjects =
      openedPages account.site.disk writer subjects := by
  rw [disk_take]
  cases hpage : subject.page? account.site.disk account.site.services.writer with
  | none => rfl
  | some page => exact openedPages_insert (canHold_of_page? hpage) _ _ _

theorem saved_foldl_take (account : Account) (subjects : List Subject) :
    (subjects.foldl (Account.take settings notes) account).saved = account.saved +
      (savedPages
        (openedPages account.site.disk account.site.services.writer subjects)).length := by
  induction subjects generalizing account with
  | nil => rfl
  | cons subject rest ih =>
      rw [List.foldl_cons, ih, openedPages_take, writer_take, saved_take, openedPages, savedPages,
        savedPages, List.filter_append, List.length_append, Nat.add_assoc]
      congr 2
      cases subject.page? account.site.disk account.site.services.writer with
      | none => rfl
      | some page =>
          cases htext : page.text? with
          | none => simp [htext]
          | some text => simp [htext]

/-- The last page of a name is what is left. -/
theorem get?_foldl_take (account : Account) (subjects : List Subject) (name : String) :
    (subjects.foldl (Account.take settings notes) account).site.disk.get?
        ["intermediate_docs", name] =
      ((lastPage? name
        (openedPages account.site.disk account.site.services.writer subjects)).map
          fun page => .file page.2.content).or
        (account.site.disk.get? ["intermediate_docs", name]) := by
  induction subjects generalizing account with
  | nil => rfl
  | cons subject rest ih =>
      rw [List.foldl_cons, ih, openedPages_take, writer_take, disk_take, openedPages]
      unfold lastPage?
      rw [List.reverse_append, List.find?_append, Option.map_or, Option.or_assoc]
      congr 1
      cases hpage : subject.page? account.site.disk account.site.services.writer with
      | none => rfl
      | some page =>
          rw [Option.elim_some, get?_insert_of_canHold (canHold_of_page? hpage)]
          by_cases hname : subject.pageName = name
          · simp [hname]
          · simp [hname, Ne.symm hname]

theorem openedPages_sublist (disk : Disk) (writer : Feed WriterReply) (subjects : List Subject) :
    ((openedPages disk writer subjects).map Prod.fst).Sublist subjects := by
  induction subjects generalizing writer with
  | nil => exact List.Sublist.refl _
  | cons subject rest ih =>
      rw [openedPages, List.map_append]
      cases subject.page? disk writer with
      | none => exact (ih writer.tail).cons subject
      | some page => exact (ih writer.tail).cons_cons subject

theorem isPresent_of_mem_openedPages {disk : Disk} {writer : Feed WriterReply}
    {subjects : List Subject} {page : Subject × Value}
    (h : page ∈ openedPages disk writer subjects) : page.2.isPresent = true := by
  induction subjects generalizing writer with
  | nil => exact absurd h (by simp [openedPages])
  | cons subject rest ih =>
      rcases List.mem_append.1 h with hhere | hrest
      · obtain ⟨value, hvalue, rfl⟩ := Option.map_eq_some_iff.1 (Option.mem_toList.1 hhere)
        obtain ⟨hpresent, _⟩ := Option.filter_eq_some_iff.1 hvalue
        exact (Value.present?_eq_some_iff.1 hpresent).2
      · exact ih hrest

end Opened

section Left

variable {name : String} {page : Subject × Value} {pages : List (Subject × Value)}

theorem lastPage?_cons (name : String) (page : Subject × Value) (pages : List (Subject × Value)) :
    lastPage? name (page :: pages) =
      (lastPage? name pages).or (if page.1.pageName = name then some page else none) := by
  unfold lastPage?
  rw [List.reverse_cons, List.find?_append]
  by_cases hname : page.1.pageName = name
  · simp [hname]
  · simp [hname]

theorem exists_lastPage? (h : name ∈ pages.map fun page => page.1.pageName) :
    ∃ page ∈ pages, lastPage? name pages = some page := by
  obtain ⟨page, hpage, rfl⟩ := List.mem_map.1 h
  cases hlast : lastPage? page.1.pageName pages with
  | none => exact absurd (List.find?_eq_none.1 hlast page (by simpa using hpage)) (by simp)
  | some last => exact ⟨last, List.mem_reverse.1 (List.mem_of_find?_eq_some hlast), rfl⟩

/-- The names under which a text is left. -/
def textNames (pages : List (Subject × Value)) : List String :=
  (pages.map fun page => page.1.pageName).dedup.filter fun name =>
    ((lastPage? name pages).bind (·.2.text?)).isSome

/-- A page in front adds a text if it has one and no later page is of its name. -/
theorem length_textNames_cons (page : Subject × Value) (pages : List (Subject × Value)) :
    (textNames (page :: pages)).length = (textNames pages).length +
      if page.1.pageName ∈ pages.map (fun page => page.1.pageName) then 0
      else page.2.text?.toList.length := by
  -- under the names of the later pages those are the last ones
  have hlater : ∀ name ∈ (pages.map fun page => page.1.pageName).dedup,
      lastPage? name (page :: pages) = lastPage? name pages := by
    intro name hname
    obtain ⟨last, _, hlast⟩ := exists_lastPage? (List.mem_dedup.1 hname)
    rw [lastPage?_cons, hlast, Option.some_or]
  have hfilter : (pages.map fun page => page.1.pageName).dedup.filter
      (fun name => ((lastPage? name (page :: pages)).bind (·.2.text?)).isSome) = textNames pages :=
    List.filter_congr fun name hname => by rw [hlater name hname]
  unfold textNames at hfilter ⊢
  rw [List.map_cons]
  split
  · next hmem => rw [List.dedup_cons_of_mem hmem, hfilter, Nat.add_zero]
  · next hmem =>
      have hnone : lastPage? page.1.pageName pages = none := by
        refine List.find?_eq_none.2 fun other hother hname => hmem ?_
        exact List.mem_map.2 ⟨other, List.mem_reverse.1 hother, by simpa using hname⟩
      rw [List.dedup_cons_of_notMem hmem, List.filter_cons, hfilter, lastPage?_cons, hnone,
        Option.none_or, if_pos rfl, Option.bind_some]
      cases page.2.text? with
      | none => simp
      | some text => simp

theorem length_savedPages_cons (page : Subject × Value) (pages : List (Subject × Value)) :
    (savedPages (page :: pages)).length =
      (savedPages pages).length + page.2.text?.toList.length := by
  unfold savedPages
  rw [List.filter_cons]
  cases page.2.text? with
  | none => simp
  | some text => simp

theorem length_textNames_le (pages : List (Subject × Value)) :
    (textNames pages).length ≤ (savedPages pages).length := by
  induction pages with
  | nil => exact Nat.le_refl _
  | cons page pages ih =>
      rw [length_textNames_cons, length_savedPages_cons]
      split
      · omega
      · omega

/-- If the earlier page is saved, the later one is told from it by the key. -/
def Spares {α : Type} (key : Subject → α) (page later : Subject × Value) : Prop :=
  page.2.text?.isSome = true → key page.1 ≠ key later.1

/-- As many texts are left as pages are saved exactly if no later page is opened under the
name of a saved one. -/
theorem length_textNames_eq_iff (pages : List (Subject × Value)) :
    (textNames pages).length = (savedPages pages).length ↔
      pages.Pairwise (Spares Subject.pageName) := by
  induction pages with
  | nil => exact ⟨fun _ => List.Pairwise.nil, fun _ => rfl⟩
  | cons page pages ih =>
      have hle := length_textNames_le pages
      have hspares : (∀ later ∈ pages, Spares Subject.pageName page later) ↔
          (page.1.pageName ∈ pages.map (fun page => page.1.pageName) → page.2.text? = none) := by
        constructor
        · intro hspared hmem
          obtain ⟨later, hlater, hname⟩ := List.mem_map.1 hmem
          by_contra htext
          exact hspared later hlater (Option.isSome_iff_ne_none.2 htext) hname.symm
        · intro hnone later hlater htext hname
          rw [hnone (List.mem_map.2 ⟨later, hlater, hname.symm⟩)] at htext
          exact absurd htext (by simp)
      rw [length_textNames_cons, length_savedPages_cons, List.pairwise_cons, hspares, ← ih]
      cases page.2.text? with
      | none => simp
      | some text =>
          split
          · next hmem => simp [hmem]; omega
          · next hmem => simp [hmem]

theorem lastPage?_eq_of_spares (hspares : pages.Pairwise (Spares Subject.pageName))
    (hpage : page ∈ savedPages pages) :
    lastPage? page.1.pageName pages = some page := by
  obtain ⟨hmem, htext⟩ := List.mem_filter.1 hpage
  clear hpage
  induction pages with
  | nil => exact absurd hmem (by simp)
  | cons first pages ih =>
      obtain ⟨hfirst, hrest⟩ := List.pairwise_cons.1 hspares
      rw [lastPage?_cons]
      rcases List.mem_cons.1 hmem with rfl | hlater
      · have hnone : lastPage? page.1.pageName pages = none := by
          refine List.find?_eq_none.2 fun later hlater hname => ?_
          exact hfirst later (List.mem_reverse.1 hlater) htext (of_decide_eq_true hname).symm
        rw [hnone, Option.none_or, if_pos rfl]
      · rw [ih hrest hlater, Option.some_or]

end Left

section Names

variable {notes : String → Option String} {listing : List (String × Fields)}

/-- Whether a page is about a pair, and the name of the file or header. -/
def Subject.label : Subject → Bool × String
  | .pair header _ => (true, base header.1)
  | .single file => (false, base file.1)

theorem append_pair_ne_append_single (name other : String) :
    name ++ "_pair.md" ≠ other ++ "_single.md" := by
  intro hsame
  have hlist := congrArg (fun text => text.toList.reverse) hsame
  simp at hlist

theorem header_of_mem_subjects {header source : String × Fields}
    (h : .pair header source ∈ subjects notes listing) : extension (base header.1) = ".h" := by
  rcases List.mem_append.1 h with hpair | hsingle
  · obtain ⟨file, _, heq⟩ := List.mem_filterMap.1 hpair
    obtain ⟨other, hother, hsubject⟩ := pair?_eq_some heq
    obtain ⟨rfl, _⟩ := Subject.pair.inj hsubject
    exact (source?_eq_some hother).1
  · obtain ⟨file, _, heq⟩ := List.mem_filterMap.1 hsingle
    exact absurd (single?_eq_some heq).2 (by simp)

/-- Two pages have one name if they are of one sort and the files are of one name. -/
theorem pageName_eq_iff {subject other : Subject} (h : subject ∈ subjects notes listing)
    (hother : other ∈ subjects notes listing) :
    subject.pageName = other.pageName ↔ subject.label = other.label := by
  cases subject with
  | pair header source =>
      cases other with
      | pair header' source' =>
          have hfirst := stem_append_extension (base header.1)
          have hnext := stem_append_extension (base header'.1)
          rw [header_of_mem_subjects h] at hfirst
          rw [header_of_mem_subjects hother] at hnext
          simp only [Subject.pageName, Subject.label, String.append_left_inj, Prod.mk.injEq,
            true_and]
          constructor
          · intro hstem
            rw [← hfirst, ← hnext, hstem]
          · intro hname
            rw [hname]
      | single file =>
          simp [Subject.pageName, Subject.label, append_pair_ne_append_single]
  | single file =>
      cases other with
      | pair header source =>
          simp [Subject.pageName, Subject.label, (append_pair_ne_append_single _ _).symm]
      | single file' =>
          simp [Subject.pageName, Subject.label, String.append_left_inj]

section Pages

variable {pages : List (Subject × Value)} (h : ∀ page ∈ pages, page.1 ∈ subjects notes listing)

include h

theorem nodup_pageName_iff :
    (pages.map fun page => page.1.pageName).Nodup ↔ (pages.map fun page => page.1.label).Nodup := by
  rw [List.Nodup, List.pairwise_map, List.Nodup, List.pairwise_map]
  exact List.Pairwise.iff_of_mem fun hpage hother =>
    not_congr (pageName_eq_iff (h _ hpage) (h _ hother))

theorem pairwise_spares_iff :
    pages.Pairwise (Spares Subject.pageName) ↔ pages.Pairwise (Spares Subject.label) :=
  List.Pairwise.iff_of_mem fun hpage hlater =>
    imp_congr_right fun _ => not_congr (pageName_eq_iff (h _ hpage) (h _ hlater))

end Pages

theorem nodup_label_subjects (hdistinct : (listing.map fun file => base file.1).Nodup) :
    ((subjects notes listing).map Subject.label).Nodup := by
  have hkind : ∀ paired : Bool, (listing.map fun file => (paired, base file.1)).Nodup := by
    intro paired
    have hnodup := hdistinct.map (Prod.mk_right_injective paired)
    rwa [List.map_map] at hnodup
  have hpairs : ((listing.filterMap (pair? notes listing)).flatMap fun subject =>
      [subject.label]).Sublist (listing.flatMap fun file => [(true, base file.1)]) := by
    refine Lists.flatMap_filterMap_sublist (fun file subject hsubject => ?_) listing
    obtain ⟨source, _, rfl⟩ := pair?_eq_some hsubject
    exact List.Sublist.refl _
  have hsingles : ((listing.filterMap (single? notes listing)).flatMap fun subject =>
      [subject.label]).Sublist (listing.flatMap fun file => [(false, base file.1)]) := by
    refine Lists.flatMap_filterMap_sublist (fun file subject hsubject => ?_) listing
    obtain ⟨_, rfl⟩ := single?_eq_some hsubject
    exact List.Sublist.refl _
  rw [← List.map_eq_flatMap, ← List.map_eq_flatMap] at hpairs hsingles
  rw [subjects, List.map_append, List.nodup_append']
  refine ⟨(hkind true).sublist hpairs, (hkind false).sublist hsingles, ?_⟩
  intro label hpair hsingle
  obtain ⟨_, _, rfl⟩ := List.mem_map.1 (hpairs.subset hpair)
  obtain ⟨_, _, heq⟩ := List.mem_map.1 (hsingles.subset hsingle)
  exact absurd heq (by simp)

end Names

def holdsText (disk : Disk) (name : String) : Bool :=
  match disk.get? ["intermediate_docs", name] with
  | some (.file content) => !content.isEmpty
  | _ => false

/-- The names under which a text is left, as the disk shows them. -/
theorem textNames_eq {disk : Disk} {pages : List (Subject × Value)}
    (hpresent : ∀ page ∈ pages, page.2.isPresent = true)
    (hview : ∀ name page, lastPage? name pages = some page →
      disk.get? ["intermediate_docs", name] = some (.file page.2.content)) :
    textNames pages =
      (pages.map fun page => page.1.pageName).dedup.filter (holdsText disk) := by
  refine List.filter_congr fun name hname => ?_
  obtain ⟨page, hpage, hlast⟩ := exists_lastPage? (List.mem_dedup.1 hname)
  rw [hlast, Option.bind_some, holdsText, hview name page hlast]
  have hempty := content_eq_nil_iff (hpresent page hpage)
  cases htext : page.2.text? with
  | none => simp [hempty.2 htext]
  | some text => simp [mt hempty.1 (by simp [htext])]

/-- A run reports the number of pages it saved, and under each name it leaves the last
one it opened. The pages it saved have as many names as they are exactly if no two of
them are of one sort and about files of one name. As many of the files that it opened
hold a text in the end exactly if no page is opened after a saved one that is of its
sort and about a file of its name; then all saved pages are left. It is so if no two
listed files have one name. -/
theorem run_reports_distinct_pages_iff (model maxTokens : Value) {site : Site}
    {listing : List (String × Fields)} (hplain : site.disk.Plain)
    (hordinary : site.services.writer.Ordinary)
    (hpaths : ∀ file ∈ listing, IsSourcePath file.1) (hdistinct : (listing.map (·.1)).Nodup)
    (hlisting : result (loadJson "./repo_structure.json") site = .ok (.obj (files listing)))
    (hnonempty : listing ≠ []) :
    let settings : Settings := { model := model, maxTokens := maxTokens }
    let left := after (run settings) site
    let opened := openedPages (prepared site).disk site.services.writer
      (subjects (notesOf? site.disk) listing)
    let saved := savedPages opened
    left.said.getLast? = some (report saved.length) ∧
      (∀ name, left.disk.get? ["intermediate_docs", name] =
        ((lastPage? name opened).map fun page => .file page.2.content).or
          ((prepared site).disk.get? ["intermediate_docs", name])) ∧
      ((saved.map fun page => page.1.pageName).dedup.length = saved.length ↔
        (saved.map fun page => page.1.label).Nodup) ∧
      (((opened.map fun page => page.1.pageName).dedup.filter (holdsText left.disk)).length =
        saved.length ↔ opened.Pairwise (Spares Subject.label)) ∧
      (opened.Pairwise (Spares Subject.label) →
        ∀ page ∈ saved, left.disk.get? ["intermediate_docs", page.1.pageName] =
          some (.file page.2.content)) ∧
      ((listing.map fun file => base file.1).Nodup → opened.Pairwise (Spares Subject.label)) := by
  intro settings left opened saved
  have husual : settings.IsUsual := isUsual _ _
  have hready : Ready (notesOf? site.disk) site := ⟨hplain, hordinary, fun _ _ => rfl⟩
  obtain ⟨said, hrun⟩ := run_takes_subjects husual hready hpaths hdistinct hlisting hnonempty
  have hleft : left = _ := after_ok hrun
  have hsaid : left.said.getLast? = some (report saved.length) := by
    rw [hleft, saying, List.getLast?_concat, saved_foldl_take]
    simp only [Nat.zero_add]
    rfl
  have hview : ∀ name, left.disk.get? ["intermediate_docs", name] =
      ((lastPage? name opened).map fun page => .file page.2.content).or
        ((prepared site).disk.get? ["intermediate_docs", name]) := by
    intro name
    rw [hleft]
    exact get?_foldl_take _ _ name
  have hlast : ∀ name page, lastPage? name opened = some page →
      left.disk.get? ["intermediate_docs", name] = some (.file page.2.content) := by
    intro name page hpage
    rw [hview, hpage, Option.map_some, Option.some_or]
  have hsublist : (opened.map Prod.fst).Sublist (subjects (notesOf? site.disk) listing) :=
    openedPages_sublist _ _ _
  have hsubjects : ∀ page ∈ opened, page.1 ∈ subjects (notesOf? site.disk) listing :=
    fun page hpage => hsublist.subset (List.mem_map_of_mem hpage)
  -- names and labels part the pages alike, since all of them are about listed files
  refine ⟨hsaid, hview, ?_, ?_, fun hspares page hpage => ?_, fun hbase => ?_⟩
  · have hnames := nodup_pageName_iff fun page (hpage : page ∈ saved) =>
      hsubjects page (List.mem_of_mem_filter hpage)
    rw [← hnames, ← Lists.length_dedup_eq_iff, List.length_map]
  · rw [← pairwise_spares_iff hsubjects, ← length_textNames_eq_iff,
      textNames_eq (fun page => isPresent_of_mem_openedPages) hlast]
  · exact hlast _ _ (lastPage?_eq_of_spares ((pairwise_spares_iff hsubjects).2 hspares) hpage)
  · have hlabels := (nodup_label_subjects hbase).sublist (hsublist.map Subject.label)
    rw [List.map_map, List.Nodup, List.pairwise_map] at hlabels
    refine hlabels.imp ?_
    intro page later hlabel _
    exact hlabel

/-- The pair and the other header have pages of different sorts, so the text of the
first is left, and the page opened for the second, which is given no text, is not
counted. -/
theorem run_reports_distinct_pages_mixed :
    let site := { mixedSite with services := Completion.writing [.str "p", .int 5] }
    let opened := openedPages (prepared site).disk site.services.writer
      (subjects (notesOf? site.disk) mixedListing)
    isPlainEntries site.disk.entries = true ∧
      (site.services.writer.after :: site.services.writer.next).all (!Feed.isInterruption ·) =
        true ∧
      (result (loadJson "./repo_structure.json") site).toOption =
        some (.obj (files mixedListing)) ∧
      opened.map (fun page => page.1.label) = [(true, "a.h"), (false, "a.h")] ∧
      (after (run {}) site).said.getLast? = some (report 1) ∧
      (after (run {}) site).disk.get? ["intermediate_docs", "a_pair.md"] = some (.file [112]) ∧
      (after (run {}) site).disk.get? ["intermediate_docs", "a.h_single.md"] =
        some (.file []) := by
  intro site opened
  have hplain : isPlainEntries site.disk.entries = true := by decide +kernel
  have hordinary : (site.services.writer.after :: site.services.writer.next).all
      (!Feed.isInterruption ·) = true := by decide +kernel
  have hlisting : (result (loadJson "./repo_structure.json") site).toOption =
      some (.obj (files mixedListing)) := loadJson_mixedSite rfl
  have hopened : opened.map (fun page => page.1.label) = [(true, "a.h"), (false, "a.h")] := by
    decide +kernel
  obtain ⟨hsaid, hview, -⟩ := run_reports_distinct_pages_iff (.str Completion.modelName)
    (.int 4000) (plain_of_isPlain hplain) (Feed.ordinary_of_not_isInterruption hordinary)
    isSourcePath_mixedListing (by decide +kernel) (result_eq_ok hlisting) (by simp [mixedListing])
  have hpair : (lastPage? "a_pair.md" opened).map (fun page => Item.file page.2.content) =
      some (.file [112]) := by decide +kernel
  have hsingle : (lastPage? "a.h_single.md" opened).map (fun page => Item.file page.2.content) =
      some (.file []) := by decide +kernel
  refine ⟨hplain, hordinary, hlisting, hopened, hsaid, ?_, ?_⟩
  · exact (hview "a_pair.md").trans (by rw [hpair, Option.some_or])
  · exact (hview "a.h_single.md").trans (by rw [hsingle, Option.some_or])

/-- A site with two source files of one name and notes for it, after a survey. -/
def twinSite : Site :=
  after (Survey.run {})
    { disk :=
        ⟨[("src", .folder
            [("x", .folder [("a.h", .file [120])]), ("y", .folder [("a.h", .file [121])])]),
          ("file_notes", .folder [("a.h.md", .file [110])])]⟩
      services := Completion.writing [.str "p", .str "q"]
      limits := .ample }

def twinFiles : List (String × Fields) :=
  [("./src/x/a.h", Survey.emptyLists ++ [("error", .str "")]),
    ("./src/y/a.h", Survey.emptyLists ++ [("error", .str "")])]

theorem isSourcePath_twinFiles : ∀ file ∈ twinFiles, IsSourcePath file.1 := by
  have hy : LeadsTo "./src/y" ["src", "y"] := ⟨by decide, by simp [IsStep]⟩
  intro file hfile
  simp only [twinFiles, List.mem_cons, List.not_mem_nil, or_false] at hfile
  rcases hfile with rfl | rfl
  · exact ⟨"./src/x", ["x"], "a.h", leadsTo_innerSources, isName_iff.1 (by decide), by decide⟩
  · exact ⟨"./src/y", ["y"], "a.h", hy, isName_iff.1 (by decide), by decide⟩

theorem listing_twinSite :
    result (loadJson "./repo_structure.json") twinSite = .ok (.obj (files twinFiles)) := by
  refine (Survey.loadJson_after_run ?_ ?_ ?_ ?_ ?_ ?_ ?_
    (show twinSite.disk = (after (Survey.run {}) _).disk from rfl)).trans ?_
  · exact plain_of_isPlain (by decide +kernel)
  · rfl
  · rfl
  · exact Survey.not_interrupts (by decide +kernel)
  · exact (hasRoom_top (by decide) rfl).1
  · decide +kernel
  · decide +kernel
  · refine congrArg Except.ok ?_
    decide +kernel

/-- Two pages are reported, and one is left: the page on the second file has replaced
the page on the first. -/
theorem run_overwrites_page :
    (result (run {}) twinSite).toOption = some () ∧
      (after (run {}) twinSite).said.getLast? = some (report 2) ∧
      (after (run {}) twinSite).disk.names ["intermediate_docs"] = ["a.h_single.md"] ∧
      (after (run {}) twinSite).disk.get? ["intermediate_docs", "a.h_single.md"] =
        some (.file [113]) := by
  have husual : ({} : Settings).IsUsual := isUsual _ _
  have hready : Ready (notesOf? twinSite.disk) twinSite :=
    ⟨plain_of_isPlain (by decide +kernel),
      Feed.ordinary_of_not_isInterruption (by decide +kernel), fun _ _ => rfl⟩
  have htaken : ((subjects (notesOf? twinSite.disk) twinFiles).foldl
      (Account.take {} (notesOf? twinSite.disk)) ⟨prepared twinSite, 0⟩).saved = 2 ∧
      ((subjects (notesOf? twinSite.disk) twinFiles).foldl
        (Account.take {} (notesOf? twinSite.disk)) ⟨prepared twinSite, 0⟩).site.disk.names
          ["intermediate_docs"] = ["a.h_single.md"] ∧
      ((subjects (notesOf? twinSite.disk) twinFiles).foldl
        (Account.take {} (notesOf? twinSite.disk)) ⟨prepared twinSite, 0⟩).site.disk.get?
          ["intermediate_docs", "a.h_single.md"] = some (.file [113]) := by
    decide +kernel
  obtain ⟨said, hrun⟩ := run_takes_subjects husual hready isSourcePath_twinFiles
    (by decide +kernel) listing_twinSite (by simp [twinFiles])
  rw [result_ok hrun, after_ok hrun]
  have hdisk : ∀ site lines, (saying site lines).disk = site.disk := fun _ _ => rfl
  refine ⟨rfl, ?_, ?_⟩
  · rw [saying, List.getLast?_concat, htaken.1]
  · rw [hdisk]
    exact htaken.2

end Docwright.Component
