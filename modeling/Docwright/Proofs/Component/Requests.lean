import Docwright.Proofs.Completion.Obtained
import Docwright.Proofs.Component.Course
import Docwright.Proofs.Component.Subjects
import Docwright.Proofs.Disk.Access

/-!
# The requests of a component run

A run takes its subjects in turn. For each it makes one request, and if that gives
a value that counts as present it opens a page for it, which is saved if the value is
a text and left empty otherwise; `Account.take` is the site after that, with the number
of pages saved so far. The notes are read where no page is written, so they are the
same at every turn: `handlePair_ends` and `handleSingle_ends` say that a turn takes
its subject.
-/

namespace Docwright.Component

open Docwright.Disk
open Docwright.Job
open Docwright.Json
open Docwright.Path

/-- The folders and extensions are the usual ones. -/
structure Settings.IsUsual (settings : Settings) : Prop where
  notesFolder : settings.notesFolder = "./file_notes"
  pageFolder : settings.pageFolder = "./intermediate_docs"
  extensions : settings.extensions = Survey.sourceExtensions

theorem isUsual (model maxTokens : Value) :
    Settings.IsUsual { model := model, maxTokens := maxTokens } :=
  ⟨rfl, rfl, rfl⟩

/-- The notes on a file of that name that can be read. -/
def notesOf? (disk : Disk) (name : String) : Option String :=
  disk.text? (Path.join "./file_notes" (name ++ ".md"))

section Places

variable {name : String} {disk : Disk}

theorem notesOf?_eq (hplain : disk.Plain) (h : IsName name) :
    notesOf? disk name =
      match disk.get? ["file_notes", name ++ ".md"] with
      | some (.file content) => textOf? content
      | _ => none :=
  text?_eq hplain (isFilePath_notes h).leadsTo (isFilePath_notes h).short

theorem isTopFolder_pages : IsTopFolder "./intermediate_docs" "intermediate_docs" :=
  ⟨by decide, isName_iff.1 (by decide)⟩

end Places

namespace Subject

def request (settings : Settings) (notes : String → Option String) (subject : Subject) : Request :=
  .write settings.model settings.maxTokens (.str (subject.prompt notes))

def IsNamed (subject : Subject) : Prop :=
  ∃ name ending, IsName name ∧ (ending = "_pair.md" ∨ ending = "_single.md") ∧
    subject.pageName = name ++ ending

def pagePath (subject : Subject) : String := Path.join "./intermediate_docs" subject.pageName

theorem IsNamed.isFilePath {subject : Subject} (h : subject.IsNamed) :
    IsFilePath subject.pagePath "intermediate_docs" subject.pageName := by
  obtain ⟨name, ending, hname, hending, heq⟩ := h
  rw [pagePath, heq]
  rcases hending with rfl | rfl
  · exact isTopFolder_pages.isFilePath_append hname (isName_iff.1 (by decide)) (by decide)
  · exact isTopFolder_pages.isFilePath_append hname (isName_iff.1 (by decide)) (by decide)

end Subject

theorem isNamed_pair {header source : String × Fields} (hpath : IsSourcePath header.1)
    (hheader : extension (base header.1) = ".h") : (Subject.pair header source).IsNamed := by
  refine ⟨stem (base header.1), "_pair.md", hpath.isName_base.stem ?_, Or.inl rfl, rfl⟩
  rw [hheader]
  decide

theorem isNamed_single {file : String × Fields} (hpath : IsSourcePath file.1) :
    (Subject.single file).IsNamed :=
  ⟨base file.1, "_single.md", hpath.isName_base, Or.inr rfl, rfl⟩

/-- What a page is opened for: it is the next value obtained, and the disk takes the
page. -/
def Subject.page? (disk : Disk) (writer : Feed WriterReply) (subject : Subject) :
    Option Value :=
  (Completion.obtained writer.head).present?.filter fun _ =>
    disk.TakesFile "intermediate_docs" subject.pageName

/-- A site, and the number of pages saved on the way to it. -/
structure Account where
  site : Site
  saved : Nat

/-- The account after the request for a page and, if one is opened, the page, which is
counted if it is a text. -/
def Account.take (settings : Settings) (notes : String → Option String) (account : Account)
    (subject : Subject) : Account :=
  let asked := Completion.requested (subject.request settings notes) account.site
  match subject.page? account.site.disk account.site.services.writer with
  | none => ⟨asked, account.saved⟩
  | some page =>
      let changed := account.site.disk.insert ["intermediate_docs", subject.pageName]
        (.file page.content)
      ⟨{ asked with disk := changed }, account.saved + page.text?.toList.length⟩

/-- A site at which a page can be asked for: the notes are those given. -/
structure Ready (notes : String → Option String) (site : Site) : Prop where
  plain : site.disk.Plain
  ordinary : site.services.writer.Ordinary
  notes : ∀ name, IsName name → notesOf? site.disk name = notes name

section Take

variable {settings : Settings} {notes : String → Option String} {account : Account}
  {subject : Subject}

theorem canHold_of_page? {disk : Disk} {writer : Feed WriterReply} {page : Value}
    (h : subject.page? disk writer = some page) :
    disk.CanHold ["intermediate_docs", subject.pageName] := by
  obtain ⟨_, htakes⟩ := Option.filter_eq_some_iff.1 h
  exact canHold_iff_takesFile.2 (of_decide_eq_true htakes)

theorem asked_take (settings : Settings) (notes : String → Option String) (account : Account)
    (subject : Subject) :
    (account.take settings notes subject).site.asked =
      account.site.asked ++ [subject.request settings notes] := by
  unfold Account.take
  dsimp only
  split
  · rfl
  · rfl

theorem writer_take (settings : Settings) (notes : String → Option String) (account : Account)
    (subject : Subject) :
    (account.take settings notes subject).site.services.writer =
      account.site.services.writer.tail := by
  unfold Account.take
  dsimp only
  split
  · rfl
  · rfl

theorem disk_take (settings : Settings) (notes : String → Option String) (account : Account)
    (subject : Subject) :
    (account.take settings notes subject).site.disk =
      (subject.page? account.site.disk account.site.services.writer).elim account.site.disk
        fun page => account.site.disk.insert ["intermediate_docs", subject.pageName]
          (.file page.content) := by
  unfold Account.take
  dsimp only
  cases subject.page? account.site.disk account.site.services.writer with
  | none => rfl
  | some page => rfl

theorem saved_take (settings : Settings) (notes : String → Option String) (account : Account)
    (subject : Subject) :
    (account.take settings notes subject).saved = account.saved +
      ((subject.page? account.site.disk account.site.services.writer).bind
        Value.text?).toList.length := by
  unfold Account.take
  dsimp only
  cases subject.page? account.site.disk account.site.services.writer with
  | none => rfl
  | some page => rfl

theorem Ready.take (h : Ready notes account.site) (hnamed : subject.IsNamed) :
    Ready notes (account.take settings notes subject).site := by
  have hordinary : (account.take settings notes subject).site.services.writer.Ordinary := by
    rw [writer_take]
    exact h.ordinary.tail
  have hdisk := disk_take settings notes account subject
  cases hpage : subject.page? account.site.disk account.site.services.writer with
  | none =>
      rw [hpage, Option.elim_none] at hdisk
      exact ⟨hdisk ▸ h.plain, hordinary, hdisk ▸ h.notes⟩
  | some page =>
      rw [hpage, Option.elim_some] at hdisk
      have hhold := canHold_of_page? hpage
      have hplain : (account.take settings notes subject).site.disk.Plain := by
        rw [hdisk]
        refine h.plain.insert hhold (hhold.isName h.plain hnamed.isFilePath.leadsTo ?_) (by simp)
        simpa using hnamed.isFilePath.noNull
      refine ⟨hplain, hordinary, fun name hname => ?_⟩
      have hplace : ["file_notes", name ++ ".md"] ≠ ["intermediate_docs", subject.pageName] := by
        simp
      rw [← h.notes name hname, notesOf?_eq hplain hname, notesOf?_eq h.plain hname, hdisk,
        get?_insert_of_canHold hhold, if_neg hplace]

theorem take_saying (settings : Settings) (notes : String → Option String) (subject : Subject)
    (site : Site) (saved : Nat) (said : List String) :
    (Account.take settings notes ⟨saying site said, saved⟩ subject).saved =
        (Account.take settings notes ⟨site, saved⟩ subject).saved ∧
      Spoken (Account.take settings notes ⟨site, saved⟩ subject).site
        (Account.take settings notes ⟨saying site said, saved⟩ subject).site := by
  unfold Account.take
  dsimp only
  split
  · exact ⟨rfl, rfl⟩
  · exact ⟨rfl, rfl⟩

end Take

section Turn

variable {settings : Settings} (husual : settings.IsUsual) {notes : String → Option String}
  {site : Site}

include husual

theorem notesOn_ends {name : String} (hname : IsName name) (site : Site) :
    Ends (notesOn settings name) site (.ok (notesOf? site.disk name)) site := by
  have hnull := (isFilePath_notes hname).noNull
  have hitem : hasItem (Path.join "./file_notes" (name ++ ".md")) site =
      .ok (site.disk.hasItem (Path.join "./file_notes" (name ++ ".md"))) site := by
    rw [hasItem_apply, hnull]
    rfl
  unfold notesOn notesOf?
  rw [husual.notesFolder]
  cases hfound : site.disk.hasItem (Path.join "./file_notes" (name ++ ".md")) with
  | false =>
      rw [text?_of_not_hasItem hfound]
      rw [hfound] at hitem
      exact Ends.bind (.intro hitem) fun said => Ends.bind (.say _) fun said => .pure
  | true =>
      rw [hfound] at hitem
      refine Ends.bind (.intro hitem) fun said => ?_
      obtain ⟨r, hread, htext⟩ := attempt_readText_ends hnull (saying site said)
      refine hread.bind fun said => ?_
      rw [show site.disk.text? _ = r.toOption from htext.symm]
      cases r with
      | ok text => exact .pure
      | error fault => exact Ends.bind (.say _) fun said => .pure

omit husual in
theorem complete_ends (settings : Settings) (prompt : Value)
    (hordinary : site.services.writer.Ordinary) (said : List String) :
    Ends (complete settings prompt) (saying site said)
      (.ok (Completion.obtained site.services.writer.head))
      (Completion.requested (.write settings.model settings.maxTokens prompt) site) := by
  have hrequest : Ends (complete settings prompt) (saying site said) _
      (Completion.requested _ (saying site said)) :=
    Completion.request_ends _ _ _ (fun _ _ _ => .pure) hordinary
  exact hrequest.respoken rfl

omit husual in
theorem save_ends {path : String} (hnull : path.toList.any (·.toNat == 0) = false)
    (progress : Progress) (word : String) (page : Value) (site : Site) :
    let changed? := (site.disk.write? path page.content).toOption
    Ends (save progress word path page) site
      (.ok { progress with
        saved := progress.saved + (changed?.bind fun _ => page.text?).toList.length })
      { site with disk := changed?.getD site.disk } := by
  intro changed?
  obtain ⟨r, hwrite, hsome⟩ := attempt_writeValue_ends hnull site page
  have hcount : ∀ made? : Option Disk, (made?.bind fun _ => page.text?).isSome =
      (made?.isSome && page.text?.isSome) := by
    intro made?
    cases made? with
    | none => rfl
    | some made => rfl
  refine hwrite.bind fun said => ?_
  rw [Option.length_toList, hcount, ← hsome]
  cases r with
  | ok done => exact Ends.bind (.say _) fun said => .pure
  | error fault => exact Ends.bind (.say _) fun said => .pure

omit husual in
/-- For a value that is obtained a page is opened if the disk takes it. -/
theorem take_of_present {subject : Subject} (hplain : site.disk.Plain) (hnamed : subject.IsNamed)
    {saved : Nat} {page : Value}
    (hpage : (Completion.obtained site.services.writer.head).present? = some page) :
    let changed? := (site.disk.write? subject.pagePath page.content).toOption
    Account.take settings notes ⟨site, saved⟩ subject =
      ⟨{ Completion.requested (subject.request settings notes) site with
          disk := changed?.getD site.disk },
        saved + (changed?.bind fun _ => page.text?).toList.length⟩ := by
  intro changed?
  have hpath := hnamed.isFilePath
  have hchanged : changed? = _ := write?_toOption hplain hpath.leadsTo hpath.short _
  rw [hchanged]
  by_cases htakes : site.disk.TakesFile "intermediate_docs" subject.pageName
  · rw [if_pos htakes]
    simp only [Account.take, Subject.page?, hpage, htakes, decide_true, Option.filter_some,
      if_true]
    rfl
  · rw [if_neg htakes]
    simp only [Account.take, Subject.page?, hpage, htakes, decide_false, Option.filter_some,
      Bool.false_eq_true, if_false]
    rfl

/-- Once a page is asked for, what is given for it is saved if it counts as present, and
the files are handled in any case. -/
theorem keep_ends {subject : Subject} (hplain : site.disk.Plain) (hnamed : subject.IsNamed)
    (handled paths : List String) (saved : Nat) (word line : String) (said : List String) :
    let asked := saying (Completion.requested (subject.request settings notes) site) said
    let account := Account.take settings notes ⟨site, saved⟩ subject
    Ends
      (match (Completion.obtained site.services.writer.head).present? with
        | some page => do
            let progress ← save ⟨handled, saved⟩ word
              (Path.join settings.pageFolder subject.pageName) page
            return progress.handle paths
        | none => do
            say line
            return Progress.handle ⟨handled, saved⟩ paths)
      asked (.ok ⟨handled ++ paths, account.saved⟩) account.site := by
  intro asked account
  have hpath : Path.join settings.pageFolder subject.pageName = subject.pagePath := by
    rw [husual.pageFolder, Subject.pagePath]
  rw [hpath]
  cases hpage : (Completion.obtained site.services.writer.head).present? with
  | none =>
      have haccount : account =
          ⟨Completion.requested (subject.request settings notes) site, saved⟩ := by
        simp only [account, Account.take, Subject.page?, hpage, Option.filter_none]
      rw [haccount]
      exact Ends.bind (.say _) fun said => .pure
  | some page =>
      have haccount : account = _ := take_of_present hplain hnamed hpage
      rw [haccount]
      have hsave := save_ends hnamed.isFilePath.noNull ⟨handled, saved⟩ word page asked
      exact hsave.bind fun said => .pure

omit husual in
theorem pairPage_ends {header source : String × Fields}
    (hordinary : site.services.writer.Ordinary) (said : List String) :
    Ends (pairPage settings header.1 source.1 (notes (base header.1)) (notes (base source.1))
        (.obj header.2) (.obj source.2)) (saying site said)
      (.ok (Completion.obtained site.services.writer.head))
      (Completion.requested ((Subject.pair header source).request settings notes) site) := by
  have houtline : ∀ fields : Fields, outlineIfPresent (.obj fields) =
      .ok (if fields.isEmpty then .unavailable else .ofFields fields) := by
    intro fields
    cases fields with
    | nil => rfl
    | cons field rest => rfl
  unfold pairPage
  rw [houtline, houtline]
  refine Ends.bind .pure fun said => ?_
  refine Ends.bind .pure fun said => ?_
  refine Ends.bind (.say _) fun said => ?_
  exact complete_ends settings _ hordinary said

theorem handlePair_ends {header source : String × Fields} (hready : Ready notes site)
    (hheader : IsName (base header.1)) (hsource : IsName (base source.1))
    (hnamed : (Subject.pair header source).IsNamed) (handled : List String) (saved : Nat) :
    let account : Account :=
      if (notes (base header.1)).isNone && (notes (base source.1)).isNone then ⟨site, saved⟩
      else Account.take settings notes ⟨site, saved⟩ (.pair header source)
    Ends (handlePair settings ⟨handled, saved⟩ header.1 source.1 (.obj header.2) (.obj source.2))
      site (.ok ⟨handled ++ [header.1, source.1], account.saved⟩) account.site := by
  intro account
  have hheaderNotes := notesOn_ends husual hheader
  have hsourceNotes := notesOn_ends husual hsource
  refine Ends.bind (.say _) fun said => ?_
  refine Ends.bind (hheaderNotes _) fun said => ?_
  refine Ends.bind (hsourceNotes _) fun said => ?_
  rw [show notesOf? (saying site _).disk (base header.1) = notes (base header.1) from
      hready.notes _ hheader,
    show notesOf? (saying (saying site _) _).disk (base source.1) = notes (base source.1) from
      hready.notes _ hsource]
  cases hnone : (notes (base header.1)).isNone && (notes (base source.1)).isNone with
  | true =>
      simp only [account, hnone, if_true]
      exact Ends.bind (.say _) fun said => .pure
  | false =>
      simp only [account, hnone, Bool.false_eq_true, if_false]
      refine Ends.bind (pairPage_ends hready.ordinary _) fun said => ?_
      exact keep_ends husual hready.plain hnamed handled _ saved _ _ said

theorem handleSingle_ends {file : String × Fields} (hready : Ready notes site)
    (hfile : IsName (base file.1)) (hnamed : (Subject.single file).IsNamed)
    (handled : List String) (saved : Nat) :
    let account : Account :=
      if (Text.nonempty? (notes (base file.1))).isSome then
        Account.take settings notes ⟨site, saved⟩ (.single file)
      else ⟨site, saved⟩
    Ends (handleSingle settings ⟨handled, saved⟩ file.1 (.obj file.2)) site
      (.ok ⟨handled ++ [file.1], account.saved⟩) account.site := by
  intro account
  refine Ends.bind (notesOn_ends husual hfile _) fun said => ?_
  rw [hready.notes _ hfile]
  cases hnotes : Text.nonempty? (notes (base file.1)) with
  | none =>
      simp only [account, hnotes, Option.isSome_none, Bool.false_eq_true, if_false]
      exact Ends.bind (.say _) fun said => .pure
  | some text =>
      have hsome : notes (base file.1) = some text := (Option.filter_eq_some_iff.1 hnotes).1
      simp only [account, hnotes, Option.isSome_some, if_true]
      have hpage : Ends (singlePage settings file.1 (some text) (.obj file.2)) (saying site said)
          (.ok (Completion.obtained site.services.writer.head))
          (Completion.requested ((Subject.single file).request settings notes) site) := by
        rw [Subject.request, Subject.prompt, hsome]
        refine Ends.bind .pure fun said => ?_
        refine Ends.bind (.say _) fun said => ?_
        exact complete_ends settings _ hready.ordinary said
      refine hpage.bind fun said => ?_
      exact keep_ends husual hready.plain hnamed handled _ saved _ _ said

end Turn

end Docwright.Component
