import Docwright.Proofs.Disk.Beside
import Docwright.Proofs.Disk.Growth
import Docwright.Proofs.Job.Ends
import Docwright.Proofs.Text.Utf8

/-!
# Texts and folders at a path

`text?` is the text of the file at a path, if there is a file and its bytes are
well-formed. Reading a text ends with it, or with a fault that can be caught. On
a plain disk the text depends only on the item at the place that the path leads
to.

The folders of the sources and of results are in the working folder. A folder of
results is made at the start of a run if nothing is there, and `withFolder` is the
disk with it. A name with an ending gives the path of a file in such a folder.
-/

namespace Docwright

namespace Disk

open Docwright.Path

/-- The text that bytes stand for, with unified newlines, if they are well-formed. -/
def textOf? (content : List UInt8) : Option String :=
  (Text.Utf8.decode content).toOption.map fun cs => String.ofList (Text.unifyNewlines cs)

theorem textOf?_encode (cs : List Char) :
    textOf? (Text.Utf8.encode cs) = some (String.ofList (Text.unifyNewlines cs)) := by
  rw [textOf?, Text.Utf8.decode_encode]
  rfl

/-- A file that a value was written to is empty if the value is no text, or an empty one. -/
theorem content_eq_nil_iff {value : Json.Value} (hpresent : value.isPresent = true) :
    value.content = [] ↔ value.text? = none := by
  cases value with
  | str text =>
      have hne : text ≠ "" := by simpa [Json.Value.isPresent] using hpresent
      refine ⟨fun hnil => ?_, fun htext => absurd htext (by simp [Json.Value.text?])⟩
      have hdecode : Text.Utf8.decode [] = .ok text.toList := by
        rw [← Text.Utf8.decode_encode text.toList]
        exact congrArg _ hnil.symm
      exact absurd (String.toList_eq_nil_iff.1 (Except.ok.inj hdecode).symm) hne
  | _ => exact ⟨fun _ => rfl, fun _ => rfl⟩

def text? (disk : Disk) (path : String) : Option String :=
  (disk.read? path).toOption.bind textOf?

variable {disk : Disk} {path : String} {place : Place}

theorem read?_toOption (hplain : disk.Plain) (hpath : LeadsTo path place)
    (hshort : path.utf8ByteSize < pathLimit) :
    (disk.read? path).toOption =
      match disk.get? place with
      | some (.file content) => some content
      | _ => none := by
  have hending := resolveFor_ending hplain .find hpath hshort
  unfold read? resolve
  generalize disk.resolveFor .find path = result at hending
  cases hending with
  | @item item hitem =>
      rw [hitem]
      cases item with
      | file content => rfl
      | folder => rfl
      | link target => rfl
      | locked asFolder => rfl
  | room _ hroom =>
      rw [hroom.2]
      rfl
  | failure hnone _ =>
      rw [hnone]
      rfl

theorem read?_of_file (hplain : disk.Plain) (hpath : LeadsTo path place)
    (hshort : path.utf8ByteSize < pathLimit) {content : List UInt8}
    (h : disk.get? place = some (.file content)) : disk.read? path = .ok content := by
  have hread := read?_toOption hplain hpath hshort
  rw [h] at hread
  cases hresult : disk.read? path with
  | ok found =>
      rw [hresult] at hread
      rw [Option.some.inj hread]
  | error error =>
      rw [hresult] at hread
      exact absurd hread (by simp [Except.toOption])

theorem text?_eq (hplain : disk.Plain) (hpath : LeadsTo path place)
    (hshort : path.utf8ByteSize < pathLimit) :
    disk.text? path =
      match disk.get? place with
      | some (.file content) => textOf? content
      | _ => none := by
  rw [text?, read?_toOption hplain hpath hshort]
  split
  · rfl
  · rfl

/-- A text depends only on what is at its place. -/
theorem text?_congr {other : Disk} (hplain : disk.Plain) (hother : other.Plain)
    (hpath : LeadsTo path place) (hshort : path.utf8ByteSize < pathLimit)
    (h : disk.get? place = other.get? place) : disk.text? path = other.text? path := by
  rw [text?_eq hplain hpath hshort, text?_eq hother hpath hshort, h]

theorem text?_of_not_hasItem (h : disk.hasItem path = false) : disk.text? path = none := by
  unfold hasItem at h
  unfold text? read?
  cases hresolve : disk.resolve path with
  | error error => rfl
  | ok target =>
      cases target with
      | found place item => simp [hresolve] at h
      | vacant folder name => rfl

theorem list?_of_folder (hplain : disk.Plain) (hpath : LeadsTo path place)
    (hshort : path.utf8ByteSize < pathLimit) (h : disk.get? place = some .folder) :
    disk.list? path = .ok (disk.names place) := by
  have hending := resolveFor_ending hplain .find hpath hshort
  unfold list? resolve
  generalize disk.resolveFor .find path = result at hending
  cases hending with
  | item hitem =>
      rw [h] at hitem
      rw [← Option.some.inj hitem]
  | room _ hroom => exact absurd (hroom.2.symm.trans h) (by simp)
  | failure hnone _ => exact absurd (hnone.symm.trans h) (by simp)

theorem list?_toOption (hplain : disk.Plain) (hpath : LeadsTo path place)
    (hshort : path.utf8ByteSize < pathLimit) :
    (disk.list? path).toOption =
      if disk.get? place = some .folder then some (disk.names place) else none := by
  by_cases hfolder : disk.get? place = some .folder
  · rw [list?_of_folder hplain hpath hshort hfolder, if_pos hfolder]
    rfl
  · rw [if_neg hfolder]
    have hending := resolveFor_ending hplain .find hpath hshort
    unfold list? resolve
    generalize disk.resolveFor .find path = result at hending
    cases hending with
    | @item item hitem =>
        cases item with
        | folder => exact absurd hitem hfolder
        | file content => rfl
        | link target => rfl
        | locked asFolder => cases asFolder <;> rfl
    | room _ _ => rfl
    | failure _ _ => rfl

/-- A file of that name can be written in a folder of the working folder. -/
def TakesFile (disk : Disk) (folder name : String) : Prop :=
  disk.get? [folder] = some .folder ∧ (disk.get? [folder, name]).all Item.isFile = true ∧
    name.utf8ByteSize ≤ nameLimit

instance (disk : Disk) (folder name : String) : Decidable (disk.TakesFile folder name) :=
  inferInstanceAs (Decidable (_ ∧ _ ∧ _))

theorem canHold_iff_takesFile {folder name : String} :
    disk.CanHold [folder, name] ↔ disk.TakesFile folder name := by
  constructor
  · rintro ⟨place, last, hplace, hfolder, hitem, hshort⟩
    have hsplit : [folder] ++ [name] = place ++ [last] := hplace
    obtain ⟨rfl, hlast⟩ := List.append_inj' hsplit rfl
    obtain rfl := List.singleton_inj.1 hlast
    exact ⟨hfolder, hitem, hshort⟩
  · rintro ⟨hfolder, hitem, hshort⟩
    exact ⟨[folder], name, rfl, hfolder, hitem, hshort⟩

theorem takesFile_insert {place : Place} (h : disk.CanHold place) (content : List UInt8)
    (folder name : String) :
    (disk.insert place (.file content)).TakesFile folder name ↔ disk.TakesFile folder name := by
  have hfolder : ∀ q, (disk.insert place (.file content)).get? q = some .folder ↔
      disk.get? q = some .folder := by
    intro q
    rw [get?_insert_of_canHold h]
    by_cases hq : q = place
    · rw [if_pos hq, hq]
      exact ⟨fun heq => absurd heq (by simp), fun heq => absurd h (not_canHold_of_folder heq)⟩
    · rw [if_neg hq]
  have hfile : ∀ q, ((disk.insert place (.file content)).get? q).all Item.isFile =
      (disk.get? q).all Item.isFile := by
    intro q
    rw [get?_insert_of_canHold h]
    by_cases hq : q = place
    · rw [if_pos hq, hq, h.all_isFile]
      rfl
    · rw [if_neg hq]
  unfold TakesFile
  rw [hfolder, hfile]

theorem write?_toOption (hplain : disk.Plain) {folder name : String}
    (hpath : LeadsTo path [folder, name]) (hshort : path.utf8ByteSize < pathLimit)
    (content : List UInt8) :
    (disk.write? path content).toOption =
      if disk.TakesFile folder name then some (disk.insert [folder, name] (.file content))
      else none := by
  have hwrite := write?_eq_ok_iff hplain hpath content
  simp only [canHold_iff_takesFile, hshort, true_and] at hwrite
  by_cases htakes : disk.TakesFile folder name
  · rw [if_pos htakes, (hwrite _).2 ⟨htakes, rfl⟩]
    rfl
  · rw [if_neg htakes]
    cases hresult : disk.write? path content with
    | ok changed => exact absurd ((hwrite changed).1 hresult).1 htakes
    | error error => rfl

theorem isOk_write?_iff (hplain : disk.Plain) {folder name : String}
    (hpath : LeadsTo path [folder, name]) (hshort : path.utf8ByteSize < pathLimit)
    (content : List UInt8) :
    (disk.write? path content).isOk = true ↔ disk.TakesFile folder name := by
  have hwrite := write?_eq_ok_iff hplain hpath content
  simp only [canHold_iff_takesFile, hshort, true_and] at hwrite
  cases hresult : disk.write? path content with
  | ok changed => simp [Except.isOk, Except.toBool, ((hwrite changed).1 hresult).1]
  | error error =>
      have htakes : ¬ disk.TakesFile folder name := fun htakes =>
        absurd (hresult.symm.trans ((hwrite _).2 ⟨htakes, rfl⟩)) (by simp)
      simp [Except.isOk, Except.toBool, htakes]

/-- The disk with a folder in the working folder, made if nothing of that name is
there. -/
def withFolder (disk : Disk) (name : String) : Disk :=
  if disk.get? [name] = none then disk.insert [name] .folder else disk

theorem hasRoom_top {name : String} (hshort : name.utf8ByteSize ≤ nameLimit)
    (h : disk.get? [name] = none) : disk.HasRoom [name] :=
  ⟨⟨[], name, rfl, get?_nil disk, by simp [h], hshort⟩, h⟩

theorem get?_withFolder {name : String} (hshort : name.utf8ByteSize ≤ nameLimit) (q : Place) :
    (disk.withFolder name).get? q =
      if q = [name] ∧ disk.get? [name] = none then some .folder else disk.get? q := by
  unfold withFolder
  by_cases hnone : disk.get? [name] = none
  · rw [if_pos hnone, get?_insert_of_canHold (hasRoom_top hshort hnone).1]
    simp [hnone]
  · simp [hnone]

theorem Plain.withFolder {name : String} (hplain : disk.Plain) (hname : IsName name) :
    (disk.withFolder name).Plain := by
  unfold Disk.withFolder
  split
  · rename_i hnone
    exact hplain.insert (hasRoom_top hname.short hnone).1 (by simpa using hname) (by simp)
  · exact hplain

section TopFolder

open Docwright.Job

/-- The path of a folder in the working folder. -/
structure IsTopFolder (path name : String) : Prop where
  eq_join : path = Path.join "." name
  isName : IsName name

/-- The path of a file in such a folder, without what a disk refuses in a path. -/
structure IsFilePath (path folder name : String) : Prop where
  leadsTo : LeadsTo path [folder, name]
  noNull : path.toList.any (·.toNat == 0) = false
  short : path.utf8ByteSize < pathLimit

namespace IsTopFolder

variable {path folder name ending : String} (h : IsTopFolder path folder) {site : Site}

theorem leadsTo_dot : LeadsTo "." [] := ⟨by decide, by simp⟩

include h

theorem leadsTo : LeadsTo path [folder] := by
  rw [h.eq_join]
  exact leadsTo_dot.join h.isName.isStep h.isName.noSlash

theorem parent : Path.parent path = "." := by
  rw [h.eq_join]
  exact leadsTo_dot.parent_join h.isName.noSlash

theorem base : (Path.base path).isEmpty = false := by
  rw [h.eq_join, leadsTo_dot.base_join h.isName.noSlash]
  simpa using h.isName.isStep.1

theorem noNull : path.toList.any (·.toNat == 0) = false :=
  h.leadsTo.noNull (by simpa using h.isName.noNull)

theorem utf8ByteSize_le : path.utf8ByteSize ≤ nameLimit + 2 := by
  have hshort := h.isName.short
  rw [h.eq_join, leadsTo_dot.join_eq h.isName.noSlash, String.utf8ByteSize_append,
    show ("." ++ "/").utf8ByteSize = 2 by decide]
  omega

theorem short : path.utf8ByteSize < pathLimit := by
  have hsize := h.utf8ByteSize_le
  unfold nameLimit at hsize
  unfold pathLimit
  omega

theorem isFilePath_append (hname : IsName name) (hending : IsName ending)
    (hlong : 2 < ending.length) :
    IsFilePath (Path.join path (name ++ ending)) folder (name ++ ending) := by
  have hpath := h.leadsTo.join_append hname.noSlash hending.noSlash hlong
  refine ⟨hpath, hpath.noNull ?_, ?_⟩
  · intro part hpart c hc
    rcases List.mem_append.1 hpart with hfolder | hlast
    · rw [List.mem_singleton.1 hfolder] at hc
      exact h.isName.noNull c hc
    · rw [List.mem_singleton.1 hlast, String.toList_append, List.mem_append] at hc
      exact hc.elim (hname.noNull c) (hending.noNull c)
  · have hslash : '/' ∉ (name ++ ending).toList := by
      simp [hname.noSlash, hending.noSlash]
    have hsize := h.utf8ByteSize_le
    have hfirst := hname.short
    have hlast := hending.short
    rw [h.leadsTo.join_eq hslash, String.utf8ByteSize_append, String.utf8ByteSize_append,
      String.utf8ByteSize_append, show "/".utf8ByteSize = 1 by decide]
    unfold nameLimit at *
    unfold pathLimit
    omega

theorem hasItem_eq (hplain : site.disk.Plain) :
    Job.hasItem path site = .ok (site.disk.get? [folder]).isSome site := by
  rw [hasItem_apply, h.noNull, Disk.hasItem_eq hplain h.leadsTo h.short]
  rfl

theorem makeFolders_ends (hplain : site.disk.Plain) (hnone : site.disk.get? [folder] = none) :
    Ends (makeFolders path) site (.ok ()) { site with disk := site.disk.withFolder folder } := by
  have hthere : Job.hasItem (Path.parent path) site = .ok true site := by
    rw [h.parent]
    exact hasItem_dot hplain
  have hmake := makeFolders_apply h.base (by rw [h.parent]; rfl) hthere
  have hmade : site.disk.makeFolder? path = .ok (site.disk.withFolder folder) := by
    rw [makeFolder?_eq_ok_iff hplain h.leadsTo, withFolder, if_pos hnone]
    exact ⟨h.short, hasRoom_top h.isName.short hnone, rfl⟩
  have hchange := changeDisk_apply path (fun disk => disk.makeFolder? path) site
  rw [h.noNull, hmade] at hchange
  exact .intro (hmake.trans hchange)

/-- What follows is done once there is a folder of results. -/
theorem opened (hplain : site.disk.Plain) {β : Type} (line : String) (next : Job β) :
    ∃ said,
      (Job.hasItem path >>= fun found =>
        if !found then makeFolders path >>= fun _ => say line >>= fun _ => next else next)
          site =
        next (saying { site with disk := site.disk.withFolder folder } said) := by
  rw [bind_apply, h.hasItem_eq hplain]
  dsimp only
  cases hitem : site.disk.get? [folder] with
  | some item =>
      have hsame : site.disk.withFolder folder = site.disk := by
        simp [Disk.withFolder, hitem]
      rw [hsame]
      exact ⟨site.said, rfl⟩
  | none =>
      obtain ⟨said, hmade⟩ := (h.makeFolders_ends hplain hitem).bind_eq fun _ =>
        say line >>= fun _ => next
      exact ⟨said ++ [line], hmade⟩

end IsTopFolder

variable {name : String}

theorem isTopFolder_sources : IsTopFolder "./src" "src" := ⟨by decide, isName_iff.1 (by decide)⟩

theorem leadsTo_structure : LeadsTo "./repo_structure.json" ["repo_structure.json"] :=
  ⟨by decide, by simp [IsStep]⟩

theorem isTopFolder_notes : IsTopFolder "./file_notes" "file_notes" :=
  ⟨by decide, isName_iff.1 (by decide)⟩

theorem isFilePath_notes (hname : IsName name) :
    IsFilePath (Path.join "./file_notes" (name ++ ".md")) "file_notes" (name ++ ".md") :=
  isTopFolder_notes.isFilePath_append hname (isName_iff.1 (by decide)) (by decide)

end TopFolder

end Disk

namespace Job

open Docwright.Disk
open Docwright.Path

variable {path : String} (hnull : path.toList.any (·.toNat == 0) = false) (site : Site)

include hnull

theorem readBytes_ends :
    Ends (readBytes path) site
      (match site.disk.read? path with
        | .ok content => .ok content
        | .error error => .error (.disk error path)) site := by
  have happly : readBytes path site = ofDisk path (site.disk.read? path) site := by
    unfold readBytes checkPath
    rw [hnull]
    rfl
  cases hread : site.disk.read? path with
  | ok content =>
      rw [hread] at happly
      exact .intro happly
  | error error =>
      rw [hread] at happly
      exact .fault happly

/-- Reading a text does not change the site, and if it fails that can be caught. -/
theorem attempt_readText_ends :
    ∃ r, Ends (attempt (readText path)) site (.ok r) site ∧
      r.toOption = site.disk.text? path := by
  have hbytes := readBytes_ends hnull site
  unfold Disk.text? Disk.textOf?
  cases hread : site.disk.read? path with
  | error error =>
      rw [hread] at hbytes
      refine ⟨.error (.disk error path), .attempt hbytes.bind_fault ?_, rfl⟩
      rintro fault ⟨⟩
      rfl
  | ok content =>
      rw [hread] at hbytes
      cases hdecode : Text.Utf8.decode content with
      | error error =>
          have htext : Ends (readText path) site (.error (.notText error)) site := by
            refine hbytes.bind fun said => ?_
            rw [hdecode]
            exact Ends.respoken (.throw _) rfl
          refine ⟨_, htext.attempt ?_, ?_⟩
          · rintro fault ⟨⟩
            rfl
          · simp [Except.toOption, hdecode]
      | ok cs =>
          have htext : Ends (readText path) site
              (.ok (String.ofList (Text.unifyNewlines cs))) site := by
            refine hbytes.bind fun said => ?_
            rw [hdecode]
            exact .pure
          refine ⟨_, htext.attempt (by simp), ?_⟩
          simp [Except.toOption, hdecode]

/-- So does reading a text without its ill-formed parts. -/
theorem attempt_readTextLenient_ends :
    ∃ r, Ends (attempt (readTextLenient path)) site (.ok r) site ∧
      r.toOption = (site.disk.read? path).toOption.map fun content =>
        String.ofList (Text.unifyNewlines (Text.Utf8.decodeLenient content)) := by
  have hbytes := readBytes_ends hnull site
  cases hread : site.disk.read? path with
  | error error =>
      rw [hread] at hbytes
      refine ⟨.error (.disk error path), .attempt hbytes.bind_fault ?_, rfl⟩
      rintro fault ⟨⟩
      rfl
  | ok content =>
      rw [hread] at hbytes
      have htext : Ends (readTextLenient path) site
          (.ok (String.ofList (Text.unifyNewlines (Text.Utf8.decodeLenient content)))) site :=
        hbytes.bind fun said => .pure
      exact ⟨_, htext.attempt (by simp), rfl⟩

/-- Writing a value changes the disk if it takes a file there. It succeeds if the value is
a text besides, and if it fails that can be caught. -/
theorem attempt_writeValue_ends (value : Json.Value) :
    let changed? := (site.disk.write? path value.content).toOption
    ∃ r, Ends (attempt (writeValue path value)) site (.ok r)
        { site with disk := changed?.getD site.disk } ∧
      r.toOption.isSome = (changed?.isSome && value.text?.isSome) := by
  have happly := writeValue_apply hnull value site
  cases hwrite : site.disk.write? path value.content with
  | error error =>
      rw [hwrite] at happly
      refine ⟨.error _, .attempt (.fault happly) ?_, rfl⟩
      rintro fault ⟨⟩
      rfl
  | ok changed =>
      rw [hwrite] at happly
      cases value with
      | str text => exact ⟨.ok (), .attempt (.intro happly) (by simp), rfl⟩
      | _ =>
          refine ⟨.error (.notWritten _), .attempt (.fault happly) ?_, rfl⟩
          rintro fault ⟨⟩
          rfl

theorem attempt_writeText_ends (text : String) :
    let changed? := (site.disk.write? path (Text.Utf8.encode text.toList)).toOption
    ∃ r, Ends (attempt (writeText path text)) site (.ok r)
        { site with disk := changed?.getD site.disk } ∧
      r.toOption.isSome = changed?.isSome := by
  obtain ⟨r, hends, hsome⟩ := attempt_writeValue_ends hnull site (.str text)
  exact ⟨r, hends, hsome.trans (Bool.and_true _)⟩

end Job

end Docwright
