import Docwright.Proofs.Disk.Plain
import Docwright.Proofs.Job.Course

/-!
# Disks that only grow

A scope says where folders and files may appear and which files may be rewritten.
`Grows scope before left` says that nothing else happened between two disks: what
is no file is as it was, a file has its content unless it may be rewritten, and what
is new is in the scope. The disk is plain afterwards. On the condition that
the first disk is plain this is a preorder, so a job grows the disk if its steps
do.

A write is such a step if its place is in the scope and, unless nothing is there,
may be rewritten. `Writes path` is the relation of one write at most; the
programs that look before they write are treated through it.
-/

namespace Docwright

namespace Disk

open Docwright.Path

/-- Where folders and files may appear, and which files may be rewritten. -/
structure Scope where
  folder : Place → Prop
  file : Place → Prop
  rewritable : Place → Prop

/-- Nothing was removed, and nothing outside the scope changed. -/
structure Grows (scope : Scope) (before left : Disk) : Prop where
  plain : left.Plain
  other : ∀ {place : Place} {item : Item}, before.get? place = some item → item.isFile = false →
    left.get? place = some item
  file : ∀ {place : Place} {content : List UInt8}, before.get? place = some (.file content) →
    left.get? place = some (.file content) ∨
      scope.rewritable place ∧ ∃ new, left.get? place = some (.file new)
  fresh : ∀ {place : Place}, before.get? place = none →
    left.get? place = none ∨ scope.folder place ∧ left.get? place = some .folder ∨
      scope.file place ∧ ∃ new, left.get? place = some (.file new)

def Growth (scope : Scope) (before left : Disk) : Prop :=
  before.Plain → Grows scope before left

variable {scope : Scope} {disk left : Disk}

theorem Grows.refl (hplain : disk.Plain) : Grows scope disk disk :=
  ⟨hplain, fun h _ => h, Or.inl, Or.inl⟩

theorem Grows.folder (h : Grows scope disk left) {place : Place}
    (hfolder : disk.get? place = some .folder) : left.get? place = some .folder :=
  h.other hfolder rfl

theorem Grows.exists_file (h : Grows scope disk left) {place : Place} {content : List UInt8}
    (hfile : disk.get? place = some (.file content)) :
    ∃ new, left.get? place = some (.file new) := by
  rcases h.file hfile with hsame | ⟨_, hnew⟩
  · exact ⟨content, hsame⟩
  · exact hnew

theorem Grows.trans {middle : Disk} (hfirst : Grows scope disk middle)
    (hnext : Grows scope middle left) : Grows scope disk left := by
  refine ⟨hnext.plain, fun h hitem => hnext.other (hfirst.other h hitem) hitem, ?_, ?_⟩
  · intro place content h
    rcases hfirst.file h with hsame | ⟨hplace, new, hnew⟩
    · exact hnext.file hsame
    · exact Or.inr ⟨hplace, hnext.exists_file hnew⟩
  · intro place h
    rcases hfirst.fresh h with hnone | ⟨hplace, hfolder⟩ | ⟨hplace, new, hnew⟩
    · exact hnext.fresh hnone
    · exact Or.inr (Or.inl ⟨hplace, hnext.folder hfolder⟩)
    · exact Or.inr (Or.inr ⟨hplace, hnext.exists_file hnew⟩)

instance : IsPreorder Disk (Growth scope) where
  refl _ hplain := Grows.refl hplain
  trans _ _ _ hfirst hnext hplain :=
    (hfirst hplain).trans (hnext (hfirst hplain).plain)

/-- Putting a file at a place in the scope is growth if nothing is there or what is
there may be rewritten. -/
theorem Grows.insert_file (hplain : disk.Plain) {place : Place} {content : List UInt8}
    (hhold : disk.CanHold place) (hname : ∀ name ∈ place, IsName name)
    (hscope : scope.file place) (hold : disk.get? place = none ∨ scope.rewritable place) :
    Grows scope disk (disk.insert place (.file content)) := by
  have hget := get?_insert_of_canHold hhold (.file content)
  have hself := hget place
  rw [if_pos rfl] at hself
  refine ⟨hplain.insert hhold hname (by simp), ?_, ?_, ?_⟩
  · intro q item hq hitem
    have hne : q ≠ place := by
      rintro rfl
      exact not_canHold_of_item hq hitem hhold
    rw [hget, if_neg hne, hq]
  · intro q old hq
    by_cases hne : q = place
    · subst hne
      rcases hold with hnone | hrewritable
      · exact absurd (hnone.symm.trans hq) (by simp)
      · exact Or.inr ⟨hrewritable, content, hself⟩
    · rw [hget, if_neg hne]
      exact Or.inl hq
  · intro q hq
    by_cases hne : q = place
    · subst hne
      exact Or.inr (Or.inr ⟨hscope, content, hself⟩)
    · rw [hget, if_neg hne]
      exact Or.inl hq

theorem Grows.insert_folder (hplain : disk.Plain) {place : Place} (hroom : disk.HasRoom place)
    (hname : ∀ name ∈ place, IsName name) (hscope : scope.folder place) :
    Grows scope disk (disk.insert place .folder) := by
  have hget := get?_insert_of_canHold hroom.1 .folder
  have hold : ∀ {q : Place} {item : Item}, disk.get? q = some item →
      (disk.insert place .folder).get? q = some item := by
    intro q item hq
    have hne : q ≠ place := by
      rintro rfl
      exact absurd (hroom.2.symm.trans hq) (by simp)
    rw [hget, if_neg hne, hq]
  refine ⟨hplain.insert hroom.1 hname (by simp), fun h _ => hold h, fun h => Or.inl (hold h), ?_⟩
  intro q hq
  rw [hget]
  by_cases hne : q = place
  · subst hne
    exact Or.inr (Or.inl ⟨hscope, if_pos rfl⟩)
  · rw [if_neg hne]
    exact Or.inl hq

/-- Nothing, or one write at the path. -/
def Writes (path : String) (before left : Disk) : Prop :=
  left = before ∨ (∀ c ∈ path.toList, c.toNat ≠ 0) ∧
    ∃ content, before.write? path content = .ok left

theorem Writes.get?_of_ne (hplain : disk.Plain) {path : String} {place q : Place}
    (hpath : LeadsTo path place) (h : Writes path disk left) (hq : q ≠ place) :
    left.get? q = disk.get? q := by
  rcases h with rfl | ⟨_, content, hwrite⟩
  · rfl
  · obtain ⟨_, hhold, rfl⟩ := (write?_eq_ok_iff hplain hpath content left).1 hwrite
    rw [get?_insert_of_canHold hhold, if_neg hq]

/-- A write at a path is growth if its place is in the scope and, unless the path
found nothing, may be rewritten. -/
theorem Writes.grows (hplain : disk.Plain) {path : String} {place : Place}
    (hpath : LeadsTo path place) (hscope : scope.file place)
    (hold : disk.hasItem path = false ∨ scope.rewritable place) (h : Writes path disk left) :
    Grows scope disk left := by
  rcases h with rfl | ⟨hnull, content, hwrite⟩
  · exact Grows.refl hplain
  · obtain ⟨hshort, hhold, rfl⟩ := (write?_eq_ok_iff hplain hpath content left).1 hwrite
    refine Grows.insert_file hplain hhold (hhold.isName hplain hpath hnull) hscope ?_
    rcases hold with hnothing | hrewritable
    · have hfound := hasItem_iff hplain hpath hshort
      rw [hnothing] at hfound
      left
      simpa using hfound
    · exact Or.inr hrewritable

end Disk

namespace Job

open Docwright.Disk
open Docwright.Path

variable {α β : Type} {scope : Scope} {path : String} {place : Place}

/-- The job writes at the path, at most once, and does nothing else to the disk. -/
abbrev OnlyWrites (path : String) (job : Job α) : Prop := Respects (Via Site.disk (Writes path)) job

abbrev GrowsDisk (scope : Scope) (job : Job α) : Prop :=
  Respects (Via Site.disk (Growth scope)) job

theorem changeDisk_onlyWrites (path : String) (content : List UInt8) :
    OnlyWrites path (changeDisk path (·.write? path content)) := by
  intro site
  unfold Via
  have happly := changeDisk_apply path (·.write? path content) site
  cases hnull : path.toList.any (·.toNat == 0) with
  | true =>
      rw [if_pos hnull] at happly
      rw [after_error happly]
      exact Or.inl rfl
  | false =>
      rw [hnull, if_neg (by simp)] at happly
      cases hwrite : site.disk.write? path content with
      | error error =>
          rw [hwrite] at happly
          rw [after_error happly]
          exact Or.inl rfl
      | ok changed =>
          rw [hwrite] at happly
          rw [after_ok happly]
          exact Or.inr ⟨by simpa using hnull, _, hwrite⟩

theorem writeValue_onlyWrites (path : String) (value : Json.Value) :
    OnlyWrites path (writeValue path value) := by
  rw [writeValue_eq]
  exact (changeDisk_onlyWrites path _).bind_keeps fun _ => .of_still (acceptText_still value)

theorem writeText_onlyWrites (path text : String) : OnlyWrites path (writeText path text) :=
  writeValue_onlyWrites path (.str text)

theorem Keeps.onlyWrites {job : Job α} (h : Keeps Site.disk job) : OnlyWrites path job :=
  fun site => Or.inl (h.after_eq site)

theorem Keeps.bind_onlyWrites {first : Job α} {next : α → Job β} (hfirst : Keeps Site.disk first)
    (hnext : ∀ a, OnlyWrites path (next a)) : OnlyWrites path (first >>= next) :=
  hfirst.bind_respects (fun _ => Or.inl rfl) hnext

theorem OnlyWrites.growsDisk {job : Job α} (h : OnlyWrites path job) (hpath : LeadsTo path place)
    (hscope : scope.file place) (hrewritable : scope.rewritable place) : GrowsDisk scope job :=
  fun site hplain => Writes.grows hplain hpath hscope (Or.inr hrewritable) (h site)

/-- A job that writes only where its path found nothing makes the disk grow, also
if nothing may be rewritten. -/
theorem growsDisk_unless_hasItem {next : Bool → Job α} (hfound : Keeps Site.disk (next true))
    (hmissing : OnlyWrites path (next false)) (hpath : LeadsTo path place)
    (hscope : scope.file place) : GrowsDisk scope (hasItem path >>= next) := by
  intro site hplain
  rw [after_bind_ok (hasItem_apply path site)]
  -- A path with a null character finds nothing, but then nothing is written either.
  cases hanswer : !path.toList.any (·.toNat == 0) && site.disk.hasItem path with
  | true =>
      have hkept : GrowsDisk scope (next true) := hfound.respects
      exact hkept site hplain
  | false =>
      rcases hmissing site with hsame | ⟨hnull, hwrite⟩
      · rw [hsame]
        exact Grows.refl hplain
      · have hnone : path.toList.any (·.toNat == 0) = false := by simpa using hnull
        rw [hnone, Bool.not_false, Bool.true_and] at hanswer
        exact Writes.grows hplain hpath hscope (Or.inl hanswer) (Or.inr ⟨hnull, hwrite⟩)

theorem makeFolder_growsDisk (hpath : LeadsTo path place) (hscope : scope.folder place) :
    GrowsDisk scope (makeFolder path) := by
  intro site hplain
  have happly := changeDisk_apply path (fun disk => disk.makeFolder? path) site
  by_cases hnull : path.toList.any (·.toNat == 0) = true
  · rw [if_pos hnull] at happly
    rw [makeFolder, after_error happly]
    exact Grows.refl hplain
  · rw [if_neg hnull] at happly
    cases hmake : site.disk.makeFolder? path with
    | error error =>
        rw [hmake] at happly
        rw [makeFolder, after_error happly]
        exact Grows.refl hplain
    | ok changed =>
        rw [hmake] at happly
        rw [makeFolder, after_ok happly]
        obtain ⟨_, hroom, rfl⟩ := (makeFolder?_eq_ok_iff hplain hpath changed).1 hmake
        have hname := hroom.1.isName hplain hpath (by simpa using hnull)
        exact Grows.insert_folder hplain hroom hname hscope

/-- If the folder around it is there, a folder is made without others on the way. -/
theorem makeFolders_apply {site : Site} (hbase : (Path.base path).isEmpty = false)
    (hparent : (Path.parent path).isEmpty = false)
    (hthere : hasItem (Path.parent path) site = .ok true site) :
    makeFolders path site = makeFolder path site := by
  rw [makeFolders, get_bind_apply, makeFoldersWithin]
  simp only [hbase, hparent, Bool.false_eq_true, if_false, Bool.or_self]
  rw [bind_apply, hthere]
  rfl

theorem hasItem_dot {site : Site} (hplain : site.disk.Plain) :
    hasItem "." site = .ok true site := by
  have hhere : LeadsTo "." [] := ⟨by decide, by simp⟩
  have hdot : site.disk.hasItem "." = true :=
    (hasItem_iff hplain hhere (by decide)).2 (by simp)
  rw [hasItem_apply, hdot]
  rfl

theorem makeFolders_growsDisk (hpath : LeadsTo path place) (hscope : scope.folder place)
    (hparent : Path.parent path = ".") (hbase : (Path.base path).isEmpty = false) :
    GrowsDisk scope (makeFolders path) := by
  intro site hplain
  have hthere : hasItem (Path.parent path) site = .ok true site := by
    rw [hparent]
    exact hasItem_dot hplain
  have hmake := makeFolders_apply hbase (by rw [hparent]; rfl) hthere
  rw [after, hmake]
  exact makeFolder_growsDisk hpath hscope site hplain

theorem growsDisk_disk_bind {next : Disk → Job α}
    (h : ∀ disk, disk.Plain → GrowsDisk scope (next disk)) : GrowsDisk scope (disk >>= next) := by
  intro site hplain
  have hsee : (disk : Job Disk) site = .ok site.disk site := rfl
  rw [after_bind_ok hsee]
  exact h site.disk hplain site hplain

end Job

end Docwright
