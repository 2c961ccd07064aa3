import Docwright.Proofs.Disk.Walk
import Mathlib.Data.List.Nodup

/-!
# Every file by one path

A walk comes to every folder by a path of its own, whatever links there are, and so
every file in these folders has a path that no other file has: the parts of the path
tell which names the walk went through. Only the names have to be such as an item can
have.
-/

namespace Docwright.Disk

open Docwright.Path

def Named (disk : Disk) : Prop :=
  ∀ {place : Place} {item : Item}, disk.get? place = some item → ∀ name ∈ place, IsName name

variable {disk : Disk}

theorem Plain.named (hplain : disk.Plain) : disk.Named := hplain.isName

theorem Named.insert (hnamed : disk.Named) {place : Place} (hhold : disk.CanHold place)
    (hnames : ∀ name ∈ place, IsName name) (item : Item) : (disk.insert place item).Named := by
  intro other found hfound
  rw [get?_insert_of_canHold hhold] at hfound
  by_cases hplace : other = place
  · exact hplace ▸ hnames
  · rw [if_neg hplace] at hfound
    exact hnamed hfound

theorem Named.isName_of_mem_fileNames (hnamed : disk.Named) {folder : Folder} {name : String}
    (h : name ∈ disk.fileNames folder) : IsName name := by
  obtain ⟨item, hget⟩ := exists_get?_of_mem_names (List.mem_filter.1 h).1
  exact hnamed hget name (by simp)

theorem nodup_fileNames (disk : Disk) (folder : Folder) : (disk.fileNames folder).Nodup :=
  (nodup_names disk folder.place).filter _

theorem Walk.sublist_inTurn (walks : List (String × Walk)) :
    (inTurn walks).folders.Sublist ((firsts walks).flatMap fun entry => entry.2.folders) := by
  unfold inTurn
  induction firsts walks with
  | nil => exact List.Sublist.refl _
  | cons entry rest ih =>
      rw [List.foldr_cons, List.flatMap_cons, andThen]
      split
      · exact List.Sublist.append_left ih _
      · exact List.sublist_append_left _ _

theorem exists_of_mem_firsts {levels : Option Nat} {path : String} {entries : Entries}
    {entry : String × Walk} (h : entry ∈ firsts (disk.walkEntries levels path entries)) :
    ∃ inner, Entries.get? entry.1 entries = some inner ∧
      entry.2 = disk.walkTree levels (Path.join path entry.1) inner := by
  rw [walkEntries_eq,
    firsts_map (fun entry => disk.walkTree levels (Path.join path entry.1) entry.2)] at h
  obtain ⟨⟨name, inner⟩, hentry, rfl⟩ := List.mem_map.1 h
  exact ⟨inner, get?_of_mem_firsts hentry, rfl⟩

/-- The paths of a walk go on from one that leads to the spot, and no folder is come to
twice by the same path. -/
structure Walk.StaysBelow (walk : Walk) (spot : Place) : Prop where
  leads : ∀ folder ∈ walk.folders, ∃ rest, LeadsTo folder.path (spot ++ rest)
  nodup : (walk.folders.map (parts ·.path)).Nodup

theorem Walk.staysBelow_empty (spot : Place) {complete : Bool} :
    StaysBelow ⟨[], complete⟩ spot := ⟨by simp, by simp⟩

section InTurn

variable {walks : List (String × Walk)} {spot : Place}
  (h : ∀ entry ∈ firsts walks, entry.2.StaysBelow (spot ++ [entry.1]))

include h

theorem leads_inTurn {folder : Folder} (hfolder : folder ∈ (Walk.inTurn walks).folders) :
    ∃ name rest, LeadsTo folder.path (spot ++ name :: rest) := by
  obtain ⟨entry, hentry, hmem⟩ := List.mem_flatMap.1 ((Walk.sublist_inTurn _).subset hfolder)
  obtain ⟨rest, hleads⟩ := (h entry hentry).leads folder hmem
  exact ⟨entry.1, rest, by simpa using hleads⟩

/-- Walks side by side come to no folder twice if each of them stays under its own
name. -/
theorem nodup_inTurn : ((Walk.inTurn walks).folders.map (parts ·.path)).Nodup := by
  refine List.Nodup.sublist ((Walk.sublist_inTurn walks).map _) ?_
  rw [List.map_flatMap, List.nodup_flatMap]
  refine ⟨fun entry hentry => (h entry hentry).nodup, ?_⟩
  refine List.Pairwise.imp_of_mem ?_ (pairwise_firsts walks)
  intro first second hfirst hsecond hne path hmem hmem'
  obtain ⟨folder, hfolder, rfl⟩ := List.mem_map.1 hmem
  obtain ⟨other, hother, hsame⟩ := List.mem_map.1 hmem'
  obtain ⟨rest, hrest⟩ := (h first hfirst).leads folder hfolder
  obtain ⟨rest', hrest'⟩ := (h second hsecond).leads other hother
  rw [hrest.parts_eq, hrest'.parts_eq, List.cons.injEq, List.append_assoc, List.append_assoc,
    List.append_right_inj, List.singleton_append, List.singleton_append, List.cons.injEq] at hsame
  exact hne hsame.2.1.symm

theorem staysBelow_andThen_inTurn {top : Folder} (htop : LeadsTo top.path spot) :
    (Walk.andThen ⟨[top], true⟩ (.inTurn walks)).StaysBelow spot := by
  constructor
  · intro folder hfolder
    obtain rfl | hinner := List.mem_cons.1 hfolder
    · exact ⟨[], by rwa [List.append_nil]⟩
    · obtain ⟨name, rest, hleads⟩ := leads_inTurn h hinner
      exact ⟨name :: rest, hleads⟩
  · refine List.nodup_cons.2 ⟨fun hmem => ?_, nodup_inTurn h⟩
    obtain ⟨folder, hinner, hsame⟩ := List.mem_map.1 hmem
    obtain ⟨name, rest, hleads⟩ := leads_inTurn h hinner
    have hparts : parts folder.path = parts top.path := hsame
    rw [hleads.parts_eq, htop.parts_eq] at hparts
    simp at hparts

end InTurn

theorem path_of_folder? {path : String} {top : Folder} (h : disk.folder? path = some top) :
    top.path = path := by
  unfold folder? at h
  split at h
  · rw [← Option.some.inj h]
  · exact absurd h (by simp)

theorem walkTree_staysBelow {levels : Option Nat} {tree : Tree} {path : String} {spot : Place}
    (hpath : LeadsTo path spot)
    (hnames : ∀ place inner, tree.at? place = some inner → ∀ name ∈ place, IsName name) :
    (disk.walkTree levels path tree).StaysBelow spot := by
  induction tree using Tree.forall_of_entries generalizing levels path spot with
  | hitem tree hitem =>
      obtain ⟨complete, hwalk⟩ | ⟨entries, top, rfl, -⟩ := disk.walkTree_cases levels path tree
      · exact hwalk ▸ Walk.staysBelow_empty spot
      · exact absurd rfl hitem
  | hfolder entries ih =>
      obtain ⟨complete, hwalk⟩ | ⟨entries, top, heq, hfolder, hwalk⟩ :=
        disk.walkTree_cases levels path (.folder entries)
      · exact hwalk ▸ Walk.staysBelow_empty spot
      obtain rfl := Tree.folder.inj heq
      rw [hwalk]
      refine staysBelow_andThen_inTurn (fun entry hentry => ?_) (path_of_folder? hfolder ▸ hpath)
      obtain ⟨inner, hget, hinner⟩ := exists_of_mem_firsts hentry
      have hbelow : ∀ place, (Tree.folder entries).at? (entry.1 :: place) =
          inner.at? place := fun place => by simp [Tree.at?_cons, hget]
      have hname := hnames [entry.1] inner (hbelow []) entry.1 (by simp)
      rw [hinner]
      refine ih entry.1 inner hget (hpath.join hname.isStep hname.noSlash) ?_
      intro place below h name hmem
      exact hnames (entry.1 :: place) below ((hbelow place).trans h) name
        (List.mem_cons_of_mem _ hmem)

/-- The paths of the files in the folders from a path downwards, as far as their names
are chosen. -/
def filePaths (disk : Disk) (levels : Option Nat) (chosen : String → Bool) (path : String) :
    List String :=
  (disk.walk levels path).folders.flatMap fun folder =>
    ((disk.fileNames folder).filter chosen).map (Path.join folder.path)

theorem at?_entriesAt (disk : Disk) (place rest : Place) (name : String) :
    (Tree.folder (disk.entriesAt place)).at? (name :: rest) =
      disk.root.at? (place ++ name :: rest) := by
  rw [Tree.at?_append, Tree.at?_cons, Tree.entries_folder, entriesAt]
  cases disk.root.at? place with
  | none => rfl
  | some tree => rw [Option.map_some, Option.getD_some, Option.bind_some, Tree.at?_cons]

/-- A walk comes to no folder twice by the same path, and each path goes on from the
one it starts at. -/
theorem walk_staysBelow (hnamed : disk.Named) (levels : Option Nat) {path : String} {spot : Place}
    (hpath : LeadsTo path spot) : (disk.walk levels path).StaysBelow spot := by
  unfold walk
  cases hfolder : disk.folder? path with
  | none => exact Walk.staysBelow_empty spot
  | some top =>
      refine walkTree_staysBelow hpath fun place inner h => ?_
      cases place with
      | nil => simp
      | cons name place =>
          have hget : disk.get? (top.place ++ name :: place) = some inner.item := by
            rw [get?, Tree.itemAt?, ← at?_entriesAt, h, Option.map_some]
          exact fun other hother => hnamed hget other (List.mem_append_right _ hother)

/-- No two files in the folders from a path downwards have the same path. -/
theorem nodup_filePaths (hnamed : disk.Named) (levels : Option Nat) (chosen : String → Bool)
    {path : String} {spot : Place} (hpath : LeadsTo path spot) :
    (disk.filePaths levels chosen path).Nodup := by
  obtain ⟨hleads, hnodup⟩ := walk_staysBelow hnamed levels hpath
  have hparts : ∀ folder ∈ (disk.walk levels path).folders, ∀ name ∈ disk.fileNames folder,
      parts (Path.join folder.path name) = parts folder.path ++ [name] := by
    intro folder hfolder name hname
    obtain ⟨rest, hrest⟩ := hleads folder hfolder
    have hisName := hnamed.isName_of_mem_fileNames hname
    rw [(hrest.join hisName.isStep hisName.noSlash).parts_eq, hrest.parts_eq, List.cons_append]
  rw [filePaths, List.nodup_flatMap]
  refine ⟨fun folder hfolder => ?_, ?_⟩
  · refine List.Nodup.map_on ?_ ((nodup_fileNames disk folder).filter chosen)
    intro name hname other hother hsame
    have hboth := congrArg parts hsame
    rw [hparts folder hfolder name (List.mem_filter.1 hname).1,
      hparts folder hfolder other (List.mem_filter.1 hother).1, List.append_right_inj] at hboth
    exact List.head_eq_of_cons_eq hboth
  · refine List.Pairwise.imp_of_mem ?_ (List.pairwise_map.1 hnodup)
    intro first second hfirst hsecond hne path hmem hmem'
    obtain ⟨name, hname, rfl⟩ := List.mem_map.1 hmem
    obtain ⟨other, hother, hsame⟩ := List.mem_map.1 hmem'
    have hboth := congrArg parts hsame
    rw [hparts first hfirst name (List.mem_filter.1 hname).1,
      hparts second hsecond other (List.mem_filter.1 hother).1] at hboth
    exact hne (List.append_inj_left' hboth rfl).symm

end Docwright.Disk
