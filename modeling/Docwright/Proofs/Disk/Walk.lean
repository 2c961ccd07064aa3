import Docwright.Proofs.Disk.Names

/-!
# Where a walk goes

On a plain disk the folders of a walk are at or below the place where it starts, and
each is reached by the path that names its place. `AgreeBelow` says that two disks are
the same in one item of the working folder; then they have the same files in the
folders below it. A disk that was written to elsewhere agrees in that item.
-/

namespace Docwright

/-- What holds of every item that is no folder, and of a folder if it holds of all that is in it,
holds of every tree. -/
theorem Tree.forall_of_entries {P : Tree → Prop} (hitem : ∀ tree : Tree, tree.item ≠ .folder → P tree)
    (hfolder : ∀ entries : Entries, (∀ name inner, entries.get? name = some inner → P inner) →
      P (.folder entries)) (tree : Tree) : P tree := by
  refine @Tree.rec P (fun entries => ∀ name inner, Entries.get? name entries = some inner → P inner)
    (fun entry => P entry.2) ?_ ?_ ?_ hfolder ?_ ?_ ?_ tree
  · exact fun content => hitem _ (by simp [Tree.item])
  · exact fun target => hitem _ (by simp [Tree.item])
  · exact fun asFolder => hitem _ (by simp [Tree.item])
  · intro name inner h
    simp [Entries.get?] at h
  · rintro ⟨first, tree⟩ rest htree hrest name inner h
    rw [Entries.get?] at h
    split at h
    · exact Option.some.inj h ▸ htree
    · exact hrest name inner h
  · exact fun name tree htree => htree

namespace Disk

open Docwright.Path

/-- The folder is at or below a place, and its path names its place. -/
structure Folder.IsBelow (place : Place) (folder : Folder) : Prop where
  leadsTo : LeadsTo folder.path folder.place
  below : place <+: folder.place

section Walk

variable {disk : Disk} {path : String} {place : Place} {folder : Folder}

theorem folder?_eq (hplain : disk.Plain) (hpath : LeadsTo path place) :
    disk.folder? path =
      if path.utf8ByteSize < pathLimit ∧ disk.get? place = some .folder then some ⟨path, place⟩
      else none := by
  unfold folder? resolve
  by_cases hshort : path.utf8ByteSize < pathLimit
  · have hending := resolveFor_ending hplain .find hpath hshort
    generalize disk.resolveFor .find path = result at hending
    cases hending with
    | @item item hitem =>
        rw [hitem]
        cases item with
        | file content => simp
        | folder => simp [hshort]
        | locked asFolder => simp
        | link target => simp
    | room hplace hroom => simp [hroom.2]
    | failure hnone hroom => simp [hnone]
  · unfold resolveFor
    rw [partsOf_long hpath hshort]
    simp [hshort]

theorem folder?_eq_some (hplain : disk.Plain) (hpath : LeadsTo path place)
    (h : disk.folder? path = some folder) :
    folder = ⟨path, place⟩ ∧ disk.get? place = some .folder := by
  rw [folder?_eq hplain hpath] at h
  split at h
  · rename_i hreached
    exact ⟨(Option.some.inj h).symm, hreached.2⟩
  · exact absurd h (by simp)

theorem walkEntries_eq (levels : Option Nat) (path : String) (entries : Entries) :
    disk.walkEntries levels path entries =
      entries.map fun entry =>
        (entry.1, disk.walkTree levels (Path.join path entry.1) entry.2) := by
  induction entries with
  | nil => rfl
  | cons entry rest ih =>
      obtain ⟨name, tree⟩ := entry
      rw [walkEntries, ih]
      rfl

theorem Walk.mem_andThen {first second : Walk} (h : folder ∈ (first.andThen second).folders) :
    folder ∈ first.folders ∨ folder ∈ second.folders := by
  unfold andThen at h
  split at h
  · exact List.mem_append.1 h
  · exact Or.inl h

theorem Walk.mem_foldr_andThen {l : List (String × Walk)}
    (h : folder ∈ (l.foldr (fun entry rest => Walk.andThen entry.2 rest) {}).folders) :
    ∃ entry ∈ l, folder ∈ entry.2.folders := by
  induction l with
  | nil => exact absurd h (by simp)
  | cons entry rest ih =>
      rcases mem_andThen h with hfirst | hrest
      · exact ⟨entry, List.mem_cons_self, hfirst⟩
      · obtain ⟨other, hother, hin⟩ := ih hrest
        exact ⟨other, List.mem_cons_of_mem entry hother, hin⟩

theorem find?_entries (entries : Entries) (name : String) :
    entries.find? (fun entry => entry.1 = name) = (entries.get? name).map (name, ·) := by
  induction entries with
  | nil => rfl
  | cons entry rest ih =>
      obtain ⟨first, tree⟩ := entry
      by_cases hfirst : first = name
      · simp [Entries.get?, hfirst]
      · simp [Entries.get?, hfirst, ih]

theorem get?_of_mem_firsts {entries : Entries} {entry : String × Tree}
    (h : entry ∈ firsts entries) : Entries.get? entry.1 entries = some entry.2 := by
  have hfind := (find?_entries entries entry.1).symm.trans (find?_of_mem_firsts h)
  obtain ⟨tree, htree, hentry⟩ := Option.map_eq_some_iff.1 hfind
  rw [htree, ← hentry]

theorem mem_firsts_of_get? {entries : Entries} {name : String} {inner : Tree}
    (h : Entries.get? name entries = some inner) : (name, inner) ∈ firsts entries := by
  have hmem : (name, inner) ∈ entries := by
    have hfind := find?_entries entries name
    rw [h] at hfind
    exact List.mem_of_find?_eq_some hfind
  obtain ⟨⟨found, tree⟩, hfound, hname⟩ := exists_mem_firsts hmem
  obtain rfl : found = name := hname
  have hsame := (get?_of_mem_firsts hfound).symm.trans h
  obtain rfl := Option.some.inj hsame
  exact hfound

theorem inTurn_walkEntries (disk : Disk) (levels : Option Nat) (path : String)
    (entries : Entries) :
    Walk.inTurn (disk.walkEntries levels path entries) =
      (firsts entries).foldr
        (fun entry rest => (disk.walkTree levels (Path.join path entry.1) entry.2).andThen rest)
        {} := by
  rw [walkEntries_eq, Walk.inTurn,
    firsts_map (fun entry => disk.walkTree levels (Path.join path entry.1) entry.2),
    List.foldr_map]

theorem mem_walkEntries {levels : Option Nat} {entries : Entries}
    (h : folder ∈ (Walk.inTurn (disk.walkEntries levels path entries)).folders) :
    ∃ name inner, Entries.get? name entries = some inner ∧
      folder ∈ (disk.walkTree levels (Path.join path name) inner).folders := by
  rw [walkEntries_eq, Walk.inTurn,
    firsts_map (fun entry => disk.walkTree levels (Path.join path entry.1) entry.2)] at h
  obtain ⟨walked, hwalked, hin⟩ := Walk.mem_foldr_andThen h
  obtain ⟨⟨name, inner⟩, hentry, rfl⟩ := List.mem_map.1 hwalked
  exact ⟨name, inner, get?_of_mem_firsts hentry, hin⟩

/-- A walk from a tree visits nothing, or it enters a folder and goes on from its entries. -/
theorem walkTree_cases (disk : Disk) (levels : Option Nat) (path : String) (tree : Tree) :
    (∃ complete, disk.walkTree levels path tree = ⟨[], complete⟩) ∨
      ∃ entries top, tree = .folder entries ∧ disk.folder? path = some top ∧
        disk.walkTree levels path tree =
          .andThen ⟨[top], true⟩
            (.inTurn (disk.walkEntries (levels.map Nat.pred) path entries)) := by
  cases tree with
  | file content => exact .inl ⟨true, by rw [walkTree]⟩
  | link target =>
      rw [walkTree]
      split
      · exact .inl ⟨false, rfl⟩
      · exact .inl ⟨true, rfl⟩
  | locked asFolder =>
      rw [walkTree]
      split
      · exact .inl ⟨false, rfl⟩
      · exact .inl ⟨true, rfl⟩
  | folder entries =>
      rw [walkTree]
      split
      · exact .inl ⟨false, rfl⟩
      · cases hfolder : disk.folder? path with
        | none => exact .inl ⟨true, rfl⟩
        | some top => exact .inr ⟨entries, top, rfl, rfl, rfl⟩

theorem leadsTo_inner (hplain : disk.Plain) (hpath : LeadsTo path place) {entries : Entries}
    (htree : disk.root.at? place = some (.folder entries)) {name : String} {inner : Tree}
    (hget : Entries.get? name entries = some inner) :
    LeadsTo (Path.join path name) (place ++ [name]) ∧
      disk.root.at? (place ++ [name]) = some inner := by
  have hinner : disk.root.at? (place ++ [name]) = some inner := by
    simp [Tree.at?_append, htree, Tree.at?_cons, hget]
  have hitem : disk.get? (place ++ [name]) = some inner.item := by
    rw [get?, Tree.itemAt?, hinner, Option.map_some]
  have hname := hplain.isName hitem name (by simp)
  exact ⟨hpath.join hname.isStep hname.noSlash, hinner⟩

theorem walkTree_isBelow (hplain : disk.Plain) {levels : Option Nat} {tree : Tree}
    (hpath : LeadsTo path place) (htree : disk.root.at? place = some tree)
    (h : folder ∈ (disk.walkTree levels path tree).folders) : folder.IsBelow place := by
  induction tree using Tree.forall_of_entries generalizing levels path place with
  | hitem tree hitem =>
      obtain ⟨complete, hwalk⟩ | ⟨entries, top, rfl, -⟩ := disk.walkTree_cases levels path tree
      · exact absurd h (by simp [hwalk])
      · exact absurd rfl hitem
  | hfolder entries ih =>
      obtain ⟨complete, hwalk⟩ | ⟨entries, top, heq, hfolder, hwalk⟩ :=
        disk.walkTree_cases levels path (.folder entries)
      · exact absurd h (by simp [hwalk])
      obtain rfl := Tree.folder.inj heq
      rw [hwalk] at h
      rcases Walk.mem_andThen h with htop | hinner
      · obtain rfl := List.mem_singleton.1 htop
        obtain ⟨rfl, _⟩ := folder?_eq_some hplain hpath hfolder
        exact ⟨hpath, List.prefix_refl _⟩
      · obtain ⟨name, inner, hget, hin⟩ := mem_walkEntries hinner
        obtain ⟨hleads, hat⟩ := leadsTo_inner hplain hpath htree hget
        have hbelow := ih name inner hget hleads hat hin
        exact ⟨hbelow.leadsTo, (List.prefix_append _ _).trans hbelow.below⟩

theorem entriesAt_of_folder (h : disk.get? place = some .folder) :
    disk.root.at? place = some (.folder (disk.entriesAt place)) := by
  rw [get?, Tree.itemAt?] at h
  obtain ⟨tree, htree, hitem⟩ := Option.map_eq_some_iff.1 h
  cases tree with
  | file content => exact absurd hitem (by simp [Tree.item])
  | link target => exact absurd hitem (by simp [Tree.item])
  | locked asFolder => exact absurd hitem (by simp [Tree.item])
  | folder entries => simp [entriesAt, htree]

/-- The folders of a walk are at or below the place where it starts. -/
theorem isBelow_of_mem_walk (hplain : disk.Plain) {levels : Option Nat} (hpath : LeadsTo path place)
    (h : folder ∈ (disk.walk levels path).folders) : folder.IsBelow place := by
  unfold walk at h
  cases hfolder : disk.folder? path with
  | none => exact absurd h (by simp [hfolder])
  | some top =>
      rw [hfolder] at h
      obtain ⟨rfl, hitem⟩ := folder?_eq_some hplain hpath hfolder
      exact walkTree_isBelow hplain hpath (entriesAt_of_folder hitem) h

end Walk

/-- The path of a file in a folder of a walk holds no null character. -/
theorem Folder.IsBelow.noNull_join {disk : Disk} (hplain : disk.Plain) {place : Place}
    {folder : Folder} (hfolder : folder.IsBelow place) {name : String}
    (hname : name ∈ disk.fileNames folder) :
    (Path.join folder.path name).toList.any (·.toNat == 0) = false := by
  obtain ⟨item, hget⟩ := exists_get?_of_mem_names (List.mem_filter.1 hname).1
  have hnames := hplain.isName hget
  have hlast := hnames name (by simp)
  exact (hfolder.leadsTo.join hlast.isStep hlast.noSlash).noNull fun part hpart =>
    (hnames part hpart).noNull

/-- Two disks are the same in one item of the working folder. -/
def AgreeBelow (top : String) (disk other : Disk) : Prop :=
  disk.entries.get? top = other.entries.get? top

namespace AgreeBelow

variable {top : String} {disk other : Disk} {folder : Folder}

theorem trans {third : Disk} (h : AgreeBelow top disk other) (hnext : AgreeBelow top other third) :
    AgreeBelow top disk third := Eq.trans h hnext

theorem insert {name : String} (hname : top ≠ name) (disk : Disk) (rest : Place) (item : Item) :
    AgreeBelow top (disk.insert (name :: rest) item) disk := by
  unfold AgreeBelow Disk.insert Tree.put
  rw [Tree.entries_folder, Entries.get?_set, if_neg hname]
  rfl

theorem at?_eq (h : AgreeBelow top disk other) (rest : Place) :
    disk.root.at? (top :: rest) = other.root.at? (top :: rest) := by
  have hentries : disk.root.entries.get? top = other.root.entries.get? top := h
  rw [Tree.at?_cons, Tree.at?_cons, hentries]

theorem fileNames_eq (h : AgreeBelow top disk other) (hplain : disk.Plain)
    (hfolder : folder.IsBelow [top]) : disk.fileNames folder = other.fileNames folder := by
  obtain ⟨rest, hplace⟩ := hfolder.below
  have hentries : disk.entriesAt folder.place = other.entriesAt folder.place := by
    rw [← hplace, entriesAt, entriesAt, List.singleton_append, h.at?_eq]
  unfold fileNames names
  rw [hentries]
  refine List.filter_congr fun name _ => ?_
  unfold countsAsFolder
  rw [← hentries]
  cases hentry : (disk.entriesAt folder.place).get? name with
  | none => rfl
  | some tree =>
      cases tree with
      | file content => rfl
      | locked asFolder => rfl
      | folder entries => rfl
      | link target =>
          have hlink : disk.get? (folder.place ++ [name]) = some (.link target) := by
            rw [get?_append, hentry]
            rfl
          exact absurd hlink (hplain.noLink _ _)

end AgreeBelow

end Disk

end Docwright
