import Docwright.Proofs.Disk.Access
import Docwright.Proofs.Disk.Walk
import Mathlib.Data.List.Basic

/-!
# How deep a walk goes

On a plain disk a walk that is bound to a number of levels breaks off exactly if there is
a folder one level further down, and every folder above that one can be reached by its
path. A walk that is not bound comes to its end. What a walk comes to depends only on what
is below the place where it starts.
-/

namespace Docwright.Disk

open Docwright.Path

variable {disk other : Disk} {path : String} {place : Place} {levels : Option Nat}

/-- There is a folder that many levels below a place, which may be locked, and every folder
from the place down to it has a path that is not too long. -/
def GoesDown (disk : Disk) (depth : Nat) (path : String) (place : Place) : Prop :=
  ∃ names : Place, names.length = depth ∧
    (disk.get? (place ++ names)).any Item.isFolder = true ∧
    ∀ n < depth, ((names.take n).foldl Path.join path).utf8ByteSize < pathLimit

/-- There is a folder further down below a place than a walk may go. -/
def GoesBeyond (disk : Disk) (levels : Option Nat) (path : String) (place : Place) : Prop :=
  ∃ limit, levels = some limit ∧ disk.GoesDown (limit + 1) path place

/-- To go down one level more is to go down from an inner folder. -/
theorem goesDown_succ {depth : Nat} :
    disk.GoesDown (depth + 1) path place ↔
      path.utf8ByteSize < pathLimit ∧
        ∃ name, disk.GoesDown depth (Path.join path name) (place ++ [name]) := by
  constructor
  · rintro ⟨names, hlength, hfolder, hshort⟩
    cases names with
    | nil => exact absurd hlength (by simp)
    | cons name names =>
        refine ⟨hshort 0 (Nat.succ_pos depth), name, names, Nat.succ.inj hlength, ?_, ?_⟩
        · rw [List.append_assoc]
          exact hfolder
        · exact fun n hn => hshort (n + 1) (Nat.succ_lt_succ hn)
  · rintro ⟨hpath, name, names, hlength, hfolder, hshort⟩
    refine ⟨name :: names, congrArg Nat.succ hlength, ?_, ?_⟩
    · rw [List.append_assoc] at hfolder
      exact hfolder
    · intro n hn
      cases n with
      | zero => exact hpath
      | succ n => exact hshort n (Nat.lt_of_succ_lt_succ hn)

theorem GoesDown.folder {depth : Nat} (h : disk.GoesDown (depth + 1) path place) :
    disk.get? place = some .folder := by
  obtain ⟨names, hlength, hfolder, -⟩ := h
  obtain ⟨item, hitem, -⟩ := (Option.any_eq_true _ _).1 hfolder
  cases names with
  | nil => exact absurd hlength (by simp)
  | cons name names => exact get?_folder_of_append_cons hitem

/-- There is a folder to go down from, or just one that is locked. -/
theorem GoesDown.isFolder {depth : Nat} (h : disk.GoesDown depth path place) :
    (disk.get? place).any Item.isFolder = true := by
  cases depth with
  | zero =>
      obtain ⟨names, hlength, hfolder, -⟩ := h
      rw [List.length_eq_zero_iff.1 hlength, List.append_nil] at hfolder
      exact hfolder
  | succ depth =>
      rw [h.folder]
      rfl

theorem complete_foldr_andThen {α : Type} (f : α → Walk) (l : List α) :
    (l.foldr (fun a rest => (f a).andThen rest) {}).complete = true ↔
      ∀ a ∈ l, (f a).complete = true := by
  induction l with
  | nil => simp
  | cons a rest ih =>
      rw [List.foldr_cons, List.forall_mem_cons, ← ih, Walk.andThen]
      split
      · rename_i hfirst
        simp [hfirst]
      · rename_i hfirst
        simp [hfirst]

theorem complete_walkEntries (disk : Disk) (levels : Option Nat) (path : String)
    (entries : Entries) :
    (Walk.inTurn (disk.walkEntries levels path entries)).complete = true ↔
      ∀ name inner, Entries.get? name entries = some inner →
        (disk.walkTree levels (Path.join path name) inner).complete = true := by
  rw [inTurn_walkEntries, complete_foldr_andThen]
  constructor
  · exact fun h name inner hget => h _ (mem_firsts_of_get? hget)
  · exact fun h entry hentry => h entry.1 entry.2 (get?_of_mem_firsts hentry)

/-- A walk that may enter a folder breaks off if it does in one of the entries. -/
theorem complete_walkTree_folder (hlevels : levels ≠ some 0) (path : String) (entries : Entries) :
    (disk.walkTree levels path (.folder entries)).complete = true ↔
      (disk.folder? path ≠ none → ∀ name inner, Entries.get? name entries = some inner →
        (disk.walkTree (levels.map Nat.pred) (Path.join path name) inner).complete = true) := by
  rw [walkTree, if_neg hlevels, ← complete_walkEntries]
  cases disk.folder? path with
  | none => simp
  | some top => simp [Walk.andThen]

theorem Walk.mem_foldr_of_complete {α : Type} {f : α → Walk} {l : List α} {a : α} {folder : Folder}
    (h : (l.foldr (fun a rest => (f a).andThen rest) {}).complete = true) (ha : a ∈ l)
    (hfolder : folder ∈ (f a).folders) :
    folder ∈ (l.foldr (fun a rest => (f a).andThen rest) {}).folders := by
  induction l with
  | nil => exact absurd ha List.not_mem_nil
  | cons first rest ih =>
      have hall := (complete_foldr_andThen f (first :: rest)).1 h
      have hfirst : (f first).complete = true := hall first List.mem_cons_self
      have hrest : (rest.foldr (fun a rest => (f a).andThen rest) {}).complete = true :=
        (complete_foldr_andThen f rest).2 fun b hb => hall b (List.mem_cons_of_mem first hb)
      rw [List.foldr_cons, andThen, if_pos hfirst]
      obtain rfl | hin := List.mem_cons.1 ha
      · exact List.mem_append_left _ hfolder
      · exact List.mem_append_right _ (ih hrest hin)

/-- A walk that came to its end visited every folder that a walk with any other number of levels
visits. -/
theorem walkTree_subset {more : Option Nat} {tree : Tree}
    (h : (disk.walkTree more path tree).complete = true) :
    (disk.walkTree levels path tree).folders ⊆ (disk.walkTree more path tree).folders := by
  induction tree using Tree.forall_of_entries generalizing levels more path with
  | hitem tree hitem =>
      obtain ⟨complete, hwalk⟩ | ⟨entries, top, rfl, -⟩ := walkTree_cases disk levels path tree
      · simp [hwalk]
      · exact absurd rfl hitem
  | hfolder entries ih =>
      have hmore : more ≠ some 0 := by
        rintro rfl
        simp [walkTree] at h
      obtain ⟨complete, hwalk⟩ | ⟨_, top, hsame, htop, hwalk⟩ :=
        walkTree_cases disk levels path (.folder entries)
      · simp [hwalk]
      · obtain rfl := Tree.folder.inj hsame
        have hinner := (complete_walkTree_folder hmore path _).1 h (by simp [htop])
        intro folder hfolder
        rw [hwalk] at hfolder
        rw [walkTree, if_neg hmore, htop]
        obtain hfirst | hrest := Walk.mem_andThen hfolder
        · exact List.mem_append_left _ hfirst
        · obtain ⟨name, inner, hget, hin⟩ := mem_walkEntries hrest
          refine List.mem_append_right _ ?_
          have hcomplete := (complete_walkEntries disk _ path _).2 hinner
          rw [inTurn_walkEntries] at hcomplete ⊢
          exact Walk.mem_foldr_of_complete hcomplete (mem_firsts_of_get? hget)
            (ih name inner hget (hinner name inner hget) hin)

theorem walk_subset {more : Option Nat} (h : (disk.walk more path).complete = true) :
    (disk.walk levels path).folders ⊆ (disk.walk more path).folders := by
  unfold walk at h ⊢
  cases hfolder : disk.folder? path with
  | none => exact List.Subset.refl _
  | some top =>
      rw [hfolder] at h
      exact walkTree_subset h

section Tree

variable {tree : Tree} (hplain : disk.Plain)

include hplain

theorem walkTree_congr (hother : other.Plain) (levels : Option Nat) (hpath : LeadsTo path place)
    (htree : disk.root.at? place = some tree)
    (hsame : ∀ rest, disk.get? (place ++ rest) = other.get? (place ++ rest)) :
    disk.walkTree levels path tree = other.walkTree levels path tree := by
  induction tree using Tree.forall_of_entries generalizing levels path place with
  | hitem tree hitem =>
      cases tree with
      | file content => rw [walkTree, walkTree]
      | locked asFolder => rw [walkTree, walkTree]
      | folder entries => exact absurd rfl hitem
      | link target =>
          have hlink : disk.get? place = some (.link target) := by
            rw [get?, Tree.itemAt?, htree]
            rfl
          exact absurd hlink (hplain.noLink place target)
  | hfolder entries ih =>
      have hitem : disk.get? place = other.get? place := by simpa using hsame []
      have hinner : ∀ entry ∈ firsts entries,
          disk.walkTree (levels.map Nat.pred) (Path.join path entry.1) entry.2 =
            other.walkTree (levels.map Nat.pred) (Path.join path entry.1) entry.2 := by
        intro entry hentry
        have hget := get?_of_mem_firsts hentry
        obtain ⟨hleads, hat⟩ := leadsTo_inner hplain hpath htree hget
        apply ih entry.1 entry.2 hget _ hleads hat
        intro rest
        rw [List.append_assoc]
        exact hsame _
      have hentries : Walk.inTurn (disk.walkEntries (levels.map Nat.pred) path entries) =
          Walk.inTurn (other.walkEntries (levels.map Nat.pred) path entries) := by
        rw [inTurn_walkEntries, inTurn_walkEntries]
        apply List.foldr_ext
        intro entry hentry rest
        rw [hinner entry hentry]
      rw [walkTree, walkTree, folder?_eq hplain hpath, folder?_eq hother hpath, hitem, hentries]

theorem complete_walkTree_of_item (hitem : tree.item ≠ .folder)
    (htree : disk.root.at? place = some tree) :
    (disk.walkTree levels path tree).complete = true ↔
      ∀ depth, levels = some depth → ¬ disk.GoesDown depth path place := by
  have hplace : disk.get? place = some tree.item := by
    rw [get?, Tree.itemAt?, htree]
    rfl
  have hzero : ∀ depth, disk.GoesDown depth path place → depth = 0 := by
    intro depth hdown
    cases depth with
    | zero => rfl
    | succ depth => exact absurd (Option.some.inj (hplace.symm.trans hdown.folder)) hitem
  have hdown : disk.GoesDown 0 path place ↔ tree.item.isFolder = true := by
    simp [GoesDown, hplace]
  have hwalk : (disk.walkTree levels path tree).complete = false ↔
      levels = some 0 ∧ tree.item.isFolder = true := by
    cases tree with
    | file content => simp [walkTree, Tree.item, Item.isFolder]
    | link target => exact absurd hplace (hplain.noLink place target)
    | locked asFolder =>
        rw [walkTree]
        split
        · rename_i hends
          simpa [Tree.item, Item.isFolder] using hends
        · rename_i hends
          simpa [Tree.item, Item.isFolder] using hends
    | folder entries => exact absurd rfl hitem
  rw [← Bool.not_eq_false, hwalk, ← hdown, not_and]
  constructor
  · intro h depth hlevels hgoes
    obtain rfl := hzero depth hgoes
    exact h hlevels hgoes
  · exact fun h hlevels => h 0 hlevels

/-- A walk breaks off if there is a folder so many levels down as it may go. -/
theorem complete_walkTree_iff (levels : Option Nat) (hpath : LeadsTo path place)
    (htree : disk.root.at? place = some tree) :
    (disk.walkTree levels path tree).complete = true ↔
      ∀ depth, levels = some depth → ¬ disk.GoesDown depth path place := by
  -- both sides go down into the entries with one level less
  induction tree using Tree.forall_of_entries generalizing levels path place with
  | hitem tree hitem => exact complete_walkTree_of_item hplain hitem htree
  | hfolder entries ih =>
      have hfolder : disk.get? place = some .folder := by
        rw [get?, Tree.itemAt?, htree]
        rfl
      by_cases hlevels : levels = some 0
      · rw [walkTree, if_pos hlevels]
        have hdown : disk.GoesDown 0 path place := by simp [GoesDown, hfolder, Item.isFolder]
        simpa [hlevels] using hdown
      rw [complete_walkTree_folder hlevels, folder?_eq hplain hpath]
      have hpred : ∀ depth, levels.map Nat.pred = some depth ↔ levels = some (depth + 1) := by
        intro depth
        cases levels with
        | none => simp
        | some limit =>
            cases limit with
            | zero => exact absurd rfl hlevels
            | succ limit => simp
      constructor
      · intro h depth hdepth hgoes
        cases depth with
        | zero => exact hlevels hdepth
        | succ depth =>
            obtain ⟨hshort, name, hinner⟩ := goesDown_succ.1 hgoes
            obtain ⟨item, hitem, -⟩ := (Option.any_eq_true _ _).1 hinner.isFolder
            rw [get?_append, entriesAt, htree] at hitem
            obtain ⟨inner, hget, -⟩ := Option.map_eq_some_iff.1 hitem
            obtain ⟨hleads, hat⟩ := leadsTo_inner hplain hpath htree hget
            have hcomplete := h (by simp [hshort, hfolder]) name inner hget
            exact (ih name inner hget _ hleads hat).1 hcomplete depth ((hpred depth).2 hdepth) hinner
      · intro h hreached name inner hget
        have hshort : path.utf8ByteSize < pathLimit := by
          by_contra hlong
          simp [hlong] at hreached
        obtain ⟨hleads, hat⟩ := leadsTo_inner hplain hpath htree hget
        refine (ih name inner hget _ hleads hat).2 fun depth hdepth hgoes => ?_
        exact h (depth + 1) ((hpred depth).1 hdepth) (goesDown_succ.2 ⟨hshort, name, hgoes⟩)

end Tree

/-- A walk from a path is complete unless it would have to go down too far. -/
theorem complete_walk_iff (hplain : disk.Plain) (hpath : LeadsTo path place) :
    (disk.walk levels path).complete = true ↔ ¬ disk.GoesBeyond levels path place := by
  rw [walk, folder?_eq hplain hpath]
  by_cases hfolder : path.utf8ByteSize < pathLimit ∧ disk.get? place = some .folder
  · rw [if_pos hfolder]
    have hwalk := complete_walkTree_iff hplain (levels.map Nat.succ) hpath
      (entriesAt_of_folder hfolder.2)
    rw [hwalk, GoesBeyond]
    cases levels with
    | none => simp
    | some limit => simp
  · rw [if_neg hfolder]
    have hbeyond : ¬ disk.GoesBeyond levels path place := by
      rintro ⟨limit, -, hdown⟩
      exact hfolder ⟨(goesDown_succ.1 hdown).1, hdown.folder⟩
    simpa using hbeyond

theorem mem_walk_top (levels : Option Nat) {top : Folder} (h : disk.folder? path = some top) :
    top ∈ (disk.walk levels path).folders := by
  cases levels with
  | none => simp [walk, h, walkTree, Walk.andThen]
  | some limit => simp [walk, h, walkTree, Walk.andThen]

namespace AgreeBelow

variable {top : String}

theorem get?_eq (h : AgreeBelow top disk other) (rest : Place) :
    disk.get? (top :: rest) = other.get? (top :: rest) := by
  rw [get?, get?, Tree.itemAt?, Tree.itemAt?, h.at?_eq]

theorem withFolder {name : String} (hname : top ≠ name) (disk : Disk) :
    AgreeBelow top (disk.withFolder name) disk := by
  unfold Disk.withFolder
  split
  · exact AgreeBelow.insert hname disk [] _
  · rfl

theorem read?_eq (h : AgreeBelow top disk other) (hplain : disk.Plain) (hother : other.Plain)
    {rest : Place} (hpath : LeadsTo path (top :: rest)) :
    (disk.read? path).toOption = (other.read? path).toOption := by
  by_cases hshort : path.utf8ByteSize < pathLimit
  · rw [read?_toOption hplain hpath hshort, read?_toOption hother hpath hshort, h.get?_eq]
  · unfold read? resolve resolveFor
    rw [partsOf_long hpath hshort]

/-- What a walk comes to depends only on what is below the item where it starts. -/
theorem walk_eq (h : AgreeBelow top disk other) (hplain : disk.Plain) (hother : other.Plain)
    (hpath : LeadsTo path [top]) : disk.walk levels path = other.walk levels path := by
  have hitem := h.get?_eq []
  have hentries : disk.entriesAt [top] = other.entriesAt [top] := by
    rw [entriesAt, entriesAt, h.at?_eq]
  rw [walk, walk, folder?_eq hplain hpath, folder?_eq hother hpath, ← hitem]
  by_cases hfolder : path.utf8ByteSize < pathLimit ∧ disk.get? [top] = some .folder
  · rw [if_pos hfolder]
    dsimp only
    rw [← hentries]
    exact walkTree_congr hplain hother _ hpath (entriesAt_of_folder hfolder.2) h.get?_eq
  · rw [if_neg hfolder]

end AgreeBelow

section Nested

/-- A folder that holds a folder, that many levels down. -/
def nested : Nat → Tree
  | 0 => .folder []
  | n + 1 => .folder [("a", nested n)]

theorem isPlainTree_nested (n : Nat) : isPlainTree (nested n) = true := by
  induction n with
  | zero => rfl
  | succ n ih =>
      have hname : isName "a" = true := by decide
      simp [nested, isPlainTree, isPlainEntries, hname, ih]

theorem length_le_of_nested {n : Nat} {names : Place} {item : Item}
    (h : (nested n).itemAt? names = some item) : names.length ≤ n := by
  induction n generalizing names with
  | zero =>
      cases names with
      | nil => exact Nat.le_refl 0
      | cons name names => exact absurd h (by simp [nested, Tree.itemAt?_cons, Entries.get?])
  | succ n ih =>
      cases names with
      | nil => exact Nat.zero_le _
      | cons name names =>
          by_cases hname : name = "a"
          · subst hname
            exact Nat.succ_le_succ (ih (by simpa [nested, Tree.itemAt?_cons, Entries.get?] using h))
          · have hother : "a" ≠ name := fun hsame => hname hsame.symm
            exact absurd h (by simp [nested, Tree.itemAt?_cons, Entries.get?, hother])

theorem goesDown_nested {n : Nat} {path : String} {place : Place} (hpath : LeadsTo path place)
    (htree : disk.root.at? place = some (nested n))
    (hshort : path.utf8ByteSize + 2 * n < pathLimit) : disk.GoesDown n path place := by
  induction n generalizing path place with
  | zero =>
      refine ⟨[], rfl, ?_, fun n hn => absurd hn (Nat.not_lt_zero n)⟩
      rw [List.append_nil, get?, Tree.itemAt?, htree]
      rfl
  | succ n ih =>
      have hslash : '/' ∉ ("a" : String).toList := by decide
      rw [goesDown_succ]
      refine ⟨by omega, "a", ih (hpath.join (isName_iff.1 (by decide)).isStep hslash) ?_ ?_⟩
      · rw [Tree.at?_append, htree]
        rfl
      · rw [hpath.join_eq hslash, String.utf8ByteSize_append, String.utf8ByteSize_append]
        have hsizes : ("/" : String).utf8ByteSize = 1 ∧ ("a" : String).utf8ByteSize = 1 := by decide
        omega

end Nested

end Docwright.Disk
