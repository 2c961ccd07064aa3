import Docwright.Proofs.Disk.Advance
import Docwright.Proofs.Disk.Write

/-!
# Plain disks

A disk is plain if it holds no links and every item on it has a name that an item
can have. On such a disk a path that leads to a place is followed without
detours: it ends at the item of that place, or in the folder where a new item
could stand, or it fails. `resolveFor_ending` says so for every purpose, and what
the operations do to the view of the disk is read off it.
-/

namespace Docwright.Disk

open Docwright.Path

/-- What an item can be called in a folder. -/
structure IsName (name : String) : Prop where
  isStep : IsStep name
  noSlash : '/' ∉ name.toList
  noNull : ∀ c ∈ name.toList, c.toNat ≠ 0
  short : name.utf8ByteSize ≤ nameLimit

def isName (name : String) : Bool :=
  name != "" && name != "." && name != ".." && !name.toList.contains '/' &&
    name.toList.all (·.toNat != 0) && Nat.ble name.utf8ByteSize nameLimit

theorem isName_iff {name : String} : isName name = true ↔ IsName name := by
  constructor
  · intro h
    simp [isName] at h
    obtain ⟨⟨⟨⟨⟨hempty, hdot⟩, hdots⟩, hslash⟩, hnull⟩, hshort⟩ := h
    exact ⟨⟨hempty, hdot, hdots⟩, hslash, hnull, hshort⟩
  · intro h
    have hstep := h.isStep
    unfold IsStep at hstep
    simp [isName, hstep, h.noSlash, h.short]
    exact h.noNull

/-- There are no links, and all names are such as an item can have. -/
structure Plain (disk : Disk) : Prop where
  isName : ∀ {place : Place} {item : Item}, disk.get? place = some item →
    ∀ name ∈ place, IsName name
  noLink : ∀ (place : Place) (target : String), disk.get? place ≠ some (.link target)

/-- An item can be put at the place: it is in a folder, nothing but a file stands
there, and its name is not too long. -/
def CanHold (disk : Disk) (place : Place) : Prop :=
  ∃ folder name, place = folder ++ [name] ∧ disk.get? folder = some .folder ∧
    (disk.get? place).all Item.isFile = true ∧ name.utf8ByteSize ≤ nameLimit

def HasRoom (disk : Disk) (place : Place) : Prop := disk.CanHold place ∧ disk.get? place = none

variable {disk : Disk}

theorem get?_folder_of_append_cons {place rest : Place} {name : String} {item : Item}
    (h : disk.get? (place ++ name :: rest) = some item) : disk.get? place = some .folder := by
  rw [get?, Tree.itemAt?, Tree.at?_append] at h
  cases hat : disk.root.at? place with
  | none => simp [hat] at h
  | some tree =>
      rw [hat, Option.bind_some, Tree.at?_cons] at h
      cases hentry : tree.entries.get? name with
      | none => simp [hentry] at h
      | some inner => simp [get?, Tree.itemAt?, hat, Tree.item_eq_folder hentry]

theorem get?_folder_of_append {place rest : Place}
    (h : disk.get? (place ++ rest) = some .folder) : disk.get? place = some .folder := by
  cases rest with
  | nil => simpa using h
  | cons name rest => exact get?_folder_of_append_cons h

theorem nothing_below {place rest : Place} (hrest : rest ≠ [])
    (h : disk.get? place ≠ some .folder) :
    disk.get? (place ++ rest) = none ∧ ¬ disk.HasRoom (place ++ rest) := by
  constructor
  · cases hget : disk.get? (place ++ rest) with
    | none => rfl
    | some item =>
        obtain ⟨name, others, rfl⟩ := List.exists_cons_of_ne_nil hrest
        exact absurd (get?_folder_of_append_cons hget) h
  · rintro ⟨⟨folder, name, hplace, hfolder, _⟩, _⟩
    rw [← List.dropLast_concat_getLast hrest, ← List.append_assoc] at hplace
    have hinit := (List.append_inj' hplace rfl).1
    rw [← hinit] at hfolder
    exact h (get?_folder_of_append hfolder)

/-- What a path that leads to a place can end at on a plain disk: the item of the
place, the folder with room for one, or a failure where there is neither. -/
inductive Ending (disk : Disk) (place : Place) : Except DiskError Target → Prop
  | item {item : Item} (h : disk.get? place = some item) :
      Ending disk place (.ok (.found (some place) item))
  | room {folder : Place} {name : String} (hplace : place = folder ++ [name])
      (h : disk.HasRoom place) : Ending disk place (.ok (.vacant folder name))
  | failure {error : DiskError} (h : disk.get? place = none) (hroom : ¬ disk.HasRoom place) :
      Ending disk place (.error error)

/-- Where following parts pauses if there is no link in the way. -/
def Stop.ofResult : Except DiskError Target → Stop
  | .ok ending => .target ending
  | .error reason => .failed reason

/-- What follows a name that is no folder is out of reach. -/
theorem ending_below {folder rest : Place} {name : String} (error : DiskError)
    (h : disk.get? (folder ++ [name]) ≠ some .folder) (hrest : rest ≠ []) :
    disk.Ending (folder ++ name :: rest) (.error error) := by
  have hbelow := nothing_below hrest h
  rw [List.append_assoc, List.singleton_append] at hbelow
  exact .failure hbelow.1 hbelow.2

theorem ending_longName (hplain : disk.Plain) {name : String}
    (hlong : nameLimit < name.utf8ByteSize) (folder rest : Place) :
    disk.Ending (folder ++ name :: rest) (.error .longName) := by
  have hnone : disk.get? (folder ++ [name]) = none := by
    cases hitem : disk.get? (folder ++ [name]) with
    | none => rfl
    | some item =>
        have hshort := (hplain.isName hitem name (by simp)).short
        omega
  by_cases hrest : rest = []
  · subst hrest
    refine .failure hnone ?_
    rintro ⟨⟨inner, last, hplace, _, _, hshort⟩, _⟩
    have hlast := (List.append_inj' hplace rfl).2
    rw [List.singleton_inj.1 hlast] at hlong
    omega
  · exact ending_below _ (by simp [hnone]) hrest

/-- Names are followed to an ending of their place. -/
theorem advance_ending (hplain : disk.Plain) (purpose : Purpose) (names passed : List String)
    (hnames : ∀ name ∈ names, IsStep name) (hhere : disk.get? passed.reverse = some .folder) :
    ∃ result, disk.Ending (passed.reverse ++ names) result ∧
      disk.advance purpose (some passed) (disk.entriesAt passed.reverse) names =
        .ofResult result := by
  -- Along the names; the invariant is that those passed so far lead to a folder.
  induction names generalizing passed with
  | nil =>
      rw [List.append_nil, advance]
      exact ⟨_, .item hhere, rfl⟩
  | cons name rest ih =>
      have hstep := hnames name (by simp)
      have hmore : rest ≠ [] → onlySlashes rest = false := by
        intro hrest
        obtain ⟨first, others, rfl⟩ := List.exists_cons_of_ne_nil hrest
        simp [onlySlashes, (hnames first (by simp)).1]
      have hslashes : ¬ RefusesSlash purpose rest := by
        rintro ⟨_, hrest, hall⟩
        simp [hmore hrest] at hall
      have hget := disk.get?_append passed.reverse name
      by_cases hlong : nameLimit < name.utf8ByteSize
      · refine ⟨_, ending_longName hplain hlong passed.reverse rest, ?_⟩
        rw [advance_longName hstep hslashes hlong]
        rfl
      · rw [advance_lookUp hstep hslashes (Nat.not_lt.1 hlong)]
        cases hentry : (disk.entriesAt passed.reverse).get? name with
        | none =>
            rw [hentry] at hget
            by_cases hrest : rest = []
            · subst hrest
              have hroom : disk.HasRoom (passed.reverse ++ [name]) :=
                ⟨⟨passed.reverse, name, rfl, hhere, by simp [hget], by omega⟩, hget⟩
              exact ⟨_, .room rfl hroom, rfl⟩
            · refine ⟨_, ending_below .missing (by simp [hget]) hrest, ?_⟩
              simp [lookUp, hmore hrest, Stop.ofResult]
        | some tree =>
            rw [hentry] at hget
            cases tree with
            | file content =>
                by_cases hrest : rest = []
                · subst hrest
                  refine ⟨_, .item hget, ?_⟩
                  simp [lookUp, Stop.ofResult, Tree.item]
                · refine ⟨_, ending_below .notFolder (by simp [hget, Tree.item]) hrest, ?_⟩
                  simp [lookUp, hrest, Stop.ofResult]
            | locked asFolder =>
                by_cases hrest : rest = []
                · subst hrest
                  refine ⟨_, .item hget, ?_⟩
                  simp [lookUp, Stop.ofResult, Tree.item]
                · refine ⟨_, ending_below (if asFolder then .denied else .notFolder)
                    (by simp [hget, Tree.item]) hrest, ?_⟩
                  simp [lookUp, hrest, hmore hrest, Stop.ofResult]
            | link target => exact absurd hget (hplain.noLink _ target)
            | folder inner =>
                have hreverse : (name :: passed).reverse = passed.reverse ++ [name] := by simp
                have hinner : disk.entriesAt (name :: passed).reverse = inner := inside_cons hentry
                have hnext := ih (name :: passed) (fun part hpart => hnames part (by simp [hpart]))
                  (by rw [hreverse, hget]; rfl)
                rwa [hinner, hreverse, List.append_assoc, List.singleton_append] at hnext

/-- A dot and names are followed from the working folder to an ending of their
place, whatever they are followed for. -/
theorem resolveParts_ending (hplain : disk.Plain) (purpose : Purpose) {place : Place}
    (hplace : ∀ name ∈ place, IsStep name) :
    disk.Ending place (disk.resolveParts purpose false ("." :: place)) := by
  obtain ⟨result, hending, hstop⟩ := advance_ending hplain purpose place [] hplace (by simp)
  have hdot : disk.advance purpose (some []) (disk.inside (some [])) ("." :: place) =
      .ofResult result := by
    rw [advance_stay (.inr rfl), ← hstop]
    rfl
  unfold resolveParts follow
  simp only [Bool.false_eq_true, if_false, hdot]
  cases result with
  | ok target => exact hending
  | error error => exact hending

theorem not_canHold_of_item {place : Place} {item : Item} (h : disk.get? place = some item)
    (hfile : item.isFile = false) : ¬ disk.CanHold place := by
  rintro ⟨_, _, _, _, hall, _⟩
  simp [h, hfile] at hall

theorem CanHold.all_isFile {place : Place} (h : disk.CanHold place) :
    (disk.get? place).all Item.isFile = true := by
  obtain ⟨_, _, _, _, hall, _⟩ := h
  exact hall

theorem not_canHold_of_folder {place : Place} (h : disk.get? place = some .folder) :
    ¬ disk.CanHold place := not_canHold_of_item h rfl

theorem canHold_of_file (hplain : disk.Plain) {place : Place} {content : List UInt8}
    (h : disk.get? place = some (.file content)) : disk.CanHold place := by
  have hne : place ≠ [] := by
    rintro rfl
    simp at h
  have hsplit : place = place.dropLast ++ [place.getLast hne] :=
    (List.dropLast_concat_getLast hne).symm
  have hfolder : disk.get? place.dropLast = some .folder := by
    rw [hsplit] at h
    exact get?_folder_of_append_cons h
  have hlast := hplain.isName h (place.getLast hne) (List.getLast_mem hne)
  exact ⟨_, _, hsplit, hfolder, by simp [h, Item.isFile], hlast.short⟩

theorem get?_insert_of_canHold {place : Place} (h : disk.CanHold place) (item : Item) (q : Place) :
    (disk.insert place item).get? q = if q = place then some item else disk.get? q := by
  have hplace : disk.get? place ≠ some .folder := fun hplace => not_canHold_of_folder hplace h
  obtain ⟨folder, name, rfl, hfolder, -, -⟩ := h
  exact disk.get?_insert folder q name item hfolder hplace

theorem Plain.insert (hplain : disk.Plain) {place : Place} (h : disk.CanHold place)
    (hname : ∀ name ∈ place, IsName name) {item : Item} (hitem : ∀ target, item ≠ .link target) :
    (disk.insert place item).Plain := by
  constructor
  · intro q found hfound
    rw [get?_insert_of_canHold h] at hfound
    by_cases hq : q = place
    · rw [hq]
      exact hname
    · rw [if_neg hq] at hfound
      exact hplain.isName hfound
  · intro q target hlink
    rw [get?_insert_of_canHold h] at hlink
    by_cases hq : q = place
    · rw [if_pos hq] at hlink
      exact hitem target (Option.some.inj hlink)
    · rw [if_neg hq] at hlink
      exact hplain.noLink q target hlink

section Check

mutual

/-- There are no links in the tree, and all names are such as an item can have. -/
def isPlainTree : Tree → Bool
  | .file _ => true
  | .link _ => false
  | .locked _ => true
  | .folder entries => isPlainEntries entries

def isPlainEntries : Entries → Bool
  | [] => true
  | (name, tree) :: rest => isName name && isPlainTree tree && isPlainEntries rest

end

theorem isPlainEntries_get? {entries : Entries} {name : String} {tree : Tree}
    (h : isPlainEntries entries = true) (hget : entries.get? name = some tree) :
    IsName name ∧ isPlainTree tree = true := by
  induction entries with
  | nil => exact absurd hget (by simp [Entries.get?])
  | cons entry rest ih =>
      obtain ⟨first, inner⟩ := entry
      simp only [isPlainEntries, Bool.and_eq_true, isName_iff] at h
      obtain ⟨⟨hname, hinner⟩, hrest⟩ := h
      by_cases hfirst : first = name
      · subst hfirst
        rw [Entries.get?, if_pos rfl] at hget
        rw [← Option.some.inj hget]
        exact ⟨hname, hinner⟩
      · rw [Entries.get?, if_neg hfirst] at hget
        exact ih hrest hget

theorem isPlainTree_itemAt? {tree : Tree} {place : Place} {item : Item}
    (h : isPlainTree tree = true) (hitem : tree.itemAt? place = some item) :
    (∀ name ∈ place, IsName name) ∧ ∀ target, item ≠ .link target := by
  induction place generalizing tree with
  | nil =>
      refine ⟨by simp, ?_⟩
      rintro target rfl
      cases tree with
      | file content => simp [Tree.item] at hitem
      | locked asFolder => simp [Tree.item] at hitem
      | folder entries => simp [Tree.item] at hitem
      | link other => simp [isPlainTree] at h
  | cons name rest ih =>
      rw [Tree.itemAt?_cons] at hitem
      cases hentry : tree.entries.get? name with
      | none => simp [hentry] at hitem
      | some inner =>
          have hentries : isPlainEntries tree.entries = true := by
            cases tree with
            | file content => rfl
            | locked asFolder => rfl
            | folder entries => exact h
            | link other => rfl
          obtain ⟨hname, hinner⟩ := isPlainEntries_get? hentries hentry
          rw [hentry, Option.bind_some] at hitem
          obtain ⟨hnames, hlink⟩ := ih hinner hitem
          refine ⟨fun part hpart => ?_, hlink⟩
          rcases List.mem_cons.1 hpart with rfl | hpart
          · exact hname
          · exact hnames part hpart

theorem plain_of_isPlain (h : isPlainEntries disk.entries = true) : disk.Plain := by
  have hroot : isPlainTree disk.root = true := h
  constructor
  · exact fun hitem => (isPlainTree_itemAt? hroot hitem).1
  · exact fun place target hitem => (isPlainTree_itemAt? hroot hitem).2 target rfl

end Check

section Path

variable {path : String} {place : Place}

theorem partsOf_eq (hpath : LeadsTo path place) (hshort : path.utf8ByteSize < pathLimit) :
    partsOf path = .ok ("." :: place) := by
  rw [partsOf, hpath.ne_empty, if_neg (by simp), if_neg (by omega), hpath.parts_eq]

theorem partsOf_long (hpath : LeadsTo path place) (hlong : ¬ path.utf8ByteSize < pathLimit) :
    partsOf path = .error .longName := by
  rw [partsOf, hpath.ne_empty, if_neg (by simp), if_pos (by omega)]

theorem resolveFor_ending (hplain : disk.Plain) (purpose : Purpose) (hpath : LeadsTo path place)
    (hshort : path.utf8ByteSize < pathLimit) :
    disk.Ending place (disk.resolveFor purpose path) := by
  unfold resolveFor
  rw [partsOf_eq hpath hshort, hpath.not_isAbsolute]
  exact resolveParts_ending hplain purpose hpath.isStep

theorem hasItem_iff (hplain : disk.Plain) (hpath : LeadsTo path place)
    (hshort : path.utf8ByteSize < pathLimit) :
    disk.hasItem path = true ↔ disk.get? place ≠ none := by
  have hending := resolveFor_ending hplain .find hpath hshort
  unfold hasItem resolve
  generalize disk.resolveFor .find path = result at hending
  cases hending with
  | item hitem => simp [hitem]
  | room _ hroom => simp [hroom.2]
  | failure hnone _ => simp [hnone]

theorem hasItem_eq (hplain : disk.Plain) (hpath : LeadsTo path place)
    (hshort : path.utf8ByteSize < pathLimit) :
    disk.hasItem path = (disk.get? place).isSome := by
  rw [Bool.eq_iff_iff, hasItem_iff hplain hpath hshort, Option.isSome_iff_ne_none]

theorem write?_eq_ok_iff (hplain : disk.Plain) (hpath : LeadsTo path place)
    (content : List UInt8) (left : Disk) :
    disk.write? path content = .ok left ↔
      path.utf8ByteSize < pathLimit ∧ disk.CanHold place ∧
        left = disk.insert place (.file content) := by
  by_cases hshort : path.utf8ByteSize < pathLimit
  · have hending := resolveFor_ending hplain .write hpath hshort
    unfold write? fileFor?
    generalize disk.resolveFor .write path = result at hending
    cases hending with
    | @item item hitem =>
        cases item with
        | file old => simp [hshort, canHold_of_file hplain hitem, Except.map, eq_comm]
        | folder => simp [not_canHold_of_folder hitem, Except.map]
        | locked asFolder =>
            have hhold : ¬ disk.CanHold place := not_canHold_of_item hitem rfl
            cases asFolder with
            | true => simp [hhold, Except.map]
            | false => simp [hhold, Except.map]
        | link target => exact absurd hitem (hplain.noLink place target)
    | room hsplit hroom => simp [hshort, hroom.1, ← hsplit, Except.map, eq_comm]
    | failure hnone hroom =>
        have hhold : ¬ disk.CanHold place := fun hhold => hroom ⟨hhold, hnone⟩
        simp [hhold, Except.map]
  · unfold write? fileFor? resolveFor
    simp [partsOf_long hpath hshort, hshort, Except.map]

/-- Writing puts the file there, or leaves the disk as it was. -/
theorem write?_getD_cases (hplain : disk.Plain) (hpath : LeadsTo path place)
    (content : List UInt8) :
    (disk.write? path content).toOption.getD disk = disk ∨
      disk.CanHold place ∧
        (disk.write? path content).toOption.getD disk = disk.insert place (.file content) := by
  cases hwrite : disk.write? path content with
  | error error => exact .inl rfl
  | ok changed =>
      obtain ⟨_, hhold, rfl⟩ := (write?_eq_ok_iff hplain hpath content changed).1 hwrite
      exact .inr ⟨hhold, rfl⟩

theorem dropSlashes_eq {parts : List String} (h : ∀ part ∈ parts, part ≠ "") :
    dropSlashes parts = parts := by
  unfold dropSlashes
  cases hreverse : parts.reverse with
  | nil =>
      rw [List.reverse_eq_nil_iff] at hreverse
      rw [hreverse]
      rfl
  | cons last rest =>
      have hlast : last ∈ parts := by
        rw [← List.mem_reverse, hreverse]
        exact List.mem_cons_self
      rw [List.dropWhile_cons_of_neg (by simpa using h last hlast), ← hreverse,
        List.reverse_reverse]

theorem makeFolder?_eq_ok_iff (hplain : disk.Plain) (hpath : LeadsTo path place) (left : Disk) :
    disk.makeFolder? path = .ok left ↔
      path.utf8ByteSize < pathLimit ∧ disk.HasRoom place ∧ left = disk.insert place .folder := by
  by_cases hshort : path.utf8ByteSize < pathLimit
  · have hdrop : dropSlashes ("." :: place) = "." :: place := by
      refine dropSlashes_eq fun part hpart => ?_
      rcases List.mem_cons.1 hpart with rfl | hname
      · decide
      · exact (hpath.isStep part hname).1
    have hending := resolveParts_ending hplain .claim hpath.isStep
    unfold makeFolder?
    rw [partsOf_eq hpath hshort, hpath.not_isAbsolute]
    simp only [hdrop]
    generalize disk.resolveParts .claim false ("." :: place) = result at hending
    cases hending with
    | item hitem =>
        have hroom : ¬ disk.HasRoom place := by
          rintro ⟨_, hnone⟩
          exact absurd (hnone.symm.trans hitem) (by simp)
        simp [hroom]
    | room hsplit hroom => simp [hshort, hroom, ← hsplit, eq_comm]
    | failure hnone hroom => simp [hroom]
  · unfold makeFolder?
    simp [partsOf_long hpath hshort, hshort]

/-- The names on a path without null characters are such as items can have. -/
theorem toNat_ne_zero_of_noNull (h : path.toList.any (·.toNat == 0) = false) :
    ∀ c ∈ path.toList, c.toNat ≠ 0 := by
  simpa using h

theorem CanHold.isName (hplain : disk.Plain) (hpath : LeadsTo path place)
    (hnull : ∀ c ∈ path.toList, c.toNat ≠ 0) (h : disk.CanHold place) :
    ∀ name ∈ place, IsName name := by
  obtain ⟨folder, last, rfl, hfolder, _, hshort⟩ := h
  intro name hname
  rcases List.mem_append.1 hname with hin | hlast
  · exact hplain.isName hfolder name hin
  · obtain rfl := List.mem_singleton.1 hlast
    exact ⟨hpath.isStep name hname, fun hslash => (hpath.mem_of_mem hname hslash).2 rfl,
      fun c hc => hnull c (hpath.mem_of_mem hname hc).1, hshort⟩

end Path

end Docwright.Disk
