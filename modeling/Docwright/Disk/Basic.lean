import Docwright.Disk.Tree

/-!
# The disk

The disk is what a run finds and leaves in its working folder. A place is the
list of the names that lead to it from there, and what stands at a place is a
file, a folder, a link or something locked. The working folder itself is the empty
place and always a folder.

The view of a disk is `get?`; `insert` changes it at one place only.
-/

namespace Docwright

/-- The items below the working folder. -/
structure Disk where
  entries : Entries := []
  deriving Repr

namespace Disk

def root (disk : Disk) : Tree := .folder disk.entries

def get? (disk : Disk) (place : Place) : Option Item := disk.root.itemAt? place

/-- The entries of the folder at a place; where there is none, nothing. -/
def entriesAt (disk : Disk) (place : Place) : Entries :=
  ((disk.root.at? place).map Tree.entries).getD []

/-- The disk with `item` at `place`. -/
def insert (disk : Disk) (place : Place) (item : Item) : Disk :=
  ⟨(Tree.put (.ofItem item) disk.root place).entries⟩

/-- The names in a folder, in the order of its entries. -/
def names (disk : Disk) (place : Place) : List String :=
  (firsts (disk.entriesAt place)).map (·.1)

@[simp] theorem get?_nil (disk : Disk) : disk.get? [] = some .folder := rfl

@[simp] theorem entriesAt_nil (disk : Disk) : disk.entriesAt [] = disk.entries := rfl

/-- What stands in a folder is told by its entries. -/
theorem get?_append (disk : Disk) (place : Place) (name : String) :
    disk.get? (place ++ [name]) = ((disk.entriesAt place).get? name).map Tree.item := by
  cases h : disk.root.at? place with
  | none => simp [get?, entriesAt, Tree.itemAt?, Tree.at?_append, h, Entries.get?]
  | some tree =>
      simp [get?, entriesAt, Tree.itemAt?, Tree.at?_append, Tree.at?_cons, h]

theorem entriesAt_append {disk : Disk} {place : Place} {name : String} {tree : Tree}
    (h : (disk.entriesAt place).get? name = some tree) :
    disk.entriesAt (place ++ [name]) = tree.entries := by
  cases hat : disk.root.at? place with
  | none => simp [entriesAt, hat, Entries.get?] at h
  | some outer =>
      have hentry : outer.entries.get? name = some tree := by
        simpa [entriesAt, hat] using h
      simp [entriesAt, Tree.at?_append, Tree.at?_cons, hat, hentry]

/-- Putting an item into a folder, where no folder stood, changes the view at
that place only. -/
theorem get?_insert (disk : Disk) (folder q : Place) (name : String) (item : Item)
    (hfolder : disk.get? folder = some .folder)
    (hname : disk.get? (folder ++ [name]) ≠ some .folder) :
    (disk.insert (folder ++ [name]) item).get? q =
      if q = folder ++ [name] then some item else disk.get? q := by
  have hput := Tree.itemAt?_put disk.root folder q name item hfolder hname
  have hroot : (disk.insert (folder ++ [name]) item).root =
      Tree.put (.ofItem item) disk.root (folder ++ [name]) := by
    cases folder <;> rfl
  rw [get?, hroot, hput, get?]

end Disk

end Docwright
