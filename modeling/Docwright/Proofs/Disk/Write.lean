import Docwright.Disk.Operations
import Docwright.Json.Value
import Docwright.Text.Utf8

/-!
# Files that are written

A file is opened, which empties it, and then filled. `write?` is what the two steps come
to: filling puts the content where opening put an empty file, and what was put there first
makes no difference. A value that is no text is never filled in, and leaves the file as it
was opened.
-/

namespace Docwright

namespace Entries

theorem get?_set_self (name : String) (tree : Tree) (entries : Entries) :
    (Entries.set name tree entries).get? name = some tree := by
  rw [get?_set, if_pos rfl]

theorem replace_replace (name : String) (first second : Tree) (entries : Entries) :
    (entries.replace name first).replace name second = entries.replace name second := by
  induction entries with
  | nil => rfl
  | cons entry rest ih =>
      obtain ⟨n, tree⟩ := entry
      by_cases hn : n = name
      · simp [replace, hn]
      · simp [replace, hn, ih]

theorem replace_add {name : String} (first second : Tree) {entries : Entries}
    (hname : entries.get? name = none) :
    (entries.add name first).replace name second = entries.add name second := by
  induction entries with
  | nil => simp [add, replace]
  | cons entry rest ih =>
      obtain ⟨n, tree⟩ := entry
      have hn : n ≠ name := fun h => by simp [get?, h] at hname
      have hrest : Entries.get? name rest = none := by simpa [get?, hn] using hname
      rw [add, add]
      split
      · simp [replace]
      · simp [replace, hn, ih hrest]

theorem set_set (name : String) (first second : Tree) (entries : Entries) :
    (Entries.set name first entries).set name second = Entries.set name second entries := by
  rw [set, get?_set_self, Option.isSome_some, if_pos rfl, set, set]
  split
  · exact replace_replace name first second entries
  · rename_i hname
    exact replace_add first second (by simpa using hname)

end Entries

theorem Tree.put_put (first second tree : Tree) (place : Place) :
    put second (put first tree place) place = put second tree place := by
  induction place generalizing tree with
  | nil => rfl
  | cons name rest ih =>
      rw [put, put, put, entries_folder, Entries.get?_set_self, Option.getD_some, ih,
        Entries.set_set]

namespace Disk

theorem insert_insert (disk : Disk) (place : Place) (first second : Item) :
    (disk.insert place first).insert place second = disk.insert place second := by
  cases place with
  | nil => rfl
  | cons name rest =>
      have hroot : (disk.insert (name :: rest) first).root =
          Tree.put (.ofItem first) disk.root (name :: rest) := rfl
      rw [insert, hroot, Tree.put_put]
      rfl

/-- The disk after the content was written to the file at a path. -/
def write? (disk : Disk) (path : String) (content : List UInt8) : Except DiskError Disk :=
  (disk.fileFor? path).map fun place => disk.insert place (.file content)

end Disk

/-- What a file holds once the value was written to it: the text, or nothing. -/
def Json.Value.content (value : Json.Value) : List UInt8 :=
  Text.Utf8.encode ((value.text?).getD "").toList

end Docwright
