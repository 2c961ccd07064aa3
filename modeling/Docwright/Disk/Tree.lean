import Docwright.Text.Order

/-!
# Trees of items

A tree is a file, a link or a folder, and a folder has entries, each with a name
and a tree of its own. A file or a folder may also be locked: it is there, but
nobody can open it, and what is inside it is not known. `at?` is the tree that a
list of names leads to and `put` replaces it; both are by recursion on the names.

The entries of a folder come in some order, which is the one a folder is listed
in. A changed entry keeps its position, and a new one is put before the first that
has a greater name, so that entries in the order of their names stay in it. Of two
entries with one name the first counts.

The view of a tree is `itemAt?`, which says what stands at a place and not what
is inside it. Putting a file, a link or an empty folder into a folder, where no
folder stood, changes the view at that place only.
-/

namespace Docwright

open Docwright.Text

/-- The names that lead to an item from a folder. -/
abbrev Place := List String

/-- What stands at a place. -/
inductive Item where
  | file (content : List UInt8)
  | folder
  | link (target : String)
  /-- A file, or a folder, that cannot be opened. -/
  | locked (asFolder : Bool)
  deriving DecidableEq, Repr

/-- The item is a file that can be opened. -/
def Item.isFile : Item → Bool
  | .file _ => true
  | _ => false

/-- The item is a folder, whether or not it can be opened. -/
def Item.isFolder : Item → Bool
  | .folder => true
  | .locked asFolder => asFolder
  | _ => false

/-- An item with all that is inside it. -/
inductive Tree where
  | file (content : List UInt8)
  | link (target : String)
  | locked (asFolder : Bool)
  | folder (entries : List (String × Tree))
  deriving Repr

/-- The named trees in a folder. -/
abbrev Entries := List (String × Tree)

/-- Of the named things in a list the first under each name. -/
def firsts {α : Type} : List (String × α) → List (String × α)
  | [] => []
  | (name, a) :: rest => (name, a) :: (firsts rest).filter (·.1 != name)

def Entries.get? (name : String) : Entries → Option Tree
  | [] => none
  | (n, tree) :: rest => if n = name then some tree else Entries.get? name rest

def Entries.replace (name : String) (tree : Tree) : Entries → Entries
  | [] => []
  | (n, t) :: rest => if n = name then (n, tree) :: rest else (n, t) :: Entries.replace name tree rest

/-- The entries with a new one before the first that has a greater name. -/
def Entries.add (name : String) (tree : Tree) : Entries → Entries
  | [] => [(name, tree)]
  | (n, t) :: rest =>
      if before name n then (name, tree) :: (n, t) :: rest else (n, t) :: Entries.add name tree rest

def Entries.set (name : String) (tree : Tree) (entries : Entries) : Entries :=
  if (entries.get? name).isSome then entries.replace name tree else entries.add name tree

theorem Entries.get?_replace {name : String} {entries : Entries}
    (hname : (entries.get? name).isSome = true) (n : String) (tree : Tree) :
    (entries.replace name tree).get? n = if n = name then some tree else entries.get? n := by
  induction entries with
  | nil => simp [Entries.get?] at hname
  | cons entry rest ih =>
      obtain ⟨m, t⟩ := entry
      by_cases hm : m = name
      · subst hm
        by_cases hn : n = m
        · simp [Entries.replace, Entries.get?, hn]
        · simp [Entries.replace, Entries.get?, hn, Ne.symm hn]
      · have hrest : (Entries.get? name rest).isSome = true := by simpa [Entries.get?, hm] using hname
        by_cases hn : m = n
        · have hne : n ≠ name := fun h => hm (hn.trans h)
          simp [Entries.replace, Entries.get?, hn, hne]
        · simp [Entries.replace, Entries.get?, hm, hn, ih hrest]

theorem Entries.get?_add {name : String} {entries : Entries} (hname : entries.get? name = none)
    (n : String) (tree : Tree) :
    (entries.add name tree).get? n = if n = name then some tree else entries.get? n := by
  induction entries with
  | nil =>
      by_cases hn : n = name
      · simp [Entries.add, Entries.get?, hn]
      · simp [Entries.add, Entries.get?, hn, Ne.symm hn]
  | cons entry rest ih =>
      obtain ⟨m, t⟩ := entry
      have hm : m ≠ name := fun h => by simp [Entries.get?, h] at hname
      have hrest : Entries.get? name rest = none := by simpa [Entries.get?, hm] using hname
      rw [Entries.add]
      split
      · by_cases hn : n = name
        · simp [Entries.get?, hn]
        · simp [Entries.get?, hn, Ne.symm hn]
      · by_cases hn : m = n
        · have hne : n ≠ name := fun h => hm (hn.trans h)
          simp [Entries.get?, hn, hne]
        · simp [Entries.get?, hn, ih hrest]

theorem Entries.get?_set (name n : String) (tree : Tree) (entries : Entries) :
    (Entries.set name tree entries).get? n = if n = name then some tree else entries.get? n := by
  unfold Entries.set
  split
  · rename_i hname
    exact Entries.get?_replace hname n tree
  · rename_i hname
    exact Entries.get?_add (by simpa using hname) n tree

namespace Tree

def item : Tree → Item
  | .file content => .file content
  | .link target => .link target
  | .locked asFolder => .locked asFolder
  | .folder _ => .folder

/-- The tree that holds an item and nothing else. -/
def ofItem : Item → Tree
  | .file content => .file content
  | .link target => .link target
  | .locked asFolder => .locked asFolder
  | .folder => .folder []

/-- The entries of a folder. Other items have none. -/
def entries : Tree → Entries
  | .folder entries => entries
  | _ => []

def at? : Tree → Place → Option Tree
  | tree, [] => some tree
  | tree, name :: rest =>
      match tree.entries.get? name with
      | some inner => inner.at? rest
      | none => none

/-- The tree with `new` at a place. What is missing on the way becomes a folder. -/
def put (new : Tree) : Tree → Place → Tree
  | _, [] => new
  | tree, name :: rest =>
      .folder (tree.entries.set name (put new ((tree.entries.get? name).getD (.folder [])) rest))

def itemAt? (tree : Tree) (place : Place) : Option Item := (tree.at? place).map item

@[simp] theorem item_folder (entries : Entries) : (folder entries).item = .folder := rfl

@[simp] theorem entries_folder (entries : Entries) : (folder entries).entries = entries := rfl

@[simp] theorem item_ofItem (item : Item) : (ofItem item).item = item := by
  cases item <;> rfl

@[simp] theorem entries_ofItem (item : Item) : (ofItem item).entries = [] := by
  cases item <;> rfl

/-- Nothing is inside what is not a folder. -/
theorem entries_eq_nil {tree : Tree} (h : tree.item ≠ .folder) : tree.entries = [] := by
  cases tree with
  | file content => rfl
  | link target => rfl
  | locked asFolder => rfl
  | folder entries => exact absurd rfl h

/-- What has an entry is a folder. -/
theorem item_eq_folder {tree inner : Tree} {name : String}
    (h : tree.entries.get? name = some inner) : tree.item = .folder := by
  refine Decidable.byContradiction fun hne => ?_
  simp [entries_eq_nil hne, Entries.get?] at h

@[simp] theorem at?_nil (tree : Tree) : tree.at? [] = some tree := rfl

theorem at?_cons (tree : Tree) (name : String) (rest : Place) :
    tree.at? (name :: rest) = (tree.entries.get? name).bind (·.at? rest) := by
  cases h : tree.entries.get? name <;> simp [at?, h]

theorem at?_append (tree : Tree) (p q : Place) :
    tree.at? (p ++ q) = (tree.at? p).bind (·.at? q) := by
  induction p generalizing tree with
  | nil => rfl
  | cons name rest ih =>
      cases h : tree.entries.get? name with
      | none => simp [at?_cons, h]
      | some inner => simp [at?_cons, h, ih]

@[simp] theorem itemAt?_nil (tree : Tree) : tree.itemAt? [] = some tree.item := rfl

theorem itemAt?_cons (tree : Tree) (name : String) (rest : Place) :
    tree.itemAt? (name :: rest) = (tree.entries.get? name).bind (·.itemAt? rest) := by
  cases h : tree.entries.get? name <;> simp [itemAt?, at?_cons, h]

theorem itemAt?_ofItem (item : Item) (name : String) (rest : Place) :
    (ofItem item).itemAt? (name :: rest) = none := by
  simp [itemAt?_cons, Entries.get?]

/-- Nothing stands below a place where no folder stands. -/
theorem itemAt?_below {tree : Tree} {name : String} (m : String) (rest : Place)
    (h : tree.itemAt? [name] ≠ some .folder) : tree.itemAt? (name :: m :: rest) = none := by
  cases hentry : tree.entries.get? name with
  | none => simp [itemAt?_cons, hentry]
  | some inner =>
      have hinner : inner.item ≠ .folder := fun hf => h (by simp [itemAt?_cons, hentry, hf])
      simp [itemAt?_cons, hentry, entries_eq_nil hinner, Entries.get?]

/-- What a changed entry makes of the view: under the name it is the view of the
new entry, elsewhere it stays. -/
theorem itemAt?_put_cons (new tree : Tree) (name n : String) (rest q : Place) :
    (put new tree (name :: rest)).itemAt? (n :: q) =
      if n = name then (put new ((tree.entries.get? name).getD (.folder [])) rest).itemAt? q
      else tree.itemAt? (n :: q) := by
  by_cases hn : n = name
  · simp [put, itemAt?_cons, Entries.get?_set, hn]
  · simp [put, itemAt?_cons, Entries.get?_set, hn]

/-- Putting an item into a folder, where no folder stood, changes the view at
that place only. -/
theorem itemAt?_put (tree : Tree) (folder q : Place) (name : String) (item : Item)
    (hfolder : tree.itemAt? folder = some .folder)
    (hname : tree.itemAt? (folder ++ [name]) ≠ some .folder) :
    (put (ofItem item) tree (folder ++ [name])).itemAt? q =
      if q = folder ++ [name] then some item else tree.itemAt? q := by
  induction folder generalizing tree q with
  | nil =>
      have htree : tree.item = .folder := by simpa using hfolder
      cases q with
      | nil => simp [put, htree]
      | cons n rest =>
          rw [List.nil_append, itemAt?_put_cons]
          by_cases hn : n = name
          · subst hn
            cases rest with
            | nil => simp [put]
            | cons m deeper =>
                have hold := itemAt?_below m deeper hname
                simp [put, itemAt?_ofItem, hold]
          · simp [hn]
  | cons f deeper ih =>
      cases h : tree.entries.get? f with
      | none => simp [itemAt?_cons, h] at hfolder
      | some inner =>
          have hin : inner.itemAt? deeper = some .folder := by
            simpa [itemAt?_cons, h] using hfolder
          have hout : inner.itemAt? (deeper ++ [name]) ≠ some .folder := by
            simpa [itemAt?_cons, h] using hname
          cases q with
          | nil => simp [put, item_eq_folder h]
          | cons n rest =>
              rw [List.cons_append, itemAt?_put_cons]
              by_cases hn : n = f
              · subst hn
                have hrest := ih inner rest hin hout
                simpa [itemAt?_cons, h] using hrest
              · simp [hn]

end Tree

end Docwright
