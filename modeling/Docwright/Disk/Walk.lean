import Docwright.Disk.Operations

/-!
# Walks

A walk visits folders by their paths, from one folder downwards. What a path is
too long for, or has too many links for, is not visited, and neither is a folder
that is locked. A link inside the walk is not entered; in the folder that holds it,
it counts as a folder only if its path leads to one.

A walk may be bound to a number of levels. Where something that counts as a folder
lies deeper it breaks off: the folders before that are visited and none after it.
-/

namespace Docwright.Disk

/-- A folder that is visited: the path by which it is reached and its place. -/
structure Folder where
  path : String
  place : Place
  deriving DecidableEq, Repr

/-- The folders that are visited, in turn, and whether those are all of them. -/
structure Walk where
  folders : List Folder := []
  complete : Bool := true
  deriving DecidableEq, Repr

namespace Walk

/-- The second walk after the first, unless that breaks off. -/
def andThen (first second : Walk) : Walk :=
  if first.complete then ⟨first.folders ++ second.folders, second.complete⟩ else first

/-- Named walks one after the other, of each name the first. -/
def inTurn (walks : List (String × Walk)) : Walk :=
  (firsts walks).foldr (fun entry rest => entry.2.andThen rest) {}

end Walk

def folder? (disk : Disk) (path : String) : Option Folder :=
  match disk.resolve path with
  | .ok (.found (some place) .folder) => some ⟨path, place⟩
  | _ => none

mutual

/-- The walk from a tree at a path, which may visit so many levels if a number is
given. Only folders are entered, and only those that the path leads to. -/
def walkTree (disk : Disk) (levels : Option Nat) (path : String) : Tree → Walk
  | .folder entries =>
      if levels = some 0 then ⟨[], false⟩
      else
        match disk.folder? path with
        | some folder =>
            .andThen ⟨[folder], true⟩
              (.inTurn (walkEntries disk (levels.map Nat.pred) path entries))
        | none => {}
  | .locked asFolder => if levels = some 0 ∧ asFolder = true then ⟨[], false⟩ else {}
  | .link _ => if levels = some 0 ∧ disk.leadsToFolder path = true then ⟨[], false⟩ else {}
  | .file _ => {}

def walkEntries (disk : Disk) (levels : Option Nat) (path : String) :
    Entries → List (String × Walk)
  | [] => []
  | (name, tree) :: rest =>
      (name, walkTree disk levels (Path.join path name) tree) :: walkEntries disk levels path rest

end

/-- The walk from the folder at a path, so many levels below it if a number is given:
each folder comes before those inside it, and those side by side are in the order of
the entries. Links are followed only on the way to the first folder. -/
def walk (disk : Disk) (levels : Option Nat) (path : String) : Walk :=
  match disk.folder? path with
  | some top => disk.walkTree (levels.map Nat.succ) path (.folder (disk.entriesAt top.place))
  | none => {}

/-- The item of that name in a folder counts as a folder: it is one, or it is a
link whose path leads to one. -/
def countsAsFolder (disk : Disk) (folder : Folder) (name : String) : Bool :=
  match (disk.entriesAt folder.place).get? name with
  | some (.link _) => disk.leadsToFolder (Path.join folder.path name)
  | some tree => tree.item.isFolder
  | none => false

/-- The names of the files in a folder. A link that leads nowhere counts as a
file. -/
def fileNames (disk : Disk) (folder : Folder) : List String :=
  (disk.names folder.place).filter fun name => !disk.countsAsFolder folder name

end Docwright.Disk
