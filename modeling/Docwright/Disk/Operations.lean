import Docwright.Disk.Resolve

/-!
# Operations on the disk

Each operation takes a path, follows its links and either answers or names an
error. Reading and listing leave the disk as it is. `fileFor?` is the place of the
file that a path is opened for writing at, which may still have to be made, and
`makeFolder?` makes one folder where nothing stood, not even a link.
-/

namespace Docwright.Disk

def hasItem (disk : Disk) (path : String) : Bool :=
  match disk.resolve path with
  | .ok (.found _ _) => true
  | _ => false

def read? (disk : Disk) (path : String) : Except DiskError (List UInt8) :=
  match disk.resolve path with
  | .error error => .error error
  | .ok (.found _ (.file content)) => .ok content
  | .ok (.found _ .folder) => .error .isFolder
  | .ok (.found _ (.link _)) => .error .manyLinks
  | .ok (.found _ (.locked _)) => .error .denied
  | .ok (.vacant _ _) => .error .missing

def list? (disk : Disk) (path : String) : Except DiskError (List String) :=
  match disk.resolve path with
  | .error error => .error error
  | .ok (.found (some place) .folder) => .ok (disk.names place)
  | .ok (.found none .folder) => .ok []
  | .ok (.found _ (.locked true)) => .error .denied
  | .ok (.found _ _) => .error .notFolder
  | .ok (.vacant _ _) => .error .missing

/-- The parts without the empty ones at the end. -/
def dropSlashes (parts : List String) : List String :=
  (parts.reverse.dropWhile (· == "")).reverse

/-- The place of the file that a path is opened for writing at. -/
def fileFor? (disk : Disk) (path : String) : Except DiskError Place :=
  match disk.resolveFor .write path with
  | .error error => .error error
  | .ok (.found (some place) (.file _)) => .ok place
  | .ok (.found _ (.locked false)) => .error .denied
  | .ok (.found _ _) => .error .isFolder
  | .ok (.vacant folder name) => .ok (folder ++ [name])

def makeFolder? (disk : Disk) (path : String) : Except DiskError Disk :=
  match partsOf path with
  | .error error => .error error
  | .ok parts =>
      match disk.resolveParts .claim (Path.isAbsolute path) (dropSlashes parts) with
      | .error error => .error error
      | .ok (.found _ _) => .error .present
      | .ok (.vacant folder name) => .ok (disk.insert (folder ++ [name]) .folder)

/-- A path leads to a folder, which may lie above the working folder. -/
def leadsToFolder (disk : Disk) (path : String) : Bool :=
  match disk.resolve path with
  | .ok (.found _ item) => item.isFolder
  | _ => false

end Docwright.Disk
