/-!
# Paths

A path is a text in which slashes separate names. The functions here look only
at the text: the last name of a path, what stands before it, the extension of a
name, and a path extended by a name.
-/

namespace Docwright.Path

/-- The text after the last slash. -/
def base (path : String) : String :=
  String.ofList (path.toList.reverse.takeWhile (· != '/')).reverse

/-- The text before the last name, without the slashes that separate the two; if
it holds nothing but slashes they stay. -/
def parent (path : String) : String :=
  let head := path.toList.reverse.dropWhile (· != '/')
  if head.all (· == '/') then String.ofList head
  else String.ofList (head.dropWhile (· == '/')).reverse

/-- The position of the extension in a name: that of its last full stop, unless
only full stops stand before it. -/
def extensionStart (name : List Char) : Nat :=
  let dots := (name.takeWhile (· == '.')).length
  let rest := name.drop dots
  match rest.reverse.dropWhile (· != '.') with
  | [] => name.length
  | _ :: stem => dots + stem.length

/-- The extension of a name with its full stop, or nothing. -/
def extension (name : String) : String :=
  String.ofList (name.toList.drop (extensionStart name.toList))

def stem (name : String) : String :=
  String.ofList (name.toList.take (extensionStart name.toList))

/-- The path of a name in a folder. A name that begins with a slash is a path of
its own. -/
def join (folder name : String) : String :=
  match name.toList, folder.toList.reverse with
  | '/' :: _, _ => name
  | _, [] => name
  | _, '/' :: _ => folder ++ name
  | _, _ => folder ++ "/" ++ name

def hasEnding (ending path : String) : Bool :=
  ending.toList.reverse.isPrefixOf path.toList.reverse

/-- The parts of a text between slashes. -/
def splitAtSlashes : List Char → List (List Char)
  | [] => [[]]
  | c :: rest =>
      if c = '/' then [] :: splitAtSlashes rest
      else
        match splitAtSlashes rest with
        | [] => [[c]]
        | part :: parts => (c :: part) :: parts

/-- The parts of a path between its slashes. An empty part stands before a slash
at the start and after one at the end. -/
def parts (path : String) : List String :=
  (splitAtSlashes path.toList).map String.ofList

def isAbsolute (path : String) : Bool :=
  match path.toList with
  | '/' :: _ => true
  | _ => false

end Docwright.Path
