import ChipEight.Memory

namespace ChipEight

inductive FileTree
  | file (bytes : List UInt8)
  | folder (entries : List (String × FileTree))

namespace FileTree

def nameLimit : Nat := 255

def pathLimit : Nat := 4095

def segments : List Char → List (List Char)
  | [] => [[]]
  | c :: path =>
    if c = '/' then [] :: segments path
    else
      match segments path with
      | [] => [[c]]
      | s :: rest => (c :: s) :: rest

structure Place where
  entry : FileTree
  folders : List FileTree

namespace Place

def parent (p : Place) : Place :=
  match p.folders with
  | [] => p
  | nearest :: farther => ⟨nearest, farther⟩

def root (p : Place) : Place := ⟨p.folders.getLastD p.entry, []⟩

/-- Where a single name leads from a place. From a file no name leads on, not even an empty one:
so a slash after the name of a file is a mistake. -/
def enter (p : Place) (name : String) : Except IoError Place :=
  match p.entry with
  | .file _ => .error .notADirectory
  | .folder entries =>
    if name = "" ∨ name = "." then .ok p
    else if name = ".." then .ok p.parent
    else if nameLimit < name.utf8ByteSize then .error .nameTooLong
    else
      match entries.lookup name with
      | none => .error .noSuchFile
      | some entry => .ok ⟨entry, p.entry :: p.folders⟩

def follow (p : Place) (names : List String) : Except IoError Place := names.foldlM enter p

def find (p : Place) (path : String) : Except IoError Place :=
  if '\x00' ∈ path.toList then .error .nulInName
  else if path = "" then .error .noSuchFile
  else if pathLimit < path.utf8ByteSize then .error .nameTooLong
  else
    let start := if path.toList.head? = some '/' then p.root else p
    start.follow ((segments path.toList).map .ofList)

/-- The bytes that a path leads to. A folder can be opened like a file, but it cannot be read. -/
def bytesAt (p : Place) (path : String) : Except IoError ByteSource :=
  (p.find path).map fun found =>
    match found.entry with
    | .file bytes => .ofBytes bytes
    | .folder _ => ⟨[], some .isADirectory⟩

end Place

end FileTree

end ChipEight
