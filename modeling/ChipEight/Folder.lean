/-!
A small tree of files, given as a list of paths, and how a path is looked up in it. A place is a list of
names from the folder where every relative path starts. Empty parts of a path and single dots stay where
they are, two dots lead to the folder above. Of the folders above the tree, and of the root of absolute
paths, nothing else is known than what the given paths put there.
-/

namespace ChipEight

inductive ReadError where
  | missing
  | isFolder
  | notAFolder
  | nameTooLong
  deriving DecidableEq, Repr

namespace ReadError

def message : ReadError → String
  | missing => "No such file or directory"
  | isFolder => "Is a directory"
  | notAFolder => "Not a directory"
  | nameTooLong => "File name too long"

end ReadError

inductive Entry where
  | file (bytes : List UInt8)
  | folder
  deriving DecidableEq, Repr

/-- Where something lies: the names that lead there. Two dots at its start stand for the folders above the
tree, and a slash for the root. -/
abbrev Place := List String

namespace Place

def move (place : Place) (part : String) : Place :=
  if part = "." then place
  else if part = ".." then
    match place.getLast? with
    | some "/" => place
    | none | some ".." => place ++ [".."]
    | some _ => place.dropLast
  else place ++ [part]

/-- Whether the place is the start of the tree, above it, or the root; a folder is always there. -/
def isOuter (place : Place) : Bool :=
  place.all fun name => name = ".." || name = "/"

def startOf (path : String) : Place :=
  if path.startsWith "/" then ["/"] else []

def partsOf (path : String) : List String :=
  (path.splitOn "/").filter (· ≠ "")

def trail (start : Place) (parts : List String) : List Place :=
  parts.foldl (fun places part => (places.head?.getD start).move part :: places) []

end Place

structure Folder where
  entries : List (Place × Entry)
  deriving DecidableEq, Repr

namespace Folder

def partLimit : Nat := 255

def pathLimit : Nat := 4095

def made (path : String) (e : Entry) : List (Place × Entry) :=
  match Place.trail (Place.startOf path) (Place.partsOf path) with
  | [] => []
  | last :: folders => (folders.map fun place => (place, .folder)) ++ [(last, e)]

/-- A tree from entries by their paths. Of several entries at one place the last counts. -/
def ofEntries (entries : List (String × Entry)) : Folder :=
  ⟨(entries.flatMap fun (path, e) => made path e).reverse⟩

def at? (f : Folder) (place : Place) : Option Entry :=
  match f.entries.lookup place with
  | some e => some e
  | none => if place.isOuter then some .folder else none

def step (f : Folder) (place : Place) (part : String) : Except ReadError Place :=
  if f.at? place ≠ some .folder then .error .notAFolder
  else if partLimit < part.utf8ByteSize then .error .nameTooLong
  else if (f.at? (place.move part)).isNone then .error .missing
  else .ok (place.move part)

def bytesOf (f : Folder) (path : String) : Except ReadError (List UInt8) :=
  if path.isEmpty then .error .missing
  else if pathLimit < path.utf8ByteSize then .error .nameTooLong
  else
    match (Place.partsOf path).foldlM f.step (Place.startOf path) with
    | .error e => .error e
    | .ok place =>
      match f.at? place with
      | some (.file bytes) => if path.endsWith "/" then .error .notAFolder else .ok bytes
      | some .folder => .error .isFolder
      | none => .error .missing

end Folder

end ChipEight
