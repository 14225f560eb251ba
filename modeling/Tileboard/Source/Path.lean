namespace Tileboard

-- A path starts at its root, a run of slashes, or, if that is empty, wherever it
-- is put.
structure Path where
  root : String
  names : List String
  deriving DecidableEq, Inhabited

namespace Path

-- Two leading slashes are a root of their own; any other number counts as one.
def rootOf (cs : List Char) : String :=
  match (cs.takeWhile (· = '/')).length with
  | 0 => ""
  | 2 => "//"
  | _ => "/"

-- Empty names, and single points, which stand for the place itself, are dropped.
def ofText (s : String) : Path :=
  let names := (s.toList.splitOn '/').map String.ofList
  ⟨rootOf s.toList, names.filter fun name => name ≠ "" && name ≠ "."⟩

def text (p : Path) : String :=
  if p.root.isEmpty && p.names.isEmpty then "." else p.root ++ "/".intercalate p.names

def isAbsolute (p : Path) : Bool := !p.root.isEmpty

-- Goes down the names from a place, given by the names above it in reverse. Two
-- points lead one level up, and at the root nowhere.
def walk (place : List String) (names : List String) : List String :=
  names.foldl (fun here name => if name = ".." then here.tail else name :: here) place

def resolve (directory : List String) (p : Path) : List String :=
  (walk (if p.isAbsolute then [] else directory.reverse) p.names).reverse

-- The rest of a path below a directory; none for the directory itself and for all
-- outside it.
def below? (directory place : List String) : Option (List String) :=
  if directory.isPrefixOf place then
    match place.drop directory.length with
    | [] => none
    | rest => some rest
  else none

-- The last point of a name with what follows it, if something stands on both sides.
def suffixOf (name : String) : String :=
  let reversed := name.toList.reverse
  let extension := (reversed.takeWhile (· ≠ '.')).reverse
  let before := (reversed.dropWhile (· ≠ '.')).drop 1
  if extension.isEmpty || before.isEmpty then "" else "." ++ String.ofList extension

end Path

end Tileboard
