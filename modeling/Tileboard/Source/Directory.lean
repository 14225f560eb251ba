import Tileboard.Source.Delimited
import Tileboard.Source.Document
import Tileboard.Source.Path
import Tileboard.Source.Workbook
import Tileboard.Traced

namespace Tileboard

inductive Content where
  | text (s : String)
  | workbook (rows : List (List Cell))

-- A file has a stamp, which changes whenever its content does.
inductive Entry where
  | file (content : Content) (stamp : Nat)
  | directory

-- A directory at a place, given by the names from the root, with the entries below
-- it by the names from there.
structure Directory where
  place : List String
  entries : List (List String × Entry)

namespace Directory

def find? (d : Directory) (names : List String) : Option Entry := d.entries.lookup names

def file? (d : Directory) (names : List String) : Option (Content × Nat) :=
  match d.find? names with
  | some (.file content stamp) => some (content, stamp)
  | _ => none

def suffixes : List String := [".csv", ".json", ".xlsx"]

def isRecordName (name : String) : Bool := suffixes.contains (Text.lower (Path.suffixOf name))

def lastName (names : List String) : String := names.getLast?.getD ""

-- Where a source lies below the directory. Sources outside it are refused before
-- anything else is asked about them.
def locate (d : Directory) (source : String) : Except Fault (List String) := do
  if source.toList.contains '\x00' then throw .nulInPath
  match Path.below? d.place (Path.resolve d.place (Path.ofText source)) with
  | none => throw (.outsideDirectory source)
  | some names =>
      if !isRecordName (lastName names) then
        throw (.unsupportedFile (Path.suffixOf (lastName names)))
      if (d.file? names).isNone then throw (.missingSource source)
      return names

def sources (d : Directory) : List String :=
  let names := d.entries.filterMap fun (path, entry) =>
    match path, entry with
    | [name], .file .. => if isRecordName name then some name else none
    | _, _ => none
  names.mergeSort fun a b => !decide (b < a)

def tableOf (name : String) (content : Content) : Except Fault (Table Cell) :=
  match Text.lower (Path.suffixOf name), content with
  | ".csv", .text s => Delimited.read s
  | ".json", .text s => Document.read s
  | ".xlsx", .workbook rows => .ok (Workbook.read rows)
  | ".xlsx", .text _ => .error .badWorkbook
  | suffix, _ =>
      if suffixes.contains suffix then .error .brokenTable
      else .error (.unsupportedFile (Path.suffixOf name))

def readTable (d : Directory) (names : List String) : Except Fault (Table Cell) :=
  if isRecordName (lastName names) then
    match d.find? names with
    | some (.file content _) => tableOf (lastName names) content
    | some .directory => .error .isDirectory
    | none => .error .noSuchFile
  else .error (.unsupportedFile (Path.suffixOf (lastName names)))

def readRecords (name : String) (content : Content) : Traced (List Value) := do
  let table ← tableOf name content
  Traced.note (.loaded table.height name)
  return table.records

def load (d : Directory) (source : String) : Traced (List Value) := do
  let names ← d.locate source
  match d.file? names with
  | some (content, _) => readRecords (lastName names) content
  | none => throw (.missingSource source)

end Directory

end Tileboard
