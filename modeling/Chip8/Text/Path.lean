import Chip8.Text.Case

/-!
# Paths

A path is kept in its normal form: no empty and no `.` components, no slash at
the end, and `.` where nothing is left.  `..` stays, for what it names depends
on the directories.
-/

namespace Chip8.Text

def splitAtChar (sep : Char) : List Char → List (List Char)
  | [] => [[]]
  | c :: r =>
    if c = sep then [] :: splitAtChar sep r
    else match splitAtChar sep r with
      | [] => [[c]]
      | piece :: pieces => (c :: piece) :: pieces

def pathComponents (path : List Char) : List (List Char) :=
  (splitAtChar '/' path).filter fun p => !(p.isEmpty || p == ['.'])

/-- The slashes in front of an absolute path: exactly two are kept, any other number is one. -/
def pathRoot (path : List Char) : List Char :=
  match path.takeWhile (· = '/') with
  | [] => []
  | ['/', '/'] => ['/', '/']
  | _ => ['/']

def joinPath (root : List Char) (components : List (List Char)) : String :=
  let text := root ++ List.intercalate ['/'] components
  if text.isEmpty then "." else String.ofList text

def normalPath (path : String) : String :=
  joinPath (pathRoot path.toList) (pathComponents path.toList)

def parentPath (path : String) : String :=
  joinPath (pathRoot path.toList) (pathComponents path.toList).dropLast

/-- The last component of a path, empty where it has none. -/
def fileName (path : String) : List Char :=
  (pathComponents path.toList).getLastD []

/-- Splits a name before its last dot, unless that dot comes first or last. -/
def splitSuffix (name : List Char) : List Char × List Char :=
  let suffix := (name.reverse.takeWhile (· ≠ '.')).reverse
  let stem := name.take (name.length - suffix.length - 1)
  if stem.isEmpty || suffix.isEmpty then (name, []) else (stem, '.' :: suffix)

def fileSuffix (path : String) : String :=
  String.ofList (splitSuffix (fileName path)).2

def fileStem (path : String) : String :=
  String.ofList (splitSuffix (fileName path)).1

end Chip8.Text
