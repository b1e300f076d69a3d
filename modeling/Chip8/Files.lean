import Chip8.Refusal
import Chip8.Text.Path

/-!
# Files

The files of a host by their paths, which are kept in normal form.  A directory
is there if it is listed or if a file lies below it; the working directory `.` is
always there.

* `find?_write`: a file that has been written is found with what was written.
* `find?_remove`: a file that has been removed is not found.
* `save_eq_ok_iff`: a file is saved if its directory is there and the path itself
  is not a directory.
-/

namespace Chip8

/-- Files and their bytes; of two entries for a path the first one counts. -/
structure Files where
  entries : List (String × List UInt8)
  directories : List String

namespace Files

/-- The files of a list, without further directories. -/
def ofList (entries : List (String × List UInt8)) : Files :=
  ⟨entries.map fun e => (Text.normalPath e.1, e.2), []⟩

def find? (f : Files) (path : String) : Option (List UInt8) :=
  f.entries.lookup (Text.normalPath path)

/-- The entries with a path's bytes replaced, or added at the end. -/
def put (path : String) (data : List UInt8) :
    List (String × List UInt8) → List (String × List UInt8)
  | [] => [(path, data)]
  | e :: rest => if path = e.1 then (path, data) :: rest else e :: put path data rest

def write (f : Files) (path : String) (data : List UInt8) : Files :=
  { f with entries := put (Text.normalPath path) data f.entries }

def remove (f : Files) (path : String) : Files :=
  { f with entries := f.entries.filter fun e => e.1 ≠ Text.normalPath path }

theorem lookup_put (path : String) (data : List UInt8) (es : List (String × List UInt8)) :
    (put path data es).lookup path = some data := by
  induction es with
  | nil => simp [put]
  | cons e rest ih =>
    rw [put]
    split
    · rw [List.lookup_cons_self]
    · next h =>
      rw [List.lookup_cons, beq_eq_false_iff_ne.mpr h]
      exact ih

theorem find?_write (f : Files) (path : String) (data : List UInt8) :
    (f.write path data).find? path = some data :=
  lookup_put _ _ _

theorem find?_remove (f : Files) (path : String) : (f.remove path).find? path = none := by
  rw [find?, remove, List.lookup_eq_none_iff]
  intro e he
  have h := (List.mem_filter.mp he).2
  simp only [ne_eq, decide_not, Bool.not_eq_true', decide_eq_false_iff_not] at h
  exact bne_iff_ne.mpr fun h' => h h'.symm

def hasBelow (f : Files) (path : String) : Bool :=
  f.entries.any fun e => (path.toList ++ ['/']).isPrefixOf e.1.toList

def isDirectory (f : Files) (path : String) : Bool :=
  path == "." || f.directories.contains path || f.hasBelow path

def isBelowFile (f : Files) (path : String) : Bool :=
  f.entries.any fun e => (e.1.toList ++ ['/']).isPrefixOf path.toList

/-- Writes a file where a directory for it is there. -/
def save (f : Files) (path : String) (data : List UInt8) : Except Refusal Files :=
  let path := Text.normalPath path
  if f.isDirectory path then .error (.isDirectory path)
  else if f.isDirectory (Text.parentPath path) then .ok (f.write path data)
  else if f.isBelowFile path then .error (.notDirectory path)
  else .error (.noDirectory path)

theorem save_eq_ok_iff {f g : Files} {path : String} {data : List UInt8} :
    f.save path data = .ok g ↔
      f.isDirectory (Text.normalPath path) = false ∧
        f.isDirectory (Text.parentPath (Text.normalPath path)) = true ∧
          f.write (Text.normalPath path) data = g := by
  simp only [save]
  split
  · simp_all
  · split
    · simp_all
    · split <;> simp_all

end Files

end Chip8
