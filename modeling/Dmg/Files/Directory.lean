import Dmg.Files

/-
  A file system small enough to reason about: a working
  directory of plain files, and a few places around it that
  are not plain files.

  Key definitions include:
    * `Place`
    * `Place.at?`
    * `Directory`
    * `Directory.locate`
    * `Directory.load`
    * `Directory.save`
-/

namespace Dmg

------------------------------------------------------------
-- Places
------------------------------------------------------------

/-
  A file that is not plain: one that holds nothing, one that
  never ends, one that has no room, and the two streams that
  a program prints on.
-/
inductive Device where
  | null
  | endless
  | full
  | output
  | errors
deriving DecidableEq, Repr

/-
  What a path leads to.  A directory around the working one
  is told by its way from the root.
-/
inductive Place where
  | around (path : List String)
  | working
  | file (name : String)
  | device (x : Device)
deriving DecidableEq, Repr

namespace Place

def isDirectory : Place → Bool
  | .around _ | .working => true
  | .file _ | .device _ => false

/- The directory that a directory is in. -/
def parent : Place → Place
  | .around path => .around path.dropLast
  | .working => .around ["tmp"]
  | place => place

/-
  The place at the end of a way from the root, if it is one
  of the few that are known.  A file of the system is known
  as something that is no directory, and as no more.
-/
def at? : List String → Option Place
  | ["dev"] => some (.around ["dev"])
  | ["etc"] => some (.around ["etc"])
  | ["proc"] => some (.around ["proc"])
  | ["tmp"] => some (.around ["tmp"])
  | ["dev", "fd"] => some (.around ["dev", "fd"])
  | ["proc", "self"] => some (.around ["proc", "self"])
  | ["proc", "self", "cwd"] => some .working
  | ["dev", "null"] => some (.device .null)
  | ["dev", "stdin"] => some (.device .null)
  | ["etc", "passwd"] => some (.device .null)
  | ["dev", "zero"] => some (.device .endless)
  | ["dev", "full"] => some (.device .full)
  | ["dev", "stdout"] => some (.device .output)
  | ["dev", "stderr"] => some (.device .errors)
  | _ => none

end Place

------------------------------------------------------------
-- Directory
------------------------------------------------------------

/-
  The files of a working directory, by name, and what was
  written as a file to the two streams.
-/
structure Directory where
  files : List (String × Array UInt8) := []
  output : Array UInt8 := #[]
  errors : Array UInt8 := #[]
deriving DecidableEq, Repr

namespace Directory

/- The file of a name. -/
def get?
    (d : Directory)
    (name : String) : Option (Array UInt8) :=
  d.files.lookup name

/- Create or replace the file of a name. -/
def put
    (d : Directory)
    (name : String)
    (bytes : Array UInt8) : Directory :=
  { d with
    files :=
      (name, bytes) :: d.files.filter (·.1 != name) }

theorem get?_put_self
    (d : Directory)
    (name : String)
    (bytes : Array UInt8) :
    (d.put name bytes).get? name = some bytes := by
  simp [get?, put]

private theorem lookup_filter_of_ne
    (files : List (String × Array UInt8))
    {a b : String}
    (h : b ≠ a) :
    (files.filter (·.1 != a)).lookup b =
      files.lookup b := by
  induction files with
  | nil =>
      rfl
  | cons entry files ih =>
      obtain ⟨name, bytes⟩ := entry
      by_cases hName : name = a
      · subst hName
        have hSkip : (b == name) = false := by
          simp [h]
        simpa [List.lookup_cons, hSkip] using ih
      · cases hHead : b == name <;>
          simp [List.lookup_cons, hName, hHead, ih]

theorem get?_put_of_ne
    (d : Directory)
    {a b : String}
    (bytes : Array UInt8)
    (h : b ≠ a) :
    (d.put a bytes).get? b = d.get? b := by
  have hHead : (b == a) = false := by
    simp [h]
  simpa [get?, put, List.lookup_cons, hHead]
    using lookup_filter_of_ne d.files h

------------------------------------------------------------
-- Paths
------------------------------------------------------------

/- The size in bytes that no name goes beyond. -/
def nameLimit : Nat := 255

/- What a name leads to within a directory. -/
def child?
    (d : Directory)
    (name : String) : Place → Option Place
  | .working => (d.get? name).map fun _ => .file name
  | .around path => Place.at? (path ++ [name])
  | .file _ | .device _ => none

/- Follow one name of a path. -/
def stepInto
    (d : Directory)
    (place : Place)
    (name : String) : Except FileFault Place :=
  if !place.isDirectory then .error .notDirectory
  else if name = "" || name = "." then .ok place
  else if name = ".." then .ok place.parent
  else if nameLimit < name.utf8ByteSize then
    .error .nameTooLong
  else
    match d.child? name place with
    | some place => .ok place
    | none => .error .notFound

/- What stands between the slashes of a path. -/
def splitSlash : List Char → List (List Char)
  | [] => [[]]
  | c :: cs =>
      if c = '/' then [] :: splitSlash cs
      else
        match splitSlash cs with
        | [] => [[c]]
        | name :: names => (c :: name) :: names

/- Where a path starts from, and the names along it. -/
def parts
    (path : String) : Place × List String :=
  match (splitSlash path.toList).map String.ofList with
  | "" :: names => (.around [], names)
  | names => (.working, names)

/- What a path leads to. -/
def locate
    (d : Directory)
    (path : String) : Except FileFault Place := do
  checkPath path
  let (start, names) := parts path
  names.foldlM d.stepInto start

------------------------------------------------------------
-- Reading
------------------------------------------------------------

/-
  The bytes of a device.  Those of one that never ends do not
  fit in memory.
-/
def readDevice : Device → Except FileFault (Array UInt8)
  | .null | .output | .errors => .ok #[]
  | .endless | .full =>
      .error (.other "Cannot allocate memory" 12)

/- The contents of the file that a path leads to. -/
def load
    (d : Directory)
    (path : String) : Except FileFault (Array UInt8) := do
  match ← d.locate path with
  | .file name => return (d.get? name).getD #[]
  | .device x => readDevice x
  | .around _ | .working => .error .isDirectory

------------------------------------------------------------
-- Writing
------------------------------------------------------------

/- Write to a device. -/
def writeDevice
    (d : Directory)
    (bytes : Array UInt8) :
    Device → Except FileFault Directory
  | .null | .endless => .ok d
  | .full => .error .noSpace
  | .output => .ok { d with output := d.output ++ bytes }
  | .errors => .ok { d with errors := d.errors ++ bytes }

/-
  Write what a name within a directory leads to, or a new
  file if it leads nowhere.  New files around the working
  directory are out of sight.
-/
def writeAt
    (d : Directory)
    (place : Place)
    (name : String)
    (bytes : Array UInt8) : Except FileFault Directory :=
  match d.child? name place with
  | some (.file name) => .ok (d.put name bytes)
  | some (.device x) => d.writeDevice bytes x
  | some (.around _) | some .working => .error .isDirectory
  | none =>
      if place = .working then .ok (d.put name bytes)
      else .ok d

/-
  Write the file of a name within a directory.  A name with a
  slash after it asks for a directory.
-/
def writeIn
    (d : Directory)
    (place : Place)
    (name : String)
    (slash : Bool)
    (bytes : Array UInt8) : Except FileFault Directory :=
  if !place.isDirectory then .error .notDirectory
  else if slash || name = "." || name = ".." then
    .error .isDirectory
  else if nameLimit < name.utf8ByteSize then
    .error .nameTooLong
  else d.writeAt place name bytes

/- Create or replace the file that a path leads to. -/
def save
    (d : Directory)
    (path : String)
    (bytes : Array UInt8) : Except FileFault Directory := do
  checkPath path
  let (start, names) := parts path
  let slash := names.getLast? == some ""
  match names.reverse.dropWhile (· == "") with
  | [] => .error .isDirectory
  | name :: before =>
      let place ← before.reverse.foldlM d.stepInto start
      d.writeIn place name slash bytes

instance : Files (StateM Directory) where
  load path d := (d.load path, d)
  save path bytes d :=
    match d.save path bytes with
    | .ok d => (.ok (), d)
    | .error e => (.error e, d)

end Directory

end Dmg
