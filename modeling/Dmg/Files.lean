import Dmg.Cartridge

/-
  Access to files, and what can be wrong with a path in
  itself.

  Key definitions include:
    * `Files`
    * `pathFault?`
-/

namespace Dmg

/- An activity that may read and write files. -/
class Files (m : Type → Type) where
  load : String → m (Except FileFault (Array UInt8))
  save :
    String → Array UInt8 → m (Except FileFault Unit)

------------------------------------------------------------
-- Paths
------------------------------------------------------------

/- The size in bytes that every path stays below. -/
def pathLimit : Nat := 4096

/-
  What is wrong with a path whatever it leads to.  A NUL
  cannot be handed to the system, and so comes first.
-/
def pathFault?
    (path : String) : Option FileFault :=
  if path.toList.contains '\x00' then some .nulInName
  else if path = "" then some .notFound
  else if pathLimit ≤ path.utf8ByteSize then
    some .nameTooLong
  else none

/- Stop at what is wrong with a path in itself. -/
def checkPath
    (path : String) : Except FileFault Unit :=
  match pathFault? path with
  | some e => .error e
  | none => .ok ()

end Dmg
