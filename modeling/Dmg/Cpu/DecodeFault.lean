import Dmg.Text.Hex

/-
  The fault that locks the processor: an opcode that names no
  instruction.

  Key definitions include:
    * `DecodeFault`
    * `DecodeFault.message`
-/

namespace Dmg

/- The opcode and the address at which it was met. -/
structure DecodeFault where
  opcode : UInt8
  pc : UInt16
deriving DecidableEq, Repr

/- The wording of the fault. -/
def DecodeFault.message
    (e : DecodeFault) : String :=
  "no handler for opcode 0x" ++ Hex.byte e.opcode ++
    " at PC=0x" ++ Hex.word e.pc

end Dmg
