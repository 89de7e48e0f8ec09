import Dmg.Journal

/-
  The address space as the processor sees it.

  Reads may change the bus, so that a bus may record them.  A
  word is two bytes, the low one first and at the lower
  address; addresses wrap.

  Key definitions include:
    * `Bus`
    * `Bus.readWord`
    * `Bus.writeWord`
-/

namespace Dmg

/-
  Memory and devices reached by address, the interrupt
  controller behind them, and a place to report events to.
-/
class Bus (β : Type) where
  read : UInt16 → β → UInt8 × β
  write : UInt16 → UInt8 → β → β
  interrupts : β → InterruptController
  setInterrupts : InterruptController → β → β
  note : Message → β → β

namespace Bus

variable {β : Type} [Bus β]

/- Read a word: its low byte, then its high byte. -/
@[specialize]
def readWord
    (addr : UInt16)
    (bus : β) : UInt16 × β :=
  let (lo, bus) := read addr bus
  let (hi, bus) := read (addr + 1) bus
  (word hi lo, bus)

/- Write a word: its low byte, then its high byte. -/
@[specialize]
def writeWord
    (addr w : UInt16)
    (bus : β) : β :=
  write (addr + 1) (highByte w)
    (write addr (lowByte w) bus)

end Bus

end Dmg
