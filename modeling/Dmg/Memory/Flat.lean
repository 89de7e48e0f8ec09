import Dmg.Bus
import Dmg.Text.Hex

/-
  A bus of plain memory that records every access, for
  running the processor on its own.

  All 64 KiB are memory without protection, except that
  0xFF0F and 0xFFFF are IF and IE.

  Key definitions include:
    * `Access`
    * `FlatMemory`
    * `FlatMemory.peek`
    * `FlatMemory.poke`
-/

namespace Dmg

/- One access through the bus, with the byte that passed. -/
inductive Access where
  | read (addr : UInt16) (v : UInt8)
  | write (addr : UInt16) (v : UInt8)
deriving DecidableEq, Repr

/- The kind, address and byte of an access. -/
def Access.text : Access → String
  | .read addr v =>
      "r" ++ Hex.word addr ++ "=" ++ Hex.byte v
  | .write addr v =>
      "w" ++ Hex.word addr ++ "=" ++ Hex.byte v

/- Memory, interrupt controller, accesses and events. -/
structure FlatMemory where
  ram : Vector UInt8 0x10000 := .replicate 0x10000 0
  interrupts : InterruptController := {}
  accesses : Array Access := #[]
  journal : Journal := {}

namespace FlatMemory

/- The byte in memory, past IF and IE, unrecorded. -/
def peek
    (m : FlatMemory)
    (addr : UInt16) : UInt8 :=
  have h : addr.toNat < 0x10000 := addr.toNat_lt
  m.ram[addr.toNat]

/- Set the byte in memory, past IF and IE, unrecorded. -/
def poke
    (m : FlatMemory)
    (addr : UInt16)
    (v : UInt8) : FlatMemory :=
  { m with ram := m.ram.set addr.toNat v addr.toNat_lt }

theorem peek_poke_self
    (m : FlatMemory)
    (addr : UInt16)
    (v : UInt8) :
    (m.poke addr v).peek addr = v := by
  simp [peek, poke]

theorem peek_poke_of_ne
    (m : FlatMemory)
    {a b : UInt16}
    (v : UInt8)
    (h : a ≠ b) :
    (m.poke a v).peek b = m.peek b := by
  have hNat : a.toNat ≠ b.toNat :=
    fun hEq => h (UInt16.toNat_inj.mp hEq)
  simp [peek, poke, hNat]

/- The byte that the bus answers with. -/
def load
    (m : FlatMemory)
    (addr : UInt16) : UInt8 :=
  if addr = 0xFF0F then m.interrupts.readRequests
  else if addr = 0xFFFF then m.interrupts.enable
  else m.peek addr

/- The effect of a write through the bus. -/
def store
    (m : FlatMemory)
    (addr : UInt16)
    (v : UInt8) : FlatMemory :=
  if addr = 0xFF0F then
    { m with interrupts := m.interrupts.writeRequests v }
  else if addr = 0xFFFF then
    { m with interrupts := m.interrupts.writeEnable v }
  else m.poke addr v

/- Record an access. -/
def record
    (m : FlatMemory)
    (x : Access) : FlatMemory :=
  { m with accesses := m.accesses.push x }

instance : Bus FlatMemory where
  read addr m :=
    let v := m.load addr
    (v, m.record (.read addr v))
  write addr v m := (m.store addr v).record (.write addr v)
  interrupts m := m.interrupts
  setInterrupts ic m := { m with interrupts := ic }
  note x m := { m with journal := m.journal.note x }

end FlatMemory

end Dmg
