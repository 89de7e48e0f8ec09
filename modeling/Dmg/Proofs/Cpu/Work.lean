import Dmg.Cpu.Step

/-
  What an instruction may do: change registers, and reach its
  bus by reads, writes and reports.

  Five instructions do more.  They are the ones that change a
  latch of the processor or the master enable, and each of
  them has an equation of its own.

  Key definitions include:
    * `Message.ofProcessor`
    * `Bus.Accessed`
    * `Core.Works`

  Main results:
    * `Core.execute_works`
-/

namespace Dmg

------------------------------------------------------------
-- Accesses
------------------------------------------------------------

/- Whether a message is one that the processor reports. -/
def Message.ofProcessor : Message → Bool
  | .executing .. | .executingPrefixed .. | .cpuLocked ..
  | .interruptEntered .. | .cpuStopped _ => true
  | _ => false

/-
  A bus after any number of reads, writes and reports of the
  processor.  The interrupt controller is not set past the
  bus.
-/
inductive Bus.Accessed
    {β : Type}
    [Bus β]
    (start : β) : β → Prop where
  | refl : Accessed start start
  | read
      (addr : UInt16)
      {bus : β}
      (h : Accessed start bus) :
      Accessed start (Bus.read addr bus).2
  | write
      (addr : UInt16)
      (v : UInt8)
      {bus : β}
      (h : Accessed start bus) :
      Accessed start (Bus.write addr v bus)
  | note
      (m : Message)
      (hm : m.ofProcessor = true)
      {bus : β}
      (h : Accessed start bus) :
      Accessed start (Bus.note m bus)

namespace Bus.Accessed

variable {β : Type} [Bus β]

theorem trans
    {a b c : β}
    (hab : Accessed a b)
    (hbc : Accessed b c) :
    Accessed a c := by
  induction hbc with
  | refl => exact hab
  | read addr _ ih => exact ih.read addr
  | write addr v _ ih => exact ih.write addr v
  | note m hm _ ih => exact ih.note m hm

end Bus.Accessed

------------------------------------------------------------
-- Work
------------------------------------------------------------

namespace Core

variable {β : Type} [Bus β]

/-
  The second state comes from the first by accesses to the
  bus and changes of registers.  All latches are kept.
-/
structure Works
    (s t : Core β) : Prop where
  cpu : t.cpu = { s.cpu with regs := t.cpu.regs }
  bus : Bus.Accessed s.bus t.bus

namespace Works

theorem refl
    (s : Core β) :
    Works s s :=
  ⟨rfl, .refl⟩

theorem trans
    {s t u : Core β}
    (hst : Works s t)
    (htu : Works t u) :
    Works s u := by
  constructor
  · rw [htu.cpu, hst.cpu]
  · exact hst.bus.trans htu.bus

/- The state of an access that leaves the processor alone. -/
theorem ofBus
    {s : Core β}
    {bus : β}
    (h : Bus.Accessed s.bus bus) :
    Works s ⟨s.cpu, bus⟩ :=
  ⟨rfl, h⟩

end Works

theorem mapRegs_works
    (f : Registers → Registers)
    (s : Core β) :
    Works s (s.mapRegs f) :=
  ⟨rfl, .refl⟩

theorem jumpTo_works
    (pc : UInt16)
    (s : Core β) :
    Works s (s.jumpTo pc) :=
  mapRegs_works _ s

theorem skip_works
    (kind : Immediate)
    (s : Core β) :
    Works s (s.skip kind) :=
  mapRegs_works _ s

theorem setPair_works
    (p : Pair)
    (w : UInt16)
    (s : Core β) :
    Works s (s.setPair p w) := by
  cases p <;> exact ⟨rfl, .refl⟩

theorem setStackPair_works
    (p : StackPair)
    (w : UInt16)
    (s : Core β) :
    Works s (s.setStackPair p w) := by
  cases p <;> exact ⟨rfl, .refl⟩

theorem stepPointer_works
    (p : Pointer)
    (s : Core β) :
    Works s (s.stepPointer p) := by
  cases p <;> exact ⟨rfl, .refl⟩

------------------------------------------------------------
-- Memory And Stack
------------------------------------------------------------

theorem read_works
    (addr : UInt16)
    (s : Core β) :
    Works s (s.read addr).2 :=
  .ofBus (.read addr .refl)

theorem write_works
    (addr : UInt16)
    (v : UInt8)
    (s : Core β) :
    Works s (s.write addr v) :=
  .ofBus (.write addr v .refl)

theorem readWord_works
    (addr : UInt16)
    (s : Core β) :
    Works s (s.readWord addr).2 :=
  .ofBus (.read (addr + 1) (.read addr .refl))

theorem writeWord_works
    (addr w : UInt16)
    (s : Core β) :
    Works s (s.writeWord addr w) :=
  .ofBus
    (.write (addr + 1) (highByte w)
      (.write addr (lowByte w) .refl))

theorem note_works
    {m : Message}
    (hm : m.ofProcessor = true)
    (s : Core β) :
    Works s (s.note m) :=
  .ofBus (.note m hm .refl)

theorem get_works
    (o : Operand)
    (s : Core β) :
    Works s (s.get o).2 := by
  cases o with
  | atHL => exact read_works _ s
  | _ => exact .refl s

theorem set_works
    (o : Operand)
    (v : UInt8)
    (s : Core β) :
    Works s (s.set o v) := by
  cases o with
  | atHL => exact write_works _ v s
  | _ => exact ⟨rfl, .refl⟩

theorem push_works
    (w : UInt16)
    (s : Core β) :
    Works s (s.push w) := by
  unfold push
  exact (mapRegs_works _ s).trans (writeWord_works _ w _)

theorem pop_works
    (s : Core β) :
    Works s s.pop.2 :=
  (readWord_works s.cpu.regs.sp s).trans ⟨rfl, .refl⟩

theorem callTo_works
    (width addr : UInt16)
    (s : Core β) :
    Works s (s.callTo width addr) := by
  unfold callTo
  exact (push_works _ s).trans (jumpTo_works addr _)

theorem returnToCaller_works
    (s : Core β) :
    Works s s.returnToCaller := by
  unfold returnToCaller
  exact (pop_works s).trans (jumpTo_works _ _)

theorem loadAFrom_works
    (addr : UInt16)
    (s : Core β) :
    Works s (s.loadAFrom addr) := by
  unfold loadAFrom
  exact (read_works addr s).trans (mapRegs_works _ _)

theorem storeAAt_works
    (addr : UInt16)
    (s : Core β) :
    Works s (s.storeAAt addr) :=
  write_works addr _ s

theorem fetchImmediate_works
    (kind : Immediate)
    (s : Core β) :
    Works s (s.fetchImmediate kind).2 := by
  cases kind with
  | none => exact .refl s
  | byte => exact read_works _ s
  | word => exact readWord_works _ s

------------------------------------------------------------
-- Instructions
------------------------------------------------------------

theorem branch_works
    (cond : Option Condition)
    {taken : Core β → Core β}
    (h : ∀ s, Works s (taken s))
    (s : Core β) :
    Works s (s.branch cond taken).2 := by
  unfold branch
  split
  · exact h s
  · exact .refl s

theorem executePrefixed_works
    (i : PrefixedInstruction)
    (s : Core β) :
    Works s (s.executePrefixed i) := by
  cases i with
  | shift op o =>
      exact ((get_works o s).trans
        (mapRegs_works _ _)).trans (set_works o _ _)
  | test i o =>
      exact (get_works o s).trans (mapRegs_works _ _)
  | reset i o =>
      exact (get_works o s).trans (set_works o _ _)
  | set i o =>
      exact (get_works o s).trans (set_works o _ _)

end Core

/-
  Whether an instruction changes a latch of the processor or
  the master enable.
-/
def Instruction.latches : Instruction → Bool
  | .stop | .halt | .di | .ei | .reti => true
  | _ => false

namespace Core

variable {β : Type} [Bus β]

/- All other instructions only work. -/
theorem execute_works
    {i : Instruction}
    (h : i.latches = false)
    (imm : UInt16)
    (s : Core β) :
    Works s (s.execute i imm).2 := by
  cases i with
  | stop => cases h
  | halt => cases h
  | di => cases h
  | ei => cases h
  | reti => cases h
  | nop => exact .refl s
  | extended =>
      exact (note_works rfl s).trans
        (executePrefixed_works _ _)
  | load dst src =>
      exact (get_works src s).trans (set_works dst _ _)
  | loadByte dst => exact set_works dst _ s
  | loadWord dst => exact setPair_works dst imm s
  | storeA p =>
      exact (storeAAt_works _ s).trans
        (stepPointer_works p _)
  | loadA p =>
      exact (loadAFrom_works _ s).trans
        (stepPointer_works p _)
  | storeSP => exact writeWord_works imm _ s
  | inc o =>
      exact ((get_works o s).trans
        (mapRegs_works _ _)).trans (set_works o _ _)
  | dec o =>
      exact ((get_works o s).trans
        (mapRegs_works _ _)).trans (set_works o _ _)
  | incPair p => exact setPair_works p _ s
  | decPair p => exact setPair_works p _ s
  | alu op src =>
      exact (get_works src s).trans (mapRegs_works _ _)
  | jumpRelative cond =>
      exact branch_works cond (fun s => jumpTo_works _ s) s
  | jump cond =>
      exact branch_works cond (fun s => jumpTo_works _ s) s
  | jumpHL => exact jumpTo_works _ s
  | call cond =>
      exact branch_works cond (fun s => callTo_works _ _ s) s
  | ret cond =>
      exact branch_works cond returnToCaller_works s
  | restart n => exact callTo_works _ _ s
  | push p => exact push_works _ s
  | pop p =>
      exact (pop_works s).trans (setStackPair_works p _ _)
  | storeHigh => exact storeAAt_works _ s
  | loadHigh => exact loadAFrom_works _ s
  | storeHighC => exact storeAAt_works _ s
  | loadHighC => exact loadAFrom_works _ s
  | storeDirect => exact storeAAt_works imm s
  | loadDirect => exact loadAFrom_works imm s
  | _ => exact ⟨rfl, .refl⟩

end Core

end Dmg
