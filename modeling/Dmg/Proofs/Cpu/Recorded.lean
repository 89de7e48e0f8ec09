import Dmg.Memory.Flat
import Dmg.Proofs.Cpu.Invariant
import Dmg.Proofs.Cpu.Translation

/-
  The accesses that the processor makes.

  Any bus can be made to record what passes over it, and the
  processor does on it what it does without the record.  So
  the accesses of a step are defined for every bus, and what
  each access adds to the history of a bus, a step adds.

  Key definitions include:
    * `Recorded`
    * `Core.accesses`
    * `Bus.Historic`
    * `Access.lastWritten`

  Main results:
    * `Core.step_recorded`
    * `Core.step_historic`
-/

namespace Dmg

------------------------------------------------------------
-- Recording Buses
------------------------------------------------------------

/- A bus with the accesses that passed over it, in order. -/
structure Recorded (β : Type) where
  bus : β
  accesses : List Access

variable {β : Type} [Bus β]

namespace Recorded

/- Add an access to the record. -/
def record
    (a : Access)
    (bus : β)
    (r : Recorded β) : Recorded β :=
  ⟨bus, r.accesses ++ [a]⟩

instance : Bus (Recorded β) where
  read addr r :=
    let (v, bus) := Bus.read addr r.bus
    (v, r.record (.read addr v) bus)
  write addr v r :=
    r.record (.write addr v) (Bus.write addr v r.bus)
  interrupts r := Bus.interrupts r.bus
  setInterrupts ic r :=
    { r with bus := Bus.setInterrupts ic r.bus }
  note m r := { r with bus := Bus.note m r.bus }

theorem translation_bus :
    Bus.Translation (Recorded.bus (β := β)) where
  read _ _ := rfl
  write _ _ _ := rfl
  interrupts _ := rfl
  setInterrupts _ _ := rfl
  note _ _ := rfl

end Recorded

namespace Core

/- A processor whose bus begins to record. -/
def recorded
    (s : Core β) : Core (Recorded β) :=
  s.map fun bus => ⟨bus, []⟩

/- The accesses of one step, in order. -/
def accesses
    (s : Core β) : List Access :=
  s.recorded.step.2.bus.accesses

/- A step does the same whether it is recorded or not. -/
theorem step_recorded
    (s : Core β) :
    s.step = mapAnswer Recorded.bus s.recorded.step :=
  step_map Recorded.translation_bus s.recorded

theorem event_recorded
    (s : Core β) :
    s.recorded.event = s.event :=
  (event_map Recorded.translation_bus s.recorded).symm

/- The grant of a source is the same on a recording bus. -/
theorem granted_recorded
    (s : Core β) :
    s.recorded.granted = ⟨s.granted, []⟩ := by
  unfold granted
  rw [s.event_recorded]
  cases s.event <;> rfl

theorem accesses_settleEnable
    (r : Core (Recorded β)) :
    r.settleEnable.bus.accesses = r.bus.accesses := by
  unfold settleEnable
  split
  · rfl
  · split <;> rfl

end Core

------------------------------------------------------------
-- Histories
------------------------------------------------------------

/-
  A property of a bus and the accesses made so far that holds
  after each further access, and that reports and changes of
  the interrupt controller do not touch.
-/
structure Bus.Historic
    (P : List Access → β → Prop) : Prop where
  read :
    ∀ as addr bus, P as bus →
      P (as ++ [.read addr (Bus.read addr bus).1])
        (Bus.read addr bus).2
  write :
    ∀ as addr v bus, P as bus →
      P (as ++ [.write addr v]) (Bus.write addr v bus)
  setInterrupts :
    ∀ as ic bus, P as bus → P as (Bus.setInterrupts ic bus)
  note :
    ∀ as m bus, P as bus → P as (Bus.note m bus)

variable {P : List Access → β → Prop}

/- Such a property is an invariant of the recording bus. -/
theorem Bus.Historic.invariant
    (hP : Bus.Historic P)
    (before : List Access) :
    Bus.Invariant fun r : Recorded β =>
      P (before ++ r.accesses) r.bus where
  read addr r h := by
    have hRead := hP.read _ addr r.bus h
    rw [List.append_assoc] at hRead
    exact hRead
  write addr v r h := by
    have hWritten := hP.write _ addr v r.bus h
    rw [List.append_assoc] at hWritten
    exact hWritten
  setInterrupts ic r h := hP.setInterrupts _ ic r.bus h
  note m r h := hP.note _ m r.bus h

/- What each access adds to a history, a step adds. -/
theorem Core.step_historic
    (hP : Bus.Historic P)
    {before : List Access}
    {s : Core β}
    (h : P before s.bus) :
    P (before ++ s.accesses) s.step.2.bus := by
  have hStart : P (before ++ []) s.recorded.bus.bus := by
    rw [List.append_nil]
    exact h
  have hDone :=
    step_invariant (hP.invariant before) (s := s.recorded)
      hStart
  rw [s.step_recorded]
  exact hDone

------------------------------------------------------------
-- Last Writes
------------------------------------------------------------

namespace Access

/-
  The byte last written at an address, or the one that was
  there at first.
-/
def lastWritten
    (addr : UInt16)
    (first : UInt8)
    (as : List Access) : UInt8 :=
  as.foldl
    (fun last a =>
      match a with
      | .read _ _ => last
      | .write other v => if other = addr then v else last)
    first

variable (addr : UInt16) (first : UInt8) (as : List Access)

theorem lastWritten_append
    (bs : List Access) :
    lastWritten addr first (as ++ bs) =
      lastWritten addr (lastWritten addr first as) bs :=
  List.foldl_append

theorem lastWritten_read
    (other : UInt16)
    (v : UInt8) :
    lastWritten addr first (as ++ [.read other v]) =
      lastWritten addr first as :=
  lastWritten_append addr first as _

theorem lastWritten_write
    (other : UInt16)
    (v : UInt8) :
    lastWritten addr first (as ++ [.write other v]) =
      if other = addr then v
      else lastWritten addr first as :=
  lastWritten_append addr first as _

end Access

end Dmg
