import Dmg.Proofs.Cpu.Recorded
import Dmg.Proofs.Machine.Requests

/-
  What has passed over the bus of a machine since it was
  switched on or reset, and what that tells of its board.

  A property of a board and its history holds on every machine
  if it holds of fresh boards and if everything that happens
  to a board keeps it.

  Key definitions include:
    * `Machine.executed`
    * `Machine.History`
    * `Board.Historic`

  Main results:
    * `Machine.Reachable.history`
    * `Machine.History.board`
-/

namespace Dmg

namespace Machine

------------------------------------------------------------
-- Steps
------------------------------------------------------------

/- The board as the processor leaves it in a step. -/
def executed
    (m : Machine)
    (journal : Journal) : Wired :=
  (m.core journal).step.2.bus

------------------------------------------------------------
-- Histories
------------------------------------------------------------

/-
  A machine with the accesses to its bus, in order, since it
  was switched on or reset: those of the processor and those
  from outside.
-/
inductive History : List Access → Machine → Prop where
  | new : History [] {}
  | reset
      (m : Machine)
      (journal : Journal) :
      History [] (m.reset journal).1
  | load
      (c : Cartridge)
      (m : Machine)
      (journal : Journal) :
      History [] (m.load c journal).1
  | step
      {as : List Access}
      {m : Machine}
      (h : History as m)
      (journal : Journal) :
      History (as ++ (m.core journal).accesses)
        (m.step journal).1.2
  | takeFrame
      {as : List Access}
      {m : Machine}
      (h : History as m) :
      History as m.takeFrame
  | setButton
      {as : List Access}
      {m : Machine}
      (h : History as m)
      (button : Button)
      (held : Bool)
      (journal : Journal) :
      History as (m.setButton button held journal).1
  | write
      {as : List Access}
      {m : Machine}
      (h : History as m)
      (addr : UInt16)
      (v : UInt8)
      (journal : Journal) :
      History (as ++ [.write addr v])
        (m.write addr v journal).1

/- Every reachable machine has a history. -/
theorem Reachable.history
    {m : Machine}
    (h : m.Reachable) :
    ∃ as, History as m := by
  apply h.lasting (P := fun m => ∃ as, History as m)
  constructor
  · intro m journal
    exact ⟨[], .reset m journal⟩
  · rintro m journal ⟨as, hHistory⟩
    exact ⟨_, hHistory.step journal⟩
  · rintro m ⟨as, hHistory⟩
    exact ⟨as, hHistory.takeFrame⟩
  · rintro button held m journal ⟨as, hHistory⟩
    exact ⟨as, hHistory.setButton button held journal⟩
  · rintro addr v m journal ⟨as, hHistory⟩
    exact ⟨_, hHistory.write addr v journal⟩

end Machine

------------------------------------------------------------
-- Boards
------------------------------------------------------------

/-
  A property of boards with their histories that fresh boards
  have and that nothing that happens to a board takes from it:
  accesses, changes of the interrupt controller, the passing
  of time, buttons, and the taking of a frame.
-/
structure Board.Historic
    (P : List Access → Board → Prop) : Prop where
  fresh :
    ∀ rom, P [] { rom := rom }
  read :
    ∀ as addr v b, P as b → P (as ++ [.read addr v]) b
  write :
    ∀ as addr v b, P as b →
      P (as ++ [.write addr v]) (b.write addr v)
  setInterrupts :
    ∀ as ic b, P as b → P as { b with interrupts := ic }
  advance :
    ∀ as ticks now journal b, P as b →
      P as (b.advance ticks now journal).1
  setButton :
    ∀ as button held b, P as b →
      P as (b.setButton button held)
  takeFrame :
    ∀ as b, P as b →
      P as { b with lcd := { b.lcd with frameReady := false } }

variable {P : List Access → Board → Prop}

theorem Board.Historic.wired
    (hP : Board.Historic P) :
    Bus.Historic fun as (w : Wired) => P as w.board where
  read as addr w h := hP.read as addr _ w.board h
  write as addr v w h := hP.write as addr v w.board h
  setInterrupts as ic w h :=
    hP.setInterrupts as ic w.board h
  note _ _ _ h := h

namespace Machine

/- The processor adds to the history what it accesses. -/
theorem executed_historic
    (hP : Board.Historic P)
    (as : List Access)
    {m : Machine}
    (h : P as m.board)
    (journal : Journal) :
    P (as ++ (m.core journal).accesses)
      (m.executed journal).board :=
  Core.step_historic hP.wired (s := m.core journal) h

/- What is kept on all boards holds on all machines. -/
theorem History.board
    (hP : Board.Historic P)
    {as : List Access}
    {m : Machine}
    (h : History as m) :
    P as m.board := by
  induction h with
  | new => exact hP.fresh _
  | reset m journal => exact hP.fresh m.board.rom
  | load c m journal => exact hP.fresh c.rom
  | @step as m _ journal ih =>
      have hExecuted := executed_historic hP as ih journal
      rcases m.step_outcome journal with
        ⟨e, -, hStep⟩ | ⟨cost, -, hStep⟩
      · rw [hStep]
        exact hExecuted
      · rw [hStep]
        exact hP.advance _ _ _ _ _ hExecuted
  | takeFrame _ ih => exact hP.takeFrame _ _ ih
  | @setButton as m _ button held journal ih =>
      have hSet := hP.setButton as button held m.board ih
      unfold Machine.setButton
      cases m.board.presses button held <;> exact hSet
  | write _ addr v journal ih => exact hP.write _ addr v _ ih

end Machine

end Dmg
