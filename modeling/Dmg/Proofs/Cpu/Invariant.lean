import Dmg.Proofs.Cpu.Event

/-
  What every access to the bus keeps, a step of the processor
  keeps.

  The processor changes the interrupt controller in two ways:
  it acknowledges a source when it enters a handler, which is
  the first thing it does then, and it moves the master
  enable.  So what accesses and the master enable leave alone
  has changed after a step no more than the acknowledgement
  has changed it.

  Key definitions include:
    * `Bus.Steady`
    * `Bus.Invariant`
    * `Core.granted`

  Main results:
    * `Core.step_steady`
    * `Core.step_invariant`
-/

namespace Dmg

/-
  A property of a bus that holds after a read, a write, a
  report of the processor or a change of the master enable if
  it holds before it.
-/
structure Bus.Steady
    {β : Type}
    [Bus β]
    (P : β → Prop) : Prop where
  read :
    ∀ addr bus, P bus → P (Bus.read addr bus).2
  write :
    ∀ addr v bus, P bus → P (Bus.write addr v bus)
  setMaster :
    ∀ on bus, P bus →
      P (Bus.setInterrupts
        ((Bus.interrupts bus).setMaster on) bus)
  note :
    ∀ m bus, m.ofProcessor = true →
      P bus → P (Bus.note m bus)

/-
  A property of a bus that holds after a read, a write, a
  report or a change of the interrupt controller if it holds
  before it.
-/
structure Bus.Invariant
    {β : Type}
    [Bus β]
    (P : β → Prop) : Prop where
  read :
    ∀ addr bus, P bus → P (Bus.read addr bus).2
  write :
    ∀ addr v bus, P bus → P (Bus.write addr v bus)
  setInterrupts :
    ∀ ic bus, P bus → P (Bus.setInterrupts ic bus)
  note :
    ∀ m bus, P bus → P (Bus.note m bus)

variable {β : Type} [Bus β] {P : β → Prop}

theorem Bus.Invariant.steady
    (hP : Bus.Invariant P) :
    Bus.Steady P where
  read := hP.read
  write := hP.write
  setMaster _ _ := hP.setInterrupts _ _
  note m bus _ := hP.note m bus

theorem Bus.Accessed.steady
    (hP : Bus.Steady P)
    {a b : β}
    (h : Bus.Accessed a b)
    (hStart : P a) :
    P b := by
  induction h with
  | refl => exact hStart
  | read addr _ ih => exact hP.read addr _ ih
  | write addr v _ ih => exact hP.write addr v _ ih
  | note m hm _ ih => exact hP.note m _ hm ih

namespace Core

/-
  The bus when the processor begins to access it in a step: a
  source that is to be serviced has been acknowledged.
-/
def granted
    (s : Core β) : β :=
  match s.event with
  | .entered i =>
      Bus.setInterrupts
        ((Bus.interrupts s.bus).acknowledge i) s.bus
  | _ => s.bus

theorem Works.steady
    (hP : Bus.Steady P)
    {s t : Core β}
    (h : Works s t)
    (hs : P s.bus) :
    P t.bus :=
  h.bus.steady hP hs

theorem settleEnable_steady
    (hP : Bus.Steady P)
    {s : Core β}
    (hs : P s.bus) :
    P s.settleEnable.bus := by
  unfold settleEnable
  split
  · exact hP.setMaster true _ hs
  · split
    · exact hs
    · exact hs

theorem execute_steady
    (hP : Bus.Steady P)
    (i : Instruction)
    (imm : UInt16)
    {s : Core β}
    (hs : P s.bus) :
    P (s.execute i imm).2.bus := by
  cases hLatches : i.latches with
  | false =>
      exact (execute_works hLatches imm s).steady hP hs
  | true =>
      cases i with
      | stop => exact hP.note _ _ rfl hs
      | halt =>
          simp only [execute, halt]
          split <;> exact hs
      | di => exact hP.setMaster false _ hs
      | ei => exact hs
      | reti =>
          have hSet : P (s.forceMaster true).bus :=
            hP.setMaster true _ hs
          exact (returnToCaller_works _).steady hP hSet
      | _ => cases hLatches

theorem perform_steady
    (hP : Bus.Steady P)
    (pc : UInt16)
    (i : Instruction)
    {s : Core β}
    (hs : P s.bus) :
    P (s.perform pc i).2.bus := by
  have hFetched : P (s.fetchImmediate i.immediate).2.bus :=
    (fetchImmediate_works i.immediate s).steady hP hs
  unfold perform
  rcases hImm : s.fetchImmediate i.immediate with ⟨imm, t⟩
  rw [hImm] at hFetched
  have hNoted : P (t.note (.executing pc i imm)).bus :=
    hP.note _ _ rfl hFetched
  have hExecuted := execute_steady hP i imm hNoted
  rcases hResult :
      (t.note (.executing pc i imm)).execute i imm with
    ⟨flow, u⟩
  rw [hResult] at hExecuted
  simp only [hResult]
  cases flow <;> exact settleEnable_steady hP hExecuted

/- A handler is entered once its source is acknowledged. -/
theorem enterHandler_steady
    (hP : Bus.Steady P)
    (i : Interrupt)
    {s : Core β}
    (hs : P (s.mapInterrupts (·.acknowledge i)).bus) :
    P (s.enterHandler i).bus := by
  let t : Core β :=
    ⟨{ s.cpu with haltBug := false },
      (s.mapInterrupts (·.acknowledge i)).bus⟩
  have hPushed : P (t.push (returnAddress s.cpu)).bus :=
    (push_works _ t).steady hP hs
  exact hP.note _ _ rfl hPushed

/-
  A step keeps what accesses and the master enable keep, once
  the source to be serviced is acknowledged.
-/
theorem step_steady
    (hP : Bus.Steady P)
    {s : Core β}
    (hs : P s.granted) :
    P s.step.2.bus := by
  have hFetched (h : P s.bus) : P s.wake.fetch.2.bus := by
    rw [fetch_eq]
    exact hP.read _ _ h
  unfold granted at hs
  rw [step_eq]
  cases hEvent : s.event with
  | idle =>
      rw [hEvent] at hs
      exact hs
  | entered i =>
      rw [hEvent] at hs
      exact enterHandler_steady hP i hs
  | executed i =>
      rw [hEvent] at hs
      exact perform_steady hP _ i (hFetched hs)
  | failed fault =>
      rw [hEvent] at hs
      simp only [failedState]
      split
      · exact hs
      · exact hP.note _ _ rfl (hFetched hs)

/- A step keeps what each access to the bus keeps. -/
theorem step_invariant
    (hP : Bus.Invariant P)
    {s : Core β}
    (hs : P s.bus) :
    P s.step.2.bus := by
  have hGranted : P s.granted := by
    unfold granted
    split
    · exact hP.setInterrupts _ _ hs
    · exact hs
  exact step_steady hP.steady hGranted

end Core

end Dmg
