import Dmg.Proofs.Cpu.Boundary
import Dmg.Proofs.Machine.Clock
import Dmg.Proofs.Machine.DeviceRequests

/-
  The devices of a machine request interrupts and do nothing
  else to the interrupt controller.

  The processor of a reachable machine is therefore on a run
  in which it alone moves the master enable.

  Key definitions include:
    * `Machine.OnRun`

  Main results:
    * `Machine.step_core`
    * `Machine.boundary_step`
    * `Machine.Reachable.master_enable`
-/

namespace Dmg

open InterruptController

namespace Machine

------------------------------------------------------------
-- Steps
------------------------------------------------------------

/-
  After a step of the machine the processor is as it left
  itself, and devices have at most requested interrupts.
-/
theorem step_core
    (m : Machine)
    (journal : Journal) :
    let r := m.step journal
    let s := (m.core journal).step
    r.1.1 = s.1 ∧ r.1.2.cpu = s.2.cpu ∧
      Requested s.2.interrupts r.1.2.board.interrupts := by
  rcases m.step_outcome journal with
    ⟨e, hError, hStep⟩ | ⟨cost, hOk, hStep⟩
  · rw [hStep]
    exact ⟨hError.symm, rfl, .refl _⟩
  · rw [hStep]
    exact ⟨hOk.symm, rfl, Board.requested_advance _ _ _ _⟩

/-
  So the steps of a machine are boundaries of its processor,
  and no request is withdrawn at them.
-/
theorem boundary_step
    (m : Machine)
    (journal later : Journal) :
    let s := m.core journal
    let t := (m.step journal).1.2.core later
    Core.Follows s t ∧
      ∀ i,
        s.step.2.interrupts.isPending i = true →
          t.interrupts.isPending i = true := by
  obtain ⟨-, hCpu, hRequested⟩ := m.step_core journal
  refine ⟨⟨hCpu, hRequested.master⟩, ?_⟩
  intro i h
  rcases m.step_outcome journal with
    ⟨e, -, hStep⟩ | ⟨cost, -, hStep⟩
  · rw [hStep]
    exact h
  · rw [hStep]
    exact Board.isPending_advance _ _ _ h

------------------------------------------------------------
-- Runs
------------------------------------------------------------

/- The processor of a machine is on a run from reset. -/
def OnRun
    (m : Machine) : Prop :=
  ∃ es, ∀ journal, Core.Run es (m.core journal)

/- Nothing but the processor moves the master enable. -/
theorem OnRun.between
    {m n : Machine}
    (h : m.OnRun)
    (hCpu : n.cpu = m.cpu)
    (hMaster :
      n.board.interrupts.master =
        m.board.interrupts.master) :
    n.OnRun := by
  rcases h with ⟨es, hRun⟩
  refine ⟨es, ?_⟩
  intro journal
  have hBetween :=
    (hRun journal).between ⟨n.board, journal⟩ hMaster
  unfold core at *
  rw [hCpu]
  exact hBetween

theorem OnRun.step
    {m : Machine}
    (h : m.OnRun)
    (journal : Journal) :
    (m.step journal).1.2.OnRun := by
  rcases h with ⟨es, hRun⟩
  obtain ⟨-, hCpu, hRequested⟩ := m.step_core journal
  refine ⟨(m.core journal).event :: es, ?_⟩
  intro j
  have hBetween :=
    (hRun journal).step.between
      ⟨(m.step journal).1.2.board, j⟩ hRequested.master
  unfold core at *
  rw [hCpu]
  exact hBetween

theorem onRun_reset
    (m : Machine)
    (journal : Journal) :
    (m.reset journal).1.OnRun := by
  refine ⟨[], ?_⟩
  intro j
  exact .reset (⟨m.board.reset, j⟩ : Wired) rfl

theorem OnRun.setButton
    {m : Machine}
    (h : m.OnRun)
    (button : Button)
    (held : Bool)
    (journal : Journal) :
    (m.setButton button held journal).1.OnRun := by
  have hSet := m.board.undisturbed_setButton button held
  unfold Machine.setButton
  cases m.board.presses button held <;>
    exact h.between rfl hSet.master

theorem lasting_onRun :
    Lasting OnRun where
  reset := onRun_reset
  step _ journal h := h.step journal
  takeFrame _ h := h.between rfl rfl
  setButton button held _ journal h :=
    h.setButton button held journal
  write addr v m _ h :=
    h.between rfl (m.board.undisturbed_write addr v).master

/- The processor of a reachable machine is on such a run. -/
theorem Reachable.onRun
    {m : Machine}
    (h : m.Reachable) :
    m.OnRun :=
  h.lasting lasting_onRun

/-
  The master enable of a reachable machine, which no device
  moves: found clear, it rises in a step as the history of
  the processor says, and in a handler that was entered with
  no EI in flight it is clear.
-/
theorem Reachable.master_enable
    {m : Machine}
    (h : m.Reachable) :
    ∃ es : Core.History,
      (∀ journal, Core.Run es (m.core journal)) ∧
        (∀ journal,
          m.board.interrupts.master = false →
            let n := (m.step journal).1.2
            let event := (m.core journal).event
            (n.board.interrupts.master = true ↔
              event = .executed .reti ∨
                ∃ i, event = .executed i ∧ i ≠ .di ∧
                  (es.FollowsEnable ∨ es.CarriesEnable))) ∧
        ∀ (since before : Core.History) (k : Interrupt),
          es = since ++ .entered k :: before →
          before.enabling.inFlight = false →
          .reti ∉ since.executions →
          .ei ∉ since.executions.tail →
            m.board.interrupts.master = false := by
  obtain ⟨es, hRun⟩ := h.onRun
  refine ⟨es, hRun, ?_, ?_⟩
  · intro journal hClear n event
    obtain ⟨-, -, hRequested⟩ := m.step_core journal
    rw [hRequested.master]
    exact (hRun journal).master_step_iff hClear
  · rintro since before k rfl hBefore hReti hEi
    exact (hRun {}).master_in_handler hBefore hReti hEi

end Machine

end Dmg
