import Dmg.Proofs.Cpu.Boundary

/-
  The shadow of an EI.

  The instruction behind an EI is executed before any handler
  is entered, and at its end the master enable is set.  A DI
  there cancels the EI.

  Key definitions include:
    * `Core.AtEi`

  Main results:
    * `Core.Boundaries.stays_clear`
    * `Core.Boundaries.enable_shadow`
-/

namespace Dmg

------------------------------------------------------------
-- Enabling
------------------------------------------------------------

namespace Enabling

/- The master enable is clear, and no EI is in flight. -/
def clear : Enabling :=
  ⟨false, false, false⟩

/- Only EI and RETI change that. -/
theorem clear_after
    {e : Core.Event}
    (hEi : e ≠ .executed .ei)
    (hReti : e ≠ .executed .reti) :
    clear.after e = clear := by
  cases e with
  | idle | entered k | failed fault => rfl
  | executed i =>
      by_cases hDi : i = .di
      · rw [hDi]
        rfl
      · exact after_executed clear hDi
          (fun h => hReti (congrArg _ h))
          (fun h => hEi (congrArg _ h))

/- Behind an EI all but DI set the master enable. -/
theorem master_after_shadow
    {i : Instruction}
    (hDi : i ≠ .di) :
    (Enabling.after ⟨false, false, true⟩ (.executed i)).master =
      true := by
  by_cases hReti : i = .reti
  · rw [hReti]
    rfl
  by_cases hEi : i = .ei
  · rw [hEi]
    rfl
  · rw [after_executed _ hDi hReti hEi]
    rfl

end Enabling

namespace Core

variable {β : Type} [Bus β] {s t : Core β}

------------------------------------------------------------
-- The Shadow
------------------------------------------------------------

/-
  An EI is about to be executed, with the master enable clear
  and no EI in flight.
-/
structure AtEi
    (s : Core β) : Prop extends Running s where
  master : s.interrupts.master = false
  enablePending : s.cpu.enablePending = false
  enableDelay : s.cpu.enableDelay = false
  opcode : (Bus.read s.cpu.regs.pc s.bus).1 = 0xFB

theorem AtEi.event
    (h : s.AtEi) :
    s.event = .executed .ei := by
  rw [h.event_eq (.inl h.master)]
  apply instructionEvent_of_opcode
  rw [h.opcode]
  rfl

theorem AtEi.enabling
    (h : s.AtEi) :
    s.enabling = .clear := by
  unfold Core.enabling
  rw [h.master, h.enablePending, h.enableDelay]
  rfl

/- The master enable stays clear until an EI or a RETI. -/
theorem Boundaries.stays_clear
    [Bus.KeepsMaster β]
    {run : Nat → Core β}
    (hRun : Boundaries run)
    (hClear : (run 0).enabling = .clear)
    {n : Nat}
    (hNone :
      ∀ k < n,
        (run k).event ≠ .executed .ei ∧
          (run k).event ≠ .executed .reti) :
    (run n).enabling = .clear := by
  induction n with
  | zero => exact hClear
  | succ n ih =>
      have hBefore := ih fun k hk =>
        hNone k (Nat.lt_succ_of_lt hk)
      obtain ⟨hEi, hReti⟩ := hNone n (Nat.lt_succ_self n)
      rw [(hRun n).enabling_eq, hBefore]
      exact Enabling.clear_after hEi hReti

variable [Bus.QuietReads β]

/- The boundary behind the EI. -/
theorem AtEi.behind
    (h : s.AtEi)
    (hFollows : Follows s t) :
    t.Running ∧
      t.cpu.regs = fetchedRegs s.cpu ∧
      t.enabling = ⟨false, false, true⟩ := by
  have hCpu := hFollows.cpu.trans (cpu_executed h.event)
  have hRegs : s.step.2.cpu.regs = fetchedRegs s.cpu :=
    regs_of_executed h.event rfl (fun _ _ => rfl) fun _ => rfl
  have hEnabling := hFollows.enabling_eq
  rw [h.event, h.enabling] at hEnabling
  refine ⟨⟨?_, ?_, ?_⟩, ?_, hEnabling⟩
  · rw [hCpu]
    exact h.locked
  · rw [hCpu]
    exact h.stopped
  · rw [hCpu]
    rfl
  · rw [hFollows.cpu, hRegs]

/- The boundary behind an instruction other than STOP. -/
theorem alive_of_executed
    {i : Instruction}
    (hEvent : s.event = .executed i)
    (hStop : i ≠ .stop)
    (hLocked : s.cpu.locked = none)
    (hStopped : s.cpu.stopped = false)
    (hFollows : Follows s t) :
    t.cpu.locked = none ∧ t.cpu.stopped = false := by
  rw [hFollows.cpu, cpu_executed hEvent]
  exact ⟨(Cpu.latch_locked _ _ i).trans hLocked,
    (Cpu.latch_stopped _ hStop _).trans hStopped⟩

/-
  An EI executed with the master enable clear and no EI in
  flight: the next step enters no handler but executes the
  instruction behind the EI.  If that is DI, the master enable
  stays clear until an EI or a RETI.  Otherwise it is set at
  the end of that step, and what is pending then is entered at
  the next boundary, unless the instruction was STOP.
-/
theorem Boundaries.enable_shadow
    {run : Nat → Core β}
    (hRun : Boundaries run)
    (hEi : (run 0).AtEi) :
    let s := run 0
    let t := run 1
    let u := run 2
    s.event = .executed .ei ∧
      t.cpu.regs = fetchedRegs s.cpu ∧
      t.interrupts.master = false ∧
      (∀ j, t.event ≠ .entered j) ∧
      ∀ i,
        Instruction.ofOpcode?
            (Bus.read t.cpu.regs.pc t.bus).1 = some i →
          t.Executes i ∧
            (i = .di →
              t.step.2.interrupts.master = false ∧
                ∀ n,
                  (∀ k < n,
                    (run (2 + k)).event ≠ .executed .ei ∧
                      (run (2 + k)).event ≠
                        .executed .reti) →
                    (run (2 + n)).interrupts.master =
                      false) ∧
            (i ≠ .di →
              t.step.2.interrupts.master = true ∧
                (i ≠ .stop →
                  u.interrupts.pending ≠ 0 →
                    ∃ j,
                      u.interrupts.Foremost j ∧
                        u.event = .entered j)) := by
  intro s t u
  obtain ⟨hRunning, hRegs, hEnabling⟩ := hEi.behind (hRun 0)
  have hClear : t.interrupts.master = false :=
    congrArg Enabling.master hEnabling
  refine ⟨hEi.event, hRegs, hClear,
    event_ne_entered (.inl hClear), ?_⟩
  intro i hOpcode
  have hEvent : t.event = .executed i :=
    (hRunning.event_eq (.inl hClear)).trans
      (instructionEvent_of_opcode hOpcode)
  have hStep := enabling_step t
  have hNext : u.enabling = t.enabling.after t.event :=
    (hRun 1).enabling_eq
  rw [hEvent, hEnabling] at hStep hNext
  refine ⟨executes_of_event hEvent, ?_, ?_⟩
  · rintro rfl
    refine ⟨congrArg Enabling.master hStep, ?_⟩
    intro n hNone
    have hStays :=
      (hRun.shift 2).stays_clear hNext (n := n) hNone
    exact congrArg Enabling.master hStays
  · intro hDi
    have hSet := Enabling.master_after_shadow hDi
    rw [← hStep] at hSet
    refine ⟨hSet, ?_⟩
    intro hStop hPending
    obtain ⟨hLocked, hStopped⟩ :=
      alive_of_executed hEvent hStop hRunning.locked
        hRunning.stopped (hRun 1)
    have hMaster : u.interrupts.master = true :=
      (hRun 1).master.trans hSet
    obtain ⟨j, hEntered, hForemost⟩ :=
      event_of_pending hLocked hStopped hMaster hPending
    exact ⟨j, hForemost, hEntered⟩

/- EI and INC A, with VBlank enabled and requested. -/
def enableAndCount : Core FlatMemory :=
  loaded [0xFB, 0x3C]
    { master := false, enable := 0x01, requests := 0x01 }

/- A is counted up before the handler is entered. -/
theorem enable_shadow_counted :
    let t := enableAndCount.afterSteps 1
    let u := enableAndCount.afterSteps 2
    enableAndCount.AtEi ∧
      t.Executes (.inc .a) ∧
      t.step.2.interrupts.master = true ∧
      ∃ j, u.interrupts.Foremost j ∧ u.event = .entered j := by
  intro t u
  have hEi : enableAndCount.AtEi :=
    ⟨⟨rfl, rfl, rfl⟩, rfl, rfl, rfl, by decide +kernel⟩
  obtain ⟨-, -, -, -, hBehind⟩ :=
    (boundaries_afterSteps enableAndCount).enable_shadow hEi
  obtain ⟨hExecutes, -, hOther⟩ :=
    hBehind (.inc .a) (by decide +kernel)
  obtain ⟨hMaster, hEntered⟩ := hOther (by decide)
  exact ⟨hEi, hExecutes, hMaster,
    hEntered (by decide) (by decide +kernel)⟩

end Core

end Dmg
