import Dmg.Proofs.Cpu.Branches
import Dmg.Proofs.Cpu.Halt

/-
  The bug of HALT.

  A HALT is not heeded if something is pending and the master
  enable is clear.  The next fetch then leaves PC in place, so
  that the instruction behind the HALT begins with PC at its
  own opcode.  If an EI right before the HALT sets the master
  enable, a handler is entered instead, and returns to the
  HALT.

  Key definitions include:
    * `Core.Held`
    * `Core.Unheeded`

  Main results:
    * `Core.held_of_event`
    * `Core.AtHalt.halt_bug`
-/

namespace Dmg

namespace Core

variable {β : Type} [Bus β] {s t : Core β}

------------------------------------------------------------
-- PC Held In Place
------------------------------------------------------------

/-
  A step executes an instruction that begins with PC at its
  own opcode.
-/
structure Held
    (t : Core β)
    (i : Instruction)
    (pc : UInt16) : Prop where
  executes : t.Executes i
  begun : t.begun.cpu.regs.pc = pc
  operand :
    t.begun.operand i =
      i.immediate.value (Bus.read pc t.bus).1
        (Bus.read (pc + 1) t.bus).1
  relative :
    ∀ cond,
      i = .jumpRelative cond →
      t.begun.holds cond = true →
        t.step.2.cpu.regs.pc =
          pc + 1 + signExtend (Bus.read pc t.bus).1
  call :
    ∀ cond,
      i = .call cond →
      t.begun.holds cond = true →
        t.accesses =
          [.read pc (Bus.read pc t.bus).1,
            .read pc (Bus.read pc t.bus).1,
            .read (pc + 1) (Bus.read (pc + 1) t.bus).1] ++
            pushing t.cpu.regs.sp (pc + 2)
  restart :
    ∀ n,
      i = .restart n →
        t.accesses =
          .read pc (Bus.read pc t.bus).1 ::
            pushing t.cpu.regs.sp pc
  next :
    t.begun.branches i = false →
      t.step.2.cpu.regs.pc =
        pc + i.immediate.width.toUInt16
  once : i ≠ .halt → t.step.2.cpu.haltBug = false
  again :
    i = .halt →
      t.step.2.cpu.haltBug = !t.interrupts.suspends

theorem held_of_event
    [Bus.QuietReads β]
    {i : Instruction}
    (hBug : t.cpu.haltBug = true)
    (hEvent : t.event = .executed i) :
    t.Held i t.cpu.regs.pc := by
  have hExecutes := executes_of_event hEvent
  have hBegun : t.begun.cpu.regs.pc = t.cpu.regs.pc := by
    change (fetchedRegs t.cpu).pc = _
    unfold fetchedRegs
    rw [hBug]
    rfl
  have hOperand := operand_begun t i
  dsimp only at hOperand
  rw [hBegun] at hOperand
  constructor
  · exact hExecutes
  · exact hBegun
  · exact hOperand
  · intro cond hJump hTaken
    subst hJump
    rw [hExecutes.state, pc_perform_relative hTaken, hBegun,
      hOperand]
    exact congrArg (fun b => _ + signExtend b)
      (lowByte_toUInt16 _)
  · intro cond hCall hTaken
    subst hCall
    have hAccesses := accesses_call hEvent hTaken
    dsimp only at hAccesses
    rw [hBegun] at hAccesses
    exact hAccesses
  · intro n hRestart
    subst hRestart
    have hAccesses := accesses_restart hEvent
    rw [hBegun] at hAccesses
    exact hAccesses
  · intro hNot
    rw [hExecutes.state, pc_perform hNot, hBegun]
  · intro hOther
    rw [cpu_executed hEvent]
    exact Cpu.latch_haltBug _ hOther _
  · intro hHalt
    subst hHalt
    rw [cpu_executed hEvent]
    exact Bool.false_or _

------------------------------------------------------------
-- An Unheeded HALT
------------------------------------------------------------

/-
  The second state is behind a HALT that the first was about
  to execute and that was not heeded.
-/
structure Unheeded
    (s t : Core β) : Prop where
  running : t.Running
  haltBug : t.cpu.haltBug = true
  regs :
    t.cpu.regs =
      { s.cpu.regs with pc := s.cpu.regs.pc + 1 }
  master : t.interrupts.master = s.cpu.enableDelay

theorem AtHalt.unheeded
    [Bus.QuietReads β]
    (h : s.AtHalt)
    (hClear : s.interrupts.master = false)
    (hPending : s.interrupts.pending ≠ 0)
    (hFollows : Follows s t) :
    Unheeded s t := by
  have hCpu := hFollows.cpu.trans (h.cpu_step (.inl hClear))
  rw [InterruptController.suspends_of_pending hClear hPending]
    at hCpu
  have hMaster :=
    congrArg InterruptController.master
      (h.interrupts_step (.inl hClear))
  refine ⟨⟨?_, ?_, ?_⟩, ?_, ?_, ?_⟩
  · rw [hCpu]
    exact h.locked
  · rw [hCpu]
    exact h.stopped
  · rw [hCpu]
  · rw [hCpu]
    rfl
  · rw [hCpu]
  · rw [hFollows.master, hMaster, hClear]
    exact Bool.false_or _

namespace Unheeded

variable (h : Unheeded s t)

include h

/- With the master enable clear, PC is held for a fetch. -/
theorem held
    [Bus.QuietReads β]
    (hClear : t.interrupts.master = false)
    {i : Instruction}
    (hOpcode :
      Instruction.ofOpcode?
        (Bus.read (s.cpu.regs.pc + 1) t.bus).1 = some i) :
    t.Held i (s.cpu.regs.pc + 1) := by
  have hPc : s.cpu.regs.pc + 1 = t.cpu.regs.pc := by
    rw [h.regs]
  rw [hPc] at hOpcode ⊢
  exact held_of_event h.haltBug
    ((h.running.event_eq (.inl hClear)).trans
      (instructionEvent_of_opcode hOpcode))

/- With it set, a handler is entered, to return to the HALT. -/
theorem enters
    (hMaster : t.interrupts.master = true)
    (hPending : t.interrupts.pending ≠ 0) :
    ∃ i, t.interrupts.Foremost i ∧
      t.Enters i s.cpu.regs.pc := by
  obtain ⟨i, hEvent, hForemost⟩ :=
    event_of_pending h.running.locked h.running.stopped
      hMaster hPending
  have hReturn : returnAddress t.cpu = s.cpu.regs.pc := by
    unfold returnAddress
    rw [h.haltBug, h.regs]
    exact UInt16.add_sub_cancel _ _
  exact ⟨i, hForemost, hReturn ▸ enters_of_event hEvent⟩

end Unheeded

/- The first fetch in a handler is an ordinary one. -/
theorem Enters.pc_begun
    {u : Core β}
    {i : Interrupt}
    {pc : UInt16}
    (h : t.Enters i pc)
    (hFollows : Follows t u) :
    u.begun.cpu.regs.pc = i.vector + 1 := by
  have hUnarmed : u.cpu.haltBug = false := by
    rw [hFollows.cpu, h.cpu]
  change (fetchedRegs u.cpu).pc = _
  rw [fetchedRegs_of_unarmed hUnarmed, hFollows.cpu, h.cpu]

/-
  A HALT with the master enable clear and something pending
  does not suspend the processor.  The instruction behind it
  begins with PC at its own opcode, unless an EI right before
  the HALT takes effect: then the foremost handler is entered,
  to return to the HALT, and begins as usual.
-/
theorem AtHalt.halt_bug
    [Bus.QuietReads β]
    (hHalt : s.AtHalt)
    (hClear : s.interrupts.master = false)
    (hPending : s.interrupts.pending ≠ 0)
    (hFollows : Follows s t) :
    let pc := s.cpu.regs.pc
    s.event = .executed .halt ∧
      t.cpu.halted = false ∧
      t.cpu.regs = { s.cpu.regs with pc := pc + 1 } ∧
      (s.cpu.enableDelay = false →
        ∀ i,
          Instruction.ofOpcode?
              (Bus.read (pc + 1) t.bus).1 = some i →
            t.Held i (pc + 1)) ∧
      (s.AfterEi →
        (∀ i,
          s.step.2.interrupts.isPending i = true →
            t.interrupts.isPending i = true) →
          ∃ i,
            t.interrupts.Foremost i ∧
              t.Enters i pc ∧
              ∀ u, Follows t u →
                u.begun.cpu.regs.pc = i.vector + 1) := by
  intro pc
  have hBehind := hHalt.unheeded hClear hPending hFollows
  have hMaster := hBehind.master
  refine ⟨hHalt.event (.inl hClear), hBehind.running.halted,
    hBehind.regs, ?_, ?_⟩
  · intro hDelay i hOpcode
    rw [hDelay] at hMaster
    exact hBehind.held hMaster hOpcode
  · intro hAfter hKept
    rw [hAfter.enableDelay hClear] at hMaster
    -- The HALT has withdrawn no request.
    have hBefore : s.step.2.interrupts.pending ≠ 0 := by
      rw [hHalt.interrupts_step (.inl hClear)]
      exact hPending
    have hStill : t.interrupts.pending ≠ 0 := by
      rw [InterruptController.pending_ne_zero_iff] at hBefore ⊢
      rcases hBefore with ⟨i, hi⟩
      exact ⟨i, hKept i hi⟩
    obtain ⟨i, hForemost, hEnters⟩ :=
      hBehind.enters hMaster hStill
    exact ⟨i, hForemost, hEnters,
      fun u hNext => hEnters.pc_begun hNext⟩

/- VBlank is requested, and interrupts are disabled. -/
def requestUnheard : InterruptController where
  master := false
  enable := 0x01
  requests := 0x01

/- A HALT and a CALL. -/
def haltBeforeCall : Core FlatMemory :=
  loaded [0x76, 0xCD] requestUnheard

/- An EI and a HALT, and the EI is executed. -/
def haltAfterEnable : Core FlatMemory :=
  (loaded [0xFB, 0x76] requestUnheard).step.2

/-
  The CALL takes its opcode for the low byte of its target,
  and returns to 0x0103.  After the EI, the handler returns to
  the HALT.
-/
theorem halt_bug_beforeCall :
    let t := haltBeforeCall.step.2
    let u := haltAfterEnable.step.2
    haltBeforeCall.AtHalt ∧
      t.begun.operand (.call none) = 0x00CD ∧
      t.accesses =
        [.read 0x0101 0xCD, .read 0x0101 0xCD,
          .read 0x0102 0x00, .write 0xFFFC 0x03,
          .write 0xFFFD 0x01] ∧
      haltAfterEnable.AtHalt ∧
      ∃ i, u.interrupts.Foremost i ∧ u.Enters i 0x0101 := by
  intro t u
  have hCall : haltBeforeCall.AtHalt :=
    ⟨⟨rfl, rfl, rfl⟩, rfl, by decide +kernel⟩
  have hEnable : haltAfterEnable.AtHalt :=
    ⟨⟨by decide +kernel, by decide +kernel,
      by decide +kernel⟩, by decide +kernel,
      by decide +kernel⟩
  obtain ⟨-, -, -, hHeld, -⟩ :=
    hCall.halt_bug rfl (by decide +kernel)
      (follows_step haltBeforeCall)
  have hT : t.Held (.call none) 0x0101 :=
    hHeld rfl _ (by decide +kernel)
  have hAfter : haltAfterEnable.AfterEi :=
    ⟨_, by decide +kernel, follows_step _⟩
  obtain ⟨-, -, -, -, hEnters⟩ :=
    hEnable.halt_bug (by decide +kernel) (by decide +kernel)
      (follows_step haltAfterEnable)
  obtain ⟨i, hForemost, hEntered, -⟩ :=
    hEnters hAfter fun i hi => hi
  have hPc : haltAfterEnable.cpu.regs.pc = 0x0101 := by
    decide +kernel
  rw [hPc] at hEntered
  refine ⟨hCall, ?_, ?_, hEnable, i, hForemost, hEntered⟩
  · rw [hT.operand]
    decide +kernel
  · rw [hT.call none rfl rfl]
    decide +kernel

end Core

end Dmg
