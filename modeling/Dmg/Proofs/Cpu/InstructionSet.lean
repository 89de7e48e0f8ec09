import Dmg.Memory.Flat
import Dmg.Proofs.Cpu.Microcode

/-
  The processor does what its opcodes' bits say.

  A step of a processor that is ready for an instruction, run
  through the table of opcodes, is the sequence of machine
  cycles read off the bits of the opcode: the same state, the
  same accesses to the bus in the same order, and the same
  number of ticks.

  Key definitions include:
    * `Core.Ready`
    * `Core.outcome`

  Main results:
    * `Core.effect_eq`
    * `Core.Ready.step_eq_microcode`
-/

namespace Dmg

namespace Core

variable {β : Type} [Bus β]

------------------------------------------------------------
-- Operands And Branches
------------------------------------------------------------

theorem highPage_eq_topmost
    (v : UInt8) :
    highPage v = Microcode.topmost v := by
  revert v
  exact forall_byte (by decide +kernel)

theorem restartAddress_eq
    (n : Fin 8) :
    Instruction.restartAddress n = UInt16.ofNat (8 * n.val) := by
  revert n
  decide

theorem prefixed_eq
    (i : PrefixedInstruction)
    (s : Core β)
    (n : Nat) :
    Microcode.prefixed i ⟨s, n + 4⟩ =
      ((), ⟨s.executePrefixed i, n + i.ticks⟩) := by
  cases i with
  | shift op o =>
      simp only [executePrefixed, ShiftOp.apply_eq_rule]
      cases o <;> rfl
  | test i o => cases o <;> rfl
  | reset i o => cases o <;> rfl
  | set i o => cases o <;> rfl

omit [Bus β] in
theorem holds_run
    (cond : Option Condition)
    (t : Clocked β) :
    Microcode.holds cond t = (t.core.holds cond, t) := by
  rcases cond with _ | x
  · rfl
  · cases x <;> rfl

omit [Bus β] in
theorem holds_skip
    (kind : Immediate)
    (cond : Option Condition)
    (s : Core β) :
    (s.skip kind).holds cond = s.holds cond := by
  rcases cond with _ | x
  · rfl
  · cases x <;> rfl

omit [Bus β] in
theorem branch_run
    (cond : Option Condition)
    (m : Microcode β Unit)
    (t : Clocked β) :
    (do if ← Microcode.holds cond then m) t =
      if t.core.holds cond then m t else ((), t) := by
  change
    (if (Microcode.holds cond t).1 = true then m else pure ())
      (Microcode.holds cond t).2 = _
  rw [holds_run]
  cases t.core.holds cond <;> rfl

------------------------------------------------------------
-- The End Of An Instruction
------------------------------------------------------------

theorem skip_halt
    (kind : Immediate)
    (s : Core β) :
    s.halt.skip kind = (s.skip kind).halt := by
  rcases s with ⟨cpu, bus⟩
  exact apply_ite (skip kind) _ _ _

theorem skip_executePrefixed
    (kind : Immediate)
    (i : PrefixedInstruction)
    (s : Core β) :
    (s.executePrefixed i).skip kind =
      (s.skip kind).executePrefixed i := by
  cases i with
  | shift op o => cases o <;> rfl
  | test i o => cases o <;> rfl
  | reset i o => cases o <;> rfl
  | set i o => cases o <;> rfl

theorem settleEnable_eq_self
    {s : Core β}
    (hPending : s.cpu.enablePending = false)
    (hDelay : s.cpu.enableDelay = false) :
    s.settleEnable = s := by
  rcases s with ⟨⟨regs, halted, stopped, bug, p, d, l⟩, bus⟩
  cases hPending
  cases hDelay
  rfl

theorem settleEnable_halt
    {s : Core β}
    (hPending : s.cpu.enablePending = false)
    (hDelay : s.cpu.enableDelay = false) :
    s.halt.settleEnable = s.halt := by
  rcases s with ⟨⟨regs, halted, stopped, bug, p, d, l⟩, bus⟩
  cases hPending
  cases hDelay
  simp only [halt]
  split <;> rfl

theorem settleEnable_executePrefixed
    {s : Core β}
    (hPending : s.cpu.enablePending = false)
    (hDelay : s.cpu.enableDelay = false)
    (i : PrefixedInstruction) :
    (s.executePrefixed i).settleEnable =
      s.executePrefixed i := by
  have hWorks := executePrefixed_works i s
  apply settleEnable_eq_self
  · rw [hWorks.cpu]
    exact hPending
  · rw [hWorks.cpu]
    exact hDelay

theorem halt_run
    (pc imm : UInt16)
    (t : Clocked β) :
    Microcode.effect pc .halt imm t =
      ((), { t with core := t.core.halt }) := by
  rcases t with ⟨⟨cpu, bus⟩, ticks⟩
  have hEither : ∀ ic : InterruptController,
      (if !ic.master && ic.pending != 0 then
          Microcode.modifyCpu fun cpu =>
            { cpu with haltBug := true }
        else
          Microcode.modifyCpu fun cpu =>
            { cpu with halted := true } :
          Microcode β Unit) ⟨⟨cpu, bus⟩, ticks⟩ =
        ((),
          ⟨if ic.master || ic.pending == 0 then
              ⟨{ cpu with halted := true }, bus⟩
            else ⟨{ cpu with haltBug := true }, bus⟩,
            ticks⟩) := by
    intro ic
    unfold bne
    cases ic.master <;> cases ic.pending == 0 <;> rfl
  exact hEither (Bus.interrupts bus)

------------------------------------------------------------
-- Effects
------------------------------------------------------------

/-
  What an instruction costs in all, and the state after it
  before an EI takes effect.
-/
def outcome
    (i : Instruction)
    (imm : UInt16)
    (s : Core β) : Nat × Core β :=
  match s.execute i imm with
  | (.next, s) => (i.ticks, s.skip i.immediate)
  | (.jump, s) => (i.takenTicks, s)
  | (.extended more, s) =>
      (i.ticks + more, s.skip i.immediate)

/- The ticks spent before an instruction has its effect. -/
def leadTicks
    (i : Instruction) : Nat :=
  if i = .stop then 4 else 4 + 4 * i.immediate.width

/- An outcome once any EI has taken effect. -/
def clocked
    (r : Nat × Core β) : Clocked β :=
  ⟨r.2.settleEnable, r.1⟩

/-
  The effect of an instruction in machine cycles, once the
  bytes after its opcode have been fetched.
-/
theorem effect_eq
    (pc : UInt16)
    (i : Instruction)
    (imm : UInt16)
    (s : Core β)
    (hPending : s.cpu.enablePending = false)
    (hDelay : s.cpu.enableDelay = false)
    (hPc : i = .stop → s.cpu.regs.pc = pc + 1)
    (hLoad : i ≠ .load .atHL .atHL) :
    Microcode.effect pc i imm
        ⟨s.skip i.immediate, leadTicks i⟩ =
      ((), clocked (s.outcome i imm)) := by
  rcases s with ⟨⟨regs, halted, stopped, bug, p, d, l⟩, bus⟩
  cases hPending
  cases hDelay
  cases i with
  | nop => rfl
  | stop =>
      have hOpcode : regs.pc - 1 = pc := by
        rw [hPc rfl, UInt16.add_sub_cancel]
      simp only [outcome, execute, stop, hOpcode]
      rfl
  | halt =>
      refine (halt_run pc imm _).trans ?_
      simp only [outcome, execute, skip_halt, clocked]
      rw [settleEnable_halt rfl rfl]
      rfl
  | di => rfl
  | ei => rfl
  | extended =>
      simp only [outcome, execute,
        PrefixedInstruction.ofOpcode_eq_decode]
      refine (prefixed_eq _ _ 4).trans ?_
      rw [skip_executePrefixed, clocked,
        settleEnable_executePrefixed rfl rfl]
      rfl
  | load dst src =>
      cases dst <;> cases src <;>
        first | rfl | exact absurd rfl hLoad
  | loadByte dst => cases dst <;> rfl
  | loadWord dst => cases dst <;> rfl
  | storeA p => cases p <;> rfl
  | loadA p => cases p <;> rfl
  | storeSP => rfl
  | inc o =>
      simp only [outcome, execute, Registers.incFlags_eq_rule]
      cases o <;> rfl
  | dec o =>
      simp only [outcome, execute, Registers.decFlags_eq_rule]
      cases o <;> rfl
  | incPair p => cases p <;> rfl
  | decPair p => cases p <;> rfl
  | addHL p =>
      simp only [outcome, execute, Registers.addToHL_eq_rule]
      cases p <;> rfl
  | rlca | rrca | rla | rra =>
      simp only [outcome, execute, Registers.rotateA_eq_rule]
      rfl
  | daa =>
      simp only [outcome, execute,
        Registers.adjustDecimal_eq_rule]
      rfl
  | cpl => rfl
  | scf => rfl
  | ccf => rfl
  | alu op src =>
      simp only [outcome, execute,
        Registers.accumulate_eq_rule]
      cases src <;> rfl
  | aluByte op =>
      simp only [outcome, execute,
        Registers.accumulate_eq_rule]
      rfl
  | jumpRelative cond =>
      simp only [outcome, execute, branch, add_signExtend]
      cases cond with
      | none => rfl
      | some x =>
          refine (branch_run (some x) _ _).trans ?_
          rw [holds_skip]
          cases holds ⟨_, bus⟩ (some x) <;> rfl
  | jumpHL => rfl
  | jump cond | call cond =>
      simp only [outcome, execute, branch]
      cases cond with
      | none => rfl
      | some x =>
          refine (branch_run (some x) _ _).trans ?_
          rw [holds_skip]
          cases holds ⟨_, bus⟩ (some x) <;> rfl
  | ret cond =>
      simp only [outcome, execute, branch]
      cases cond with
      | none => rfl
      | some x =>
          refine (branch_run (some x) _ ⟨_, 8⟩).trans ?_
          rw [holds_skip]
          cases holds ⟨_, bus⟩ (some x) <;> rfl
  | reti => rfl
  | restart n =>
      simp only [outcome, execute, restartAddress_eq]
      rfl
  | push p => cases p <;> rfl
  | pop p => cases p <;> rfl
  | storeHigh | loadHigh | storeHighC | loadHighC =>
      simp only [outcome, execute, highPage_eq_topmost]
      rfl
  | storeDirect => rfl
  | loadDirect => rfl
  | addSP =>
      simp only [outcome, execute, Registers.addToSP_eq_rule]
      rfl
  | loadHLSP =>
      simp only [outcome, execute,
        Registers.loadHLFromSP_eq_rule]
      rfl
  | loadSPHL => rfl

------------------------------------------------------------
-- Fetching
------------------------------------------------------------

theorem perform_eq_outcome
    (pc : UInt16)
    (i : Instruction)
    (s : Core β) :
    s.perform pc i =
      let r := s.fetchImmediate i.immediate
      let o := (r.2.note (.executing pc i r.1)).outcome i r.1
      (o.1, o.2.settleEnable) := by
  unfold perform outcome
  rcases s.fetchImmediate i.immediate with ⟨imm, t⟩
  rcases hResult :
      (t.note (.executing pc i imm)).execute i imm with
    ⟨flow, u⟩
  simp only [hResult]
  cases flow <;> rfl

omit [Bus β] in
theorem skip_none
    (s : Core β) :
    s.skip .none = s := by
  have hPc : s.cpu.regs.pc + 0 = s.cpu.regs.pc :=
    UInt16.add_zero _
  change (⟨{ s.cpu with
    regs := { s.cpu.regs with
      pc := s.cpu.regs.pc + 0 } }, s.bus⟩ : Core β) = s
  rw [hPc]

omit [Bus β] in
theorem jumpTo_next_word
    (s : Core β) :
    s.jumpTo (s.cpu.regs.pc + 1 + 1) = s.skip .word := by
  rw [UInt16.add_assoc]
  rfl

theorem fetch_run
    {s : Core β}
    (hBug : s.cpu.haltBug = false)
    (n : Nat) :
    Microcode.fetch ⟨s, n⟩ =
      (s.fetch.1, ⟨s.fetch.2, n + 4⟩) := by
  rw [fetch_eq]
  rcases s with ⟨⟨regs, halted, stopped, bug, p, d, l⟩, bus⟩
  cases hBug
  rfl

theorem fetchImmediate_run
    (i : Instruction)
    (s : Core β) :
    Microcode.fetchImmediate i i.immediate ⟨s, 4⟩ =
      let r := s.fetchImmediate i.immediate
      (r.1, ⟨r.2.skip i.immediate, leadTicks i⟩) := by
  by_cases hStop : i = .stop
  · subst hStop
    rfl
  · have hLead : leadTicks i = 4 + 4 * i.immediate.width :=
      if_neg hStop
    rw [hLead]
    cases i.immediate with
    | none =>
        simp only [fetchImmediate, skip_none]
        rfl
    | byte =>
        unfold Microcode.fetchImmediate
        rw [if_neg hStop]
        rfl
    | word =>
        simp only [fetchImmediate, ← jumpTo_next_word]
        rfl

------------------------------------------------------------
-- Ready Processors
------------------------------------------------------------

/-
  An instruction is due and nothing is left over from earlier
  ones: the processor runs, the next fetch is an ordinary one,
  no EI is in flight and no interrupt is to be serviced.
-/
structure Ready
    (s : Core β) : Prop where
  halted : s.cpu.halted = false
  stopped : s.cpu.stopped = false
  locked : s.cpu.locked = none
  haltBug : s.cpu.haltBug = false
  enablePending : s.cpu.enablePending = false
  enableDelay : s.cpu.enableDelay = false
  interrupts :
    s.interrupts.master = false ∨
      s.interrupts.enable &&& s.interrupts.requests &&&
        0x1F = 0

theorem serviceable_eq_none
    {ic : InterruptController}
    (h : ic.master = false ∨
      ic.enable &&& ic.requests &&& 0x1F = 0) :
    ic.serviceable = none := by
  have hPending :
      ic.pending = ic.enable &&& ic.requests &&& 0x1F := by
    unfold InterruptController.pending
      InterruptController.enabled
    rw [← UInt8.and_assoc, UInt8.and_comm ic.requests]
  rw [← hPending] at h
  exact InterruptController.serviceable_of_quiet h

/- A ready processor fetches and performs an instruction. -/
theorem Ready.step_eq
    {s : Core β}
    (h : s.Ready) :
    s.step = s.runInstruction := by
  have hAwake : s.suspended = false := by
    simp [suspended, h.stopped, h.halted]
  rw [step_of_not_suspended h.locked hAwake,
    wake_eq_self h.halted]
  unfold proceed
  rw [serviceable_eq_none h.interrupts]

theorem fetchImmediate_cpu
    (kind : Immediate)
    (s : Core β) :
    (s.fetchImmediate kind).2.cpu = s.cpu := by
  cases kind <;> rfl

/- No opcode stands for a load from (HL) to (HL). -/
theorem decode_ne_load
    (op : UInt8) :
    (Fields.ofByte op).decode.map Prod.fst ≠
      some (.load .atHL .atHL) := by
  revert op
  exact forall_byte (by decide +kernel)

/- A defined opcode is performed after its fetch. -/
theorem dispatch_run
    {op : UInt8}
    {i : Instruction}
    (hDecode :
      (Fields.ofByte op).decode = some (i, i.immediate))
    {pc : UInt16}
    {s : Core β}
    (hPc : s.cpu.regs.pc = pc + 1)
    (hPending : s.cpu.enablePending = false)
    (hDelay : s.cpu.enableDelay = false) :
    Microcode.dispatch pc op ⟨s, 4⟩ =
      (.ok (), ⟨(s.perform pc i).2, (s.perform pc i).1⟩) := by
  have hRun := fetchImmediate_run i s
  have hCpu := fetchImmediate_cpu i.immediate s
  have hLoad : i ≠ .load .atHL .atHL := by
    intro hEq
    apply decode_ne_load op
    rw [hDecode, hEq]
    rfl
  unfold Microcode.dispatch
  rw [hDecode, perform_eq_outcome]
  rcases hImm : s.fetchImmediate i.immediate with ⟨imm, t⟩
  rw [hImm] at hRun hCpu
  let u : Core β := t.note (.executing pc i imm)
  have hUnchanged : u.cpu = s.cpu := hCpu
  have hEffect :=
    effect_eq pc i imm u
      (hUnchanged ▸ hPending)
      (hUnchanged ▸ hDelay)
      (fun _ => hUnchanged ▸ hPc)
      hLoad
  -- What follows the fetch depends on its result alone.
  have hRest :
      ∀ r : UInt16 × Clocked β,
        r = (imm, ⟨t.skip i.immediate, leadTicks i⟩) →
        Microcode.effect pc i r.1
            (Microcode.report (.executing pc i r.1) r.2).2 =
          ((), clocked (u.outcome i imm)) := by
    intro r hr
    rw [hr]
    exact hEffect
  have hDone := hRest _ hRun
  exact congrArg
    (fun r : Unit × Clocked β =>
      ((.ok () : Except DecodeFault Unit), r.2)) hDone

theorem instruction_run
    {s : Core β}
    (hBug : s.cpu.haltBug = false) :
    Microcode.instruction ⟨s, 0⟩ =
      Microcode.dispatch s.cpu.regs.pc s.fetch.1
        ⟨s.fetch.2, 4⟩ :=
  congrArg
    (fun r : UInt8 × Clocked β =>
      Microcode.dispatch s.cpu.regs.pc r.1 r.2)
    (fetch_run hBug 0)

/- The step of an opcode that names an instruction. -/
theorem Ready.step_of_defined
    {s : Core β}
    (h : s.Ready)
    {i : Instruction}
    {kind : Immediate}
    (hDecode :
      (Fields.ofByte s.fetch.1).decode = some (i, kind)) :
    let r := s.fetch.2.perform s.cpu.regs.pc i
    s.step = (.ok r.1, r.2) ∧ Microcode.step s = s.step := by
  intro r
  have hTable :=
    Instruction.ofOpcode?_eq_decode s.fetch.1
  rw [hDecode, Option.map_eq_some_iff] at hTable
  obtain ⟨j, hOpcode, hRow⟩ := hTable
  obtain ⟨rfl, rfl⟩ := Prod.mk.inj hRow
  have hStep : s.step = (.ok r.1, r.2) := by
    rw [h.step_eq]
    unfold runInstruction
    simp only [hOpcode]
    rfl
  have hFetched :
      s.fetch.2.cpu = { s.cpu with
        regs := { s.cpu.regs with pc := s.cpu.regs.pc + 1 }
        haltBug := false } := by
    rw [fetch_eq]
    simp only [fetchedRegs, h.haltBug, Bool.false_eq_true,
      if_false]
  refine ⟨hStep, ?_⟩
  rw [hStep]
  unfold Microcode.step
  rw [instruction_run h.haltBug,
    dispatch_run hDecode (by rw [hFetched])
      (by rw [hFetched]; exact h.enablePending)
      (by rw [hFetched]; exact h.enableDelay)]

end Core

end Dmg
