import Dmg.Proofs.Cpu.Boundary

/-
  Where the program goes on after an instruction, told from
  the state in which the instruction begins.

  An instruction that does not branch moves PC past the bytes
  that follow its opcode.  A branch relative to PC, and what a
  call or a restart pushes, are told from PC as it is at the
  beginning.

  Key definitions include:
    * `Immediate.value`
    * `Core.branches`
    * `Core.operand`, `Core.primed`

  Main results:
    * `Core.operand_begun`
    * `Core.pc_perform`
    * `Core.pc_perform_relative`
    * `Core.accesses_call`, `Core.accesses_restart`
-/

namespace Dmg

/- The value that follows an opcode, from its two bytes. -/
def Immediate.value
    (lo hi : UInt8) : Immediate → UInt16
  | .none => 0
  | .byte => lo.toUInt16
  | .word => Dmg.word hi lo

namespace Core

variable {β : Type} [Bus β] {s t : Core β}

------------------------------------------------------------
-- Branches
------------------------------------------------------------

/- Whether an instruction sets PC. -/
def branches
    (s : Core β) : Instruction → Bool
  | .jumpRelative cond | .jump cond | .call cond
  | .ret cond => s.holds cond
  | .jumpHL | .reti | .restart _ => true
  | _ => false

omit [Bus β] in
theorem branches_congr
    (h : t.cpu = s.cpu) :
    t.branches = s.branches := by
  rcases s with ⟨cpu, bus⟩
  rcases t with ⟨cpu', bus'⟩
  cases h
  rfl

theorem pc_get
    (o : Operand)
    (s : Core β) :
    (s.get o).2.cpu.regs.pc = s.cpu.regs.pc := by
  cases o <;> rfl

theorem pc_set
    (o : Operand)
    (v : UInt8)
    (s : Core β) :
    (s.set o v).cpu.regs.pc = s.cpu.regs.pc := by
  cases o <;> rfl

theorem pc_executePrefixed
    (i : PrefixedInstruction)
    (s : Core β) :
    (s.executePrefixed i).cpu.regs.pc = s.cpu.regs.pc := by
  cases i with
  | shift op o => exact (pc_set o _ _).trans (pc_get o s)
  | test i o => exact pc_get o s
  | reset i o => exact (pc_set o _ _).trans (pc_get o s)
  | set i o => exact (pc_set o _ _).trans (pc_get o s)

/- Only branches set PC. -/
theorem execute_of_not_branches
    {i : Instruction}
    (h : s.branches i = false)
    (imm : UInt16) :
    (s.execute i imm).1 ≠ .jump ∧
      (s.execute i imm).2.cpu.regs.pc = s.cpu.regs.pc := by
  cases i with
  | jumpRelative cond | jump cond | call cond | ret cond =>
      have hNot : ¬ s.holds cond = true :=
        Bool.eq_false_iff.mp h
      simp only [execute, branch, if_neg hNot]
      exact ⟨Flow.noConfusion, trivial⟩
  | jumpHL | reti | restart => cases h
  | halt =>
      refine ⟨Flow.noConfusion, ?_⟩
      change s.halt.cpu.regs.pc = _
      rw [cpu_halt]
      rfl
  | extended =>
      exact ⟨Flow.noConfusion, pc_executePrefixed _ _⟩
  | load dst src =>
      exact ⟨Flow.noConfusion,
        (pc_set dst _ _).trans (pc_get src s)⟩
  | loadByte dst => exact ⟨Flow.noConfusion, pc_set dst _ s⟩
  | inc o | dec o =>
      exact ⟨Flow.noConfusion,
        (pc_set o _ _).trans (pc_get o s)⟩
  | alu op src => exact ⟨Flow.noConfusion, pc_get src s⟩
  | loadWord p | incPair p | decPair p =>
      cases p <;> exact ⟨Flow.noConfusion, rfl⟩
  | storeA p | loadA p | pop p =>
      cases p <;> exact ⟨Flow.noConfusion, rfl⟩
  | _ => exact ⟨Flow.noConfusion, rfl⟩

------------------------------------------------------------
-- Operands
------------------------------------------------------------

/- The value that an instruction finds behind its opcode. -/
def operand
    (s : Core β)
    (i : Instruction) : UInt16 :=
  (s.fetchImmediate i.immediate).1

/- The state in which an instruction has its effect. -/
def primed
    (pc : UInt16)
    (i : Instruction)
    (s : Core β) : Core β :=
  (s.fetchImmediate i.immediate).2.note
    (.executing pc i (s.operand i))

theorem cpu_primed
    (pc : UInt16)
    (i : Instruction)
    (s : Core β) :
    (s.primed pc i).cpu = s.cpu :=
  fetchImmediate_cpu i.immediate s

theorem perform_state
    (pc : UInt16)
    (i : Instruction)
    (s : Core β) :
    (s.perform pc i).2 =
      ((s.primed pc i).outcome i
        (s.operand i)).2.settleEnable := by
  rw [perform_eq_outcome]
  rfl

section Reads

variable [Bus.QuietReads β]

/- A byte read after the opcode, and one read after that. -/
theorem read_begun
    (addr : UInt16) :
    (Bus.read addr s.begun.bus).1 = (Bus.read addr s.bus).1 :=
  Bus.QuietReads.read_read _ _ _

theorem read_begun_after
    (addr other : UInt16) :
    (Bus.read addr (Bus.read other s.begun.bus).2).1 =
      (Bus.read addr s.bus).1 :=
  (Bus.QuietReads.read_read _ _ _).trans (read_begun addr)

/- An operand is read at PC as it is at the beginning. -/
theorem operand_begun
    (s : Core β)
    (i : Instruction) :
    let pc := s.begun.cpu.regs.pc
    s.begun.operand i =
      i.immediate.value (Bus.read pc s.bus).1
        (Bus.read (pc + 1) s.bus).1 := by
  intro pc
  rw [← read_begun pc, ← read_begun_after (pc + 1) pc]
  unfold operand
  cases i.immediate <;> rfl

end Reads

------------------------------------------------------------
-- The Program Counter
------------------------------------------------------------

theorem regs_perform
    (pc : UInt16)
    (i : Instruction)
    (s : Core β) :
    (s.perform pc i).2.cpu.regs =
      ((s.primed pc i).outcome i (s.operand i)).2.cpu.regs := by
  rw [perform_state, cpu_settleEnable]
  rfl

/- Without a branch PC moves past the bytes behind it. -/
theorem pc_perform
    {i : Instruction}
    (h : s.branches i = false)
    (pc : UInt16) :
    (s.perform pc i).2.cpu.regs.pc =
      s.cpu.regs.pc + i.immediate.width.toUInt16 := by
  let u := s.primed pc i
  have hCpu : u.cpu = s.cpu := cpu_primed pc i s
  have hNot : u.branches i = false := by
    rw [branches_congr hCpu]
    exact h
  obtain ⟨hFlow, hPc⟩ :=
    execute_of_not_branches hNot (s.operand i)
  rw [hCpu] at hPc
  rw [regs_perform]
  change (u.outcome i (s.operand i)).2.cpu.regs.pc = _
  unfold outcome
  rcases hResult : u.execute i (s.operand i) with ⟨flow, v⟩
  rw [hResult] at hFlow hPc
  cases flow with
  | next => exact congrArg (· + _) hPc
  | jump => exact absurd rfl hFlow
  | extended more => exact congrArg (· + _) hPc

/- A relative branch leads on from behind its operand. -/
theorem pc_perform_relative
    {cond : Option Condition}
    (h : s.holds cond = true)
    (pc : UInt16) :
    (s.perform pc (.jumpRelative cond)).2.cpu.regs.pc =
      s.cpu.regs.pc + 1 +
        signExtend
          (lowByte (s.operand (.jumpRelative cond))) := by
  let u := s.primed pc (.jumpRelative cond)
  have hCpu : u.cpu = s.cpu := cpu_primed pc _ s
  have hTaken : u.holds cond = true := by
    rw [← h]
    exact congrFun (branches_congr hCpu) (.jumpRelative cond)
  rw [regs_perform, ← hCpu]
  change (u.outcome _ _).2.cpu.regs.pc = _
  simp only [outcome, execute, branch, if_pos hTaken]
  rfl

------------------------------------------------------------
-- Return Addresses
------------------------------------------------------------

/- Past its effect an instruction makes no access. -/
theorem accesses_of_executed
    {i : Instruction}
    (h : s.event = .executed i) :
    let r := s.recorded.begun
    s.accesses =
      ((r.primed s.cpu.regs.pc i).execute i
        (r.operand i)).2.bus.accesses := by
  intro r
  have hRecorded : s.recorded.event = .executed i :=
    s.event_recorded.trans h
  unfold accesses
  rw [(executes_of_event hRecorded).state]
  change (r.perform s.cpu.regs.pc i).2.bus.accesses = _
  rw [perform_state, accesses_settleEnable]
  unfold outcome
  rcases (r.primed s.cpu.regs.pc i).execute i (r.operand i) with
    ⟨flow, u⟩
  cases flow <;> rfl

/- An instruction that calls pushes after it has read. -/
theorem accesses_of_callTo
    {i : Instruction}
    (hEvent : s.event = .executed i)
    (width addr : UInt16) :
    let r := s.recorded.begun
    let u := r.primed s.cpu.regs.pc i
    (u.execute i (r.operand i)).2 = u.callTo width addr →
      s.accesses =
        u.bus.accesses ++
          pushing s.cpu.regs.sp
            (s.begun.cpu.regs.pc + width) := by
  intro r u hCalls
  have hCpu : u.cpu = s.begun.cpu := cpu_primed _ i r
  have hSp : u.cpu.regs.sp = s.cpu.regs.sp := by
    rw [hCpu]
    change (fetchedRegs s.cpu).sp = _
    unfold fetchedRegs
    split <;> rfl
  rw [accesses_of_executed hEvent, hCalls, ← hSp, ← hCpu]
  change u.bus.accesses ++ [_] ++ [_] = _
  rw [List.append_assoc]
  rfl

section Calls

variable [Bus.QuietReads β]

/- A call returns behind its two bytes. -/
theorem accesses_call
    {cond : Option Condition}
    (hEvent : s.event = .executed (.call cond))
    (hTaken : s.begun.holds cond = true) :
    let pc := s.begun.cpu.regs.pc
    s.accesses =
      [.read s.cpu.regs.pc (Bus.read s.cpu.regs.pc s.bus).1,
        .read pc (Bus.read pc s.bus).1,
        .read (pc + 1) (Bus.read (pc + 1) s.bus).1] ++
        pushing s.cpu.regs.sp (pc + 2) := by
  intro pc
  let r := s.recorded.begun
  let u := r.primed s.cpu.regs.pc (.call cond)
  have hCond : u.holds cond = true := hTaken
  have hCalls :
      (u.execute (.call cond) (r.operand (.call cond))).2 =
        u.callTo 2 (r.operand (.call cond)) := by
    simp only [execute, branch, if_pos hCond]
  rw [accesses_of_callTo hEvent _ _ hCalls, ← read_begun pc,
    ← read_begun_after (pc + 1) pc]
  rfl

omit [Bus.QuietReads β] in
/- A restart returns to where it begins. -/
theorem accesses_restart
    {n : Fin 8}
    (hEvent : s.event = .executed (.restart n)) :
    s.accesses =
      .read s.cpu.regs.pc (Bus.read s.cpu.regs.pc s.bus).1 ::
        pushing s.cpu.regs.sp s.begun.cpu.regs.pc := by
  have hAccesses :=
    accesses_of_callTo hEvent 0
      (Instruction.restartAddress n) rfl
  rw [UInt16.add_zero] at hAccesses
  exact hAccesses

end Calls

end Core

end Dmg
