import Dmg.Proofs.Cpu.Standstill

/-
  The low half of F, below the four flags.

  Clearing it goes along with every instruction: nothing reads
  it, and what is written over F has it clear or leaves it
  alone.  So a processor that starts with it clear keeps it
  clear, and two processors that differ there alone do the
  same.

  The one thing that carries the registers as they are is the
  report of an opcode without instruction.  Its wording shows
  them without the low half of F.

  Key definitions include:
    * `Registers.masked`
    * `Core.masked`
    * `Core.Reached`
    * `Core.Alike`

  Main results:
    * `Core.step_masked`
    * `Core.lowHalf_clear_and_unseen`
-/

namespace Dmg

------------------------------------------------------------
-- Flags
------------------------------------------------------------

/- The flags lie in the upper half of F. -/
theorem Flag.bit_upperHalf
    (x : Flag) :
    bit 0xF0 x.position = true := by
  cases x <;> decide

theorem Flags.toByte_and_upperHalf
    (fl : Flags) :
    fl.toByte &&& 0xF0 = fl.toByte := by
  rcases fl with ⟨z, n, h, c⟩
  cases z <;> cases n <;> cases h <;> cases c <;> decide

theorem setBit_and_upperHalf
    (b : UInt8)
    (x : Flag)
    (on : Bool) :
    setBit (b &&& 0xF0) x.position on =
      setBit b x.position on &&& 0xF0 := by
  apply byte_ext
  intro i
  rw [bit_setBit, bit_and, bit_and, bit_setBit]
  split
  · next hPosition =>
      rw [← hPosition, x.bit_upperHalf, Bool.and_true]
  · rfl

/- The two halves of a byte are clear of each other. -/
theorem and_upperHalf_eq_self_iff
    (b : UInt8) :
    b &&& 0xF0 = b ↔ b &&& 0x0F = 0 := by
  revert b
  exact forall_byte (by decide +kernel)

------------------------------------------------------------
-- Registers
------------------------------------------------------------

namespace Registers

/- The registers with the low half of F clear. -/
def masked
    (r : Registers) : Registers :=
  { r with f := r.f &&& 0xF0 }

variable (r : Registers)

theorem masked_eq_self_iff :
    r.masked = r ↔ r.f &&& 0x0F = 0 := by
  rw [← and_upperHalf_eq_self_iff]
  constructor
  · intro h
    exact congrArg Registers.f h
  · intro h
    unfold masked
    rw [h]

theorem af_masked :
    r.masked.af = r.af := by
  have hTwice : r.f &&& 0xF0 &&& 0xF0 = r.f &&& 0xF0 := by
    rw [UInt8.and_assoc, UInt8.and_self]
  exact congrArg (word r.a) hTwice

theorem flag_masked
    (x : Flag) :
    r.masked.flag x = r.flag x := by
  unfold flag masked
  rw [bit_and, x.bit_upperHalf, Bool.and_true]

theorem setFlag_masked
    (x : Flag)
    (on : Bool) :
    r.masked.setFlag x on = (r.setFlag x on).masked := by
  unfold setFlag masked
  rw [setBit_and_upperHalf]

/- A change of registers that goes along with the clearing. -/
def Blind
    (g : Registers → Registers) : Prop :=
  ∀ r : Registers, g r.masked = (g r).masked

------------------------------------------------------------
-- Effects On Registers
------------------------------------------------------------

omit r

theorem blind_setFlags
    (fl : Flags) :
    Blind (·.setFlags fl) := by
  intro r
  dsimp only [setFlags, masked]
  rw [fl.toByte_and_upperHalf]

theorem blind_setAF
    (w : UInt16) :
    Blind (·.setAF w) := by
  intro r
  have hTwice :
      lowByte w &&& 0xF0 &&& 0xF0 = lowByte w &&& 0xF0 := by
    rw [UInt8.and_assoc, UInt8.and_self]
  dsimp only [setAF, masked]
  rw [hTwice]

theorem blind_accumulate
    (op : AluOp)
    (v : UInt8) :
    Blind (·.accumulate op v) := by
  intro r
  dsimp only [accumulate]
  rw [flag_masked]
  exact blind_setFlags _ { r with a := _ }

theorem blind_rotateA
    (op : ShiftOp) :
    Blind (·.rotateA op) := by
  intro r
  dsimp only [rotateA]
  rw [flag_masked]
  exact blind_setFlags _ { r with a := _ }

theorem blind_adjustDecimal :
    Blind adjustDecimal := by
  intro r
  simp only [adjustDecimal, flag_masked, setFlag_masked]
  rfl

theorem blind_incFlags
    (v : UInt8) :
    Blind (·.incFlags v) := by
  intro r
  simp only [incFlags, setFlag_masked]

theorem blind_decFlags
    (v : UInt8) :
    Blind (·.decFlags v) := by
  intro r
  simp only [decFlags, setFlag_masked]

theorem blind_complement :
    Blind complement := by
  intro r
  have hInverted :
      ({ r.masked with a := ~~~r.a } : Registers) =
        ({ r with a := ~~~r.a } : Registers).masked := rfl
  change (({ r.masked with a := ~~~r.a }.setFlag .n
    true).setFlag .h true) = _
  rw [hInverted, setFlag_masked, setFlag_masked]
  rfl

theorem blind_setCarry
    (on : Bool) :
    Blind (·.setCarry on) := by
  intro r
  simp only [setCarry, setFlag_masked]

theorem blind_invertCarry :
    Blind fun r => r.setCarry !(r.flag .c) := by
  intro r
  dsimp only
  rw [flag_masked]
  exact blind_setCarry _ r

theorem blind_addToHL
    (w : UInt16) :
    Blind (·.addToHL w) := by
  intro r
  simp only [addToHL, setFlag_masked]
  rfl

theorem offsetFlags_masked
    (half full : Bool)
    (r : Registers) :
    r.masked.offsetFlags half full =
      (r.offsetFlags half full).masked := by
  simp only [offsetFlags, setFlag_masked]

theorem blind_addToSP
    (offset : UInt8) :
    Blind (·.addToSP offset) := by
  intro r
  simp only [addToSP, offsetFlags_masked]
  rfl

theorem blind_loadHLFromSP
    (offset : UInt8) :
    Blind (·.loadHLFromSP offset) := by
  intro r
  simp only [loadHLFromSP, offsetFlags_masked]
  rfl

theorem blind_testFlags
    (set : Bool) :
    Blind (·.testFlags set) := by
  intro r
  simp only [testFlags, setFlag_masked]

end Registers

------------------------------------------------------------
-- Memory And Stack
------------------------------------------------------------

namespace Core

variable {β : Type}

/- The processor with the low half of F clear. -/
def masked
    (s : Core β) : Core β :=
  s.mapRegs Registers.masked

/- A state that comes with an answer, likewise. -/
def maskedAnswer
    {α : Type}
    (r : α × Core β) : α × Core β :=
  (r.1, r.2.masked)

theorem mapRegs_masked
    {g : Registers → Registers}
    (hg : Registers.Blind g)
    (s : Core β) :
    s.masked.mapRegs g = (s.mapRegs g).masked := by
  exact congrArg
    (fun regs : Registers =>
      (⟨{ s.cpu with regs := regs }, s.bus⟩ : Core β))
    (hg s.cpu.regs)

variable [Bus β] (s : Core β)

theorem get_masked
    (o : Operand) :
    s.masked.get o = maskedAnswer (s.get o) := by
  cases o <;> rfl

theorem set_masked
    (o : Operand)
    (v : UInt8) :
    s.masked.set o v = (s.set o v).masked := by
  cases o <;> rfl

omit [Bus β] in
theorem stackPair_masked
    (p : StackPair) :
    s.masked.stackPair p = s.stackPair p := by
  cases p with
  | af => exact s.cpu.regs.af_masked
  | _ => rfl

omit [Bus β] in
theorem setStackPair_masked
    (p : StackPair)
    (w : UInt16) :
    s.masked.setStackPair p w =
      (s.setStackPair p w).masked := by
  cases p with
  | af =>
      exact mapRegs_masked (Registers.blind_setAF w) s
  | _ => rfl

omit [Bus β] in
theorem holds_masked
    (cond : Option Condition) :
    s.masked.holds cond = s.holds cond := by
  have hFlag (x : Flag) :
      s.masked.cpu.regs.flag x = s.cpu.regs.flag x :=
    s.cpu.regs.flag_masked x
  cases cond with
  | none => rfl
  | some cond => cases cond <;> simp only [holds, hFlag]

theorem fetchImmediate_masked
    (kind : Immediate) :
    s.masked.fetchImmediate kind =
      maskedAnswer (s.fetchImmediate kind) := by
  cases kind <;> rfl

------------------------------------------------------------
-- Instructions
------------------------------------------------------------

omit [Bus β] in
theorem branch_masked
    (cond : Option Condition)
    {taken : Core β → Core β}
    (h : ∀ t, taken t.masked = (taken t).masked) :
    s.masked.branch cond taken =
      maskedAnswer (s.branch cond taken) := by
  unfold branch
  rw [holds_masked, h]
  split <;> rfl

theorem halt_masked :
    s.masked.halt = s.halt.masked := by
  have hInterrupts : s.masked.interrupts = s.interrupts :=
    rfl
  dsimp only [halt]
  rw [hInterrupts]
  split <;> rfl

theorem executePrefixed_masked
    (i : PrefixedInstruction) :
    s.masked.executePrefixed i =
      (s.executePrefixed i).masked := by
  cases i with
  | shift op o =>
      have hCarry (t : Core β) :
          t.masked.cpu.regs.flag .c = t.cpu.regs.flag .c :=
        t.cpu.regs.flag_masked .c
      simp only [executePrefixed, get_masked, maskedAnswer,
        hCarry,
        mapRegs_masked (Registers.blind_setFlags _),
        set_masked]
  | test i o =>
      simp only [executePrefixed, get_masked, maskedAnswer,
        mapRegs_masked (Registers.blind_testFlags _)]
  | reset i o =>
      simp only [executePrefixed, get_masked, maskedAnswer,
        set_masked]
  | set i o =>
      simp only [executePrefixed, get_masked, maskedAnswer,
        set_masked]

/- No instruction sees the low half of F or sets it. -/
theorem execute_masked
    (i : Instruction)
    (imm : UInt16) :
    s.masked.execute i imm =
      maskedAnswer (s.execute i imm) := by
  cases i with
  | halt => exact congrArg (Prod.mk _) s.halt_masked
  | extended =>
      exact congrArg (Prod.mk _)
        (executePrefixed_masked (s.note _) _)
  | load dst src =>
      simp only [execute, get_masked, maskedAnswer,
        set_masked]
  | loadByte dst => exact congrArg (Prod.mk _) (set_masked ..)
  | inc o =>
      simp only [execute, get_masked, maskedAnswer,
        mapRegs_masked (Registers.blind_incFlags _),
        set_masked]
  | dec o =>
      simp only [execute, get_masked, maskedAnswer,
        mapRegs_masked (Registers.blind_decFlags _),
        set_masked]
  | addHL p =>
      have hPair : s.masked.pair p = s.pair p := by
        cases p <;> rfl
      simp only [execute, hPair, maskedAnswer,
        mapRegs_masked (Registers.blind_addToHL _)]
  | rlca | rrca | rla | rra =>
      exact congrArg (Prod.mk _)
        (mapRegs_masked (Registers.blind_rotateA _) s)
  | daa =>
      exact congrArg (Prod.mk _)
        (mapRegs_masked Registers.blind_adjustDecimal s)
  | cpl =>
      exact congrArg (Prod.mk _)
        (mapRegs_masked Registers.blind_complement s)
  | scf =>
      exact congrArg (Prod.mk _)
        (mapRegs_masked (Registers.blind_setCarry true) s)
  | ccf =>
      exact congrArg (Prod.mk _)
        (mapRegs_masked Registers.blind_invertCarry s)
  | alu op src =>
      simp only [execute, get_masked, maskedAnswer,
        mapRegs_masked (Registers.blind_accumulate op _)]
  | aluByte op =>
      exact congrArg (Prod.mk _)
        (mapRegs_masked
          (Registers.blind_accumulate op _) s)
  | jumpRelative cond | jump cond | call cond | ret cond =>
      exact branch_masked s cond fun _ => rfl
  | push p =>
      simp only [execute, stackPair_masked]
      rfl
  | pop p =>
      exact congrArg (Prod.mk _)
        (setStackPair_masked s.pop.2 p _)
  | addSP =>
      exact congrArg (Prod.mk _)
        (mapRegs_masked (Registers.blind_addToSP _) s)
  | loadHLSP =>
      exact congrArg (Prod.mk _)
        (mapRegs_masked (Registers.blind_loadHLFromSP _) s)
  | incPair p | decPair p | loadWord p => cases p <;> rfl
  | storeA p | loadA p => cases p <;> rfl
  | _ => rfl

theorem settleEnable_masked :
    s.masked.settleEnable = s.settleEnable.masked := by
  unfold settleEnable
  change (if s.cpu.enableDelay then _ else _) = _
  split
  · rfl
  · change (if s.cpu.enablePending then _ else _) = _
    split <;> rfl

theorem perform_masked
    (pc : UInt16)
    (i : Instruction) :
    s.masked.perform pc i =
      maskedAnswer (s.perform pc i) := by
  unfold perform
  rw [fetchImmediate_masked]
  rcases s.fetchImmediate i.immediate with ⟨imm, t⟩
  have hNoted :
      t.masked.note (.executing pc i imm) =
        (t.note (.executing pc i imm)).masked := rfl
  simp only [maskedAnswer, hNoted, execute_masked]
  rcases (t.note (.executing pc i imm)).execute i imm with
    ⟨flow, u⟩
  cases flow with
  | next =>
      exact congrArg (Prod.mk _)
        (settleEnable_masked (u.skip i.immediate))
  | jump =>
      exact congrArg (Prod.mk _) (settleEnable_masked u)
  | extended more =>
      exact congrArg (Prod.mk _)
        (settleEnable_masked (u.skip i.immediate))

------------------------------------------------------------
-- Steps
------------------------------------------------------------

theorem fetch_masked :
    s.masked.fetch = maskedAnswer s.fetch := by
  rcases s with ⟨⟨regs, halted, stopped, bug, p, d, l⟩, bus⟩
  cases bug <;> rfl

theorem event_masked :
    s.masked.event = s.event :=
  rfl

omit [Bus β] in
theorem fetchedRegs_masked :
    fetchedRegs s.masked.cpu = (fetchedRegs s.cpu).masked := by
  unfold fetchedRegs
  change (if s.cpu.haltBug then _ else _) = _
  split <;> rfl

/- Whether the next step locks the processor. -/
def Locks
    (fault : DecodeFault) : Prop :=
  s.cpu.locked = none ∧ s.event = .failed fault

/-
  A step that does not lock the processor goes along with the
  clearing of the low half of F.
-/
theorem step_masked
    (h : ¬ ∃ fault, s.Locks fault) :
    s.masked.step = maskedAnswer s.step := by
  have hWake : s.masked.wake = s.wake.masked := rfl
  have hPc : s.masked.cpu.regs.pc = s.cpu.regs.pc := rfl
  rw [step_eq, step_eq, event_masked]
  cases hEvent : s.event with
  | idle => rfl
  | entered i => rfl
  | executed i =>
      simp only [hWake, hPc, fetch_masked, maskedAnswer,
        perform_masked]
  | failed fault =>
      cases hLocked : s.cpu.locked with
      | none => exact absurd ⟨fault, hLocked, hEvent⟩ h
      | some first =>
          have hMasked : s.masked.cpu.locked = some first :=
            hLocked
          simp only [failedState, hLocked, hMasked,
            Option.isSome_some, if_true]
          rfl

/- A step leaves the same registers, even if it locks. -/
theorem cpu_step_masked :
    s.masked.step.2.cpu = s.step.2.masked.cpu := by
  by_cases h : ∃ fault, s.Locks fault
  · rcases h with ⟨fault, hLocked, hEvent⟩
    rw [step_of_failed hLocked hEvent,
      step_of_failed (s := s.masked) hLocked hEvent]
    rfl
  · exact congrArg (fun r => r.2.cpu) (step_masked s h)

/- A step makes the same accesses, even if it locks. -/
theorem accesses_masked :
    s.masked.accesses = s.accesses := by
  let r := s.recorded
  change r.masked.step.2.bus.accesses = r.step.2.bus.accesses
  by_cases h : ∃ fault, r.Locks fault
  · rcases h with ⟨fault, hLocked, hEvent⟩
    rw [step_of_failed hLocked hEvent,
      step_of_failed (s := r.masked) hLocked hEvent]
    rfl
  · rw [step_masked r h]
    rfl

end Core

------------------------------------------------------------
-- The Low Half Is Clear
------------------------------------------------------------

/- It is clear in the registers of every run from reset. -/
theorem Core.Reached.lowHalf
    {β : Type}
    [Bus β]
    {s : Core β}
    (h : Reached s) :
    s.cpu.regs.f &&& 0x0F = 0 := by
  have hClear :=
    h.invariant (P := fun cpu => cpu.regs.masked = cpu.regs)
      rfl ?_
  · exact (Registers.masked_eq_self_iff _).mp hClear
  · intro s hBefore
    have hSame : s.masked = s :=
      congrArg
        (fun regs =>
          (⟨{ s.cpu with regs := regs }, s.bus⟩ : Core β))
        hBefore
    have hStep := s.cpu_step_masked
    rw [hSame] at hStep
    exact (congrArg Cpu.regs hStep).symm

------------------------------------------------------------
-- The Low Half Is Not Seen
------------------------------------------------------------

/- Two reports that read the same. -/
structure Message.Alike
    (m n : Message) : Prop where
  level : n.level = m.level
  text : n.text = m.text

/- Of the flags only the upper half of F is reported. -/
theorem Message.pairsText_masked
    (r : Registers) :
    pairsText r.masked = pairsText r := by
  have hBC : r.masked.bc = r.bc := rfl
  have hDE : r.masked.de = r.de := rfl
  have hHL : r.masked.hl = r.hl := rfl
  unfold pairsText
  rw [r.af_masked, hBC, hDE, hHL]

theorem Message.text_cpuLocked_masked
    (fault : DecodeFault)
    (r : Registers) :
    (cpuLocked fault r.masked).text =
      (cpuLocked fault r).text := by
  have hSP : r.masked.sp = r.sp := rfl
  unfold text
  dsimp only
  rw [pairsText_masked, hSP]

theorem Message.alike_cpuLocked
    (fault : DecodeFault)
    {q r : Registers}
    (h : r.masked = q.masked) :
    Alike (.cpuLocked fault q) (.cpuLocked fault r) := by
  constructor
  · rfl
  · rw [← text_cpuLocked_masked fault q,
      ← text_cpuLocked_masked fault r, h]

namespace Core

variable {β : Type} [Bus β]

/-
  Two states that differ at most in the low half of F, and
  once the processor is locked, in the registers that the
  report of it holds.
-/
structure Alike
    (s t : Core β) : Prop where
  cpu : t.masked.cpu = s.masked.cpu
  bus :
    t.bus = s.bus ∨
      s.cpu.locked.isSome ∧
        ∃ m n bus, Message.Alike m n ∧
          s.bus = Bus.note m bus ∧ t.bus = Bus.note n bus

variable {s t : Core β}

omit [Bus β] in
theorem masked_ext
    (hCpu : t.masked.cpu = s.masked.cpu)
    (hBus : t.bus = s.bus) :
    t.masked = s.masked := by
  rcases s with ⟨cpu, bus⟩
  rcases t with ⟨cpu', bus'⟩
  cases hBus
  exact congrArg (fun cpu => (⟨cpu, bus⟩ : Core β)) hCpu

omit [Bus β] in
theorem locked_eq_of_masked
    (hCpu : t.masked.cpu = s.masked.cpu) :
    t.cpu.locked = s.cpu.locked :=
  (congrArg Cpu.locked hCpu :)

/- Such states do the same and are followed by such states. -/
theorem Alike.step
    (h : Alike s t) :
    t.accesses = s.accesses ∧
      t.step.1 = s.step.1 ∧
      Alike s.step.2 t.step.2 := by
  have hLocks := locked_eq_of_masked h.cpu
  cases hLocked : s.cpu.locked with
  | some fault =>
      have hLocked' : t.cpu.locked = some fault :=
        hLocks.trans hLocked
      rw [accesses_of_locked hLocked,
        accesses_of_locked hLocked',
        step_of_locked hLocked, step_of_locked hLocked']
      exact ⟨rfl, rfl, h⟩
  | none =>
      have hBus : t.bus = s.bus := by
        rcases h.bus with hBus | ⟨hSome, -⟩
        · exact hBus
        · rw [hLocked] at hSome
          cases hSome
      have hMasked := masked_ext h.cpu hBus
      have hEvent : t.event = s.event := by
        rw [← event_masked, hMasked, event_masked]
      refine ⟨?_, ?_⟩
      · rw [← accesses_masked, hMasked, accesses_masked]
      by_cases hLock : ∃ fault, s.Locks fault
      · rcases hLock with ⟨fault, -, hFailed⟩
        have hFailed' : t.event = .failed fault :=
          hEvent.trans hFailed
        have hRegs :
            (fetchedRegs t.cpu).masked =
              (fetchedRegs s.cpu).masked := by
          rw [← fetchedRegs_masked, ← fetchedRegs_masked,
            hMasked]
        have hPc : t.cpu.regs.pc = s.cpu.regs.pc :=
          (congrArg (fun u => u.cpu.regs.pc) hMasked :)
        rw [step_of_failed hLocked hFailed,
          step_of_failed (hLocks.trans hLocked) hFailed']
        refine ⟨rfl, ?_,
          .inr ⟨rfl, .cpuLocked fault (fetchedRegs s.cpu),
            .cpuLocked fault (fetchedRegs t.cpu),
            (Bus.read s.cpu.regs.pc s.bus).2, ?_, rfl, ?_⟩⟩
        · exact (congrArg
            (fun u : Core β =>
              { u.cpu with
                halted := false
                haltBug := false
                locked := some fault }) hMasked :)
        · exact Message.alike_cpuLocked fault hRegs
        · simp only [hPc, hBus]
      · have hLock' : ¬ ∃ fault, t.Locks fault := by
          unfold Locks at hLock ⊢
          rw [hLocks, hEvent]
          exact hLock
        have hBoth :
            maskedAnswer t.step = maskedAnswer s.step := by
          rw [← step_masked s hLock, ← step_masked t hLock',
            hMasked]
        refine ⟨(congrArg Prod.fst hBoth :), ?_, .inl ?_⟩
        · exact (congrArg (fun r => r.2.cpu) hBoth :)
        · exact (congrArg (fun r => r.2.bus) hBoth :)

/- They stay alike, however many steps are taken. -/
theorem Alike.afterSteps
    (n : Nat)
    (h : Alike s t) :
    Alike (s.afterSteps n) (t.afterSteps n) := by
  induction n generalizing s t with
  | zero => exact h
  | succ n ih => exact ih h.step.2.2

------------------------------------------------------------
-- PUSH AF
------------------------------------------------------------

/- PUSH fetches its opcode and stores a word on the stack. -/
theorem accesses_push
    {p : StackPair}
    (hEvent : s.event = .executed (.push p)) :
    let pc := s.cpu.regs.pc
    let sp := s.cpu.regs.sp - 2
    let w := s.stackPair p
    s.accesses =
      [.read pc (Bus.read pc s.bus).1,
        .write sp (lowByte w),
        .write (sp + 1) (highByte w)] := by
  intro pc sp w
  have hRecorded : s.recorded.event = .executed (.push p) :=
    s.event_recorded.trans hEvent
  let t := s.recorded.wake.fetch.2
  have hSp : t.cpu.regs.sp = s.cpu.regs.sp := by
    rcases s with ⟨⟨regs, l₁, l₂, bug, l₄, l₅, l₆⟩, bus⟩
    cases bug <;> rfl
  have hPair : t.stackPair p = w := by
    rcases s with ⟨⟨regs, l₁, l₂, bug, l₄, l₅, l₆⟩, bus⟩
    cases p <;> cases bug <;> rfl
  have hFetched :
      t.bus.accesses = [.read pc (Bus.read pc s.bus).1] := by
    simp only [t, fetch_eq]
    rfl
  unfold accesses
  rw [step_eq, hRecorded]
  let u := t.note (.executing pc (.push p) 0)
  change
    (settleEnable
      ((u.push (t.stackPair p)).skip .none)).bus.accesses = _
  rw [accesses_settleEnable, hPair]
  change
    t.bus.accesses ++ [.write (t.cpu.regs.sp - 2) (lowByte w)] ++
        [.write (t.cpu.regs.sp - 2 + 1) (highByte w)] = _
  rw [hSp, hFetched]
  rfl

------------------------------------------------------------
-- The Low Half Of F
------------------------------------------------------------

/- PUSH AF stores A above the upper half of F. -/
theorem accesses_push_af
    {s : Core β}
    (hEvent : s.event = .executed (.push .af)) :
    s.accesses =
      [.read s.cpu.regs.pc
          (Bus.read s.cpu.regs.pc s.bus).1,
        .write (s.cpu.regs.sp - 2) (s.cpu.regs.f &&& 0xF0),
        .write (s.cpu.regs.sp - 2 + 1) s.cpu.regs.a] := by
  have hPush := accesses_push hEvent
  have hWord :
      s.stackPair .af =
        word s.cpu.regs.a (s.cpu.regs.f &&& 0xF0) := rfl
  simp only [hWord, lowByte_word, highByte_word] at hPush
  exact hPush

theorem halves_disjoint
    (b : UInt8) :
    b &&& 0xF0 &&& 0x0F = 0 := by
  rw [UInt8.and_assoc]
  exact UInt8.and_zero

/-
  The low half of F is clear on every run from reset, PUSH AF
  stores a word in which it is clear whatever F is, and two
  states that differ there alone make the same accesses, have
  the same results and go on to differ there alone.
-/
theorem lowHalf_clear_and_unseen :
    (∀ s : Core β,
        Reached s → s.cpu.regs.f &&& 0x0F = 0) ∧
      (∀ s : Core β,
        s.event = .executed (.push .af) →
          ∃ op lo,
            s.accesses =
                [.read s.cpu.regs.pc op,
                  .write (s.cpu.regs.sp - 2) lo,
                  .write (s.cpu.regs.sp - 2 + 1)
                    s.cpu.regs.a] ∧
              lo = s.cpu.regs.f &&& 0xF0 ∧
              lo &&& 0x0F = 0) ∧
      ∀ s t : Core β,
        t.masked.cpu = s.masked.cpu →
        t.bus = s.bus →
          ∀ n,
            let p := s.afterSteps n
            let q := t.afterSteps n
            q.accesses = p.accesses ∧
              q.step.1 = p.step.1 ∧
              Alike p.step.2 q.step.2 := by
  refine ⟨fun s h => h.lowHalf, ?_, ?_⟩
  · intro s hEvent
    exact ⟨_, _, accesses_push_af hEvent, rfl,
      halves_disjoint _⟩
  · intro s t hCpu hBus n
    have hStart : Alike s t := ⟨hCpu, .inl hBus⟩
    exact (hStart.afterSteps n).step

/- A program that moves BC to AF over the stack, and back. -/
def throughStack : FlatMemory :=
  [0xC5, 0xF1, 0xF5].zipIdx.foldl
    (fun m (v, i) => m.poke (0x0100 + i.toUInt16) v) {}

/- A processor after reset but for the low half of F. -/
def withLowHalf : Cpu :=
  { regs := { Registers.atEntry with f := 0xBF } }

theorem reached_afterSteps
    {s : Core β}
    (h : Reached s)
    (n : Nat) :
    Reached (s.afterSteps n) := by
  induction n generalizing s with
  | zero => exact h
  | succ n ih => exact ih h.step

/- C is 0x13 at reset, but F does not become that. -/
theorem lowHalf_throughStack :
    let s := afterSteps 2 ⟨{}, throughStack⟩
    s.cpu.regs.f &&& 0x0F = 0 ∧
      (∃ op lo,
        s.accesses =
            [.read s.cpu.regs.pc op,
              .write (s.cpu.regs.sp - 2) lo,
              .write (s.cpu.regs.sp - 2 + 1)
                s.cpu.regs.a] ∧
          lo = s.cpu.regs.f &&& 0xF0 ∧
          lo &&& 0x0F = 0) ∧
      (afterSteps 2 ⟨withLowHalf, throughStack⟩).accesses =
        s.accesses := by
  intro s
  obtain ⟨hClear, hPush, hUnseen⟩ :=
    lowHalf_clear_and_unseen (β := FlatMemory)
  have hReached : Reached s :=
    reached_afterSteps (.reset throughStack) 2
  have hEvent : s.event = .executed (.push .af) := by
    decide +kernel
  have hMasked :
      ({ withLowHalf with regs := withLowHalf.regs.masked } :
        Cpu) = { regs := Registers.atEntry.masked } := by
    decide
  refine ⟨hClear s hReached, hPush s hEvent, ?_⟩
  exact (hUnseen ⟨{}, throughStack⟩
    ⟨withLowHalf, throughStack⟩ hMasked rfl 2).1

end Core

end Dmg
