import Dmg.Proofs.Cpu.InstructionSet
import Dmg.Proofs.Cpu.Recorded

/-
  The instructions after the prefix 0xCB.

  Each of them has one operand, a register or the byte at HL.
  It reads the operand, makes a new byte and new flags of it,
  and puts the byte back; only a test does not.  Nothing else
  is touched.

  Key definitions include:
    * `Operand.load`, `Operand.put`
    * `PrefixedInstruction.target`
    * `PrefixedInstruction.Yields`
    * `PrefixedInstruction.cost`
    * `PrefixedInstruction.accesses`

  Main results:
    * `PrefixedInstruction.yields_altered`
    * `Core.executePrefixed_eq`
    * `Core.Ready.step_of_prefix`
    * `Core.Ready.step_prefixed`
-/

namespace Dmg

------------------------------------------------------------
-- Operands
------------------------------------------------------------

namespace Operand

/- The byte of an operand, and the bus once it is read. -/
def load
    {β : Type}
    [Bus β]
    (o : Operand)
    (r : Registers)
    (bus : β) : UInt8 × β :=
  match o with
  | .b => (r.b, bus)
  | .c => (r.c, bus)
  | .d => (r.d, bus)
  | .e => (r.e, bus)
  | .h => (r.h, bus)
  | .l => (r.l, bus)
  | .atHL => Bus.read r.hl bus
  | .a => (r.a, bus)

/- Set the register that an operand is, if it is one. -/
def put
    (o : Operand)
    (w : UInt8)
    (r : Registers) : Registers :=
  match o with
  | .b => { r with b := w }
  | .c => { r with c := w }
  | .d => { r with d := w }
  | .e => { r with e := w }
  | .h => { r with h := w }
  | .l => { r with l := w }
  | .atHL => r
  | .a => { r with a := w }

end Operand

------------------------------------------------------------
-- Instructions
------------------------------------------------------------

namespace PrefixedInstruction

/- The operand of an instruction. -/
def target : PrefixedInstruction → Operand
  | .shift _ o | .test _ o | .reset _ o | .set _ o => o

/- Whether a byte is put back: only a test leaves it. -/
def putsBack : PrefixedInstruction → Bool
  | .test _ _ => false
  | _ => true

/- The cost of an instruction, its prefix included. -/
def cost
    (i : PrefixedInstruction) : Nat :=
  if i.target = .atHL then if i.putsBack then 16 else 12
  else 8

theorem cost_eq
    (i : PrefixedInstruction) :
    i.cost = 4 + i.ticks := by
  cases i with
  | shift op o => cases o <;> rfl
  | test k o => cases o <;> rfl
  | reset k o => cases o <;> rfl
  | set k o => cases o <;> rfl

/-
  The accesses of an instruction after those to its two
  bytes: one read at HL, and one write of the new byte.
-/
def accesses
    (i : PrefixedInstruction)
    (hl : UInt16)
    (v w : UInt8) : List Access :=
  if i.target = .atHL then
    .read hl v :: if i.putsBack then [.write hl w] else []
  else []

/-
  What an instruction makes of its operand `v` and of F: the
  byte `w`, and `f'` for `f`.
-/
def Yields
    (i : PrefixedInstruction)
    (v f w f' : UInt8) : Prop :=
  match i with
  | .shift op _ =>
      w.toNat =
          Rules.shifted op v.toNat (bit f Flag.c.position) ∧
        f' =
          Flags.toByte
            { z := w == 0
              n := false
              h := false
              c := Rules.leaving op v.toNat }
  | .test k _ =>
      w = v ∧
        bit f' Flag.z.position = !bit v k ∧
        bit f' Flag.n.position = false ∧
        bit f' Flag.h.position = true ∧
        ∀ j : Fin 8, j ≤ Flag.c.position → bit f' j = bit f j
  | .reset k _ =>
      (∀ j : Fin 8,
        bit w j = if j = k then false else bit v j) ∧
        f' = f
  | .set k _ =>
      (∀ j : Fin 8,
        bit w j = if j = k then true else bit v j) ∧
        f' = f

/- The byte that an instruction makes, and F after it. -/
def altered
    (i : PrefixedInstruction)
    (v f : UInt8) : UInt8 × UInt8 :=
  match i with
  | .shift op _ =>
      let (w, fl) := op.apply v (bit f Flag.c.position)
      (w, fl.toByte)
  | .test k _ =>
      (v,
        setBit (setBit (setBit f Flag.z.position !(bit v k))
          Flag.n.position false) Flag.h.position true)
  | .reset k _ => (setBit v k false, f)
  | .set k _ => (setBit v k true, f)

/- A shifted byte is a byte. -/
theorem shifted_lt
    (op : ShiftOp)
    {v : Nat}
    (h : v < 256)
    (carry : Bool) :
    Rules.shifted op v carry < 256 := by
  have hCarry := carry.toNat_le
  cases op <;> simp only [Rules.shifted] <;> omega

theorem yields_altered
    (i : PrefixedInstruction)
    (v f : UInt8) :
    i.Yields v f (i.altered v f).1 (i.altered v f).2 := by
  cases i with
  | shift op o =>
      let carry := bit f Flag.c.position
      have hByte := shifted_lt op v.toNat_lt carry
      change
        (op.apply v carry).1.toNat =
            Rules.shifted op v.toNat carry ∧
          (op.apply v carry).2.toByte =
            Flags.toByte
              { z := (op.apply v carry).1 == 0
                n := false
                h := false
                c := Rules.leaving op v.toNat }
      rw [ShiftOp.apply_eq_rule]
      refine ⟨UInt8.toNat_ofNat_of_lt hByte, ?_⟩
      rw [beq_zero_eq_toNat]
      rfl
  | test k o =>
      simp only [Yields, altered, bit_setBit, true_and]
      refine ⟨rfl, rfl, rfl, fun j hj => ?_⟩
      have hOther
          (x : Flag)
          (hx : Flag.c.position < x.position) :
          x.position ≠ j := fun hSame =>
        absurd (hSame ▸ hj) (Fin.not_le.mpr hx)
      rw [if_neg (hOther .h (by decide)),
        if_neg (hOther .n (by decide)),
        if_neg (hOther .z (by decide))]
  | reset k o =>
      refine ⟨fun j => ?_, rfl⟩
      simp only [altered, bit_setBit, eq_comm]
  | set k o =>
      refine ⟨fun j => ?_, rfl⟩
      simp only [altered, bit_setBit, eq_comm]

end PrefixedInstruction

------------------------------------------------------------
-- Effects
------------------------------------------------------------

namespace Core

variable {β : Type} [Bus β]

/- An instruction after the prefix, told at once. -/
theorem executePrefixed_eq
    (i : PrefixedInstruction)
    (pc : UInt16)
    (s : Core β) :
    let r := s.cpu.regs
    let operand := i.target.load r s.bus
    let new := i.altered operand.1 r.f
    (s.jumpTo pc).executePrefixed i =
      ⟨{ s.cpu with
          regs :=
            { i.target.put new.1 r with
              f := new.2
              pc := pc } },
        if i.target = .atHL ∧ i.putsBack = true then
          Bus.write r.hl new.1 operand.2
        else operand.2⟩ := by
  cases i with
  | shift op o => cases o <;> rfl
  | test k o => cases o <;> rfl
  | reset k o => cases o <;> rfl
  | set k o => cases o <;> rfl

/- What it adds to a record of accesses. -/
theorem accesses_executePrefixed
    (i : PrefixedInstruction)
    (pc : UInt16)
    (cpu : Cpu)
    (bus : β)
    (as : List Access) :
    let s : Core (Recorded β) := ⟨cpu, ⟨bus, as⟩⟩
    let r := cpu.regs
    let v := (i.target.load r bus).1
    ((s.jumpTo pc).executePrefixed i).bus.accesses =
      as ++ i.accesses r.hl v (i.altered v r.f).1 := by
  have hNone : as = as ++ [] := (List.append_nil as).symm
  have hTwo (a b : Access) : as ++ [a] ++ [b] = as ++ [a, b] :=
    List.append_assoc as [a] [b]
  cases i with
  | shift op o =>
      cases o with
      | atHL => exact hTwo _ _
      | _ => exact hNone
  | test k o =>
      cases o with
      | atHL => rfl
      | _ => exact hNone
  | reset k o =>
      cases o with
      | atHL => exact hTwo _ _
      | _ => exact hNone
  | set k o =>
      cases o with
      | atHL => exact hTwo _ _
      | _ => exact hNone

/- An ordinary fetch moves PC and does nothing else. -/
theorem fetch_of_ordinary
    {s : Core β}
    (hBug : s.cpu.haltBug = false) :
    let r := s.cpu.regs
    s.fetch =
      ((Bus.read r.pc s.bus).1,
        ⟨{ s.cpu with regs := { r with pc := r.pc + 1 } },
          (Bus.read r.pc s.bus).2⟩) := by
  rw [fetch_eq]
  rcases s with ⟨⟨regs, halted, stopped, bug, p, d, l⟩, bus⟩
  cases hBug
  rfl

/-
  A ready processor that finds the prefix reads the byte after
  it, reports both, and does what that byte says.
-/
theorem Ready.step_of_prefix
    {s : Core β}
    (h : s.Ready)
    (hPrefix : (Bus.read s.cpu.regs.pc s.bus).1 = 0xCB) :
    let r := s.cpu.regs
    let first := Bus.read r.pc s.bus
    let second := Bus.read (r.pc + 1) first.2
    let i := (Fields.ofByte second.1).decodePrefixed
    let told :=
      Bus.note (.executingPrefixed second.1 i)
        (Bus.note
          (.executing r.pc .extended second.1.toUInt16)
          second.2)
    s.step =
      (.ok (4 + i.ticks),
        executePrefixed i
          (jumpTo (r.pc + 2) ⟨s.cpu, told⟩)) := by
  intro r first second i told
  have hFetch := fetch_of_ordinary h.haltBug
  have hDecode :
      (Fields.ofByte s.fetch.1).decode =
        some (.extended, .byte) := by
    rw [hFetch, hPrefix]
    decide
  let imm := second.1.toUInt16
  let t : Core β :=
    ⟨{ s.cpu with regs := { r with pc := r.pc + 1 } },
      Bus.note (.executing r.pc .extended imm) second.2⟩
  let u : Core β := jumpTo (r.pc + 2) ⟨s.cpu, told⟩
  have hByte : lowByte imm = second.1 :=
    UInt8.toUInt8_toUInt16 second.1
  have hSkip :
      (t.note (.executingPrefixed second.1 i)).skip .byte =
        u := by
    have hPc : r.pc + 1 + 1 = r.pc + 2 :=
      UInt16.add_assoc _ _ _
    unfold u
    rw [← hPc]
    rfl
  have hOutcome :
      t.outcome .extended imm =
        (4 + i.ticks, u.executePrefixed i) := by
    rw [← hSkip, ← skip_executePrefixed]
    simp only [outcome, execute, hByte,
      PrefixedInstruction.ofOpcode_eq_decode]
    rfl
  calc s.step
      = (.ok (t.outcome .extended imm).1,
          (t.outcome .extended imm).2.settleEnable) := by
        rw [(h.step_of_defined hDecode).1, hFetch,
          perform_eq_outcome]
        rfl
    _ = (.ok (4 + i.ticks),
          (u.executePrefixed i).settleEnable) := by
        rw [hOutcome]
    _ = (.ok (4 + i.ticks), u.executePrefixed i) :=
        congrArg (Prod.mk _)
          (settleEnable_executePrefixed (s := u)
            h.enablePending h.enableDelay i)

/-
  The prefixed instructions, for every bus: one step makes the
  new byte and flags and puts them where they belong, leaves
  all else alone, moves PC past both bytes, and makes no
  access but those of the instruction.
-/
theorem Ready.step_prefixed
    {s : Core β}
    (h : s.Ready)
    (hPrefix : (Bus.read s.cpu.regs.pc s.bus).1 = 0xCB) :
    let r := s.cpu.regs
    let first := Bus.read r.pc s.bus
    let second := Bus.read (r.pc + 1) first.2
    let i := (Fields.ofByte second.1).decodePrefixed
    let told :=
      Bus.note (.executingPrefixed second.1 i)
        (Bus.note
          (.executing r.pc .extended second.1.toUInt16)
          second.2)
    let operand := i.target.load r told
    ∃ w f,
      i.Yields operand.1 r.f w f ∧
        s.step =
          (.ok i.cost,
            ⟨{ s.cpu with
                regs :=
                  { i.target.put w r with
                    f := f
                    pc := r.pc + 2 } },
              if i.target = .atHL ∧ i.putsBack = true then
                Bus.write r.hl w operand.2
              else operand.2⟩) ∧
        s.accesses =
          .read r.pc 0xCB :: .read (r.pc + 1) second.1 ::
            i.accesses r.hl operand.1 w := by
  intro r first second i told operand
  refine ⟨(i.altered operand.1 r.f).1,
    (i.altered operand.1 r.f).2,
    i.yields_altered operand.1 r.f, ?_, ?_⟩
  · have hEffect :=
      executePrefixed_eq i (r.pc + 2) ⟨s.cpu, told⟩
    rw [i.cost_eq]
    exact (h.step_of_prefix hPrefix).trans
      (congrArg (Prod.mk _) hEffect)
  · have hRecorded : s.recorded.Ready :=
      ⟨h.halted, h.stopped, h.locked, h.haltBug,
        h.enablePending, h.enableDelay, h.interrupts⟩
    have hFirst : first.1 = 0xCB := hPrefix
    let as : List Access :=
      [.read r.pc first.1, .read (r.pc + 1) second.1]
    let u : Core (Recorded β) := ⟨s.cpu, ⟨told, as⟩⟩
    calc s.accesses
        = ((u.jumpTo (r.pc + 2)).executePrefixed
            i).bus.accesses :=
          congrArg (·.2.bus.accesses)
            (hRecorded.step_of_prefix hPrefix)
      _ = as ++ i.accesses r.hl operand.1
            (i.altered operand.1 r.f).1 :=
          accesses_executePrefixed i _ s.cpu told as
      _ = .read r.pc 0xCB :: .read (r.pc + 1) second.1 ::
            i.accesses r.hl operand.1
              (i.altered operand.1 r.f).1 := by
          unfold as
          rw [hFirst]
          rfl

/- A rotation of the byte at HL, at the entry point. -/
def rotationAtEntry : Core FlatMemory :=
  ⟨{},
    ((FlatMemory.poke {} 0x0100 0xCB).poke 0x0101 0x16).poke
      0x014D 0x81⟩

/-
  RL (HL), with the carry flag set: 0x81 becomes 0x03, and the
  bit that leaves it is the new carry.
-/
theorem rotationAtEntry_step :
    let s := rotationAtEntry
    s.Ready ∧
      (Bus.read s.cpu.regs.pc s.bus).1 = 0xCB ∧
      s.step.1.toOption = some 16 ∧
      s.step.2.cpu.regs =
        { s.cpu.regs with f := 0x10, pc := 0x0102 } ∧
      s.accesses =
        [.read 0x0100 0xCB, .read 0x0101 0x16,
          .read 0x014D 0x81, .write 0x014D 0x03] := by
  intro s
  have hReady : s.Ready :=
    show rotationAtEntry.Ready from
      ⟨rfl, rfl, rfl, rfl, rfl, rfl, .inr rfl⟩
  have hPrefix : (Bus.read s.cpu.regs.pc s.bus).1 = 0xCB := by
    decide +kernel
  have hSecond :
      (Bus.read (s.cpu.regs.pc + 1)
        (Bus.read s.cpu.regs.pc s.bus).2).1 = 0x16 := by
    decide +kernel
  have hInstruction :
      (Fields.ofByte 0x16).decodePrefixed =
        .shift .rl .atHL := by
    decide
  let told :=
    Bus.note (.executingPrefixed 0x16 (.shift .rl .atHL))
      (Bus.note
        (.executing s.cpu.regs.pc .extended
          (UInt8.toUInt16 0x16))
        (Bus.read (s.cpu.regs.pc + 1)
          (Bus.read s.cpu.regs.pc s.bus).2).2)
  have hOperand :
      (Operand.atHL.load s.cpu.regs told).1 = 0x81 := by
    decide +kernel
  have hResult := hReady.step_prefixed hPrefix
  simp only [hSecond, hInstruction,
    PrefixedInstruction.target] at hResult
  rcases hResult with ⟨w, f, ⟨hByte, hFlags⟩, hStep, hAccesses⟩
  rw [hOperand] at hByte hFlags hAccesses
  have hValue : w = 0x03 :=
    UInt8.toNat_inj.mp (hByte.trans (by decide))
  rw [hValue] at hFlags hAccesses
  have hF : f = 0x10 := hFlags.trans (by decide)
  refine ⟨hReady, hPrefix, ?_, ?_, ?_⟩
  · rw [hStep]
    rfl
  · rw [hStep, hF]
    rfl
  · exact hAccesses.trans (by decide)

end Core

end Dmg
