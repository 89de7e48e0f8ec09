import Dmg.Proofs.Cpu.Stack
import Dmg.Proofs.Machine.Requests
import Dmg.Proofs.Machine.Standstill

/-
  The stack of a machine.

  Timer and LCD controller, which follow each step, change
  neither the image nor memory.  So what a step has pushed is
  there for the next one, as it is on flat memory.

  Main results:
    * `Board.read_of_sameStorage`
    * `Machine.byteAt_boundary`
    * `Machine.stack_discipline`
-/

namespace Dmg

------------------------------------------------------------
-- Boards
------------------------------------------------------------

/- Locations of the image and of memory are read alike. -/
theorem Board.readAt_of_sameStorage
    {a b : Board}
    (h : SameStorage a b)
    {l : Location}
    (hl : l.Keeps ∨ ∃ i, l = .rom i) :
    b.readAt l = a.readAt l := by
  rcases hl with hKeeps | ⟨i, rfl⟩
  · cases l with
    | videoRam i => exact congrArg (·.get i) h.videoRam
    | cartridgeRam i => exact congrArg (·.get i) h.cartridgeRam
    | workRam i => exact congrArg (·.get i) h.workRam
    | spriteRam i => exact congrArg (·.get i) h.spriteRam
    | register i => exact congrArg (·.get i) h.registers
    | highRam i => exact congrArg (·.get i) h.highRam
    | interruptEnable => exact h.enable
    | _ => cases hKeeps
  · exact congrArg (·.get i) h.rom

theorem Board.read_of_sameStorage
    {a b : Board}
    (h : SameStorage a b)
    {c : UInt16}
    (hc : c < 0x8000 ∨ Address.IsStorage c) :
    b.read c = a.read c := by
  apply readAt_of_sameStorage h
  rcases hc with hRom | hStorage
  · exact .inr ⟨_, dif_pos (UInt16.lt_iff_toNat_lt.mp hRom)⟩
  · exact .inl (Location.keeps_of_isStorage hStorage)

namespace Machine

------------------------------------------------------------
-- Boundaries
------------------------------------------------------------

/- Image and memory are what the step has made of them. -/
theorem byteAt_boundary
    (m : Machine)
    (journal later : Journal)
    {c : UInt16}
    (hc : c < 0x8000 ∨ Address.IsStorage c) :
    ((m.step journal).1.2.core later).byteAt c =
      (m.core journal).step.2.byteAt c := by
  rcases m.step_outcome journal with
    ⟨e, -, hStep⟩ | ⟨cost, -, hStep⟩
  · rw [hStep]
    rfl
  · rw [hStep]
    exact Board.read_of_sameStorage
      (Board.sameStorage_advance _ _ _ _) hc

------------------------------------------------------------
-- The Stack
------------------------------------------------------------

open Bus.Memory in
/-
  The stack, on any bus with memory, wherever SP points to
  enough bytes of memory that are cells of their own.

  Words that are pushed lie there with the low byte at the
  lower address, and nothing else is changed.  They are popped
  in reverse order, and SP is back where it was.

  A call to a return that is not overwritten comes back behind
  the call in the next step, with no other register changed.
  So does a pop of the pair that has been pushed, which leaves
  the low half of F clear.  In between no handler may be
  entered, and the bytes concerned are kept, as the image and
  memory are at the boundaries of a machine.
-/
theorem stack_discipline
    {β : Type}
    [Bus β]
    [Bus.Memory β]
    (s : Core β) :
    let sp := s.cpu.regs.sp
    let behind := s.begun.cpu.regs.pc
    (∀ ws : List UInt16,
      Bus.Spare β (2 * ws.length) sp →
        let t := s.pushAll ws
        let r := t.popAll ws.length
        r.1 = ws.reverse ∧ r.2.cpu = s.cpu ∧
          (∀ i, (_ : i < ws.length) →
            t.byteAt (sp - .ofNat (2 * i + 1)) =
                highByte ws[i] ∧
              t.byteAt (sp - .ofNat (2 * i + 2)) =
                lowByte ws[i]) ∧
          ∀ c,
            r.2.byteAt c = t.byteAt c ∧
              (cell β c ∉
                  (below (2 * ws.length) sp).map (cell β) →
                t.byteAt c = s.byteAt c)) ∧
      (∀ i width target t,
        s.event = .executed i →
        s.begun.Calls i width target →
        Bus.Spare β 2 sp →
        s.byteAt target = 0xC9 →
        cell β target ∉ (below 2 sp).map (cell β) →
        Core.Follows s t →
        (∀ a ∈ target :: below 2 sp,
          t.byteAt a = s.step.2.byteAt a) →
        (∀ j, t.event ≠ .entered j) →
          t.event = .executed (.ret none) ∧
            t.step.2.cpu.regs =
              { s.cpu.regs with pc := behind + width }) ∧
      (∀ p t,
        s.event = .executed (.push p) →
        Bus.Spare β 2 sp →
        Core.Follows s t →
        (∀ a ∈ below 2 sp,
          t.byteAt a = s.step.2.byteAt a) →
        t.event = .executed (.pop p) →
          let regs := { s.cpu.regs with pc := behind + 1 }
          t.step.2.cpu.regs =
              (if p = .af then regs.masked else regs) ∧
            (s.cpu.regs.f &&& 0x0F = 0 →
              t.step.2.cpu.regs = regs)) ∧
      (s.cpu.haltBug = false → behind = s.cpu.regs.pc + 1) ∧
      ∀ (m : Machine) (journal later : Journal),
        let u := m.core journal
        let v := (m.step journal).1.2.core later
        Core.Follows u v ∧
          ∀ c : UInt16, c < 0x8000 ∨ Address.IsStorage c →
            v.byteAt c = u.step.2.byteAt c := by
  intro sp behind
  refine ⟨?_, ?_, ?_, ?_, ?_⟩
  · intro ws hSpare t r
    obtain ⟨hWords, hCpu⟩ := Core.popAll_pushAll hSpare
    refine ⟨hWords, hCpu, ?_, ?_⟩
    · intro i hi
      exact Core.byteAt_pushAll hSpare hi
    · intro c
      exact ⟨Core.byteAt_popAll ws.length t c,
        Core.byteAt_pushAll_of_not_mem hSpare⟩
  · intro i width target t hEvent hCalls hSpare hReturn hApart
      hFollows hKept hNone
    exact Core.call_return hEvent hCalls hSpare hReturn hApart
      hFollows hKept hNone
  · intro p t hEvent hSpare hFollows hKept hPop regs
    have hRegs :=
      Core.push_pop hEvent hSpare hFollows hKept hPop
    refine ⟨hRegs, ?_⟩
    intro hClear
    have hSelf : regs.masked = regs :=
      (Registers.masked_eq_self_iff regs).mpr hClear
    rw [hRegs]
    change (if p = .af then regs.masked else regs) = regs
    rw [hSelf, ite_self]
  · intro hUnarmed
    exact congrArg Registers.pc
      (Core.fetchedRegs_of_unarmed hUnarmed)
  · intro m journal later u v
    exact ⟨(m.boundary_step journal later).1,
      fun c hc => m.byteAt_boundary journal later hc⟩

/- A call, with a return at its target. -/
def calling : Core FlatMemory :=
  Core.loaded
    ([0xCD, 0x10, 0x01] ++ .replicate 13 0x00 ++ [0xC9]) {}

/- A processor that saves its flags and restores them. -/
def saving : Core FlatMemory :=
  Core.loaded [0xF5, 0xF1] {}

/- A processor whose SP points to the second sprite byte. -/
def aboveEcho : Core Wired :=
  ⟨{ regs := { sp := 0xFE01 } }, ⟨{}, {}⟩⟩

/-
  A call returns, flags that are saved are restored, and words
  are stacked from sprite memory down into the echo of work
  memory.
-/
theorem stack_discipline_aboveEcho :
    let s := calling
    let u := saving
    let t := aboveEcho.pushAll [0x1234, 0xABCD]
    Bus.Spare FlatMemory 2 s.cpu.regs.sp ∧
      Bus.Spare Wired 4 aboveEcho.cpu.regs.sp ∧
      s.event = .executed (.call none) ∧
      s.step.2.event = .executed (.ret none) ∧
      s.step.2.step.2.cpu.regs =
        { s.cpu.regs with pc := 0x0103 } ∧
      u.event = .executed (.push .af) ∧
      u.step.2.step.2.cpu.regs =
        { u.cpu.regs with pc := 0x0102 } ∧
      t.byteAt 0xFE00 = 0x12 ∧ t.byteAt 0xFDFF = 0x34 ∧
      (t.popAll 2).1 = [0xABCD, 0x1234] := by
  intro s u t
  have hPlain :
      ((below 2 0xFFFE).all fun a => a != 0xFF0F) = true := by
    decide
  have hStorage :
      ((below 4 0xFE01).all fun a =>
        decide (Address.IsStorage a)) = true := by
    decide
  have hSpare : Bus.Spare FlatMemory 2 0xFFFE := by
    constructor
    · intro a ha
      exact bne_iff_ne.mp (List.all_eq_true.mp hPlain a ha)
    · change ((below 2 0xFFFE).map fun a => a).Nodup
      decide
  have hSpareEcho : Bus.Spare Wired 4 0xFE01 := by
    constructor
    · intro a ha
      have hStored : Address.IsStorage a :=
        of_decide_eq_true (List.all_eq_true.mp hStorage a ha)
      exact hStored
    · change ((below 4 0xFE01).map Address.cell).Nodup
      decide
  have hCallEvent : s.event = .executed (.call none) := by
    decide +kernel
  have hPushEvent : u.event = .executed (.push .af) := by
    decide +kernel
  have hTarget : s.begun.operand (.call none) = 0x0110 := by
    decide +kernel
  have hCalls : s.begun.Calls (.call none) 2 0x0110 :=
    hTarget ▸ .call rfl
  obtain ⟨-, hCall, -⟩ := stack_discipline s
  obtain ⟨-, -, hPush, -⟩ := stack_discipline u
  obtain ⟨hWords, -⟩ := stack_discipline aboveEcho
  obtain ⟨hReturns, hBack⟩ :=
    hCall (.call none) 2 0x0110 s.step.2
      hCallEvent
      hCalls
      hSpare
      (by decide +kernel)
      (by
        change
          (0x0110 : UInt16) ∉ (below 2 0xFFFE).map fun a => a
        decide +kernel)
      (Core.follows_step s)
      (fun _ _ => rfl)
      (by
        intro j
        cases j <;> decide +kernel)
  have hRestored :=
    hPush .af u.step.2
      hPushEvent
      hSpare
      (Core.follows_step u)
      (fun _ _ => rfl)
      (by decide +kernel)
  obtain ⟨hPopped, -, hLayout, -⟩ :=
    hWords [0x1234, 0xABCD] hSpareEcho
  obtain ⟨hHigh, hLow⟩ := hLayout 0 (by decide)
  exact ⟨hSpare, hSpareEcho, hCallEvent, hReturns, hBack,
    hPushEvent, hRestored.2 (by decide), hHigh, hLow, hPopped⟩

end Machine

end Dmg
