import Dmg.Proofs.Cpu.Branches
import Dmg.Proofs.Cpu.Halt
import Dmg.Proofs.Cpu.LowHalf
import Dmg.Proofs.Memory.Footprint

/-
  The stack.

  A word is pushed as two bytes below SP.  As long as these
  are memory, each a cell of its own, the words pushed come
  back in reverse order, and nothing else has changed.  So a
  call comes back behind itself, and a register pair that is
  pushed can be popped.

  Key definitions include:
    * `Bus.Memory`
    * `below`
    * `Bus.Spare`
    * `Core.byteAt`
    * `Core.Stacked`
    * `Core.pushAll`, `Core.popAll`
    * `Core.Calls`

  Main results:
    * `Core.stacked_push`
    * `Core.byteAt_pushAll_of_not_mem`
    * `Core.popAll_pushAll`
    * `Core.call_return`
    * `Core.push_pop`
-/

namespace Dmg

------------------------------------------------------------
-- Memory
------------------------------------------------------------

/-
  A bus with memory.  Every address names a cell.  A byte that
  is written to memory is read back at all addresses of its
  cell, and nothing else that is read changes.  Reports and
  the master enable change nothing that is read.
-/
class Bus.Memory
    (β : Type)
    [Bus β] extends Bus.QuietReads β where
  cell : UInt16 → UInt16
  IsMemory : UInt16 → Prop
  read_write :
    ∀ (a c : UInt16) (v : UInt8) (bus : β),
      IsMemory a →
        (Bus.read c (Bus.write a v bus)).1 =
          if cell c = cell a then v else (Bus.read c bus).1
  read_setMaster :
    ∀ (c : UInt16) (on : Bool) (bus : β),
      (Bus.read c
          (Bus.setInterrupts
            ((Bus.interrupts bus).setMaster on) bus)).1 =
        (Bus.read c bus).1
  read_note :
    ∀ (c : UInt16) (m : Message) (bus : β),
      (Bus.read c (Bus.note m bus)).1 = (Bus.read c bus).1

/- Flat memory keeps what is written at all addresses but IF. -/
theorem FlatMemory.load_store
    (m : FlatMemory)
    {a : UInt16}
    (h : a ≠ 0xFF0F)
    (v : UInt8)
    (c : UInt16) :
    (m.store a v).load c = if c = a then v else m.load c := by
  unfold store
  rw [if_neg h]
  by_cases hSame : c = a
  · subst hSame
    unfold load
    rw [if_pos rfl, if_neg h]
    by_cases hEnable : c = 0xFFFF
    · rw [if_pos hEnable, if_pos hEnable]
      rfl
    · rw [if_neg hEnable, if_neg hEnable]
      exact m.peek_poke_self c v
  · rw [if_neg hSame]
    by_cases hEnable : a = 0xFFFF
    · have hOther : c ≠ 0xFFFF := hEnable ▸ hSame
      unfold load
      rw [if_pos hEnable, if_neg hOther, if_neg hOther]
      rfl
    · unfold load
      rw [if_neg hEnable, m.peek_poke_of_ne v (Ne.symm hSame)]
      rfl

instance : Bus.Memory FlatMemory where
  cell a := a
  IsMemory a := a ≠ 0xFF0F
  read_write _ c v m h := m.load_store h v c
  read_setMaster _ _ _ := rfl
  read_note _ _ _ := rfl

theorem Location.keeps_of_isStorage
    {a : UInt16}
    (h : Address.IsStorage a) :
    (ofAddress a).Keeps := by
  rcases ofAddress_cases a with hRom | ⟨-, hKeeps⟩ | ⟨hNot, -⟩
  · exact absurd (Address.le_of_isStorage h)
      (Nat.not_le_of_lt (UInt16.lt_iff_toNat_lt.mp hRom))
  · exact hKeeps
  · exact absurd h hNot

/- Storage is read back at all addresses of its cell. -/
theorem Board.read_write_of_isStorage
    (b : Board)
    {a : UInt16}
    (h : Address.IsStorage a)
    (c : UInt16)
    (v : UInt8) :
    (b.write a v).read c =
      if Address.cell c = Address.cell a then v
      else b.read c := by
  have hKeeps := Location.keeps_of_isStorage h
  unfold read write
  split
  · next hSame =>
      rw [Location.ofAddress_eq_iff.mpr hSame]
      exact readAt_writeAt_self b v hKeeps
  · next hApart =>
      apply readAt_writeAt_of_not_mem b v
        (Location.ofAddress_ne_copyCell a)
        (Location.ofAddress_ne_copyCell c)
      rw [Location.reach_of_keeps hKeeps, List.mem_singleton,
        Location.ofAddress_eq_iff]
      exact hApart

/- The memory of a board is its storage. -/
instance : Bus.Memory Wired where
  cell := Address.cell
  IsMemory := Address.IsStorage
  read_write _ c v w h :=
    w.board.read_write_of_isStorage h c v
  read_setMaster c on w := by
    change
      Board.read
          { w.board with
            interrupts := w.board.interrupts.setMaster on } c =
        w.board.read c
    unfold Board.read
    cases Location.ofAddress c <;> rfl
  read_note _ _ _ := rfl

------------------------------------------------------------
-- Below The Stack
------------------------------------------------------------

/- The addresses of some bytes below SP, the nearest first. -/
def below
    (n : Nat)
    (sp : UInt16) : List UInt16 :=
  (List.range n).map fun i => sp - .ofNat (i + 1)

theorem below_add_two
    (n : Nat)
    (sp : UInt16) :
    below (n + 2) sp =
      (sp - 1) :: (sp - 2) :: below n (sp - 2) := by
  have hShift (i : Nat) :
      sp - .ofNat (i + 1 + 1 + 1) =
        sp - 2 - .ofNat (i + 1) := by
    rw [Nat.add_assoc (i + 1), UInt16.ofNat_add (i + 1)]
    grind
  unfold below
  rw [List.range_succ_eq_map, List.range_succ_eq_map]
  simp only [List.map_cons, List.map_map]
  refine congrArg ((sp - 1) :: (sp - 2) :: ·) ?_
  exact List.map_congr_left fun i _ => hShift i

/-
  Some bytes below SP are memory, each a cell of its own.
-/
structure Bus.Spare
    (β : Type)
    [Bus β]
    [Bus.Memory β]
    (n : Nat)
    (sp : UInt16) : Prop where
  memory : ∀ a ∈ below n sp, Memory.IsMemory β a
  distinct : ((below n sp).map (Memory.cell β)).Nodup

namespace Bus.Spare

variable
  {β : Type}
  [Bus β]
  [Bus.Memory β]
  {n : Nat}
  {sp : UInt16}

/- The two bytes of the first word are apart from the rest. -/
theorem cells
    (h : Bus.Spare β (n + 2) sp) :
    ((Memory.cell β (sp - 1)) :: (Memory.cell β (sp - 2)) ::
      (below n (sp - 2)).map (Memory.cell β)).Nodup := by
  have hDistinct := h.distinct
  rw [below_add_two] at hDistinct
  exact hDistinct

theorem rest
    (h : Bus.Spare β (n + 2) sp) :
    Bus.Spare β n (sp - 2) where
  memory a ha := by
    apply h.memory
    rw [below_add_two]
    exact List.mem_cons_of_mem _ (List.mem_cons_of_mem _ ha)
  distinct := h.cells.of_cons.of_cons

theorem high
    (h : Bus.Spare β (n + 2) sp) :
    Memory.IsMemory β (sp - 1) := by
  apply h.memory
  rw [below_add_two]
  exact List.mem_cons_self

theorem low
    (h : Bus.Spare β (n + 2) sp) :
    Memory.IsMemory β (sp - 2) := by
  apply h.memory
  rw [below_add_two]
  exact List.mem_cons_of_mem _ List.mem_cons_self

end Bus.Spare

namespace Core

variable {β : Type} [Bus β] [Bus.Memory β] {s t : Core β}

open Bus.Memory

/- The byte that is read at an address. -/
def byteAt
    (s : Core β)
    (a : UInt16) : UInt8 :=
  (Bus.read a s.bus).1

------------------------------------------------------------
-- One Word
------------------------------------------------------------

/-
  The second state has a word below the SP of the first, its
  low byte at the lower address, and else the same bytes.
-/
def Stacked
    (w : UInt16)
    (s t : Core β) : Prop :=
  ∀ c,
    t.byteAt c =
      if cell β c = cell β (s.cpu.regs.sp - 1) then highByte w
      else if cell β c = cell β (s.cpu.regs.sp - 2) then
        lowByte w
      else s.byteAt c

/- So it is when a word has been pushed. -/
theorem stacked_push
    {n : Nat}
    (h : Bus.Spare β (n + 2) s.cpu.regs.sp)
    (w : UInt16) :
    Stacked w s (s.push w) := by
  intro c
  let sp := s.cpu.regs.sp
  have hHigh : IsMemory β (sp - 2 + 1) := by
    rw [sub_two_add_one]
    exact h.high
  change
    (Bus.read c
      (Bus.write (sp - 2 + 1) (highByte w)
        (Bus.write (sp - 2) (lowByte w) s.bus))).1 = _
  rw [read_write _ _ _ _ hHigh, read_write _ _ _ _ h.low,
    sub_two_add_one]
  rfl

/- A word is popped from where it was pushed. -/
theorem pop_value
    (s : Core β) :
    let sp := s.cpu.regs.sp
    s.pop.1 = word (s.byteAt (sp + 1)) (s.byteAt sp) := by
  intro sp
  have hHigh :
      (Bus.read (sp + 1) (Bus.read sp s.bus).2).1 =
        s.byteAt (sp + 1) :=
    Bus.QuietReads.read_read _ _ _
  rw [← hHigh]
  rfl

theorem byteAt_pop
    (s : Core β)
    (c : UInt16) :
    s.pop.2.byteAt c = s.byteAt c :=
  (Bus.QuietReads.read_read c _ _).trans
    (Bus.QuietReads.read_read c _ _)

/- What is popped is the word whose two bytes lie at SP. -/
theorem pop_value_of_bytes
    {w : UInt16}
    (hHigh : s.byteAt (s.cpu.regs.sp + 1) = highByte w)
    (hLow : s.byteAt s.cpu.regs.sp = lowByte w) :
    s.pop.1 = w := by
  rw [pop_value, hHigh, hLow]
  exact word_highByte_lowByte w

------------------------------------------------------------
-- Many Words
------------------------------------------------------------

/- Push words, the first one first. -/
def pushAll
    (ws : List UInt16)
    (s : Core β) : Core β :=
  ws.foldl (fun s w => s.push w) s

/- Pop a number of words. -/
def popAll : Nat → Core β → List UInt16 × Core β
  | 0, s => ([], s)
  | n + 1, s =>
      let (w, s) := s.pop
      let (ws, s) := popAll n s
      (w :: ws, s)

omit [Bus.Memory β] in
theorem popAll_succ
    (n : Nat)
    (s : Core β) :
    s.popAll (n + 1) =
      let r := s.popAll n
      (r.1 ++ [r.2.pop.1], r.2.pop.2) := by
  induction n generalizing s with
  | zero => rfl
  | succ n ih =>
      have hRest := ih s.pop.2
      change
        (s.pop.1 :: (s.pop.2.popAll (n + 1)).1,
          (s.pop.2.popAll (n + 1)).2) = _
      rw [hRest]
      rfl

theorem byteAt_popAll
    (n : Nat)
    (s : Core β)
    (c : UInt16) :
    (s.popAll n).2.byteAt c = s.byteAt c := by
  induction n generalizing s with
  | zero => rfl
  | succ n ih => exact (ih s.pop.2).trans (s.byteAt_pop c)

/- No cell changes but those of the bytes below SP. -/
theorem byteAt_pushAll_of_not_mem
    {ws : List UInt16}
    (h : Bus.Spare β (2 * ws.length) s.cpu.regs.sp)
    {c : UInt16}
    (hc : cell β c ∉
      (below (2 * ws.length) s.cpu.regs.sp).map (cell β)) :
    (s.pushAll ws).byteAt c = s.byteAt c := by
  induction ws generalizing s with
  | nil => rfl
  | cons w ws ih =>
      rw [List.length_cons, Nat.mul_add] at h hc
      rw [below_add_two, List.map_cons, List.map_cons,
        List.mem_cons, List.mem_cons, not_or, not_or] at hc
      obtain ⟨hHigh, hLow, hRest⟩ := hc
      have hFirst := stacked_push h w c
      rw [if_neg hHigh, if_neg hLow] at hFirst
      exact (ih (s := s.push w) h.rest hRest).trans hFirst

/- Each word lies with its low byte at the lower address. -/
theorem byteAt_pushAll
    {ws : List UInt16}
    (h : Bus.Spare β (2 * ws.length) s.cpu.regs.sp)
    {i : Nat}
    (hi : i < ws.length) :
    let t := s.pushAll ws
    let sp := s.cpu.regs.sp
    t.byteAt (sp - .ofNat (2 * i + 1)) = highByte ws[i] ∧
      t.byteAt (sp - .ofNat (2 * i + 2)) = lowByte ws[i] := by
  intro t sp
  induction ws generalizing s i with
  | nil => exact absurd hi (Nat.not_lt_zero i)
  | cons w ws ih =>
      rw [List.length_cons, Nat.mul_add] at h
      cases i with
      | zero =>
          have hCells := h.cells
          rw [List.nodup_cons, List.nodup_cons,
            List.mem_cons, not_or] at hCells
          obtain ⟨⟨hApart, hHigh⟩, hLow, -⟩ := hCells
          have hFirst := stacked_push h w
          constructor
          · refine (byteAt_pushAll_of_not_mem (s := s.push w)
              h.rest hHigh).trans ?_
            rw [hFirst, if_pos rfl]
            rfl
          · refine (byteAt_pushAll_of_not_mem (s := s.push w)
              h.rest hLow).trans ?_
            rw [hFirst, if_neg (Ne.symm hApart), if_pos rfl]
            rfl
      | succ i =>
          have hLater (k : Nat) :
              sp - .ofNat (2 * (i + 1) + k) =
                sp - 2 - .ofNat (2 * i + k) := by
            rw [Nat.mul_add, Nat.add_right_comm,
              UInt16.ofNat_add (2 * i + k)]
            grind
          have hRest :=
            ih (s := s.push w) h.rest
              (Nat.lt_of_succ_lt_succ hi)
          rw [hLater, hLater]
          exact hRest

/- Words that were pushed are popped, the last one first. -/
theorem popAll_pushAll
    {ws : List UInt16}
    (h : Bus.Spare β (2 * ws.length) s.cpu.regs.sp) :
    let r := (s.pushAll ws).popAll ws.length
    r.1 = ws.reverse ∧ r.2.cpu = s.cpu := by
  -- Once the later words are popped, the first one is left.
  induction ws generalizing s with
  | nil => exact ⟨rfl, rfl⟩
  | cons w ws ih =>
      have hWord := (byteAt_pushAll h (i := 0) (Nat.succ_pos _))
      rw [List.length_cons, Nat.mul_add] at h
      let t := s.push w
      let r := (t.pushAll ws).popAll ws.length
      obtain ⟨hWords, hCpu⟩ :
          r.1 = ws.reverse ∧ r.2.cpu = t.cpu :=
        ih (s := t) h.rest
      have hSp : r.2.cpu.regs.sp = s.cpu.regs.sp - 2 := by
        rw [hCpu]
        rfl
      have hValue : r.2.pop.1 = w := by
        apply pop_value_of_bytes
        · rw [hSp, sub_two_add_one, byteAt_popAll]
          exact hWord.1
        · rw [hSp, byteAt_popAll]
          exact hWord.2
      have hBack : r.2.pop.2.cpu = s.cpu := by
        change
          { r.2.cpu with
            regs :=
              { r.2.cpu.regs with
                sp := r.2.cpu.regs.sp + 2 } } = s.cpu
        rw [hSp, hCpu, UInt16.sub_add_cancel]
        rfl
      change
        (popAll (ws.length + 1) (t.pushAll ws)).1 =
            (w :: ws).reverse ∧
          (popAll (ws.length + 1) (t.pushAll ws)).2.cpu = s.cpu
      rw [popAll_succ, List.reverse_cons, ← hWords, ← hBack]
      refine ⟨?_, rfl⟩
      exact congrArg (r.1 ++ [·]) hValue

------------------------------------------------------------
-- Instructions
------------------------------------------------------------

theorem byteAt_primed
    (pc : UInt16)
    (i : Instruction)
    (s : Core β)
    (c : UInt16) :
    (s.primed pc i).byteAt c = s.byteAt c := by
  have hFetched :
      (s.fetchImmediate i.immediate).2.byteAt c =
        s.byteAt c := by
    cases i.immediate with
    | none => rfl
    | byte => exact Bus.QuietReads.read_read c _ _
    | word =>
        exact (Bus.QuietReads.read_read c _ _).trans
          (Bus.QuietReads.read_read c _ _)
  exact (read_note c _ _).trans hFetched

theorem byteAt_settleEnable
    (s : Core β)
    (c : UInt16) :
    s.settleEnable.byteAt c = s.byteAt c := by
  unfold settleEnable
  split
  · exact read_setMaster c true s.bus
  · split <;> rfl

/-
  A step leads from a state with the same processor, and the
  same bytes to be read, to where its instruction leads from
  there: any EI that takes effect then changes neither
  registers nor bytes.
-/
theorem step_of_executed
    {i : Instruction}
    (hEvent : s.event = .executed i) :
    ∃ u : Core β,
      u.cpu = s.begun.cpu ∧
        (∀ c, u.byteAt c = s.byteAt c) ∧
        let v := (u.outcome i (s.begun.operand i)).2
        s.step.2.cpu.regs = v.cpu.regs ∧
          ∀ c, s.step.2.byteAt c = v.byteAt c := by
  let u := s.begun.primed s.cpu.regs.pc i
  have hStep :
      s.step.2 =
        (u.outcome i (s.begun.operand i)).2.settleEnable := by
    rw [(executes_of_event hEvent).state, perform_state]
  refine ⟨u, cpu_primed _ i _, ?_, ?_, ?_⟩
  · intro c
    exact (byteAt_primed _ i _ c).trans
      (Bus.QuietReads.read_read c _ _)
  · rw [hStep, cpu_settleEnable]
    rfl
  · intro c
    rw [hStep, byteAt_settleEnable]

omit [Bus β] [Bus.Memory β] in
/- The fetch of an opcode moves PC and no other register. -/
theorem fetchedRegs_eq
    (cpu : Cpu) :
    fetchedRegs cpu =
      { cpu.regs with pc := (fetchedRegs cpu).pc } := by
  unfold fetchedRegs
  split <;> rfl

omit [Bus.Memory β] in
/- A processor that executes an instruction can run. -/
theorem alive_of_event
    {i : Instruction}
    (hEvent : s.event = .executed i) :
    s.cpu.locked = none ∧ s.cpu.stopped = false := by
  unfold event suspended at hEvent
  cases hLocked : s.cpu.locked with
  | some fault =>
      rw [hLocked] at hEvent
      cases hEvent
  | none =>
      refine ⟨rfl, ?_⟩
      cases hStopped : s.cpu.stopped with
      | false => rfl
      | true =>
          rw [hLocked, hStopped] at hEvent
          cases hEvent

omit [Bus.Memory β] in
/- If it does not suspend itself, it runs on. -/
theorem running_of_executed
    [Bus.QuietReads β]
    {i : Instruction}
    (hEvent : s.event = .executed i)
    (hLatches : i.latches = false)
    (hFollows : Follows s t) :
    t.Running ∧ t.cpu.haltBug = false := by
  obtain ⟨hLocked, hStopped⟩ := alive_of_event hEvent
  have hCpu := hFollows.cpu.trans (cpu_executed hEvent)
  rw [Cpu.latch_of_not_latches _ hLatches] at hCpu
  refine ⟨⟨?_, ?_, ?_⟩, ?_⟩
  · rw [hCpu]
    exact hLocked
  · rw [hCpu]
    exact hStopped
  · rw [hCpu]
    rfl
  · rw [hCpu]
    rfl

omit [Bus.Memory β] in
/- Where no handler is entered, the instruction at PC is due. -/
theorem Running.event_of_not_entered
    (h : t.Running)
    (hNone : ∀ j, t.event ≠ .entered j) :
    t.event = t.instructionEvent := by
  unfold event at hNone ⊢
  simp only [h.locked, h.suspended, Bool.false_eq_true,
    if_false] at hNone ⊢
  cases hServiced : t.interrupts.serviceable with
  | none => rfl
  | some j =>
      rw [hServiced] at hNone
      exact absurd rfl (hNone j)

section Effects

variable {u : Core β} (hCpu : u.cpu = s.begun.cpu)

include hCpu

omit [Bus.Memory β] in
/- An instruction begins with no register moved but PC. -/
theorem regs_of_cpu :
    u.cpu.regs =
      { s.cpu.regs with pc := s.begun.cpu.regs.pc } := by
  rw [hCpu]
  exact fetchedRegs_eq s.cpu

/- A word that it pushes is below SP as SP was before. -/
theorem stacked_push_of_cpu
    (hBytes : ∀ c, u.byteAt c = s.byteAt c)
    (hSpare : Bus.Spare β 2 s.cpu.regs.sp)
    (w : UInt16) :
    Stacked w s (u.push w) := by
  have hSp : u.cpu.regs.sp = s.cpu.regs.sp := by
    rw [regs_of_cpu hCpu]
  intro c
  rw [← hSp] at hSpare ⊢
  rw [← hBytes]
  exact stacked_push (n := 0) hSpare w c

/- A word that it pops is the one whose bytes lie at SP. -/
theorem pop_value_of_cpu
    (hBytes : ∀ c, u.byteAt c = s.byteAt c)
    {w : UInt16}
    (hHigh : s.byteAt (s.cpu.regs.sp + 1) = highByte w)
    (hLow : s.byteAt s.cpu.regs.sp = lowByte w) :
    u.pop.1 = w := by
  have hSp : u.cpu.regs.sp = s.cpu.regs.sp := by
    rw [regs_of_cpu hCpu]
  apply pop_value_of_bytes
  · rw [hSp, hBytes]
    exact hHigh
  · rw [hSp, hBytes]
    exact hLow

end Effects

/-
  A step that has pushed a word leaves it below SP until the
  next boundary, if its bytes are kept.
-/
theorem Stacked.kept
    {w : UInt16}
    (hStacked : Stacked w s s.step.2)
    (hSpare : Bus.Spare β 2 s.cpu.regs.sp)
    (hKept :
      ∀ a ∈ below 2 s.cpu.regs.sp,
        t.byteAt a = s.step.2.byteAt a) :
    let sp := s.cpu.regs.sp - 2
    t.byteAt (sp + 1) = highByte w ∧
      t.byteAt sp = lowByte w := by
  intro sp
  have hCells := Bus.Spare.cells (n := 0) hSpare
  rw [List.nodup_cons, List.mem_cons, not_or] at hCells
  rw [below_add_two 0] at hKept
  constructor
  · rw [sub_two_add_one, hKept _ List.mem_cons_self, hStacked,
      if_pos rfl]
  · rw [hKept _ (List.mem_cons_of_mem _ List.mem_cons_self),
      hStacked, if_neg (Ne.symm hCells.1.1), if_pos rfl]

------------------------------------------------------------
-- Calls
------------------------------------------------------------

/-
  An instruction that calls, with the bytes behind its opcode
  and the address to which it leads: a call whose condition
  holds, or a restart.
-/
inductive Calls
    (s : Core β) : Instruction → UInt16 → UInt16 → Prop where
  | call
      {cond : Option Condition}
      (h : s.holds cond = true) :
      Calls s (.call cond) 2 (s.operand (.call cond))
  | restart
      (n : Fin 8) :
      Calls s (.restart n) 0 (Instruction.restartAddress n)

omit [Bus.Memory β] in
/- It pushes the address behind it, and branches. -/
theorem Calls.outcome_eq
    {i : Instruction}
    {width target : UInt16}
    (h : s.Calls i width target)
    {u : Core β}
    (hCpu : u.cpu = s.cpu) :
    (u.outcome i (s.operand i)).2 = u.callTo width target := by
  cases h with
  | @call cond hTaken =>
      have hHolds : u.holds cond = true := by
        rw [← hTaken]
        exact congrFun (branches_congr hCpu) (.call cond)
      simp only [outcome, execute, branch, if_pos hHolds]
  | restart n => rfl

/- Behind a call PC is at its target, and the word is pushed. -/
theorem called
    {i : Instruction}
    {width target : UInt16}
    (hEvent : s.event = .executed i)
    (hCalls : s.begun.Calls i width target)
    (hSpare : Bus.Spare β 2 s.cpu.regs.sp) :
    let sp := s.cpu.regs.sp
    let behind := s.begun.cpu.regs.pc + width
    s.step.2.cpu.regs =
        { s.cpu.regs with sp := sp - 2, pc := target } ∧
      Stacked behind s s.step.2 := by
  intro sp behind
  obtain ⟨u, hCpu, hBytes, hRegs, hLater⟩ :=
    step_of_executed hEvent
  rw [hCalls.outcome_eq hCpu] at hRegs hLater
  constructor
  · rw [hRegs]
    change
      { u.cpu.regs with
        sp := u.cpu.regs.sp - 2
        pc := target } = _
    rw [regs_of_cpu hCpu]
  · intro c
    have hPushed :=
      stacked_push_of_cpu hCpu hBytes hSpare behind c
    rw [hLater, ← hPushed]
    change (u.push (u.cpu.regs.pc + width)).byteAt c = _
    rw [hCpu]

/- A return leads to the word whose bytes lie at SP. -/
theorem returned
    {w : UInt16}
    (hEvent : t.event = .executed (.ret none))
    (hHigh : t.byteAt (t.cpu.regs.sp + 1) = highByte w)
    (hLow : t.byteAt t.cpu.regs.sp = lowByte w) :
    t.step.2.cpu.regs =
      { t.cpu.regs with sp := t.cpu.regs.sp + 2, pc := w } := by
  obtain ⟨u, hCpu, hBytes, hRegs, -⟩ := step_of_executed hEvent
  rw [hRegs]
  change
    { u.cpu.regs with
      sp := u.cpu.regs.sp + 2
      pc := u.pop.1 } = _
  rw [pop_value_of_cpu hCpu hBytes hHigh hLow, regs_of_cpu hCpu]

/- A call to a return leads behind itself, in two steps. -/
theorem call_return
    {i : Instruction}
    {width target : UInt16}
    (hEvent : s.event = .executed i)
    (hCalls : s.begun.Calls i width target)
    (hSpare : Bus.Spare β 2 s.cpu.regs.sp)
    (hReturn : s.byteAt target = 0xC9)
    (hApart :
      cell β target ∉
        (below 2 s.cpu.regs.sp).map (cell β))
    (hFollows : Follows s t)
    (hKept :
      ∀ a ∈ target :: below 2 s.cpu.regs.sp,
        t.byteAt a = s.step.2.byteAt a)
    (hNone : ∀ j, t.event ≠ .entered j) :
    t.event = .executed (.ret none) ∧
      t.step.2.cpu.regs =
        { s.cpu.regs with
          pc := s.begun.cpu.regs.pc + width } := by
  obtain ⟨hRegs, hStacked⟩ := called hEvent hCalls hSpare
  obtain ⟨hHigh, hLow⟩ :=
    hStacked.kept hSpare fun a ha =>
      hKept a (List.mem_cons_of_mem _ ha)
  rw [← hFollows.cpu] at hRegs
  have hLatches : i.latches = false := by
    cases hCalls <;> rfl
  obtain ⟨hRunning, -⟩ :=
    running_of_executed hEvent hLatches hFollows
  have hOpcode : t.byteAt target = 0xC9 := by
    rw [below_add_two, List.map_cons, List.map_cons,
      List.mem_cons, List.mem_cons, not_or, not_or] at hApart
    rw [hKept _ List.mem_cons_self, hStacked,
      if_neg hApart.1, if_neg hApart.2.1]
    exact hReturn
  have hRet : t.event = .executed (.ret none) := by
    rw [hRunning.event_of_not_entered hNone]
    apply instructionEvent_of_opcode
    change Instruction.ofOpcode? (t.byteAt t.cpu.regs.pc) = _
    rw [hRegs, hOpcode]
    rfl
  refine ⟨hRet, ?_⟩
  rw [returned hRet (w := s.begun.cpu.regs.pc + width), hRegs]
  · dsimp only
    rw [UInt16.sub_add_cancel]
  · rw [hRegs]
    exact hHigh
  · rw [hRegs]
    exact hLow

------------------------------------------------------------
-- Register Pairs
------------------------------------------------------------

omit [Bus β] [Bus.Memory β] in
/- A pair that is set to itself loses the low half of F. -/
theorem regs_setStackPair_self
    (p : StackPair)
    (s : Core β) :
    (s.setStackPair p (s.stackPair p)).cpu.regs =
      if p = .af then s.cpu.regs.masked else s.cpu.regs := by
  have hTwice (b : UInt8) : b &&& 0xF0 &&& 0xF0 = b &&& 0xF0 := by
    rw [UInt8.and_assoc, UInt8.and_self]
  cases p with
  | af =>
      simp only [setStackPair, stackPair, mapRegs,
        Registers.setAF, Registers.af, highByte_word,
        lowByte_word, hTwice]
      rfl
  | bc | de | hl =>
      simp only [setStackPair, stackPair, mapRegs,
        Registers.setBC, Registers.bc, Registers.setDE,
        Registers.de, Registers.setHL, Registers.hl,
        highByte_word, lowByte_word]
      rfl

/- A PUSH leaves its pair below SP, and no other register. -/
theorem pushed
    {p : StackPair}
    (hEvent : s.event = .executed (.push p))
    (hSpare : Bus.Spare β 2 s.cpu.regs.sp) :
    s.step.2.cpu.regs =
        { s.cpu.regs with
          sp := s.cpu.regs.sp - 2
          pc := s.begun.cpu.regs.pc } ∧
      Stacked (s.stackPair p) s s.step.2 := by
  obtain ⟨u, hCpu, hBytes, hRegs, hLater⟩ :=
    step_of_executed hEvent
  have hPair : u.stackPair p = s.stackPair p := by
    unfold stackPair
    rw [regs_of_cpu hCpu]
    cases p <;> rfl
  have hOutcome :
      (u.outcome (.push p) (s.begun.operand (.push p))).2 =
        u.push (s.stackPair p) := by
    rw [← hPair]
    exact skip_none (u.push (u.stackPair p))
  rw [hOutcome] at hRegs hLater
  constructor
  · rw [hRegs]
    change { u.cpu.regs with sp := u.cpu.regs.sp - 2 } = _
    rw [regs_of_cpu hCpu]
  · intro c
    rw [hLater]
    exact stacked_push_of_cpu hCpu hBytes hSpare _ c

/- A POP sets its pair to the word whose bytes lie at SP. -/
theorem popped
    {p : StackPair}
    {w : UInt16}
    (hEvent : t.event = .executed (.pop p))
    (hHigh : t.byteAt (t.cpu.regs.sp + 1) = highByte w)
    (hLow : t.byteAt t.cpu.regs.sp = lowByte w) :
    ∃ v : Core β,
      v.cpu.regs =
          { t.cpu.regs with
            sp := t.cpu.regs.sp + 2
            pc := t.begun.cpu.regs.pc } ∧
        t.step.2.cpu.regs = (v.setStackPair p w).cpu.regs := by
  obtain ⟨u, hCpu, hBytes, hRegs, -⟩ := step_of_executed hEvent
  refine ⟨u.pop.2, ?_, ?_⟩
  · change { u.cpu.regs with sp := u.cpu.regs.sp + 2 } = _
    rw [regs_of_cpu hCpu]
  · rw [hRegs, ← pop_value_of_cpu hCpu hBytes hHigh hLow]
    exact congrArg (fun v => v.cpu.regs)
      (skip_none (u.pop.2.setStackPair p u.pop.1))

/- A PUSH and a POP of a pair move PC and no other register. -/
theorem push_pop
    {p : StackPair}
    (hEvent : s.event = .executed (.push p))
    (hSpare : Bus.Spare β 2 s.cpu.regs.sp)
    (hFollows : Follows s t)
    (hKept :
      ∀ a ∈ below 2 s.cpu.regs.sp,
        t.byteAt a = s.step.2.byteAt a)
    (hPop : t.event = .executed (.pop p)) :
    let regs :=
      { s.cpu.regs with pc := s.begun.cpu.regs.pc + 1 }
    t.step.2.cpu.regs =
      if p = .af then regs.masked else regs := by
  intro regs
  obtain ⟨hRegs, hStacked⟩ := pushed hEvent hSpare
  obtain ⟨hHigh, hLow⟩ := hStacked.kept hSpare hKept
  rw [← hFollows.cpu] at hRegs
  obtain ⟨-, hArmed⟩ :=
    running_of_executed hEvent rfl hFollows
  obtain ⟨v, hSet, hPopped⟩ :=
    popped hPop (w := s.stackPair p)
      (by
        rw [hRegs]
        exact hHigh)
      (by
        rw [hRegs]
        exact hLow)
  have hBegun : t.begun.cpu.regs = _ :=
    fetchedRegs_of_unarmed hArmed
  rw [hBegun, hRegs] at hSet
  dsimp only at hSet
  rw [UInt16.sub_add_cancel] at hSet
  have hPair : v.stackPair p = s.stackPair p := by
    unfold stackPair
    rw [hSet]
    cases p <;> rfl
  rw [hPopped, ← hPair, regs_setStackPair_self, hSet]

end Core

end Dmg
