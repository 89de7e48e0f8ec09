import Dmg.Proofs.Cpu.Branches
import Dmg.Proofs.Machine.Action
import Dmg.Proofs.Machine.History
import Dmg.Proofs.Memory.Footprint
import Dmg.Proofs.Timer.Edges

/-
  The divider tells the time since it was last written.

  The hidden counter moves once for every four ticks of the
  machine, because a step costs whole cycles and none is left
  over for the next.  A write to the divider in a step takes
  effect before the timer follows, so that the divider counts
  from the moment at which the step began.

  Whether a step writes the divider is told by its accesses.
  Those of an instruction may; so may those of the entry to
  an interrupt handler, which pushes the return address.

  Key definitions include:
    * `Access.writesTo`
    * `Machine.CountsFrom`

  Main results:
    * `Timer.tick_wholeCycles`
    * `Machine.CountsFrom.elapsed`
    * `Machine.Reachable.divider`
-/

namespace Dmg

------------------------------------------------------------
-- The Hidden Counter
------------------------------------------------------------

namespace Timer

theorem counter_after
    (t : Timer)
    (n : Nat) :
    (t.after n).counter = t.counter + .ofNat n := by
  induction n with
  | zero => exact (UInt16.add_zero _).symm
  | succ n ih =>
      have hNext :
          (t.after (n + 1)).counter =
            (t.after n).counter + 1 :=
        Operation.cycle.counter_apply (t.after n)
      rw [hNext, ih, UInt16.add_assoc]
      exact congrArg _ (UInt16.ofNat_add n 1).symm

/- Whole cycles move the counter, and leave no ticks over. -/
theorem tick_wholeCycles
    {t : Timer}
    (hPending : t.pending = 0)
    (n : Nat)
    (ic : InterruptController) :
    let u := (t.tick (4 * n) ic).1
    u.counter = t.counter + .ofNat n ∧ u.pending = 0 := by
  have hTotal : t.pending + 4 * n = n * 4 := by
    rw [hPending]
    omega
  have hTick :
      (t.tick (4 * n) ic).1 = (t.after n).setPending 0 := by
    unfold tick cycleTicks
    dsimp only
    rw [hTotal, Nat.mul_div_cancel n (by decide),
      Nat.mul_mod_left]
    change (cycles n (t.setPending 0) ic).1 = _
    rw [cycles_setPending, cycles_eq]
  rw [hTick]
  exact ⟨t.counter_after n, rfl⟩

/- The divider counts the cycles by the sixty-four. -/
theorem readDivider_eq
    (t : Timer) :
    t.readDivider.toNat = t.counter.toNat / 64 % 256 := by
  unfold readDivider
  rw [UInt16.toNat_toUInt8, UInt16.toNat_shiftRight]
  exact congrArg (· % 256)
    (Nat.shiftRight_eq_div_pow t.counter.toNat 6)

end Timer

------------------------------------------------------------
-- Writes
------------------------------------------------------------

namespace Access

/- Whether one of some accesses writes at an address. -/
def writesTo
    (addr : UInt16)
    (as : List Access) : Bool :=
  as.any fun
    | .read _ _ => false
    | .write other _ => other == addr

variable (addr : UInt16) (as : List Access)

theorem writesTo_read
    (other : UInt16)
    (v : UInt8) :
    writesTo addr (as ++ [.read other v]) =
      writesTo addr as :=
  List.any_append.trans (Bool.or_false _)

theorem writesTo_write
    (other : UInt16)
    (v : UInt8) :
    writesTo addr (as ++ [.write other v]) =
      (writesTo addr as || other == addr) :=
  List.any_append.trans (congrArg _ (Bool.or_false _))

end Access

/- Only a write to the divider touches the counter. -/
theorem Board.timer_write
    (b : Board)
    (addr : UInt16)
    (v : UInt8) :
    (b.write addr v).timer.counter =
        (if addr = 0xFF04 then 0 else b.timer.counter) ∧
      (b.write addr v).timer.pending = b.timer.pending := by
  unfold write
  rw [timer_writeAt]
  cases hLocation : Location.ofAddress addr with
  | divider =>
      have hAddr : addr = 0xFF04 :=
        Location.eq_address hLocation (by decide)
      rw [if_pos hAddr]
      exact ⟨Timer.Operation.divider.counter_apply _,
        Timer.Operation.divider.pending_apply _⟩
  | timerCount | timerModulo | timerControl =>
      have hAddr : addr ≠ 0xFF04 := by
        rintro rfl
        revert hLocation
        decide
      rw [if_neg hAddr]
      exact ⟨Timer.Operation.counter_apply _ _,
        Timer.Operation.pending_apply _ _⟩
  | _ =>
      have hAddr : addr ≠ 0xFF04 := by
        rintro rfl
        revert hLocation
        exact Location.noConfusion
      rw [if_neg hAddr]
      exact ⟨rfl, rfl⟩

/- Accesses restart the counter if they write the divider. -/
theorem Wired.historic_counter
    (counter : UInt16) :
    Bus.Historic fun as (w : Wired) =>
      w.board.timer.counter =
          (if Access.writesTo 0xFF04 as then 0
            else counter) ∧
        w.board.timer.pending = 0 where
  read as addr w h := by
    rw [Access.writesTo_read]
    exact h
  write as addr v w h := by
    obtain ⟨hCounter, hPending⟩ := w.board.timer_write addr v
    refine ⟨hCounter.trans ?_, hPending.trans h.2⟩
    rw [Access.writesTo_write, h.1]
    by_cases hAddr : addr = 0xFF04
    · rw [if_pos hAddr, hAddr]
      simp
    · rw [if_neg hAddr, beq_false_of_ne hAddr, Bool.or_false]
  setInterrupts _ _ _ h := h
  note _ _ _ h := h

------------------------------------------------------------
-- Steps That Write
------------------------------------------------------------

namespace Core

variable {β : Type} [Bus β] {s : Core β}

theorem accesses_of_idle
    (h : s.event = .idle) :
    s.accesses = [] := by
  have hRecorded : s.recorded.event = .idle :=
    s.event_recorded.trans h
  unfold accesses
  rw [step_eq, hRecorded]
  rfl

/- Neither a step that suspends nor one that waits writes. -/
theorem writesTo_of_suspending
    (h :
      s.event = .idle ∨ s.event = .executed .halt ∨
        s.event = .executed .stop)
    (addr : UInt16) :
    Access.writesTo addr s.accesses = false := by
  rcases h with hIdle | hHalt | hStop
  · rw [accesses_of_idle hIdle]
    rfl
  · rw [accesses_of_executed hHalt]
    simp only [execute, halt]
    split <;> rfl
  · rw [accesses_of_executed hStop]
    rfl

/- The entry to a handler writes the two bytes below SP. -/
theorem writesTo_of_entered
    {i : Interrupt}
    (h : s.event = .entered i)
    (addr : UInt16) :
    Access.writesTo addr s.accesses = true ↔
      s.cpu.regs.sp = addr + 1 ∨
        s.cpu.regs.sp = addr + 2 := by
  have hLow :
      s.cpu.regs.sp - 2 = addr ↔
        s.cpu.regs.sp = addr + 2 :=
    UInt16.sub_eq_iff_eq_add
  have hHigh :
      s.cpu.regs.sp - 2 + 1 = addr ↔
        s.cpu.regs.sp = addr + 1 := by
    rw [← UInt16.eq_sub_iff_add_eq, UInt16.sub_eq_iff_eq_add,
      UInt16.sub_eq_add_neg, UInt16.add_assoc]
    rfl
  rw [accesses_of_entered h, or_comm, ← hLow, ← hHigh]
  simp [Access.writesTo, pushing]

end Core

namespace Machine

theorem executed_timer
    {m : Machine}
    (hPending : m.board.timer.pending = 0)
    (journal : Journal) :
    let t := (m.executed journal).board.timer
    t.counter =
        (if Access.writesTo 0xFF04 (m.core journal).accesses
          then 0 else m.board.timer.counter) ∧
      t.pending = 0 := by
  let counter := m.board.timer.counter
  have hStart :
      m.board.timer.counter =
          (if Access.writesTo 0xFF04 [] then 0 else counter) ∧
        m.board.timer.pending = 0 :=
    ⟨rfl, hPending⟩
  exact Core.step_historic (Wired.historic_counter counter)
    (s := m.core journal) hStart

------------------------------------------------------------
-- Since When The Divider Counts
------------------------------------------------------------

/- The moment from which the divider would count at entry. -/
def dividerEpoch : Int := -0xAB00

/-
  A machine whose divider counts from a moment in ticks: the
  one at which the last step that wrote the divider began, or
  at which it was last written from outside, or that from
  which it would have come to its value at entry.
-/
inductive CountsFrom : Int → Machine → Prop where
  | new : CountsFrom dividerEpoch {}
  | reset
      (m : Machine)
      (journal : Journal) :
      CountsFrom dividerEpoch (m.reset journal).1
  | load
      (c : Cartridge)
      (m : Machine)
      (journal : Journal) :
      CountsFrom dividerEpoch (m.load c journal).1
  | step
      {origin : Int}
      {m : Machine}
      (h : CountsFrom origin m)
      (journal : Journal) :
      CountsFrom
        (if Access.writesTo 0xFF04 (m.core journal).accesses
          then m.ticks else origin)
        (m.step journal).1.2
  | takeFrame
      {origin : Int}
      {m : Machine}
      (h : CountsFrom origin m) :
      CountsFrom origin m.takeFrame
  | setButton
      {origin : Int}
      {m : Machine}
      (h : CountsFrom origin m)
      (button : Button)
      (held : Bool)
      (journal : Journal) :
      CountsFrom origin (m.setButton button held journal).1
  | write
      {origin : Int}
      {m : Machine}
      (h : CountsFrom origin m)
      (addr : UInt16)
      (v : UInt8)
      (journal : Journal) :
      CountsFrom (if addr = 0xFF04 then m.ticks else origin)
        (m.write addr v journal).1

/- Every reachable machine's divider counts from somewhen. -/
theorem Reachable.countsFrom
    {m : Machine}
    (h : m.Reachable) :
    ∃ origin, CountsFrom origin m := by
  apply h.lasting (P := fun m => ∃ origin, CountsFrom origin m)
  constructor
  · intro m journal
    exact ⟨_, .reset m journal⟩
  · rintro m journal ⟨origin, hCounts⟩
    exact ⟨_, hCounts.step journal⟩
  · rintro m ⟨origin, hCounts⟩
    exact ⟨origin, hCounts.takeFrame⟩
  · rintro button held m journal ⟨origin, hCounts⟩
    exact ⟨origin, hCounts.setButton button held journal⟩
  · rintro addr v m journal ⟨origin, hCounts⟩
    exact ⟨_, hCounts.write addr v journal⟩

------------------------------------------------------------
-- The Divider
------------------------------------------------------------

/-
  The timer of a machine, a number of whole cycles after a
  moment from which its counter has run.
-/
structure Elapsed
    (origin : Int)
    (n : Nat)
    (m : Machine) : Prop where
  ticks : (m.ticks : Int) = origin + 4 * n
  counter : m.board.timer.counter = .ofNat n
  pending : m.board.timer.pending = 0

/- At entry the counter has a value. -/
theorem elapsed_atEntry
    (rom : Vector UInt8 romSize) :
    Elapsed dividerEpoch 0x2AC0 { board := { rom } } :=
  ⟨rfl, rfl, rfl⟩

/- After a step the counter has run from where it began. -/
theorem Elapsed.step
    {origin : Int}
    {n : Nat}
    {m : Machine}
    (h : Elapsed origin n m)
    (journal : Journal) :
    ∃ k,
      Elapsed
        (if Access.writesTo 0xFF04 (m.core journal).accesses
          then m.ticks else origin)
        k (m.step journal).1.2 := by
  let t := (m.executed journal).board.timer
  obtain ⟨hCounter, hPending⟩ :=
    executed_timer h.pending journal
  generalize hStart :
    (if Access.writesTo 0xFF04 (m.core journal).accesses
      then (m.ticks : Int) else origin) = start
  -- how far the counter has run when the timer follows
  obtain ⟨k, hTicks, hRun⟩ :
      ∃ k : Nat,
        (m.ticks : Int) = start + 4 * k ∧
          t.counter = .ofNat k := by
    split at hStart
    · rename_i hWrote
      rw [if_pos hWrote] at hCounter
      exact ⟨0, by omega, hCounter⟩
    · rename_i hNone
      rw [if_neg hNone] at hCounter
      refine ⟨n, ?_, hCounter.trans h.counter⟩
      rw [← hStart]
      exact h.ticks
  rcases m.step_outcome journal with
    ⟨e, -, hStep⟩ | ⟨cost, hOk, hStep⟩
  · rw [hStep]
    exact ⟨k, hTicks, hRun, hPending⟩
  · have hWhole := (Core.stepCost_step hOk).whole
    obtain ⟨cycles, rfl⟩ : ∃ cycles, cost = 4 * cycles :=
      ⟨cost / 4, by omega⟩
    obtain ⟨hLater, hNone⟩ :=
      Timer.tick_wholeCycles hPending cycles
        (m.executed journal).board.interrupts
    rw [hStep]
    refine ⟨k + cycles, ?_, ?_, hNone⟩
    · change ((m.ticks + 4 * cycles : Nat) : Int) =
        start + 4 * ((k + cycles : Nat) : Int)
      omega
    · refine hLater.trans ?_
      rw [hRun, ← UInt16.ofNat_add]

/-
  The counter of every machine has run from the moment from
  which its divider counts.
-/
theorem CountsFrom.elapsed
    {origin : Int}
    {m : Machine}
    (h : CountsFrom origin m) :
    ∃ n, Elapsed origin n m := by
  induction h with
  | new => exact ⟨_, elapsed_atEntry _⟩
  | reset m journal => exact ⟨_, elapsed_atEntry m.board.rom⟩
  | load c m journal => exact ⟨_, elapsed_atEntry c.rom⟩
  | step _ journal ih =>
      obtain ⟨n, hElapsed⟩ := ih
      exact hElapsed.step journal
  | takeFrame _ ih =>
      obtain ⟨n, hElapsed⟩ := ih
      exact ⟨n, hElapsed.ticks, hElapsed.counter,
        hElapsed.pending⟩
  | @setButton origin m _ button held journal ih =>
      obtain ⟨n, hElapsed⟩ := ih
      unfold Machine.setButton
      cases m.board.presses button held <;>
        exact ⟨n, hElapsed.ticks, hElapsed.counter,
          hElapsed.pending⟩
  | @write origin m _ addr v journal ih =>
      obtain ⟨n, hElapsed⟩ := ih
      obtain ⟨hCounter, hPending⟩ := m.board.timer_write addr v
      by_cases hAddr : addr = 0xFF04
      · rw [if_pos hAddr] at hCounter ⊢
        exact ⟨0, by simp [Machine.write], hCounter,
          hPending.trans hElapsed.pending⟩
      · rw [if_neg hAddr] at hCounter ⊢
        exact ⟨n, hElapsed.ticks,
          hCounter.trans hElapsed.counter,
          hPending.trans hElapsed.pending⟩

/- The divider tells the ticks by the 256. -/
theorem Elapsed.divider
    {origin : Int}
    {n : Nat}
    {m : Machine}
    (h : Elapsed origin n m) :
    ((m.read 0xFF04).toNat : Int) =
      (m.ticks - origin) / 256 % 256 := by
  have hRead :
      m.read 0xFF04 = m.board.timer.readDivider := rfl
  rw [hRead, Timer.readDivider_eq, h.counter, h.ticks,
    UInt16.toNat_ofNat']
  change ((n % 65536 / 64 % 256 : Nat) : Int) = _
  omega

/-
  A step that succeeds costs between one and six whole
  cycles, which pass, and none is ever partly over.  The
  divider tells the time since it was last written by a step
  or from outside, whatever else the machine has done.

  Waiting, HALT and STOP do not write the divider.  The entry
  to a handler does if SP is right behind it, so that the
  return address is pushed over it.
-/
theorem Reachable.divider_follows
    {m : Machine}
    (h : m.Reachable) :
    m.board.timer.pending = 0 ∧
      (∃ origin, CountsFrom origin m) ∧
      (∀ origin, CountsFrom origin m →
        ((m.read 0xFF04).toNat : Int) =
          (m.ticks - origin) / 256 % 256) ∧
      ∀ journal,
        let s := m.core journal
        let r := m.step journal
        let wrote := Access.writesTo 0xFF04 s.accesses
        (∀ cost, r.1.1 = .ok cost →
          cost ∈ [4, 8, 12, 16, 20, 24] ∧
            r.1.2.ticks = m.ticks + cost) ∧
          (s.event = .idle ∨ s.event = .executed .halt ∨
              s.event = .executed .stop →
            wrote = false) ∧
          ∀ i, s.event = .entered i →
            (wrote = true ↔
              s.cpu.regs.sp = 0xFF05 ∨
                s.cpu.regs.sp = 0xFF06) := by
  obtain ⟨origin, hCounts⟩ := h.countsFrom
  obtain ⟨n, hElapsed⟩ := hCounts.elapsed
  refine ⟨hElapsed.pending, ⟨origin, hCounts⟩, ?_, ?_⟩
  · intro other hOther
    obtain ⟨k, hOthers⟩ := hOther.elapsed
    exact hOthers.divider
  · intro journal s r wrote
    refine ⟨?_, ?_, ?_⟩
    · intro cost hOk
      rcases m.step_cases journal with
        ⟨e, n, j, hStep, -⟩ | ⟨cost', n, j, hStep, hDone⟩
      · rw [show r = _ from hStep] at hOk
        cases hOk
      · rw [show r = _ from hStep] at hOk ⊢
        cases hOk
        obtain ⟨hLeast, hMost, hWhole⟩ := hDone.stepCost
        refine ⟨?_, hDone.ticks⟩
        simp only [List.mem_cons, List.not_mem_nil, or_false]
        omega
    · intro hSuspending
      exact Core.writesTo_of_suspending hSuspending 0xFF04
    · intro i hEntered
      exact Core.writesTo_of_entered hEntered 0xFF04

/- A machine that moves its stack right behind the divider. -/
def overstacked : Machine :=
  programmed [0x31, 0x06, 0xFF]

/- Thereafter the handler of the joypad is due. -/
def overpushing : Machine :=
  let m := ((overstacked.after 1).write 0xFFFF 0x10 {}).1
  (m.write 0xFF0F 0x10 {}).1

theorem reachable_overpushing :
    overpushing.Reachable :=
  ((Reachable.after (.reset _ _) 1).write _ _ _).write _ _ _

/- Up to there nothing has written the divider. -/
theorem countsFrom_overpushing :
    CountsFrom dividerEpoch overpushing := by
  have hStart : CountsFrom dividerEpoch overstacked :=
    .reset _ _
  have hNone :
      Access.writesTo 0xFF04 (overstacked.core {}).accesses =
        false := by
    decide +kernel
  have hStep := hStart.step {}
  rw [hNone] at hStep
  exact (hStep.write 0xFFFF 0x10 {}).write 0xFF0F 0x10 {}

/-
  Though no instruction and no write from outside touches the
  divider, it restarts when the handler is entered.
-/
theorem divider_restarted :
    let m := overpushing
    let n := (m.step {}).1.2
    m.Reachable ∧ CountsFrom dividerEpoch m ∧
      (m.core {}).event = .entered .joypad ∧
      ((n.read 0xFF04).toNat : Int) ≠
        (n.ticks - dividerEpoch) / 256 % 256 := by
  intro m n
  have hEvent : (m.core {}).event = .entered .joypad := by
    decide +kernel
  have hRead : n.read 0xFF04 = 0 := by
    decide +kernel
  have hTicks : n.ticks = 24 := by
    decide +kernel
  refine ⟨reachable_overpushing, countsFrom_overpushing,
    hEvent, ?_⟩
  rw [hRead, hTicks]
  decide

/- It then tells the time since the entry began. -/
theorem divider_follows_overpushing :
    let m := overpushing
    let n := (m.step {}).1.2
    m.Reachable ∧ n.Reachable ∧
      Access.writesTo 0xFF04 (m.core {}).accesses = true ∧
      CountsFrom 12 n ∧
      (n.read 0xFF04).toNat = 0 := by
  intro m n
  have hReachable := reachable_overpushing
  have hNext : n.Reachable := hReachable.step {}
  have hEvent : (m.core {}).event = .entered .joypad := by
    decide +kernel
  have hSp : (m.core {}).cpu.regs.sp = 0xFF06 := by
    decide +kernel
  have hTicks : m.ticks = 12 ∧ n.ticks = 24 := by
    decide +kernel
  obtain ⟨-, -, -, hSteps⟩ := hReachable.divider_follows
  obtain ⟨-, -, hEntry⟩ := hSteps {}
  have hWrote := (hEntry .joypad hEvent).mpr (.inr hSp)
  have hCounts : CountsFrom 12 n := by
    have hStep := countsFrom_overpushing.step {}
    rw [if_pos hWrote, hTicks.1] at hStep
    exact hStep
  obtain ⟨-, -, hRead, -⟩ := hNext.divider_follows
  have hValue := hRead 12 hCounts
  rw [hTicks.2] at hValue
  exact ⟨hReachable, hNext, hWrote, hCounts,
    Int.ofNat_inj.mp hValue⟩

end Machine

end Dmg
