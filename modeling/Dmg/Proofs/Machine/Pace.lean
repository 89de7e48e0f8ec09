import Dmg.Proofs.Machine.Requests
import Dmg.Proofs.Machine.Standstill

/-
  The pace of frames.

  A step overshoots the entry to the vertical blank by a
  varying amount, and the deadline of the next frame is taken
  from there.  It is still late enough: each frame ends at the
  next entry, however many have gone before.

  Key definitions include:
    * `Machine.Paced`
    * `Machine.InPace`

  Main results:
    * `Machine.endsAtVblank_runFrame`
    * `Machine.Paced.inPace`
    * `Machine.frame_pacing`
    * `Machine.runFrame_of_stopped_after`
-/

namespace Dmg

namespace Machine

------------------------------------------------------------
-- Frame After Frame
------------------------------------------------------------

/-
  A machine after a number of frames since it was new or
  reset, none of which failed or found the processor stopped,
  with keys, buttons and writes in between.
-/
inductive Paced : Nat → Machine → Prop where
  | new : Paced 0 {}
  | reset
      (m : Machine)
      (j : Journal) :
      Paced 0 (m.reset j).1
  | load
      (c : Cartridge)
      (m : Machine)
      (j : Journal) :
      Paced 0 (m.load c j).1
  | runFrame
      {i : Nat}
      {m n : Machine}
      {j k : Journal}
      (h : Paced i m)
      (hFrame : m.runFrame j = ((.ok (), n), k))
      (hRuns : n.cpu.stopped = false) :
      Paced (i + 1) n
  | setButton
      {i : Nat}
      {m : Machine}
      (h : Paced i m)
      (button : Button)
      (held : Bool)
      (j : Journal) :
      Paced i (m.setButton button held j).1
  | handleKey
      {i : Nat}
      {m : Machine}
      (h : Paced i m)
      (key : Key)
      (held : Bool)
      (j : Journal) :
      Paced i (m.handleKey key held j).1
  | write
      {i : Nat}
      {m : Machine}
      (h : Paced i m)
      (addr : UInt16)
      (v : UInt8)
      (j : Journal) :
      Paced i (m.write addr v j).1

/-
  As many frames are done as the vertical blank was entered,
  and the last one has just ended.
-/
structure InPace
    (i : Nat)
    (m : Machine) : Prop where
  onTime : m.OnTime
  clear : m.frameReady = false
  frames : Position.frames m.ticks = i
  entry :
    0 < i →
      65664 ≤ m.ticks % 70224 ∧
        m.ticks % 70224 < 65664 + 24

theorem InPace.unmoved
    {i : Nat}
    {m n : Machine}
    (h : InPace i m)
    (hSame : Unmoved m n) :
    InPace i n := by
  constructor
  · exact hSame.onTime h.onTime
  · rw [hSame.frameReady]
    exact h.clear
  · rw [hSame.ticks]
    exact h.frames
  · rw [hSame.ticks]
    exact h.entry

theorem inPace_reset
    (m : Machine)
    (j : Journal) :
    InPace 0 (m.reset j).1 := by
  have hNone : Position.frames 0 = 0 := by
    decide
  refine ⟨reset_onTime m j, rfl, hNone, ?_⟩
  intro hSome
  cases hSome

/-
  A frame of a machine on time ends at the vertical blank: one
  is entered in any period as long as a frame.
-/
theorem endsAtVblank_runFrame
    {m n : Machine}
    {j k : Journal}
    (hTime : m.OnTime)
    (hClear : m.frameReady = false)
    (hFrame : m.runFrame j = ((.ok (), n), k))
    (hRuns : n.cpu.stopped = false) :
    EndsAtVblank m j n k := by
  have hLoop := frameLoop_runFrame m j
  have hEntry :
      Position.frames m.ticks <
        Position.frames (m.ticks + frameTicks) := by
    have hLength : frameTicks = 70224 := rfl
    unfold Position.frames
    omega
  rw [hFrame] at hLoop
  exact hLoop.endsAtVblank hTime hClear hEntry rfl hRuns

theorem InPace.runFrame
    {i : Nat}
    {m n : Machine}
    {j k : Journal}
    (h : InPace i m)
    (hFrame : m.runFrame j = ((.ok (), n), k))
    (hRuns : n.cpu.stopped = false) :
    InPace (i + 1) n := by
  obtain ⟨hTime, hClear, hFrames, hFrom, hTo⟩ :=
    (endsAtVblank_runFrame h.onTime h.clear hFrame
      hRuns).overshoot h.onTime
  rw [h.frames] at hFrames
  refine ⟨hTime, hClear, hFrames, ?_⟩
  intro hSome
  exact ⟨hFrom, hTo⟩

theorem Paced.inPace
    {i : Nat}
    {m : Machine}
    (h : Paced i m) :
    InPace i m := by
  induction h with
  | new =>
      refine ⟨Reachable.new.onTime, rfl, rfl, ?_⟩
      intro hSome
      cases hSome
  | reset m j => exact inPace_reset m j
  | load c m j => exact inPace_reset _ j
  | runFrame _ hFrame hRuns ih =>
      exact ih.runFrame hFrame hRuns
  | setButton _ button held j ih =>
      exact ih.unmoved (setButton_unmoved button held _ j)
  | handleKey _ key held j ih =>
      exact ih.unmoved (handleKey_unmoved key held _ j)
  | write _ addr v j ih =>
      exact ih.unmoved (write_unmoved addr v _ j)

/- Frames neither drift nor are skipped nor told twice. -/
theorem InPace.ticks
    {i : Nat}
    {m : Machine}
    (h : InPace i m)
    (hSome : 0 < i) :
    65664 + (i - 1) * 70224 ≤ m.ticks ∧
      m.ticks < 65664 + (i - 1) * 70224 + 24 := by
  have hEntry := h.entry hSome
  have hFrames := h.frames
  unfold Position.frames at hFrames
  omega

------------------------------------------------------------
-- The Pace Of Frames
------------------------------------------------------------

/-
  Every frame ends, soon after its deadline at the latest.

  The latch is clear after a reset, stays clear over frames,
  and is cleared by any frame that does not fail unless the
  processor was stopped.  From there a frame ends at the first
  step that enters the vertical blank, unless it fails or the
  processor stops, and so the ticks after a number of such
  frames are known up to a step.
-/
theorem frame_pacing :
    (∀ (m : Machine) (j : Journal),
      FrameLoop (m.ticks + frameTicks) m j (m.runFrame j) ∧
        (m.runFrame j).1.2.ticks ≤ m.ticks + 70224 + 20) ∧
      (∀ (m : Machine) (j : Journal),
        (m.reset j).1.frameReady = false) ∧
      (∀ (m : Machine) (j : Journal),
        m.frameReady = false →
          (m.runFrame j).1.2.frameReady = false) ∧
      (∀ (m n : Machine) (j k : Journal),
        m.runFrame j = ((.ok (), n), k) →
          n.frameReady = false ∨
            m.cpu.stopped = true ∧ n = m) ∧
      (∀ (m n : Machine) (j k : Journal),
        m.Reachable →
        m.frameReady = false →
        m.runFrame j = ((.ok (), n), k) →
        n.cpu.stopped = false →
          EndsAtVblank m j n k ∧
            (n.read 0xFF44).toNat = 144 ∧
            n.board.lcd.beam.mode = .vblank ∧
            n.frameReady = false) ∧
      ∀ (i : Nat) (m : Machine),
        Paced i m →
        0 < i →
          65664 + (i - 1) * 70224 ≤ m.ticks ∧
            m.ticks < 65664 + (i - 1) * 70224 + 24 := by
  have hLength : frameTicks = 70224 := by
    rfl
  refine ⟨?_, ?_, ?_, ?_, ?_, ?_⟩
  · intro m j
    have hLoop := frameLoop_runFrame m j
    constructor
    · exact hLoop
    · exact hLoop.ticks_le (by omega) (by omega)
  · intro m j
    rfl
  · intro m j hClear
    exact (frameLoop_runFrame m j).frameReady hClear
  · intro m n j k hFrame
    have hLoop := frameLoop_runFrame m j
    rw [hFrame] at hLoop
    exact hLoop.frameReady_of_ok (by omega) rfl
  · intro m n j k hReachable hClear hFrame hRuns
    have hTime := hReachable.onTime
    have hEnds :=
      endsAtVblank_runFrame hTime hClear hFrame hRuns
    obtain ⟨hEnd, hTaken, -, hFrom, hTo⟩ :=
      hEnds.overshoot hTime
    obtain ⟨hLine, hMode⟩ := hEnd.at_entry hFrom hTo
    exact ⟨hEnds, hLine, hMode, hTaken⟩
  · intro i m hPaced hSome
    exact hPaced.inPace.ticks hSome

/- Halted for good: no interrupt wakes the processor. -/
structure Dozes
    (m : Machine) : Prop where
  halted : m.cpu.halted = true
  stopped : m.cpu.stopped = false
  locked : m.cpu.locked = none
  enable : m.board.interrupts.enable = 0

theorem Dozes.step
    {m : Machine}
    (h : m.Dozes)
    (j : Journal) :
    (m.step j).1.1 = .ok idleTicks ∧
      (m.step j).1.2.Dozes := by
  have hNone : m.board.interrupts.pending = 0 := by
    unfold InterruptController.pending
      InterruptController.enabled
    rw [h.enable]
    exact UInt8.and_zero
  have hSuspended : (m.core j).suspended = true := by
    change
      (m.cpu.stopped ||
        m.cpu.halted && m.board.interrupts.pending == 0) =
          true
    rw [h.stopped, h.halted, hNone]
    rfl
  have hIdle :
      (m.core j).step = (.ok idleTicks, m.core j) :=
    Core.step_of_suspended h.locked hSuspended
  obtain ⟨hCost, hCpu, hRequested⟩ := m.step_core j
  rw [hIdle] at hCost hCpu hRequested
  constructor
  · exact hCost
  · constructor
    · rw [hCpu]
      exact h.halted
    · rw [hCpu]
      exact h.stopped
    · rw [hCpu]
      exact h.locked
    · rw [hRequested.enable]
      exact h.enable

theorem Dozes.frameLoop
    {deadline : Nat}
    {m : Machine}
    {j : Journal}
    {r : (FrameResult × Machine) × Journal}
    (h : m.Dozes)
    (hLoop : FrameLoop deadline m j r) :
    r.1.1 = .ok () ∧ r.1.2.Dozes := by
  induction hLoop with
  | ended hOver => exact ⟨rfl, h⟩
  | @failed m n j k e hTest hStep =>
      have hDone := (h.step j).1
      rw [hStep] at hDone
      cases hDone
  | @completed m n j k cost hTest hStep hReady =>
      have hDone := (h.step j).2
      rw [hStep] at hDone
      exact ⟨rfl, hDone.halted, hDone.stopped, hDone.locked,
        hDone.enable⟩
  | @again m n j k cost r hTest hStep hReady hRest ih =>
      have hDone := (h.step j).2
      rw [hStep] at hDone
      exact ih hDone

/- A machine whose program is a HALT, after a reset. -/
def asleep : Machine :=
  let rom := (Vector.replicate romSize 0).set 0x100 0x76
  (reset { board := { rom } } {}).1

theorem dozes_asleep :
    (asleep.step {}).1.1.toOption = some 4 ∧
      (asleep.step {}).1.2.frameReady = false ∧
      (asleep.step {}).1.2.Dozes := by
  refine ⟨by decide +kernel, by decide +kernel,
    by decide +kernel, by decide +kernel,
    by decide +kernel, by decide +kernel⟩

theorem frameLoop_asleep
    {r : (FrameResult × Machine) × Journal}
    (h : FrameLoop (asleep.ticks + frameTicks) asleep {} r) :
    r.1.1 = .ok () ∧ r.1.2.Dozes := by
  obtain ⟨hFirst, hReady, hDozes⟩ := dozes_asleep
  cases h with
  | ended h => exact absurd h (by decide)
  | failed hTest hStep =>
      rw [hStep] at hFirst
      cases hFirst
  | completed hTest hStep hLatch =>
      rw [hStep, hLatch] at hReady
      cases hReady
  | again hTest hStep hLatch hRest =>
      rw [hStep] at hDozes
      exact hDozes.frameLoop hRest

/- Its first frame ends a step into the vertical blank. -/
theorem frame_pacing_asleep :
    ∃ n k, asleep.runFrame {} = ((.ok (), n), k) ∧
      EndsAtVblank asleep {} n k ∧
      65664 ≤ n.ticks ∧ n.ticks < 65664 + 24 := by
  obtain ⟨-, -, -, -, hFrame, hPace⟩ := frame_pacing
  obtain ⟨hOk, hDozes⟩ :=
    frameLoop_asleep (frameLoop_runFrame asleep {})
  rcases hRun : asleep.runFrame {} with ⟨⟨result, n⟩, k⟩
  rw [hRun] at hOk hDozes
  cases hOk
  have hReachable : asleep.Reachable := .reset _ _
  have hPaced : Paced 1 n :=
    .runFrame (.reset _ _) hRun hDozes.stopped
  have hEnds :=
    hFrame asleep n {} k hReachable rfl hRun hDozes.stopped
  exact ⟨n, k, rfl, hEnds.1, hPace 1 n hPaced (by decide)⟩

/- A stopped machine goes on counting frames in its steps. -/
theorem after_of_stopped
    {m : Machine}
    (hTime : m.OnTime)
    (hLocked : m.cpu.locked = none)
    (hStopped : m.cpu.stopped = true)
    (steps : Nat) :
    let n := m.after steps
    n.OnTime ∧
      n.cpu = m.cpu ∧
      n.ticks = m.ticks + 4 * steps ∧
      n.frameReady =
        (m.frameReady ||
          decide (Position.frames m.ticks <
            Position.frames n.ticks)) := by
  induction steps with
  | zero =>
      refine ⟨hTime, rfl, rfl, ?_⟩
      change m.frameReady =
        (m.frameReady ||
          decide (Position.frames m.ticks <
            Position.frames m.ticks))
      rw [decide_eq_false (Nat.lt_irrefl _), Bool.or_false]
  | succ steps ih =>
      intro n
      obtain ⟨hBefore, hCpu, hTicks, hReady⟩ := ih
      obtain ⟨n', k, hStep, hSame, hPassed, -⟩ :=
        (idles_of_stopped (hCpu ▸ hLocked)
          (hCpu ▸ hStopped)).step {}
      have hNext : n = n' :=
        congrArg (fun r => r.1.2) hStep
      have hDone := stepped_of_ok hStep
      have hEntered :
          (Position.frames m.ticks <
                Position.frames (m.after steps).ticks ∨
              Position.frames (m.after steps).ticks <
                Position.frames n'.ticks) ↔
            Position.frames m.ticks <
              Position.frames n'.ticks := by
        unfold Position.frames
        omega
      rw [hNext]
      refine ⟨hDone.onTime hBefore, hSame.trans hCpu, ?_, ?_⟩
      · omega
      · rw [hDone.frameReady hBefore, hReady, Bool.or_assoc,
          ← Bool.decide_or, decide_eq_decide.mpr hEntered]

/-
  A frame leaves the latch alone that a stopped machine has
  set in its steps.
-/
theorem runFrame_of_stopped_after
    {m : Machine}
    (h : m.Reachable)
    (hLocked : m.cpu.locked = none)
    (hStopped : m.cpu.stopped = true)
    {steps : Nat}
    (hEntered :
      Position.frames m.ticks <
        Position.frames (m.ticks + 4 * steps))
    (j : Journal) :
    let n := m.after steps
    n.Reachable ∧
      n.cpu.stopped = true ∧
      n.runFrame j = ((.ok (), n), j) ∧
      n.frameReady = true := by
  intro n
  obtain ⟨-, hCpu, hTicks, hReady⟩ :=
    after_of_stopped h.onTime hLocked hStopped steps
  rw [hTicks, decide_eq_true hEntered, Bool.or_true] at hReady
  have hIdles : Idles n :=
    idles_of_stopped (hCpu ▸ hLocked) (hCpu ▸ hStopped)
  exact ⟨h.after steps, hCpu ▸ hStopped, hIdles.runFrame j,
    hReady⟩

/-
  A program that begins with STOP, stepped into the vertical
  blank: the frame after that takes no step and leaves the
  latch set.  And a new machine, after no frame at all, is not
  a frame behind the first one.
-/
theorem latch_left_by_stop :
    let m := ((beginningWith 0x10).after 1).after 16415
    m.Reachable ∧
      m.cpu.stopped = true ∧
      m.runFrame {} = ((.ok (), m), {}) ∧
      m.frameReady = true ∧
      Paced 0 {} ∧
      ¬ (({} : Machine).ticks : Int) <
        65664 + (0 - 1) * 70224 + 24 := by
  have hStart : (beginningWith 0x10).Reachable :=
    .load (Cartridge.beginningWith 0x10) {} {}
  have hStop :
      ((beginningWith 0x10).after 1).cpu.stopped = true ∧
        ((beginningWith 0x10).after 1).cpu.locked = none ∧
        ((beginningWith 0x10).after 1).ticks = 4 := by
    decide +kernel
  obtain ⟨hStopped, hLocked, hTicks⟩ := hStop
  have hEntered :
      Position.frames ((beginningWith 0x10).after 1).ticks <
        Position.frames
          (((beginningWith 0x10).after 1).ticks +
            4 * 16415) := by
    rw [hTicks]
    decide
  obtain ⟨hReachable, hStays, hFrame, hReady⟩ :=
    runFrame_of_stopped_after (hStart.after 1) hLocked
      hStopped hEntered {}
  exact ⟨hReachable, hStays, hFrame, hReady, .new, by decide⟩

end Machine

end Dmg
