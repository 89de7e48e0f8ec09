import Dmg.Proofs.Machine.Clock

/-
  How a frame ends.

  Every frame ends.  It has two reasons to: that a frame is
  completed, and its deadline.  On a machine on time the
  vertical blank is entered before the deadline, so that the
  deadline only matters to a frame cut short.

  Key definitions include:
    * `Machine.FrameLoop`
    * `Machine.EntersVblank`
    * `Machine.EndsAtVblank`

  Main results:
    * `Machine.frameLoop_runFrame`
    * `Machine.FrameLoop.ticks_le`
    * `Machine.FrameLoop.frameReady_of_ok`
    * `Machine.FrameLoop.endsAtVblank`
    * `Machine.EndsAtVblank.overshoot`
-/

namespace Dmg

namespace Machine

------------------------------------------------------------
-- The Loop Of A Frame
------------------------------------------------------------

/- Whether a frame takes another step. -/
def continues
    (deadline : Nat)
    (m : Machine) : Bool :=
  m.ticks < deadline && !m.cpu.stopped

/-
  The loop of a frame: it steps as long as it continues, and
  ends early when a step fails or completes a frame.
-/
inductive FrameLoop
    (deadline : Nat) :
    Machine → Journal →
      (FrameResult × Machine) × Journal → Prop where
  | ended
      {m : Machine}
      {j : Journal}
      (h : m.continues deadline = false) :
      FrameLoop deadline m j ((.ok (), m), j)
  | failed
      {m n : Machine}
      {j k : Journal}
      {e : DecodeFault}
      (h : m.continues deadline = true)
      (hStep : m.step j = ((.error e, n), k)) :
      FrameLoop deadline m j ((.error e, n), k)
  | completed
      {m n : Machine}
      {j k : Journal}
      {cost : Nat}
      (h : m.continues deadline = true)
      (hStep : m.step j = ((.ok cost, n), k))
      (hReady : n.frameReady = true) :
      FrameLoop deadline m j ((.ok (), n.takeFrame), k)
  | again
      {m n : Machine}
      {j k : Journal}
      {cost : Nat}
      {r : (FrameResult × Machine) × Journal}
      (h : m.continues deadline = true)
      (hStep : m.step j = ((.ok cost, n), k))
      (hReady : n.frameReady = false)
      (hRest : FrameLoop deadline n k r) :
      FrameLoop deadline m j r

/- A step that succeeds passes time. -/
theorem stepped_of_ok
    {m n : Machine}
    {j k : Journal}
    {cost : Nat}
    (hStep : m.step j = ((.ok cost, n), k)) :
    Stepped m cost n := by
  rcases m.step_cases j with
    ⟨e, n', j', hOther, -⟩ | ⟨cost', n', j', hOther, hDone⟩
  · rw [hStep] at hOther
    cases hOther
  · rw [hStep] at hOther
    cases hOther
    exact hDone

theorem unmoved_of_error
    {m n : Machine}
    {j k : Journal}
    {e : DecodeFault}
    (hStep : m.step j = ((.error e, n), k)) :
    Unmoved m n := by
  rcases m.step_cases j with
    ⟨e', n', j', hOther, hSame⟩ | ⟨cost', n', j', hOther, -⟩
  · rw [hStep] at hOther
    cases hOther
    exact hSame
  · rw [hStep] at hOther
    cases hOther

/-
  As many steps as there are ticks to the deadline are enough
  for the loop to end.
-/
theorem frameLoop_runUntil
    {deadline fuel : Nat}
    {m : Machine}
    (hFuel : deadline ≤ m.ticks + fuel)
    (j : Journal) :
    FrameLoop deadline m j (runUntil deadline fuel m j) := by
  induction fuel generalizing m j with
  | zero =>
      apply FrameLoop.ended
      have hPast : ¬ m.ticks < deadline := by omega
      unfold continues
      rw [decide_eq_false hPast]
      rfl
  | succ fuel ih =>
      unfold runUntil
      cases hRuns : m.continues deadline with
      | false =>
          unfold continues at hRuns
          rw [hRuns]
          exact .ended hRuns
      | true =>
          have hTest := hRuns
          unfold continues at hTest
          rw [hTest]
          rcases hStep : m.step j with ⟨⟨result, n⟩, k⟩
          cases result with
          | error e => exact .failed hRuns hStep
          | ok cost =>
              have hDone := stepped_of_ok hStep
              have hCost := hDone.stepCost.least
              have hTicks := hDone.ticks
              simp only [if_true]
              cases hReady : n.frameReady with
              | true => exact .completed hRuns hStep hReady
              | false =>
                  exact .again hRuns hStep hReady
                    (ih (by omega) k)

/- Every frame ends, and is the loop's. -/
theorem frameLoop_runFrame
    (m : Machine)
    (j : Journal) :
    FrameLoop (m.ticks + frameTicks) m j (m.runFrame j) :=
  frameLoop_runUntil (Nat.le_refl _) j

/- A step that begins before a deadline ends soon after. -/
theorem ticks_le_of_step
    {deadline : Nat}
    {m n : Machine}
    {j k : Journal}
    {cost : Nat}
    (h : m.continues deadline = true)
    (hStep : m.step j = ((.ok cost, n), k))
    (hWhole : m.ticks % 4 = deadline % 4) :
    n.ticks ≤ deadline + 20 := by
  have hDone := stepped_of_ok hStep
  have hCost := hDone.stepCost.most
  have hTicks := hDone.ticks
  have hBefore : m.ticks < deadline :=
    of_decide_eq_true (Bool.and_eq_true_iff.mp h).1
  omega

------------------------------------------------------------
-- Entering The Vertical Blank
------------------------------------------------------------

/- Between two machines the vertical blank is entered. -/
def EntersVblank
    (m n : Machine) : Prop :=
  m.board.lcd.beam.mode ≠ .vblank ∧
    n.board.lcd.beam.mode = .vblank

theorem mode_eq_vblank_iff
    {m : Machine}
    (hTime : m.OnTime) :
    m.board.lcd.beam.mode = .vblank ↔
      144 ≤ Position.line m.ticks := by
  rw [hTime.beam]
  exact Position.mode_eq_iff

/-
  A step enters the vertical blank if it passes the tick of an
  entry: it is too short to pass all of the vertical blank.
-/
theorem entersVblank_iff
    {m n : Machine}
    {cost : Nat}
    (hTime : m.OnTime)
    (h : Stepped m cost n) :
    EntersVblank m n ↔
      Position.frames m.ticks < Position.frames n.ticks := by
  have hCost := h.stepCost.most
  have hTicks := h.ticks
  unfold EntersVblank
  rw [ne_eq, mode_eq_vblank_iff hTime,
    mode_eq_vblank_iff (h.onTime hTime)]
  unfold Position.line Position.frames
  omega

/- Steps that do not enter the vertical blank. -/
inductive Waits :
    Machine → Journal → Machine → Journal → Prop where
  | refl
      (m : Machine)
      (j : Journal) :
      Waits m j m j
  | step
      {m n p : Machine}
      {j k l : Journal}
      {cost : Nat}
      (hStep : m.step j = ((.ok cost, n), k))
      (hNone : ¬ EntersVblank m n)
      (h : Waits n k p l) :
      Waits m j p l

/-
  A machine that comes from another by the first step that
  enters the vertical blank, its frame then taken.
-/
def EndsAtVblank
    (m : Machine)
    (j : Journal)
    (n : Machine)
    (k : Journal) : Prop :=
  ∃ p l q cost, Waits m j p l ∧
    p.step l = ((.ok cost, q), k) ∧ EntersVblank p q ∧
    n = q.takeFrame

/- While no frame is completed, none is counted. -/
theorem Stepped.frames_eq
    {m n : Machine}
    {cost : Nat}
    (h : Stepped m cost n)
    (hTime : m.OnTime)
    (hClear : n.frameReady = false) :
    Position.frames n.ticks = Position.frames m.ticks := by
  have hReady := h.frameReady hTime
  have hTicks := h.ticks
  rw [hClear] at hReady
  have hNone :
      ¬ Position.frames m.ticks < Position.frames n.ticks :=
    of_decide_eq_false
      (Bool.or_eq_false_iff.mp hReady.symm).2
  unfold Position.frames at *
  omega

theorem Waits.frames_eq
    {m n : Machine}
    {j k : Journal}
    (h : Waits m j n k)
    (hTime : m.OnTime) :
    n.OnTime ∧
      Position.frames n.ticks = Position.frames m.ticks := by
  induction h with
  | refl => exact ⟨hTime, rfl⟩
  | step hStep hNone h ih =>
      have hDone := stepped_of_ok hStep
      obtain ⟨hEnd, hFrames⟩ := ih (hDone.onTime hTime)
      rw [entersVblank_iff hTime hDone] at hNone
      have hTicks := hDone.ticks
      constructor
      · exact hEnd
      · unfold Position.frames at *
        omega

namespace FrameLoop

variable
  {deadline : Nat}
  {m : Machine}
  {j : Journal}
  {r : (FrameResult × Machine) × Journal}

/- A frame overshoots its deadline by less than a step. -/
theorem ticks_le
    (h : FrameLoop deadline m j r)
    (hStart : m.ticks ≤ deadline + 20)
    (hWhole : m.ticks % 4 = deadline % 4) :
    r.1.2.ticks ≤ deadline + 20 := by
  induction h with
  | ended h => exact hStart
  | failed h hStep =>
      rw [(unmoved_of_error hStep).ticks]
      exact hStart
  | @completed m n j k cost h hStep hReady =>
      have hEnd : n.ticks ≤ deadline + 20 :=
        ticks_le_of_step h hStep hWhole
      exact hEnd
  | again h hStep hReady hRest ih =>
      have hDone := stepped_of_ok hStep
      have hCost := hDone.stepCost.whole
      have hTicks := hDone.ticks
      exact ih (ticks_le_of_step h hStep hWhole) (by omega)

/- Once clear, the latch is clear after the frame. -/
theorem frameReady
    (h : FrameLoop deadline m j r)
    (hClear : m.frameReady = false) :
    r.1.2.frameReady = false := by
  induction h with
  | ended h => exact hClear
  | failed h hStep =>
      rw [(unmoved_of_error hStep).frameReady]
      exact hClear
  | completed h hStep hReady => rfl
  | again h hStep hReady hRest ih => exact ih hReady

/-
  A frame that does not fail clears the latch, unless the
  processor was stopped and nothing is done.
-/
theorem frameReady_of_ok
    (h : FrameLoop deadline m j r)
    (hBefore : m.ticks < deadline)
    (hOk : r.1.1 = .ok ()) :
    r.1.2.frameReady = false ∨
      m.cpu.stopped = true ∧ r.1.2 = m := by
  cases h with
  | ended h =>
      unfold continues at h
      rw [decide_eq_true hBefore, Bool.true_and,
        Bool.not_eq_false'] at h
      exact .inr ⟨h, rfl⟩
  | failed h hStep => cases hOk
  | completed h hStep hReady => exact .inl rfl
  | again h hStep hReady hRest =>
      exact .inl (hRest.frameReady hReady)

/-
  A frame that begins with the latch clear ends at the first
  entry to the vertical blank, if one comes before the
  deadline.
-/
theorem endsAtVblank
    (h : FrameLoop deadline m j r)
    (hTime : m.OnTime)
    (hClear : m.frameReady = false)
    (hEntry :
      Position.frames m.ticks < Position.frames deadline)
    (hOk : r.1.1 = .ok ())
    (hRuns : r.1.2.cpu.stopped = false) :
    EndsAtVblank m j r.1.2 r.2 := by
  induction h with
  | @ended m j h =>
      have hPast : ¬ m.ticks < deadline := by
        intro hBefore
        unfold continues at h
        rw [decide_eq_true hBefore, hRuns] at h
        cases h
      have hFrames :
          Position.frames deadline ≤
            Position.frames m.ticks :=
        Nat.div_le_div_right (by omega)
      omega
  | failed h hStep => cases hOk
  | @completed m n j k cost h hStep hReady =>
      have hDone := stepped_of_ok hStep
      refine ⟨m, j, n, cost, .refl m j, hStep, ?_, rfl⟩
      rw [entersVblank_iff hTime hDone]
      have hLatch := hDone.frameReady hTime
      rw [hReady, hClear, Bool.false_or] at hLatch
      exact of_decide_eq_true hLatch.symm
  | @again m n j k cost r h hStep hReady hRest ih =>
      have hDone := stepped_of_ok hStep
      have hFrames := hDone.frames_eq hTime hReady
      obtain ⟨p, l, q, cost', hWaits, hLast, hEnters, hEq⟩ :=
        ih (hDone.onTime hTime) hReady (hFrames ▸ hEntry)
          hOk hRuns
      have hNone : ¬ EntersVblank m n := by
        rw [entersVblank_iff hTime hDone, hFrames]
        exact Nat.lt_irrefl _
      exact ⟨p, l, q, cost', .step hStep hNone hWaits, hLast,
        hEnters, hEq⟩

end FrameLoop

/-
  A frame that ends at the vertical blank is one more, and
  has overshot the entry by less than a step.
-/
theorem EndsAtVblank.overshoot
    {m n : Machine}
    {j k : Journal}
    (h : EndsAtVblank m j n k)
    (hTime : m.OnTime) :
    n.OnTime ∧ n.frameReady = false ∧
      Position.frames n.ticks =
        Position.frames m.ticks + 1 ∧
      65664 ≤ n.ticks % 70224 ∧
      n.ticks % 70224 < 65664 + 24 := by
  rcases h with
    ⟨p, l, q, cost, hWaits, hStep, hEnters, rfl⟩
  obtain ⟨hBefore, hFrames⟩ := hWaits.frames_eq hTime
  have hDone := stepped_of_ok hStep
  have hCost := hDone.stepCost.most
  have hWhole := hDone.stepCost.whole
  have hTicks := hDone.ticks
  rw [entersVblank_iff hBefore hDone] at hEnters
  have hTaken : q.takeFrame.ticks = q.ticks := rfl
  refine ⟨takeFrame_onTime (hDone.onTime hBefore), rfl, ?_⟩
  rw [hTaken]
  unfold Position.frames at *
  omega

/- On time within a step of the entry, the line is the first. -/
theorem OnTime.at_entry
    {m : Machine}
    (hTime : m.OnTime)
    (hFrom : 65664 ≤ m.ticks % 70224)
    (hTo : m.ticks % 70224 < 65664 + 24) :
    (m.read 0xFF44).toNat = 144 ∧
      m.board.lcd.beam.mode = .vblank := by
  have hLine : Position.line m.ticks = 144 := by
    unfold Position.line
    omega
  constructor
  · have hBeam : m.board.lcd.beam.line = 144 :=
      (congrArg Beam.line hTime.beam).trans hLine
    rw [read_line, hBeam]
  · rw [mode_eq_vblank_iff hTime]
    exact Nat.le_of_eq hLine.symm

end Machine

end Dmg
