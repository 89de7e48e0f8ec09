import Dmg.Proofs.Checked.Cartridge
import Dmg.Proofs.Checked.Processor
import Dmg.Proofs.Checked.Time
import Dmg.Proofs.Machine.Action
import Dmg.Proofs.Machine.Frame

/-
  The machine with all its sums, indices and slices checked.

  A checked run does what a run does, and has no result as
  soon as one check fails: of the processor, of the memories
  that it accesses, of the devices that follow it, of a header
  that is read or of the count of ticks itself.

  Between actions the beam is where the count of ticks says,
  and the timer has less than a cycle left over.  From this no
  check fails while the count of ticks is far from its end.

  Key definitions include:
    * `Machine.stepChecked`
    * `Machine.performChecked`
    * `Machine.sessionChecked`
    * `Machine.Sound`

  Main results:
    * `Machine.Sound.stepChecked_eq`
    * `Machine.Sound.performChecked_eq`
    * `Machine.ticks_afterRun_le`
    * `Machine.session_within_bounds`
-/

namespace Dmg

open Checked

namespace Machine

------------------------------------------------------------
-- Reset And Loading
------------------------------------------------------------

/- A machine just switched on. -/
def newChecked : Option Machine := do
  let board ← Board.freshChecked (.replicate romSize 0)
  some { board := board }

/- Everything as a program finds it, the image apart. -/
def resetChecked
    (m : Machine)
    (journal : Journal) : Option (Machine × Journal) := do
  let board ← Board.freshChecked m.board.rom
  some ({ board := board }, journal.note .machineReset)

/- Put in a cartridge and reset. -/
def loadChecked
    (c : Cartridge)
    (m : Machine)
    (journal : Journal) : Option (Machine × Journal) := do
  let rom ← c.copyChecked
  resetChecked { m with board := { m.board with rom := rom } }
    journal

/- Put in a cartridge with an image if it is accepted. -/
def loadImageChecked
    (image : Array UInt8)
    (m : Machine)
    (journal : Journal) :
    Option ((Except CartridgeFault Unit × Machine) ×
      Journal) := do
  match ← Cartridge.ofBytesChecked image with
  | .error e => some ((.error e, m), journal)
  | .ok c => do
      let events ← c.acceptanceEventsChecked
      let (m, journal) ←
        m.loadChecked c (journal.noteAll events)
      some ((.ok (), m), journal)

theorem newChecked_eq :
    newChecked = some {} := by
  unfold newChecked
  rw [Board.freshChecked_eq]
  rfl

theorem resetChecked_eq
    (m : Machine)
    (journal : Journal) :
    m.resetChecked journal = some (m.reset journal) := by
  unfold resetChecked
  rw [Board.freshChecked_eq]
  rfl

theorem loadChecked_eq
    (c : Cartridge)
    (m : Machine)
    (journal : Journal) :
    m.loadChecked c journal =
      some ({ board := { rom := c.rom } },
        journal.note .machineReset) := by
  simp only [loadChecked, Cartridge.copyChecked_eq,
    resetChecked, Board.freshChecked_eq, Option.bind_eq_bind,
    Option.bind_some]

/- No image makes loading fail a check. -/
theorem loadImageChecked_eq
    (image : Array UInt8)
    (m : Machine)
    (journal : Journal) :
    m.loadImageChecked image journal =
      some (m.loadImage image journal) := by
  unfold loadImageChecked
  rw [Cartridge.ofBytesChecked_eq, Option.bind_eq_bind,
    Option.bind_some]
  cases h : Cartridge.ofBytes image with
  | error e => rw [loadImage_of_error h]
  | ok c =>
      rw [loadImage_of_ok h]
      simp only [Cartridge.acceptanceEventsChecked_eq,
        loadChecked_eq, Option.bind_eq_bind,
        Option.bind_some]

------------------------------------------------------------
-- Steps And Frames
------------------------------------------------------------

/- The processor of a machine, on its guarded board. -/
def guardedCore
    (m : Machine)
    (journal : Journal) : Core Guarded :=
  ⟨m.cpu, ⟨⟨m.board, journal⟩, true⟩⟩

/- Let timer and LCD controller follow the processor. -/
def followChecked
    (ticks : Nat)
    (result : StepResult)
    (s : Core Wired) :
    Option ((StepResult × Machine) × Journal) :=
  match result with
  | .error e =>
      some ((.error e, ⟨s.cpu, s.bus.board, ticks⟩),
        s.bus.journal)
  | .ok cost => do
      let now ← add 64 ticks cost
      let (board, journal) ←
        s.bus.board.advanceChecked cost now s.bus.journal
      some ((.ok cost, ⟨s.cpu, board, now⟩), journal)

/-
  One step of the processor, after which timer and LCD
  controller follow.
-/
def stepChecked
    (m : Machine)
    (journal : Journal) :
    Option ((StepResult × Machine) × Journal) := do
  let (result, s) ← (m.guardedCore journal).stepChecked
  require (s.bus.intact = true)
  followChecked m.ticks result (s.map Guarded.wired)

/-
  Step until a frame is completed, the processor stops, or
  the deadline has passed, and at most `fuel` times.
-/
def runUntilChecked
    (deadline : Nat) :
    Nat → Machine → Journal →
      Option ((FrameResult × Machine) × Journal)
  | 0, m, journal => some ((.ok (), m), journal)
  | fuel + 1, m, journal =>
      if m.continues deadline then do
        match ← m.stepChecked journal with
        | ((.error e, m), journal) =>
            some ((.error e, m), journal)
        | ((.ok _, m), journal) =>
            if m.frameReady then
              some ((.ok (), m.takeFrame), journal)
            else runUntilChecked deadline fuel m journal
      else some ((.ok (), m), journal)

/-
  Step until a frame is completed or the processor stops, but
  no longer than a frame takes.
-/
def runFrameChecked
    (m : Machine)
    (journal : Journal) :
    Option ((FrameResult × Machine) × Journal) := do
  let deadline ← add 64 m.ticks frameTicks
  runUntilChecked deadline frameTicks m journal

------------------------------------------------------------
-- Runs
------------------------------------------------------------

/-
  Perform an action.  Buttons and requests only combine bits
  of bytes.
-/
def performChecked
    (a : Action)
    (m : Machine)
    (journal : Journal) :
    Option ((Answer × Machine) × Journal) :=
  match a with
  | .step => do
      let ((r, m), journal) ← m.stepChecked journal
      some ((.stepped r, m), journal)
  | .runFrame => do
      let ((r, m), journal) ← m.runFrameChecked journal
      some ((.framed r, m), journal)
  | .read addr => do
      let v ← m.board.readChecked addr
      some ((.byte v, m), journal)
  | .write addr v => do
      let board ← m.board.writeChecked addr v
      let (_, journal) := m.write addr v journal
      some ((.done, { m with board := board }), journal)
  | .reset => do
      let (m, journal) ← m.resetChecked journal
      some ((.done, m), journal)
  | .load image => do
      let ((r, m), journal) ← m.loadImageChecked image journal
      some ((.loaded r, m), journal)
  | .setButton .. | .handleKey .. | .request _ =>
      some (m.perform a journal)

/- Perform actions in order, with their answers. -/
def runChecked :
    List Action → Machine → Journal →
      Option ((List Answer × Machine) × Journal)
  | [], m, journal => some (([], m), journal)
  | a :: as, m, journal => do
      let ((answer, m), journal) ← m.performChecked a journal
      let ((answers, m), journal) ← runChecked as m journal
      some ((answer :: answers, m), journal)

/- Perform actions on a machine just switched on. -/
def sessionChecked
    (as : List Action)
    (journal : Journal) :
    Option ((List Answer × Machine) × Journal) := do
  let m ← newChecked
  m.runChecked as journal

------------------------------------------------------------
-- Sound Machines
------------------------------------------------------------

/-
  The machine is on time, and its timer has less than a cycle
  left over.
-/
structure Sound
    (m : Machine) : Prop where
  onTime : m.OnTime
  pending : m.board.timer.pending < 4

theorem sound_fresh
    (rom : Vector UInt8 romSize) :
    Sound { board := { rom := rom } } where
  onTime := reset_onTime { board := { rom := rom } } {}
  pending := Nat.zero_lt_succ 3

theorem Sound.step
    {m : Machine}
    (h : m.Sound)
    (journal : Journal) :
    (m.step journal).1.2.Sound where
  onTime := step_onTime h.onTime journal
  pending := by
    rcases m.step_outcome journal with
      ⟨e, -, hStep⟩ | ⟨cost, -, hStep⟩
    · rw [hStep]
      exact Core.step_invariant Wired.invariant_pending
        (s := m.core journal) h.pending
    · rw [hStep]
      exact Board.pending_advance ..

/- Nothing but a step passes time. -/
theorem kept_sound :
    Kept Sound where
  step _ journal h := h.step journal
  takeFrame _ h := ⟨takeFrame_onTime h.onTime, h.pending⟩
  setButton button held m journal h := by
    refine ⟨(setButton_unmoved button held m journal).onTime
      h.onTime, ?_⟩
    unfold Machine.setButton
    cases m.board.presses button held <;> exact h.pending
  write addr v m journal h := by
    refine ⟨(write_unmoved addr v m journal).onTime
      h.onTime, ?_⟩
    change (m.board.write addr v).timer.pending < 4
    rw [Board.pending_write]
    exact h.pending
  request _ _ h :=
    ⟨⟨h.onTime.beam, h.onTime.masked⟩, h.pending⟩

theorem Sound.afterRun
    {m : Machine}
    (h : m.Sound)
    (as : List Action)
    (journal : Journal) :
    (m.afterRun as journal).Sound :=
  run_invariant kept_sound sound_fresh as h journal

------------------------------------------------------------
-- No Check Fails
------------------------------------------------------------

namespace Sound

variable {m : Machine}

theorem followChecked_eq
    (h : m.Sound)
    (hRoom : m.ticks + 24 < 2 ^ 64)
    (journal : Journal) :
    followChecked m.ticks (m.core journal).step.1
        (m.core journal).step.2 =
      some (m.step journal) := by
  have hPending :=
    Core.step_invariant Wired.invariant_pending
      (s := m.core journal) h.pending
  have hLcd :=
    Core.step_invariant (Wired.invariant_lcd m.board.lcd)
      (s := m.core journal) ⟨rfl, rfl, id⟩
  rcases m.step_outcome journal with
    ⟨e, hError, hStep⟩ | ⟨cost, hOk, hStep⟩
  · rw [hError, hStep]
    rfl
  · have hCost := (Core.stepCost_step hOk).most
    have hNow :
        add 64 m.ticks cost = some (m.ticks + cost) :=
      add_of_lt (by omega)
    have hFollow :=
      Board.advanceChecked_of_onTime
        (hLcd.1.trans h.onTime.beam) hPending hCost
    rw [hOk, hStep]
    simp only [followChecked, hNow, hFollow,
      Option.bind_eq_bind, Option.bind_some]

/- A step fails no check if the count of ticks has room. -/
theorem stepChecked_eq
    (h : m.Sound)
    (hRoom : m.ticks + 24 < 2 ^ 64)
    (journal : Journal) :
    m.stepChecked journal = some (m.step journal) := by
  have hIntact :
      (m.guardedCore journal).step.2.bus.intact = true :=
    Core.step_invariant Guarded.invariant_intact
      (s := m.guardedCore journal) rfl
  have hCore :
      (m.core journal).step =
        Core.mapAnswer Guarded.wired
          (m.guardedCore journal).step :=
    Core.step_map Guarded.translation_wired
      (m.guardedCore journal)
  -- Without its guards, the step is one of the machine's own
  -- processor, and that is what the devices follow.
  have hFollow := h.followChecked_eq hRoom journal
  rw [hCore] at hFollow
  simp only [stepChecked, Core.stepChecked_eq,
    require_of hIntact, Option.bind_eq_bind,
    Option.bind_some]
  exact hFollow

/- Without room the count of ticks overflows. -/
example :
    (({ ticks := 2 ^ 64 - 1 } : Machine).stepChecked
      {}).isNone = true := by
  decide +kernel

/- Nor does a frame whose deadline has room. -/
theorem runUntilChecked_eq
    {deadline : Nat}
    (hRoom : deadline + 24 ≤ 2 ^ 64)
    (h : m.Sound)
    (fuel : Nat)
    (journal : Journal) :
    runUntilChecked deadline fuel m journal =
      some (runUntil deadline fuel m journal) := by
  induction fuel generalizing m journal with
  | zero => rfl
  | succ fuel ih =>
      unfold runUntilChecked runUntil
      cases hRuns : m.continues deadline with
      | false =>
          unfold continues at hRuns
          rw [hRuns]
          rfl
      | true =>
          have hBefore : m.ticks < deadline :=
            of_decide_eq_true (Bool.and_eq_true_iff.mp hRuns).1
          -- A step begins before the deadline, so that the room
          -- after the deadline is enough for its ticks.
          have hStep :=
            h.stepChecked_eq (by omega) journal
          have hNext := h.step journal
          unfold continues at hRuns
          rcases hResult : m.step journal with ⟨⟨result, n⟩, j⟩
          rw [hResult] at hStep hNext
          rw [hRuns, hStep]
          cases result with
          | error e => rfl
          | ok cost =>
              simp only [if_true, Option.bind_eq_bind,
                Option.bind_some]
              split
              · rfl
              · exact ih hNext j

theorem runFrameChecked_eq
    (h : m.Sound)
    (hRoom : m.ticks + 100000 ≤ 2 ^ 64)
    (journal : Journal) :
    m.runFrameChecked journal = some (m.runFrame journal) := by
  have hFrame : frameTicks = 70224 := rfl
  have hDeadline :
      add 64 m.ticks frameTicks =
        some (m.ticks + frameTicks) :=
    add_of_lt (by omega)
  have hLoop :
      runUntilChecked (m.ticks + frameTicks) frameTicks m
          journal =
        some (m.runFrame journal) :=
    h.runUntilChecked_eq (by omega) frameTicks journal
  unfold runFrameChecked
  rw [hDeadline, Option.bind_eq_bind, Option.bind_some]
  exact hLoop

/- No action fails a check if a frame has room. -/
theorem performChecked_eq
    (h : m.Sound)
    (hRoom : m.ticks + 100000 ≤ 2 ^ 64)
    (a : Action)
    (journal : Journal) :
    m.performChecked a journal =
      some (m.perform a journal) := by
  cases a with
  | step =>
      simp only [performChecked, perform,
        h.stepChecked_eq (by omega) journal,
        Option.bind_eq_bind, Option.bind_some]
      rfl
  | runFrame =>
      have hFrame := h.runFrameChecked_eq hRoom journal
      rcases hResult : m.runFrame journal with ⟨⟨r, n⟩, j⟩
      rw [hResult] at hFrame
      rw [perform_runFrame hResult]
      simp only [performChecked, hFrame, Option.bind_eq_bind,
        Option.bind_some]
  | read addr =>
      simp only [performChecked, Board.readChecked_eq]
      rfl
  | write addr v =>
      simp only [performChecked, Board.writeChecked_eq]
      rfl
  | reset =>
      simp only [performChecked, resetChecked_eq]
      rfl
  | load image =>
      simp only [performChecked, loadImageChecked_eq]
      rfl
  | _ => rfl

/-
  Nor does a run, if before each of its actions there is room
  for a frame.
-/
theorem runChecked_eq
    (h : m.Sound)
    {as : List Action}
    {journal : Journal}
    (hRoom : ∀ bs, bs <+: as →
      (m.afterRun bs journal).ticks + 100000 ≤ 2 ^ 64) :
    m.runChecked as journal = some (m.run as journal) := by
  induction as generalizing m journal with
  | nil => rfl
  | cons a as ih =>
      have hFirst :=
        h.performChecked_eq (hRoom [] List.nil_prefix) a
          journal
      have hRest :
          runChecked as (m.perform a journal).1.2
              (m.perform a journal).2 =
            some (run as (m.perform a journal).1.2
              (m.perform a journal).2) :=
        ih (h.afterRun [a] journal) fun bs hbs =>
          hRoom (a :: bs)
            (List.cons_prefix_cons.mpr ⟨rfl, hbs⟩)
      simp only [runChecked, run, hFirst, hRest,
        Option.bind_eq_bind, Option.bind_some]
      rfl

end Sound

/- An action takes at most a frame and a step. -/
theorem ticks_perform_le
    (a : Action)
    (m : Machine)
    (journal : Journal) :
    (m.perform a journal).1.2.ticks ≤ m.ticks + 70244 := by
  cases a with
  | step =>
      rcases m.step_cases journal with
        ⟨e, n, j, hStep, hSame⟩ | ⟨cost, n, j, hStep, hDone⟩
      · have hTicks := hSame.ticks
        simp only [perform, hStep]
        omega
      · have hTicks := hDone.ticks
        have hCost := hDone.stepCost.most
        simp only [perform, hStep]
        omega
  | runFrame =>
      have hFrame : frameTicks = 70224 := rfl
      have hEnd :=
        (m.frameLoop_runFrame journal).ticks_le (by omega)
          (by omega)
      rcases hResult : m.runFrame journal with ⟨⟨r, n⟩, j⟩
      rw [hResult] at hEnd
      rw [perform_runFrame hResult]
      dsimp only at hEnd ⊢
      omega
  | setButton button held =>
      have hTicks :=
        (setButton_unmoved button held m journal).ticks
      change (m.setButton button held journal).1.ticks ≤ _
      omega
  | handleKey k held =>
      have hTicks :=
        (handleKey_unmoved k held m journal).ticks
      change (m.handleKey k held journal).1.ticks ≤ _
      omega
  | load image =>
      rcases m.loadImage_cases image journal with
        ⟨e, -, hLoad⟩ | ⟨c, -, hLoad⟩ <;>
        simp only [perform, hLoad] <;>
        omega
  | reset => exact Nat.zero_le _
  | read addr => exact Nat.le_add_right _ _
  | write addr v => exact Nat.le_add_right _ _
  | request i => exact Nat.le_add_right _ _

theorem ticks_afterRun_le
    (as : List Action)
    (m : Machine)
    (journal : Journal) :
    (m.afterRun as journal).ticks ≤
      m.ticks + as.length * 70244 := by
  induction as generalizing m journal with
  | nil => exact Nat.le_add_right _ _
  | cons a as ih =>
      have hFirst := m.ticks_perform_le a journal
      have hRest := ih (m.perform a journal).1.2
        (m.perform a journal).2
      rw [afterRun_cons, List.length_cons]
      omega

/-
  No check fails in a session, whatever is loaded, as long as
  the count of ticks is a frame away from its end.

  Among the checks are those that a tile is one of 384, an
  entry of a map one of the 0x2000 bytes of video memory, a
  colour one of four, a row written to the picture one of its
  69120 bytes, a line that is reached one of 154 and a row of
  a sprite one of sixteen.
-/
theorem session_within_bounds
    (as : List Action)
    (journal : Journal)
    (hTicks : ∀ bs, bs <+: as →
      (afterRun bs {} journal).ticks < 2 ^ 64 - 100000) :
    sessionChecked as journal = some (run as {} journal) ∧
      let m := afterRun as {} journal
      let beam := m.board.lcd.beam
      m.board.timer.pending < 4 ∧ beam.line < 154 ∧
        beam.residue < beam.mode.budget := by
  have hNew : Sound {} := sound_fresh (.replicate romSize 0)
  have hEnd := hNew.afterRun as journal
  constructor
  · unfold sessionChecked
    rw [newChecked_eq]
    apply hNew.runChecked_eq
    intro bs hbs
    exact Nat.le_of_lt (Nat.add_lt_of_lt_sub (hTicks bs hbs))
  · intro m beam
    have hBeam : beam = Beam.at m.ticks := hEnd.onTime.beam
    refine ⟨hEnd.pending, ?_, ?_⟩
    · rw [hBeam]
      exact (Beam.inFrame_at m.ticks).line
    · rw [hBeam]
      exact Position.residue_lt_budget m.ticks

/-
  A session with a cartridge whose program halts, and a copy
  to sprite memory from outside.
-/
def haltedSession : List Action :=
  [.load (Cartridge.beginningWith 0x76).rom.toArray, .step,
    .write 0xFF46 0xC0, .runFrame, .read 0xFE9F, .reset]

theorem session_within_bounds_halted :
    (∀ bs, bs <+: haltedSession →
      (afterRun bs {} {}).ticks < 2 ^ 64 - 100000) ∧
    sessionChecked haltedSession {} =
      some (run haltedSession {} {}) := by
  have hTicks :
      ∀ bs, bs <+: haltedSession →
        (afterRun bs {} {}).ticks < 2 ^ 64 - 100000 := by
    intro bs hbs
    have hLength : bs.length ≤ 6 := hbs.length_le
    have hMost : (afterRun bs {} {}).ticks ≤
        0 + bs.length * 70244 :=
      ticks_afterRun_le bs {} {}
    omega
  exact ⟨hTicks, (session_within_bounds _ _ hTicks).1⟩

end Machine

end Dmg
