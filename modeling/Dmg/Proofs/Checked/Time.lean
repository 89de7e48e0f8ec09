import Dmg.Proofs.Checked.Line
import Dmg.Proofs.Lcd.Batching
import Dmg.Proofs.Lcd.Schedule
import Dmg.Proofs.Timer.Edges

/-
  The passing of time with its sums checked.

  The timer and the LCD controller add the ticks of a step to
  those that they have left over, and work them off in a loop.
  What is left over stays below a cycle or a mode, and the
  line below 154, so that no sum overflows: in a byte for the
  line, in a double word for the timer, in a quadruple word
  for the controller.

  Key definitions include:
    * `Timer.tickChecked`
    * `Raster.transitionChecked`
    * `Raster.advanceToChecked`
    * `Board.advanceChecked`

  Main results:
    * `Timer.tickChecked_eq`
    * `Raster.transitionChecked_eq`
    * `Raster.advanceToChecked_eq`
    * `Board.advanceChecked_eq`
-/

namespace Dmg

open Checked

------------------------------------------------------------
-- Timer
------------------------------------------------------------

namespace Timer

theorem cycle_setPending
    (p : Nat)
    (t : Timer)
    (ic : InterruptController) :
    (t.setPending p).cycle ic =
      ((t.cycle ic).1.setPending p, (t.cycle ic).2) :=
  cycles_setPending p 1 t ic

/- Work off the ticks left over, a cycle at a time. -/
def followChecked
    (t : Timer)
    (ic : InterruptController) :
    Option (Timer × InterruptController) :=
  if 4 ≤ t.pending then
    match _hRest : sub t.pending 4 with
    | none => none
    | some rest =>
        let r := (t.setPending rest).cycle ic
        followChecked r.1 r.2
  else some (t, ic)
termination_by t.pending
decreasing_by
  rename_i hDue
  rw [sub_of_le hDue] at _hRest
  cases _hRest
  rw [cycle_setPending]
  change t.pending - 4 < t.pending
  omega

/- A number of ticks. -/
def tickChecked
    (ticks : Nat)
    (t : Timer)
    (ic : InterruptController) :
    Option (Timer × InterruptController) := do
  let pending ← add 32 t.pending ticks
  (t.setPending pending).followChecked ic

theorem followChecked_of_due
    {t : Timer}
    (h : 4 ≤ t.pending)
    (ic : InterruptController) :
    t.followChecked ic =
      ((t.cycle ic).1.setPending
        (t.pending - 4)).followChecked (t.cycle ic).2 := by
  rw [followChecked, if_pos h]
  split
  · rename_i hRest
    rw [sub_of_le h] at hRest
    cases hRest
  · rename_i rest hRest
    rw [sub_of_le h] at hRest
    cases hRest
    simp only [cycle_setPending]

/- Each turn of the loop is a cycle. -/
theorem followChecked_eq
    {n : Nat}
    {t : Timer}
    (h : t.pending / 4 = n)
    (ic : InterruptController) :
    t.followChecked ic =
      some (cycles n (t.setPending (t.pending % 4)) ic) := by
  induction n generalizing t ic with
  | zero =>
      have hShort : ¬ 4 ≤ t.pending := by omega
      have hSame : t.pending % 4 = t.pending := by omega
      rw [followChecked, if_neg hShort, hSame]
      rfl
  | succ n ih =>
      have hDue : 4 ≤ t.pending := by omega
      have hRest : (t.pending - 4) / 4 = n := by omega
      have hLeft : (t.pending - 4) % 4 = t.pending % 4 := by
        omega
      have hTurns :=
        ih (t := (t.cycle ic).1.setPending (t.pending - 4))
          hRest (t.cycle ic).2
      rw [followChecked_of_due hDue, hTurns, cycles,
        cycle_setPending]
      change some (cycles n ((t.cycle ic).1.setPending
        ((t.pending - 4) % 4)) (t.cycle ic).2) = _
      rw [hLeft]

theorem tickChecked_eq
    {ticks : Nat}
    {t : Timer}
    (h : t.pending + ticks < 2 ^ 32)
    (ic : InterruptController) :
    t.tickChecked ticks ic = some (t.tick ticks ic) := by
  unfold tickChecked
  rw [add_of_lt h]
  exact followChecked_eq rfl ic

end Timer

------------------------------------------------------------
-- Transitions
------------------------------------------------------------

namespace Raster

/-
  Request the status interrupt if an event is selected.  The
  bit that selects it is found by a shift in a byte.
-/
def requestSelectedChecked
    (select : Option Nat)
    (m : Message)
    (r : Raster) : Option Raster :=
  match select with
  | none => some r
  | some i => do
      let k ← amount 8 i
      if r.lcd.regs.selected k then some (r.requestStatus m)
      else some r

/- Enter a mode. -/
def enterChecked
    (mode : Mode)
    (r : Raster) : Option Raster :=
  let r := r.mapBeam fun b => { b with mode := mode }
  let r := if mode = .vblank then r.completeFrame else r
  r.requestSelectedChecked mode.selectBit?
    (.modeRequest mode r.lcd.beam.line)

/- Reach a line. -/
def reachLineChecked
    (line : Nat)
    (r : Raster) : Option Raster :=
  let r := r.mapBeam fun b => { b with line := line }
  if r.lcd.coincides then
    r.requestSelectedChecked (some 6)
      (.lineRequest r.lcd.regs.lineCompare)
  else some r

/- The line after a line, which must be one of a frame. -/
def nextLineChecked
    (line : Nat) : Option Nat := do
  let next ← add 8 line 1
  require (next < 154)
  some next

/- The transition at the end of the current mode. -/
def transitionChecked
    (vram : VideoRam)
    (oam : SpriteRam)
    (r : Raster) : Option Raster :=
  let line := r.lcd.beam.line
  match r.lcd.beam.mode with
  | .oamScan => r.enterChecked .vramRead
  | .vramRead => do
      let lcd ← r.lcd.drawLineChecked vram oam
      (r.mapLcd fun _ => lcd).enterChecked .hblank
  | .hblank => do
      let next ← nextLineChecked line
      let r ← r.reachLineChecked next
      r.enterChecked
        (if next = vblankLine then .vblank else .oamScan)
  | .vblank =>
      if lastLine ≤ line then do
        let r := r.mapLcd fun lcd =>
          { lcd with windowLine := 0 }
        let r ← r.reachLineChecked 0
        r.enterChecked .oamScan
      else do
        let next ← nextLineChecked line
        r.reachLineChecked next

theorem requestSelectedChecked_eq
    {select : Option Nat}
    (h : ∀ i, select = some i → i < 8)
    (m : Message)
    (r : Raster) :
    r.requestSelectedChecked select m =
      some (r.requestSelected select m) := by
  cases select with
  | none => rfl
  | some i =>
      simp only [requestSelectedChecked, requestSelected,
        amount_of_lt (h i rfl), Option.bind_eq_bind,
        Option.bind_some]
      split <;> rfl

theorem selectBit_lt
    {mode : Mode}
    {i : Nat}
    (h : mode.selectBit? = some i) :
    i < 8 := by
  cases mode <;> cases h <;> decide

theorem enterChecked_eq
    (mode : Mode)
    (r : Raster) :
    r.enterChecked mode = some (r.enter mode) :=
  requestSelectedChecked_eq (fun _ => selectBit_lt) _ _

theorem reachLineChecked_eq
    (line : Nat)
    (r : Raster) :
    r.reachLineChecked line = some (r.reachLine line) := by
  unfold reachLineChecked reachLine
  dsimp only
  split
  · apply requestSelectedChecked_eq
    intro i hi
    cases hi
    decide
  · rfl

theorem nextLineChecked_eq
    {line : Nat}
    (h : line < 153) :
    nextLineChecked line = some (line + 1) := by
  have hNext : add 8 line 1 = some (line + 1) :=
    add_of_lt (by omega)
  have hFrame : require (line + 1 < 154) = some () :=
    require_of (by omega)
  simp only [nextLineChecked, hNext, hFrame,
    Option.bind_eq_bind, Option.bind_some]

/- The last line of a frame has no next one. -/
example : nextLineChecked 153 = none := by
  decide

/- A transition on a line of a frame fails no check. -/
theorem transitionChecked_eq
    (vram : VideoRam)
    (oam : SpriteRam)
    {r : Raster}
    (h : r.lcd.beam.InFrame) :
    r.transitionChecked vram oam =
      some (r.transition vram oam) := by
  rcases h with ⟨hLine, hVisible⟩
  unfold transitionChecked transition
  cases hMode : r.lcd.beam.mode with
  | oamScan => exact enterChecked_eq .vramRead r
  | vramRead =>
      simp only [Lcd.drawLineChecked_eq, enterChecked_eq,
        Option.bind_eq_bind, Option.bind_some]
      rfl
  | hblank =>
      have hLow : r.lcd.beam.line < 144 := hVisible (by
        rw [hMode]
        exact Mode.noConfusion)
      have hNext : r.lcd.beam.line < 153 := by omega
      simp only [nextLineChecked_eq hNext,
        reachLineChecked_eq, enterChecked_eq,
        Option.bind_eq_bind, Option.bind_some]
  | vblank =>
      simp only [reachLineChecked_eq, enterChecked_eq,
        Option.bind_eq_bind, Option.bind_some]
      split
      · rfl
      · rename_i hBefore
        have hNext : r.lcd.beam.line < 153 :=
          Nat.lt_of_not_le hBefore
        rw [nextLineChecked_eq hNext]
        rfl

theorem inFrame_transition
    (vram : VideoRam)
    (oam : SpriteRam)
    {r : Raster}
    (h : r.lcd.beam.InFrame) :
    (r.transition vram oam).lcd.beam.InFrame := by
  rw [transition_lcd]
  exact h.succ

------------------------------------------------------------
-- The Controller
------------------------------------------------------------

/- Work off ticks, a mode at a time, and keep the rest. -/
def drainChecked
    (vram : VideoRam)
    (oam : SpriteRam)
    (ticks : Nat)
    (r : Raster) : Option Raster :=
  if r.lcd.beam.mode.budget ≤ ticks then
    match _hRest : sub ticks r.lcd.beam.mode.budget with
    | none => none
    | some rest =>
        (r.transitionChecked vram oam).bind fun q =>
          drainChecked vram oam rest q
  else some (r.mapBeam fun b => { b with residue := ticks })
termination_by ticks
decreasing_by
  rename_i hDue
  have hBudget := r.lcd.beam.mode.budget_pos
  rw [sub_of_le hDue] at _hRest
  cases _hRest
  omega

/- Follow the machine to a tick count. -/
def advanceToChecked
    (vram : VideoRam)
    (oam : SpriteRam)
    (now : Nat)
    (r : Raster) : Option Raster := do
  let beam := r.lcd.beam
  let ticks ← add 64 beam.residue (now - beam.lastTicks)
  let r := r.mapBeam fun b =>
    { b with lastTicks := max b.lastTicks now }
  r.drainChecked vram oam ticks

theorem drainChecked_of_due
    (vram : VideoRam)
    (oam : SpriteRam)
    {ticks : Nat}
    {r : Raster}
    (hDue : r.lcd.beam.mode.budget ≤ ticks) :
    r.drainChecked vram oam ticks =
      (r.transitionChecked vram oam).bind
        (drainChecked vram oam
          (ticks - r.lcd.beam.mode.budget)) := by
  rw [drainChecked, if_pos hDue]
  split
  · rename_i hRest
    rw [sub_of_le hDue] at hRest
    cases hRest
  · rename_i rest hRest
    rw [sub_of_le hDue] at hRest
    cases hRest
    rfl

/- Each turn of the loop is a transition. -/
theorem drainChecked_eq
    (vram : VideoRam)
    (oam : SpriteRam)
    (ticks : Nat)
    {r : Raster}
    (h : r.lcd.beam.InFrame) :
    r.drainChecked vram oam ticks =
      some (r.drain vram oam ticks) := by
  induction ticks, r using drain.induct vram oam with
  | case1 ticks r hDue ih =>
      rw [drainChecked_of_due vram oam hDue,
        drain_of_due vram oam hDue,
        transitionChecked_eq vram oam h, Option.bind_some]
      exact ih (inFrame_transition vram oam h)
  | case2 ticks r hShort =>
      rw [drainChecked, drain, if_neg hShort, if_neg hShort]

theorem advanceToChecked_eq
    (vram : VideoRam)
    (oam : SpriteRam)
    {now : Nat}
    {r : Raster}
    (h : r.lcd.beam.InFrame)
    (hTicks :
      r.lcd.beam.residue + (now - r.lcd.beam.lastTicks) <
        2 ^ 64) :
    r.advanceToChecked vram oam now =
      some (r.advanceTo vram oam now) := by
  unfold advanceToChecked
  simp only [add_of_lt hTicks, Option.bind_eq_bind,
    Option.bind_some]
  exact drainChecked_eq vram oam _ ⟨h.line, h.visible⟩

end Raster

------------------------------------------------------------
-- The Board
------------------------------------------------------------

namespace Board

/- Let the devices follow a step of the processor. -/
def advanceChecked
    (ticks now : Nat)
    (b : Board)
    (journal : Journal) : Option (Board × Journal) := do
  let (timer, ic) ← b.timer.tickChecked ticks b.interrupts
  let r ← Raster.advanceToChecked b.videoRam b.spriteRam now
    ⟨b.lcd, ic, journal⟩
  some
    ({ b with
        timer := timer
        lcd := r.lcd
        interrupts := r.interrupts },
      r.journal)

/-
  The devices follow a step if it is short and the count of
  ticks has not overflowed.
-/
theorem advanceChecked_eq
    {ticks now : Nat}
    {b : Board}
    (hFrame : b.lcd.beam.InFrame)
    (hPending : b.timer.pending + ticks < 2 ^ 32)
    (hTicks :
      b.lcd.beam.residue + (now - b.lcd.beam.lastTicks) <
        2 ^ 64)
    (journal : Journal) :
    b.advanceChecked ticks now journal =
      some (b.advance ticks now journal) := by
  have hTimer := Timer.tickChecked_eq hPending b.interrupts
  rcases hTick : b.timer.tick ticks b.interrupts with
    ⟨timer, ic⟩
  rw [hTick] at hTimer
  have hRaster :=
    Raster.advanceToChecked_eq b.videoRam b.spriteRam
      (r := ⟨b.lcd, ic, journal⟩) hFrame hTicks
  simp only [advanceChecked, advance, hTimer, hTick, hRaster,
    Option.bind_eq_bind, Option.bind_some]

end Board

------------------------------------------------------------
-- What Is Left Over
------------------------------------------------------------

/- No mode is longer than a line. -/
theorem Mode.budget_le
    (mode : Mode) :
    mode.budget ≤ 456 := by
  cases mode <;> decide

/- After a number of ticks less than a cycle is left over. -/
theorem Timer.pending_tick
    (ticks : Nat)
    (t : Timer)
    (ic : InterruptController) :
    (t.tick ticks ic).1.pending < 4 := by
  let total := t.pending + ticks
  have hLeft : (t.tick ticks ic).1.pending = total % 4 :=
    congrArg (fun r : Timer × InterruptController => r.1.pending)
      (cycles_setPending (total % 4) (total / 4) t ic)
  rw [hLeft]
  exact Nat.mod_lt total (by decide)

namespace Board

/- No write changes what the timer has left over. -/
theorem pending_write
    (b : Board)
    (addr : UInt16)
    (v : UInt8) :
    (b.write addr v).timer.pending = b.timer.pending := by
  unfold write
  rw [timer_writeAt]
  cases Timer.Operation.ofLocation? (.ofAddress addr) v with
  | none => rfl
  | some o => exact o.pending_apply b.timer

theorem pending_advance
    (ticks now : Nat)
    (b : Board)
    (journal : Journal) :
    (b.advance ticks now journal).1.timer.pending < 4 :=
  Timer.pending_tick ticks b.timer b.interrupts

end Board

/-
  On a board on time there is less to work off than a mode and
  a step together.
-/
theorem Board.advanceChecked_of_onTime
    {b : Board}
    {ticks cost : Nat}
    (hBeam : b.lcd.beam = Beam.at ticks)
    (hPending : b.timer.pending < 4)
    (hCost : cost ≤ 24)
    (journal : Journal) :
    b.advanceChecked cost (ticks + cost) journal =
      some (b.advance cost (ticks + cost) journal) := by
  have hFrame : b.lcd.beam.InFrame :=
    hBeam ▸ Beam.inFrame_at ticks
  have hResidue : b.lcd.beam.residue < 456 := by
    rw [hBeam]
    exact Nat.lt_of_lt_of_le (Position.residue_lt_budget ticks)
      (Mode.budget_le _)
  have hLast : b.lcd.beam.lastTicks = ticks :=
    congrArg Beam.lastTicks hBeam
  exact advanceChecked_eq hFrame (by omega) (by omega) journal

theorem Wired.invariant_pending :
    Bus.Invariant fun w : Wired =>
      w.board.timer.pending < 4 where
  read _ _ h := h
  write addr v w h := by
    have hWrite := w.board.pending_write addr v
    exact hWrite.symm ▸ h
  setInterrupts _ _ h := h
  note _ _ h := h

end Dmg
