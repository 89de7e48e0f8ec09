import Dmg.Proofs.Lcd.Schedule
import Dmg.Proofs.Machine.DeviceRequests
import Dmg.Proofs.Machine.Invariant

/-
  The ticks at which the LCD controller requests interrupts.

  It is told a tick count from time to time, and what it
  requests until then is told by the ticks that have passed
  since the last time: those at which a line ends the picture
  or is drawn, and those at which the line compared with is
  reached.

  A tick is the shortest time, and the beam seen before and
  after it tells what has been asked for.  A longer time is
  one tick after the other.

  Key definitions include:
    * `Position.Begins`
    * `LcdRegisters.StatusDue`
    * `LcdRegisters.Due`
    * `Lcd.Reached`

  Main results:
    * `Position.enters_mode_iff`
    * `LcdRegisters.asks_tick`
    * `Raster.adds_until`
    * `Machine.Reachable.lcd_reached`
    * `Board.adds_until`
    * `Lcd.requests_exact`
-/

namespace Dmg

------------------------------------------------------------
-- One Tick
------------------------------------------------------------

namespace Position

variable {t : Nat}

/- A tick within a line, the last one of it, or of a frame. -/
theorem tick_cases
    (t : Nat) :
    (dot (t + 1) = dot t + 1 ∧ line (t + 1) = line t) ∨
      (dot t = 455 ∧ dot (t + 1) = 0 ∧
        line (t + 1) = line t + 1) ∨
      (dot t = 455 ∧ dot (t + 1) = 0 ∧
        line t = 153 ∧ line (t + 1) = 0) := by
  have hLow : dot t < 456 := Nat.mod_lt t (by decide)
  by_cases hLast : dot t = 455
  · have hEnd : dot t + 1 = 456 := by omega
    obtain ⟨hDot, hLine, -⟩ := add_to_line_end hEnd
    split at hLine
    · rename_i hFrame
      exact .inr (.inr ⟨hLast, hDot, hFrame, hLine⟩)
    · exact .inr (.inl ⟨hLast, hDot, hLine⟩)
  · have hIn : dot t + 1 < 456 := by omega
    obtain ⟨hDot, hLine, -⟩ := add_in_line hIn
    exact .inl ⟨hDot, hLine⟩

/- A line is reached at its first dot. -/
theorem reaches_line_iff :
    line (t + 1) ≠ line t ↔ dot (t + 1) = 0 := by
  rcases tick_cases t with
    ⟨hDot, hLine⟩ | ⟨-, hDot, hLine⟩ |
      ⟨-, hDot, hFrame, hLine⟩ <;>
    omega

/- A mode is entered that was not the mode before. -/
theorem enters_iff
    {m : Mode} :
    mode (t + 1) ≠ mode t ∧ mode (t + 1) = m ↔
      mode (t + 1) = m ∧ ¬ mode t = m := by
  constructor
  · rintro ⟨hNew, rfl⟩
    exact ⟨rfl, hNew.symm⟩
  · rintro ⟨rfl, hNew⟩
    exact ⟨Ne.symm hNew, rfl⟩

/-
  The line and the dot with which a mode begins: VBlank with
  line 144, and the others in every visible line.
-/
def Begins : Mode → Nat → Nat → Prop
  | .vblank, line, dot => line = 144 ∧ dot = 0
  | m, line, dot => line < 144 ∧ dot = modeStart m

theorem enters_mode_iff
    (m : Mode) :
    mode (t + 1) ≠ mode t ∧ mode (t + 1) = m ↔
      Begins m (line (t + 1)) (dot (t + 1)) := by
  rw [enters_iff, mode_eq_iff, mode_eq_iff]
  rcases tick_cases t with
    ⟨hDot, hLine⟩ | ⟨hLast, hDot, hLine⟩ |
      ⟨hLast, hDot, hFrame, hLine⟩ <;>
    cases m <;>
    simp only [Within, Begins, modeStart] <;>
    omega

end Position

namespace LcdRegisters

variable (r : LcdRegisters)

/-
  The ticks at which the status interrupt is due: where a
  visible line has been drawn, where the vertical blank
  begins, where a visible line begins, and where the line
  compared with begins, each if it is selected.
-/
def StatusDue
    (t : Nat) : Prop :=
  let line := t / 456 % 154
  let dot := t % 456
  (line < 144 ∧ dot = 252 ∧ r.selected 3 = true) ∨
    (line = 144 ∧ dot = 0 ∧ r.selected 4 = true) ∨
    (line < 144 ∧ dot = 0 ∧ r.selected 5 = true) ∨
    (dot = 0 ∧ line = r.lineCompare.toNat ∧
      r.selected 6 = true)

/- The ticks at which an interrupt is due. -/
def Due
    (t : Nat) : Interrupt → Prop
  | .vblank => t / 456 % 154 = 144 ∧ t % 456 = 0
  | .lcdStat => r.StatusDue t
  | _ => False

/- The status interrupt for a mode, select by select. -/
theorem entryAsks_lcdStat_iff
    (mode : Mode) :
    r.EntryAsks mode .lcdStat ↔
      (mode = .hblank ∧ r.selected 3 = true) ∨
        (mode = .vblank ∧ r.selected 4 = true) ∨
        (mode = .oamScan ∧ r.selected 5 = true) := by
  cases mode <;> simp [EntryAsks, Mode.selectBit?]

/- A tick asks for what is due at its end. -/
theorem asks_tick
    (t : Nat)
    (i : Interrupt) :
    r.Asks (Beam.at t) (Beam.at (t + 1)) i ↔
      r.Due (t + 1) i := by
  unfold Asks
  change
    Position.mode (t + 1) ≠ Position.mode t ∧
        r.EntryAsks (Position.mode (t + 1)) i ∨
      Position.line (t + 1) ≠ Position.line t ∧
        r.LineAsks (Position.line (t + 1)) i ↔ _
  cases i with
  | vblank =>
      simp only [LineAsks, and_false, or_false]
      exact Position.enters_mode_iff .vblank
  | lcdStat =>
      rw [entryAsks_lcdStat_iff, and_or_left, and_or_left,
        ← and_assoc, ← and_assoc, ← and_assoc,
        Position.enters_mode_iff .hblank,
        Position.enters_mode_iff .vblank,
        Position.enters_mode_iff .oamScan,
        Position.reaches_line_iff]
      simp only [Position.Begins, Position.modeStart,
        and_assoc, or_assoc]
      rfl
  | timer => simp [EntryAsks, LineAsks, Due]
  | serial => simp [EntryAsks, LineAsks, Due]
  | joypad => simp [EntryAsks, LineAsks, Due]

end LcdRegisters

------------------------------------------------------------
-- Any Number Of Ticks
------------------------------------------------------------

namespace Raster

open InterruptController

section Until

variable
  (vram : VideoRam)
  (oam : SpriteRam)
  {t u : Nat}

/- A tick count that has passed tells nothing new. -/
theorem advanceTo_of_passed
    {now : Nat}
    (hPassed : now ≤ t)
    {r : Raster}
    (hBeam : r.lcd.beam = Beam.at t) :
    r.advanceTo vram oam now = r := by
  have hLast : r.lcd.beam.lastTicks = t :=
    congrArg Beam.lastTicks hBeam
  have hResidue :
      r.lcd.beam.residue < r.lcd.beam.mode.budget := by
    rw [hBeam]
    exact Position.residue_lt_budget t
  have hSame :
      r.advanceTo vram oam now =
        r.advanceTo vram oam r.lcd.beam.lastTicks := by
    simp only [advanceTo_eq, hLast, Nat.sub_self,
      Nat.sub_eq_zero_of_le hPassed,
      Nat.max_eq_left hPassed, Nat.max_self]
  exact hSame.trans (advanceTo_lastTicks vram oam hResidue)

/- The last tick can be passed on its own. -/
theorem advanceTo_succ
    (r : Raster) :
    r.advanceTo vram oam (u + 1) =
      (r.advanceTo vram oam u).advanceTo vram oam (u + 1) :=
  (advanceTo_advanceTo vram oam (Nat.le_succ u) r).symm

/- What is requested in a tick is due at its end. -/
theorem adds_tick
    {r : Raster}
    (hBeam : r.lcd.beam = Beam.at t) :
    Adds
      (fun i =>
        r.interrupts.isEnabled i = true ∧
          r.lcd.regs.Due (t + 1) i)
      r.interrupts
      (r.advanceTo vram oam (t + 1)).interrupts := by
  have hBefore := Position.residue_lt_budget t
  have hSoon :
      r.lcd.beam.residue + (t + 1 - r.lcd.beam.lastTicks) <
        r.lcd.beam.mode.budget + 80 := by
    rw [hBeam]
    change Position.residue t + (t + 1 - t) <
      (Position.mode t).budget + 80
    omega
  have hAfter :=
    (advanceTo_beam vram oam (Nat.le_succ t) r hBeam).1
  apply (adds_advanceTo vram oam hSoon).of_iff
  intro i
  rw [hAfter, hBeam, LcdRegisters.asks_tick]

/-
  What is requested until a tick count is what has become due
  since the last one: all of it, and nothing else.
-/
theorem adds_until
    (hFrom : t ≤ u)
    {r : Raster}
    (hBeam : r.lcd.beam = Beam.at t) :
    Adds
      (fun i =>
        r.interrupts.isEnabled i = true ∧
          ∃ T, t < T ∧ T ≤ u ∧ r.lcd.regs.Due T i)
      r.interrupts
      (r.advanceTo vram oam u).interrupts := by
  -- Each tick adds what is due at its end to what was due
  -- before it.
  induction hFrom with
  | refl =>
      rw [advanceTo_of_passed vram oam (Nat.le_refl t) hBeam]
      apply adds_none
      rintro i ⟨-, T, hAfter, hUntil, -⟩
      omega
  | @step u hFrom ih =>
      let q := r.advanceTo vram oam u
      have hReached : q.lcd.beam = Beam.at u :=
        (advanceTo_beam vram oam hFrom r hBeam).1
      have hRegs : q.lcd.regs = r.lcd.regs :=
        advanceTo_regs vram oam u r
      have hTick := adds_tick vram oam hReached
      rw [advanceTo_succ]
      apply (ih.trans hTick).of_iff
      intro i
      rw [ih.toRequested.isEnabled, hRegs, ← and_or_left]
      apply and_congr_right
      intro _
      constructor
      · rintro (⟨T, hAfter, hUntil, hDue⟩ | hDue)
        · exact ⟨T, hAfter, by omega, hDue⟩
        · exact ⟨u + 1, Nat.lt_succ_of_le hFrom,
            Nat.le_refl _, hDue⟩
      · rintro ⟨T, hAfter, hUntil, hDue⟩
        by_cases hNow : T = u + 1
        · exact .inr (hNow ▸ hDue)
        · exact .inl ⟨T, hAfter, by omega, hDue⟩

end Until

------------------------------------------------------------
-- Other Bits
------------------------------------------------------------

section Kept

variable
  {P : InterruptController → Prop}
  (hBlank : ∀ ic, P ic → P (ic.request .vblank))
  (hStatus : ∀ ic, P ic → P (ic.request .lcdStat))

include hStatus

theorem kept_requestSelected
    (select : Option Nat)
    (m : Message)
    {r : Raster}
    (h : P r.interrupts) :
    P (r.requestSelected select m).interrupts := by
  have hOne : P (r.requestStatus m).interrupts := by
    unfold requestStatus
    simp only
    split
    · exact hStatus _ h
    · exact h
  unfold requestSelected
  split
  · exact h
  · split
    · exact hOne
    · exact h

theorem kept_reachLine
    (line : Nat)
    {r : Raster}
    (h : P r.interrupts) :
    P (r.reachLine line).interrupts := by
  unfold reachLine
  simp only
  split
  · exact kept_requestSelected hStatus _ _ h
  · exact h

include hBlank

theorem kept_enter
    (mode : Mode)
    {r : Raster}
    (h : P r.interrupts) :
    P (r.enter mode).interrupts := by
  have hFrame : P (r.interrupts.requestIfEnabled .vblank) := by
    unfold requestIfEnabled
    split
    · exact hBlank _ h
    · exact h
  unfold enter
  apply kept_requestSelected hStatus
  split
  · exact hFrame
  · exact h

theorem kept_transition
    (vram : VideoRam)
    (oam : SpriteRam)
    {r : Raster}
    (h : P r.interrupts) :
    P (r.transition vram oam).interrupts := by
  rcases r.transition_cases vram oam with
    ⟨q, mode, hIc, -, -, -, hMove⟩ |
      ⟨q, line, mode, hIc, -, -, -, -, hMove⟩ |
      ⟨line, -, -, hMove⟩
  · rw [hMove]
    exact kept_enter hBlank hStatus mode (hIc ▸ h)
  · rw [hMove]
    exact kept_enter hBlank hStatus mode
      (kept_reachLine hStatus line (hIc ▸ h))
  · rw [hMove]
    exact kept_reachLine hStatus line h

/- What the two requests keep is kept for any time. -/
theorem kept_advanceTo
    (vram : VideoRam)
    (oam : SpriteRam)
    (now : Nat)
    {r : Raster}
    (h : P r.interrupts) :
    P (r.advanceTo vram oam now).interrupts := by
  apply advanceTo_invariant vram oam
    (P := fun q => P q.interrupts)
  · intro q hq
    exact kept_transition hBlank hStatus vram oam hq
  · intro last residue q hq
    exact hq
  · exact h

end Kept

/- No bit of IF above the two of the LCD is changed. -/
theorem upperRequests_advanceTo
    (vram : VideoRam)
    (oam : SpriteRam)
    (now : Nat)
    (r : Raster)
    {n : Fin 8}
    (hUpper : 2 ≤ n.val) :
    bit (r.advanceTo vram oam now).interrupts.requests n =
      bit r.interrupts.requests n := by
  have hRequest
      (i : Interrupt)
      (hLow : i.position.val < 2)
      (ic : InterruptController)
      (h : bit ic.requests n = bit r.interrupts.requests n) :
      bit (ic.request i).requests n =
        bit r.interrupts.requests n := by
    have hOther : i.position ≠ n := by
      intro hSame
      rw [hSame] at hLow
      omega
    unfold InterruptController.request
    rw [bit_setBit, if_neg hOther, h]
  exact kept_advanceTo (hRequest .vblank (by decide))
    (hRequest .lcdStat (by decide)) vram oam now rfl

end Raster

------------------------------------------------------------
-- Controllers
------------------------------------------------------------

namespace Lcd

/-
  The states of the controller, with the latest tick count it
  has been told: what a fresh one comes to by writes to its
  registers, by tiles that are decoded anew, by frames that
  are taken, and by tick counts it is told.
-/
inductive Reached : Nat → Lcd → Prop where
  | fresh : Reached 0 {}
  | write
      {t : Nat}
      {lcd : Lcd}
      (h : Reached t lcd)
      (x : LcdRegister)
      (v : UInt8) :
      Reached t (lcd.write x v)
  | decode
      {t : Nat}
      {lcd : Lcd}
      (h : Reached t lcd)
      (tiles : TileCache) :
      Reached t { lcd with tiles := tiles }
  | takeFrame
      {t : Nat}
      {lcd : Lcd}
      (h : Reached t lcd) :
      Reached t { lcd with frameReady := false }
  | advance
      {t : Nat}
      {lcd : Lcd}
      (h : Reached t lcd)
      (vram : VideoRam)
      (oam : SpriteRam)
      (now : Nat)
      (ic : InterruptController)
      (journal : Journal) :
      Reached (max t now)
        ((⟨lcd, ic, journal⟩ : Raster).advanceTo vram oam
          now).lcd

/- The beam is where the latest tick count says. -/
theorem Reached.beam
    {t : Nat}
    {lcd : Lcd}
    (h : Reached t lcd) :
    lcd.beam = Beam.at t := by
  induction h with
  | fresh => exact Machine.beam_at_zero.symm
  | write _ x v ih => exact ih
  | decode _ tiles ih => exact ih
  | takeFrame _ ih => exact ih
  | @advance t lcd _ vram oam now ic journal ih =>
      let r : Raster := ⟨lcd, ic, journal⟩
      have hBeam : r.lcd.beam = Beam.at t := ih
      rcases Nat.le_total t now with hLater | hPassed
      · rw [Nat.max_eq_right hLater]
        exact (r.advanceTo_beam vram oam hLater hBeam).1
      · rw [Nat.max_eq_left hPassed,
          Raster.advanceTo_of_passed vram oam hPassed hBeam]
        exact ih

/- Whatever happens to a board, its controller is reached. -/
theorem invariant_reached :
    Board.Invariant fun b =>
      Reached b.lcd.beam.lastTicks b.lcd where
  fresh _ := .fresh
  write addr v b h := by
    rcases b.lcd_write_cases addr v with
      ⟨tiles, hWrite⟩ | ⟨x, -, hWrite⟩
    · rw [hWrite]
      exact h.decode tiles
    · rw [hWrite]
      exact h.write x v
  setInterrupts _ _ h := h
  advance ticks now journal b h := by
    let ic := (b.timer.tick ticks b.interrupts).2
    have hNext :=
      h.advance b.videoRam b.spriteRam now ic journal
    have hLast :
        (b.advance ticks now journal).1.lcd.beam.lastTicks =
          max b.lcd.beam.lastTicks now :=
      congrArg Beam.lastTicks hNext.beam
    rw [hLast]
    exact hNext
  setButton _ _ _ h := h
  takeFrame _ h := h.takeFrame

end Lcd

/- That of a reachable machine has been told its tick count. -/
theorem Machine.Reachable.lcd_reached
    {m : Machine}
    (h : m.Reachable) :
    Lcd.Reached m.ticks m.board.lcd := by
  have hReached := h.board Lcd.invariant_reached
  rw [h.onTime.beam] at hReached
  exact hReached

/-
  A board that follows until a tick count: the timer asks for
  its interrupt when it is reloaded, and the controller for
  those that have become due.
-/
theorem Board.adds_until
    {t u : Nat}
    {b : Board}
    (h : Lcd.Reached t b.lcd)
    (hFrom : t ≤ u)
    (cost : Nat)
    (journal : Journal) :
    InterruptController.Adds
      (fun i =>
        i = .timer ∧ b.timer.Reloads cost ∨
          b.interrupts.isEnabled i = true ∧
            ∃ T, t < T ∧ T ≤ u ∧ b.lcd.regs.Due T i)
      b.interrupts
      (b.advance cost u journal).1.interrupts := by
  let ic := (b.timer.tick cost b.interrupts).2
  have hTimer := b.timer.adds_tick cost b.interrupts
  have hLcd :=
    Raster.adds_until b.videoRam b.spriteRam hFrom
      (r := ⟨b.lcd, ic, journal⟩) h.beam
  apply (hTimer.trans hLcd).of_iff
  intro i
  rw [← hTimer.toRequested.isEnabled]

namespace Lcd

variable
  {t u : Nat}
  {lcd : Lcd}

/- The first dot of line 144, frame after frame. -/
theorem vblank_due_iff
    (r : LcdRegisters) :
    (∃ T, t < T ∧ T ≤ u ∧ r.Due T .vblank) ↔
      ∃ k, t < k * 70224 + 144 * 456 ∧
        k * 70224 + 144 * 456 ≤ u := by
  constructor
  · rintro ⟨T, hAfter, hUntil, hLine, hDot⟩
    have hTick : T / 70224 * 70224 + 144 * 456 = T := by
      omega
    refine ⟨T / 70224, ?_⟩
    rw [hTick]
    exact ⟨hAfter, hUntil⟩
  · rintro ⟨k, hAfter, hUntil⟩
    refine ⟨k * 70224 + 144 * 456, hAfter, hUntil, ?_⟩
    constructor <;> omega

/-
  From the tick count told last to the one told now, the
  interrupt of the vertical blank is requested if it is
  enabled and line 144 has begun since, and that of the
  status if it is enabled and has been due since.  Nothing
  else becomes of the interrupt controller.
-/
theorem requests_exact
    (h : Reached t lcd)
    (hFrom : t ≤ u)
    (vram : VideoRam)
    (oam : SpriteRam)
    (ic : InterruptController)
    (journal : Journal) :
    let after :=
      ((⟨lcd, ic, journal⟩ : Raster).advanceTo vram oam
        u).interrupts
    (bit after.requests 0 = true ↔
        bit ic.requests 0 = true ∨
          (bit ic.enable 0 = true ∧
            ∃ k, t < k * 70224 + 144 * 456 ∧
              k * 70224 + 144 * 456 ≤ u)) ∧
      (bit after.requests 1 = true ↔
        bit ic.requests 1 = true ∨
          (bit ic.enable 1 = true ∧
            ∃ T, t < T ∧ T ≤ u ∧ lcd.regs.StatusDue T)) ∧
      (∀ n : Fin 8, 2 ≤ n.val →
        bit after.requests n = bit ic.requests n) ∧
      after.enable = ic.enable ∧ after.master = ic.master := by
  intro after
  let r : Raster := ⟨lcd, ic, journal⟩
  have hAdds := r.adds_until vram oam hFrom h.beam
  have hBlank := hAdds.requests .vblank
  rw [vblank_due_iff] at hBlank
  refine ⟨hBlank, hAdds.requests .lcdStat, ?_, hAdds.enable,
    hAdds.master⟩
  intro n hUpper
  exact r.upperRequests_advanceTo vram oam u hUpper

/- A fresh controller that compares with line 5. -/
def comparing : Lcd :=
  (({} : Lcd).write .lineCompare 5).write .status 0x40

/-
  It requests the status interrupt after 2280 ticks, when that
  line begins, and not before.
-/
theorem requests_comparing :
    let ic : InterruptController := { enable := 0x03 }
    let vram : VideoRam := .replicate 0x2000 0
    let oam : SpriteRam := .replicate 0x100 0
    let after u :=
      ((⟨comparing, ic, {}⟩ : Raster).advanceTo vram oam
        u).interrupts
    Reached 0 comparing ∧
      bit (after 2279).requests 1 = false ∧
      bit (after 2280).requests 1 = true ∧
      bit (after 2280).requests 0 = false := by
  intro ic vram oam after
  have hReached : Reached 0 comparing :=
    (Reached.fresh.write .lineCompare 5).write .status 0x40
  have hUntil (u : Nat) :=
    requests_exact hReached (Nat.zero_le u) vram oam ic {}
  refine ⟨hReached, ?_, ?_, ?_⟩
  · apply Bool.eq_false_iff.mpr
    intro hRequested
    rcases (hUntil 2279).2.1.mp hRequested with
      hBefore | ⟨-, T, hAfter, hEarly, hDue⟩
    · exact absurd hBefore (by decide)
    · rcases hDue with ⟨-, -, hSelected⟩ |
        ⟨-, -, hSelected⟩ | ⟨-, -, hSelected⟩ | ⟨-, hLine, -⟩
      · exact absurd hSelected (by decide)
      · exact absurd hSelected (by decide)
      · exact absurd hSelected (by decide)
      · have hReachedLine : T / 456 % 154 = 5 := hLine
        omega
  · apply (hUntil 2280).2.1.mpr
    refine .inr ⟨by decide, 2280, by decide, by decide, ?_⟩
    exact .inr (.inr (.inr (by decide)))
  · apply Bool.eq_false_iff.mpr
    intro hRequested
    rcases (hUntil 2280).1.mp hRequested with
      hBefore | ⟨-, k, hAfter, hEarly⟩
    · exact absurd hBefore (by decide)
    · omega

end Lcd

end Dmg
