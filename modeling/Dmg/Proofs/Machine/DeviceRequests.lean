import Dmg.Board
import Dmg.Proofs.Lcd.Batching
import Dmg.Proofs.Timer

/-
  Which interrupts the devices request while time passes.

  The timer requests its own when it is reloaded.  The LCD
  controller requests one when the vertical blank is entered,
  and the other when a mode is entered or a line is reached
  that a program has selected; both must be enabled.  No
  request that is there is withdrawn.

  Key definitions include:
    * `InterruptController.Requested`
    * `InterruptController.Adds`
    * `Timer.Reloads`
    * `LcdRegisters.EntryAsks`, `LcdRegisters.LineAsks`
    * `LcdRegisters.Asks`
    * `Board.Asks`

  Main results:
    * `Timer.adds_tick`
    * `Raster.transition_cases`
    * `Raster.adds_transition`
    * `Raster.adds_advanceTo`
    * `Board.requested_advance`
    * `Board.adds_advance`
-/

namespace Dmg

------------------------------------------------------------
-- Requests
------------------------------------------------------------

/- Only requests have been changed. -/
structure InterruptController.Requested
    (a b : InterruptController) : Prop where
  master : b.master = a.master
  enable : b.enable = a.enable

/-
  Nothing has changed but that the sources in a set, if they
  were not yet, are now requested.
-/
structure InterruptController.Adds
    (S : Interrupt → Prop)
    (a b : InterruptController) : Prop
    extends Requested a b where
  requests :
    ∀ i, b.isRequested i = true ↔ a.isRequested i = true ∨ S i

namespace InterruptController

theorem Requested.refl
    (ic : InterruptController) :
    Requested ic ic :=
  ⟨rfl, rfl⟩

theorem Requested.trans
    {a b c : InterruptController}
    (hab : Requested a b)
    (hbc : Requested b c) :
    Requested a c :=
  ⟨hbc.master.trans hab.master, hbc.enable.trans hab.enable⟩

/- The sources enabled in IE stay so. -/
theorem Requested.isEnabled
    {a b : InterruptController}
    (h : Requested a b)
    (i : Interrupt) :
    b.isEnabled i = a.isEnabled i := by
  unfold InterruptController.isEnabled
  rw [h.enable]

variable {S T : Interrupt → Prop}

theorem Adds.of_iff
    {a b : InterruptController}
    (h : Adds S a b)
    (hSame : ∀ i, S i ↔ T i) :
    Adds T a b where
  toRequested := h.toRequested
  requests i := by
    rw [h.requests i, hSame i]

/- Nothing is added. -/
theorem adds_none
    (hNone : ∀ i, ¬ S i)
    (ic : InterruptController) :
    Adds S ic ic where
  toRequested := .refl ic
  requests i := by
    simp only [hNone i, or_false]

theorem Adds.trans
    {a b c : InterruptController}
    (hab : Adds S a b)
    (hbc : Adds T b c) :
    Adds (fun i => S i ∨ T i) a c where
  toRequested := hab.toRequested.trans hbc.toRequested
  requests i := by
    rw [hbc.requests i, hab.requests i, or_assoc]

theorem adds_request
    (ic : InterruptController)
    (i : Interrupt) :
    Adds (· = i) ic (ic.request i) where
  toRequested := ⟨rfl, rfl⟩
  requests j := by
    rw [isRequested_request, Bool.or_eq_true, beq_iff_eq,
      or_comm, @eq_comm _ i]

/- A source is requested on a condition. -/
theorem adds_ite
    {p : Prop}
    [Decidable p]
    (ic : InterruptController)
    (i : Interrupt) :
    Adds (fun j => j = i ∧ p) ic
      (if p then ic.request i else ic) := by
  split
  · rename_i h
    apply (adds_request ic i).of_iff
    intro j
    simp only [h, and_true]
  · rename_i h
    apply adds_none
    intro j hj
    exact h hj.2

theorem adds_requestIfEnabled
    (ic : InterruptController)
    (i : Interrupt) :
    Adds (fun j => j = i ∧ ic.isEnabled i = true) ic
      (ic.requestIfEnabled i) :=
  adds_ite ic i

end InterruptController

open InterruptController

------------------------------------------------------------
-- Timer
------------------------------------------------------------

namespace Timer

theorem after_setPending
    (p n : Nat)
    (t : Timer) :
    (t.setPending p).after n = (t.after n).setPending p := by
  have hCycles := cycles_setPending p n t {}
  rw [cycles_eq, cycles_eq] at hCycles
  exact congrArg Prod.fst hCycles

theorem reloaded_setPending
    (p n : Nat)
    (t : Timer) :
    (t.setPending p).reloaded n = t.reloaded n := by
  induction n with
  | zero => rfl
  | succ n ih =>
      unfold reloaded
      rw [ih, after_setPending]
      rfl

/- The timer is reloaded while a number of ticks passes. -/
def Reloads
    (t : Timer)
    (ticks : Nat) : Prop :=
  t.reloaded ((t.pending + ticks) / 4) = true

/- It requests its interrupt if it is reloaded. -/
theorem adds_tick
    (t : Timer)
    (ticks : Nat)
    (ic : InterruptController) :
    Adds (fun i => i = .timer ∧ t.Reloads ticks) ic
      (t.tick ticks ic).2 := by
  let total := t.pending + ticks
  have hTick :
      (t.tick ticks ic).2 =
        if t.reloaded (total / 4) then ic.request .timer
        else ic := by
    rw [← reloaded_setPending (total % 4)]
    exact congrArg Prod.snd
      (cycles_eq (total / 4) (t.setPending (total % 4)) ic)
  rw [hTick]
  exact adds_ite (p := t.reloaded (total / 4) = true) ic .timer

end Timer

------------------------------------------------------------
-- LCD
------------------------------------------------------------

namespace LcdRegisters

variable (r : LcdRegisters)

/-
  What the entry to a mode asks for: the interrupt of the
  vertical blank, and the status interrupt if a program has
  selected the mode.
-/
def EntryAsks
    (mode : Mode) : Interrupt → Prop
  | .vblank => mode = .vblank
  | .lcdStat =>
      ∃ k, mode.selectBit? = some k ∧ r.selected k = true
  | _ => False

/-
  What reaching a line asks for: the status interrupt if it is
  the line compared with and that is selected.
-/
def LineAsks
    (line : Nat) : Interrupt → Prop
  | .lcdStat =>
      line = r.lineCompare.toNat ∧ r.selected 6 = true
  | _ => False

/- What a move of the beam asks for. -/
def Asks
    (a b : Beam)
    (i : Interrupt) : Prop :=
  b.mode ≠ a.mode ∧ r.EntryAsks b.mode i ∨
    b.line ≠ a.line ∧ r.LineAsks b.line i

variable
  {a b : Beam}
  {line : Nat}
  {mode : Mode}

/- The beam enters a mode, on the same line. -/
theorem asks_enter
    (hMode : mode ≠ a.mode)
    (i : Interrupt) :
    r.Asks a { a with mode := mode } i ↔
      r.EntryAsks mode i := by
  unfold Asks
  simp only [hMode, not_true_eq_false, ne_eq,
    not_false_eq_true, true_and, false_and, or_false]

/- The beam reaches a line, in the same mode. -/
theorem asks_reach
    (hLine : line ≠ a.line)
    (i : Interrupt) :
    r.Asks a { a with line := line } i ↔
      r.LineAsks line i := by
  unfold Asks
  simp only [hLine, not_true_eq_false, ne_eq,
    not_false_eq_true, true_and, false_and, false_or]

/- The beam does both. -/
theorem asks_reach_enter
    (hLine : line ≠ a.line)
    (hMode : mode ≠ a.mode)
    (i : Interrupt) :
    r.Asks a { a with line := line, mode := mode } i ↔
      r.LineAsks line i ∨ r.EntryAsks mode i := by
  unfold Asks
  simp only [hMode, hLine, ne_eq, not_false_eq_true,
    true_and, or_comm]

/- The beam does neither. -/
theorem not_asks_of_stay
    (hMode : b.mode = a.mode)
    (hLine : b.line = a.line)
    (i : Interrupt) :
    ¬ r.Asks a b i := by
  rintro (⟨hMoved, -⟩ | ⟨hMoved, -⟩)
  · exact hMoved hMode
  · exact hMoved hLine

end LcdRegisters

namespace Raster

/- Requesting the status interrupt for an event selected. -/
theorem adds_requestSelected
    (select : Option Nat)
    (m : Message)
    (r : Raster) :
    Adds
      (fun i =>
        r.interrupts.isEnabled i = true ∧ i = .lcdStat ∧
          ∃ k, select = some k ∧ r.lcd.regs.selected k = true)
      r.interrupts (r.requestSelected select m).interrupts := by
  cases select with
  | none =>
      apply adds_none
      rintro i ⟨-, -, k, hNone, -⟩
      cases hNone
  | some k =>
      have hStatus :
          (r.requestStatus m).interrupts =
            r.interrupts.requestIfEnabled .lcdStat := by
        rcases r with ⟨lcd, ic, journal⟩
        unfold requestStatus requestIfEnabled
        simp only
        split <;> rfl
      by_cases hSelected : r.lcd.regs.selected k = true
      · have hRequest :
            r.requestSelected (some k) m =
              r.requestStatus m :=
          if_pos hSelected
        rw [hRequest, hStatus]
        apply (adds_requestIfEnabled _ .lcdStat).of_iff
        intro i
        constructor
        · rintro ⟨rfl, hEnabled⟩
          exact ⟨hEnabled, rfl, k, rfl, hSelected⟩
        · rintro ⟨hEnabled, rfl, -⟩
          exact ⟨rfl, hEnabled⟩
      · have hRequest : r.requestSelected (some k) m = r :=
          if_neg hSelected
        rw [hRequest]
        apply adds_none
        rintro i ⟨-, -, j, hSome, hOther⟩
        cases hSome
        exact hSelected hOther

theorem adds_enter
    (mode : Mode)
    (r : Raster) :
    Adds
      (fun i =>
        r.interrupts.isEnabled i = true ∧
          r.lcd.regs.EntryAsks mode i)
      r.interrupts (r.enter mode).interrupts := by
  let q := r.mapBeam fun b => { b with mode := mode }
  let p := if mode = .vblank then q.completeFrame else q
  have hComplete :
      Adds
        (fun i =>
          r.interrupts.isEnabled i = true ∧ i = .vblank ∧
            mode = .vblank)
        r.interrupts p.interrupts := by
    by_cases hMode : mode = .vblank
    · have hFrame :
          p.interrupts =
            r.interrupts.requestIfEnabled .vblank :=
        congrArg Raster.interrupts (if_pos hMode)
      rw [hFrame]
      apply (adds_requestIfEnabled _ .vblank).of_iff
      intro i
      constructor
      · rintro ⟨rfl, hEnabled⟩
        exact ⟨hEnabled, rfl, hMode⟩
      · rintro ⟨hEnabled, rfl, -⟩
        exact ⟨rfl, hEnabled⟩
    · have hQuiet : p.interrupts = q.interrupts :=
        congrArg Raster.interrupts (if_neg hMode)
      rw [hQuiet]
      apply adds_none
      rintro i ⟨-, -, hOther⟩
      exact hMode hOther
  have hSelected :=
    adds_requestSelected mode.selectBit?
      (.modeRequest mode p.lcd.beam.line) p
  have hRegs : p.lcd.regs = r.lcd.regs := by
    unfold p
    split <;> rfl
  apply (hComplete.trans hSelected).of_iff
  intro i
  rw [hRegs, hComplete.toRequested.isEnabled, ← and_or_left]
  cases i <;> simp [LcdRegisters.EntryAsks]

theorem adds_reachLine
    (line : Nat)
    (r : Raster) :
    Adds
      (fun i =>
        r.interrupts.isEnabled i = true ∧
          r.lcd.regs.LineAsks line i)
      r.interrupts (r.reachLine line).interrupts := by
  let q := r.mapBeam fun b => { b with line := line }
  by_cases hLine : line = r.lcd.regs.lineCompare.toNat
  · have hReach :
        r.reachLine line =
          q.requestSelected (some 6)
            (.lineRequest q.lcd.regs.lineCompare) :=
      if_pos (beq_iff_eq.mpr hLine)
    have hRegs : q.lcd.regs = r.lcd.regs := rfl
    have hEnabled : q.interrupts = r.interrupts := rfl
    rw [hReach]
    apply (adds_requestSelected (some 6) _ q).of_iff
    intro i
    rw [hRegs, hEnabled]
    cases i <;> simp [LcdRegisters.LineAsks, hLine]
  · have hReach : r.reachLine line = q :=
      if_neg fun h => hLine (beq_iff_eq.mp h)
    rw [hReach]
    apply adds_none
    rintro i ⟨-, hAsks⟩
    cases i with
    | lcdStat => exact hLine hAsks.1
    | _ => exact hAsks

/- Reaching a line and entering a mode, in this order. -/
theorem adds_reachLine_enter
    (line : Nat)
    (mode : Mode)
    (r : Raster) :
    Adds
      (fun i =>
        r.interrupts.isEnabled i = true ∧
          (r.lcd.regs.LineAsks line i ∨
            r.lcd.regs.EntryAsks mode i))
      r.interrupts
      ((r.reachLine line).enter mode).interrupts := by
  have hReach := adds_reachLine line r
  have hRegs : (r.reachLine line).lcd.regs = r.lcd.regs := by
    rw [reachLine_lcd]
  apply (hReach.trans (adds_enter mode _)).of_iff
  intro i
  rw [hRegs, hReach.toRequested.isEnabled, and_or_left]

/-
  A transition enters a mode on the same line, reaches a line
  and enters a mode, or reaches a line in the same mode.
-/
theorem transition_cases
    (vram : VideoRam)
    (oam : SpriteRam)
    (r : Raster) :
    let a := r.lcd.beam
    (∃ (q : Raster) (mode : Mode),
        q.interrupts = r.interrupts ∧
          q.lcd.regs = r.lcd.regs ∧
          mode ≠ a.mode ∧
          a.succ = { a with mode := mode } ∧
          r.transition vram oam = q.enter mode) ∨
      (∃ (q : Raster) (line : Nat) (mode : Mode),
        q.interrupts = r.interrupts ∧
          q.lcd.regs = r.lcd.regs ∧
          mode ≠ a.mode ∧ line ≠ a.line ∧
          a.succ = { a with line := line, mode := mode } ∧
          r.transition vram oam =
            (q.reachLine line).enter mode) ∨
      ∃ line : Nat,
        line ≠ a.line ∧
          a.succ = { a with line := line } ∧
          r.transition vram oam = r.reachLine line := by
  rcases r with ⟨⟨regs, ⟨mode, line, last, residue⟩, tiles,
    picture, ready, window⟩, ic, journal⟩
  let lcd : Lcd :=
    { regs
      beam := ⟨mode, line, last, residue⟩
      tiles
      picture
      frameReady := ready
      windowLine := window }
  let r : Raster := ⟨lcd, ic, journal⟩
  cases mode with
  | oamScan =>
      exact .inl ⟨r, .vramRead, rfl, rfl, Mode.noConfusion,
        rfl, rfl⟩
  | vramRead =>
      let q := r.mapLcd (·.drawLine vram oam)
      have hDrawing : lcd.beam.mode = .vramRead := rfl
      have hRegs : q.lcd.regs = regs := by
        change (lcd.drawLine vram oam).regs = regs
        rw [drawLine_eq vram oam hDrawing]
      exact .inl ⟨q, .hblank, rfl, hRegs, Mode.noConfusion,
        rfl, rfl⟩
  | hblank =>
      let entered : Mode :=
        if line + 1 = 144 then .vblank else .oamScan
      have hNew : entered ≠ .hblank := by
        unfold entered
        split <;> exact Mode.noConfusion
      exact .inr (.inl ⟨r, line + 1, entered, rfl, rfl, hNew,
        Nat.succ_ne_self line, rfl, rfl⟩)
  | vblank =>
      by_cases hLast : 153 ≤ line
      · let q := r.mapLcd fun lcd =>
          { lcd with windowLine := 0 }
        have hLine : 0 ≠ line := by omega
        exact .inr (.inl ⟨q, 0, .oamScan, rfl, rfl,
          Mode.noConfusion, hLine, if_pos hLast,
          if_pos hLast⟩)
      · exact .inr (.inr ⟨line + 1, Nat.succ_ne_self line,
          if_neg hLast, if_neg hLast⟩)

/- It requests what the move of the beam asks for. -/
theorem adds_transition
    (vram : VideoRam)
    (oam : SpriteRam)
    (r : Raster) :
    Adds
      (fun i =>
        r.interrupts.isEnabled i = true ∧
          r.lcd.regs.Asks r.lcd.beam r.lcd.beam.succ i)
      r.interrupts (r.transition vram oam).interrupts := by
  rcases r.transition_cases vram oam with
    ⟨q, mode, hIc, hRegs, hMode, hSucc, hMove⟩ |
      ⟨q, line, mode, hIc, hRegs, hMode, hLine, hSucc, hMove⟩ |
      ⟨line, hLine, hSucc, hMove⟩
  · rw [hMove, hSucc, ← hIc, ← hRegs]
    apply (adds_enter mode q).of_iff
    intro i
    rw [LcdRegisters.asks_enter _ hMode]
  · rw [hMove, hSucc, ← hIc, ← hRegs]
    apply (adds_reachLine_enter line mode q).of_iff
    intro i
    rw [LcdRegisters.asks_reach_enter _ hLine hMode]
  · rw [hMove, hSucc]
    apply (adds_reachLine line r).of_iff
    intro i
    rw [LcdRegisters.asks_reach _ hLine]

/- However much time passes, requests are all it changes. -/
theorem requested_advanceTo
    (vram : VideoRam)
    (oam : SpriteRam)
    (now : Nat)
    (r : Raster) :
    Requested r.interrupts
      (r.advanceTo vram oam now).interrupts := by
  apply advanceTo_invariant vram oam
    (P := fun q => Requested r.interrupts q.interrupts)
  · intro q h
    exact h.trans (adds_transition vram oam q).toRequested
  · intro last residue q h
    exact h
  · exact .refl _

/- No request is withdrawn meanwhile. -/
theorem isRequested_advanceTo
    (vram : VideoRam)
    (oam : SpriteRam)
    (now : Nat)
    {r : Raster}
    {i : Interrupt}
    (h : r.interrupts.isRequested i = true) :
    (r.advanceTo vram oam now).interrupts.isRequested i =
      true := by
  apply advanceTo_invariant vram oam
    (P := fun q => q.interrupts.isRequested i = true)
  · intro q hq
    have hOne := (adds_transition vram oam q).requests i
    exact hOne.mpr (.inl hq)
  · intro last residue q hq
    exact hq
  · exact h

/-
  In less than the time of two transitions at most one is
  made, that from the current mode, if it has come due.
-/
theorem advanceTo_of_lt
    (vram : VideoRam)
    (oam : SpriteRam)
    {now : Nat}
    {r : Raster}
    (hSoon :
      r.lcd.beam.residue + (now - r.lcd.beam.lastTicks) <
        r.lcd.beam.mode.budget + 80) :
    ∃ last residue,
      r.advanceTo vram oam now = r.setClock last residue ∨
        r.advanceTo vram oam now =
          (r.transition vram oam).setClock last residue := by
  let ticks :=
    r.lcd.beam.residue + (now - r.lcd.beam.lastTicks)
  let last := max r.lcd.beam.lastTicks now
  have hFollow :
      r.advanceTo vram oam now =
        (r.drain vram oam ticks).setClock last
          (r.drain vram oam ticks).lcd.beam.residue :=
    advanceTo_eq vram oam now r
  by_cases hDue : r.lcd.beam.mode.budget ≤ ticks
  · let next := r.transition vram oam
    let left := ticks - r.lcd.beam.mode.budget
    have hShort : ¬ next.lcd.beam.mode.budget ≤ left := by
      have hNext := le_budget next.lcd.beam.mode
      omega
    have hDrain :
        r.drain vram oam ticks =
          next.setClock next.lcd.beam.lastTicks left := by
      rw [drain_of_due vram oam hDue,
        drain_of_short vram oam hShort]
    rw [hFollow, hDrain]
    exact ⟨last, left, .inr rfl⟩
  · rw [hFollow, drain_of_short vram oam hDue]
    exact ⟨last, ticks, .inl rfl⟩

/-
  Then what is requested is what the beam, seen before and
  after, has asked for.
-/
theorem adds_advanceTo
    (vram : VideoRam)
    (oam : SpriteRam)
    {now : Nat}
    {r : Raster}
    (hSoon :
      r.lcd.beam.residue + (now - r.lcd.beam.lastTicks) <
        r.lcd.beam.mode.budget + 80) :
    let q := r.advanceTo vram oam now
    Adds
      (fun i =>
        r.interrupts.isEnabled i = true ∧
          r.lcd.regs.Asks r.lcd.beam q.lcd.beam i)
      r.interrupts q.interrupts := by
  intro q
  rcases advanceTo_of_lt vram oam hSoon with
    ⟨last, residue, hStay | hMove⟩
  · unfold q
    rw [hStay]
    apply adds_none
    rintro i ⟨-, hAsks⟩
    exact r.lcd.regs.not_asks_of_stay rfl rfl i hAsks
  · have hBeam :
        (r.transition vram oam).lcd.beam = r.lcd.beam.succ :=
      congrArg Lcd.beam (transition_lcd vram oam r)
    have hAdds := adds_transition vram oam r
    rw [← hBeam] at hAdds
    unfold q
    rw [hMove]
    exact hAdds

end Raster

------------------------------------------------------------
-- Board
------------------------------------------------------------

namespace Board

/- While time passes, devices only request interrupts. -/
theorem requested_advance
    (cost now : Nat)
    (b : Board)
    (journal : Journal) :
    Requested b.interrupts
      (b.advance cost now journal).1.interrupts := by
  let ic := (b.timer.tick cost b.interrupts).2
  have hTimer := b.timer.adds_tick cost b.interrupts
  exact hTimer.toRequested.trans
    (Raster.requested_advanceTo b.videoRam b.spriteRam now
      ⟨b.lcd, ic, journal⟩)

/- What is pending stays so while the devices follow. -/
theorem isPending_advance
    (cost now : Nat)
    {b : Board}
    (journal : Journal)
    {i : Interrupt}
    (h : b.interrupts.isPending i = true) :
    (b.advance cost now journal).1.interrupts.isPending i =
      true := by
  have hSame := b.requested_advance cost now journal
  rw [isPending_eq, Bool.and_eq_true] at h ⊢
  let ic := (b.timer.tick cost b.interrupts).2
  have hTimer : ic.isRequested i = true :=
    ((b.timer.adds_tick cost b.interrupts).requests i).mpr
      (.inl h.1)
  constructor
  · exact Raster.isRequested_advanceTo b.videoRam b.spriteRam
      now (r := ⟨b.lcd, ic, journal⟩) hTimer
  · rw [hSame.isEnabled]
    exact h.2

/-
  What the devices of a board ask for while it goes from one
  state to another in some ticks: the timer for its interrupt
  when it is reloaded, the LCD controller for those that are
  enabled.
-/
def Asks
    (cost : Nat)
    (a b : Board)
    (i : Interrupt) : Prop :=
  i = .timer ∧ a.timer.Reloads cost ∨
    a.interrupts.isEnabled i = true ∧
      a.lcd.regs.Asks a.lcd.beam b.lcd.beam i

/- In a short time this is what is requested. -/
theorem adds_advance
    (cost : Nat)
    {now : Nat}
    {b : Board}
    (hSoon :
      b.lcd.beam.residue + (now - b.lcd.beam.lastTicks) <
        b.lcd.beam.mode.budget + 80)
    (journal : Journal) :
    let c := (b.advance cost now journal).1
    Adds (b.Asks cost c) b.interrupts c.interrupts := by
  intro c
  let ic := (b.timer.tick cost b.interrupts).2
  have hTimer := b.timer.adds_tick cost b.interrupts
  have hLcd :=
    Raster.adds_advanceTo b.videoRam b.spriteRam
      (r := ⟨b.lcd, ic, journal⟩) hSoon
  apply (hTimer.trans hLcd).of_iff
  intro i
  unfold Asks
  rw [← hTimer.toRequested.isEnabled]
  rfl

end Board

end Dmg
