import Dmg.Proofs.Lcd.Transition

/-
  The position of the beam as a function of time.

  The controller reaches a position by making one transition
  after the other.  The position is also told at once from the
  ticks that have passed, and the two agree.

  Key definitions include:
    * `Position.line`, `Position.dot`, `Position.mode`
    * `Position.residue`
    * `Position.Within`
    * `Position.frames`
    * `Beam.at`
    * `Beam.InFrame`

  Main results:
    * `Position.move`
    * `Beam.InFrame.succ`
    * `Raster.drain_beam`
    * `Raster.advanceTo_beam`
-/

namespace Dmg

------------------------------------------------------------
-- Positions
------------------------------------------------------------

namespace Position

/- The line reached after a number of ticks. -/
def line
    (t : Nat) : Nat :=
  t / 456 % 154

/- The ticks spent in that line. -/
def dot
    (t : Nat) : Nat :=
  t % 456

/- The mode reached. -/
def mode
    (t : Nat) : Mode :=
  if 144 ≤ line t then .vblank
  else if dot t < 80 then .oamScan
  else if dot t < 252 then .vramRead
  else .hblank

/- The dot of its line at which a mode begins. -/
def modeStart : Mode → Nat
  | .oamScan => 0
  | .vramRead => 80
  | .hblank => 252
  | .vblank => 0

/- The ticks spent in the mode, or in the line in VBlank. -/
def residue
    (t : Nat) : Nat :=
  dot t - modeStart (mode t)

/- How often the vertical blank has been entered. -/
def frames
    (t : Nat) : Nat :=
  (t + 4560) / 70224

end Position

/- The beam after a number of ticks. -/
def Beam.at
    (t : Nat) : Beam where
  mode := Position.mode t
  line := Position.line t
  lastTicks := t
  residue := Position.residue t

namespace Position

------------------------------------------------------------
-- Modes
------------------------------------------------------------

variable {t k : Nat}

theorem mode_vblank
    (hLine : 144 ≤ line t) :
    mode t = .vblank :=
  if_pos hLine

theorem mode_oamScan
    (hLine : line t < 144)
    (hDot : dot t < 80) :
    mode t = .oamScan := by
  unfold mode
  rw [if_neg (by omega), if_pos hDot]

theorem mode_vramRead
    (hLine : line t < 144)
    (hFrom : 80 ≤ dot t)
    (hDot : dot t < 252) :
    mode t = .vramRead := by
  unfold mode
  rw [if_neg (by omega), if_neg (by omega), if_pos hDot]

theorem mode_hblank
    (hLine : line t < 144)
    (hFrom : 252 ≤ dot t) :
    mode t = .hblank := by
  unfold mode
  rw [if_neg (by omega), if_neg (by omega),
    if_neg (by omega)]

/- A mode with the lines and dots at which it is reached. -/
theorem mode_cases
    (t : Nat) :
    (mode t = .vblank ∧ 144 ≤ line t) ∨
      (mode t = .oamScan ∧ line t < 144 ∧ dot t < 80) ∨
      (mode t = .vramRead ∧ line t < 144 ∧ 80 ≤ dot t ∧
        dot t < 252) ∨
      (mode t = .hblank ∧ line t < 144 ∧ 252 ≤ dot t) := by
  by_cases hLine : 144 ≤ line t
  · exact .inl ⟨mode_vblank hLine, hLine⟩
  have hVisible : line t < 144 := Nat.lt_of_not_le hLine
  by_cases hScan : dot t < 80
  · exact .inr (.inl
      ⟨mode_oamScan hVisible hScan, hVisible, hScan⟩)
  have hScanned : 80 ≤ dot t := Nat.le_of_not_lt hScan
  by_cases hRead : dot t < 252
  · exact .inr (.inr (.inl
      ⟨mode_vramRead hVisible hScanned hRead, hVisible,
        hScanned, hRead⟩))
  · have hDrawn : 252 ≤ dot t := Nat.le_of_not_lt hRead
    exact .inr (.inr (.inr
      ⟨mode_hblank hVisible hDrawn, hVisible, hDrawn⟩))

/- The lines and the dots of a mode. -/
def Within : Mode → Nat → Nat → Prop
  | .vblank, line, _ => 144 ≤ line
  | .oamScan, line, dot => line < 144 ∧ dot < 80
  | .vramRead, line, dot =>
      line < 144 ∧ 80 ≤ dot ∧ dot < 252
  | .hblank, line, dot => line < 144 ∧ 252 ≤ dot

/- The modes, told from the line and the dot. -/
theorem mode_eq_iff
    {m : Mode} :
    mode t = m ↔ Within m (line t) (dot t) := by
  rcases mode_cases t with
    ⟨h, hLine⟩ | ⟨h, hLine, hDot⟩ | ⟨h, hLine, hDot⟩ |
      ⟨h, hLine, hDot⟩ <;>
    cases m <;>
    simp only [h, Within, reduceCtorEq, true_iff,
      false_iff] <;>
    omega

/- Only the rows of the picture are drawn. -/
theorem line_lt_of_vramRead
    (hMode : mode t = .vramRead) :
    line t < screenHeight := by
  apply Nat.lt_of_not_le
  intro hLine
  have hBlank := (mode_vblank hLine).symm.trans hMode
  cases hBlank

theorem line_lt
    (t : Nat) :
    line t < 154 :=
  Nat.mod_lt _ (by decide)

theorem dot_eq_of_residue
    (t : Nat) :
    dot t = modeStart (mode t) + residue t := by
  unfold residue
  rcases mode_cases t with
    ⟨h, -⟩ | ⟨h, -⟩ | ⟨h, -, hDot, -⟩ | ⟨h, -, hDot⟩ <;>
    simp only [h, modeStart] <;> omega

/- The residue with the dots at which the modes begin. -/
theorem residue_eq
    (t : Nat) :
    residue t =
      if 144 ≤ line t then dot t
      else if dot t < 80 then dot t
      else if dot t < 252 then dot t - 80
      else dot t - 252 := by
  unfold residue mode
  split
  · rfl
  split
  · rfl
  split <;> rfl

------------------------------------------------------------
-- Moving In Time
------------------------------------------------------------

/- Time that ends in the line it began in. -/
theorem add_in_line
    (h : dot t + k < 456) :
    dot (t + k) = dot t + k ∧ line (t + k) = line t ∧
      frames (t + k) = frames t := by
  unfold dot line frames at *
  omega

/- Time back to a dot of the same line. -/
theorem sub_in_line
    (h : k ≤ dot t) :
    dot (t - k) = dot t - k ∧ line (t - k) = line t ∧
      frames (t - k) = frames t := by
  unfold dot line frames at *
  omega

/- Time that ends with the line it began in. -/
theorem add_to_line_end
    (h : dot t + k = 456) :
    dot (t + k) = 0 ∧
      line (t + k) =
        (if line t = 153 then 0 else line t + 1) ∧
      frames (t + k) =
        frames t + (if line t = 143 then 1 else 0) := by
  unfold dot line frames at *
  constructor
  · omega
  · constructor
    · split <;> omega
    · split <;> omega

/- A mode ends no later than its line. -/
theorem modeStart_add_budget_le
    (m : Mode) :
    modeStart m + m.budget ≤ 456 := by
  cases m <;> decide

theorem mode_add
    (hStart : residue t = 0)
    (hk : k < (mode t).budget) :
    mode (t + k) = mode t := by
  have hBudget := modeStart_add_budget_le (mode t)
  have hDot := dot_eq_of_residue t
  have hIn : dot t + k < 456 := by omega
  obtain ⟨hDotAdd, hLineAdd, -⟩ := add_in_line hIn
  rcases mode_cases t with
    ⟨h, hLine⟩ | ⟨h, hLine, -⟩ | ⟨h, hLine, -⟩ |
      ⟨h, hLine, -⟩ <;>
    rw [h] at hDot hk ⊢ <;>
    simp only [modeStart, Mode.budget] at hDot hk
  · exact mode_vblank (by omega)
  · exact mode_oamScan (by omega) (by omega)
  · exact mode_vramRead (by omega) (by omega) (by omega)
  · exact mode_hblank (by omega) (by omega)

/- Within a mode only the residue changes. -/
theorem stay
    (hStart : residue t = 0)
    (hk : k < (mode t).budget) :
    mode (t + k) = mode t ∧ line (t + k) = line t ∧
      residue (t + k) = k ∧ frames (t + k) = frames t := by
  have hMode := mode_add hStart hk
  have hBudget := modeStart_add_budget_le (mode t)
  have hDot := dot_eq_of_residue t
  have hIn : dot t + k < 456 := by omega
  obtain ⟨hDotAdd, hLineAdd, hFrames⟩ := add_in_line hIn
  refine ⟨hMode, hLineAdd, ?_, hFrames⟩
  unfold residue
  rw [hMode, hDotAdd]
  omega

theorem residue_eq_zero
    {m : Mode}
    (hMode : mode t = m)
    (hDot : dot t = modeStart m) :
    residue t = 0 := by
  unfold residue
  rw [hMode, hDot, Nat.sub_self]

/- At the end of a mode the next one begins. -/
theorem move
    (hStart : residue t = 0) :
    let next := t + (mode t).budget
    residue next = 0 ∧
      mode next = (Beam.at t).succ.mode ∧
      line next = (Beam.at t).succ.line ∧
      frames next =
        frames t + (Beam.at t).completes.toNat := by
  have hDot := dot_eq_of_residue t
  rcases mode_cases t with
    ⟨h, hLine⟩ | ⟨h, hLine, -⟩ | ⟨h, hLine, -⟩ |
      ⟨h, hLine, -⟩ <;>
    simp only [h, modeStart, hStart] at hDot <;>
    simp only [h, Mode.budget, Beam.at, Beam.succ,
      Beam.completes]
  · have hEnd : dot t + 456 = 456 := by omega
    obtain ⟨hd, hl, hf⟩ := add_to_line_end hEnd
    have hNot : ¬ line t = 143 := by omega
    rw [if_neg hNot] at hf
    by_cases hLast : 153 ≤ line t
    · have hIs : line t = 153 := by
        have := Nat.mod_lt (t / 456) (by decide : 0 < 154)
        unfold line at *
        omega
      rw [if_pos hIs] at hl
      have hMode : mode (t + 456) = .oamScan :=
        mode_oamScan (by omega) (by omega)
      rw [if_pos hLast]
      exact ⟨residue_eq_zero hMode hd, hMode, hl, hf⟩
    · rw [if_neg (by omega)] at hl
      have hMode : mode (t + 456) = .vblank :=
        mode_vblank (by omega)
      rw [if_neg hLast]
      exact ⟨residue_eq_zero hMode hd, hMode, hl, hf⟩
  · have hIn : dot t + 80 < 456 := by omega
    obtain ⟨hd, hl, hf⟩ := add_in_line hIn
    have hMode : mode (t + 80) = .vramRead :=
      mode_vramRead (by omega) (by omega) (by omega)
    have hDotNext : dot (t + 80) = modeStart .vramRead := by
      rw [hd, hDot]
      rfl
    exact ⟨residue_eq_zero hMode hDotNext, hMode, hl, hf⟩
  · have hIn : dot t + 172 < 456 := by omega
    obtain ⟨hd, hl, hf⟩ := add_in_line hIn
    have hMode : mode (t + 172) = .hblank :=
      mode_hblank (by omega) (by omega)
    have hDotNext : dot (t + 172) = modeStart .hblank := by
      rw [hd, hDot]
      rfl
    exact ⟨residue_eq_zero hMode hDotNext, hMode, hl, hf⟩
  · have hEnd : dot t + 204 = 456 := by omega
    obtain ⟨hd, hl, hf⟩ := add_to_line_end hEnd
    rw [if_neg (by omega)] at hl
    by_cases hLast : line t + 1 = 144
    · have hMode : mode (t + 204) = .vblank :=
        mode_vblank (by omega)
      have hIs : line t = 143 := by omega
      rw [if_pos hIs] at hf
      rw [if_pos hLast, hLast]
      exact ⟨residue_eq_zero hMode hd, hMode, hl.trans hLast, hf⟩
    · have hMode : mode (t + 204) = .oamScan :=
        mode_oamScan (by omega) (by omega)
      have hNot : ¬ line t = 143 := by omega
      rw [if_neg hNot] at hf
      rw [if_neg hLast, beq_false_of_ne hLast]
      exact ⟨residue_eq_zero hMode hd, hMode, hl, hf⟩

/- The mode reached began as long ago as its residue says. -/
theorem begin
    (t : Nat) :
    let start := t - residue t
    residue t ≤ t ∧ residue start = 0 ∧
      mode start = mode t ∧ line start = line t ∧
      frames start = frames t := by
  have hDot := dot_eq_of_residue t
  have hBack : residue t ≤ dot t := by omega
  have hPast : dot t ≤ t := Nat.mod_le t 456
  obtain ⟨hDotStart, hLineStart, hFrames⟩ :=
    sub_in_line hBack
  have hAtStart :
      dot (t - residue t) = modeStart (mode t) := by
    omega
  have hMode : mode (t - residue t) = mode t := by
    rcases mode_cases t with
      ⟨h, hLine⟩ | ⟨h, hLine, -⟩ | ⟨h, hLine, -⟩ |
        ⟨h, hLine, -⟩ <;>
      rw [h] at hAtStart ⊢ <;>
      simp only [modeStart] at hAtStart
    · exact mode_vblank (by omega)
    · exact mode_oamScan (by omega) (by omega)
    · exact mode_vramRead (by omega) (by omega) (by omega)
    · exact mode_hblank (by omega) (by omega)
  exact ⟨Nat.le_trans hBack hPast,
    residue_eq_zero hMode hAtStart, hMode, hLineStart,
    hFrames⟩

end Position

------------------------------------------------------------
-- Lines Of A Frame
------------------------------------------------------------

namespace Beam

/- The line is one of a frame, and one of the modes is its. -/
structure InFrame
    (b : Beam) : Prop where
  line : b.line < 154
  visible : b.mode ≠ .vblank → b.line < 144

theorem inFrame_at
    (t : Nat) :
    (Beam.at t).InFrame where
  line := Position.line_lt t
  visible hMode := by
    apply Nat.lt_of_not_le
    intro hLine
    exact hMode (Position.mode_vblank hLine)

/- The end of a mode leads to a line of a frame. -/
theorem InFrame.succ
    {b : Beam}
    (h : b.InFrame) :
    b.succ.InFrame := by
  rcases h with ⟨hLine, hVisible⟩
  unfold Beam.succ
  cases hMode : b.mode with
  | oamScan | vramRead =>
      have hLow : b.line < 144 := hVisible (by
        rw [hMode]
        exact Mode.noConfusion)
      exact ⟨hLine, fun _ => hLow⟩
  | hblank =>
      have hLow : b.line < 144 := hVisible (by
        rw [hMode]
        exact Mode.noConfusion)
      refine ⟨Nat.lt_of_le_of_lt hLow (by decide), ?_⟩
      intro hNot
      dsimp only at hNot ⊢
      split at hNot
      · exact absurd rfl hNot
      · omega
  | vblank =>
      dsimp only
      split
      · exact ⟨Nat.zero_lt_succ _, fun _ => Nat.zero_lt_succ _⟩
      · refine ⟨?_, fun hNot => absurd rfl hNot⟩
        dsimp only
        omega

end Beam

------------------------------------------------------------
-- Passing Time
------------------------------------------------------------

namespace Raster

/-
  Draining ticks from the beginning of a mode leads to the
  position at their end.
-/
theorem drain_beam
    (vram : VideoRam)
    (oam : SpriteRam)
    {t : Nat}
    (hStart : Position.residue t = 0)
    (ticks : Nat)
    (r : Raster)
    (hMode : r.lcd.beam.mode = Position.mode t)
    (hLine : r.lcd.beam.line = Position.line t) :
    (r.drain vram oam ticks).lcd.beam =
        { Beam.at (t + ticks) with
          lastTicks := r.lcd.beam.lastTicks } ∧
      (r.drain vram oam ticks).lcd.frameReady =
        (r.lcd.frameReady ||
          decide (Position.frames t <
            Position.frames (t + ticks))) := by
  induction ticks, r using drain.induct vram oam
    generalizing t with
  | case1 ticks r hDue ih =>
      obtain ⟨hNextStart, hNextMode, hNextLine, hFrames⟩ :=
        Position.move hStart
      obtain ⟨hSuccMode, hSuccLine, hCompletes⟩ :=
        Beam.succ_congr (b := Beam.at t) hMode hLine
      have hNext := transition_lcd vram oam r
      have hBeam : (r.transition vram oam).lcd.beam =
          r.lcd.beam.succ :=
        congrArg Lcd.beam hNext
      have hReady : (r.transition vram oam).lcd.frameReady =
          (r.lcd.frameReady || r.lcd.beam.completes) :=
        congrArg Lcd.frameReady hNext
      rw [hMode] at hDue
      have hEnd :
          t + (Position.mode t).budget +
              (ticks - (Position.mode t).budget) =
            t + ticks := by
        omega
      have hLater :
          Position.frames
              (t + (Position.mode t).budget) ≤
            Position.frames (t + ticks) := by
        unfold Position.frames
        omega
      have hDrain :
          r.drain vram oam ticks =
            (r.transition vram oam).drain vram oam
              (ticks - (Position.mode t).budget) := by
        rw [drain, hMode, if_pos hDue]
      rw [hMode] at ih
      obtain ⟨hEndBeam, hEndReady⟩ :=
        ih hNextStart
          (by rw [hBeam, hSuccMode, hNextMode])
          (by rw [hBeam, hSuccLine, hNextLine])
      rw [hDrain, hEndBeam, hEndReady, hEnd, hBeam, hReady,
        Beam.succ_lastTicks, hCompletes]
      constructor
      · rfl
      · rw [Bool.or_assoc]
        congr 1
        cases hDone : (Beam.at t).completes with
        | false =>
            rw [hDone] at hFrames
            rw [hFrames]
            rfl
        | true =>
            rw [hDone] at hFrames
            have hMore :
                Position.frames t <
                  Position.frames (t + ticks) := by
              simp only [Bool.toNat_true] at hFrames
              omega
            rw [decide_eq_true hMore]
            rfl
  | case2 ticks r hDue =>
      have hDrain :
          r.drain vram oam ticks =
            r.mapBeam fun b => { b with residue := ticks } := by
        rw [drain, if_neg hDue]
      rw [hMode] at hDue
      obtain ⟨hModeEnd, hLineEnd, hResidue, hFrames⟩ :=
        Position.stay hStart (Nat.lt_of_not_le hDue)
      rw [hDrain]
      constructor
      · unfold Beam.at
        rw [hModeEnd, hLineEnd, hResidue, ← hMode, ← hLine]
        rfl
      · rw [hFrames, decide_eq_false (Nat.lt_irrefl _),
          Bool.or_false]
        rfl

theorem advanceTo_regs
    (vram : VideoRam)
    (oam : SpriteRam)
    (now : Nat)
    (r : Raster) :
    (r.advanceTo vram oam now).lcd.regs = r.lcd.regs :=
  (drain_source vram oam _ _).regs

/-
  Following the machine from one tick count to a later one
  leads from the position at the one to that at the other.
-/
theorem advanceTo_beam
    (vram : VideoRam)
    (oam : SpriteRam)
    {t now : Nat}
    (hNow : t ≤ now)
    (r : Raster)
    (hBeam : r.lcd.beam = Beam.at t) :
    (r.advanceTo vram oam now).lcd.beam = Beam.at now ∧
      (r.advanceTo vram oam now).lcd.frameReady =
        (r.lcd.frameReady ||
          decide (Position.frames t <
            Position.frames now)) := by
  obtain ⟨hPast, hStart, hMode, hLine, hFrames⟩ :=
    Position.begin t
  have hTicks :
      r.lcd.beam.residue + (now - r.lcd.beam.lastTicks) =
        Position.residue t + (now - t) := by
    rw [hBeam]
    rfl
  have hLast : max r.lcd.beam.lastTicks now = now := by
    rw [hBeam]
    exact Nat.max_eq_right hNow
  have hEnd :
      t - Position.residue t +
          (Position.residue t + (now - t)) =
        now := by
    omega
  let q : Raster :=
    r.mapBeam fun b =>
      { b with lastTicks := max b.lastTicks now }
  have hModeQ :
      q.lcd.beam.mode =
        Position.mode (t - Position.residue t) := by
    rw [hMode]
    exact congrArg Beam.mode hBeam
  have hLineQ :
      q.lcd.beam.line =
        Position.line (t - Position.residue t) := by
    rw [hLine]
    exact congrArg Beam.line hBeam
  have hDrained :=
    drain_beam vram oam hStart
      (Position.residue t + (now - t)) q hModeQ hLineQ
  rw [hEnd, hFrames] at hDrained
  unfold advanceTo
  simp only [hTicks]
  constructor
  · have hLastQ : q.lcd.beam.lastTicks = now := hLast
    rw [hDrained.1, hLastQ]
    rfl
  · exact hDrained.2

end Raster

end Dmg
