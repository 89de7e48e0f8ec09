import Dmg.Proofs.Lcd.Position

/-
  The controller may be driven in steps of any size.

  It is told a tick count from time to time and makes the
  transitions that have come due since.  How often it is told
  makes no difference: the transitions are the same ones, in
  the same order, and what is left over is kept for the next
  time.

  Key definitions include:
    * `Raster.setClock`
    * `Raster.follow`

  Main results:
    * `Raster.transition_setClock`
    * `Raster.drain_add`
    * `Raster.advanceTo_invariant`
    * `Raster.advanceTo_advanceTo`
    * `Raster.follow_eq_advanceTo`
-/

namespace Dmg

namespace Raster

------------------------------------------------------------
-- Accounts Of Time
------------------------------------------------------------

/-
  Change the account of time: the tick count that has been
  followed, and the ticks spent in the mode.
-/
def setClock
    (last residue : Nat)
    (r : Raster) : Raster :=
  r.mapBeam fun b =>
    { b with lastTicks := last, residue := residue }

section Transitions

variable (last residue : Nat) (r : Raster)

theorem requestStatus_setClock
    (m : Message) :
    (r.setClock last residue).requestStatus m =
      (r.requestStatus m).setClock last residue := by
  rcases r with ⟨lcd, ic, journal⟩
  change (if ic.isEnabled .lcdStat then _ else _) =
    setClock last residue
      (if ic.isEnabled .lcdStat then _ else _)
  split <;> rfl

theorem requestSelected_setClock
    (select : Option Nat)
    (m : Message) :
    (r.setClock last residue).requestSelected select m =
      (r.requestSelected select m).setClock last residue := by
  cases select with
  | none => rfl
  | some i =>
      change
        (if r.lcd.regs.selected i then
          (r.setClock last residue).requestStatus m
          else r.setClock last residue) =
        setClock last residue
          (if r.lcd.regs.selected i then r.requestStatus m
            else r)
      split
      · exact requestStatus_setClock last residue r m
      · rfl

theorem enter_setClock
    (mode : Mode) :
    (r.setClock last residue).enter mode =
      (r.enter mode).setClock last residue := by
  let q := r.mapBeam fun b => { b with mode := mode }
  unfold enter
  by_cases hBlank : mode = .vblank
  · simp only [if_pos hBlank]
    exact requestSelected_setClock last residue
      q.completeFrame _ _
  · simp only [if_neg hBlank]
    exact requestSelected_setClock last residue q _ _

theorem reachLine_setClock
    (line : Nat) :
    (r.setClock last residue).reachLine line =
      (r.reachLine line).setClock last residue := by
  let q := r.mapBeam fun b => { b with line := line }
  change
    (if q.lcd.coincides then
      (q.setClock last residue).requestSelected (some 6) _
      else q.setClock last residue) =
    setClock last residue
      (if q.lcd.coincides then
        q.requestSelected (some 6) _ else q)
  split
  · exact requestSelected_setClock last residue q _ _
  · rfl

theorem drawLine_setClock
    (vram : VideoRam)
    (oam : SpriteRam)
    (hMode : r.lcd.beam.mode = .vramRead) :
    (r.setClock last residue).mapLcd (·.drawLine vram oam) =
      (r.mapLcd (·.drawLine vram oam)).setClock
        last residue := by
  have hClocked :
      (r.setClock last residue).lcd.beam.mode = .vramRead :=
    hMode
  simp only [mapLcd, drawLine_eq vram oam hMode,
    drawLine_eq vram oam hClocked]
  rfl

/- A transition does not look at the account of time. -/
theorem transition_setClock
    (vram : VideoRam)
    (oam : SpriteRam) :
    (r.setClock last residue).transition vram oam =
      (r.transition vram oam).setClock last residue := by
  have hBeam :
      (r.setClock last residue).lcd.beam =
        { r.lcd.beam with
          lastTicks := last, residue := residue } := rfl
  unfold transition
  rw [hBeam]
  cases hMode : r.lcd.beam.mode with
  | oamScan => exact enter_setClock last residue r _
  | vramRead =>
      simp only [drawLine_setClock _ _ _ _ _ hMode,
        enter_setClock]
  | hblank =>
      simp only [reachLine_setClock, enter_setClock]
  | vblank =>
      let q := r.mapLcd fun lcd => { lcd with windowLine := 0 }
      have hWindow :
          (r.setClock last residue).mapLcd
              (fun lcd => { lcd with windowLine := 0 }) =
            q.setClock last residue := rfl
      simp only
      split
      · rw [hWindow, reachLine_setClock, enter_setClock]
      · exact reachLine_setClock last residue r _

end Transitions

------------------------------------------------------------
-- Passing Time
------------------------------------------------------------

section Time

variable (vram : VideoRam) (oam : SpriteRam)

theorem drain_of_due
    {ticks : Nat}
    {r : Raster}
    (hDue : r.lcd.beam.mode.budget ≤ ticks) :
    r.drain vram oam ticks =
      (r.transition vram oam).drain vram oam
        (ticks - r.lcd.beam.mode.budget) := by
  rw [drain, if_pos hDue]

theorem drain_of_short
    {ticks : Nat}
    {r : Raster}
    (hShort : ¬ r.lcd.beam.mode.budget ≤ ticks) :
    r.drain vram oam ticks =
      r.setClock r.lcd.beam.lastTicks ticks := by
  rw [drain, if_neg hShort]
  rfl

/- Nor does the passing of time, which makes a new account. -/
theorem drain_setClock
    (last residue ticks : Nat)
    (r : Raster) :
    (r.setClock last residue).drain vram oam ticks =
      let q := r.drain vram oam ticks
      q.setClock last q.lcd.beam.residue := by
  induction ticks, r using drain.induct vram oam with
  | case1 ticks r hDue ih =>
      have hClocked :
          (r.setClock last residue).lcd.beam.mode.budget ≤
            ticks := hDue
      rw [drain_of_due vram oam hClocked,
        drain_of_due vram oam hDue, transition_setClock]
      exact ih
  | case2 ticks r hShort =>
      have hClocked :
          ¬ (r.setClock last residue).lcd.beam.mode.budget ≤
            ticks := hShort
      rw [drain_of_short vram oam hClocked,
        drain_of_short vram oam hShort]
      rfl

/- What has been spent in the mode is told in other ways. -/
theorem drain_setResidue
    (residue ticks : Nat)
    (r : Raster) :
    (r.setClock r.lcd.beam.lastTicks residue).drain vram oam
        ticks =
      r.drain vram oam ticks := by
  have hSelf :
      r.setClock r.lcd.beam.lastTicks r.lcd.beam.residue =
        r := rfl
  rw [drain_setClock, ← drain_setClock vram oam
    r.lcd.beam.lastTicks r.lcd.beam.residue, hSelf]

/-
  Time may pass in two parts: what the first leaves over goes
  to the second.
-/
theorem drain_add
    (first second : Nat)
    (r : Raster) :
    r.drain vram oam (first + second) =
      let q := r.drain vram oam first
      q.drain vram oam (q.lcd.beam.residue + second) := by
  induction first, r using drain.induct vram oam with
  | case1 first r hDue ih =>
      have hBoth :
          r.lcd.beam.mode.budget ≤ first + second :=
        Nat.le_add_right_of_le hDue
      rw [drain_of_due vram oam hDue,
        drain_of_due vram oam hBoth,
        Nat.sub_add_comm hDue]
      exact ih
  | case2 first r hShort =>
      -- Nothing was done in the first part: all is left over.
      rw [drain_of_short vram oam hShort]
      exact (drain_setResidue vram oam first _ r).symm

/- Following the machine is passing the time since. -/
theorem advanceTo_eq
    (now : Nat)
    (r : Raster) :
    r.advanceTo vram oam now =
      let b := r.lcd.beam
      let q :=
        r.drain vram oam (b.residue + (now - b.lastTicks))
      q.setClock (max b.lastTicks now) q.lcd.beam.residue :=
  drain_setClock vram oam (max r.lcd.beam.lastTicks now)
    r.lcd.beam.residue _ r

/-
  What every transition keeps is kept for any time, if the
  account of time does not matter for it.
-/
theorem advanceTo_invariant
    {P : Raster → Prop}
    (hTransition : ∀ r, P r → P (r.transition vram oam))
    (hClock :
      ∀ last residue r, P r → P (r.setClock last residue))
    (now : Nat)
    {r : Raster}
    (h : P r) :
    P (r.advanceTo vram oam now) := by
  have hDrain
      (ticks : Nat)
      (q : Raster)
      (hq : P q) :
      P (q.drain vram oam ticks) := by
    induction ticks, q using drain.induct vram oam with
    | case1 ticks q hDue ih =>
        rw [drain_of_due vram oam hDue]
        exact ih (hTransition q hq)
    | case2 ticks q hShort =>
        rw [drain_of_short vram oam hShort]
        exact hClock _ _ q hq
  rw [advanceTo_eq]
  exact hClock _ _ _ (hDrain _ r h)

/-
  A stop on the way makes no difference, not even one at a
  tick count that has been passed already.
-/
theorem advanceTo_advanceTo
    {u t : Nat}
    (h : u ≤ t)
    (r : Raster) :
    (r.advanceTo vram oam u).advanceTo vram oam t =
      r.advanceTo vram oam t := by
  let b := r.lcd.beam
  let first := b.residue + (u - b.lastTicks)
  let last := max b.lastTicks u
  let q := r.drain vram oam first
  let p := r.drain vram oam (first + (t - last))
  have hBoth :
      q.drain vram oam (q.lcd.beam.residue + (t - last)) = p :=
    (drain_add vram oam first (t - last) r).symm
  have hTicks :
      first + (t - last) =
        b.residue + (t - b.lastTicks) := by
    omega
  have hLast : max last t = max b.lastTicks t := by
    omega
  calc (r.advanceTo vram oam u).advanceTo vram oam t
      = (q.setClock last q.lcd.beam.residue).advanceTo
          vram oam t := by
        rw [advanceTo_eq vram oam u r]
    _ = p.setClock (max last t) p.lcd.beam.residue := by
        rw [advanceTo_eq, ← hBoth]
        simp only [drain_setClock]
        rfl
    _ = r.advanceTo vram oam t := by
        rw [advanceTo_eq vram oam t r, hLast]
        unfold p
        rw [hTicks]

------------------------------------------------------------
-- Batches
------------------------------------------------------------

/- Follow the machine to one tick count after the other. -/
def follow
    (r : Raster)
    (ts : List Nat) : Raster :=
  ts.foldl (fun r t => r.advanceTo vram oam t) r

/- Only the latest of the tick counts matters. -/
theorem follow_concat
    {ts : List Nat}
    {t : Nat}
    (h : ∀ u ∈ ts, u ≤ t)
    (r : Raster) :
    r.follow vram oam (ts ++ [t]) =
      r.advanceTo vram oam t := by
  induction ts generalizing r with
  | nil => rfl
  | cons u ts ih =>
      rcases List.forall_mem_cons.mp h with ⟨hFirst, hRest⟩
      calc r.follow vram oam (u :: ts ++ [t])
          = (r.advanceTo vram oam u).follow vram oam
              (ts ++ [t]) := rfl
        _ = (r.advanceTo vram oam u).advanceTo vram oam t :=
            ih hRest _
        _ = r.advanceTo vram oam t :=
            advanceTo_advanceTo vram oam hFirst r

/- Nothing happens before a mode is over. -/
theorem advanceTo_lastTicks
    {r : Raster}
    (h : r.lcd.beam.residue < r.lcd.beam.mode.budget) :
    r.advanceTo vram oam r.lcd.beam.lastTicks = r := by
  have hShort :
      ¬ r.lcd.beam.mode.budget ≤ r.lcd.beam.residue :=
    Nat.not_le_of_lt h
  rw [advanceTo_eq]
  simp only [Nat.sub_self, Nat.add_zero, Nat.max_self,
    drain_of_short vram oam hShort]
  rfl

/-
  However often the controller is told a tick count on the
  way to one, it ends in the same state, down to the picture,
  the interrupts requested and what has been reported.
-/
theorem follow_eq_advanceTo
    {r : Raster}
    (hResidue :
      r.lcd.beam.residue < r.lcd.beam.mode.budget)
    {ts : List Nat}
    (hOrder :
      (r.lcd.beam.lastTicks :: ts).Pairwise (· ≤ ·)) :
    r.follow vram oam ts =
      r.advanceTo vram oam
        (ts.getLastD r.lcd.beam.lastTicks) := by
  rcases List.eq_nil_or_concat ts with hNone | ⟨us, t, hLast⟩
  · rw [hNone]
    exact (advanceTo_lastTicks vram oam hResidue).symm
  · rw [List.concat_eq_append] at hLast
    have hSome : (us ++ [t]).Pairwise (· ≤ ·) := by
      rw [← hLast]
      exact (List.pairwise_cons.mp hOrder).2
    have hLate : ∀ u ∈ us, u ≤ t := by
      intro u hu
      exact (List.pairwise_append.mp hSome).2.2 u hu t
        List.mem_cons_self
    rw [hLast, follow_concat vram oam hLate,
      List.getLastD_concat]

end Time

/- A controller as a program finds it, and empty memories. -/
def atEntry : Raster where
  lcd := {}
  interrupts := {}
  journal := {}

/-
  Told of six ticks on the way, with most of a frame between
  two of them, it ends at the beginning of the third frame.
-/
theorem follow_twoFrames :
    let ts := [0, 79, 80, 65663, 65664, 140448]
    let vram : VideoRam := .replicate 0x2000 0
    let oam : SpriteRam := .replicate 0x100 0
    atEntry.lcd.beam.residue <
        atEntry.lcd.beam.mode.budget ∧
      (atEntry.lcd.beam.lastTicks :: ts).Pairwise (· ≤ ·) ∧
      (atEntry.follow vram oam ts).lcd.beam =
        { lastTicks := 140448 } := by
  intro ts vram oam
  have hResidue :
      atEntry.lcd.beam.residue <
        atEntry.lcd.beam.mode.budget := by
    decide
  have hOrder :
      (atEntry.lcd.beam.lastTicks :: ts).Pairwise
        (· ≤ ·) := by
    decide
  have hStart : atEntry.lcd.beam = Beam.at 0 := by
    decide
  have hEnd : Beam.at 140448 = { lastTicks := 140448 } := by
    decide
  have hReached :=
    advanceTo_beam vram oam (Nat.zero_le 140448) atEntry hStart
  refine ⟨hResidue, hOrder, ?_⟩
  rw [follow_eq_advanceTo vram oam hResidue hOrder, ← hEnd]
  exact hReached.1

end Raster

end Dmg
