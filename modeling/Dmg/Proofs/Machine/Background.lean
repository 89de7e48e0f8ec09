import Dmg.Proofs.Lcd.Layer
import Dmg.Proofs.Machine.Rows
import Dmg.Proofs.Memory.Footprint

/-
  What a machine composes of background and window when it
  draws a row.

  Main results:
    * `Board.background_write`
    * `Board.historic_background`
    * `Machine.Reachable.layer_composed`
-/

namespace Dmg

------------------------------------------------------------
-- The Palette
------------------------------------------------------------

namespace Board

/- Only a write to it changes the palette. -/
theorem background_write
    (b : Board)
    (addr : UInt16)
    (v : UInt8) :
    (b.write addr v).lcd.regs.background =
      if addr = 0xFF47 then .ofByte v
      else b.lcd.regs.background := by
  split
  · rename_i hAddr
    rw [hAddr]
    rfl
  · rename_i hAddr
    rcases b.lcd_write_cases addr v with
      ⟨tiles, hLcd⟩ | ⟨x, hLocation, hLcd⟩
    · rw [hLcd]
    · rw [hLcd]
      cases x with
      | background =>
          exact absurd
            (Location.eq_address hLocation (by decide)) hAddr
      | _ => rfl

/- The palette is the one that was last written. -/
theorem historic_background :
    Historic fun as b =>
      b.lcd.regs.background =
        .ofByte (Access.lastWritten 0xFF47 0xFC as) where
  fresh _ := rfl
  read as addr v b h := by
    rw [Access.lastWritten_read]
    exact h
  write as addr v b h := by
    rw [background_write, Access.lastWritten_write, h]
    split <;> rfl
  setInterrupts _ _ _ h := h
  advance as ticks now journal b h := by
    have hRegs :
        (b.advance ticks now journal).1.lcd.regs =
          b.lcd.regs :=
      Raster.advanceTo_regs b.videoRam b.spriteRam now _
    rw [hRegs]
    exact h
  setButton _ _ _ _ h := h
  takeFrame _ _ h := h

end Board

------------------------------------------------------------
-- Rows
------------------------------------------------------------

namespace Machine

/-
  Whenever a reachable machine leaves the mode that draws a
  line, the line is visible, and the row written into the
  picture has sprites drawn over background and window.  At
  every column these have the colour index that the bytes of
  video memory and the registers say, and the shade that the
  palette last written says.
-/
theorem Reachable.layer_composed
    {m : Machine}
    (h : m.Reachable)
    (journal : Journal) :
    let b := (m.executed journal).board
    (∃ as, History as m) ∧
      ∀ as q,
        History as m →
        q ∈ m.departures journal →
        q.lcd.beam.mode = .vramRead →
          let palette := Access.lastWritten 0xFF47 0xFC
            (as ++ (m.core journal).accesses)
          let indices := q.lcd.layerIndices b.videoRam
          let pixels := q.lcd.layerRow indices
          let row :=
            if q.lcd.spritesOn then
              q.lcd.drawSprites b.spriteRam indices pixels
            else pixels
          ∃ y : Fin screenHeight,
            q.lcd.beam.line = y ∧
              (q.transition b.videoRam
                  b.spriteRam).lcd.picture =
                q.lcd.picture.set y row ∧
              ∀ (x : Nat) (hx : x < screenWidth),
                let index := Layer.index b.lcd.regs b.videoRam
                  b.lcd.windowLine y x
                indices[x].val = index ∧
                  pixels[x] = Layer.shade palette index := by
  intro b
  refine ⟨h.history, ?_⟩
  intro as q hHistory hq hMode palette indices pixels row
  have hTime := h.onTime
  have hDecoded : b.Decoded :=
    executed_invariant invariant_decoded
      (h.board invariant_decoded) journal
  have hState := hTime.mem_departures hq
  have hRegs : q.lcd.regs = b.lcd.regs := by
    rw [hState]
  have hWindow : q.lcd.windowLine = b.lcd.windowLine := by
    rw [hState]
  have hTiles : q.lcd.tiles = .ofVideoRam b.videoRam := by
    rw [hState]
    exact hDecoded
  have hPalette :
      q.lcd.regs.background = Palette.ofByte palette := by
    rw [hRegs]
    exact executed_historic Board.historic_background as
      (hHistory.board Board.historic_background) journal
  have hVisible : q.lcd.beam.line < screenHeight := by
    rw [hState] at hMode ⊢
    exact Position.line_lt_of_vramRead hMode
  refine ⟨⟨q.lcd.beam.line, hVisible⟩, rfl, ?_, ?_⟩
  · exact Raster.transition_picture _ _ hMode rfl
  · intro x hx index
    have hIndex := Lcd.layerIndices_eq hTiles hx
    have hShade := Lcd.layerRow_eq hTiles hx hPalette
    rw [hRegs, hWindow] at hIndex hShade
    exact ⟨hIndex, hShade⟩

/-
  A machine about to draw its first row, with a pixel in the
  first tile and a palette from black to white.
-/
def painted : Machine :=
  let m := recursing.after 11
  let m := (m.write 0x8000 0x80 {}).1
  let m := (m.write 0x8001 0x80 {}).1
  (m.write 0xFF47 0x1B {}).1

/- The pixel is white, and next to it the row is black. -/
theorem layer_composed_painted :
    let b := (painted.executed {}).board
    ∃ q ∈ painted.departures {},
      q.lcd.beam.mode = .vramRead ∧
        (q.lcd.layerIndices b.videoRam)[0].val = 3 ∧
        (q.lcd.layerRow
          (q.lcd.layerIndices b.videoRam))[0] = .white ∧
        (q.lcd.layerRow
          (q.lcd.layerIndices b.videoRam))[1] = .black := by
  intro b
  have hProgram : (recursing.after 11).Reachable :=
    Reachable.after (.reset _ _) 11
  have hReachable : painted.Reachable :=
    ((hProgram.write _ _ _).write _ _ _).write _ _ _
  rcases hProgram.history with ⟨as, hBefore⟩
  have hHistory :=
    ((hBefore.write 0x8000 0x80 {}).write 0x8001 0x80 {}).write
      0xFF47 0x1B {}
  have hPalette :
      Access.lastWritten 0xFF47 0x1B
        (painted.core {}).accesses = 0x1B := by
    decide +kernel
  have hIndices :
      Layer.index b.lcd.regs b.videoRam b.lcd.windowLine 0 0 =
          3 ∧
        Layer.index b.lcd.regs b.videoRam b.lcd.windowLine 0
          1 = 0 := by
    decide +kernel
  have hTicks :
      painted.ticks = 244 ∧
        (painted.step {}).1.2.ticks = 268 := by
    decide +kernel
  have hTime := hReachable.onTime
  rcases hTime.departures_eq {} with ⟨q, -, hDepartures⟩
  rw [hTicks.1, hTicks.2, if_pos (by decide)] at hDepartures
  have hq : q ∈ painted.departures {} := by
    rw [hDepartures]
    exact List.mem_singleton.mpr rfl
  have hState := hTime.mem_departures hq
  have hMode : q.lcd.beam.mode = .vramRead := by
    rw [hState, hTicks.1]
    decide
  have hLine : q.lcd.beam.line = 0 := by
    rw [hState, hTicks.1]
    decide
  rcases Reachable.layer_composed hReachable {} with ⟨-, hLayer⟩
  rcases hLayer _ q hHistory hq hMode with
    ⟨y, hRow, -, hColumns⟩
  have hy : y.val = 0 := hRow.symm.trans hLine
  rw [hy, Access.lastWritten_append,
    Access.lastWritten_write, if_pos rfl, hPalette] at hColumns
  rcases hColumns 0 (by decide) with ⟨hFirst, hWhite⟩
  rcases hColumns 1 (by decide) with ⟨-, hBlack⟩
  rw [hIndices.1] at hFirst hWhite
  rw [hIndices.2] at hBlack
  exact ⟨q, hq, hMode, hFirst, hWhite, hBlack⟩

end Machine

end Dmg
