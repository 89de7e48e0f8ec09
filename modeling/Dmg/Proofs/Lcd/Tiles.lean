import Dmg.Proofs.Board
import Dmg.Proofs.Lcd.Transition

/-
  The decoded tiles are those that video memory describes.

  Tiles are decoded one row at a time, when one of the two
  bytes of the row is written.  That is enough: at all times
  they are what decoding all of video memory would give.

  Key definitions include:
    * `TileCache.ofVideoRam`
    * `Board.Decoded`

  Main results:
    * `TileCache.texel_ofVideoRam`
    * `TileCache.update_ofVideoRam`
    * `Board.Decoded.write`
    * `Board.Decoded.advance`
-/

namespace Dmg

------------------------------------------------------------
-- Decoding All Of Video Memory
------------------------------------------------------------

theorem colorIndex_val
    (low high : Bool) :
    (colorIndex low high).val =
      low.toNat + 2 * high.toNat := by
  cases low <;> cases high <;> rfl

namespace TileCache

theorem highByte_lt
    {i : Nat}
    (hi : i < tileRowCount) :
    2 * i + 1 < 0x2000 := by
  unfold tileRowCount at hi
  omega

/- All tile rows, decoded from video memory. -/
def ofVideoRam
    (vram : VideoRam) : TileCache :=
  Vector.ofFn fun i =>
    have hHigh := highByte_lt i.isLt
    TileRow.decode vram[2 * i.val] vram[2 * i.val + 1]

variable (vram : VideoRam) {i : Nat}

/- The two bits of a colour index are bits of two bytes. -/
theorem texel_ofVideoRam
    (hi : i < tileRowCount)
    {x : Nat}
    (hx : x < 8) :
    have hHigh := highByte_lt hi
    (ofVideoRam vram)[i][x].val =
      (bit vram[2 * i] (7 - x)).toNat +
        2 * (bit vram[2 * i + 1] (7 - x)).toNat := by
  intro hHigh
  unfold ofVideoRam TileRow.decode
  simp only [Vector.getElem_ofFn]
  exact colorIndex_val _ _

/- Empty video memory describes blank tiles. -/
theorem ofVideoRam_replicate :
    ofVideoRam (.replicate 0x2000 0) = blank := by
  have hDecode : TileRow.decode 0 0 = .replicate 8 0 := by
    decide
  apply Vector.ext
  intro i hi
  unfold ofVideoRam blank
  simp only [Vector.getElem_ofFn, Vector.getElem_replicate]
  exact hDecode

/- Decoding the row of a byte follows a write to it. -/
theorem update_ofVideoRam
    (v : UInt8)
    (hi : i < tileDataSize)
    (hVram : i < 0x2000) :
    (ofVideoRam vram).update (vram.set i v) i hi =
      ofVideoRam (vram.set i v) := by
  apply Vector.ext
  intro k hk
  have hHigh := highByte_lt hk
  unfold update
  by_cases hRow : i / 2 = k
  · subst hRow
    have hTwice : i / 2 * 2 = 2 * (i / 2) :=
      Nat.mul_comm _ _
    unfold ofVideoRam
    simp only [Vector.getElem_set_self, Vector.getElem_ofFn,
      hTwice]
  · have hLow : i ≠ 2 * k := by omega
    have hOther : i ≠ 2 * k + 1 := by omega
    unfold ofVideoRam
    simp only [Vector.getElem_set_ne _ _ hRow,
      Vector.getElem_ofFn, Vector.getElem_set_ne _ _ hLow,
      Vector.getElem_set_ne _ _ hOther]

/- The tile maps describe no tiles. -/
theorem ofVideoRam_set_map
    (v : UInt8)
    (hi : ¬ i < tileDataSize)
    (hVram : i < 0x2000) :
    ofVideoRam (vram.set i v) = ofVideoRam vram := by
  apply Vector.ext
  intro k hk
  have hHigh := highByte_lt hk
  have hLow : i ≠ 2 * k := by
    unfold tileDataSize tileRowCount at *
    omega
  have hOther : i ≠ 2 * k + 1 := by
    unfold tileDataSize tileRowCount at *
    omega
  unfold ofVideoRam
  simp only [Vector.getElem_ofFn,
    Vector.getElem_set_ne _ _ hLow,
    Vector.getElem_set_ne _ _ hOther]

end TileCache

------------------------------------------------------------
-- The Board
------------------------------------------------------------

namespace Board

/- The tiles are decoded as video memory describes them. -/
def Decoded
    (b : Board) : Prop :=
  b.lcd.tiles = .ofVideoRam b.videoRam

theorem decoded_fresh
    (rom : Vector UInt8 romSize) :
    Decoded { rom := rom } :=
  TileCache.ofVideoRam_replicate.symm

theorem Decoded.writeVideo
    {b : Board}
    (h : b.Decoded)
    (i : Fin 0x2000)
    (v : UInt8) :
    (b.writeVideo i v).Decoded := by
  unfold Decoded at h ⊢
  unfold Board.writeVideo
  by_cases hTile : i.val < tileDataSize
  · simp only [dif_pos hTile, h]
    exact TileCache.update_ofVideoRam _ v hTile i.isLt
  · simp only [dif_neg hTile, h]
    exact (TileCache.ofVideoRam_set_map _ v hTile i.isLt).symm

theorem Decoded.copySprites
    {b : Board}
    (h : b.Decoded)
    (page : UInt8) :
    (b.copySprites page).Decoded := by
  rcases copySprites_cases b page with
    ⟨ram, registers, -, -, hCopy⟩
  rw [hCopy]
  exact h

/- Writes at any address keep the tiles decoded. -/
theorem Decoded.write
    {b : Board}
    (h : b.Decoded)
    (addr : UInt16)
    (v : UInt8) :
    (b.write addr v).Decoded := by
  unfold Board.write
  cases Location.ofAddress addr with
  | videoRam i => exact h.writeVideo i v
  | spriteCopy => exact h.copySprites v
  | _ => exact h

/- Time changes neither video memory nor the tiles. -/
theorem Decoded.advance
    {b : Board}
    (h : b.Decoded)
    (ticks now : Nat)
    (journal : Journal) :
    (b.advance ticks now journal).1.Decoded := by
  have hTiles :
      (b.advance ticks now journal).1.lcd.tiles =
        b.lcd.tiles :=
    (Raster.drain_source b.videoRam b.spriteRam _ _).tiles
  exact hTiles.trans h

end Board

end Dmg
