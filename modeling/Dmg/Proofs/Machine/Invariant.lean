import Dmg.Proofs.Lcd.Tiles
import Dmg.Proofs.Machine.History

/-
  What holds of the board of every reachable machine, whatever
  its history: that the tiles are decoded, for one.

  Key definitions include:
    * `Board.Invariant`

  Main results:
    * `Machine.Reachable.board`
    * `Machine.Reachable.tiles`
-/

namespace Dmg

/-
  A property that fresh boards have, and that no write, no
  change of the interrupt controller, no passing of time, no
  button and no taking of a frame takes from a board.
-/
structure Board.Invariant
    (P : Board → Prop) : Prop where
  fresh :
    ∀ rom, P { rom := rom }
  write :
    ∀ addr v b, P b → P (b.write addr v)
  setInterrupts :
    ∀ ic b, P b → P { b with interrupts := ic }
  advance :
    ∀ ticks now journal b,
      P b → P (b.advance ticks now journal).1
  setButton :
    ∀ button held b, P b → P (b.setButton button held)
  takeFrame :
    ∀ b, P b →
      P { b with lcd := { b.lcd with frameReady := false } }

variable {P : Board → Prop}

theorem Board.Invariant.historic
    (hP : Board.Invariant P) :
    Board.Historic fun _ b => P b where
  fresh := hP.fresh
  read _ _ _ _ h := h
  write _ := hP.write
  setInterrupts _ := hP.setInterrupts
  advance _ := hP.advance
  setButton _ := hP.setButton
  takeFrame _ := hP.takeFrame

namespace Machine

theorem executed_invariant
    (hP : Board.Invariant P)
    {m : Machine}
    (h : P m.board)
    (journal : Journal) :
    P (m.executed journal).board :=
  executed_historic hP.historic [] h journal

/- What is kept on all boards holds on reachable machines. -/
theorem Reachable.board
    (hP : Board.Invariant P)
    {m : Machine}
    (h : m.Reachable) :
    P m.board := by
  rcases h.history with ⟨as, hHistory⟩
  exact hHistory.board hP.historic

------------------------------------------------------------
-- Tiles
------------------------------------------------------------

theorem invariant_decoded :
    Board.Invariant Board.Decoded where
  fresh := Board.decoded_fresh
  write addr v _ h := h.write addr v
  setInterrupts _ _ h := h
  advance ticks now journal _ h := h.advance ticks now journal
  setButton _ _ _ h := h
  takeFrame _ h := h

/-
  The decoded tiles of a reachable machine: the colour index
  in a column of a row of a tile has its low and its high bit
  in the two bytes of the row.
-/
theorem Reachable.tiles
    {m : Machine}
    (h : m.Reachable)
    {t r x : Nat}
    (ht : t < 384)
    (hr : r < 8)
    (hx : x < 8) :
    have hRow : 8 * t + r < tileRowCount := by
      unfold tileRowCount
      omega
    have hHigh : 16 * t + 2 * r + 1 < 0x2000 := by
      omega
    let color := m.board.lcd.tiles[8 * t + r][x]
    let low := m.board.videoRam[16 * t + 2 * r]
    let high := m.board.videoRam[16 * t + 2 * r + 1]
    color.val =
        (bit low (7 - x)).toNat +
          2 * (bit high (7 - x)).toNat ∧
      color.val ≤ 3 := by
  intro hRow hHigh color low high
  have hDecoded : m.board.Decoded := h.board invariant_decoded
  have hTexel :=
    TileCache.texel_ofVideoRam m.board.videoRam hRow hx
  have hOffset : 2 * (8 * t + r) = 16 * t + 2 * r := by
    omega
  simp only [hOffset] at hTexel
  constructor
  · refine Eq.trans ?_ hTexel
    unfold Board.Decoded at hDecoded
    simp only [color, hDecoded]
  · exact Nat.le_of_lt_succ color.isLt

/- A new machine, after writes to the first row of tile 1. -/
def withTileRow : Machine :=
  let m := (({} : Machine).write 0x8010 0x3C {}).1
  (m.write 0x8011 0x7E {}).1

/- Its columns 1 and 2 have the colour indices 2 and 3. -/
theorem tiles_withTileRow :
    withTileRow.Reachable ∧
      withTileRow.board.lcd.tiles[8][1].val = 2 ∧
      withTileRow.board.lcd.tiles[8][2].val = 3 := by
  have hReachable : withTileRow.Reachable :=
    (Reachable.new.write 0x8010 0x3C {}).write 0x8011 0x7E {}
  have hLow : withTileRow.board.videoRam[16] = 0x3C := by
    decide +kernel
  have hHigh : withTileRow.board.videoRam[17] = 0x7E := by
    decide +kernel
  have hColumn {x : Nat} (hx : x < 8) :=
    (Reachable.tiles hReachable
      (t := 1) (by decide) (r := 0) (by decide) hx).1
  simp only [hLow, hHigh] at hColumn
  exact ⟨hReachable, hColumn (x := 1) (by decide),
    hColumn (x := 2) (by decide)⟩

end Machine

end Dmg
