import Dmg.Lcd.Picture

/-
  Tile patterns decoded from video memory.

  A tile row is two bytes, the first holding the low and the
  second the high bit of the colour index of each column, the
  leftmost column in bit 7.  All rows of all tiles follow one
  another, so that row `r` of tile `t` is row `8 * t + r`.

  Key definitions include:
    * `VideoRam`
    * `TileRow`
    * `TileRow.decode`
    * `TileCache`
    * `TileCache.update`
-/

namespace Dmg

/- The memory behind the addresses 0x8000 to 0x9FFF. -/
abbrev VideoRam := Vector UInt8 0x2000

/- Eight colour indices, leftmost column first. -/
abbrev TileRow := Vector ColorIndex 8

/- The size of the part of video memory that holds tiles. -/
def tileDataSize : Nat := 0x1800

/- The number of tile rows: 384 tiles of eight rows. -/
def tileRowCount : Nat := 3072

/- The colour index with the given low and high bit. -/
def colorIndex : Bool → Bool → ColorIndex
  | false, false => 0
  | true, false => 1
  | false, true => 2
  | true, true => 3

/- The row that two bytes describe. -/
def TileRow.decode
    (low high : UInt8) : TileRow :=
  Vector.ofFn fun x =>
    colorIndex (bit low (7 - x)) (bit high (7 - x))

/- All tile rows. -/
abbrev TileCache := Vector TileRow tileRowCount

namespace TileCache

/- The rows of empty video memory. -/
def blank : TileCache :=
  .replicate tileRowCount (.replicate 8 0)

/- Decode the row that holds the tile byte at an offset. -/
def update
    (cache : TileCache)
    (vram : VideoRam)
    (offset : Nat)
    (h : offset < tileDataSize) : TileCache :=
  have hRow : offset / 2 < tileRowCount := by
    unfold tileDataSize at h
    unfold tileRowCount
    omega
  have hVram : offset / 2 * 2 + 1 < 0x2000 := by
    unfold tileRowCount at hRow
    omega
  cache.set (offset / 2)
    (TileRow.decode vram[offset / 2 * 2]
      vram[offset / 2 * 2 + 1])

end TileCache

end Dmg
