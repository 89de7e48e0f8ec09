import Dmg.Proofs.Lcd.Tiles

/-
  What background and window look like, told from the bytes of
  video memory alone.

  Addresses are the processor's.  An entry of a tile map names
  a tile, two bytes of the tile name a row of colour indices,
  and the palette register names their shades.

  Key definitions include:
    * `Layer.byteAt`
    * `Layer.tileAddress`
    * `Layer.texel`
    * `Layer.index`
    * `Layer.shade`

  Main results:
    * `Lcd.texel_eq`
    * `Lcd.layerIndices_eq`
    * `Lcd.layerRow_eq`
-/

namespace Dmg

namespace Layer

------------------------------------------------------------
-- Video Memory
------------------------------------------------------------

/- The byte of video memory at an address. -/
def byteAt
    (vram : VideoRam)
    (addr : Int) : UInt8 :=
  vram[(addr - 0x8000).toNat]?.getD 0xFF

/-
  The address of the tile that a map entry names: counted from
  0x8000, or as a signed number from 0x9000.
-/
def tileAddress
    (control entry : UInt8) : Int :=
  if bit control 4 then 0x8000 + 16 * (entry.toNat : Int)
  else 0x9000 + 16 * entry.toInt8.toInt

/- The colour index at a point of a tile map. -/
def texel
    (vram : VideoRam)
    (control : UInt8)
    (high : Bool)
    (u v : Nat) : Nat :=
  let map : Nat := if high then 0x9C00 else 0x9800
  let entry := byteAt vram (map + 32 * (v / 8) + u / 8 : Nat)
  let row := tileAddress control entry + 2 * (v % 8 : Nat)
  let column := 7 - u % 8
  (bit (byteAt vram row) column).toNat +
    2 * (bit (byteAt vram (row + 1)) column).toNat

------------------------------------------------------------
-- Lines
------------------------------------------------------------

/-
  The colour index at a column of a line: zero if the layer is
  off, from the window where it covers the background, else
  from the background.
-/
def index
    (regs : LcdRegisters)
    (vram : VideoRam)
    (windowLine : UInt8)
    (y x : Nat) : Nat :=
  let control := regs.control
  let wx := regs.windowX.toNat
  if ¬ (bit control 7 ∧ bit control 0) then 0
  else if bit control 5 ∧ regs.windowY.toNat ≤ y ∧
      wx ≤ 166 ∧ wx ≤ x + 7 then
    texel vram control (bit control 6) (x + 7 - wx)
      windowLine.toNat
  else
    texel vram control (bit control 3)
      ((x + regs.scrollX.toNat) % 256)
      ((y + regs.scrollY.toNat) % 256)

/- The shade of a colour index under a palette register. -/
def shade
    (palette : UInt8)
    (i : Nat) : Shade :=
  Shade.ofBits (bit palette (2 * i + 1))
    (bit palette (2 * i))

------------------------------------------------------------
-- Tiles
------------------------------------------------------------

theorem byteAt_eq
    (vram : VideoRam)
    {i : Nat}
    (hi : i < 0x2000)
    {addr : Int}
    (hAddr : addr = 0x8000 + i) :
    byteAt vram addr = vram[i] := by
  have hOffset : (addr - 0x8000).toNat = i := by omega
  unfold byteAt
  rw [hOffset, Vector.getElem?_eq_getElem hi]
  rfl

theorem toInt_toInt8
    (v : UInt8) :
    v.toInt8.toInt =
      if v.toNat < 128 then (v.toNat : Int)
      else v.toNat - 256 := by
  have hBits : v.toInt8.toInt = v.toBitVec.toInt := rfl
  have hNat : v.toBitVec.toNat = v.toNat := rfl
  rw [hBits, BitVec.toInt_eq_toNat_cond, hNat]
  split <;> split <;> omega

/- Both ways of counting tiles lead to the same addresses. -/
theorem tileAddress_eq
    (control entry : UInt8) :
    tileAddress control entry =
      0x8000 + 16 * (Lcd.tileIndex control entry : Int) := by
  unfold tileAddress Lcd.tileIndex
  split
  · rfl
  · rw [toInt_toInt8]
    split <;> omega

example :
    tileAddress 0x00 0x80 = 0x8800 := by
  decide

theorem tileRow_lt
    (control entry : UInt8)
    {r : Nat}
    (hr : r < 8) :
    Lcd.tileIndex control entry * 8 + r < tileRowCount := by
  have hTile := Lcd.tileIndex_lt control entry
  unfold tileRowCount
  omega

theorem mapPlace_lt
    (high : Bool)
    (u v : UInt8) :
    Lcd.mapBase high + v.toNat / 8 * 32 + u.toNat / 8 <
      0x2000 := by
  have hu := u.toNat_lt
  have hv := v.toNat_lt
  have hBase := Lcd.mapBase_le high
  omega

/- The entry of a tile map for a point. -/
theorem byteAt_entry
    (vram : VideoRam)
    (high : Bool)
    (u v : UInt8) :
    have hPlace := mapPlace_lt high u v
    byteAt vram
        (((if high then 0x9C00 else 0x9800) +
          32 * (v.toNat / 8) + u.toNat / 8 : Nat) : Int) =
      vram[Lcd.mapBase high + v.toNat / 8 * 32 +
        u.toNat / 8] := by
  intro hPlace
  apply byteAt_eq vram hPlace
  unfold Lcd.mapBase
  split <;> omega

/- The two bytes of a row of the tile that an entry names. -/
theorem byteAt_row
    (vram : VideoRam)
    (control entry : UInt8)
    {r : Nat}
    (hr : r < 8) :
    have hHigh :=
      TileCache.highByte_lt (tileRow_lt control entry hr)
    let row := tileAddress control entry + 2 * (r : Int)
    let i := Lcd.tileIndex control entry * 8 + r
    byteAt vram row = vram[2 * i] ∧
      byteAt vram (row + 1) = vram[2 * i + 1] := by
  intro hHigh row i
  have hTile := tileAddress_eq control entry
  constructor
  · apply byteAt_eq
    unfold row i
    omega
  · apply byteAt_eq
    unfold row i
    omega

end Layer

namespace Lcd

/- The decoded tiles show what the bytes say. -/
theorem texel_eq
    {lcd : Lcd}
    {vram : VideoRam}
    (hTiles : lcd.tiles = .ofVideoRam vram)
    (high : Bool)
    (u v : UInt8) :
    (lcd.texel vram high u v).val =
      Layer.texel vram lcd.regs.control high u.toNat
        v.toNat := by
  have hColumn : u.toNat % 8 < 8 := Nat.mod_lt _ (by decide)
  have hLine : v.toNat % 8 < 8 := Nat.mod_lt _ (by decide)
  unfold Layer.texel
  simp only [Layer.byteAt_entry]
  rcases Layer.byteAt_row vram lcd.regs.control _ hLine with
    ⟨hLow, hHigh⟩
  rw [hLow, hHigh,
    ← TileCache.texel_ofVideoRam vram
      (Layer.tileRow_lt lcd.regs.control _ hLine) hColumn]
  unfold Lcd.texel
  simp only [hTiles]

section Columns

variable {lcd : Lcd} {vram : VideoRam}
variable (hTiles : lcd.tiles = .ofVideoRam vram)
variable {x : Nat} (hx : x < screenWidth)

include hTiles

/- The background scrolls around its map. -/
theorem backgroundIndices_eq :
    ((lcd.backgroundIndices vram)[x]).val =
      Layer.texel vram lcd.regs.control
        (bit lcd.regs.control 3)
        ((x + lcd.regs.scrollX.toNat) % 256)
        ((lcd.beam.line + lcd.regs.scrollY.toNat) % 256) := by
  have hScroll (n : Nat) (v : UInt8) :
      (n.toUInt8 + v).toNat = (n + v.toNat) % 256 := by
    rw [UInt8.toNat_add]
    exact Nat.mod_add_mod n 256 v.toNat
  unfold backgroundIndices
  rw [Vector.getElem_ofFn, texel_eq hTiles, hScroll, hScroll]

/- The window begins seven columns before its origin. -/
theorem windowIndices_eq
    (under : IndexRow) :
    ((lcd.windowIndices vram under)[x]).val =
      if lcd.regs.windowX.toNat ≤ x + 7 then
        Layer.texel vram lcd.regs.control
          (bit lcd.regs.control 6)
          (x + 7 - lcd.regs.windowX.toNat)
          lcd.windowLine.toNat
      else (under[x]).val := by
  have hColumn :
      (x + 7 - lcd.regs.windowX.toNat).toUInt8.toNat =
        x + 7 - lcd.regs.windowX.toNat := by
    have hRight : x < 160 := hx
    exact Nat.mod_eq_of_lt (by omega)
  unfold windowIndices
  rw [Vector.getElem_ofFn]
  split
  · rw [texel_eq hTiles, hColumn]
  · rfl

/-
  The colour indices that are composed are those that video
  memory describes.
-/
theorem layerIndices_eq :
    ((lcd.layerIndices vram)[x]).val =
      Layer.index lcd.regs vram lcd.windowLine
        lcd.beam.line x := by
  have hOn : lcd.layerOn = true ↔
      bit lcd.regs.control 7 ∧ bit lcd.regs.control 0 :=
    Bool.and_eq_true_iff
  have hShows : lcd.showsWindow = true ↔
      bit lcd.regs.control 5 ∧
        lcd.regs.windowY.toNat ≤ lcd.beam.line ∧
        lcd.regs.windowX.toNat ≤ 166 := by
    unfold showsWindow
    simp only [Bool.and_eq_true, decide_eq_true_eq, and_assoc]
  have hBackground := backgroundIndices_eq hTiles hx
  unfold layerIndices Layer.index
  simp only [← hOn, ite_not]
  split
  · by_cases hWindow : lcd.showsWindow
    · obtain ⟨hEnabled, hReached, hInside⟩ :=
        hShows.mp hWindow
      simp only [hWindow, if_true, hEnabled, hReached,
        hInside, true_and]
      rw [windowIndices_eq hTiles hx, hBackground]
    · have hNone :
          ¬ (bit lcd.regs.control 5 ∧
            lcd.regs.windowY.toNat ≤ lcd.beam.line ∧
            lcd.regs.windowX.toNat ≤ 166 ∧
            lcd.regs.windowX.toNat ≤ x + 7) := by
        rintro ⟨hEnabled, hReached, hInside, -⟩
        exact hWindow (hShows.mpr ⟨hEnabled, hReached, hInside⟩)
      rw [if_neg hNone]
      simp only [hWindow]
      exact hBackground
  · rw [Vector.getElem_replicate]
    rfl

/- And so are their shades. -/
theorem layerRow_eq
    {palette : UInt8}
    (hPalette :
      lcd.regs.background = Palette.ofByte palette) :
    (lcd.layerRow (lcd.layerIndices vram))[x] =
      Layer.shade palette
        (Layer.index lcd.regs vram lcd.windowLine
          lcd.beam.line x) := by
  unfold layerRow
  rw [Vector.getElem_map, hPalette, ← layerIndices_eq hTiles hx]
  exact Vector.getElem_ofFn _

end Columns

end Lcd

end Dmg
