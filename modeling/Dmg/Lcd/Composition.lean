import Dmg.Lcd.Controller

/-
  Composition of one line: the background, the window over
  it, and the sprites over both.

  Key definitions include:
    * `Lcd.texel`
    * `Lcd.backgroundIndices`
    * `Lcd.windowIndices`
    * `Lcd.layerIndices`
    * `Sprite`
    * `Lcd.drawSprite`
    * `Lcd.composeRow`
    * `Lcd.drawLine`
-/

namespace Dmg

/- The memory behind the addresses 0xFE00 to 0xFEFF. -/
abbrev SpriteRam := Vector UInt8 0x100

/- The colour indices of one line. -/
abbrev IndexRow := Vector ColorIndex screenWidth

namespace Lcd

------------------------------------------------------------
-- Tile Maps
------------------------------------------------------------

/- The offset in video memory of one of the two tile maps. -/
def mapBase
    (high : Bool) : Nat :=
  if high then 0x1C00 else 0x1800

theorem mapBase_le
    (high : Bool) :
    mapBase high ≤ 0x1C00 := by
  cases high <;> decide

/-
  The tile that a map entry names: counted from the first
  tile, or, with LCDC bit 4 clear, as a signed number from
  tile 256.
-/
def tileIndex
    (control entry : UInt8) : Nat :=
  if bit control 4 then entry.toNat
  else if entry.toNat < 128 then 256 + entry.toNat
  else entry.toNat

theorem tileIndex_lt
    (control entry : UInt8) :
    tileIndex control entry < 384 := by
  have hEntry := entry.toNat_lt
  unfold tileIndex
  split
  · omega
  · split <;> omega

/- The colour index at a point of a 256 by 256 tile map. -/
def texel
    (lcd : Lcd)
    (vram : VideoRam)
    (high : Bool)
    (u v : UInt8) : ColorIndex :=
  have hMap :
      mapBase high + v.toNat / 8 * 32 + u.toNat / 8 <
        0x2000 := by
    have hu := u.toNat_lt
    have hv := v.toNat_lt
    have hBase := mapBase_le high
    omega
  let entry :=
    vram[mapBase high + v.toNat / 8 * 32 + u.toNat / 8]
  have hRow :
      tileIndex lcd.regs.control entry * 8 + v.toNat % 8 <
        tileRowCount := by
    have hTile := tileIndex_lt lcd.regs.control entry
    unfold tileRowCount
    omega
  lcd.tiles[
    tileIndex lcd.regs.control entry * 8 + v.toNat % 8][
    u.toNat % 8]

------------------------------------------------------------
-- Background And Window
------------------------------------------------------------

/- The background of the current line. -/
def backgroundIndices
    (lcd : Lcd)
    (vram : VideoRam) : IndexRow :=
  let high := bit lcd.regs.control 3
  let v := lcd.beam.line.toUInt8 + lcd.regs.scrollY
  Vector.ofFn fun x =>
    lcd.texel vram high
      (x.val.toUInt8 + lcd.regs.scrollX) v

/- Whether the current line shows the window. -/
def showsWindow
    (lcd : Lcd) : Bool :=
  bit lcd.regs.control 5 &&
    lcd.regs.windowY.toNat ≤ lcd.beam.line &&
    lcd.regs.windowX.toNat ≤ 166

/-
  The window over a background.  Its left edge lies seven
  columns to the left of the value in WX.
-/
def windowIndices
    (lcd : Lcd)
    (vram : VideoRam)
    (under : IndexRow) : IndexRow :=
  let high := bit lcd.regs.control 6
  let wx := lcd.regs.windowX.toNat
  Vector.ofFn fun x =>
    if wx ≤ x.val + 7 then
      lcd.texel vram high (x.val + 7 - wx).toUInt8
        lcd.windowLine
    else under[x]

/- Whether background and window are drawn at all. -/
def layerOn
    (lcd : Lcd) : Bool :=
  lcd.regs.lcdOn && bit lcd.regs.control 0

/- Whether the current line draws a line of the window. -/
def drawsWindow
    (lcd : Lcd) : Bool :=
  lcd.layerOn && lcd.showsWindow

/- The colour indices of the current line before sprites. -/
def layerIndices
    (lcd : Lcd)
    (vram : VideoRam) : IndexRow :=
  if lcd.layerOn then
    let under := lcd.backgroundIndices vram
    if lcd.showsWindow then lcd.windowIndices vram under
    else under
  else .replicate screenWidth 0

/- The shades of colour indices of background and window. -/
def layerRow
    (lcd : Lcd)
    (indices : IndexRow) : Row :=
  indices.map fun i => lcd.regs.background[i]

end Lcd

------------------------------------------------------------
-- Sprites
------------------------------------------------------------

/-
  A sprite: its position, offset by 16 lines and 8 columns,
  its tile and its attributes.
-/
structure Sprite where
  y : UInt8
  x : UInt8
  tile : UInt8
  attributes : UInt8
deriving DecidableEq, Repr

/- The number of sprites. -/
def spriteCount : Nat := 40

namespace Sprite

/- The sprite described by four bytes of sprite memory. -/
def ofRam
    (oam : SpriteRam)
    (i : Fin spriteCount) : Sprite :=
  have h : i.val < 40 := i.isLt
  { y := oam[i.val * 4]
    x := oam[i.val * 4 + 1]
    tile := oam[i.val * 4 + 2]
    attributes := oam[i.val * 4 + 3] }

/- Whether a sprite lies behind colours one to three. -/
def behind
    (s : Sprite) : Bool :=
  bit s.attributes 7

def flipsY
    (s : Sprite) : Bool :=
  bit s.attributes 6

def flipsX
    (s : Sprite) : Bool :=
  bit s.attributes 5

/- Whether a sprite of a height has a row on a line. -/
def Covers
    (s : Sprite)
    (height line : Nat) : Prop :=
  s.y.toNat ≤ line + 16 ∧ line + 16 < s.y.toNat + height

instance
    (s : Sprite)
    (height line : Nat) :
    Decidable (s.Covers height line) := by
  unfold Covers
  infer_instance

/- The row of its picture that a sprite has on a line. -/
def row
    (s : Sprite)
    (height line : Nat) : Nat :=
  let r := line + 16 - s.y.toNat
  if s.flipsY then height - 1 - r else r

/- The first tile of a sprite; tall ones begin at even tiles. -/
def firstTile
    (s : Sprite)
    (tall : Bool) : UInt8 :=
  if tall then s.tile &&& 0xFE else s.tile

end Sprite

namespace Lcd

/- Whether sprites are two tiles high. -/
def tallSprites
    (lcd : Lcd) : Bool :=
  bit lcd.regs.control 2

/- The height of a sprite. -/
def spriteHeight
    (tall : Bool) : Nat :=
  if tall then 16 else 8

theorem row_lt
    {s : Sprite}
    {tall : Bool}
    {line : Nat}
    (h : s.Covers (spriteHeight tall) line) :
    s.row (spriteHeight tall) line < 16 := by
  unfold Sprite.Covers at h
  unfold Sprite.row
  cases tall <;> simp only [spriteHeight] at h ⊢ <;>
    split <;> simp_all <;> omega

/- The tile row that a sprite shows on a line it covers. -/
def spriteTexels
    (lcd : Lcd)
    (s : Sprite)
    (h :
      s.Covers (spriteHeight lcd.tallSprites)
        lcd.beam.line) :
    TileRow :=
  have hRow :
      (s.firstTile lcd.tallSprites).toNat * 8 +
        s.row (spriteHeight lcd.tallSprites)
          lcd.beam.line < tileRowCount := by
    have hTile := (s.firstTile lcd.tallSprites).toNat_lt
    have hr := row_lt h
    unfold tileRowCount
    omega
  lcd.tiles[
    (s.firstTile lcd.tallSprites).toNat * 8 +
      s.row (spriteHeight lcd.tallSprites) lcd.beam.line]

/- The palette of a sprite. -/
def spritePalette
    (lcd : Lcd)
    (s : Sprite) : Palette :=
  if bit s.attributes 4 then lcd.regs.object1
  else lcd.regs.object0

/-
  Draw one column of a sprite, unless it is transparent there
  or lies behind the layer below.
-/
def drawColumn
    (s : Sprite)
    (texels : TileRow)
    (palette : Palette)
    (indices : IndexRow)
    (row : Row)
    (px : Fin 8) : Row :=
  if h :
      8 ≤ s.x.toNat + px ∧
        s.x.toNat + px < screenWidth + 8 then
    let x : Fin screenWidth :=
      ⟨s.x.toNat + px - 8, by omega⟩
    let color :=
      if s.flipsX then texels[7 - px.val]
      else texels[px.val]
    if color = 0 || (s.behind && indices[x] ≠ 0) then row
    else row.set x palette[color]
  else row

/- Draw a sprite over a line. -/
def drawSprite
    (lcd : Lcd)
    (indices : IndexRow)
    (s : Sprite)
    (row : Row) : Row :=
  if h :
      s.Covers (spriteHeight lcd.tallSprites)
        lcd.beam.line then
    let texels := lcd.spriteTexels s h
    let palette := lcd.spritePalette s
    Fin.foldl 8 (drawColumn s texels palette indices) row
  else row

/- Draw all sprites, the first one last and so on top. -/
def drawSprites
    (lcd : Lcd)
    (oam : SpriteRam)
    (indices : IndexRow)
    (row : Row) : Row :=
  Fin.foldr spriteCount
    (fun i row =>
      lcd.drawSprite indices (Sprite.ofRam oam i) row)
    row

------------------------------------------------------------
-- Lines
------------------------------------------------------------

/- Whether sprites are drawn. -/
def spritesOn
    (lcd : Lcd) : Bool :=
  lcd.regs.lcdOn && bit lcd.regs.control 1

/- The shades of the current line. -/
def composeRow
    (lcd : Lcd)
    (vram : VideoRam)
    (oam : SpriteRam) : Row :=
  let indices := lcd.layerIndices vram
  let row := lcd.layerRow indices
  if lcd.spritesOn then lcd.drawSprites oam indices row
  else row

/- Draw the current line into the picture. -/
def drawLine
    (lcd : Lcd)
    (vram : VideoRam)
    (oam : SpriteRam) : Lcd :=
  if h : lcd.beam.line < screenHeight then
    let row := lcd.composeRow vram oam
    let windowLine :=
      if lcd.drawsWindow then lcd.windowLine + 1
      else lcd.windowLine
    { lcd with
      picture := lcd.picture.set lcd.beam.line row
      windowLine := windowLine }
  else lcd

end Lcd

end Dmg
