import Dmg.Proofs.Checked.Memory
import Dmg.Proofs.Lcd.Layer
import Dmg.Proofs.Lcd.Picture
import Dmg.Proofs.Lcd.Sprites

/-
  Composition of a line with its sums and indices checked.

  A line is drawn pixel by pixel into two tables, the colour
  indices and the shades.  Columns and rows of sprites are
  signed words that may lie off the screen, and are taken for
  indices only where they do not.  Whatever the registers,
  video memory and sprite memory hold, a checked line is the
  line.

  Key definitions include:
    * `Lcd.mapPixelChecked`
    * `Lcd.drawWindowChecked`
    * `Lcd.drawSpriteChecked`
    * `Picture.writeRowChecked`
    * `Lcd.drawLineChecked`

  Main results:
    * `Lcd.mapPixelChecked_eq`
    * `Lcd.drawWindowChecked_eq`
    * `Lcd.drawSpriteChecked_eq`
    * `Lcd.drawLineChecked_eq`
-/

namespace Dmg

open Checked

theorem toNat_and_7
    (v : UInt8) :
    (v &&& 7).toNat = v.toNat % 8 := by
  rw [UInt8.toNat_and]
  exact Nat.and_two_pow_sub_one_eq_mod v.toNat 3

theorem ofInt_natCast
    (k : Nat) :
    UInt8.ofInt k = k.toUInt8 := by
  apply UInt8.toNat_inj.mp
  change ((k : Int) % 256).toNat % 256 = k % 256
  omega

------------------------------------------------------------
-- Rows Of The Picture
------------------------------------------------------------

namespace Picture

/-
  Put a row into the picture: 480 bytes of its bytes, from a
  start that is counted in pixels of three bytes each.
-/
def writeRowChecked
    (picture : Picture)
    (line : Nat)
    (row : Row) : Option Picture := do
  let pixels ← mul 64 line 160
  let start ← mul 64 pixels 3
  let stop ← add 64 start 480
  slice picture.bytes.size start stop
  set picture line row

/- The bytes of a visible line lie in the picture. -/
theorem writeRowChecked_eq
    (picture : Picture)
    {line : Nat}
    (h : line < screenHeight)
    (row : Row) :
    writeRowChecked picture line row =
      some (picture.set line row) := by
  have hLine : line < 144 := h
  have hPixels : mul 64 line 160 = some (line * 160) :=
    mul_of_lt (by omega)
  have hStart :
      mul 64 (line * 160) 3 = some (line * 160 * 3) :=
    mul_of_lt (by omega)
  have hStop :
      add 64 (line * 160 * 3) 480 =
        some (line * 160 * 3 + 480) :=
    add_of_lt (by omega)
  have hSlice :
      slice 69120 (line * 160 * 3) (line * 160 * 3 + 480) =
        some () :=
    slice_of_le (by omega) (by omega)
  simp only [writeRowChecked, hPixels, hStart, hStop,
    size_bytes, hSlice, Option.bind_eq_bind,
    Option.bind_some]
  exact set_of_lt picture h row

end Picture

namespace Lcd

------------------------------------------------------------
-- Tile Maps
------------------------------------------------------------

/-
  The tile that a map entry names.  Signed numbers are counted
  from tile 256 in a signed word.
-/
def tileIndexChecked
    (control entry : UInt8) : Option Nat :=
  if bit control 4 then some entry.toNat
  else do
    let i ← signed 16 (256 + entry.toInt8.toInt)
    some (toIndex i)

/- The colour index at a point of a tile map. -/
def mapPixelChecked
    (lcd : Lcd)
    (vram : VideoRam)
    (map : Nat)
    (x y : UInt8) : Option ColorIndex := do
  let down ← mul 64 (y.toNat / 8) 32
  let left ← add 64 map down
  let place ← add 64 left (x.toNat / 8)
  let entry ← get vram place
  let tile ← tileIndexChecked lcd.regs.control entry
  let i ← TileCache.placeChecked tile (y &&& 7).toNat
  let row ← get lcd.tiles i
  get row (x &&& 7).toNat

theorem tileIndexChecked_eq
    (control entry : UInt8) :
    tileIndexChecked control entry =
      some (tileIndex control entry) := by
  have hEntry := entry.toNat_lt
  unfold tileIndexChecked tileIndex
  split
  · rfl
  · have hIndex :
        256 + entry.toInt8.toInt =
          ((if entry.toNat < 128 then 256 + entry.toNat
            else entry.toNat : Nat) : Int) := by
      rw [Layer.toInt_toInt8]
      split <;> omega
    have hMost :
        (if entry.toNat < 128 then 256 + entry.toNat
          else entry.toNat) < 384 := by
      split <;> omega
    rw [hIndex, signed_of (by omega) (by omega)]
    exact congrArg some (toIndex_natCast (by omega))

theorem mapPixelChecked_eq
    (lcd : Lcd)
    (vram : VideoRam)
    (high : Bool)
    (x y : UInt8) :
    lcd.mapPixelChecked vram (mapBase high) x y =
      some (lcd.texel vram high x y) := by
  have hx := x.toNat_lt
  have hy := y.toNat_lt
  have hBase := mapBase_le high
  have hPlace := Layer.mapPlace_lt high x y
  have hColumn : x.toNat % 8 < 8 := Nat.mod_lt _ (by decide)
  have hRow : y.toNat % 8 < 8 := Nat.mod_lt _ (by decide)
  have hDown :
      mul 64 (y.toNat / 8) 32 = some (y.toNat / 8 * 32) :=
    mul_of_lt (by omega)
  have hLeft :
      add 64 (mapBase high) (y.toNat / 8 * 32) =
        some (mapBase high + y.toNat / 8 * 32) :=
    add_of_lt (by omega)
  have hEntry :
      add 64 (mapBase high + y.toNat / 8 * 32) (x.toNat / 8) =
        some (mapBase high + y.toNat / 8 * 32 +
          x.toNat / 8) :=
    add_of_lt (by omega)
  have hTile (e : UInt8) :=
    TileCache.placeChecked_eq
      (tileIndex_lt lcd.regs.control e) hRow
  have hTexels (e : UInt8) :=
    get_of_lt lcd.tiles
      (Layer.tileRow_lt lcd.regs.control e hRow)
  simp only [mapPixelChecked, hDown, hLeft, hEntry,
    get_of_lt vram hPlace, tileIndexChecked_eq, toNat_and_7,
    hTile, hTexels, Option.bind_eq_bind, Option.bind_some]
  exact get_of_lt _ hColumn

------------------------------------------------------------
-- Background And Window
------------------------------------------------------------

/- The colour indices of a line with their shades. -/
def layered
    (lcd : Lcd)
    (indices : IndexRow) : IndexRow × Row :=
  (indices, lcd.layerRow indices)

/- Draw a pixel of background or window. -/
def drawPixelChecked
    (lcd : Lcd)
    (x : Nat)
    (color : ColorIndex)
    (s : IndexRow × Row) : Option (IndexRow × Row) := do
  let indices ← set s.1 x color
  let shade ← get lcd.regs.background color.val
  let row ← set s.2 x shade
  some (indices, row)

/- Draw the background. -/
def drawBackgroundChecked
    (lcd : Lcd)
    (vram : VideoRam)
    (s : IndexRow × Row) : Option (IndexRow × Row) :=
  let map := mapBase (bit lcd.regs.control 3)
  let y := lcd.beam.line.toUInt8 + lcd.regs.scrollY
  loop 0 160
    (fun x s => do
      let color ← lcd.mapPixelChecked vram map
        (x.toUInt8 + lcd.regs.scrollX) y
      lcd.drawPixelChecked x color s)
    s

/-
  Draw the window over the background.  Its left edge is a
  signed word that may lie off the screen.
-/
def drawWindowChecked
    (lcd : Lcd)
    (vram : VideoRam)
    (s : IndexRow × Row) : Option (IndexRow × Row) := do
  let map := mapBase (bit lcd.regs.control 6)
  let origin ← signed 16 (lcd.regs.windowX.toNat - 7)
  loop (toIndex (max origin 0)) 160
    (fun x s => do
      let column ← signed 16 (x - origin)
      let color ← lcd.mapPixelChecked vram map
        (UInt8.ofInt column) lcd.windowLine
      lcd.drawPixelChecked x color s)
    s

theorem drawPixelChecked_layered
    (lcd : Lcd)
    {x : Nat}
    (hx : x < screenWidth)
    (color : ColorIndex)
    (indices : IndexRow) :
    lcd.drawPixelChecked x color (lcd.layered indices) =
      some (lcd.layered (indices.set x color)) := by
  have hShade := get_of_lt lcd.regs.background color.isLt
  simp only [drawPixelChecked, layered, layerRow,
    set_of_lt _ hx, hShade, Vector.map_set,
    Option.bind_eq_bind, Option.bind_some]
  rfl

/- Drawing pixels from a column to the end of the line. -/
theorem loop_layered
    (lcd : Lcd)
    {start : Nat}
    (hStart : start ≤ screenWidth)
    (g : Fin screenWidth → ColorIndex)
    {f : Nat → IndexRow × Row → Option (IndexRow × Row)}
    (h : ∀ (x : Fin screenWidth) s, start ≤ x.val →
      f x.val s = lcd.drawPixelChecked x.val (g x) s)
    (indices : IndexRow) :
    loop start screenWidth f (lcd.layered indices) =
      some (lcd.layered
        (filled g start screenWidth indices)) := by
  have hLoop :
      loop start screenWidth f
          (lcd.layered (filled g start start indices)) =
        some (lcd.layered
          (filled g start screenWidth indices)) := by
    apply loop_eq
      (s := fun x =>
        lcd.layered (filled g start x indices))
      hStart
    intro x hFrom hx
    rw [h ⟨x, hx⟩ _ hFrom, drawPixelChecked_layered lcd hx,
      set_filled g hFrom hx]
  rwa [filled_start] at hLoop

theorem drawBackgroundChecked_eq
    (lcd : Lcd)
    (vram : VideoRam)
    (indices : IndexRow) :
    lcd.drawBackgroundChecked vram (lcd.layered indices) =
      some (lcd.layered (lcd.backgroundIndices vram)) := by
  let g (x : Fin screenWidth) : ColorIndex :=
    lcd.texel vram (bit lcd.regs.control 3)
      (x.val.toUInt8 + lcd.regs.scrollX)
      (lcd.beam.line.toUInt8 + lcd.regs.scrollY)
  have hAll :
      filled g 0 screenWidth indices =
        lcd.backgroundIndices vram := by
    unfold filled backgroundIndices
    congr 1
    funext x
    rw [if_pos ⟨Nat.zero_le _, x.isLt⟩]
  rw [← hAll]
  apply loop_layered lcd (Nat.zero_le _)
  intro x s hx
  rw [mapPixelChecked_eq]
  rfl

/-
  The window is drawn from its left edge, or from the edge of
  the screen if that comes later.
-/
theorem drawWindowChecked_eq
    (lcd : Lcd)
    (vram : VideoRam)
    (hShows : lcd.regs.windowX.toNat ≤ 166)
    (under : IndexRow) :
    lcd.drawWindowChecked vram (lcd.layered under) =
      some (lcd.layered (lcd.windowIndices vram under)) := by
  let wx := lcd.regs.windowX.toNat
  have hwx : wx ≤ 166 := hShows
  let g (x : Fin screenWidth) : ColorIndex :=
    lcd.texel vram (bit lcd.regs.control 6)
      (x.val + 7 - wx).toUInt8 lcd.windowLine
  have hAll :
      filled g (wx - 7) screenWidth under =
        lcd.windowIndices vram under := by
    unfold filled windowIndices
    congr 1
    funext x
    have hFrom : (wx - 7 ≤ x.val ∧ x.val < screenWidth) ↔
        wx ≤ x.val + 7 := by
      have hx := x.isLt
      omega
    simp only [hFrom]
    rfl
  have hOrigin :
      signed 16 ((wx : Int) - 7) = some ((wx : Int) - 7) :=
    signed_of (by omega) (by omega)
  have hEdge : max ((wx : Int) - 7) 0 = (wx - 7 : Nat) := by
    omega
  have hColumn (x : Fin screenWidth) (hFrom : wx - 7 ≤ x.val) :
      ((x.val : Int) - ((wx : Int) - 7)) =
        (x.val + 7 - wx : Nat) := by
    omega
  have hSigned (x : Fin screenWidth) :
      signed 16 ((x.val + 7 - wx : Nat) : Int) =
        some ((x.val + 7 - wx : Nat) : Int) := by
    have hx : x.val < 160 := x.isLt
    exact signed_of (by omega) (by omega)
  unfold drawWindowChecked
  rw [hOrigin, ← hAll]
  simp only [Option.bind_eq_bind, Option.bind_some, hEdge,
    toIndex_natCast (show wx - 7 < 2 ^ 64 by omega)]
  apply loop_layered lcd (show wx - 7 ≤ 160 by omega)
  intro x s hFrom
  rw [hColumn x hFrom, hSigned x]
  simp only [Option.bind_some, mapPixelChecked_eq,
    ofInt_natCast]
  rfl

------------------------------------------------------------
-- Sprites
------------------------------------------------------------

/- A sprite read from its four bytes. -/
def spriteChecked
    (oam : SpriteRam)
    (i : Nat) : Option Sprite := do
  let y ← get oam (i * 4)
  let x ← get oam (i * 4 + 1)
  let tile ← get oam (i * 4 + 2)
  let attributes ← get oam (i * 4 + 3)
  some ⟨y, x, tile, attributes⟩

/-
  The row of its picture that a sprite has on a line, given
  its height and the line of its top.  It must be one of the
  sixteen rows that a sprite may have.
-/
def spriteRowChecked
    (s : Sprite)
    (height line top : Int) : Option Int := do
  let r ← signed 16 (line - top)
  let row ←
    if s.flipsY then do
      let last ← signed 16 (height - 1)
      signed 16 (last - r)
    else some r
  require (0 ≤ row ∧ row < 16)
  some row

/-
  The place in the cache of a row of a sprite, given its first
  tile.  The lower half of a tall sprite is the next tile.
-/
def spritePlaceChecked
    (tall : Bool)
    (first : Nat)
    (row : Int) : Option Nat := do
  let tile ←
    if tall then add 64 first (toIndex (row.tdiv 8))
    else some first
  TileCache.placeChecked tile (toIndex (row.tmod 8))

/- The colour index of a column of a sprite. -/
def spriteColorChecked
    (s : Sprite)
    (texels : TileRow)
    (px : Nat) : Option ColorIndex := do
  let column ←
    if s.flipsX then signed 16 (7 - px) else some (px : Int)
  get texels (toIndex column)

/- Draw one column of a sprite, if it lies on the screen. -/
def drawColumnChecked
    (s : Sprite)
    (left : Int)
    (texels : TileRow)
    (palette : Palette)
    (indices : IndexRow)
    (px : Nat)
    (row : Row) : Option Row := do
  let x ← signed 16 (left + px)
  if 0 ≤ x ∧ x < 160 then do
    let x := toIndex x
    let color ← spriteColorChecked s texels px
    let under ← get indices x
    if color = 0 || (s.behind && under ≠ 0) then some row
    else do
      let shade ← get palette color.val
      set row x shade
  else some row

/- Draw a sprite over a line, if it has a row on it. -/
def drawSpriteChecked
    (lcd : Lcd)
    (indices : IndexRow)
    (s : Sprite)
    (row : Row) : Option Row := do
  let line : Int := lcd.beam.line
  let height : Int := spriteHeight lcd.tallSprites
  let top ← signed 16 (s.y.toNat - 16)
  let left ← signed 16 (s.x.toNat - 8)
  let bottom ← signed 16 (top + height)
  if line < top ∨ bottom ≤ line then some row
  else do
    let r ← spriteRowChecked s height line top
    let place ← spritePlaceChecked lcd.tallSprites
      (s.firstTile lcd.tallSprites).toNat r
    let texels ← get lcd.tiles place
    let palettes : Vector Palette 2 :=
      #v[lcd.regs.object0, lcd.regs.object1]
    let palette ←
      get palettes ((s.attributes >>> 4) &&& 1).toNat
    loop 0 8
      (drawColumnChecked s left texels palette indices) row

theorem spriteChecked_eq
    (oam : SpriteRam)
    (i : Fin spriteCount) :
    spriteChecked oam i = some (Sprite.ofRam oam i) := by
  have hi : i.val < 40 := i.isLt
  have hLast : i.val * 4 + 3 < 0x100 := by omega
  simp only [spriteChecked, get_of_lt oam hLast,
    get_of_lt oam (Nat.lt_of_succ_lt hLast),
    get_of_lt oam (show i.val * 4 + 1 < 0x100 by omega),
    get_of_lt oam (show i.val * 4 < 0x100 by omega),
    Option.bind_eq_bind, Option.bind_some]
  rfl

theorem spriteHeight_le
    (tall : Bool) :
    8 ≤ spriteHeight tall ∧ spriteHeight tall ≤ 16 := by
  cases tall <;> decide

theorem row_lt_height
    {s : Sprite}
    {height line : Nat}
    (h : s.Covers height line) :
    s.row height line < height := by
  rcases h with ⟨hTop, hBottom⟩
  unfold Sprite.row
  dsimp only
  split <;> omega

/- A sprite has at most sixteen rows, counted either way. -/
theorem spriteRowChecked_eq
    {s : Sprite}
    {tall : Bool}
    {line : Nat}
    (h : s.Covers (spriteHeight tall) line) :
    spriteRowChecked s (spriteHeight tall) line
        (s.y.toNat - 16) =
      some ((s.row (spriteHeight tall) line : Nat) : Int) := by
  have hy := s.y.toNat_lt
  have hHeight := spriteHeight_le tall
  have hRow := row_lt_height h
  have hBound :
      require
          ((0 : Int) ≤ s.row (spriteHeight tall) line ∧
            (s.row (spriteHeight tall) line : Int) < 16) =
        some () :=
    require_of (by omega)
  rcases h with ⟨hTop, hBottom⟩
  generalize spriteHeight tall = height at *
  have hDistance :
      (line : Int) - (s.y.toNat - 16) =
        (line + 16 - s.y.toNat : Nat) := by
    omega
  have hFirst :
      signed 16 ((line + 16 - s.y.toNat : Nat) : Int) =
        some ((line + 16 - s.y.toNat : Nat) : Int) :=
    signed_of (by omega) (by omega)
  have hLast :
      signed 16 ((height : Int) - 1) =
        some ((height : Int) - 1) :=
    signed_of (by omega) (by omega)
  have hFlipped :
      (height : Int) - 1 - (line + 16 - s.y.toNat : Nat) =
        (height - 1 - (line + 16 - s.y.toNat) : Nat) := by
    omega
  have hBack :
      signed 16
          ((height - 1 - (line + 16 - s.y.toNat) : Nat) : Int) =
        some
          ((height - 1 - (line + 16 - s.y.toNat) : Nat) :
            Int) :=
    signed_of (by omega) (by omega)
  unfold Sprite.row at hBound ⊢
  simp only [spriteRowChecked, hDistance, hFirst,
    Option.bind_eq_bind, Option.bind_some]
  cases hFlips : s.flipsY with
  | false =>
      simp only [hFlips, Bool.false_eq_true, if_false]
        at hBound ⊢
      simp only [hBound, Option.bind_some]
  | true =>
      simp only [hFlips, if_true] at hBound ⊢
      simp only [hLast, hFlipped, hBack, hBound,
        Option.bind_some]

/- Rows eight to fifteen are those of the next tile. -/
theorem spritePlaceChecked_eq
    {tall : Bool}
    {first r : Nat}
    (hFirst : first < 256)
    (hr : r < spriteHeight tall) :
    spritePlaceChecked tall first r = some (first * 8 + r) := by
  have hHeight := spriteHeight_le tall
  have hDown : toIndex ((r : Int).tdiv 8) = r / 8 := by
    rw [Int.tdiv_eq_ediv_of_nonneg (by omega)]
    exact toIndex_natCast (k := r / 8) (by omega)
  have hWithin : toIndex ((r : Int).tmod 8) = r % 8 := by
    rw [Int.tmod_eq_emod_of_nonneg (by omega)]
    exact toIndex_natCast (k := r % 8) (by omega)
  unfold spritePlaceChecked
  rw [hDown, hWithin]
  cases tall with
  | false =>
      have hLow : r < 8 := hr
      have hPlace :
          TileCache.placeChecked first r =
            some (first * 8 + r) :=
        TileCache.placeChecked_eq (by omega) hLow
      rw [Nat.mod_eq_of_lt hLow]
      exact hPlace
  | true =>
      have hTall : r < 16 := hr
      have hTile :
          add 64 first (r / 8) = some (first + r / 8) :=
        add_of_lt (by omega)
      simp only [if_true, hTile, Option.bind_eq_bind,
        Option.bind_some]
      rw [TileCache.placeChecked_eq (by omega) (by omega)]
      congr 1
      omega

theorem spriteColorChecked_eq
    (s : Sprite)
    (texels : TileRow)
    (px : Fin 8) :
    spriteColorChecked s texels px =
      some (s.colorIn texels px) := by
  have hpx : px.val < 8 := px.isLt
  unfold spriteColorChecked Sprite.colorIn
  cases s.flipsX with
  | false =>
      have hIndex : toIndex (px.val : Int) = px.val :=
        toIndex_natCast (by omega)
      simp only [Bool.false_eq_true, if_false,
        Option.bind_eq_bind, Option.bind_some, hIndex]
      exact get_of_lt texels hpx
  | true =>
      have hColumn :
          (7 : Int) - px.val = (7 - px.val : Nat) := by
        omega
      have hSigned :
          signed 16 ((7 - px.val : Nat) : Int) =
            some ((7 - px.val : Nat) : Int) :=
        signed_of (by omega) (by omega)
      have hIndex :
          toIndex ((7 - px.val : Nat) : Int) = 7 - px.val :=
        toIndex_natCast (by omega)
      simp only [if_true, hColumn, hSigned,
        Option.bind_eq_bind, Option.bind_some, hIndex]
      exact get_of_lt texels (by omega)

/- A column of a sprite is drawn where it is on the screen. -/
theorem drawColumnChecked_eq
    (s : Sprite)
    (texels : TileRow)
    (palette : Palette)
    (indices : IndexRow)
    (px : Fin 8)
    (row : Row) :
    drawColumnChecked s (s.x.toNat - 8) texels palette indices
        px row =
      some (drawColumn s texels palette indices row px) := by
  have hLeft := s.x.toNat_lt
  have hpx : px.val < 8 := px.isLt
  have hColumn :
      signed 16 ((s.x.toNat : Int) - 8 + px.val) =
        some ((s.x.toNat : Int) - 8 + px.val) :=
    signed_of (by omega) (by omega)
  have hOn :
      (0 ≤ (s.x.toNat : Int) - 8 + px.val ∧
          (s.x.toNat : Int) - 8 + px.val < 160) ↔
        8 ≤ s.x.toNat + px ∧
          s.x.toNat + px < screenWidth + 8 := by
    unfold screenWidth
    omega
  unfold drawColumnChecked drawColumn
  simp only [hColumn, Option.bind_eq_bind, Option.bind_some,
    hOn, spriteColorChecked_eq]
  let color := s.colorIn texels px
  split
  · rename_i hScreen
    have hPlace :
        (s.x.toNat : Int) - 8 + px.val =
          (s.x.toNat + px.val - 8 : Nat) := by
      omega
    have hx : s.x.toNat + px.val - 8 < screenWidth := by
      omega
    have hIndex :
        toIndex ((s.x.toNat : Int) - 8 + px.val) =
          s.x.toNat + px.val - 8 := by
      rw [hPlace]
      exact toIndex_natCast (by omega)
    simp only [hIndex, get_of_lt indices hx, Option.bind_some]
    by_cases hHidden :
        (color = 0 ||
          (s.behind &&
            indices[s.x.toNat + px.val - 8] ≠ 0)) = true
    · exact (if_pos hHidden).trans
        (congrArg some (if_pos hHidden).symm)
    · refine (if_neg hHidden).trans ?_
      rw [get_of_lt palette (Fin.isLt _), Option.bind_some,
        set_of_lt row hx]
      exact congrArg some (if_neg hHidden).symm
  · rfl

/- One bit of the attributes names a palette. -/
theorem get_palettes
    (lcd : Lcd)
    (s : Sprite) :
    get #v[lcd.regs.object0, lcd.regs.object1]
        ((s.attributes >>> 4) &&& 1).toNat =
      some (lcd.spritePalette s) := by
  have hBit : (s.attributes >>> 4) &&& 1 =
      carryBit (bit s.attributes 4) :=
    TileRow.shiftRight_and_one s.attributes 4
  unfold spritePalette
  rw [hBit]
  cases bit s.attributes 4 <;> rfl

/- A sprite is drawn on the lines that it covers. -/
theorem drawSpriteChecked_eq
    (lcd : Lcd)
    (indices : IndexRow)
    (s : Sprite)
    (row : Row) :
    lcd.drawSpriteChecked indices s row =
      some (lcd.drawSprite indices s row) := by
  have hy := s.y.toNat_lt
  have hx := s.x.toNat_lt
  have hHeight := spriteHeight_le lcd.tallSprites
  have hTop :
      signed 16 ((s.y.toNat : Int) - 16) =
        some ((s.y.toNat : Int) - 16) :=
    signed_of (by omega) (by omega)
  have hLeft :
      signed 16 ((s.x.toNat : Int) - 8) =
        some ((s.x.toNat : Int) - 8) :=
    signed_of (by omega) (by omega)
  have hBottom :
      signed 16
          ((s.y.toNat : Int) - 16 +
            (spriteHeight lcd.tallSprites : Nat)) =
        some ((s.y.toNat : Int) - 16 +
          (spriteHeight lcd.tallSprites : Nat)) :=
    signed_of (by omega) (by omega)
  have hCovers :
      ((lcd.beam.line : Int) < s.y.toNat - 16 ∨
          (s.y.toNat : Int) - 16 +
            (spriteHeight lcd.tallSprites : Nat) ≤
            lcd.beam.line) ↔
        ¬ s.Covers (spriteHeight lcd.tallSprites)
          lcd.beam.line := by
    unfold Sprite.Covers
    omega
  unfold drawSpriteChecked drawSprite
  simp only [hTop, hLeft, hBottom, hCovers, ite_not,
    Option.bind_eq_bind, Option.bind_some]
  split
  · rename_i h
    have hPlace :=
      spritePlaceChecked_eq
        (s.firstTile lcd.tallSprites).toNat_lt
        (row_lt_height h)
    have hTexels :
        get lcd.tiles
            ((s.firstTile lcd.tallSprites).toNat * 8 +
              s.row (spriteHeight lcd.tallSprites)
                lcd.beam.line) =
          some (lcd.spriteTexels s h) :=
      get_of_lt lcd.tiles _
    have hColumns :=
      loop_eq_foldl
        (drawColumnChecked_eq s (lcd.spriteTexels s h)
          (lcd.spritePalette s) indices)
        row
    rw [spriteRowChecked_eq h]
    simp only [hPlace, hTexels, get_palettes,
      Option.bind_some]
    exact hColumns
  · rfl

------------------------------------------------------------
-- Lines
------------------------------------------------------------

/- Draw all sprites, the first one last and so on top. -/
def drawSpritesChecked
    (lcd : Lcd)
    (oam : SpriteRam)
    (indices : IndexRow)
    (row : Row) : Option Row :=
  loopDown 40
    (fun i row => do
      let s ← spriteChecked oam i
      lcd.drawSpriteChecked indices s row)
    row

/-
  Draw background and window where they are on, and tell the
  line of the window that is next.
-/
def drawLayerChecked
    (lcd : Lcd)
    (vram : VideoRam)
    (s : IndexRow × Row) :
    Option ((IndexRow × Row) × UInt8) :=
  if lcd.layerOn then do
    let s ← lcd.drawBackgroundChecked vram s
    if lcd.showsWindow then do
      let s ← lcd.drawWindowChecked vram s
      some (s, lcd.windowLine + 1)
    else some (s, lcd.windowLine)
  else some (s, lcd.windowLine)

/- The shades of a line, and the window line that is next. -/
def composeRowChecked
    (lcd : Lcd)
    (vram : VideoRam)
    (oam : SpriteRam) : Option (Row × UInt8) := do
  let shade ← get lcd.regs.background 0
  let start : IndexRow × Row :=
    (.replicate screenWidth 0, .replicate screenWidth shade)
  let (s, windowLine) ← lcd.drawLayerChecked vram start
  if lcd.spritesOn then do
    let row ← lcd.drawSpritesChecked oam s.1 s.2
    some (row, windowLine)
  else some (s.2, windowLine)

/- Draw the current line into the picture. -/
def drawLineChecked
    (lcd : Lcd)
    (vram : VideoRam)
    (oam : SpriteRam) : Option Lcd :=
  if 144 ≤ lcd.beam.line then some lcd
  else do
    let (row, windowLine) ← lcd.composeRowChecked vram oam
    let picture ← lcd.picture.writeRowChecked lcd.beam.line row
    some { lcd with
      picture := picture
      windowLine := windowLine }

theorem drawSpritesChecked_eq
    (lcd : Lcd)
    (oam : SpriteRam)
    (indices : IndexRow)
    (row : Row) :
    lcd.drawSpritesChecked oam indices row =
      some (lcd.drawSprites oam indices row) := by
  unfold drawSpritesChecked drawSprites
  apply loopDown_eq_foldr
  intro i row
  have hSprite :
      spriteChecked oam i.val = some (Sprite.ofRam oam i) :=
    spriteChecked_eq oam i
  simp only [hSprite, Option.bind_eq_bind, Option.bind_some,
    drawSpriteChecked_eq]

theorem drawLayerChecked_eq
    (lcd : Lcd)
    (vram : VideoRam) :
    lcd.drawLayerChecked vram
        (lcd.layered (.replicate screenWidth 0)) =
      some (lcd.layered (lcd.layerIndices vram),
        if lcd.drawsWindow then lcd.windowLine + 1
        else lcd.windowLine) := by
  unfold drawLayerChecked layerIndices drawsWindow
  cases lcd.layerOn with
  | false => rfl
  | true =>
      simp only [if_true, drawBackgroundChecked_eq,
        Bool.true_and, Option.bind_eq_bind,
        Option.bind_some]
      cases hShows : lcd.showsWindow with
      | false => rfl
      | true =>
          have hInside : lcd.regs.windowX.toNat ≤ 166 := by
            unfold showsWindow at hShows
            exact of_decide_eq_true
              (Bool.and_eq_true_iff.mp hShows).2
          simp only [if_true,
            drawWindowChecked_eq lcd vram hInside,
            Option.bind_some]

theorem composeRowChecked_eq
    (lcd : Lcd)
    (vram : VideoRam)
    (oam : SpriteRam) :
    lcd.composeRowChecked vram oam =
      some (lcd.composeRow vram oam,
        if lcd.drawsWindow then lcd.windowLine + 1
        else lcd.windowLine) := by
  have hShade :
      get lcd.regs.background 0 =
        some lcd.regs.background[(0 : ColorIndex)] :=
    get_of_lt _ (by decide)
  have hStart :
      ((.replicate screenWidth 0,
        .replicate screenWidth
          lcd.regs.background[(0 : ColorIndex)]) :
          IndexRow × Row) =
        lcd.layered (.replicate screenWidth 0) := by
    unfold layered layerRow
    rw [Vector.map_replicate]
  unfold composeRowChecked composeRow
  simp only [hShade, hStart, drawLayerChecked_eq,
    Option.bind_eq_bind, Option.bind_some]
  cases lcd.spritesOn with
  | false => rfl
  | true =>
      simp only [if_true, layered, drawSpritesChecked_eq,
        Option.bind_some]

/-
  Whatever the registers and memories hold, no check fails
  when a line is drawn.
-/
theorem drawLineChecked_eq
    (lcd : Lcd)
    (vram : VideoRam)
    (oam : SpriteRam) :
    lcd.drawLineChecked vram oam =
      some (lcd.drawLine vram oam) := by
  unfold drawLineChecked drawLine
  by_cases hLine : lcd.beam.line < screenHeight
  · have hVisible : ¬ 144 ≤ lcd.beam.line :=
      Nat.not_le_of_lt hLine
    rw [if_neg hVisible, dif_pos hLine]
    simp only [composeRowChecked_eq,
      Picture.writeRowChecked_eq lcd.picture hLine,
      Option.bind_eq_bind, Option.bind_some]
  · have hBelow : 144 ≤ lcd.beam.line :=
      Nat.le_of_not_lt hLine
    rw [if_pos hBelow, dif_neg hLine]

end Lcd

end Dmg
