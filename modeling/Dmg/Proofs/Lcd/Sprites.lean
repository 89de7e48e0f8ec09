import Dmg.Proofs.Board

/-
  What sprites look like over background and window, told for
  one point of the screen at a time.

  Sprites are painted over one another, the first one last.
  What is to be seen at a point is therefore the first sprite
  that shows a colour there, and where no sprite does, what
  lies below.

  Coordinates are those of the screen.  They are negative for
  sprites that stand out over its upper or left edge.

  Key definitions include:
    * `SpriteLayer.Covers`
    * `SpriteLayer.texel`
    * `SpriteLayer.Candidate`
    * `SpriteLayer.shade?`
    * `SpriteLayer.pixel`

  Main results:
    * `foldr_mark`
    * `Lcd.getElem_drawSprite`
    * `Lcd.getElem_drawSprites`
    * `Lcd.sprites_resolved`
-/

namespace Dmg

------------------------------------------------------------
-- Points Of The Screen
------------------------------------------------------------

namespace SpriteLayer

/- A sprite of a height lies over a point of the screen. -/
def Covers
    (s : Sprite)
    (height : Nat)
    (y x : Nat) : Prop :=
  let top : Int := s.y.toNat - 16
  let left : Int := s.x.toNat - 8
  top ≤ y ∧ y < top + height ∧ left ≤ x ∧ x < left + 8

instance
    (s : Sprite)
    (height y x : Nat) :
    Decidable (Covers s height y x) := by
  unfold Covers
  infer_instance

/-
  The colour index that a sprite has at a point it lies over.
  A tall sprite is a pair of tiles, of which the first has an
  even number, and it is flipped as a whole.
-/
def texel
    (tiles : TileCache)
    (s : Sprite)
    (tall : Bool)
    (y x : Nat) : ColorIndex :=
  let height : Int := if tall then 16 else 8
  let down : Int := y - (s.y.toNat - 16)
  let across : Int := x - (s.x.toNat - 8)
  let row := if bit s.attributes 6 then height - 1 - down
    else down
  let column := if bit s.attributes 5 then 7 - across
    else across
  let first := if tall then 2 * (s.tile.toNat / 2)
    else s.tile.toNat
  let tile := first + row.toNat / 8
  (tiles[8 * tile + row.toNat % 8]?.bind
    (·[column.toNat]?)).getD 0

/-
  A sprite is to be seen at a point, unless one before it is:
  it lies over the point, is not transparent there, and does
  not stand behind a colour of the layer below.
-/
def Candidate
    (control : UInt8)
    (tiles : TileCache)
    (s : Sprite)
    (y x : Nat)
    (index : ColorIndex) : Prop :=
  let tall := bit control 2
  Covers s (if tall then 16 else 8) y x ∧
    texel tiles s tall y x ≠ 0 ∧
    ¬ (bit s.attributes 7 ∧ index ≠ 0)

instance
    (control : UInt8)
    (tiles : TileCache)
    (s : Sprite)
    (y x : Nat)
    (index : ColorIndex) :
    Decidable (Candidate control tiles s y x index) := by
  unfold Candidate
  infer_instance

/- The shade of a sprite at a point where it is to be seen. -/
def shade?
    (regs : LcdRegisters)
    (tiles : TileCache)
    (s : Sprite)
    (y x : Nat)
    (index : ColorIndex) : Option Shade :=
  if Candidate regs.control tiles s y x index then
    let palette :=
      if bit s.attributes 4 then regs.object1
      else regs.object0
    some palette[texel tiles s (bit regs.control 2) y x]
  else none

/-
  The shade at a point: that of the first sprite to be seen,
  else that of the layer below.
-/
def pixel
    (regs : LcdRegisters)
    (tiles : TileCache)
    (oam : SpriteRam)
    (y x : Nat)
    (index : ColorIndex)
    (below : Shade) : Shade :=
  ((List.finRange spriteCount).findSome? fun i =>
    shade? regs tiles (Sprite.ofRam oam i) y x index).getD
      below

end SpriteLayer

------------------------------------------------------------
-- Painting
------------------------------------------------------------

section Painting

variable {α β : Type} {n : Nat} (view : α → β)

/- The first of all numbers for which there is a result. -/
theorem findSome?_finRange
    {mark : Fin n → Option β}
    {i : Fin n}
    {b : β}
    (h : mark i = some b)
    (hFirst : ∀ j < i, mark j = none) :
    (List.finRange n).findSome? mark = some b := by
  induction n with
  | zero => exact i.elim0
  | succ n ih =>
      rw [List.finRange_succ, List.findSome?_cons]
      cases i using Fin.cases with
      | zero => rw [h]
      | succ i =>
          rw [hFirst 0 (Fin.succ_pos i), List.findSome?_map]
          exact ih h fun j hj =>
            hFirst j.succ (Fin.succ_lt_succ_iff.mpr hj)

/-
  Painters that each put their mark or leave what is there:
  of those that paint last to first, the first one is seen.
-/
theorem foldr_mark
    {paint : Fin n → α → α}
    {mark : Fin n → Option β}
    (hPaint : ∀ i a,
      view (paint i a) = (mark i).getD (view a))
    (a : α) :
    view (Fin.foldr n paint a) =
      ((List.finRange n).findSome? mark).getD (view a) := by
  induction n with
  | zero =>
      rw [Fin.foldr_zero]
      rfl
  | succ n ih =>
      rw [Fin.foldr_succ, hPaint,
        ih fun i => hPaint i.succ, List.finRange_succ,
        List.findSome?_cons, List.findSome?_map]
      cases mark 0 <;> rfl

/-
  Painters of which all but one leave what is there: the mark
  of that one is seen.
-/
theorem foldl_mark
    {paint : α → Fin n → α}
    {mark : Option β}
    (i : Fin n)
    (hPaint : ∀ a, view (paint a i) = mark.getD (view a))
    (hOther : ∀ j a, j ≠ i → view (paint a j) = view a)
    (a : α) :
    view (Fin.foldl n paint a) = mark.getD (view a) := by
  induction n generalizing a with
  | zero => exact i.elim0
  | succ n ih =>
      rw [Fin.foldl_succ]
      cases i using Fin.cases with
      | zero =>
          rw [← hPaint a]
          apply foldl_invariant
            (P := fun b => view b = view (paint a 0))
          · intro b j hb
            rw [hOther j.succ b (Fin.succ_ne_zero j), hb]
          · rfl
      | succ i =>
          rw [← hOther 0 a (Fin.succ_ne_zero i).symm]
          apply ih i hPaint
          intro j b hj
          exact hOther j.succ b
            fun hEq => hj (Fin.succ_inj.mp hEq)

end Painting

------------------------------------------------------------
-- Sprites
------------------------------------------------------------

namespace Sprite

/- The colour index of a row of a sprite in a column. -/
def colorIn
    (s : Sprite)
    (texels : TileRow)
    (px : Fin 8) : ColorIndex :=
  if s.flipsX then texels[7 - px.val] else texels[px.val]

/- A tall sprite begins with a tile of an even number. -/
theorem toNat_firstTile
    (s : Sprite)
    (tall : Bool) :
    (s.firstTile tall).toNat =
      if tall then 2 * (s.tile.toNat / 2)
      else s.tile.toNat := by
  have hEven (v : UInt8) :
      (v &&& 0xFE).toNat = 2 * (v.toNat / 2) := by
    revert v
    exact forall_byte (by decide +kernel)
  cases tall with
  | false => rfl
  | true => exact hEven s.tile

end Sprite

namespace Lcd

variable {x : Nat} (hx : x < screenWidth)

/- A column of a sprite is painted at one place of a line. -/
theorem getElem_drawColumn
    (s : Sprite)
    (texels : TileRow)
    (palette : Palette)
    (indices : IndexRow)
    (row : Row)
    (px : Fin 8) :
    (drawColumn s texels palette indices row px)[x] =
      if s.x.toNat + px = x + 8 ∧
          s.colorIn texels px ≠ 0 ∧
          ¬ (s.behind ∧ indices[x] ≠ 0) then
        palette[s.colorIn texels px]
      else row[x] := by
  have hWidth : x < 160 := hx
  change
    (if hOn :
        8 ≤ s.x.toNat + px ∧
          s.x.toNat + px < screenWidth + 8 then
      if s.colorIn texels px = 0 ||
          (s.behind && indices[s.x.toNat + px - 8] ≠ 0) then
        row
      else row.set (s.x.toNat + px - 8)
        palette[s.colorIn texels px]
    else row)[x] = _
  by_cases hAt : s.x.toNat + px = x + 8
  · obtain rfl : x = s.x.toNat + px - 8 := by omega
    have hOn :
        8 ≤ s.x.toNat + px ∧
          s.x.toNat + px < screenWidth + 8 := by
      unfold screenWidth
      omega
    rw [dif_pos hOn]
    by_cases hShown :
        s.colorIn texels px ≠ 0 ∧
          ¬ (s.behind ∧
            indices[s.x.toNat + px - 8] ≠ 0)
    · rw [if_neg (by grind), if_pos ⟨hAt, hShown⟩]
      exact Vector.getElem_set_self hx
    · rw [if_pos (by grind), if_neg fun h => hShown h.2]
      rfl
  · rw [if_neg (c := _ ∧ _) fun h => hAt h.1]
    split
    · rename_i hOn
      have hNe : s.x.toNat + px - 8 ≠ x := by omega
      split
      · rfl
      · exact Vector.getElem_set_ne _ hx hNe
    · rfl

/- The row of a sprite on a line, flipped or not. -/
theorem toNat_row
    {s : Sprite}
    {tall : Bool}
    {line : Nat}
    (h : s.Covers (spriteHeight tall) line) :
    let down : Int := line - (s.y.toNat - 16)
    (if bit s.attributes 6 then
        (if tall then (16 : Int) else 8) - 1 - down
      else down).toNat =
      s.row (spriteHeight tall) line := by
  intro down
  have hHeight :
      (if tall then (16 : Int) else 8) =
        (spriteHeight tall : Nat) := by
    cases tall <;> rfl
  unfold Sprite.Covers at h
  unfold Sprite.row Sprite.flipsY
  rw [hHeight]
  dsimp only
  split <;> omega

/- The column of a sprite at a place, flipped or not. -/
theorem colorIn_eq
    {s : Sprite}
    (texels : TileRow)
    {px : Fin 8}
    (hAt : s.x.toNat + px = x + 8) :
    let across : Int := x - (s.x.toNat - 8)
    (texels[(if bit s.attributes 5 then 7 - across
        else across).toNat]?).getD 0 =
      s.colorIn texels px := by
  intro across
  have hpx : px.val < 8 := px.isLt
  unfold Sprite.colorIn Sprite.flipsX
  split
  · have hColumn : (7 - across).toNat = 7 - px.val := by
      omega
    have hLow : 7 - px.val < 8 := by omega
    rw [hColumn, Vector.getElem?_eq_getElem hLow]
    rfl
  · have hColumn : across.toNat = px.val := by omega
    rw [hColumn, Vector.getElem?_eq_getElem hpx]
    rfl

/- The colour index of a sprite at a point it lies over. -/
theorem texel_eq_colorIn
    (lcd : Lcd)
    {s : Sprite}
    (h :
      s.Covers (spriteHeight lcd.tallSprites)
        lcd.beam.line)
    {px : Fin 8}
    (hAt : s.x.toNat + px = x + 8) :
    SpriteLayer.texel lcd.tiles s lcd.tallSprites
        lcd.beam.line x =
      s.colorIn (lcd.spriteTexels s h) px := by
  let row := s.row (spriteHeight lcd.tallSprites)
    lcd.beam.line
  let first := (s.firstTile lcd.tallSprites).toNat
  have hRow : row < 16 := row_lt h
  have hFirst : first < 256 := UInt8.toNat_lt _
  have hPlace :
      8 * (first + row / 8) + row % 8 = first * 8 + row := by
    omega
  have hInside : first * 8 + row < tileRowCount := by
    unfold tileRowCount
    omega
  have hTexels :
      lcd.tiles[8 * (first + row / 8) + row % 8]? =
        some (lcd.spriteTexels s h) := by
    rw [hPlace]
    exact Vector.getElem?_eq_getElem hInside
  unfold SpriteLayer.texel
  dsimp only
  rw [← s.toNat_firstTile, toNat_row h]
  change ((lcd.tiles[8 * (first + row / 8) + row % 8]?).bind
    _).getD 0 = _
  rw [hTexels]
  exact colorIn_eq _ hAt

/- A point of the line that a sprite lies over. -/
theorem covers_iff
    {s : Sprite}
    {tall : Bool}
    {line : Nat} :
    SpriteLayer.Covers s (if tall then 16 else 8) line x ↔
      s.Covers (spriteHeight tall) line ∧
        ∃ px : Fin 8, s.x.toNat + px = x + 8 := by
  have hColumn :
      (s.x.toNat ≤ x + 8 ∧ x < s.x.toNat) ↔
        ∃ px : Fin 8, s.x.toNat + px = x + 8 := by
    constructor
    · rintro ⟨hFrom, hTo⟩
      exact ⟨⟨x + 8 - s.x.toNat, by omega⟩,
        by dsimp only; omega⟩
    · rintro ⟨px, hAt⟩
      omega
  rw [← hColumn]
  unfold SpriteLayer.Covers Sprite.Covers spriteHeight
  dsimp only
  split <;> omega

section Columns

variable
  (s : Sprite)
  (texels : TileRow)
  (palette : Palette)
  (indices : IndexRow)
  (row : Row)

/- All columns of a sprite: at most one is at a place. -/
theorem getElem_drawColumns
    {px : Fin 8}
    (hAt : s.x.toNat + px = x + 8) :
    (Fin.foldl 8 (drawColumn s texels palette indices) row)[x] =
      (if s.colorIn texels px ≠ 0 ∧
          ¬ (s.behind ∧ indices[x] ≠ 0) then
        some palette[s.colorIn texels px]
      else none).getD row[x] := by
  apply foldl_mark (fun row : Row => row[x]) px
  · intro row
    rw [getElem_drawColumn hx]
    simp only [hAt, true_and]
    split <;> rfl
  · intro j row hj
    rw [getElem_drawColumn hx]
    exact if_neg fun h => hj (Fin.ext (by omega))

theorem getElem_drawColumns_of_outside
    (hOutside : ∀ px : Fin 8, s.x.toNat + px ≠ x + 8) :
    (Fin.foldl 8 (drawColumn s texels palette indices) row)[x] =
      row[x] := by
  apply foldl_invariant
    (P := fun drawn : Row => drawn[x] = row[x])
    (f := drawColumn s texels palette indices)
  · intro drawn px hDrawn
    rw [getElem_drawColumn hx,
      if_neg fun h => hOutside px h.1]
    exact hDrawn
  · rfl

end Columns

/-
  A sprite marks a point of the line if it is to be seen
  there, and leaves all others.
-/
theorem getElem_drawSprite
    (lcd : Lcd)
    (indices : IndexRow)
    (s : Sprite)
    (row : Row) :
    (lcd.drawSprite indices s row)[x] =
      (SpriteLayer.shade? lcd.regs lcd.tiles s lcd.beam.line
        x indices[x]).getD row[x] := by
  have hTall : bit lcd.regs.control 2 = lcd.tallSprites := rfl
  unfold SpriteLayer.shade? SpriteLayer.Candidate
  simp only [hTall, covers_iff]
  unfold drawSprite
  by_cases hLine :
      s.Covers (spriteHeight lcd.tallSprites) lcd.beam.line
  · rw [dif_pos hLine]
    by_cases hColumn :
        ∃ px : Fin 8, s.x.toNat + px = x + 8
    · rcases hColumn with ⟨px, hAt⟩
      have hHere :
          ∃ px : Fin 8, s.x.toNat + px = x + 8 := ⟨px, hAt⟩
      simp only [hLine, hHere, true_and,
        texel_eq_colorIn lcd hLine hAt]
      exact getElem_drawColumns hx s _ _ indices row hAt
    · have hOutside (px : Fin 8) :
          s.x.toNat + px ≠ x + 8 :=
        fun hAt => hColumn ⟨px, hAt⟩
      rw [if_neg fun h => hColumn h.1.2]
      exact getElem_drawColumns_of_outside hx s _ _ indices
        row hOutside
  · rw [dif_neg hLine, if_neg fun h => hLine h.1.1]
    rfl

/- All sprites: at each point the first to be seen is. -/
theorem getElem_drawSprites
    (lcd : Lcd)
    (oam : SpriteRam)
    (indices : IndexRow)
    (row : Row) :
    (lcd.drawSprites oam indices row)[x] =
      SpriteLayer.pixel lcd.regs lcd.tiles oam lcd.beam.line x
        indices[x] row[x] := by
  unfold drawSprites SpriteLayer.pixel
  apply foldr_mark (fun row : Row => row[x])
  intro i row
  exact getElem_drawSprite hx lcd indices _ row

end Lcd

------------------------------------------------------------
-- Priority
------------------------------------------------------------

namespace SpriteLayer

variable
  {regs : LcdRegisters}
  {tiles : TileCache}
  {oam : SpriteRam}
  {y x : Nat}
  {index : ColorIndex}

/- The candidate with the smallest number is seen. -/
theorem pixel_of_first
    {i : Fin spriteCount}
    (h :
      Candidate regs.control tiles (Sprite.ofRam oam i) y x
        index)
    (hFirst : ∀ j < i,
      ¬ Candidate regs.control tiles (Sprite.ofRam oam j) y x
        index)
    (below : Shade) :
    let s := Sprite.ofRam oam i
    pixel regs tiles oam y x index below =
      (if bit s.attributes 4 then regs.object1
        else regs.object0)[
          texel tiles s (bit regs.control 2) y x] := by
  intro s
  let mark (i : Fin spriteCount) :=
    shade? regs tiles (Sprite.ofRam oam i) y x index
  have hMark : mark i = some _ := if_pos h
  have hEarlier : ∀ j < i, mark j = none := by
    intro j hj
    exact if_neg (hFirst j hj)
  unfold pixel
  rw [findSome?_finRange hMark hEarlier]
  rfl

/- Without a candidate the layer below is. -/
theorem pixel_of_none
    (hNone : ∀ i,
      ¬ Candidate regs.control tiles (Sprite.ofRam oam i) y x
        index)
    (below : Shade) :
    pixel regs tiles oam y x index below = below := by
  have hMarks :
      ((List.finRange spriteCount).findSome? fun i =>
        shade? regs tiles (Sprite.ofRam oam i) y x index) =
          none := by
    rw [List.findSome?_eq_none_iff]
    intro i _
    exact if_neg (hNone i)
  unfold pixel
  rw [hMarks]
  rfl

end SpriteLayer

namespace Lcd

/-
  Sprites over any layer, told point by point: of those that
  lie over a point, are not transparent there and do not stand
  behind the layer, the one with the smallest number is seen,
  and the layer itself if there is none.  So it is for the
  line that is drawn into the picture.
-/
theorem sprites_resolved
    {lcd : Lcd}
    (hVisible : lcd.beam.line < screenHeight)
    (hLcd : bit lcd.regs.control 7 = true)
    (hSprites : bit lcd.regs.control 1 = true)
    (vram : VideoRam)
    (oam : SpriteRam)
    {x : Nat}
    (hx : x < screenWidth) :
    let regs := lcd.regs
    let y := lcd.beam.line
    let layer := lcd.layerIndices vram
    (∀ (indices : IndexRow) (below : Row),
      let seen := (lcd.drawSprites oam indices below)[x]
      let Candidate (i : Fin spriteCount) :=
        SpriteLayer.Candidate regs.control lcd.tiles
          (Sprite.ofRam oam i) y x indices[x]
      (∀ i, Candidate i →
        (∀ j < i, ¬ Candidate j) →
          let s := Sprite.ofRam oam i
          let palette :=
            if bit s.attributes 4 then regs.object1
            else regs.object0
          seen =
            palette[SpriteLayer.texel lcd.tiles s
              (bit regs.control 2) y x]) ∧
        ((∀ i, ¬ Candidate i) → seen = below[x])) ∧
      (lcd.drawLine vram oam).picture[y][x] =
        (lcd.drawSprites oam layer
          (lcd.layerRow layer))[x] := by
  intro regs y layer
  constructor
  · intro indices below seen Candidate
    have hSeen :
        seen =
          SpriteLayer.pixel regs lcd.tiles oam y x indices[x]
            below[x] :=
      getElem_drawSprites hx lcd oam indices below
    rw [hSeen]
    constructor
    · intro i hi hFirst
      exact SpriteLayer.pixel_of_first hi hFirst below[x]
    · intro hNone
      exact SpriteLayer.pixel_of_none hNone below[x]
  · have hOn : lcd.spritesOn = true := by
      unfold spritesOn LcdRegisters.lcdOn
      rw [hLcd, hSprites]
      rfl
    have hRow :
        lcd.composeRow vram oam =
          lcd.drawSprites oam layer
            (lcd.layerRow layer) :=
      if_pos hOn
    unfold drawLine
    rw [dif_pos hVisible]
    simp only [Vector.getElem_set_self, hRow, y]

/-
  A controller that draws sprites alone, with the colours 1
  and 2 in the first rows of the tiles 1 and 2.
-/
def overlapped : Lcd :=
  let tiles := TileCache.blank
  let tiles := tiles.set 8 (.replicate 8 1) (by decide)
  { regs :=
      { control := 0x92
        object0 := .ofByte 0xE4
        object1 := .ofByte 0xFF }
    tiles := tiles.set 16 (.replicate 8 2) (by decide) }

/-
  A sprite that stands out over the left edge, and one of the
  other palette at the edge.
-/
def overlapping : SpriteRam :=
  let bytes : List UInt8 := [16, 4, 1, 0, 16, 8, 2, 0x10]
  Vector.ofFn fun i => bytes[i.val]?.getD 0

/- The first is seen where it is, next to it the second. -/
theorem sprites_overlapping :
    let vram : VideoRam := .replicate 0x2000 0
    let row :=
      (overlapped.drawLine vram overlapping).picture[0]
    overlapped.beam.line < screenHeight ∧
      bit overlapped.regs.control 7 = true ∧
      bit overlapped.regs.control 1 = true ∧
      row[3] = .light ∧ row[5] = .black ∧
      row[20] = .white := by
  intro vram row
  let layer := overlapped.layerIndices vram
  have hLine : overlapped.beam.line < screenHeight := by
    decide
  have hOn :
      bit overlapped.regs.control 7 = true ∧
        bit overlapped.regs.control 1 = true := by
    decide
  have hResolved {x : Nat} (hx : x < screenWidth) :=
    sprites_resolved hLine hOn.1 hOn.2 vram overlapping hx
  refine ⟨hLine, hOn.1, hOn.2, ?_, ?_, ?_⟩
  · rcases hResolved (x := 3) (by decide) with ⟨hAll, hRow⟩
    have hFirst :=
      (hAll layer (overlapped.layerRow layer)).1
        ⟨0, by decide⟩ (by decide +kernel)
        (by decide +kernel)
    exact (hRow.trans hFirst).trans (by decide +kernel)
  · rcases hResolved (x := 5) (by decide) with ⟨hAll, hRow⟩
    have hSecond :=
      (hAll layer (overlapped.layerRow layer)).1
        ⟨1, by decide⟩ (by decide +kernel)
        (by decide +kernel)
    exact (hRow.trans hSecond).trans (by decide +kernel)
  · rcases hResolved (x := 20) (by decide) with ⟨hAll, hRow⟩
    have hNone :=
      (hAll layer (overlapped.layerRow layer)).2
        (by decide +kernel)
    exact (hRow.trans hNone).trans (by decide +kernel)

end Lcd

end Dmg
