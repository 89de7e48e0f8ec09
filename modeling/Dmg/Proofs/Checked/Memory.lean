import Dmg.Proofs.Checked.Bounds
import Dmg.Proofs.Board
import Dmg.Proofs.Cpu.Invariant
import Dmg.Proofs.Cpu.Translation

/-
  Memory, tiles and palettes with their indices checked.

  An address less the start of its range is an index into the
  memory there.  A write to video memory decodes a tile row
  pixel by pixel, a write to a palette looks up four shades,
  and a sprite copy reads 160 bytes.  At no address is a table
  left, whatever the board holds.

  Key definitions include:
    * `Board.readChecked`
    * `TileCache.updateChecked`
    * `Palette.ofByteChecked`
    * `Board.writeChecked`
    * `Board.freshChecked`
    * `Guarded`

  Main results:
    * `Board.readChecked_eq`
    * `Board.writeChecked_eq`
    * `Board.freshChecked_eq`
    * `Guarded.invariant_intact`
-/

namespace Dmg

open Checked

------------------------------------------------------------
-- Places In Memory
------------------------------------------------------------

namespace Location

/-
  The address from which a location is counted: the start of
  the range of its memory, or of the page of registers.
-/
def start
    (addr : UInt16) : Location → Nat
  | .rom _ => 0
  | .videoRam _ => 0x8000
  | .cartridgeRam _ => 0xA000
  | .workRam _ => if addr.toNat < 0xE000 then 0xC000 else 0xE000
  | .spriteRam _ => 0xFE00
  | .highRam _ => 0xFF80
  | _ => 0xFF00

/- The index of a location in its memory, if it has one. -/
def index? : Location → Option Nat
  | .rom i => some i
  | .videoRam i => some i
  | .cartridgeRam i => some i
  | .workRam i => some i
  | .spriteRam i => some i
  | .register i => some i
  | .highRam i => some i
  | _ => none

theorem index?_ofOffset :
    ∀ i : Fin 0x80,
      (ofOffset i).index? = none ∨
        (ofOffset i).index? = some i.val := by
  decide

theorem start_ofOffset
    (addr : UInt16)
    (i : Fin 0x80) :
    (ofOffset i).start addr = 0xFF00 := by
  unfold ofOffset
  split <;> rfl

/- An address is an index counted from a start. -/
theorem toNat_ofAddress
    (addr : UInt16) :
    let l := ofAddress addr
    l.start addr ≤ addr.toNat ∧
      ∀ i, l.index? = some i →
        addr.toNat - l.start addr = i := by
  unfold ofAddress
  dsimp only
  -- One round for each range below the page of registers.
  iterate 6
    split
    · grind [start, index?]
  split
  · rw [start_ofOffset]
    refine ⟨by omega, ?_⟩
    intro i hIndex
    rcases index?_ofOffset ⟨addr.toNat - 0xFF00, by omega⟩
      with hNone | hSome
    · rw [hNone] at hIndex
      cases hIndex
    · rw [hSome] at hIndex
      exact Option.some.inj hIndex
  · split
    · grind [start, index?]
    · grind [start, index?]

end Location

------------------------------------------------------------
-- Reads
------------------------------------------------------------

/- The byte at an address. -/
def Board.readChecked
    (b : Board)
    (addr : UInt16) : Option UInt8 := do
  let l := Location.ofAddress addr
  let i ← sub addr.toNat (l.start addr)
  match l with
  | .rom _ => get b.rom i
  | .videoRam _ => get b.videoRam i
  | .cartridgeRam _ => get b.cartridgeRam i
  | .workRam _ => get b.workRam i
  | .spriteRam _ => get b.spriteRam i
  | .spriteCopy => get b.registers 0x46
  | .register _ => get b.registers i
  | .highRam _ => get b.highRam i
  | _ => some (b.readAt l)

theorem Board.readChecked_eq
    (b : Board)
    (addr : UInt16) :
    b.readChecked addr = some (b.read addr) := by
  rcases Location.toNat_ofAddress addr with ⟨hStart, hIndex⟩
  unfold readChecked read
  dsimp only
  rw [sub_of_le hStart, Option.bind_eq_bind,
    Option.bind_some]
  cases hLocation : Location.ofAddress addr with
  | rom i | videoRam i | cartridgeRam i | workRam i
  | spriteRam i | register i | highRam i =>
      rw [hLocation] at hIndex
      simp only [hIndex _ rfl]
      exact get_of_lt _ i.isLt
  | spriteCopy => exact get_of_lt _ (by decide)
  | _ => rfl

------------------------------------------------------------
-- Tiles
------------------------------------------------------------

namespace TileRow

/- A byte taken for a colour index. -/
def colorChecked
    (v : UInt8) : Option ColorIndex :=
  if h : v.toNat < 4 then some ⟨v.toNat, h⟩ else none

/- The pixel of a column of the row that two bytes describe. -/
def pixelChecked
    (low high : UInt8)
    (x : Nat) : Option ColorIndex := do
  let bit ← sub 7 x
  let k ← amount 8 bit
  colorChecked
    (((low >>> k.toUInt8) &&& 1) |||
      (((high >>> k.toUInt8) &&& 1) <<< (1 : UInt8)))

/- Decode a row in place. -/
def decodeChecked
    (low high : UInt8)
    (row : TileRow) : Option TileRow :=
  loop 0 8
    (fun x row => do
      let color ← pixelChecked low high x
      set row x color)
    row

/- A bit of a byte, shifted down to be a number. -/
theorem shiftRight_and_one
    (v : UInt8)
    (k : Fin 8) :
    (v >>> k.val.toUInt8) &&& 1 = carryBit (bit v k) := by
  revert k
  revert v
  exact forall_byte (by decide +kernel)

theorem colorChecked_bits
    (low high : Bool) :
    colorChecked
        (carryBit low ||| (carryBit high <<< (1 : UInt8))) =
      some (colorIndex low high) := by
  cases low <;> cases high <;> decide

theorem pixelChecked_eq
    (low high : UInt8)
    (x : Fin 8) :
    pixelChecked low high x =
      some (colorIndex (bit low (7 - x))
        (bit high (7 - x))) := by
  have hx : x.val < 8 := x.isLt
  have hBit : 7 - x.val < 8 := by omega
  have hLow := shiftRight_and_one low ⟨7 - x.val, hBit⟩
  have hHigh := shiftRight_and_one high ⟨7 - x.val, hBit⟩
  simp only at hLow hHigh
  simp only [pixelChecked, sub_of_le (Nat.le_of_lt_succ hx),
    amount_of_lt hBit, Option.bind_eq_bind, Option.bind_some,
    hLow, hHigh]
  exact colorChecked_bits _ _

theorem decodeChecked_eq
    (low high : UInt8)
    (row : TileRow) :
    decodeChecked low high row = some (decode low high) := by
  apply loop_fill
  intro x row
  rw [pixelChecked_eq]
  exact set_of_lt row x.isLt _

end TileRow

namespace TileCache

/-
  The place of a row in the cache, given the tile and the row
  within it.
-/
def placeChecked
    (tile row : Nat) : Option Nat := do
  require (tile < 384)
  require (row < 8)
  some (tile * 8 + row)

theorem placeChecked_eq
    {tile row : Nat}
    (hTile : tile < 384)
    (hRow : row < 8) :
    placeChecked tile row = some (tile * 8 + row) := by
  simp only [placeChecked, require_of hTile, require_of hRow,
    Option.bind_eq_bind, Option.bind_some]

/- There is no tile after the last. -/
example : placeChecked 384 0 = none := by
  decide

/-
  Decode the row that holds the tile byte at an offset.  An
  offset whose row does not lie in video memory is passed
  over.
-/
def updateChecked
    (cache : TileCache)
    (vram : VideoRam)
    (offset : Nat) : Option TileCache :=
  let base := offset &&& 0x1FFE
  let tile := (base >>> 4) &&& 0x1FF
  let row := (base >>> 1) &&& 7
  match vram[base]?, vram[base + 1]? with
  | some low, some high => do
      let place ← placeChecked tile row
      let old ← get cache place
      let decoded ← TileRow.decodeChecked low high old
      set cache place decoded
  | _, _ => some cache

/- Clearing the lowest bit of an offset. -/
theorem and_1FFE
    {i : Nat}
    (hi : i < 0x2000) :
    i &&& 0x1FFE = i / 2 * 2 := by
  have hHalf : (i &&& 0x1FFE) / 2 = i / 2 := by
    rw [Nat.and_div_two]
    have hMask : 0x1FFE / 2 = 2 ^ 12 - 1 := rfl
    rw [hMask, Nat.and_two_pow_sub_one_eq_mod]
    omega
  have hEven : (i &&& 0x1FFE) % 2 = 0 := by
    have hOne := Nat.and_mod_two_eq_one (a := i) (b := 0x1FFE)
    omega
  omega

theorem updateChecked_eq
    (cache : TileCache)
    (vram : VideoRam)
    {offset : Nat}
    (h : offset < tileDataSize) :
    cache.updateChecked vram offset =
      some (cache.update vram offset h) := by
  have hOffset : offset < 0x1800 := h
  have hBase : offset &&& 0x1FFE = offset / 2 * 2 :=
    and_1FFE (by omega)
  have hTile :
      ((offset / 2 * 2) >>> 4) &&& 0x1FF = offset / 16 := by
    rw [Nat.shiftRight_eq_div_pow]
    have hMask := Nat.and_two_pow_sub_one_eq_mod
      (offset / 2 * 2 / 2 ^ 4) 9
    refine hMask.trans ?_
    omega
  have hRow :
      ((offset / 2 * 2) >>> 1) &&& 7 = offset / 2 % 8 := by
    rw [Nat.shiftRight_eq_div_pow]
    have hMask := Nat.and_two_pow_sub_one_eq_mod
      (offset / 2 * 2 / 2 ^ 1) 3
    refine hMask.trans ?_
    omega
  have hPlace :
      placeChecked (offset / 16) (offset / 2 % 8) =
        some (offset / 2) := by
    rw [placeChecked_eq (by omega) (by omega)]
    congr 1
    omega
  have hCache : offset / 2 < tileRowCount := by
    unfold tileRowCount
    omega
  have hHigh : offset / 2 * 2 + 1 < 0x2000 := by omega
  simp only [updateChecked, hBase, hTile, hRow, hPlace,
    Vector.getElem?_eq_getElem hHigh,
    Vector.getElem?_eq_getElem (Nat.lt_of_succ_lt hHigh),
    get_of_lt cache hCache, TileRow.decodeChecked_eq,
    Option.bind_eq_bind, Option.bind_some]
  exact set_of_lt cache hCache _

end TileCache

------------------------------------------------------------
-- Palettes
------------------------------------------------------------

namespace Palette

/- The shades, lightest first. -/
def shades : Palette :=
  #v[.white, .light, .dark, .black]

/- Decode the byte of a palette register in place. -/
def ofByteChecked
    (v : UInt8)
    (palette : Palette) : Option Palette :=
  loop 0 4
    (fun i palette => do
      let double ← mul 64 i 2
      let k ← amount 8 double
      let shade ← get shades ((v >>> k.toUInt8) &&& 3).toNat
      set palette i shade)
    palette

/- Two bits of a byte name a shade. -/
theorem get_shades
    (v : UInt8)
    (i : Fin 4) :
    get shades ((v >>> (i.val * 2).toUInt8) &&& 3).toNat =
      some (Shade.ofBits (bit v (2 * i + 1))
        (bit v (2 * i))) := by
  revert i
  revert v
  exact forall_byte (by decide +kernel)

theorem ofByteChecked_eq
    (v : UInt8)
    (palette : Palette) :
    ofByteChecked v palette = some (ofByte v) := by
  apply loop_fill
  intro i palette
  have hi : i.val < 4 := i.isLt
  have hDouble : mul 64 i.val 2 = some (i.val * 2) :=
    mul_of_lt (by omega)
  have hShift : i.val * 2 < 8 := by omega
  simp only [hDouble, amount_of_lt hShift, get_shades,
    Option.bind_eq_bind, Option.bind_some]
  exact set_of_lt palette hi _

end Palette

/- The effect of a write to a register of the controller. -/
def Lcd.writeChecked
    (lcd : Lcd)
    (x : LcdRegister)
    (v : UInt8) : Option Lcd :=
  match x with
  | .background => do
      let palette ←
        Palette.ofByteChecked v lcd.regs.background
      some { lcd with
        regs := { lcd.regs with background := palette } }
  | .object0 => do
      let palette ← Palette.ofByteChecked v lcd.regs.object0
      some { lcd with
        regs := { lcd.regs with object0 := palette } }
  | .object1 => do
      let palette ← Palette.ofByteChecked v lcd.regs.object1
      some { lcd with
        regs := { lcd.regs with object1 := palette } }
  | _ => some (lcd.write x v)

theorem Lcd.writeChecked_eq
    (lcd : Lcd)
    (x : LcdRegister)
    (v : UInt8) :
    lcd.writeChecked x v = some (lcd.write x v) := by
  cases x with
  | background | object0 | object1 =>
      simp only [writeChecked, Palette.ofByteChecked_eq]
      rfl
  | _ => rfl

------------------------------------------------------------
-- Writes
------------------------------------------------------------

namespace Board

/- Set a byte of video memory and keep its tile decoded. -/
def writeVideoChecked
    (b : Board)
    (i : Nat)
    (v : UInt8) : Option Board := do
  let vram ← set b.videoRam i v
  if i ≤ 0x17FF then do
    let tiles ← b.lcd.tiles.updateChecked vram i
    some { b with
      videoRam := vram
      lcd := { b.lcd with tiles := tiles } }
  else some { b with videoRam := vram }

/- Copy one byte of a page into sprite memory. -/
def copySpriteChecked
    (page : UInt8)
    (i : Nat)
    (b : Board) : Option Board := do
  let v ← b.readChecked (word page 0 + i.toUInt16)
  let ram ← set b.spriteRam i v
  some { b with spriteRam := ram }

/- Copy the start of a page into sprite memory, at once. -/
def copySpritesChecked
    (b : Board)
    (page : UInt8) : Option Board := do
  let b ← loop 0 160 (copySpriteChecked page) b
  let registers ← set b.registers 0x46 page
  some { b with registers := registers }

/- The effect of a write at an address. -/
def writeChecked
    (b : Board)
    (addr : UInt16)
    (v : UInt8) : Option Board := do
  let l := Location.ofAddress addr
  let i ← sub addr.toNat (l.start addr)
  match l with
  | .videoRam _ => b.writeVideoChecked i v
  | .cartridgeRam _ => do
      let ram ← set b.cartridgeRam i v
      some { b with cartridgeRam := ram }
  | .workRam _ => do
      let ram ← set b.workRam i v
      some { b with workRam := ram }
  | .spriteRam _ => do
      let ram ← set b.spriteRam i v
      some { b with spriteRam := ram }
  | .lcd x => do
      let lcd ← b.lcd.writeChecked x v
      some { b with lcd := lcd }
  | .spriteCopy => b.copySpritesChecked v
  | .register _ => do
      let registers ← set b.registers i v
      some { b with registers := registers }
  | .highRam _ => do
      let ram ← set b.highRam i v
      some { b with highRam := ram }
  | _ => some (b.writeAt v l)

theorem writeVideoChecked_eq
    (b : Board)
    (i : Fin 0x2000)
    (v : UInt8) :
    b.writeVideoChecked i v = some (b.writeVideo i v) := by
  simp only [writeVideoChecked, writeVideo,
    set_of_lt b.videoRam i.isLt, Option.bind_eq_bind,
    Option.bind_some]
  by_cases hTile : i.val < tileDataSize
  · have hLow : i.val ≤ 0x17FF := Nat.le_of_lt_succ hTile
    rw [if_pos hLow, dif_pos hTile,
      TileCache.updateChecked_eq _ _ hTile]
    rfl
  · have hLow : ¬ i.val ≤ 0x17FF := fun h =>
      hTile (Nat.lt_succ_of_le h)
    rw [if_neg hLow, dif_neg hTile]

/- The bytes of a page, counted with wrapping. -/
theorem word_add
    (page : UInt8)
    {i : Nat}
    (hi : i < 160) :
    word page 0 + i.toUInt16 = word page i.toUInt8 := by
  have hPage := page.toNat_lt
  apply UInt16.toNat_inj.mp
  have hWord : i.toUInt16.toNat = i :=
    Nat.mod_eq_of_lt (by omega)
  have hByte : i.toUInt8.toNat = i :=
    Nat.mod_eq_of_lt (by omega)
  rw [UInt16.toNat_add, toNat_word, toNat_word, hWord, hByte]
  change (page.toNat * 256 + 0 + i) % 2 ^ 16 = _
  omega

theorem copySpritesChecked_eq
    (b : Board)
    (page : UInt8) :
    b.copySpritesChecked page = some (b.copySprites page) := by
  have hTurn (i : Fin spriteCopyLength) (b : Board) :
      copySpriteChecked page i b =
        some (copySprite page b i) := by
    have hi : i.val < 160 := i.isLt
    unfold copySpriteChecked
    rw [word_add page hi, readChecked_eq]
    simp only [Option.bind_eq_bind, Option.bind_some,
      set_of_lt b.spriteRam (Nat.lt_trans hi (by decide))]
    rfl
  have hLoop :=
    loop_eq_foldl (g := copySprite page) hTurn b
  have hPage : 0x46 < 0x80 := by decide
  unfold copySpritesChecked
  change ((loop 0 spriteCopyLength _ b).bind _) = _
  simp only [hLoop, Option.bind_some, Option.bind_eq_bind,
    set_of_lt _ hPage]
  rfl

/- At no address does a write leave a table. -/
theorem writeChecked_eq
    (b : Board)
    (addr : UInt16)
    (v : UInt8) :
    b.writeChecked addr v = some (b.write addr v) := by
  rcases Location.toNat_ofAddress addr with ⟨hStart, hIndex⟩
  unfold writeChecked write
  dsimp only
  rw [sub_of_le hStart, Option.bind_eq_bind,
    Option.bind_some]
  cases hLocation : Location.ofAddress addr with
  | videoRam i =>
      rw [hLocation] at hIndex
      simp only [hIndex _ rfl]
      exact b.writeVideoChecked_eq i v
  | cartridgeRam i | workRam i | spriteRam i | register i
  | highRam i =>
      rw [hLocation] at hIndex
      simp only [hIndex _ rfl, set_of_lt _ i.isLt]
      rfl
  | lcd x =>
      simp only [Lcd.writeChecked_eq]
      rfl
  | spriteCopy => exact b.copySpritesChecked_eq v
  | _ => rfl

------------------------------------------------------------
-- A Fresh Board
------------------------------------------------------------

/- All plain registers as a program finds them. -/
def registersAtEntryChecked : Option (Vector UInt8 0x80) :=
  registerDefaults.foldlM
    (fun registers (i, v) => do
      let k ← sub (0xFF00 + i.val) 0xFF00
      set registers k v)
    (.replicate 0x80 0)

/- The controller as a program finds it. -/
def lcdAtEntryChecked : Option Lcd := do
  let background ← Palette.ofByteChecked 0xFC Palette.shades
  let object0 ← Palette.ofByteChecked 0xFF Palette.shades
  let object1 ← Palette.ofByteChecked 0xFF Palette.shades
  some
    { regs :=
        { background := background
          object0 := object0
          object1 := object1 } }

/- A board with an image, as a program finds it. -/
def freshChecked
    (rom : Vector UInt8 romSize) : Option Board := do
  let registers ← registersAtEntryChecked
  let lcd ← lcdAtEntryChecked
  some { rom := rom, registers := registers, lcd := lcd }

theorem registersAtEntryChecked_eq :
    registersAtEntryChecked = some registersAtEntry := by
  apply foldlM_some
  rintro registers ⟨i, v⟩
  have hStart : 0xFF00 ≤ 0xFF00 + i.val := Nat.le_add_right _ _
  simp only [sub_of_le hStart, Nat.add_sub_cancel_left,
    Option.bind_eq_bind, Option.bind_some]
  exact set_of_lt registers i.isLt v

theorem freshChecked_eq
    (rom : Vector UInt8 romSize) :
    freshChecked rom = some { rom := rom } := by
  simp only [freshChecked, registersAtEntryChecked_eq,
    lcdAtEntryChecked, Palette.ofByteChecked_eq,
    Option.bind_eq_bind, Option.bind_some]

end Board

------------------------------------------------------------
-- The Bus
------------------------------------------------------------

/- A board and its journal, and whether no check has failed. -/
structure Guarded where
  wired : Wired
  intact : Bool

namespace Guarded

/- A check has failed. -/
def fail
    (g : Guarded) : Guarded :=
  { g with intact := false }

/- Change the board and its journal. -/
def mapWired
    (f : Wired → Wired)
    (g : Guarded) : Guarded :=
  { g with wired := f g.wired }

/- Read at an address, if the checks allow it. -/
def read
    (addr : UInt16)
    (g : Guarded) : UInt8 × Guarded :=
  match g.wired.board.readChecked addr with
  | some v => (v, g)
  | none => (0xFF, g.fail)

/- Write at an address, if the checks allow it. -/
def write
    (addr : UInt16)
    (v : UInt8)
    (g : Guarded) : Guarded :=
  match g.wired.board.writeChecked addr v with
  | some board =>
      g.mapWired fun w => ⟨board, (w.write addr v).journal⟩
  | none => g.fail

instance : Bus Guarded where
  read := read
  write := write
  interrupts g := Bus.interrupts g.wired
  setInterrupts ic := mapWired (Bus.setInterrupts ic)
  note m := mapWired (Bus.note m)

theorem read_eq
    (addr : UInt16)
    (g : Guarded) :
    g.read addr = (g.wired.board.read addr, g) := by
  unfold read
  rw [Board.readChecked_eq]

theorem write_eq
    (addr : UInt16)
    (v : UInt8)
    (g : Guarded) :
    g.write addr v = g.mapWired (Wired.write addr v) := by
  unfold write
  rw [Board.writeChecked_eq]
  rfl

/- Without the checks the bus is the board's. -/
theorem translation_wired :
    Bus.Translation wired where
  read addr g :=
    congrArg (fun r : UInt8 × Guarded => (r.1, wired r.2))
      (read_eq addr g).symm
  write addr v g := congrArg wired (write_eq addr v g).symm
  interrupts _ := rfl
  setInterrupts _ _ := rfl
  note _ _ := rfl

/- No access to the bus fails a check. -/
theorem invariant_intact :
    Bus.Invariant fun g : Guarded => g.intact = true where
  read addr g h := by
    have hRead := congrArg (·.2.intact) (read_eq addr g)
    exact hRead.trans h
  write addr v g h := by
    have hWrite := congrArg (·.intact) (write_eq addr v g)
    exact hWrite.trans h
  setInterrupts _ _ h := h
  note _ _ h := h

end Guarded

end Dmg
