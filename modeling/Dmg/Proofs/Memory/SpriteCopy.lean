import Dmg.Proofs.Memory.Footprint

/-
  The sprite copy, made one byte after the other, is the copy
  of a whole page at once.

  Every byte is read through the memory map, in which the
  sprites copied so far already show.  They show in the page
  of sprite memory alone, and there a byte is read before it
  is overwritten, by itself.  So each byte read is one that
  was there before the copy.

  Key definitions include:
    * `Board.withSprites`
    * `Board.spritesFrom`

  Main results:
    * `Board.copySprites_eq`
    * `Board.sprite_copy_at_once`
-/

namespace Dmg

namespace Location

/- Sprite memory lies at one page, in order. -/
theorem toNat_of_spriteRam
    {a : UInt16}
    {j : Fin 0x100}
    (h : ofAddress a = .spriteRam j) :
    a.toNat = 0xFE00 + j.val := by
  have hCell : Address.cell a = .ofNat (0xFE00 + j.val) := by
    rw [← address_ofAddress, h]
    rfl
  have hPlace : (Address.cell a).toNat = 0xFE00 + j.val := by
    rw [hCell, UInt16.toNat_ofNat']
    omega
  have hSelf : Address.cell a = a := by
    apply Address.cell_eq_self
    rw [UInt16.le_iff_toNat_le, hPlace]
    exact Nat.le_add_right 0xFE00 j.val
  rw [← hPlace, hSelf]

theorem ofAddress_sprite :
    ∀ i : Fin 0x100,
      ofAddress (.ofNat (0xFE00 + i.val)) = .spriteRam i := by
  decide +kernel

end Location

theorem word_eq_ofNat
    (page : UInt8)
    {i : Nat}
    (hi : i < 0x100) :
    word page i.toUInt8 = .ofNat (page.toNat * 256 + i) := by
  have hPage := page.toNat_lt
  have hOffset : i.toUInt8.toNat = i := Nat.mod_eq_of_lt hi
  apply UInt16.toNat_inj.mp
  rw [toNat_word, hOffset, UInt16.toNat_ofNat']
  omega

namespace Board

/- The same board with other sprites. -/
def withSprites
    (b : Board)
    (ram : SpriteRam) : Board :=
  { b with spriteRam := ram }

/-
  Sprite memory into which the first bytes of a page have been
  copied, all as they are read on the same board.
-/
def spritesFrom
    (b : Board)
    (page : UInt8)
    (k : Nat) : SpriteRam :=
  .ofFn fun i =>
    if i.val < k then b.read (word page i.val.toUInt8)
    else b.spriteRam.get i

variable (b : Board) (page : UInt8)

theorem get_spritesFrom
    (k : Nat)
    (i : Fin 0x100) :
    (b.spritesFrom page k).get i =
      if i.val < k then b.read (word page i.val.toUInt8)
      else b.spriteRam.get i :=
  Vector.getElem_ofFn i.isLt

theorem withSprites_spritesFrom_zero :
    b.withSprites (b.spritesFrom page 0) = b := by
  have hSame : b.spritesFrom page 0 = b.spriteRam := by
    apply Vector.ext
    intro i hi
    exact b.get_spritesFrom page 0 ⟨i, hi⟩
  unfold withSprites
  rw [hSame]

/- A sprite is read at its place. -/
theorem read_sprite
    (i : Fin 0x100) :
    b.read (.ofNat (0xFE00 + i.val)) = b.spriteRam.get i := by
  unfold read
  rw [Location.ofAddress_sprite]
  rfl

/- Other sprites show only where sprites are read. -/
theorem read_withSprites
    {ram : SpriteRam}
    {a : UInt16}
    (h : ∀ j, Location.ofAddress a = .spriteRam j →
      ram.get j = b.spriteRam.get j) :
    (b.withSprites ram).read a = b.read a := by
  unfold read
  cases hLocation : Location.ofAddress a with
  | spriteRam j => exact h j hLocation
  | _ => rfl

/-
  The sprites copied so far do not show in the byte that is
  copied next: in their own page they lie below it.
-/
theorem read_while_copying
    {i : Nat}
    (hi : i < 0x100) :
    (b.withSprites (b.spritesFrom page i)).read
        (word page i.toUInt8) =
      b.read (word page i.toUInt8) := by
  apply read_withSprites
  intro j hPlace
  have hAddress := Location.toNat_of_spriteRam hPlace
  have hOffset : i.toUInt8.toNat = i := Nat.mod_eq_of_lt hi
  rw [toNat_word, hOffset] at hAddress
  have hSelf : ¬ j.val < i := by omega
  rw [get_spritesFrom, if_neg hSelf]

/- One turn of the copy. -/
theorem copySprite_withSprites
    (ram : SpriteRam)
    (i : Fin spriteCopyLength)
    (hi : i.val < 0x100) :
    copySprite page (b.withSprites ram) i =
      b.withSprites
        (ram.set i.val
          ((b.withSprites ram).read
            (word page i.val.toUInt8)) hi) :=
  rfl

theorem copySprite_spritesFrom
    (i : Fin spriteCopyLength) :
    copySprite page (b.withSprites (b.spritesFrom page i)) i =
      b.withSprites (b.spritesFrom page (i + 1)) := by
  have hi : i.val < 0x100 := Nat.lt_trans i.isLt (by decide)
  rw [copySprite_withSprites b page _ i hi,
    b.read_while_copying page hi]
  apply congrArg b.withSprites
  apply Vector.ext
  intro j hj
  have hBefore := b.get_spritesFrom page i ⟨j, hj⟩
  have hAfter := b.get_spritesFrom page (i + 1) ⟨j, hj⟩
  refine Eq.trans ?_ hAfter.symm
  by_cases hSelf : i.val = j
  · subst hSelf
    rw [if_pos (Nat.lt_succ_self _)]
    exact Vector.getElem_set_self hi
  · have hNext : j < i.val + 1 ↔ j < i.val := by omega
    simp only [hNext]
    rw [← hBefore]
    exact Vector.getElem_set_ne hi hj hSelf

/- All turns together copy the page as it was. -/
theorem copySprites_eq :
    b.copySprites page =
      { b with
        spriteRam := b.spritesFrom page spriteCopyLength
        registers :=
          b.registers.set spriteCopyRegister page
            spriteCopyRegister.isLt } := by
  have hTurns :
      Fin.foldl spriteCopyLength (copySprite page) b =
        b.withSprites (b.spritesFrom page spriteCopyLength) := by
    apply foldl_turns
      (P := fun k c =>
        c = b.withSprites (b.spritesFrom page k))
    · rintro i c rfl
      exact b.copySprite_spritesFrom page i
    · exact (b.withSprites_spritesFrom_zero page).symm
  unfold copySprites
  rw [hTurns]
  simp only [withSprites]

/-
  A write to the copy register copies 160 bytes of a page into
  sprite memory, each as it was read before the write, from
  wherever the page lies; the register keeps the page.  What
  follows the copied sprites and all else on the board is
  unchanged.  So a copy of sprite memory onto itself does
  nothing, and a copy of the page of registers copies the page
  copied before.
-/
theorem sprite_copy_at_once
    (b : Board)
    (page : UInt8) :
    let c := b.write 0xFF46 page
    (∀ i : Fin 160,
        c.read (.ofNat (0xFE00 + i.val)) =
          b.read (.ofNat (page.toNat * 256 + i.val))) ∧
      c.read 0xFF46 = page ∧
      (∀ i : Fin 0x100, 160 ≤ i.val →
        c.spriteRam.get i = b.spriteRam.get i) ∧
      c =
        { b with
          spriteRam := c.spriteRam
          registers :=
            b.registers.set spriteCopyRegister page
              spriteCopyRegister.isLt } ∧
      (page = 0xFE → c.spriteRam = b.spriteRam) ∧
      (page = 0xFF → c.read 0xFE46 = b.read 0xFF46) := by
  intro c
  have hCopy :
      c =
        { b with
          spriteRam := b.spritesFrom page spriteCopyLength
          registers :=
            b.registers.set spriteCopyRegister page
              spriteCopyRegister.isLt } :=
    b.copySprites_eq page
  have hSprites :
      c.spriteRam = b.spritesFrom page spriteCopyLength := by
    rw [hCopy]
  have hCopied (i : Fin 0x100) (hi : i.val < spriteCopyLength) :
      c.spriteRam.get i =
        b.read (.ofNat (page.toNat * 256 + i.val)) := by
    rw [hSprites, get_spritesFrom, if_pos hi,
      word_eq_ofNat page i.isLt]
  have hKept (i : Fin 0x100) (hi : spriteCopyLength ≤ i.val) :
      c.spriteRam.get i = b.spriteRam.get i := by
    rw [hSprites, get_spritesFrom,
      if_neg (Nat.not_lt_of_le hi)]
  refine ⟨?_, ?_, hKept, ?_, ?_, ?_⟩
  · intro i
    have hi : i.val < 0x100 := Nat.lt_trans i.isLt (by decide)
    rw [c.read_sprite ⟨i.val, hi⟩]
    exact hCopied ⟨i.val, hi⟩ i.isLt
  · rw [hCopy]
    exact Vector.getElem_set_self spriteCopyRegister.isLt
  · rw [hSprites]
    exact hCopy
  · rintro rfl
    apply Vector.ext
    intro i hi
    have hSelf := b.read_sprite ⟨i, hi⟩
    rcases Nat.lt_or_ge i 160 with hLow | hHigh
    · exact (hCopied ⟨i, hi⟩ hLow).trans hSelf
    · exact hKept ⟨i, hi⟩ hHigh
  · rintro rfl
    exact (c.read_sprite 0x46).trans (hCopied 0x46 (by decide))

/- The sprite memory of a new board, with one byte written. -/
def marked : Board :=
  ({} : Board).write 0xFE10 0x5A

/-
  Copied onto itself, that memory keeps the byte.  From the
  page of registers the copy takes the page copied before, and
  thereafter that register reads 0xFF.
-/
theorem sprite_copy_overlapping :
    (marked.write 0xFF46 0xFE).spriteRam = marked.spriteRam ∧
      ((marked.write 0xFF46 0xFE).write 0xFF46 0xFF).read
        0xFE46 = 0xFE := by
  obtain ⟨-, hPage, -, -, hSelf, -⟩ :=
    marked.sprite_copy_at_once 0xFE
  obtain ⟨-, -, -, -, -, hRegister⟩ :=
    (marked.write 0xFF46 0xFE).sprite_copy_at_once 0xFF
  exact ⟨hSelf rfl, (hRegister rfl).trans hPage⟩

end Board

end Dmg
