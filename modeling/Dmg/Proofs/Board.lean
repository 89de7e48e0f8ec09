import Dmg.Board
import Dmg.Proofs.Cpu.Invariant
import Dmg.Proofs.Cpu.Latches
import Dmg.Proofs.Cpu.MasterEnable

/-
  What accesses leave alone: the beam of the LCD, the latch of
  a completed frame, the bits of the status register that
  cannot be written, and the master enable.

  Key definitions include:
    * `LcdRegisters.Masked`
    * `Board.Undisturbed`

  Main results:
    * `Board.copySprites_cases`
    * `Board.lcd_write_cases`
    * `Board.undisturbed_write`
    * `Wired.invariant_lcd`
-/

namespace Dmg

/- What the turns of a fold lead to, told turn by turn. -/
theorem foldl_turns
    {α : Type}
    {P : Nat → α → Prop}
    {n : Nat}
    {f : α → Fin n → α}
    (hTurn : ∀ (i : Fin n) a, P i a → P (i + 1) (f a i))
    {a : α}
    (ha : P 0 a) :
    P n (Fin.foldl n f a) := by
  induction n with
  | zero =>
      rw [Fin.foldl_zero]
      exact ha
  | succ n ih =>
      rw [Fin.foldl_succ_last]
      apply hTurn (Fin.last n)
      exact ih fun i => hTurn i.castSucc

/- What holds of a start holds of a fold if steps keep it. -/
theorem foldl_invariant
    {α : Type}
    {P : α → Prop}
    {n : Nat}
    {f : α → Fin n → α}
    (hStep : ∀ a i, P a → P (f a i))
    {a : α}
    (ha : P a) :
    P (Fin.foldl n f a) :=
  foldl_turns (P := fun _ => P) (fun i a => hStep a i) ha

------------------------------------------------------------
-- The Sprite Copy
------------------------------------------------------------

namespace Board

theorem get_set_of_ne
    {n : Nat}
    (xs : Vector UInt8 n)
    {i j : Fin n}
    (v : UInt8)
    (h : j ≠ i) :
    (xs.set i v i.isLt).get j = xs.get j := by
  have hNe : i.val ≠ j.val := fun hEq => h (Fin.ext hEq.symm)
  exact Vector.getElem_set_ne i.isLt j.isLt hNe

/- Copying changes the sprites, not what follows them. -/
theorem foldl_copySprite
    (b : Board)
    (page : UInt8) :
    ∃ ram : SpriteRam,
      (∀ i : Fin 0x100, spriteCopyLength ≤ i.val →
        ram.get i = b.spriteRam.get i) ∧
      Fin.foldl spriteCopyLength (copySprite page) b =
        { b with spriteRam := ram } := by
  apply foldl_invariant
    (P := fun c : Board =>
      ∃ ram : SpriteRam,
        (∀ i : Fin 0x100, spriteCopyLength ≤ i.val →
          ram.get i = b.spriteRam.get i) ∧
        c = { b with spriteRam := ram })
  · rintro c i ⟨ram, hTail, rfl⟩
    have hi : i.val < 160 := i.isLt
    refine ⟨_, ?_, rfl⟩
    intro j hj
    have hNe : i.val ≠ j.val := Nat.ne_of_lt
      (Nat.lt_of_lt_of_le i.isLt hj)
    rw [← hTail j hj]
    exact Vector.getElem_set_ne _ j.isLt hNe
  · exact ⟨b.spriteRam, fun _ _ => rfl, rfl⟩

/- The sprite copy changes them and the page register. -/
theorem copySprites_cases
    (b : Board)
    (page : UInt8) :
    ∃ (ram : SpriteRam) (registers : Vector UInt8 0x80),
      (∀ i : Fin 0x100, spriteCopyLength ≤ i.val →
        ram.get i = b.spriteRam.get i) ∧
      (∀ i, i ≠ spriteCopyRegister →
        registers.get i = b.registers.get i) ∧
      b.copySprites page =
        { b with
          spriteRam := ram
          registers := registers } := by
  rcases foldl_copySprite b page with ⟨ram, hTail, hEq⟩
  let registers :=
    b.registers.set spriteCopyRegister page
      spriteCopyRegister.isLt
  refine ⟨ram, registers, hTail, ?_, ?_⟩
  · intro i hi
    exact get_set_of_ne b.registers page hi
  · unfold copySprites
    rw [hEq]

end Board

------------------------------------------------------------
-- Writes
------------------------------------------------------------

/-
  No source is selected by the bits of the status register
  that show the mode and the coincidence.
-/
def LcdRegisters.Masked
    (r : LcdRegisters) : Prop :=
  r.selects &&& 0x07 = 0

theorem LcdRegisters.masked_write
    {r : LcdRegisters}
    (h : r.Masked)
    (x : LcdRegister)
    (v : UInt8) :
    (r.write x v).Masked := by
  cases x with
  | status =>
      have hMask : (v &&& 0x78) &&& 0x07 = 0 := by
        rw [UInt8.and_assoc]
        exact UInt8.and_zero
      exact hMask
  | _ => exact h

/-
  Between two boards, neither the beam nor the frame latch nor
  the master enable has changed, and the status register is
  still masked.
-/
structure Board.Undisturbed
    (a b : Board) : Prop where
  beam : b.lcd.beam = a.lcd.beam
  frameReady : b.lcd.frameReady = a.lcd.frameReady
  masked : a.lcd.regs.Masked → b.lcd.regs.Masked
  master : b.interrupts.master = a.interrupts.master

namespace Board

theorem undisturbed_writeVideo
    (b : Board)
    (i : Fin 0x2000)
    (v : UInt8) :
    Undisturbed b (b.writeVideo i v) := by
  unfold writeVideo
  split <;> exact ⟨rfl, rfl, id, rfl⟩

theorem undisturbed_copySprites
    (b : Board)
    (page : UInt8) :
    Undisturbed b (b.copySprites page) := by
  rcases copySprites_cases b page with
    ⟨ram, registers, -, -, hCopy⟩
  rw [hCopy]
  exact ⟨rfl, rfl, id, rfl⟩

theorem undisturbed_writeSerialControl
    (b : Board)
    (v : UInt8) :
    Undisturbed b (b.writeSerialControl v) := by
  constructor
  · rfl
  · rfl
  · intro h
    exact h
  · unfold writeSerialControl
    split <;> rfl

/- No write disturbs the beam, the latch or the enable. -/
theorem undisturbed_write
    (b : Board)
    (addr : UInt16)
    (v : UInt8) :
    Undisturbed b (b.write addr v) := by
  unfold write
  cases Location.ofAddress addr with
  | videoRam i => exact undisturbed_writeVideo b i v
  | serialControl =>
      exact undisturbed_writeSerialControl b v
  | spriteCopy => exact undisturbed_copySprites b v
  | lcd x =>
      constructor
      · rfl
      · rfl
      · intro h
        exact LcdRegisters.masked_write h x v
      · rfl
  | _ => exact ⟨rfl, rfl, id, rfl⟩

/-
  What a write can do to the LCD controller: decode a tile
  anew, or write a register.
-/
theorem lcd_write_cases
    (b : Board)
    (addr : UInt16)
    (v : UInt8) :
    (∃ tiles,
        (b.write addr v).lcd =
          { b.lcd with tiles := tiles }) ∨
      ∃ x, Location.ofAddress addr = .lcd x ∧
        (b.write addr v).lcd = b.lcd.write x v := by
  unfold write
  cases Location.ofAddress addr with
  | videoRam i =>
      refine .inl ⟨(b.writeVideo i v).lcd.tiles, ?_⟩
      change (b.writeVideo i v).lcd = _
      unfold writeVideo
      split <;> rfl
  | spriteCopy =>
      rcases copySprites_cases b v with
        ⟨ram, registers, -, -, hCopy⟩
      refine .inl ⟨b.lcd.tiles, ?_⟩
      unfold writeAt
      rw [hCopy]
  | lcd x => exact .inr ⟨x, rfl, rfl⟩
  | _ => exact .inl ⟨b.lcd.tiles, rfl⟩

theorem undisturbed_setButton
    (b : Board)
    (button : Button)
    (held : Bool) :
    Undisturbed b (b.setButton button held) := by
  constructor
  · rfl
  · rfl
  · intro h
    exact h
  · unfold setButton
    split <;> rfl

end Board

------------------------------------------------------------
-- The Board As A Bus
------------------------------------------------------------

namespace Wired

instance : Bus.KeepsMaster Wired where
  interrupts_setInterrupts _ _ := rfl
  master_read _ _ := rfl
  master_write addr v w :=
    (w.board.undisturbed_write addr v).master
  master_note _ _ := rfl

instance : Bus.QuietReads Wired where
  interrupts_read _ _ := rfl
  interrupts_note _ _ := rfl
  read_read _ _ _ := rfl

/-
  Accesses keep the beam and the frame latch of an LCD, and
  the status register masked.
-/
theorem invariant_lcd
    (lcd : Lcd) :
    Bus.Invariant fun w : Wired =>
      w.board.lcd.beam = lcd.beam ∧
        w.board.lcd.frameReady = lcd.frameReady ∧
        (lcd.regs.Masked → w.board.lcd.regs.Masked) where
  read _ _ h := h
  write addr v w h := by
    have hWrite := w.board.undisturbed_write addr v
    rcases h with ⟨hBeam, hReady, hMasked⟩
    refine ⟨hWrite.beam.trans hBeam,
      hWrite.frameReady.trans hReady, ?_⟩
    intro hBefore
    exact hWrite.masked (hMasked hBefore)
  setInterrupts _ _ h := h
  note _ _ h := h

end Wired

end Dmg
