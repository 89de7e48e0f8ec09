/-
  Bytes and 16-bit words as the machine combines them, and
  single bits of a byte.

  Key definitions include:
    * `word`
    * `highByte`
    * `lowByte`
    * `signExtend`
    * `bit`
    * `setBit`

  A word is determined by its two bytes
  (`word_highByte_lowByte`), and a byte by its eight bits
  (`byte_ext`).
-/

namespace Dmg

------------------------------------------------------------
-- Words And Their Bytes
------------------------------------------------------------

/- The word with the given high and low byte. -/
def word
    (hi lo : UInt8) : UInt16 :=
  (hi.toUInt16 <<< 8) ||| lo.toUInt16

/- The upper eight bits of a word. -/
def highByte
    (w : UInt16) : UInt8 :=
  (w >>> 8).toUInt8

/- The lower eight bits of a word. -/
def lowByte
    (w : UInt16) : UInt8 :=
  w.toUInt8

/- A byte read as a two's complement offset, as a word. -/
def signExtend
    (b : UInt8) : UInt16 :=
  if b < 0x80 then b.toUInt16 else 0xFF00 ||| b.toUInt16

theorem toNat_word
    (hi lo : UInt8) :
    (word hi lo).toNat = hi.toNat * 256 + lo.toNat := by
  have hHi := hi.toNat_lt
  have hOr :=
    Nat.shiftLeft_add_eq_or_of_lt lo.toNat_lt hi.toNat
  have hMod : hi.toNat * 256 % 65536 = hi.toNat * 256 := by
    omega
  simp only [Nat.shiftLeft_eq] at hOr
  simp only [word, UInt16.toNat_or, UInt16.toNat_shiftLeft,
    UInt8.toNat_toUInt16]
  simpa [Nat.shiftLeft_eq, hMod] using hOr.symm

theorem toNat_highByte
    (w : UInt16) :
    (highByte w).toNat = w.toNat / 256 := by
  have h := w.toNat_lt
  simp only [highByte, UInt16.toNat_toUInt8,
    UInt16.toNat_shiftRight, Nat.shiftRight_eq_div_pow]
  change w.toNat / 256 % 256 = w.toNat / 256
  omega

theorem toNat_lowByte
    (w : UInt16) :
    (lowByte w).toNat = w.toNat % 256 := by
  simp [lowByte]

theorem highByte_word
    (hi lo : UInt8) :
    highByte (word hi lo) = hi := by
  have hLo := lo.toNat_lt
  apply UInt8.toNat_inj.mp
  rw [toNat_highByte, toNat_word]
  omega

theorem lowByte_word
    (hi lo : UInt8) :
    lowByte (word hi lo) = lo := by
  have hLo := lo.toNat_lt
  apply UInt8.toNat_inj.mp
  rw [toNat_lowByte, toNat_word]
  omega

theorem lowByte_toUInt16
    (b : UInt8) :
    lowByte b.toUInt16 = b := by
  have hB := b.toNat_lt
  apply UInt8.toNat_inj.mp
  rw [toNat_lowByte, UInt8.toNat_toUInt16]
  omega

/- A word is determined by its two bytes. -/
theorem word_highByte_lowByte
    (w : UInt16) :
    word (highByte w) (lowByte w) = w := by
  apply UInt16.toNat_inj.mp
  rw [toNat_word, toNat_highByte, toNat_lowByte]
  omega

------------------------------------------------------------
-- Bits Of A Byte
------------------------------------------------------------

/-
  Literals of the positions in a byte, and of the values of
  two bits.
-/
instance neZero_eight : @NeZero Nat Zero.ofOfNat0 8 :=
  ⟨by decide⟩

instance neZero_four : @NeZero Nat Zero.ofOfNat0 4 :=
  ⟨by decide⟩

/- Whether bit `i` of a byte is set. -/
def bit
    (b : UInt8)
    (i : Nat) : Bool :=
  b.toNat.testBit i

/- The byte in which only bit `i` is set. -/
def bitMask
    (i : Fin 8) : UInt8 :=
  1 <<< i.val.toUInt8

/- Set or clear bit `i` of a byte. -/
def setBit
    (b : UInt8)
    (i : Fin 8)
    (on : Bool) : UInt8 :=
  if on then b ||| bitMask i else b &&& ~~~bitMask i

/- A one in bit zero if the flag holds. -/
def carryBit
    (flag : Bool) : UInt8 :=
  if flag then 1 else 0

theorem bit_or
    (a b : UInt8)
    (i : Nat) :
    bit (a ||| b) i = (bit a i || bit b i) := by
  simp [bit]

theorem bit_and
    (a b : UInt8)
    (i : Nat) :
    bit (a &&& b) i = (bit a i && bit b i) := by
  simp [bit]

theorem bit_not
    (a : UInt8)
    (i : Fin 8) :
    bit (~~~a) i = !bit a i := by
  change (~~~a.toBitVec).getLsbD i.val =
    !a.toBitVec.getLsbD i.val
  rw [BitVec.getLsbD_not]
  simp [i.isLt]

theorem bit_bitMask
    (i j : Fin 8) :
    bit (bitMask i) j = decide (i = j) := by
  revert i j
  decide

/- Setting a bit changes that bit only. -/
theorem bit_setBit
    (b : UInt8)
    (i j : Fin 8)
    (on : Bool) :
    bit (setBit b i on) j =
      if i = j then on else bit b j := by
  cases on with
  | false =>
      by_cases h : i = j <;>
        simp [setBit, bit_and, bit_not, bit_bitMask, h]
  | true =>
      by_cases h : i = j <;>
        simp [setBit, bit_or, bit_bitMask, h]

/- A byte is determined by its eight bits. -/
theorem byte_ext
    {a b : UInt8}
    (h : ∀ i : Fin 8, bit a i = bit b i) :
    a = b := by
  apply UInt8.toBitVec_inj.mp
  apply BitVec.eq_of_getLsbD_eq
  intro i hi
  exact h ⟨i, hi⟩

/- What holds of all 256 bytes holds of every byte. -/
theorem forall_byte
    {P : UInt8 → Prop}
    (h : ∀ n : Fin 256, P (UInt8.ofNat n.val))
    (op : UInt8) :
    P op := by
  have hByte := h ⟨op.toNat, op.toNat_lt⟩
  rw [UInt8.ofNat_toNat] at hByte
  exact hByte

end Dmg
