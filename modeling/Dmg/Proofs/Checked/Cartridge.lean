import Dmg.Machine
import Dmg.Proofs.Checked.Bounds

/-
  Cartridges with their header fields and copies checked.

  An image is only read after its size has been compared with
  that of a header, and only copied after it has been compared
  with that of the ROM.  No image, accepted or refused, is
  read or copied beyond its end.

  Key definitions include:
    * `bytesFromChecked`
    * `Cartridge.ofBytesChecked`
    * `Cartridge.acceptanceEventsChecked`
    * `Cartridge.copyChecked`

  Main results:
    * `Cartridge.ofBytesChecked_eq`
    * `Cartridge.acceptanceEventsChecked_eq`
    * `Cartridge.copyChecked_eq`
-/

namespace Dmg

open Checked

/- The bytes of an image from one address up to another. -/
def bytesFromChecked
    (image : Array UInt8)
    (start stop : Nat) : Option (List UInt8) := do
  slice image.size start stop
  some (bytesFrom image start stop)

theorem bytesFromChecked_eq
    {image : Array UInt8}
    {start stop : Nat}
    (hStart : start ≤ stop)
    (hStop : stop ≤ image.size) :
    bytesFromChecked image start stop =
      some (bytesFrom image start stop) := by
  unfold bytesFromChecked
  rw [slice_of_le hStart hStop]
  rfl

namespace Cartridge

------------------------------------------------------------
-- Acceptance
------------------------------------------------------------

/- The size that a code in the header stands for, if any. -/
def declaredSizeChecked
    (code : UInt8) : Option (Option Nat) :=
  if code ≤ 8 then do
    let k ← amount 64 code.toNat
    some (some (romSize <<< k))
  else some none

/- Accept or refuse an image. -/
def ofBytesChecked
    (image : Array UInt8) :
    Option (Except CartridgeFault Cartridge) :=
  if image.size < headerEnd then
    some (.error (.malformed (.tooSmall image.size)))
  else do
    let kind ← image[0x147]?
    if kind ≠ 0 then some (.error (.unsupportedKind kind))
    else do
      let code ← image[0x148]?
      let size ← declaredSizeChecked code
      if size ≠ some romSize then
        some (.error (.unsupportedSize code))
      else if hSize : image.size = romSize then
        some (.ok ⟨⟨image, hSize⟩⟩)
      else
        some (.error (.malformed (.wrongSize image.size)))

/- Only the code zero stands for the size of the ROM. -/
theorem declaredSizeChecked_eq
    (code : UInt8) :
    ∃ size, declaredSizeChecked code = some size ∧
      (size = some romSize ↔ code = 0) := by
  unfold declaredSizeChecked
  by_cases hCode : code ≤ 8
  · have hAmount : code.toNat ≤ 8 := hCode
    refine ⟨some (romSize <<< code.toNat), ?_, ?_⟩
    · rw [if_pos hCode, amount_of_lt (by omega)]
      rfl
    · rw [Option.some_inj, Nat.shiftLeft_eq, ← UInt8.toNat_inj]
      change romSize * 2 ^ code.toNat = romSize ↔
        code.toNat = 0
      constructor
      · intro hSame
        have hOne : 2 ^ code.toNat = 1 :=
          Nat.eq_of_mul_eq_mul_left (by decide)
            (hSame.trans (Nat.mul_one romSize).symm)
        exact (Nat.pow_eq_one.mp hOne).resolve_left
          (by decide)
      · intro hZero
        rw [hZero, Nat.pow_zero, Nat.mul_one]
  · refine ⟨none, if_neg hCode, ?_⟩
    constructor
    · intro hNone
      cases hNone
    · rintro rfl
      exact absurd (by decide) hCode

theorem ofBytesChecked_eq
    (image : Array UInt8) :
    ofBytesChecked image = some (ofBytes image) := by
  unfold ofBytesChecked ofBytes
  by_cases hHeader : image.size < headerEnd
  · rw [if_pos hHeader, dif_pos hHeader]
  · have hLong : 0x150 ≤ image.size :=
      Nat.le_of_not_lt hHeader
    have hKind : image[0x147]? = some image[0x147] :=
      Array.getElem?_eq_getElem (by omega)
    have hCode : image[0x148]? = some image[0x148] :=
      Array.getElem?_eq_getElem (by omega)
    rcases declaredSizeChecked_eq image[0x148] with
      ⟨size, hSize, hZero⟩
    rw [if_neg hHeader, dif_neg hHeader]
    simp only [hKind, hCode, hSize, Option.bind_eq_bind,
      Option.bind_some, ne_eq, hZero]
    split
    · rfl
    · split
      · rfl
      · split <;> rfl

------------------------------------------------------------
-- The Header
------------------------------------------------------------

/- The title in the header. -/
def titleChecked
    (c : Cartridge) : Option String := do
  let field ← bytesFromChecked c.rom.toArray 0x134 0x144
  some (String.ofList (titleText field))

/- The size of the external RAM that the header declares. -/
def ramSizeChecked
    (c : Cartridge) : Option Nat := do
  let _ ← get c.rom 0x149
  some c.ramSize

/- What the header earns a warning for. -/
def warningsChecked
    (c : Cartridge) : Option (List HeaderWarning) := do
  let bitmap ← bytesFromChecked c.rom.toArray 0x104
    (0x104 + logo.length)
  let stored ← get c.rom 0x14D
  let covered ← bytesFromChecked c.rom.toArray 0x134 0x14D
  let computed := covered.foldl (fun x b => x - b - 1) 0
  some
    ((if bitmap = logo then [] else [.logoMismatch]) ++
      (if stored = computed then []
        else [.checksumMismatch stored computed]))

/- What is to be reported of an accepted cartridge. -/
def acceptanceEventsChecked
    (c : Cartridge) : Option (List Message) := do
  let warnings ← c.warningsChecked
  let title ← c.titleChecked
  let ramSize ← c.ramSizeChecked
  some (.cartridgeAccepted title c.kind ramSize ::
    warnings.map .headerWarning)

theorem titleChecked_eq
    (c : Cartridge) :
    c.titleChecked = some c.title := by
  have hStop : 0x144 ≤ c.rom.toArray.size := by
    rw [Vector.size_toArray]
    decide
  unfold titleChecked
  rw [bytesFromChecked_eq (by decide) hStop]
  rfl

theorem warningsChecked_eq
    (c : Cartridge) :
    c.warningsChecked = some c.warnings := by
  have hLong : headerEnd ≤ c.rom.toArray.size := by
    rw [Vector.size_toArray]
    decide
  have hBitmap :
      bytesFromChecked c.rom.toArray 0x104
          (0x104 + logo.length) =
        some (bytesFrom c.rom.toArray 0x104
          (0x104 + logo.length)) :=
    bytesFromChecked_eq (by decide)
      (Nat.le_trans (by decide) hLong)
  have hCovered :
      bytesFromChecked c.rom.toArray 0x134 0x14D =
        some (bytesFrom c.rom.toArray 0x134 0x14D) :=
    bytesFromChecked_eq (by decide)
      (Nat.le_trans (by decide) hLong)
  have hStored := get_of_lt c.rom (i := 0x14D) (by decide)
  simp only [warningsChecked, hBitmap, hCovered, hStored,
    Option.bind_eq_bind, Option.bind_some]
  rfl

/- The header of an accepted cartridge is all there. -/
theorem acceptanceEventsChecked_eq
    (c : Cartridge) :
    c.acceptanceEventsChecked =
      some (Machine.acceptanceEvents c) := by
  have hCode := get_of_lt c.rom (i := 0x149) (by decide)
  simp only [acceptanceEventsChecked, warningsChecked_eq,
    titleChecked_eq, ramSizeChecked, hCode,
    Option.bind_eq_bind, Option.bind_some]
  rfl

------------------------------------------------------------
-- The ROM
------------------------------------------------------------

/-
  The ROM with an image at its start, and cleared after the
  end of the image.
-/
def copyChecked
    (c : Cartridge) : Option (Vector UInt8 romSize) := do
  let length := min c.rom.toArray.size romSize
  slice romSize 0 length
  slice c.rom.toArray.size 0 length
  slice romSize length romSize
  some (.ofFn fun i => if i.val < length then c.rom[i] else 0)

/- The image of a cartridge fills the ROM. -/
theorem copyChecked_eq
    (c : Cartridge) :
    c.copyChecked = some c.rom := by
  have hAll :
      (Vector.ofFn fun i : Fin romSize =>
        if i.val < romSize then c.rom[i] else 0) = c.rom := by
    apply Vector.ext
    intro i hi
    rw [Vector.getElem_ofFn, if_pos hi]
    rfl
  unfold copyChecked
  simp only [Vector.size_toArray, Nat.min_self,
    slice_of_le (Nat.zero_le romSize) (Nat.le_refl romSize),
    slice_of_le (Nat.le_refl romSize) (Nat.le_refl romSize),
    Option.bind_eq_bind, Option.bind_some, hAll]

end Cartridge

end Dmg
