import Dmg.Proofs.Checked.Cartridge

/-
  Which images are accepted as cartridges, and with which
  warnings.

  An image is refused for the first reason that applies.  The
  header checksum is a sum that does not cover the byte in
  which it is stored, so that a wrong one can be repaired by
  replacing that byte.

  Key definitions include:
    * `byteSum`
    * `Cartridge.Refused`
    * `Cartridge.repaired`

  Main results:
    * `Cartridge.ofBytes_error_iff`
    * `Cartridge.ofBytes_ok_iff`
    * `headerChecksum_eq`
    * `Cartridge.warnings_repaired`
    * `Cartridge.acceptance`
-/

namespace Dmg

------------------------------------------------------------
-- The Checksum
------------------------------------------------------------

/- The sum of some bytes. -/
def byteSum : List UInt8 → Nat
  | [] => 0
  | b :: bs => b.toNat + byteSum bs

/- Each byte is taken away, and one more. -/
theorem foldl_checksum
    (bs : List UInt8)
    (x : UInt8) :
    ((bs.foldl (fun x b => x - b - 1) x).toNat : Int) =
      (x.toNat - (bs.length + byteSum bs)) % 256 := by
  induction bs generalizing x with
  | nil =>
      have hByte := x.toNat_lt
      simp only [List.foldl_nil, List.length_nil, byteSum]
      omega
  | cons b bs ih =>
      have hNext :
          (x - b - 1).toNat =
            (255 + (256 - b.toNat + x.toNat) % 256) % 256 := by
        rw [UInt8.toNat_sub, UInt8.toNat_sub]
        rfl
      have hByte := b.toNat_lt
      rw [List.foldl_cons, ih, hNext, List.length_cons,
        byteSum]
      omega

/- The checksum of a header, as a sum. -/
theorem headerChecksum_eq
    {image : Array UInt8}
    (h : headerEnd ≤ image.size) :
    let covered := bytesFrom image 0x134 0x14D
    ((headerChecksum image).toNat : Int) =
      -(25 + byteSum covered) % 256 := by
  intro covered
  have hLength : covered.length = 25 := by
    unfold headerEnd at h
    change (image.extract 0x134 0x14D).toList.length = 25
    rw [Array.length_toList, Array.size_extract]
    omega
  have hFold := foldl_checksum covered 0
  rw [hLength] at hFold
  have hZero : ((0 : UInt8).toNat : Int) = 0 := rfl
  rw [hZero, Int.zero_sub] at hFold
  exact hFold

/- Bytes before a byte that is replaced are the same. -/
theorem bytesFrom_set
    (image : Array UInt8)
    {i start stop : Nat}
    (h : stop ≤ i)
    (hi : i < image.size)
    (v : UInt8) :
    bytesFrom (image.set i v) start stop =
      bytesFrom image start stop := by
  unfold bytesFrom
  refine congrArg Array.toList ?_
  apply Array.ext_getElem?
  intro k
  rw [Array.getElem?_extract, Array.getElem?_extract,
    Array.size_set]
  split
  · rw [Array.getElem?_set_ne]
    omega
  · rfl

namespace Cartridge

variable {image : Array UInt8}

------------------------------------------------------------
-- Refusals
------------------------------------------------------------

/- The first thing that is wrong with an image. -/
inductive Refused
    (image : Array UInt8) : CartridgeFault → Prop where
  | tooSmall
      (h : image.size < 0x150) :
      Refused image (.malformed (.tooSmall image.size))
  | kind
      {k : UInt8}
      (hSize : 0x150 ≤ image.size)
      (hKind : image[0x147]? = some k)
      (h : k ≠ 0) :
      Refused image (.unsupportedKind k)
  | size
      {n : UInt8}
      (hSize : 0x150 ≤ image.size)
      (hKind : image[0x147]? = some 0)
      (hCode : image[0x148]? = some n)
      (h : n ≠ 0) :
      Refused image (.unsupportedSize n)
  | wrongSize
      (hSize : 0x150 ≤ image.size)
      (hKind : image[0x147]? = some 0)
      (hCode : image[0x148]? = some 0)
      (h : image.size ≠ 0x8000) :
      Refused image (.malformed (.wrongSize image.size))

/- An image is accepted, or refused for the first reason. -/
theorem ofBytes_cases
    (image : Array UInt8) :
    (∃ e, ofBytes image = .error e ∧ Refused image e) ∨
      ∃ h : image.size = romSize,
        ofBytes image = .ok ⟨⟨image, h⟩⟩ ∧
          image[0x147]? = some 0 ∧
          image[0x148]? = some 0 := by
  unfold ofBytes
  by_cases hHeader : image.size < headerEnd
  · rw [dif_pos hHeader]
    exact .inl ⟨_, rfl, .tooSmall hHeader⟩
  · have hLong : 0x150 ≤ image.size :=
      Nat.le_of_not_lt hHeader
    have hKind : image[0x147]? = some image[0x147] :=
      Array.getElem?_eq_getElem (by omega)
    have hCode : image[0x148]? = some image[0x148] :=
      Array.getElem?_eq_getElem (by omega)
    rw [dif_neg hHeader]
    dsimp only
    by_cases hNoKind : image[0x147] = 0
    · rw [if_neg (not_not_intro hNoKind)]
      rw [hNoKind] at hKind
      by_cases hNoCode : image[0x148] = 0
      · rw [if_neg (not_not_intro hNoCode)]
        rw [hNoCode] at hCode
        by_cases hSize : image.size = romSize
        · rw [dif_pos hSize]
          exact .inr ⟨hSize, rfl, hKind, hCode⟩
        · rw [dif_neg hSize]
          exact .inl ⟨_, rfl, .wrongSize hLong hKind hCode hSize⟩
      · rw [if_pos hNoCode]
        exact .inl ⟨_, rfl, .size hLong hKind hCode hNoCode⟩
    · rw [if_pos hNoKind]
      exact .inl ⟨_, rfl, .kind hLong hKind hNoKind⟩

/- What is wrong first is one thing. -/
theorem Refused.unique
    {e e' : CartridgeFault}
    (h : Refused image e)
    (h' : Refused image e') :
    e = e' := by
  cases h with
  | tooSmall hShort =>
      cases h' with
      | tooSmall _ => rfl
      | _ => omega
  | kind hLong hKind hNe => cases h' <;> grind
  | size hLong hKind hCode hNe => cases h' <;> grind
  | wrongSize hLong hKind hCode hNe => cases h' <;> grind

/- It is not wrong with a plain image of 32 KiB. -/
theorem Refused.not_plain
    {e : CartridgeFault}
    (h : Refused image e) :
    ¬ (image.size = 0x8000 ∧ image[0x147]? = some 0 ∧
      image[0x148]? = some 0) := by
  rintro ⟨hSize, hPlainKind, hPlainCode⟩
  cases h with
  | tooSmall hShort => omega
  | kind _ hKind hNe =>
      rw [hPlainKind] at hKind
      exact hNe (Option.some_inj.mp hKind).symm
  | size _ _ hCode hNe =>
      rw [hPlainCode] at hCode
      exact hNe (Option.some_inj.mp hCode).symm
  | wrongSize _ _ _ hNe => exact hNe hSize

/- The fault is the first thing that is wrong. -/
theorem ofBytes_error_iff
    (e : CartridgeFault) :
    ofBytes image = .error e ↔ Refused image e := by
  rcases ofBytes_cases image with
    ⟨e', hError, hRefused⟩ | ⟨hSize, hOk, hKind, hCode⟩
  · rw [hError, Except.error.injEq]
    constructor
    · rintro rfl
      exact hRefused
    · intro h
      exact hRefused.unique h
  · rw [hOk]
    constructor
    · intro h
      cases h
    · intro h
      exact absurd ⟨hSize, hKind, hCode⟩ h.not_plain

/- Exactly the plain images of 32 KiB are accepted, as such. -/
theorem ofBytes_ok_iff
    (c : Cartridge) :
    ofBytes image = .ok c ↔
      c.rom.toArray = image ∧ image[0x147]? = some 0 ∧
        image[0x148]? = some 0 := by
  constructor
  · intro h
    rcases ofBytes_cases image with
      ⟨e, hError, -⟩ | ⟨hSize, hOk, hKind, hCode⟩
    · rw [hError] at h
      cases h
    · rw [hOk] at h
      cases h
      exact ⟨rfl, hKind, hCode⟩
  · rintro ⟨rfl, hKind, hCode⟩
    have hSize : c.rom.toArray.size = 0x8000 := c.rom.size_toArray
    rcases ofBytes_cases c.rom.toArray with
      ⟨e, -, hRefused⟩ | ⟨_, hOk, -⟩
    · exact absurd ⟨hSize, hKind, hCode⟩ hRefused.not_plain
    · exact hOk

------------------------------------------------------------
-- Repairs
------------------------------------------------------------

theorem checksumPlace_lt :
    0x14D < romSize := by
  decide

/- A cartridge with its checksum stored. -/
def repaired
    (c : Cartridge) : Cartridge :=
  ⟨c.rom.set 0x14D (headerChecksum c.rom.toArray)
    checksumPlace_lt⟩

variable (c : Cartridge)

theorem rom_repaired
    {i : Nat}
    (hi : i < romSize)
    (hNe : 0x14D ≠ i) :
    c.repaired.rom[i] = c.rom[i] :=
  Vector.getElem_set_ne checksumPlace_lt hi hNe

theorem bytesFrom_repaired
    {start stop : Nat}
    (h : stop ≤ 0x14D) :
    bytesFrom c.repaired.rom.toArray start stop =
      bytesFrom c.rom.toArray start stop :=
  bytesFrom_set c.rom.toArray h
    (by rw [Vector.size_toArray]; decide) _

/- The checksum does not cover itself. -/
theorem headerChecksum_repaired :
    headerChecksum c.repaired.rom.toArray =
      headerChecksum c.rom.toArray := by
  unfold headerChecksum
  rw [c.bytesFrom_repaired (by decide)]

/- So no more than the logo earns a warning. -/
theorem warnings_repaired :
    c.repaired.warnings =
      if bytesFrom c.rom.toArray 0x104 0x134 = logo then []
      else [.logoMismatch] := by
  have hStored :
      c.repaired.storedChecksum =
        headerChecksum c.repaired.rom.toArray := by
    rw [headerChecksum_repaired]
    exact Vector.getElem_set_self _
  unfold warnings
  dsimp only
  rw [if_pos hStored, List.append_nil,
    c.bytesFrom_repaired (by decide)]

theorem title_repaired :
    c.repaired.title = c.title := by
  unfold title
  rw [c.bytesFrom_repaired (by decide)]

theorem kind_repaired :
    c.repaired.kind = c.kind :=
  c.rom_repaired (by decide) (by decide)

theorem ramSize_repaired :
    c.repaired.ramSize = c.ramSize := by
  have hCode :=
    c.rom_repaired (i := 0x149) (by decide) (by decide)
  unfold ramSize
  dsimp only
  rw [hCode]

/- What is stored is the image with one byte replaced. -/
theorem toArray_repaired :
    c.repaired.rom.toArray =
      c.rom.toArray.setIfInBounds 0x14D
        (headerChecksum c.rom.toArray) := by
  have hByte : 0x14D < c.rom.toArray.size := by
    rw [Vector.size_toArray]
    decide
  rw [Array.setIfInBounds, dif_pos hByte]
  rfl

------------------------------------------------------------
-- Acceptance
------------------------------------------------------------

/-
  No image is read beyond its end, whether it is accepted or
  refused.  Exactly the images of 32 KiB whose header says so
  and names no mapper are accepted, and all others are refused
  for the first reason.

  A cartridge holds the image as it is.  It earns a warning
  for a wrong logo, and then one for a wrong checksum.  Once
  the checksum is stored in its place, the image is accepted
  without the second, and else it is read as before.
-/
theorem acceptance
    (image : Array UInt8) :
    ofBytesChecked image = some (ofBytes image) ∧
      ((∃ c, ofBytes image = .ok c) ↔
        image.size = 0x8000 ∧ image[0x147]? = some 0 ∧
          image[0x148]? = some 0) ∧
      (∀ e, ofBytes image = .error e ↔ Refused image e) ∧
      ∀ c, ofBytes image = .ok c →
        let covered := bytesFrom image 0x134 0x14D
        let computed := headerChecksum image
        let logoWarning : List HeaderWarning :=
          if bytesFrom image 0x104 0x134 = logo then []
          else [.logoMismatch]
        c.acceptanceEventsChecked =
            some (Machine.acceptanceEvents c) ∧
          c.rom.toArray = image ∧
          (computed.toNat : Int) =
            -(25 + byteSum covered) % 256 ∧
          (∃ stored,
            image[0x14D]? = some stored ∧
              c.warnings =
                logoWarning ++
                  if stored = computed then []
                  else [.checksumMismatch stored computed]) ∧
          ∃ d,
            ofBytes (image.setIfInBounds 0x14D computed) =
                .ok d ∧
              d.warnings = logoWarning ∧
              d.title = c.title ∧ d.kind = c.kind ∧
              d.ramSize = c.ramSize := by
  refine ⟨ofBytesChecked_eq image, ?_, ofBytes_error_iff, ?_⟩
  · constructor
    · rintro ⟨c, hOk⟩
      obtain ⟨rfl, hPlain⟩ := (ofBytes_ok_iff c).mp hOk
      exact ⟨c.rom.size_toArray, hPlain⟩
    · rintro ⟨hSize, hPlain⟩
      exact ⟨⟨⟨image, hSize⟩⟩, (ofBytes_ok_iff _).mpr
        ⟨rfl, hPlain⟩⟩
  · intro c hOk
    obtain ⟨rfl, hKind, hCode⟩ := (ofBytes_ok_iff c).mp hOk
    intro covered computed logoWarning
    have hLong : headerEnd ≤ c.rom.toArray.size := by
      rw [Vector.size_toArray]
      decide
    have hByte (i : Nat) (hi : i < romSize) :
        c.rom.toArray[i]? = some c.rom[i] :=
      Array.getElem?_eq_getElem (c.rom.size_toArray.symm ▸ hi)
    refine ⟨c.acceptanceEventsChecked_eq, rfl,
      headerChecksum_eq hLong,
      ⟨c.storedChecksum, hByte 0x14D checksumPlace_lt, rfl⟩,
      c.repaired, ?_, c.warnings_repaired, c.title_repaired,
      c.kind_repaired, c.ramSize_repaired⟩
    apply (ofBytes_ok_iff c.repaired).mpr
    refine ⟨c.toArray_repaired, ?_, ?_⟩
    · rw [Array.getElem?_setIfInBounds_ne (by decide)]
      exact hKind
    · rw [Array.getElem?_setIfInBounds_ne (by decide)]
      exact hCode

/- An image of zeros. -/
def blankImage : Array UInt8 := .replicate romSize 0

theorem bytesFrom_blankImage
    {start stop : Nat}
    (h : stop ≤ romSize) :
    bytesFrom blankImage start stop =
      .replicate (stop - start) 0 := by
  unfold bytesFrom blankImage
  rw [Array.extract_replicate, Array.toList_replicate,
    Nat.min_eq_left h]

/-
  The checksum of 25 zeros is not zero.  Once it is stored,
  the logo is left to warn of.
-/
theorem acceptance_blankImage :
    ∃ c d,
      ofBytes blankImage = .ok c ∧
        c.warnings =
          [.logoMismatch, .checksumMismatch 0x00 0xE7] ∧
        ofBytes (blankImage.setIfInBounds 0x14D 0xE7) =
          .ok d ∧
        d.warnings = [.logoMismatch] ∧
        ofBytes #[] = .error (.malformed (.tooSmall 0)) := by
  have hByte (i : Nat) (hi : i < romSize) :
      blankImage[i]? = some 0 := by
    unfold blankImage
    rw [Array.getElem?_replicate, if_pos hi]
  obtain ⟨-, hOk, -, hAccepted⟩ := acceptance blankImage
  obtain ⟨-, -, hError, -⟩ := acceptance #[]
  obtain ⟨c, hc⟩ :=
    hOk.mpr
      ⟨Array.size_replicate, hByte 0x147 (by decide),
        hByte 0x148 (by decide)⟩
  obtain ⟨-, -, hSum, ⟨stored, hStored, hWarnings⟩, d, hd,
    hRepaired, -⟩ := hAccepted c hc
  have hLogo :
      bytesFrom blankImage 0x104 0x134 ≠ logo := by
    rw [bytesFrom_blankImage (by decide)]
    decide
  have hComputed : headerChecksum blankImage = 0xE7 := by
    rw [bytesFrom_blankImage (by decide)] at hSum
    apply UInt8.toNat_inj.mp
    apply Int.ofNat_inj.mp
    rw [hSum]
    decide
  rw [hByte 0x14D (by decide)] at hStored
  cases hStored
  rw [if_neg hLogo, hComputed] at hWarnings
  rw [if_neg hLogo] at hRepaired
  rw [hComputed] at hd
  exact ⟨c, d, hc, hWarnings, hd, hRepaired,
    (hError _).mpr (.tooSmall (by decide))⟩

end Cartridge

end Dmg
