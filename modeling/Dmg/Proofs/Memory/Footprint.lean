import Dmg.Proofs.Board
import Dmg.Proofs.Timer

/-
  What a write at one address changes of what is read at all
  others.

  Memory keeps what is written to it, at every address that
  names the same cell.  A write to a register of a device
  changes what is read at a few addresses at most.

  Key definitions include:
    * `Location.reach`
    * `Location.Keeps`
    * `Location.address`
    * `Address.cell`
    * `Address.IsStorage`
    * `Address.deviceReach`

  Main results:
    * `Board.readAt_writeAt_of_not_mem`
    * `Board.readAt_writeAt_self`
    * `Location.ofAddress_eq_iff`
    * `Board.read_write`
-/

namespace Dmg

------------------------------------------------------------
-- Locations
------------------------------------------------------------

namespace Location

/- The sprites in sprite memory. -/
def sprites : List Location :=
  List.ofFn fun i : Fin Board.spriteCopyLength =>
    .spriteRam (i.castLE (by decide))

/-
  The locations at which a write to a location may change
  what is read.
-/
def reach : Location → List Location
  | .rom _ => []
  | .serialControl =>
      [.serialData, .serialControl, .interruptRequests]
  | .divider => [.divider, .timerCount]
  | .timerControl => [.timerControl, .timerCount]
  | .lcd .lineCompare => [.lcd .lineCompare, .lcd .status]
  | .lcd .line => []
  | .lcd .background => []
  | .lcd .object0 => []
  | .lcd .object1 => []
  | .spriteCopy => .spriteCopy :: sprites
  | l => [l]

/- Whether a location is memory that keeps what is written. -/
def Keeps : Location → Bool
  | .videoRam _ | .cartridgeRam _ | .workRam _
  | .spriteRam _ | .register _ | .highRam _
  | .interruptEnable => true
  | _ => false

theorem reach_of_keeps
    {l : Location}
    (h : l.Keeps) :
    l.reach = [l] := by
  cases l <;> first | rfl | cases h

/-
  The cell behind the sprite copy register, which is reached
  through that register only.
-/
abbrev copyCell : Location :=
  .register Board.spriteCopyRegister

end Location

------------------------------------------------------------
-- Writes At Locations
------------------------------------------------------------

namespace Board

open Location

variable {l k : Location}

theorem readAt_writeVideo
    (b : Board)
    (i : Fin 0x2000)
    (v : UInt8)
    (h : k ≠ .videoRam i) :
    (b.writeVideo i v).readAt k = b.readAt k := by
  have hVideo :
      (b.writeVideo i v).videoRam =
        b.videoRam.set i v i.isLt := by
    unfold writeVideo
    split <;> rfl
  cases k with
  | videoRam j =>
      have hNe : j ≠ i := fun hEq => h (congrArg _ hEq)
      change (b.writeVideo i v).videoRam.get j = _
      rw [hVideo]
      exact get_set_of_ne _ v hNe
  | _ =>
      unfold writeVideo
      split <;> rfl

theorem readAt_copySprites
    (b : Board)
    (page : UInt8)
    (hCell : k ≠ copyCell)
    (h : k ∉ Location.spriteCopy.reach) :
    (b.copySprites page).readAt k = b.readAt k := by
  rcases b.copySprites_cases page with
    ⟨ram, registers, hTail, hOthers, hEq⟩
  rw [hEq]
  cases k with
  | spriteRam i =>
      apply hTail i
      apply Nat.le_of_not_lt
      intro hLow
      apply h
      apply List.mem_cons_of_mem
      exact List.mem_ofFn.mpr ⟨⟨i.val, hLow⟩, rfl⟩
  | spriteCopy => exact absurd List.mem_cons_self h
  | register i =>
      have hNe : i ≠ spriteCopyRegister := by
        intro hIs
        exact hCell (congrArg _ hIs)
      exact hOthers i hNe
  | _ => rfl

theorem read_lcd_write
    (lcd : Lcd)
    (v : UInt8)
    {x y : LcdRegister}
    (h : Location.lcd y ∉ (Location.lcd x).reach) :
    (lcd.write x v).read y = lcd.read y := by
  cases x <;> cases y <;>
    first | rfl | exact absurd (by decide) h

theorem readAt_writeSerialControl
    (b : Board)
    (v : UInt8)
    (h : k ∉ Location.serialControl.reach) :
    (b.writeSerialControl v).readAt k = b.readAt k := by
  cases k with
  | serialData => exact absurd (by decide) h
  | serialControl => exact absurd (by decide) h
  | interruptRequests => exact absurd (by decide) h
  | interruptEnable =>
      simp only [readAt, writeSerialControl]
      split <;> rfl
  | _ => rfl

/-
  A write changes no more than what is read at the locations
  it reaches.
-/
theorem readAt_writeAt_of_not_mem
    (b : Board)
    (v : UInt8)
    (hl : l ≠ copyCell)
    (hk : k ≠ copyCell)
    (h : k ∉ l.reach) :
    (b.writeAt v l).readAt k = b.readAt k := by
  cases l with
  | rom i => rfl
  | videoRam i =>
      apply readAt_writeVideo
      rintro rfl
      exact h List.mem_cons_self
  | cartridgeRam i =>
      cases k with
      | cartridgeRam j =>
          apply get_set_of_ne
          rintro rfl
          exact h List.mem_cons_self
      | _ => rfl
  | workRam i =>
      cases k with
      | workRam j =>
          apply get_set_of_ne
          rintro rfl
          exact h List.mem_cons_self
      | _ => rfl
  | spriteRam i =>
      cases k with
      | spriteRam j =>
          apply get_set_of_ne
          rintro rfl
          exact h List.mem_cons_self
      | _ => rfl
  | highRam i =>
      cases k with
      | highRam j =>
          apply get_set_of_ne
          rintro rfl
          exact h List.mem_cons_self
      | _ => rfl
  | register i =>
      cases k with
      | register j =>
          apply get_set_of_ne
          rintro rfl
          exact h List.mem_cons_self
      | spriteCopy =>
          apply get_set_of_ne
          intro hIs
          exact hl (congrArg _ hIs.symm)
      | _ => rfl
  | lcd x =>
      cases k with
      | lcd y => exact read_lcd_write b.lcd v h
      | _ => rfl
  | serialControl => exact readAt_writeSerialControl b v h
  | divider =>
      have hSettle :=
        Timer.settle_cases b.timer.signal
          { b.timer with counter := 0 }
      cases k with
      | divider => exact absurd (by decide) h
      | timerCount => exact absurd (by decide) h
      | timerModulo => exact hSettle.2.1
      | timerControl =>
          exact congrArg (0xF8 ||| ·) hSettle.2.2.1
      | _ => rfl
  | timerControl =>
      have hSettle :=
        Timer.settle_cases b.timer.signal
          { b.timer with control := v &&& 0x07 }
      cases k with
      | timerCount => exact absurd (by decide) h
      | timerControl => exact absurd (by decide) h
      | timerModulo => exact hSettle.2.1
      | divider =>
          exact congrArg
            (fun c : UInt16 => (c >>> 6).toUInt8) hSettle.1
      | _ => rfl
  | spriteCopy => exact readAt_copySprites b v hk h
  | _ =>
      cases k <;>
        first | rfl | exact absurd List.mem_cons_self h

/- Memory reads back what was written. -/
theorem readAt_writeAt_self
    (b : Board)
    (v : UInt8)
    (h : l.Keeps) :
    (b.writeAt v l).readAt l = v := by
  cases l with
  | videoRam i =>
      have hVideo :
          (b.writeVideo i v).videoRam =
            b.videoRam.set i v i.isLt := by
        unfold writeVideo
        split <;> rfl
      change (b.writeVideo i v).videoRam.get i = v
      rw [hVideo]
      exact Vector.getElem_set_self i.isLt
  | interruptEnable => rfl
  | cartridgeRam i => exact Vector.getElem_set_self i.isLt
  | workRam i => exact Vector.getElem_set_self i.isLt
  | spriteRam i => exact Vector.getElem_set_self i.isLt
  | register i => exact Vector.getElem_set_self i.isLt
  | highRam i => exact Vector.getElem_set_self i.isLt
  | _ => cases h

end Board

------------------------------------------------------------
-- Addresses
------------------------------------------------------------

namespace Address

/-
  The lowest address of the same cell: an echo of work memory
  names the cell 0x2000 below.
-/
def cell
    (a : UInt16) : UInt16 :=
  if 0xE000 ≤ a ∧ a < 0xFE00 then a - 0x2000 else a

/-
  Whether memory lies at an address, or a register without a
  device.
-/
def IsStorage
    (a : UInt16) : Prop :=
  (0x8000 ≤ a ∧ a < 0xFF00) ∨ a = 0xFF03 ∨
    (0xFF08 ≤ a ∧ a ≤ 0xFF0E) ∨
    (0xFF10 ≤ a ∧ a ≤ 0xFF3F) ∨ 0xFF4C ≤ a

instance
    (a : UInt16) : Decidable (IsStorage a) := by
  unfold IsStorage
  infer_instance

theorem le_of_isStorage
    {a : UInt16}
    (h : IsStorage a) :
    0x8000 ≤ a.toNat := by
  rcases h with ⟨h, -⟩ | rfl | ⟨h, -⟩ | ⟨h, -⟩ | h
  · exact UInt16.le_iff_toNat_le.mp h
  · decide
  all_goals
    exact Nat.le_trans (by decide)
      (UInt16.le_iff_toNat_le.mp h)

/-
  The registers of devices, and the addresses at which a write
  to each may change what is read.
-/
def deviceReach : List (UInt16 × List UInt16) :=
  [(0xFF00, [0xFF00]),
   (0xFF01, [0xFF01]),
   (0xFF02, [0xFF01, 0xFF02, 0xFF0F]),
   (0xFF04, [0xFF04, 0xFF05]),
   (0xFF05, [0xFF05]),
   (0xFF06, [0xFF06]),
   (0xFF07, [0xFF07, 0xFF05]),
   (0xFF0F, [0xFF0F]),
   (0xFF40, [0xFF40]),
   (0xFF41, [0xFF41]),
   (0xFF42, [0xFF42]),
   (0xFF43, [0xFF43]),
   (0xFF44, []),
   (0xFF45, [0xFF45, 0xFF41]),
   (0xFF46, 0xFF46 ::
      (List.range 160).map fun i => 0xFE00 + i.toUInt16),
   (0xFF47, []),
   (0xFF48, []),
   (0xFF49, []),
   (0xFF4A, [0xFF4A]),
   (0xFF4B, [0xFF4B])]

theorem toNat_cell
    (a : UInt16) :
    (cell a).toNat =
      if 0xE000 ≤ a.toNat ∧ a.toNat < 0xFE00 then
        a.toNat - 0x2000
      else a.toNat := by
  unfold cell
  simp only [UInt16.le_iff_toNat_le, UInt16.lt_iff_toNat_lt]
  change (if 0xE000 ≤ a.toNat ∧ a.toNat < 0xFE00 then _
    else _ : UInt16).toNat = _
  split
  · rename_i h
    rw [UInt16.toNat_sub_of_le]
    · rfl
    · rw [UInt16.le_iff_toNat_le]
      change 0x2000 ≤ a.toNat
      omega
  · rfl

/- Above the echoes every cell has one address. -/
theorem cell_eq_self
    {a : UInt16}
    (h : 0xFE00 ≤ cell a) :
    cell a = a := by
  have hHigh : 0xFE00 ≤ (cell a).toNat :=
    UInt16.le_iff_toNat_le.mp h
  have hCell := toNat_cell a
  apply UInt16.toNat_inj.mp
  split at hCell <;> omega

end Address

namespace Location

/- The lowest address of a location. -/
def address : Location → UInt16
  | .rom i => .ofNat i.val
  | .videoRam i => .ofNat (0x8000 + i.val)
  | .cartridgeRam i => .ofNat (0xA000 + i.val)
  | .workRam i => .ofNat (0xC000 + i.val)
  | .spriteRam i => .ofNat (0xFE00 + i.val)
  | .joypad => 0xFF00
  | .serialData => 0xFF01
  | .serialControl => 0xFF02
  | .divider => 0xFF04
  | .timerCount => 0xFF05
  | .timerModulo => 0xFF06
  | .timerControl => 0xFF07
  | .interruptRequests => 0xFF0F
  | .lcd .control => 0xFF40
  | .lcd .status => 0xFF41
  | .lcd .scrollY => 0xFF42
  | .lcd .scrollX => 0xFF43
  | .lcd .line => 0xFF44
  | .lcd .lineCompare => 0xFF45
  | .spriteCopy => 0xFF46
  | .lcd .background => 0xFF47
  | .lcd .object0 => 0xFF48
  | .lcd .object1 => 0xFF49
  | .lcd .windowY => 0xFF4A
  | .lcd .windowX => 0xFF4B
  | .register i => .ofNat (0xFF00 + i.val)
  | .highRam i => .ofNat (0xFF80 + i.val)
  | .interruptEnable => 0xFFFF

theorem address_ofOffset :
    ∀ i : Fin 0x80,
      (ofOffset i).address = .ofNat (0xFF00 + i.val) := by
  decide

/- The location of an address lies at its cell. -/
theorem address_ofAddress
    (a : UInt16) :
    (ofAddress a).address = Address.cell a := by
  have ha := a.toNat_lt
  apply UInt16.toNat_inj.mp
  rw [Address.toNat_cell]
  unfold ofAddress
  dsimp only
  -- One round for each range below the page of registers.
  iterate 6
    split
    · simp only [address, UInt16.toNat_ofNat']
      split <;> omega
  split
  · rw [address_ofOffset, UInt16.toNat_ofNat']
    dsimp only
    split <;> omega
  split
  · simp only [address, UInt16.toNat_ofNat']
    split <;> omega
  · change 0xFFFF = _
    split <;> omega

theorem ofAddress_ne_copyCell
    (a : UInt16) :
    ofAddress a ≠ copyCell := by
  intro h
  have hCell : Address.cell a = 0xFF46 :=
    (address_ofAddress a).symm.trans (congrArg address h)
  have hSelf : Address.cell a = a := by
    apply Address.cell_eq_self
    rw [hCell]
    decide
  rw [← hSelf, hCell] at h
  revert h
  decide +kernel

theorem ofAddress_cell
    (a : UInt16) :
    ofAddress (Address.cell a) = ofAddress a := by
  have hCell := Address.toNat_cell a
  split at hCell
  · rename_i h
    unfold ofAddress
    dsimp only
    rw [dif_neg (by omega), dif_neg (by omega),
      dif_neg (by omega), dif_pos (by omega),
      dif_neg (by omega), dif_neg (by omega),
      dif_neg (by omega), dif_neg (by omega),
      dif_pos (by omega)]
    apply congrArg workRam
    apply Fin.ext
    change (Address.cell a).toNat - 0xC000 =
      a.toNat - 0xE000
    omega
  · rw [UInt16.toNat_inj.mp hCell]

/- Two addresses have one location if they name one cell. -/
theorem ofAddress_eq_iff
    {a c : UInt16} :
    ofAddress c = ofAddress a ↔
      Address.cell c = Address.cell a := by
  constructor
  · intro h
    rw [← address_ofAddress, h, address_ofAddress]
  · intro h
    rw [← ofAddress_cell c, h, ofAddress_cell]

/- Above the echoes a location has one address. -/
theorem eq_address
    {a : UInt16}
    {l : Location}
    (hLoc : ofAddress a = l)
    (hHigh : 0xFE00 ≤ l.address) :
    a = l.address := by
  have hCell : Address.cell a = l.address := by
    rw [← address_ofAddress, hLoc]
  rw [← hCell] at hHigh
  rw [← hCell, Address.cell_eq_self hHigh]

/- The registers without a device, and those with one. -/
theorem ofOffset_cases :
    ∀ i : Fin 0x80,
      let a : UInt16 := .ofNat (0xFF00 + i.val)
      (Address.IsStorage a ∧ (ofOffset i).Keeps) ∨
        ¬ Address.IsStorage a ∧
          a ∈ Address.deviceReach.map Prod.fst := by
  decide +kernel

/- What lies in the page of registers, told by its offset. -/
theorem ofAddress_eq_ofOffset
    {a : UInt16}
    (h : 0xFF00 ≤ a.toNat)
    (hEnd : a.toNat < 0xFF80) :
    ofAddress a = ofOffset ⟨a.toNat - 0xFF00, by omega⟩ := by
  unfold ofAddress
  dsimp only
  rw [dif_neg (by omega), dif_neg (by omega),
    dif_neg (by omega), dif_neg (by omega),
    dif_neg (by omega), dif_neg (by omega),
    dif_pos hEnd]

/-
  Every address names the image, storage, or a register of a
  device, and storage is memory that keeps what is written.
-/
theorem ofAddress_cases
    (a : UInt16) :
    a < 0x8000 ∨
      (Address.IsStorage a ∧ (ofAddress a).Keeps) ∨
      ¬ Address.IsStorage a ∧
        a ∈ Address.deviceReach.map Prod.fst := by
  have ha := a.toNat_lt
  by_cases hPage : 0xFF00 ≤ a.toNat ∧ a.toNat < 0xFF80
  · have hOffset :=
      ofOffset_cases ⟨a.toNat - 0xFF00, by omega⟩
    have hBack :
        UInt16.ofNat (0xFF00 + (a.toNat - 0xFF00)) = a := by
      rw [Nat.add_sub_cancel' hPage.1]
      exact UInt16.ofNat_toNat
    rw [ofAddress_eq_ofOffset hPage.1 hPage.2]
    simp only [hBack] at hOffset
    exact .inr hOffset
  by_cases hRom : a.toNat < 0x8000
  · exact .inl (UInt16.lt_iff_toNat_lt.mpr hRom)
  refine .inr (.inl ⟨?_, ?_⟩)
  · by_cases hLow : a.toNat < 0xFF00
    · exact .inl
        ⟨UInt16.le_iff_toNat_le.mpr (Nat.le_of_not_lt hRom),
          UInt16.lt_iff_toNat_lt.mpr hLow⟩
    · have hHigh : 0xFF4C ≤ a.toNat := by omega
      exact .inr (.inr (.inr (.inr
        (UInt16.le_iff_toNat_le.mpr hHigh))))
  · unfold ofAddress
    dsimp only
    rw [dif_neg hRom]
    iterate 5
      split
      · rfl
    split
    · omega
    split <;> rfl

/- What a write to a device reaches, told by addresses. -/
theorem address_reach :
    ∀ p ∈ Address.deviceReach,
      (ofAddress p.1).reach.map address = p.2 ∧
        p.2.all fun a => decide (0xFE00 ≤ a) := by
  decide +kernel

theorem mem_of_mem_reach
    {a c : UInt16}
    {addrs : List UInt16}
    (ha : (a, addrs) ∈ Address.deviceReach)
    (hc : ofAddress c ∈ (ofAddress a).reach) :
    c ∈ addrs := by
  rcases address_reach _ ha with ⟨hAddrs, hHigh⟩
  have hMem : Address.cell c ∈ addrs := by
    have hReach :
        (ofAddress a).reach.map address = addrs := hAddrs
    rw [← address_ofAddress, ← hReach]
    exact List.mem_map_of_mem hc
  have hCell : 0xFE00 ≤ Address.cell c :=
    of_decide_eq_true (List.all_eq_true.mp hHigh _ hMem)
  rw [Address.cell_eq_self hCell] at hMem
  exact hMem

end Location

------------------------------------------------------------
-- Reads After Writes
------------------------------------------------------------

namespace Board

open Address

/-
  What is read after a write, at every address.

  The image cannot be written.  Storage reads back what was
  written at every address of the same cell, and nothing else
  changes.  A write to a register of a device changes what is
  read at the addresses listed for it at most.  There are no
  other addresses.
-/
theorem read_write
    (b : Board)
    (a c : UInt16)
    (v : UInt8) :
    (a < 0x8000 → (b.write a v).read c = b.read c) ∧
      (IsStorage a →
        (b.write a v).read c =
          if cell c = cell a then v else b.read c) ∧
      (∀ addrs, (a, addrs) ∈ deviceReach → c ∉ addrs →
        (b.write a v).read c = b.read c) ∧
      (a < 0x8000 ∨ IsStorage a ∨
        ∃ addrs, (a, addrs) ∈ deviceReach) := by
  have hFrame (h : Location.ofAddress c ∉
      (Location.ofAddress a).reach) :
      (b.write a v).read c = b.read c :=
    readAt_writeAt_of_not_mem b v
      (Location.ofAddress_ne_copyCell a)
      (Location.ofAddress_ne_copyCell c) h
  have hKinds := Location.ofAddress_cases a
  refine ⟨?_, ?_, ?_, ?_⟩
  · intro hRom
    have hLow : a.toNat < 0x8000 :=
      UInt16.lt_iff_toNat_lt.mp hRom
    have hImage :
        Location.ofAddress a = .rom ⟨a.toNat, hLow⟩ :=
      dif_pos hLow
    apply hFrame
    rw [hImage]
    exact List.not_mem_nil
  · intro hStorage
    have hKeeps : (Location.ofAddress a).Keeps := by
      rcases hKinds with hRom | ⟨-, hKeeps⟩ | ⟨hNot, -⟩
      · have hLow := UInt16.lt_iff_toNat_lt.mp hRom
        exact absurd (le_of_isStorage hStorage)
          (Nat.not_le_of_lt hLow)
      · exact hKeeps
      · exact absurd hStorage hNot
    split
    · rename_i hCell
      have hSame := Location.ofAddress_eq_iff.mpr hCell
      unfold read write
      rw [hSame]
      exact readAt_writeAt_self b v hKeeps
    · rename_i hCell
      apply hFrame
      rw [Location.reach_of_keeps hKeeps, List.mem_singleton,
        Location.ofAddress_eq_iff]
      exact hCell
  · intro addrs hDevice hNot
    apply hFrame
    intro hReach
    exact hNot (Location.mem_of_mem_reach hDevice hReach)
  · rcases hKinds with hRom | ⟨hStorage, -⟩ | ⟨-, hDevice⟩
    · exact .inl hRom
    · exact .inr (.inl hStorage)
    · rcases List.mem_map.mp hDevice with
        ⟨⟨_, addrs⟩, hMem, rfl⟩
      exact .inr (.inr ⟨addrs, hMem⟩)

/- A byte written to an echo is read in work memory. -/
theorem read_write_echo :
    IsStorage 0xE123 ∧ cell 0xC123 = cell 0xE123 ∧
      ((({} : Board).write 0xE123 0x5A).read 0xC123 =
        0x5A) := by
  have hStorage : IsStorage 0xE123 := by decide
  have hCell : cell 0xC123 = cell 0xE123 := by decide
  rcases read_write {} 0xE123 0xC123 0x5A with ⟨-, hWritten, -⟩
  refine ⟨hStorage, hCell, ?_⟩
  rw [hWritten hStorage, if_pos hCell]

end Board

end Dmg
