import Dmg.Lcd.Controller

/-
  The memory map: what lies behind each address.

  Reads and writes decode an address in the same way, so two
  addresses name the same cell exactly if they have the same
  location.

  Key definitions include:
    * `Location`
    * `Location.ofOffset`
    * `Location.ofAddress`
-/

namespace Dmg

/-
  A cell of memory or a register of a device.  Work memory is
  found at two ranges of addresses.
-/
inductive Location where
  | rom (i : Fin 0x8000)
  | videoRam (i : Fin 0x2000)
  | cartridgeRam (i : Fin 0x2000)
  | workRam (i : Fin 0x2000)
  | spriteRam (i : Fin 0x100)
  | joypad
  | serialData
  | serialControl
  | divider
  | timerCount
  | timerModulo
  | timerControl
  | interruptRequests
  | lcd (x : LcdRegister)
  | spriteCopy
  | register (i : Fin 0x80)
  | highRam (i : Fin 0x7F)
  | interruptEnable
deriving DecidableEq, Repr

namespace Location

/- The register at an offset of the page 0xFF00. -/
def ofOffset
    (i : Fin 0x80) : Location :=
  match i.val with
  | 0x00 => .joypad
  | 0x01 => .serialData
  | 0x02 => .serialControl
  | 0x04 => .divider
  | 0x05 => .timerCount
  | 0x06 => .timerModulo
  | 0x07 => .timerControl
  | 0x0F => .interruptRequests
  | 0x40 => .lcd .control
  | 0x41 => .lcd .status
  | 0x42 => .lcd .scrollY
  | 0x43 => .lcd .scrollX
  | 0x44 => .lcd .line
  | 0x45 => .lcd .lineCompare
  | 0x46 => .spriteCopy
  | 0x47 => .lcd .background
  | 0x48 => .lcd .object0
  | 0x49 => .lcd .object1
  | 0x4A => .lcd .windowY
  | 0x4B => .lcd .windowX
  | _ => .register i

/- What lies behind an address. -/
def ofAddress
    (addr : UInt16) : Location :=
  let a := addr.toNat
  if h : a < 0x8000 then .rom ⟨a, h⟩
  else if h : a < 0xA000 then
    .videoRam ⟨a - 0x8000, by omega⟩
  else if h : a < 0xC000 then
    .cartridgeRam ⟨a - 0xA000, by omega⟩
  else if h : a < 0xE000 then
    .workRam ⟨a - 0xC000, by omega⟩
  else if h : a < 0xFE00 then
    .workRam ⟨a - 0xE000, by omega⟩
  else if h : a < 0xFF00 then
    .spriteRam ⟨a - 0xFE00, by omega⟩
  else if h : a < 0xFF80 then
    ofOffset ⟨a - 0xFF00, by omega⟩
  else if h : a < 0xFFFF then
    .highRam ⟨a - 0xFF80, by omega⟩
  else .interruptEnable

end Location

end Dmg
