import Dmg.Bus
import Dmg.Lcd.Raster
import Dmg.Memory.Map
import Dmg.Serial
import Dmg.Timer

/-
  The board: all memory and devices around the processor, and
  what reads and writes at each address do to them.

  Key definitions include:
    * `Board`
    * `Board.read`
    * `Board.write`
    * `Board.copySprites`
    * `Board.writeEvent?`
    * `Wired`
-/

namespace Dmg

------------------------------------------------------------
-- Memory And Devices
------------------------------------------------------------

/- Memory that keeps what is written to it. -/
abbrev Ram := Vector UInt8 0x2000

/-
  The plain registers that are not zero before they are
  written: those of the sound unit, which is absent, and the
  page last copied into sprite memory.
-/
def registerDefaults : List (Fin 0x80 × UInt8) :=
  [(0x10, 0x80), (0x11, 0xBF), (0x12, 0xF3), (0x13, 0xFF),
   (0x14, 0xBF), (0x16, 0x3F), (0x17, 0x00), (0x18, 0xFF),
   (0x19, 0xBF), (0x1A, 0x7F), (0x1B, 0xFF), (0x1C, 0x9F),
   (0x1D, 0xFF), (0x1E, 0xBF), (0x20, 0xFF), (0x21, 0x00),
   (0x22, 0x00), (0x23, 0xBF), (0x24, 0x77), (0x25, 0xF3),
   (0x26, 0xF1), (0x46, 0xFF)]

/- All plain registers as a program finds them. -/
def registersAtEntry : Vector UInt8 0x80 :=
  registerDefaults.foldl
    (fun registers (i, v) => registers.set i v)
    (.replicate 0x80 0)

/- Memory and devices. -/
structure Board where
  rom : Vector UInt8 romSize := .replicate romSize 0
  videoRam : VideoRam := .replicate 0x2000 0
  cartridgeRam : Ram := .replicate 0x2000 0
  workRam : Ram := .replicate 0x2000 0
  spriteRam : SpriteRam := .replicate 0x100 0
  registers : Vector UInt8 0x80 := registersAtEntry
  highRam : Vector UInt8 0x7F := .replicate 0x7F 0
  joypad : Joypad := {}
  serial : Serial := {}
  timer : Timer := {}
  lcd : Lcd := {}
  interrupts : InterruptController := {}

namespace Board

/- Everything as a program finds it, the image apart. -/
def reset
    (b : Board) : Board :=
  { rom := b.rom }

------------------------------------------------------------
-- Reads
------------------------------------------------------------

/- The register that holds the page last copied. -/
def spriteCopyRegister : Fin 0x80 := 0x46

/- The byte at a location. -/
def readAt
    (b : Board) : Location → UInt8
  | .rom i => b.rom.get i
  | .videoRam i => b.videoRam.get i
  | .cartridgeRam i => b.cartridgeRam.get i
  | .workRam i => b.workRam.get i
  | .spriteRam i => b.spriteRam.get i
  | .joypad => b.joypad.read
  | .serialData => b.serial.data
  | .serialControl => b.serial.readControl
  | .divider => b.timer.readDivider
  | .timerCount => b.timer.count
  | .timerModulo => b.timer.modulo
  | .timerControl => b.timer.readControl
  | .interruptRequests => b.interrupts.readRequests
  | .lcd x => b.lcd.read x
  | .spriteCopy => b.registers.get spriteCopyRegister
  | .register i => b.registers.get i
  | .highRam i => b.highRam.get i
  | .interruptEnable => b.interrupts.enable

/- The byte at an address. -/
def read
    (b : Board)
    (addr : UInt16) : UInt8 :=
  b.readAt (.ofAddress addr)

------------------------------------------------------------
-- Writes
------------------------------------------------------------

/- Set a byte of video memory and keep its tile decoded. -/
def writeVideo
    (b : Board)
    (i : Fin 0x2000)
    (v : UInt8) : Board :=
  let vram := b.videoRam.set i v i.isLt
  if h : i.val < tileDataSize then
    { b with
      videoRam := vram
      lcd := { b.lcd with
        tiles := b.lcd.tiles.update vram i.val h } }
  else { b with videoRam := vram }

/- The number of bytes copied into sprite memory. -/
def spriteCopyLength : Nat := 160

/- Copy one byte of a page into sprite memory. -/
def copySprite
    (page : UInt8)
    (b : Board)
    (i : Fin spriteCopyLength) : Board :=
  have h : i.val < 160 := i.isLt
  let v := b.read (word page i.val.toUInt8)
  { b with spriteRam := b.spriteRam.set i.val v }

/- Copy the start of a page into sprite memory, at once. -/
def copySprites
    (b : Board)
    (page : UInt8) : Board :=
  let b := Fin.foldl spriteCopyLength (copySprite page) b
  { b with
    registers := b.registers.set spriteCopyRegister page }

/- Set the control byte of the serial line. -/
def writeSerialControl
    (b : Board)
    (v : UInt8) : Board :=
  { b with
    serial := b.serial.writeControl v
    interrupts :=
      if Serial.starts v then b.interrupts.request .serial
      else b.interrupts }

/- The effect of a write at a location. -/
def writeAt
    (b : Board)
    (v : UInt8) : Location → Board
  | .rom _ => b
  | .videoRam i => b.writeVideo i v
  | .cartridgeRam i =>
      { b with
        cartridgeRam := b.cartridgeRam.set i v i.isLt }
  | .workRam i =>
      { b with workRam := b.workRam.set i v i.isLt }
  | .spriteRam i =>
      { b with spriteRam := b.spriteRam.set i v i.isLt }
  | .joypad => { b with joypad := b.joypad.write v }
  | .serialData => { b with serial := b.serial.writeData v }
  | .serialControl => b.writeSerialControl v
  | .divider => { b with timer := b.timer.writeDivider }
  | .timerCount => { b with timer := b.timer.writeCount v }
  | .timerModulo => { b with timer := b.timer.writeModulo v }
  | .timerControl =>
      { b with timer := b.timer.writeControl v }
  | .interruptRequests =>
      { b with interrupts := b.interrupts.writeRequests v }
  | .lcd x => { b with lcd := b.lcd.write x v }
  | .spriteCopy => b.copySprites v
  | .register i =>
      { b with registers := b.registers.set i v i.isLt }
  | .highRam i =>
      { b with highRam := b.highRam.set i v i.isLt }
  | .interruptEnable =>
      { b with interrupts := b.interrupts.writeEnable v }

/- The effect of a write at an address. -/
def write
    (b : Board)
    (addr : UInt16)
    (v : UInt8) : Board :=
  b.writeAt v (.ofAddress addr)

/- What is to be reported of a write, if anything. -/
def writeEvent?
    (b : Board)
    (addr : UInt16)
    (v : UInt8) : Option Message :=
  match Location.ofAddress addr with
  | .rom _ => some (.romWriteIgnored addr v)
  | .lcd .control =>
      if b.lcd.regs.lcdOn == bit v 7 then none
      else some (.lcdSwitched (bit v 7))
  | .spriteCopy => some (.spriteCopy (word v 0))
  | _ => none

------------------------------------------------------------
-- Buttons
------------------------------------------------------------

/- Whether an event presses a button not held before. -/
def presses
    (b : Board)
    (button : Button)
    (held : Bool) : Bool :=
  held && !b.joypad.isHeld button

/-
  Hold or release a button.  Pressing one that was not held
  requests an interrupt.
-/
def setButton
    (b : Board)
    (button : Button)
    (held : Bool) : Board :=
  { b with
    joypad := b.joypad.set button held
    interrupts :=
      if b.presses button held then
        b.interrupts.request .joypad
      else b.interrupts }

------------------------------------------------------------
-- Time
------------------------------------------------------------

/-
  Let the devices follow a step of the processor, given its
  cost and the tick count after it.
-/
def advance
    (ticks now : Nat)
    (b : Board)
    (journal : Journal) : Board × Journal :=
  match b with
  | ⟨rom, vram, eram, wram, oam, registers, hram, joypad,
      serial, timer, lcd, ic⟩ =>
      let (timer, ic) := timer.tick ticks ic
      match Raster.advanceTo vram oam now
          ⟨lcd, ic, journal⟩ with
      | ⟨lcd, ic, journal⟩ =>
          (⟨rom, vram, eram, wram, oam, registers, hram,
            joypad, serial, timer, lcd, ic⟩, journal)

end Board

------------------------------------------------------------
-- Bus
------------------------------------------------------------

/- A board with a journal of what happens on it. -/
structure Wired where
  board : Board
  journal : Journal

namespace Wired

/- Write at an address and report what is to be reported. -/
def write
    (addr : UInt16)
    (v : UInt8)
    (w : Wired) : Wired :=
  match w with
  | ⟨board, journal⟩ =>
      let journal :=
        match board.writeEvent? addr v with
        | none => journal
        | some m => journal.note m
      ⟨board.write addr v, journal⟩

/- Replace the interrupt controller. -/
def setInterrupts
    (ic : InterruptController)
    (w : Wired) : Wired :=
  match w with
  | ⟨board, journal⟩ =>
      ⟨{ board with interrupts := ic }, journal⟩

/- Report an event. -/
@[inline]
def note
    (m : Message)
    (w : Wired) : Wired :=
  match w with
  | ⟨board, journal⟩ => ⟨board, journal.note m⟩

instance : Bus Wired where
  read addr w := (w.board.read addr, w)
  write := write
  interrupts w := w.board.interrupts
  setInterrupts := setInterrupts
  note := note

end Wired

end Dmg
