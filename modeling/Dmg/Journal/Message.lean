import Dmg.Cartridge
import Dmg.Cpu.DecodeFault
import Dmg.Cpu.Instruction
import Dmg.Cpu.Registers
import Dmg.Interrupt
import Dmg.Keyboard
import Dmg.Lcd.Mode

/-
  What the machine and its front ends report: the events,
  how severe each is, and its wording.

  Key definitions include:
    * `Level`
    * `Status`
    * `Message`
    * `Message.level`
    * `Message.text`
-/

namespace Dmg

------------------------------------------------------------
-- Levels
------------------------------------------------------------

/- Severity, most severe first. -/
inductive Level where
  | error
  | warn
  | info
  | debug
  | trace
deriving DecidableEq, Repr

namespace Level

/- The place of a level in the order of severity. -/
def rank : Level → Nat
  | .error => 1
  | .warn => 2
  | .info => 3
  | .debug => 4
  | .trace => 5

def name : Level → String
  | .error => "ERROR"
  | .warn => "WARN"
  | .info => "INFO"
  | .debug => "DEBUG"
  | .trace => "TRACE"

end Level

------------------------------------------------------------
-- Messages
------------------------------------------------------------

/- What a session's periodic summary shows of the machine. -/
structure Status where
  frame : UInt64
  regs : Registers
  halted : Bool
  interrupts : InterruptController
  lcdc : UInt8
  ly : UInt8
deriving DecidableEq, Repr

/- The events that are reported. -/
inductive Message where
  | executing
      (pc : UInt16) (i : Instruction) (imm : UInt16)
  | executingPrefixed
      (opcode : UInt8) (i : PrefixedInstruction)
  | cpuLocked (fault : DecodeFault) (regs : Registers)
  | interruptEntered
      (i : Interrupt) (pc sp : UInt16)
      (requests enable : UInt8)
  | cpuStopped (pc : UInt16)
  | romWriteIgnored (addr : UInt16) (value : UInt8)
  | spriteCopy (source : UInt16)
  | buttonPressed (button : Button)
  | lcdSwitched (on : Bool)
  | vblankEntered (latched : Bool)
  | modeRequest (mode : Mode) (line : Nat)
  | lineRequest (line : UInt8)
  | machineReset
  | imageRead (size : Nat) (path : String)
  | cartridgeAccepted
      (title : String) (kind : UInt8) (ramSize : Nat)
  | headerWarning (w : HeaderWarning)
  | sessionStarted
  | sessionEnded (frames : UInt64)
  | sessionStopped
  | emulationHalted (fault : DecodeFault)
  | pcUnchanged (pc : UInt16) (halted : Bool)
  | lcdcChanged (old new : UInt8)
  | summary (s : Status)
  | keyEvent (k : Key) (pressed : Bool)
  | scaleIgnored
  | stoppedAfter (frames : Nat)
  | playing (path : String)
deriving DecidableEq, Repr

namespace Message

/- How severe an event is. -/
def level : Message → Level
  | .executing .. | .executingPrefixed ..
  | .romWriteIgnored .. => .trace
  | .interruptEntered .. | .spriteCopy _
  | .buttonPressed _ | .lcdSwitched _
  | .vblankEntered _ | .modeRequest .. | .lineRequest _
  | .lcdcChanged .. | .keyEvent .. => .debug
  | .cpuStopped _ | .machineReset | .imageRead ..
  | .cartridgeAccepted .. | .sessionStarted
  | .sessionEnded _ | .sessionStopped | .summary _
  | .stoppedAfter _ | .playing _ => .info
  | .headerWarning _ | .pcUnchanged .. | .scaleIgnored =>
      .warn
  | .cpuLocked .. | .emulationHalted _ => .error

/- A byte with the mark of hexadecimal. -/
def hexByte
    (b : UInt8) : String :=
  "0x" ++ Hex.byte b

/- A word with the mark of hexadecimal. -/
def hexWord
    (w : UInt16) : String :=
  "0x" ++ Hex.word w

/- The value that follows an opcode, at its own width. -/
def immediateText
    (kind : Immediate)
    (imm : UInt16) : String :=
  match kind with
  | .none => ""
  | .byte => "$" ++ Hex.byte (lowByte imm)
  | .word => "$" ++ Hex.word imm

/- Fill a text up with spaces on the right. -/
def padRight
    (s : String)
    (width : Nat) : String :=
  s ++ "".pushn ' ' (width - s.length)

/- An instruction and the value that follows its opcode. -/
def instructionText
    (i : Instruction)
    (imm : UInt16) : String :=
  match i.immediate with
  | .none => i.mnemonic
  | kind =>
      padRight i.mnemonic 12 ++ " " ++ immediateText kind imm

/- The register pairs of a report. -/
def pairsText
    (r : Registers) : String :=
  "af=" ++ hexWord r.af ++ " bc=" ++ hexWord r.bc ++
    " de=" ++ hexWord r.de ++ " hl=" ++ hexWord r.hl

/- The wording of a session's summary. -/
def statusText
    (s : Status) : String :=
  "GB: frame=" ++ toString s.frame.toNat ++
    " pc=" ++ hexWord s.regs.pc ++
    " sp=" ++ hexWord s.regs.sp ++
    " " ++ pairsText s.regs ++
    " ime=" ++ toString s.interrupts.master ++
    " halted=" ++ toString s.halted ++
    " IF=" ++ hexByte s.interrupts.readRequests ++
    " IE=" ++ hexByte s.interrupts.enable ++
    " LCDC=" ++ hexByte s.lcdc ++
    " LY=" ++ toString s.ly.toNat

/- The wording of an event. -/
def text : Message → String
  | .executing pc i imm =>
      "GB CPU: " ++ Hex.word pc ++ " " ++
        instructionText i imm
  | .executingPrefixed opcode i =>
      "GB CPU:   CB " ++ Hex.byte opcode ++ " " ++
        i.mnemonic
  | .cpuLocked e regs =>
      "GB CPU: invalid opcode " ++ hexByte e.opcode ++
        " at pc=" ++ hexWord e.pc ++ "; locking CPU (" ++
        pairsText regs ++ " sp=" ++ hexWord regs.sp ++ ")"
  | .interruptEntered i pc sp requests enable =>
      "GB CPU interrupt: " ++ i.name ++
        " vector=" ++ hexWord i.vector ++
        " pc=" ++ hexWord pc ++ " sp=" ++ hexWord sp ++
        " IF=" ++ hexByte requests ++
        " IE=" ++ hexByte enable
  | .cpuStopped pc => "GB CPU: STOP at pc=" ++ hexWord pc
  | .romWriteIgnored addr value =>
      "ignored ROM write " ++ hexByte value ++ " to " ++
        hexWord addr
  | .spriteCopy source =>
      "OAM DMA from " ++ hexWord source
  | .buttonPressed button =>
      "joypad: " ++ button.name ++
        " pressed, requesting interrupt"
  | .lcdSwitched on =>
      "PPU: LCD " ++ (if on then "on" else "off")
  | .vblankEntered latched =>
      "PPU: VBlank entry, IF latched=" ++ toString latched
  | .modeRequest mode line =>
      "PPU: STAT request on " ++ mode.name ++
        " entry (LY=" ++ toString line ++ ")"
  | .lineRequest line =>
      "PPU: STAT request on LY==LYC (" ++
        toString line.toNat ++ ")"
  | .machineReset => "Game Boy reset"
  | .imageRead size path =>
      "loaded " ++ toString size ++ " bytes from " ++ path
  | .cartridgeAccepted title kind ramSize =>
      "cartridge \"" ++ title ++ "\": type " ++
        hexByte kind ++ ", 32 KiB ROM, " ++
        toString ramSize ++ " bytes external RAM"
  | .headerWarning w => "cartridge header: " ++ w.message
  | .sessionStarted => "Game Boy init"
  | .sessionEnded frames =>
      "Game Boy exit after " ++ toString frames.toNat ++
        " frames"
  | .sessionStopped =>
      "GB: CPU executed STOP, ending session"
  | .emulationHalted e =>
      "GB: emulation halted: " ++ e.message
  | .pcUnchanged pc halted =>
      "GB: PC unchanged for ~600 frames at " ++
        hexWord pc ++ " (halted=" ++ toString halted ++ ")"
  | .lcdcChanged old new =>
      "GB LCDC changed: " ++ hexByte old ++ " -> " ++
        hexByte new
  | .summary s => statusText s
  | .keyEvent k pressed =>
      "GB key event: " ++ k.name ++ " pressed=" ++
        toString pressed
  | .scaleIgnored =>
      "ignoring invalid DOTMATRIX_SCALE; using scale 4"
  | .stoppedAfter frames =>
      "STOP executed after " ++ toString frames ++ " frames"
  | .playing path => "Playing ROM path: '" ++ path ++ "'"

end Message

end Dmg
