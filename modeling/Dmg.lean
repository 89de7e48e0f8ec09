import Dmg.Board
import Dmg.Bus
import Dmg.Cartridge
import Dmg.Color
import Dmg.Cpu.Arithmetic
import Dmg.Cpu.Core
import Dmg.Cpu.DecodeFault
import Dmg.Cpu.Execute
import Dmg.Cpu.Instruction
import Dmg.Cpu.OpcodeTable
import Dmg.Cpu.Registers
import Dmg.Cpu.Step
import Dmg.Files
import Dmg.Files.Directory
import Dmg.Interrupt
import Dmg.Journal
import Dmg.Journal.Message
import Dmg.Joypad
import Dmg.Keyboard
import Dmg.Launch
import Dmg.Lcd.Composition
import Dmg.Lcd.Controller
import Dmg.Lcd.Mode
import Dmg.Lcd.Picture
import Dmg.Lcd.Raster
import Dmg.Lcd.TileCache
import Dmg.Machine
import Dmg.Main
import Dmg.Memory.Flat
import Dmg.Memory.Map
import Dmg.Proofs.Board
import Dmg.Proofs.Cartridge
import Dmg.Proofs.Cartridge.Title
import Dmg.Proofs.Checked.Bounds
import Dmg.Proofs.Checked.Cartridge
import Dmg.Proofs.Checked.Line
import Dmg.Proofs.Checked.Machine
import Dmg.Proofs.Checked.Memory
import Dmg.Proofs.Checked.Processor
import Dmg.Proofs.Checked.Time
import Dmg.Proofs.Cpu.BitFields
import Dmg.Proofs.Cpu.Boundary
import Dmg.Proofs.Cpu.Branches
import Dmg.Proofs.Cpu.Cost
import Dmg.Proofs.Cpu.EnableShadow
import Dmg.Proofs.Cpu.Event
import Dmg.Proofs.Cpu.FlagRules
import Dmg.Proofs.Cpu.Halt
import Dmg.Proofs.Cpu.HaltBug
import Dmg.Proofs.Cpu.InstructionSet
import Dmg.Proofs.Cpu.Invariant
import Dmg.Proofs.Cpu.Latches
import Dmg.Proofs.Cpu.LowHalf
import Dmg.Proofs.Cpu.MasterEnable
import Dmg.Proofs.Cpu.Microcode
import Dmg.Proofs.Cpu.MultiByte
import Dmg.Proofs.Cpu.PackedDecimal
import Dmg.Proofs.Cpu.Prefixed
import Dmg.Proofs.Cpu.Recorded
import Dmg.Proofs.Cpu.Service
import Dmg.Proofs.Cpu.Stack
import Dmg.Proofs.Cpu.Standstill
import Dmg.Proofs.Cpu.Translation
import Dmg.Proofs.Cpu.Work
import Dmg.Proofs.Lcd.Batching
import Dmg.Proofs.Lcd.Layer
import Dmg.Proofs.Lcd.Picture
import Dmg.Proofs.Lcd.Position
import Dmg.Proofs.Lcd.RequestTimes
import Dmg.Proofs.Lcd.Schedule
import Dmg.Proofs.Lcd.Sprites
import Dmg.Proofs.Lcd.Tiles
import Dmg.Proofs.Lcd.Transition
import Dmg.Proofs.Machine.Action
import Dmg.Proofs.Machine.Background
import Dmg.Proofs.Machine.Buttons
import Dmg.Proofs.Machine.Clock
import Dmg.Proofs.Machine.DeviceRequests
import Dmg.Proofs.Machine.Divider
import Dmg.Proofs.Machine.Frame
import Dmg.Proofs.Machine.History
import Dmg.Proofs.Machine.Interrupts
import Dmg.Proofs.Machine.Invariant
import Dmg.Proofs.Machine.Loading
import Dmg.Proofs.Machine.Pace
import Dmg.Proofs.Machine.Reports
import Dmg.Proofs.Machine.Requests
import Dmg.Proofs.Machine.Rows
import Dmg.Proofs.Machine.SerialLog
import Dmg.Proofs.Machine.Stack
import Dmg.Proofs.Machine.Standstill
import Dmg.Proofs.Machine.WindowLines
import Dmg.Proofs.Memory.Footprint
import Dmg.Proofs.Memory.SpriteCopy
import Dmg.Proofs.Scale
import Dmg.Proofs.Session
import Dmg.Proofs.Session.Stall
import Dmg.Proofs.Snapshot
import Dmg.Proofs.Snapshot.Directory
import Dmg.Proofs.Snapshot.Frames
import Dmg.Proofs.Text
import Dmg.Proofs.Timer
import Dmg.Proofs.Timer.Edges
import Dmg.Serial
import Dmg.Session
import Dmg.Snapshot
import Dmg.Text.Blank
import Dmg.Text.Hex
import Dmg.Text.Numeral
import Dmg.Text.Utf8
import Dmg.Timer
import Dmg.Word
