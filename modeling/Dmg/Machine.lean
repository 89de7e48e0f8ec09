import Dmg.Board
import Dmg.Cpu.Step

/-
  The machine: processor, board and the count of ticks since
  it was switched on or reset.

  Key definitions include:
    * `Machine`
    * `Machine.reset`
    * `Machine.load`
    * `Machine.step`
    * `Machine.runFrame`
-/

namespace Dmg

structure Machine where
  cpu : Cpu := {}
  board : Board := {}
  ticks : Nat := 0

namespace Machine

------------------------------------------------------------
-- Reset And Loading
------------------------------------------------------------

/- Everything as a program finds it, the image apart. -/
def reset
    (m : Machine) : Journaled Machine := do
  report .machineReset
  return { board := m.board.reset }

/- Put in a cartridge and reset. -/
def load
    (c : Cartridge)
    (m : Machine) : Journaled Machine :=
  { m with board := { m.board with rom := c.rom } }.reset

/- What is to be reported of an accepted cartridge. -/
def acceptanceEvents
    (c : Cartridge) : List Message :=
  .cartridgeAccepted c.title c.kind c.ramSize ::
    c.warnings.map .headerWarning

/- Accept or refuse an image. -/
def accept
    (image : Array UInt8) :
    Journaled (Except CartridgeFault Cartridge) := do
  match Cartridge.ofBytes image with
  | .error e => return .error e
  | .ok c =>
      modify (Journal.noteAll (acceptanceEvents c))
      return .ok c

/- Put in a cartridge with an image if it is accepted. -/
def loadImage
    (image : Array UInt8)
    (m : Machine) :
    Journaled (Except CartridgeFault Unit × Machine) := do
  match ← accept image with
  | .error e => return (.error e, m)
  | .ok c => return (.ok (), ← m.load c)

------------------------------------------------------------
-- Steps And Frames
------------------------------------------------------------

/-
  One step of the processor, after which timer and LCD
  controller follow.  They do not follow a step that fails.
-/
def step
    (m : Machine) : Journaled (StepResult × Machine) :=
  fun journal =>
    match m with
    | ⟨cpu, board, ticks⟩ =>
        match Core.step (⟨cpu, ⟨board, journal⟩⟩ :
            Core Wired) with
        | (.error e, ⟨cpu, ⟨board, journal⟩⟩) =>
            ((.error e, ⟨cpu, board, ticks⟩), journal)
        | (.ok cost, ⟨cpu, ⟨board, journal⟩⟩) =>
            let now := ticks + cost
            match board.advance cost now journal with
            | (board, journal) =>
                ((.ok cost, ⟨cpu, board, now⟩), journal)

/- Whether a frame has been completed and not yet taken. -/
def frameReady
    (m : Machine) : Bool :=
  m.board.lcd.frameReady

/- Take the completed frame. -/
def takeFrame
    (m : Machine) : Machine :=
  match m with
  | ⟨cpu, board, ticks⟩ =>
      ⟨cpu,
        { board with
          lcd := { board.lcd with frameReady := false } },
        ticks⟩

/- The result of a frame: nothing, or why it failed. -/
abbrev FrameResult := Except DecodeFault Unit

/-
  Step until a frame is completed, the processor stops, or
  the deadline has passed, and at most `fuel` times.
-/
def runUntil
    (deadline : Nat) :
    Nat → Machine → Journaled (FrameResult × Machine)
  | 0, m, journal => ((.ok (), m), journal)
  | fuel + 1, m, journal =>
      if m.ticks < deadline && !m.cpu.stopped then
        match m.step journal with
        | ((.error e, m), journal) =>
            ((.error e, m), journal)
        | ((.ok _, m), journal) =>
            if m.frameReady then
              ((.ok (), m.takeFrame), journal)
            else runUntil deadline fuel m journal
      else ((.ok (), m), journal)

/-
  Step until a frame is completed or the processor stops, but
  no longer than a frame takes.  A step takes at least one
  tick, so there are no more steps than ticks.
-/
def runFrame
    (m : Machine) : Journaled (FrameResult × Machine) :=
  runUntil (m.ticks + frameTicks) frameTicks m

------------------------------------------------------------
-- Buttons
------------------------------------------------------------

/- Hold or release a button. -/
def setButton
    (button : Button)
    (held : Bool)
    (m : Machine) : Journaled Machine := do
  if m.board.presses button held then
    report (.buttonPressed button)
  return { m with board := m.board.setButton button held }

/- Hold or release the button of a key, if it has one. -/
def handleKey
    (k : Key)
    (held : Bool)
    (m : Machine) : Journaled Machine :=
  match k.button? with
  | none => return m
  | some button => m.setButton button held

------------------------------------------------------------
-- Access From Outside
------------------------------------------------------------

/- Read a byte as the processor does. -/
def read
    (addr : UInt16)
    (m : Machine) : UInt8 :=
  m.board.read addr

/- Write a byte as the processor does. -/
def write
    (addr : UInt16)
    (v : UInt8)
    (m : Machine) : Journaled Machine :=
  fun journal =>
    match m with
    | ⟨cpu, board, ticks⟩ =>
        match Wired.write addr v ⟨board, journal⟩ with
        | ⟨board, journal⟩ => (⟨cpu, board, ticks⟩, journal)

/- The picture as bytes, three per pixel. -/
def videoBytes
    (m : Machine) : Array UInt8 :=
  m.board.lcd.picture.bytes

/-
  Copy the picture over a buffer, as far as both reach.
-/
def drawInto
    (buffer : Array UInt8)
    (m : Machine) : Array UInt8 :=
  let video := m.videoBytes
  video.extract 0 buffer.size ++
    buffer.extract video.size buffer.size

/- The bytes sent over the serial line. -/
def serialOutput
    (m : Machine) : Array UInt8 :=
  m.board.serial.output

end Machine

end Dmg
