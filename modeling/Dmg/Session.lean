import Dmg.Machine

/-
  A session: the machine driven frame by frame by a window,
  with keys, periodic summaries and a report of a stall.

  Key definitions include:
    * `Session`
    * `Session.start`
    * `Session.update`
    * `Session.trackStall`
    * `Session.handleKey`
-/

namespace Dmg

/- The scale of a window unless another is asked for. -/
def defaultScale : Nat := 4

/- The title of a window. -/
def baseTitle : String := "dotmatrix"

/- The frames between two summaries. -/
def summaryInterval : UInt64 := 60

/- The frames with the same PC after which it is reported. -/
def stallFrames : Nat := 600

/- The most frames that are counted with the same PC. -/
def stagnantLimit : Nat := UInt32.size - 1

/-
  The machine, whether the session is over, the scale of its
  window, the frames so far, and what was seen at the end of
  the last one.
-/
structure Session where
  machine : Machine := {}
  shouldExit : Bool := false
  scale : Nat := defaultScale
  frames : UInt64 := 0
  lastPc : UInt16 := 0
  stagnantFrames : Nat := 0
  lastLcdc : UInt8 := 0

namespace Session

/- Use another scale, but not zero. -/
def withScale
    (s : Session)
    (scale : Nat) : Session :=
  { s with scale := max scale 1 }

/- The register that switches the LCD and its layers. -/
def lcdc
    (s : Session) : UInt8 :=
  s.machine.read 0xFF40

/- The current line. -/
def ly
    (s : Session) : UInt8 :=
  s.machine.read 0xFF44

/- What a summary shows. -/
def status
    (s : Session) : Status where
  frame := s.frames
  regs := s.machine.cpu.regs
  halted := s.machine.cpu.halted
  interrupts := s.machine.board.interrupts
  lcdc := s.lcdc
  ly := s.ly

------------------------------------------------------------
-- Start And End
------------------------------------------------------------

/- Begin: what changes from now on is a change. -/
def start
    (s : Session) : Journaled Session := do
  report .sessionStarted
  return { s with
    lastPc := s.machine.cpu.regs.pc
    lastLcdc := s.lcdc }

/- End. -/
def finish
    (s : Session) : Journaled Unit :=
  report (.sessionEnded s.frames)

------------------------------------------------------------
-- Frames
------------------------------------------------------------

/- Count the frames that end at the same PC. -/
def countStagnant
    (s : Session) : Session :=
  let pc := s.machine.cpu.regs.pc
  if pc = s.lastPc then
    { s with
      stagnantFrames :=
        min (s.stagnantFrames + 1) stagnantLimit }
  else
    { s with stagnantFrames := 0, lastPc := pc }

/- Report a stall once, and each change of LCDC. -/
def trackStall
    (s : Session) : Journaled Session := do
  let s := s.countStagnant
  if s.stagnantFrames = stallFrames then
    report (.pcUnchanged s.machine.cpu.regs.pc
      s.machine.cpu.halted)
  if s.lcdc ≠ s.lastLcdc then
    report (.lcdcChanged s.lastLcdc s.lcdc)
  return { s with lastLcdc := s.lcdc }

/- Whether a summary is due after this frame. -/
def summaryDue
    (s : Session) : Bool :=
  s.frames == 1 || s.frames % summaryInterval == 0

/- Run the machine for a frame; a fault ends the session. -/
def runFrame
    (s : Session) : Journaled Session := fun journal =>
  match s with
  | ⟨machine, ended, scale, frames, pc, stagnant, lcdc⟩ =>
      match machine.runFrame journal with
      | ((.ok _, machine), journal) =>
          (⟨machine, ended, scale, frames, pc, stagnant,
            lcdc⟩, journal)
      | ((.error e, machine), journal) =>
          (⟨machine, true, scale, frames, pc, stagnant,
            lcdc⟩, journal.note (.emulationHalted e))

/- End the session if the processor has stopped. -/
def endIfStopped
    (s : Session) : Journaled Session := do
  if s.machine.cpu.stopped then
    report .sessionStopped
    return { s with shouldExit := true }
  else return s

/- Run one frame and show it, unless the session is over. -/
def update
    (s : Session)
    (screen : Array UInt8) :
    Journaled (Session × Array UInt8) := do
  if s.shouldExit then return (s, screen)
  let s ← s.runFrame
  let screen := s.machine.drawInto screen
  let s ← endIfStopped { s with frames := s.frames + 1 }
  let s ← s.trackStall
  if s.summaryDue then report (.summary s.status)
  return (s, screen)

------------------------------------------------------------
-- Keys
------------------------------------------------------------

/-
  React to a key: Backspace resets the machine, Escape ends
  the session, and the other keys hold buttons.
-/
def handleKey
    (s : Session)
    (k : Key)
    (held : Bool) : Journaled Session := do
  report (.keyEvent k held)
  match k, held with
  | .backspace, true =>
      return { s with machine := ← s.machine.reset }
  | .escape, true => return { s with shouldExit := true }
  | _, _ =>
      return { s with machine := ← s.machine.handleKey k held }

end Session

end Dmg
