import Dmg.Launch

/-
  The program that runs an image for a number of frames and
  writes the last picture to a file.

  Key definitions include:
    * `Snapshot.Request`
    * `Snapshot.Request.ofArgs`
    * `Snapshot.Fault`
    * `Snapshot.runFrames`
    * `Snapshot.run`
-/

namespace Dmg.Snapshot

------------------------------------------------------------
-- Arguments
------------------------------------------------------------

def usage : String :=
  "usage: gb_frame_dump <rom_path> <out_rgb24_path> [frames]"

/- The image to run, the file to write, and the frames. -/
structure Request where
  image : String
  out : String
  frames : Nat
deriving DecidableEq, Repr

/- What is wrong with the arguments. -/
inductive ArgumentFault where
  | missing
  | invalidFrames (cause : Numeral.Fault)
deriving DecidableEq, Repr

def ArgumentFault.message : ArgumentFault → String
  | .missing => usage
  | .invalidFrames cause =>
      "invalid frame count; " ++ usage ++ ": " ++
        cause.message

/- The frames to run unless a number is given. -/
def defaultFrames : Nat := 120

/- Read the arguments; more than three are ignored. -/
def Request.ofArgs :
    List String → Except ArgumentFault Request
  | [] | [_] => .error .missing
  | [image, out] => .ok ⟨image, out, defaultFrames⟩
  | image :: out :: frames :: _ =>
      match Numeral.read frames.toList with
      | .ok n => .ok ⟨image, out, n⟩
      | .error cause => .error (.invalidFrames cause)

------------------------------------------------------------
-- Running
------------------------------------------------------------

/- Why no picture was written. -/
inductive Fault where
  | cartridge (cause : CartridgeFault)
  | emulation (frame : Nat) (cause : DecodeFault)
  | unwritable (path : String) (cause : FileFault)
deriving DecidableEq, Repr

def Fault.message : Fault → String
  | .cartridge cause => cause.report
  | .emulation frame cause =>
      "emulation failed during frame " ++ toString frame ++
        ": " ++ cause.message
  | .unwritable path cause =>
      "failed to write '" ++ path ++ "': " ++ cause.message

/-
  Run frames from a number on, until none is left, one fails,
  or the processor stops.
-/
def runFrames : Nat → Nat → Machine →
    Journaled (Except Fault Machine)
  | 0, _, m => return .ok m
  | left + 1, frame, m => do
      match ← m.runFrame with
      | (.error e, _) => return .error (.emulation frame e)
      | (.ok _, m) =>
          if m.cpu.stopped then
            report (.stoppedAfter (frame + 1))
            return .ok m
          else runFrames left (frame + 1) m

/- Run an image for a number of frames. -/
def record
    (path : String)
    (contents : Except FileFault (Array UInt8))
    (frames : Nat) : Journaled (Except Fault Machine) := do
  match ← Launch.acceptFile path contents with
  | .error e => return .error (.cartridge e)
  | .ok c => runFrames frames 0 (← Machine.load c {})

/- What is printed about a picture that has been written. -/
def summary
    (out : String)
    (m : Machine) : String :=
  "Wrote " ++ toString m.videoBytes.size ++ " bytes (" ++
    toString screenWidth ++ "x" ++ toString screenHeight ++
    " rgb24) after " ++ toString m.ticks ++ " ticks to '" ++
    out ++ "'\n" ++
  (if m.serialOutput.isEmpty then ""
    else
      "serial: " ++ Utf8.decode m.serialOutput.toList ++ "\n")

------------------------------------------------------------
-- Program
------------------------------------------------------------

variable {m : Type → Type} [Monad m] [Files m]

/- Run the image of a request and write the picture. -/
def perform
    (r : Request) :
    StateT Journal m (Except Fault Machine) := do
  let contents ← StateT.lift (Files.load r.image)
  match ← modifyGet (record r.image contents r.frames) with
  | .error e => return .error e
  | .ok machine =>
      let written ← StateT.lift
        (Files.save r.out machine.videoBytes)
      match written with
      | .ok _ => return .ok machine
      | .error e => return .error (.unwritable r.out e)

/- The program. -/
def run
    (args : List String) : StateT Journal m Exit := do
  match Request.ofArgs args with
  | .error e =>
      return { code := 2, stderr := e.message ++ "\n" }
  | .ok r =>
      match ← perform r with
      | .ok machine =>
          return { code := 0, stdout := summary r.out machine }
      | .error e =>
          return {
            code := 1
            stderr := "error: " ++ e.message ++ "\n" }

end Dmg.Snapshot
