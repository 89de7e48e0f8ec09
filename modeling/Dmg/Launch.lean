import Dmg.Files
import Dmg.Session
import Dmg.Text.Blank
import Dmg.Text.Numeral
import Dmg.Text.Utf8

/-
  Starting a session in a window: the cartridge is read, the
  scale is taken from the environment, and a window is asked
  for.

  Key definitions include:
    * `Scale.read?`
    * `Scale.choose`
    * `Window`
    * `Exit`
    * `Launch.readCartridge`
    * `Launch.prepare`
    * `Launch.run`
-/

namespace Dmg

------------------------------------------------------------
-- Scale
------------------------------------------------------------

namespace Scale

/- The variable that holds the scale. -/
def environmentName : String := "DOTMATRIX_SCALE"

/-
  The scale that a text asks for: a numeral above zero, with
  white space around it allowed.
-/
def read?
    (s : String) : Option Nat :=
  match Numeral.read (Blank.trim s.toList) with
  | .ok 0 => none
  | .ok n => some n
  | .error _ => none

/- The scale to use; a text that asks for none is reported. -/
def choose
    (value : Option String) : Journaled Nat := do
  match value with
  | none => return defaultScale
  | some s =>
      match read? s with
      | some n => return n
      | none =>
          report .scaleIgnored
          return defaultScale

end Scale

------------------------------------------------------------
-- Window
------------------------------------------------------------

/- What is asked of a window. -/
structure Window where
  width : Nat
  height : Nat
  scale : Nat
  title : String
deriving DecidableEq, Repr

/- What a program leaves behind, and says at its end. -/
structure Exit where
  code : Nat
  stdout : String := ""
  stderr : String := ""
deriving DecidableEq, Repr

/-
  All that comes out of a stream, as text: first what was
  written to it as a file, then what is said at the end.
-/
def streamText
    (written : Array UInt8)
    (said : String) : String :=
  Utf8.decode (written.toList ++ said.toUTF8.data.toList)

namespace Launch

/- The title of the window for a cartridge. -/
def windowTitle
    (c : Cartridge) : String :=
  if c.title = "" then baseTitle
  else baseTitle ++ " - " ++ c.title

/- The window of a session with a cartridge. -/
def window
    (s : Session)
    (c : Cartridge) : Window where
  width := screenWidth
  height := screenHeight
  scale := s.scale
  title := windowTitle c

------------------------------------------------------------
-- Programs
------------------------------------------------------------

/- Accept or refuse the image that a path was read as. -/
def acceptFile
    (path : String)
    (contents : Except FileFault (Array UInt8)) :
    Journaled (Except CartridgeFault Cartridge) := do
  match contents with
  | .error cause => return .error (.unreadable path cause)
  | .ok image =>
      report (.imageRead image.size path)
      Machine.accept image

/- A session with a cartridge, and the window for it. -/
def prepare
    (scale : Option String)
    (c : Cartridge) : Journaled (Window × Session) := do
  let machine ← Machine.load c {}
  let scale ← Scale.choose scale
  let session : Session := { machine := machine }
  let session := session.withScale scale
  return (window session c, session)

/- What is said about a cartridge that cannot be started. -/
def faultText
    (path : String)
    (e : CartridgeFault) : String :=
  "cannot start " ++ path ++ ": " ++ e.report

/- The window for the image at a path, or what is wrong. -/
def openFile
    (path : String)
    (contents : Except FileFault (Array UInt8))
    (scale : Option String) :
    Journaled (Except String (Window × Session)) := do
  match ← acceptFile path contents with
  | .error e => return .error (faultText path e)
  | .ok c => return .ok (← prepare scale c)

def usage : String :=
  "usage: dotmatrix <rom.gb>\n" ++
  "  RUST_LOG=info       log level (env_logger)\n" ++
  "  DOTMATRIX_SCALE=N   window scale factor (default 4)\n"

/- The program that plays the image that it is given. -/
def run
    {m : Type → Type}
    [Monad m]
    [Files m]
    (args : List String)
    (scale : Option String) : StateT Journal m Exit := do
  match args with
  | [path] =>
      modify (Journal.note (.playing path))
      let contents ← StateT.lift (Files.load path)
      match ← modifyGet (openFile path contents scale) with
      | .ok _ => return { code := 0 }
      | .error text =>
          return {
            code := 1
            stderr := "error: " ++ text ++ "\n" }
  | _ => return { code := 2, stderr := usage }

end Launch

end Dmg
