import Dmg.Joypad

/-
  Keys of the host's keyboard and the buttons that they hold.

  Key definitions include:
    * `Key`
    * `Key.button?`
-/

namespace Dmg

/- The keys that a session reacts to, and all others as one. -/
inductive Key where
  | a
  | s
  | z
  | x
  | up
  | down
  | left
  | right
  | backspace
  | escape
  | other
deriving DecidableEq, Repr

namespace Key

/- The name of a key in reports. -/
def name : Key → String
  | .a => "A"
  | .s => "S"
  | .z => "Z"
  | .x => "X"
  | .up => "Up"
  | .down => "Down"
  | .left => "Left"
  | .right => "Right"
  | .backspace => "Backspace"
  | .escape => "Escape"
  | .other => "None"

/- The button that a key holds. -/
def button? : Key → Option Button
  | .right => some .right
  | .left => some .left
  | .up => some .up
  | .down => some .down
  | .z => some .a
  | .x => some .b
  | .a => some .select
  | .s => some .start
  | .backspace | .escape | .other => none

end Key

end Dmg
