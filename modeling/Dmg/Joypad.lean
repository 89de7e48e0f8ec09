import Dmg.Word

/-
  The eight buttons and the register P1 through which a
  program reads them.

  A program selects a group of four buttons by writing a zero
  to bit 4 (the directions) or bit 5 (the actions) of P1; a
  held button of a selected group reads as a zero.

  Key definitions include:
    * `Button`
    * `Joypad`
    * `Joypad.isHeld`
    * `Joypad.set`
    * `Joypad.read`
    * `Joypad.write`
-/

namespace Dmg

------------------------------------------------------------
-- Buttons
------------------------------------------------------------

inductive Button where
  | right
  | left
  | up
  | down
  | a
  | b
  | select
  | start
deriving DecidableEq, Repr

namespace Button

/- The name of a button in reports. -/
def name : Button → String
  | .right => "Right"
  | .left => "Left"
  | .up => "Up"
  | .down => "Down"
  | .a => "A"
  | .b => "B"
  | .select => "Select"
  | .start => "Start"

/- Whether a button is one of the four directions. -/
def isDirection : Button → Bool
  | .right | .left | .up | .down => true
  | .a | .b | .select | .start => false

/- The number of a button's bit within its group. -/
def position : Button → Fin 8
  | .right | .a => 0
  | .left | .b => 1
  | .up | .select => 2
  | .down | .start => 3

/- Group and bit tell a button from all others. -/
theorem position_eq_iff
    {x y : Button}
    (h : x.isDirection = y.isDirection) :
    x.position = y.position ↔ x = y := by
  cases x <;> cases y <;> revert h <;> decide

end Button

------------------------------------------------------------
-- Joypad
------------------------------------------------------------

/-
  The select bits of P1 and, for each group, a one for each
  held button.
-/
structure Joypad where
  select : UInt8 := 0x30
  directions : UInt8 := 0
  actions : UInt8 := 0
deriving DecidableEq, Repr

namespace Joypad

/- The held buttons of the group of a button. -/
def group
    (j : Joypad)
    (x : Button) : UInt8 :=
  if x.isDirection then j.directions else j.actions

/- Whether a button is held. -/
def isHeld
    (j : Joypad)
    (x : Button) : Bool :=
  bit (j.group x) x.position

/- Hold or release a button. -/
def set
    (j : Joypad)
    (x : Button)
    (held : Bool) : Joypad :=
  let held := setBit (j.group x) x.position held
  if x.isDirection then { j with directions := held }
  else { j with actions := held }

/- Holding or releasing a button leaves all others. -/
theorem isHeld_set
    (j : Joypad)
    (x y : Button)
    (held : Bool) :
    (j.set x held).isHeld y =
      if x = y then held else j.isHeld y := by
  by_cases hGroup : x.isDirection = y.isDirection
  · have hSet :
        (j.set x held).group y =
          setBit (j.group y) x.position held := by
      cases hx : x.isDirection <;>
        simp [group, set, ← hGroup, hx]
    simp only [isHeld, hSet, bit_setBit,
      Button.position_eq_iff hGroup]
  · have hSet :
        (j.set x held).group y = j.group y := by
      cases hx : x.isDirection <;>
        cases hy : y.isDirection <;>
        simp_all [group, set]
    have hNe : x ≠ y := fun h => hGroup (by rw [h])
    simp only [isHeld, hSet, hNe, if_false]

/- The low bits of P1 that a group pulls down. -/
def pulled
    (selected : Bool)
    (held : UInt8) : UInt8 :=
  if selected then 0x0F &&& ~~~held else 0x0F

/- P1 as read. -/
def read
    (j : Joypad) : UInt8 :=
  0xC0 ||| j.select |||
    (pulled (j.select &&& 0x10 == 0) j.directions &&&
      pulled (j.select &&& 0x20 == 0) j.actions)

/- Write P1: only the select bits can be written. -/
def write
    (j : Joypad)
    (v : UInt8) : Joypad :=
  { j with select := v &&& 0x30 }

end Joypad

end Dmg
