import Dmg.Color
import Dmg.Lcd.Mode

/-
  Shades, palettes and the picture composed of them.

  Key definitions include:
    * `Shade`
    * `ColorIndex`
    * `Palette`
    * `Row`
    * `Picture`
    * `Picture.bytes`
-/

namespace Dmg

------------------------------------------------------------
-- Shades And Palettes
------------------------------------------------------------

/- The four shades of the screen. -/
inductive Shade where
  | white
  | light
  | dark
  | black
deriving DecidableEq, Repr

namespace Shade

/- The brightness of a shade. -/
def level : Shade → UInt8
  | .white => 0xFF
  | .light => 0xAA
  | .dark => 0x55
  | .black => 0x00

/- The colour of a shade. -/
def color
    (s : Shade) : Color :=
  Color.gray s.level

/- The shade named by two bits of a palette register. -/
def ofBits : Bool → Bool → Shade
  | false, false => .white
  | false, true => .light
  | true, false => .dark
  | true, true => .black

end Shade

/- The number of a colour within a palette. -/
abbrev ColorIndex := Fin 4

/- A shade for each colour index. -/
abbrev Palette := Vector Shade 4

/-
  The palette that a register byte describes: two bits per
  colour index, index zero lowest.
-/
def Palette.ofByte
    (v : UInt8) : Palette :=
  Vector.ofFn fun i =>
    Shade.ofBits (bit v (2 * i + 1)) (bit v (2 * i))

------------------------------------------------------------
-- Picture
------------------------------------------------------------

/- The shades of one line. -/
abbrev Row := Vector Shade screenWidth

/- The shades of all visible lines. -/
abbrev Picture := Vector Row screenHeight

namespace Picture

/- A white picture. -/
def blank : Picture :=
  .replicate screenHeight (.replicate screenWidth .white)

/- The picture as bytes: three per pixel, line by line. -/
def bytes
    (p : Picture) : Array UInt8 :=
  p.toArray.foldl
    (fun out row =>
      row.toArray.foldl
        (fun out s =>
          let l := s.level
          ((out.push l).push l).push l) out)
    (Array.emptyWithCapacity 69120)

end Picture

end Dmg
