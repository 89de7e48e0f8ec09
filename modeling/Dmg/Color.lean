/-
  Colours as a front end takes them.

  Key definitions include:
    * `Color`
    * `Color.gray`
    * `Color.toUInt32`
-/

namespace Dmg

/- Red, green, blue and opacity. -/
structure Color where
  r : UInt8
  g : UInt8
  b : UInt8
  a : UInt8
deriving DecidableEq, Repr

namespace Color

/- An opaque colour. -/
def ofRgb
    (r g b : UInt8) : Color :=
  ⟨r, g, b, 0xFF⟩

/- An opaque shade of grey. -/
def gray
    (level : UInt8) : Color :=
  ofRgb level level level

/- The three colour bytes. -/
def rgb
    (c : Color) : List UInt8 :=
  [c.r, c.g, c.b]

/- All four bytes in one word, red lowest. -/
def toUInt32
    (c : Color) : UInt32 :=
  c.r.toUInt32 ||| (c.g.toUInt32 <<< 8) |||
    (c.b.toUInt32 <<< 16) ||| (c.a.toUInt32 <<< 24)

end Color

end Dmg
