import Dmg.Word

/-
  Upper-case hexadecimal text of fixed width, as all reports
  of the machine print bytes and addresses.

  Key definitions include:
    * `Hex.byte`
    * `Hex.word`
-/

namespace Dmg.Hex

/- The digit of a value below sixteen. -/
def digit
    (n : Nat) : Char :=
  if n < 10 then Char.ofNat (48 + n) else Char.ofNat (55 + n)

/- Two digits for a byte. -/
def byte
    (b : UInt8) : String :=
  String.ofList [digit (b.toNat / 16), digit (b.toNat % 16)]

/- Four digits for a word. -/
def word
    (w : UInt16) : String :=
  byte (highByte w) ++ byte (lowByte w)

end Dmg.Hex
