import Dmg.Word

/-
  The serial line with nothing connected to it.

  A transfer on the internal clock is complete at once: the
  byte goes to the output, and the idle line is read back.

  Key definitions include:
    * `Serial`
    * `Serial.starts`
    * `Serial.writeControl`
-/

namespace Dmg

/- The data byte, the control byte, and all bytes sent. -/
structure Serial where
  data : UInt8 := 0x00
  control : UInt8 := 0x7E
  output : Array UInt8 := #[]
deriving DecidableEq, Repr

namespace Serial

/- Whether a control byte starts a transfer. -/
def starts
    (v : UInt8) : Bool :=
  bit v 7 && bit v 0

/- The control byte as read: its unused bits are set. -/
def readControl
    (s : Serial) : UInt8 :=
  s.control ||| 0x7E

/- Set the byte to be sent. -/
def writeData
    (s : Serial)
    (v : UInt8) : Serial :=
  { s with data := v }

/- Send the data byte. -/
def transfer
    (s : Serial) : Serial :=
  match s with
  | ⟨data, control, output⟩ =>
      ⟨0xFF, control &&& 0x7F, output.push data⟩

/- Set the control byte, and send if that starts a transfer. -/
def writeControl
    (s : Serial)
    (v : UInt8) : Serial :=
  let s := { s with control := v }
  if starts v then s.transfer else s

end Serial

end Dmg
