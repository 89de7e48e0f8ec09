import Dmg.Word

/-
  Interrupt sources and the controller that holds the master
  enable, the enable register IE and the request register IF.

  The controller only records and selects requests.  Saving
  the program counter and jumping to the handler is the
  processor's work.

  Key definitions include:
    * `Interrupt`
    * `Interrupt.mask`
    * `Interrupt.vector`
    * `InterruptController`
    * `InterruptController.request`
    * `InterruptController.requestIfEnabled`
    * `InterruptController.pending`
    * `InterruptController.take`
-/

namespace Dmg

------------------------------------------------------------
-- Interrupt Sources
------------------------------------------------------------

/- The five sources. -/
inductive Interrupt where
  | vblank
  | lcdStat
  | timer
  | serial
  | joypad
deriving DecidableEq, Repr

namespace Interrupt

/- All sources, highest priority first. -/
def byPriority : List Interrupt :=
  [.vblank, .lcdStat, .timer, .serial, .joypad]

/- The number of a source's bit in IE and IF. -/
def position : Interrupt → Fin 8
  | .vblank => 0
  | .lcdStat => 1
  | .timer => 2
  | .serial => 3
  | .joypad => 4

/- The bit of a source in IE and IF. -/
def mask
    (i : Interrupt) : UInt8 :=
  bitMask i.position

theorem position_eq_iff
    {i j : Interrupt} :
    i.position = j.position ↔ i = j := by
  cases i <;> cases j <;> decide

/- The address of a source's handler. -/
def vector : Interrupt → UInt16
  | .vblank => 0x0040
  | .lcdStat => 0x0048
  | .timer => 0x0050
  | .serial => 0x0058
  | .joypad => 0x0060

/- The name of a source in reports. -/
def name : Interrupt → String
  | .vblank => "VBlank"
  | .lcdStat => "LcdStat"
  | .timer => "Timer"
  | .serial => "Serial"
  | .joypad => "Joypad"

end Interrupt

------------------------------------------------------------
-- Interrupt Controller
------------------------------------------------------------

/-
  The master enable, the full byte of IE, and the request
  bits of IF.  Only the low five bits of each select sources.
-/
structure InterruptController where
  master : Bool := true
  enable : UInt8 := 0
  requests : UInt8 := 0
deriving DecidableEq, Repr

namespace InterruptController

/- The sources enabled in IE. -/
def enabled
    (ic : InterruptController) : UInt8 :=
  ic.enable &&& 0x1F

/- The sources both requested and enabled. -/
def pending
    (ic : InterruptController) : UInt8 :=
  ic.requests &&& ic.enabled

/- Whether a source is both requested and enabled. -/
def isPending
    (ic : InterruptController)
    (i : Interrupt) : Bool :=
  bit ic.pending i.position

/- The pending source of highest priority. -/
def highestPending
    (ic : InterruptController) : Option Interrupt :=
  Interrupt.byPriority.find? ic.isPending

/- Whether a source is requested. -/
def isRequested
    (ic : InterruptController)
    (i : Interrupt) : Bool :=
  bit ic.requests i.position

/- Record a request. -/
def request
    (ic : InterruptController)
    (i : Interrupt) : InterruptController :=
  { ic with requests := setBit ic.requests i.position true }

/- Whether a source is enabled in IE. -/
def isEnabled
    (ic : InterruptController)
    (i : Interrupt) : Bool :=
  bit ic.enable i.position

/- Record a request only if its source is enabled in IE. -/
def requestIfEnabled
    (ic : InterruptController)
    (i : Interrupt) : InterruptController :=
  if ic.isEnabled i then ic.request i else ic

/- Set or clear the master enable. -/
def setMaster
    (ic : InterruptController)
    (on : Bool) : InterruptController :=
  { ic with master := on }

/-
  Acknowledge a source: its request and the master enable are
  cleared, and all other requests stay.
-/
def acknowledge
    (ic : InterruptController)
    (i : Interrupt) : InterruptController :=
  { ic with
    master := false
    requests := setBit ic.requests i.position false }

/-
  The source to be serviced now: the pending source of
  highest priority, provided that the master enable is set.
-/
def serviceable
    (ic : InterruptController) : Option Interrupt :=
  if ic.master && ic.pending != 0 then ic.highestPending
  else none

/- Select the source to be serviced and acknowledge it. -/
def take
    (ic : InterruptController) :
    Option Interrupt × InterruptController :=
  match ic.serviceable with
  | none => (none, ic)
  | some i => (some i, ic.acknowledge i)

/- A request changes no other. -/
theorem isRequested_request
    (ic : InterruptController)
    (i j : Interrupt) :
    (ic.request i).isRequested j =
      (i == j || ic.isRequested j) := by
  simp only [isRequested, request, bit_setBit,
    Interrupt.position_eq_iff]
  by_cases h : i = j <;> simp [h]

/- Acknowledging a source clears no other request. -/
theorem isRequested_acknowledge
    (ic : InterruptController)
    (i j : Interrupt) :
    (ic.acknowledge i).isRequested j =
      (i != j && ic.isRequested j) := by
  simp only [isRequested, acknowledge, bit_setBit,
    Interrupt.position_eq_iff]
  by_cases h : i = j <;> simp [h]

/- A source is pending if it is requested and enabled. -/
theorem isPending_eq
    (ic : InterruptController)
    (i : Interrupt) :
    ic.isPending i =
      (ic.isRequested i && ic.isEnabled i) := by
  have hLow : bit 0x1F i.position = true := by
    cases i <;> decide
  simp [isPending, pending, enabled, isRequested,
    isEnabled, bit_and, hLow]

/- IF as read: its three unused bits are set. -/
def readRequests
    (ic : InterruptController) : UInt8 :=
  0xE0 ||| ic.requests

/- Write IF: its three unused bits are dropped. -/
def writeRequests
    (ic : InterruptController)
    (v : UInt8) : InterruptController :=
  { ic with requests := v &&& 0x1F }

/- Write IE: the full byte is kept. -/
def writeEnable
    (ic : InterruptController)
    (v : UInt8) : InterruptController :=
  { ic with enable := v }

end InterruptController

end Dmg
