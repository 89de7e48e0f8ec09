import Dmg.Interrupt

/-
  The divider and timer.

  A hidden counter moves once per machine cycle of four
  ticks.  The timer counts the falls of one of its bits while
  it is enabled, whatever makes the bit fall: counting, a
  write to the divider, or a write to the control register.
  After an overflow the timer is reloaded, and an interrupt
  requested, in the next cycle.

  Key definitions include:
    * `Timer`
    * `Timer.signal`
    * `Timer.settle`
    * `Timer.cycle`
    * `Timer.tick`
-/

namespace Dmg

/-
  The hidden counter, the timer and the value it is reloaded
  with, the control bits, whether a reload is due, and the
  ticks that do not yet make up a cycle.
-/
structure Timer where
  counter : UInt16 := 0x2AC0
  count : UInt8 := 0
  modulo : UInt8 := 0
  control : UInt8 := 0
  overflow : Bool := false
  pending : Nat := 0
deriving DecidableEq, Repr

namespace Timer

/- Ticks per machine cycle. -/
def cycleTicks : Nat := 4

------------------------------------------------------------
-- Counting
------------------------------------------------------------

/- Whether the timer counts. -/
def enabled
    (t : Timer) : Bool :=
  bit t.control 2

/- The bit of the hidden counter whose falls are counted. -/
def watchedBit
    (t : Timer) : Nat :=
  match (t.control &&& 3).toNat with
  | 1 => 1
  | 2 => 3
  | 3 => 5
  | _ => 7

/- The enabled watched bit, whose falls the timer counts. -/
def signal
    (t : Timer) : Bool :=
  t.enabled && t.counter.toNat.testBit t.watchedBit

/- Count once; from the highest value, a reload is due. -/
def increment
    (t : Timer) : Timer :=
  { t with
    count := t.count + 1
    overflow := t.overflow || t.count == 0xFF }

/- Count if the signal has fallen from an earlier value. -/
def settle
    (before : Bool)
    (t : Timer) : Timer :=
  if before && !t.signal then t.increment else t

------------------------------------------------------------
-- Time
------------------------------------------------------------

/- Reload the timer if that is due. -/
def reload
    (t : Timer) : Timer :=
  if t.overflow then
    { t with count := t.modulo, overflow := false }
  else t

/- Move the hidden counter. -/
def advanceCounter
    (t : Timer) : Timer :=
  { t with counter := t.counter + 1 }.settle t.signal

/- One machine cycle. -/
def cycle
    (t : Timer)
    (ic : InterruptController) :
    Timer × InterruptController :=
  (t.reload.advanceCounter,
    if t.overflow then ic.request .timer else ic)

/- A number of machine cycles. -/
def cycles : Nat → Timer → InterruptController →
    Timer × InterruptController
  | 0, t, ic => (t, ic)
  | n + 1, t, ic =>
      let (t, ic) := t.cycle ic
      cycles n t ic

/- Cycles may be counted in parts. -/
theorem cycles_add
    (m n : Nat)
    (t : Timer)
    (ic : InterruptController) :
    cycles (m + n) t ic =
      cycles n (cycles m t ic).1 (cycles m t ic).2 := by
  induction m generalizing t ic with
  | zero =>
      simp [cycles]
  | succ m ih =>
      rw [Nat.succ_add]
      exact ih (t.cycle ic).1 (t.cycle ic).2

/- A number of ticks. -/
def tick
    (ticks : Nat)
    (t : Timer)
    (ic : InterruptController) :
    Timer × InterruptController :=
  let total := t.pending + ticks
  cycles (total / cycleTicks)
    { t with pending := total % cycleTicks } ic

------------------------------------------------------------
-- Registers
------------------------------------------------------------

/- The divider as read. -/
def readDivider
    (t : Timer) : UInt8 :=
  (t.counter >>> 6).toUInt8

/- The control register as read: its unused bits are set. -/
def readControl
    (t : Timer) : UInt8 :=
  0xF8 ||| t.control

/- Write the divider: the hidden counter restarts. -/
def writeDivider
    (t : Timer) : Timer :=
  { t with counter := 0 }.settle t.signal

/- Write the timer: a reload that is due is called off. -/
def writeCount
    (t : Timer)
    (v : UInt8) : Timer :=
  { t with count := v, overflow := false }

/- Write the value that the timer is reloaded with. -/
def writeModulo
    (t : Timer)
    (v : UInt8) : Timer :=
  { t with modulo := v }

/- Write the control register. -/
def writeControl
    (t : Timer)
    (v : UInt8) : Timer :=
  { t with control := v &&& 0x07 }.settle t.signal

end Timer

end Dmg
