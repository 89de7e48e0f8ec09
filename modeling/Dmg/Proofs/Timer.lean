import Dmg.Timer

/-
  The timer in closed form.

  Left alone, the hidden counter runs on, and its watched bit
  falls once in every period.  How far the timer has got by
  some cycle is told by the number of falls until then: up to
  the first overflow it counts from where it was, and from
  then on from the modulo.

  Key definitions include:
    * `Timer.period`, `Timer.falls`
    * `Timer.after`, `Timer.reloaded`
    * `Timer.countAfter`, `Timer.Due`
    * `Timer.Reached`
    * `Timer.run`

  Main results:
    * `Timer.cycles_eq`
    * `Timer.next_eq`
    * `Timer.reached_after`
    * `Timer.reloaded_iff`
    * `Timer.run_closedForm`
-/

namespace Dmg

/- A request recorded twice is one request. -/
theorem InterruptController.request_request
    (ic : InterruptController)
    (i : Interrupt) :
    (ic.request i).request i = ic.request i := by
  have hTwice :
      setBit (setBit ic.requests i.position true)
          i.position true =
        setBit ic.requests i.position true := by
    apply byte_ext
    intro j
    simp only [bit_setBit]
    split <;> rfl
  unfold request
  rw [hTwice]

namespace Timer

/- Counting on a falling signal changes the count alone. -/
theorem settle_cases
    (before : Bool)
    (t : Timer) :
    (t.settle before).counter = t.counter ∧
      (t.settle before).modulo = t.modulo ∧
      (t.settle before).control = t.control ∧
      (t.settle before).pending = t.pending := by
  unfold settle
  split <;> exact ⟨rfl, rfl, rfl, rfl⟩

------------------------------------------------------------
-- Cycles
------------------------------------------------------------

/- One machine cycle of the timer. -/
def next
    (t : Timer) : Timer :=
  t.reload.advanceCounter

/- A number of machine cycles of the timer. -/
def after
    (t : Timer) : Nat → Timer
  | 0 => t
  | n + 1 => (t.after n).next

/- Whether it is reloaded in a number of cycles. -/
def reloaded
    (t : Timer) : Nat → Bool
  | 0 => false
  | n + 1 => t.reloaded n || (t.after n).overflow

/- Any number of reloads makes one request. -/
theorem cycles_eq
    (n : Nat)
    (t : Timer)
    (ic : InterruptController) :
    cycles n t ic =
      (t.after n,
        if t.reloaded n then ic.request .timer else ic) := by
  induction n with
  | zero => rfl
  | succ n ih =>
      rw [cycles_add n 1, ih]
      simp only [cycles, cycle, after, reloaded, next]
      by_cases hBefore : t.reloaded n = true <;>
        by_cases hNow : (t.after n).overflow = true <;>
        simp [hBefore, hNow,
          InterruptController.request_request]

------------------------------------------------------------
-- Falls
------------------------------------------------------------

/- Machine cycles between two falls of the watched bit. -/
def period
    (t : Timer) : Nat :=
  match (t.control &&& 3).toNat with
  | 1 => 4
  | 2 => 16
  | 3 => 64
  | _ => 256

/- The falls of the watched bit in a number of cycles. -/
def falls
    (t : Timer)
    (n : Nat) : Nat :=
  (t.counter.toNat + n) / t.period -
    t.counter.toNat / t.period

/- Each watched bit with its period. -/
theorem watchedBit_period
    (t : Timer) :
    (t.watchedBit = 1 ∧ t.period = 4) ∨
      (t.watchedBit = 3 ∧ t.period = 16) ∨
      (t.watchedBit = 5 ∧ t.period = 64) ∨
      (t.watchedBit = 7 ∧ t.period = 256) := by
  unfold watchedBit period
  match (t.control &&& 3).toNat with
  | 0 => decide
  | 1 => decide
  | 2 => decide
  | 3 => decide
  | _ + 4 => exact .inr (.inr (.inr ⟨rfl, rfl⟩))

/- The watched bit falls when a period is over. -/
theorem watchedBit_falls
    (t : Timer) :
    (t.counter.toNat.testBit t.watchedBit &&
        !(t.counter + 1).toNat.testBit t.watchedBit) =
      decide ((t.counter.toNat + 1) % t.period = 0) := by
  have hCounter := t.counter.toNat_lt
  rw [UInt16.toNat_add, Bool.eq_iff_iff]
  simp only [Nat.testBit_eq_decide_div_mod_eq,
    Bool.and_eq_true, Bool.not_eq_true', decide_eq_true_eq,
    decide_eq_false_iff_not]
  change _ ∧ ¬ (t.counter.toNat + 1) % 65536 /
    2 ^ t.watchedBit % 2 = 1 ↔ _
  rcases watchedBit_period t with
    ⟨hBit, hPeriod⟩ | ⟨hBit, hPeriod⟩ | ⟨hBit, hPeriod⟩ |
      ⟨hBit, hPeriod⟩ <;>
    rw [hBit, hPeriod] <;> omega

theorem falls_zero
    (t : Timer) :
    t.falls 0 = 0 :=
  Nat.sub_self _

/- There is one more fall when a period is over. -/
theorem falls_succ
    (t : Timer)
    (n : Nat) :
    t.falls (n + 1) =
      if (t.counter.toNat + (n + 1)) % t.period = 0 then
        t.falls n + 1
      else t.falls n := by
  unfold falls
  rcases watchedBit_period t with
    ⟨-, hPeriod⟩ | ⟨-, hPeriod⟩ | ⟨-, hPeriod⟩ |
      ⟨-, hPeriod⟩ <;>
    rw [hPeriod] <;> split <;> omega

/- While it is enabled, the timer counts the falls. -/
theorem advanceCounter_eq
    {t : Timer}
    (hEnabled : t.enabled = true) :
    t.advanceCounter =
      let u := { t with counter := t.counter + 1 }
      if (t.counter.toNat + 1) % t.period = 0 then
        u.increment
      else u := by
  have hFalls :
      (t.signal &&
          !{ t with counter := t.counter + 1 }.signal) =
        decide ((t.counter.toNat + 1) % t.period = 0) := by
    have hBefore :
        t.signal = t.counter.toNat.testBit t.watchedBit := by
      unfold signal
      rw [hEnabled, Bool.true_and]
    have hNow :
        { t with counter := t.counter + 1 }.signal =
          (t.counter + 1).toNat.testBit t.watchedBit :=
      (congrArg (· && _) hEnabled).trans (Bool.true_and _)
    rw [hBefore, hNow, watchedBit_falls]
  unfold advanceCounter settle
  rw [hFalls]
  simp only [decide_eq_true_eq]

/- Afterwards no reload is due. -/
theorem reload_eq
    (t : Timer) :
    t.reload =
      { t with
        count := t.reload.count
        overflow := false } := by
  unfold reload
  cases hDue : t.overflow with
  | true => rfl
  | false => exact congrArg (Timer.mk _ _ _ _ · _) hDue

/-
  One cycle: a reload that is due is made, and then the timer
  counts if a period is over.
-/
theorem next_eq
    {t : Timer}
    (hEnabled : t.enabled = true) :
    t.next =
      let held := t.reload.count
      if (t.counter.toNat + 1) % t.period = 0 then
        { t with
          counter := t.counter + 1
          count := held + 1
          overflow := held == 0xFF }
      else
        { t with
          counter := t.counter + 1
          count := held
          overflow := false } := by
  have hReloaded :
      { t with
        count := t.reload.count
        overflow := false }.enabled = true := hEnabled
  unfold next
  rw [reload_eq, advanceCounter_eq hReloaded]
  rfl

------------------------------------------------------------
-- Counting
------------------------------------------------------------

/- The falls up to the first overflow. -/
def room
    (t : Timer) : Nat :=
  256 - t.count.toNat

/- The falls from one overflow to the next. -/
def span
    (t : Timer) : Nat :=
  256 - t.modulo.toNat

/- The falls since the first overflow. -/
def excess
    (t : Timer)
    (n : Nat) : Nat :=
  t.falls n - t.room

/- The last of a number of falls makes the timer overflow. -/
def Laps
    (t : Timer)
    (e : Nat) : Prop :=
  t.room ≤ e ∧ (e - t.room) % t.span = 0

/- After a number of cycles a reload is due. -/
def Due
    (t : Timer)
    (n : Nat) : Prop :=
  t.Laps (t.falls n) ∧
    (t.counter.toNat + n) % t.period = 0

/- The value that a number of falls leads to, reloads made. -/
def countAfter
    (t : Timer)
    (e : Nat) : Nat :=
  if e < t.room then t.count.toNat + e
  else t.modulo.toNat + (e - t.room) % t.span

theorem room_pos
    (t : Timer) :
    0 < t.room :=
  Nat.sub_pos_of_lt t.count.toNat_lt

theorem countAfter_zero
    (t : Timer) :
    t.countAfter 0 = t.count.toNat :=
  if_pos t.room_pos

theorem span_pos
    (t : Timer) :
    0 < t.span :=
  Nat.sub_pos_of_lt t.modulo.toNat_lt

/- One more, counted round and round. -/
theorem succ_mod
    {s : Nat}
    (h : 0 < s)
    (k : Nat) :
    (k + 1) % s = if k % s + 1 = s then 0 else k % s + 1 := by
  have hLow := Nat.mod_lt k h
  rw [← Nat.mod_add_mod]
  split
  · rename_i hLast
    rw [hLast, Nat.mod_self]
  · exact Nat.mod_eq_of_lt (by omega)

/-
  Another fall makes the timer overflow if it has the highest
  value; otherwise the timer counts.
-/
theorem countAfter_step
    (t : Timer)
    (e : Nat) :
    (t.countAfter e = 255 ∧ t.Laps (e + 1) ∧
        t.countAfter (e + 1) = t.modulo.toNat) ∨
      (t.countAfter e < 255 ∧ ¬ t.Laps (e + 1) ∧
        t.countAfter (e + 1) = t.countAfter e + 1) := by
  have hCount := t.count.toNat_lt
  have hModulo := t.modulo.toNat_lt
  have hRoom : t.count.toNat + t.room = 256 := by
    unfold room
    omega
  have hSpan : t.modulo.toNat + t.span = 256 := by
    unfold span
    omega
  unfold countAfter Laps
  rcases Nat.lt_trichotomy (e + 1) t.room with
    hShort | hFirst | hPast
  · have hBefore : e < t.room := by omega
    rw [if_pos hShort, if_pos hBefore]
    omega
  · have hBefore : e < t.room := by omega
    rw [if_pos hBefore, hFirst, if_neg (Nat.lt_irrefl _),
      Nat.sub_self, Nat.zero_mod]
    omega
  · have hNow : ¬ e + 1 < t.room := by omega
    have hBefore : ¬ e < t.room := by omega
    have hExcess : e + 1 - t.room = e - t.room + 1 := by omega
    have hLow := Nat.mod_lt (e - t.room) t.span_pos
    rw [if_neg hNow, if_neg hBefore, hExcess,
      succ_mod t.span_pos]
    split <;> omega

------------------------------------------------------------
-- Closed Form
------------------------------------------------------------

/-
  The timer that a number of cycles leads to.  What a reload
  due in the next cycle would make of its count is told by
  the falls alone.
-/
structure Reached
    (t : Timer)
    (n : Nat)
    (u : Timer) : Prop where
  counter :
    u.counter.toNat = (t.counter.toNat + n) % 65536
  modulo : u.modulo = t.modulo
  control : u.control = t.control
  pending : u.pending = t.pending
  held : u.reload.count.toNat = t.countAfter (t.falls n)
  overflow : u.overflow = true ↔ t.Due n
  count : u.overflow = true → u.count = 0

/- While no reload is due, the count is what it would be. -/
theorem Reached.count_of_not_due
    {t u : Timer}
    {n : Nat}
    (h : t.Reached n u)
    (hDue : ¬ t.Due n) :
    u.count.toNat = t.countAfter (t.falls n) ∧
      u.overflow = false := by
  have hRest : u.overflow = false :=
    Bool.eq_false_iff.mpr fun hOver =>
      hDue (h.overflow.mp hOver)
  have hReload : u.reload = u :=
    if_neg (by rw [hRest]; exact Bool.false_ne_true)
  refine ⟨?_, hRest⟩
  rw [← h.held, hReload]

section Enabled

variable {t : Timer} (hEnabled : t.enabled = true)

/- At the beginning no reload is due. -/
theorem reached_zero
    (hNone : t.overflow = false) :
    t.Reached 0 t where
  counter := (Nat.mod_eq_of_lt t.counter.toNat_lt).symm
  modulo := rfl
  control := rfl
  pending := rfl
  held := by
    have hReload : t.reload = t :=
      if_neg (by rw [hNone]; exact Bool.false_ne_true)
    rw [hReload, falls_zero, countAfter_zero]
  overflow := by
    have hRoom := t.room_pos
    unfold Due Laps
    rw [hNone, falls_zero]
    simp only [Bool.false_eq_true, false_iff]
    omega
  count := by
    rw [hNone]
    exact fun h => absurd h Bool.false_ne_true

include hEnabled

/- A cycle leads from one timer reached to the next. -/
theorem Reached.next
    {n : Nat}
    {u : Timer}
    (h : t.Reached n u) :
    t.Reached (n + 1) u.next := by
  have hEnabledU : u.enabled = true := by
    unfold enabled
    rw [h.control]
    exact hEnabled
  have hPeriod : u.period = t.period := by
    unfold period
    rw [h.control]
  have hFall :
      (u.counter.toNat + 1) % u.period = 0 ↔
        (t.counter.toNat + (n + 1)) % t.period = 0 := by
    rw [hPeriod, h.counter]
    rcases watchedBit_period t with
      ⟨-, hPeriod⟩ | ⟨-, hPeriod⟩ | ⟨-, hPeriod⟩ |
        ⟨-, hPeriod⟩ <;>
      rw [hPeriod] <;> omega
  have hCounter :
      (u.counter + 1).toNat =
        (t.counter.toNat + (n + 1)) % 65536 := by
    rw [UInt16.toNat_add, h.counter]
    exact Nat.mod_add_mod _ _ _
  -- whatever the cycle does to the count, the rest is known
  have hReached (c : UInt8) (o : Bool)
      (hHeld :
        (if o then u.modulo else c).toNat =
          t.countAfter (t.falls (n + 1)))
      (hDue : o = true ↔ t.Due (n + 1))
      (hZero : o = true → c = 0) :
      t.Reached (n + 1)
        { u with
          counter := u.counter + 1
          count := c
          overflow := o } := {
    counter := hCounter
    modulo := h.modulo
    control := h.control
    pending := h.pending
    held := by cases o <;> exact hHeld
    overflow := hDue
    count := hZero }
  have hFalls := t.falls_succ n
  rw [next_eq hEnabledU]
  simp only [hFall]
  by_cases hOver :
      (t.counter.toNat + (n + 1)) % t.period = 0
  · rw [if_pos hOver] at hFalls ⊢
    rcases t.countAfter_step (t.falls n) with
      ⟨hHigh, hLaps, hNext⟩ | ⟨hLow, hLaps, hNext⟩
    · have hHeld : u.reload.count = 0xFF :=
        UInt8.toNat_inj.mp (h.held.trans hHigh)
      have hDue : t.Due (n + 1) :=
        ⟨by rw [hFalls]; exact hLaps, hOver⟩
      have hModulo :
          u.modulo.toNat = t.countAfter (t.falls (n + 1)) := by
        rw [hFalls, hNext, h.modulo]
      rw [hHeld]
      exact hReached 0 true hModulo (iff_of_true rfl hDue)
        fun _ => rfl
    · have hHeld : (u.reload.count == 0xFF) = false := by
        apply beq_false_of_ne
        intro hTop
        rw [← h.held, hTop] at hLow
        exact absurd hLow (by decide)
      have hDue : ¬ t.Due (n + 1) := fun h => by
        rw [Due, hFalls] at h
        exact hLaps h.1
      have hCount :
          (u.reload.count + 1).toNat =
            t.countAfter (t.falls (n + 1)) := by
        rw [hFalls, hNext, UInt8.toNat_add, h.held]
        exact Nat.mod_eq_of_lt (Nat.succ_lt_succ hLow)
      rw [hHeld]
      exact hReached _ false hCount
        (iff_of_false Bool.false_ne_true hDue)
        fun h => absurd h Bool.false_ne_true
  · rw [if_neg hOver] at hFalls ⊢
    have hDue : ¬ t.Due (n + 1) := fun h => hOver h.2
    have hCount :
        u.reload.count.toNat =
          t.countAfter (t.falls (n + 1)) := by
      rw [hFalls]
      exact h.held
    exact hReached _ false hCount
      (iff_of_false Bool.false_ne_true hDue)
      fun h => absurd h Bool.false_ne_true

/- A timer left alone is known at every cycle. -/
theorem reached_after
    (hNone : t.overflow = false)
    (n : Nat) :
    t.Reached n (t.after n) := by
  induction n with
  | zero => exact reached_zero hNone
  | succ n ih => exact ih.next hEnabled

/-
  It has been reloaded if it has overflowed, unless the first
  reload is still due.
-/
theorem reloaded_iff
    (hNone : t.overflow = false)
    (n : Nat) :
    t.reloaded n = true ↔
      t.room ≤ t.falls n ∧ ¬ (t.falls n = t.room ∧ t.Due n) := by
  induction n with
  | zero =>
      have hRoom := t.room_pos
      rw [falls_zero]
      simp only [reloaded, Bool.false_eq_true, false_iff]
      omega
  | succ n ih =>
      -- a reload due after `n` cycles has been made by now
      have hBefore :
          t.reloaded (n + 1) = true ↔ t.room ≤ t.falls n := by
        have hDue := (reached_after hEnabled hNone n).overflow
        simp only [reloaded, Bool.or_eq_true]
        rw [ih, hDue]
        constructor
        · rintro (h | h)
          · exact h.1
          · exact h.1.1
        · intro hLapped
          by_cases h : t.Due n
          · exact .inr h
          · exact .inl ⟨hLapped, fun hFirst => h hFirst.2⟩
      have hFalls := t.falls_succ n
      rw [hBefore]
      unfold Due Laps
      split at hFalls
      · rename_i hOver
        constructor
        · intro hLapped
          omega
        · rintro ⟨hNow, hLater⟩
          rcases Nat.lt_or_ge (t.falls n) t.room with
            hShort | hLapped
          · have hFirst : t.falls (n + 1) = t.room := by omega
            have hLap :
                (t.falls (n + 1) - t.room) % t.span = 0 := by
              rw [hFirst, Nat.sub_self, Nat.zero_mod]
            exact absurd ⟨hFirst, ⟨hNow, hLap⟩, hOver⟩ hLater
          · exact hLapped
      · rename_i hNot
        rw [hFalls]
        exact ⟨fun h => ⟨h, fun hDue => hNot hDue.2.2⟩,
          fun h => h.1⟩

end Enabled

------------------------------------------------------------
-- Batches
------------------------------------------------------------

/- Pass one number of ticks after the other. -/
def run
    (t : Timer)
    (ns : List Nat)
    (ic : InterruptController) :
    Timer × InterruptController :=
  ns.foldl (fun r ticks => r.1.tick ticks r.2) (t, ic)

/- Change the ticks left over. -/
def setPending
    (p : Nat)
    (t : Timer) : Timer :=
  { t with pending := p }

theorem advanceCounter_setPending
    (p : Nat)
    (t : Timer) :
    (t.setPending p).advanceCounter =
      t.advanceCounter.setPending p := by
  let u : Timer := { t with counter := t.counter + 1 }
  change
    (if t.signal && !u.signal then
      (u.setPending p).increment else u.setPending p) =
    setPending p
      (if t.signal && !u.signal then u.increment else u)
  split <;> rfl

/- Cycles do not look at the ticks left over. -/
theorem cycles_setPending
    (p n : Nat)
    (t : Timer)
    (ic : InterruptController) :
    cycles n (t.setPending p) ic =
      ((cycles n t ic).1.setPending p, (cycles n t ic).2) := by
  induction n generalizing t ic with
  | zero => rfl
  | succ n ih =>
      have hReload :
          (t.setPending p).reload = t.reload.setPending p := by
        change
          (if t.overflow then _ else _) =
            setPending p (if t.overflow then _ else _)
        split <;> rfl
      have hCycle :
          (t.setPending p).cycle ic =
            ((t.cycle ic).1.setPending p, (t.cycle ic).2) := by
        unfold cycle
        rw [hReload, advanceCounter_setPending]
        rfl
      simp only [cycles]
      rw [hCycle, ih]

/- The ticks of several calls together. -/
def totalTicks
    (ns : List Nat) : Nat :=
  ns.foldr (· + ·) 0

/- Only the total of the ticks matters. -/
theorem run_eq_cycles
    (ns : List Nat)
    {t : Timer}
    (hPending : t.pending < 4)
    (ic : InterruptController) :
    let total := t.pending + totalTicks ns
    t.run ns ic =
      cycles (total / 4) (t.setPending (total % 4)) ic := by
  induction ns generalizing t ic with
  | nil =>
      have hNone : (t.pending + 0) / 4 = 0 := by omega
      have hSame : (t.pending + 0) % 4 = t.pending := by omega
      have hTotal : totalTicks [] = 0 := rfl
      simp only [hTotal, hNone, hSame]
      rfl
  | cons ticks ns ih =>
      intro total
      let p := (t.pending + ticks) % 4
      let c := (t.pending + ticks) / 4
      let r := cycles c t ic
      have hTick : t.tick ticks ic = (r.1.setPending p, r.2) :=
        cycles_setPending p c t ic
      have hRest :
          (r.1.setPending p).run ns r.2 =
            cycles ((p + totalTicks ns) / 4)
              (r.1.setPending ((p + totalTicks ns) % 4)) r.2 :=
        ih (t := r.1.setPending p)
          (Nat.mod_lt _ (by decide)) r.2
      have hTotal :
          total = t.pending + (ticks + totalTicks ns) := rfl
      have hCycles :
          c + (p + totalTicks ns) / 4 = total / 4 := by
        omega
      have hLeft : (p + totalTicks ns) % 4 = total % 4 := by
        omega
      calc t.run (ticks :: ns) ic
          = (t.tick ticks ic).1.run ns (t.tick ticks ic).2 :=
            rfl
        _ = cycles ((p + totalTicks ns) / 4)
              (r.1.setPending (total % 4)) r.2 := by
            rw [hTick, hRest, hLeft]
        _ = cycles (total / 4)
              (t.setPending (total % 4)) ic := by
            rw [← hCycles, cycles_add, cycles_setPending _ c]

/-
  However a number of ticks is divided up, the timer counts
  the falls of the watched bit in it: from its count up to the
  first overflow, and from the modulo thereafter.  The timer
  interrupt is requested if a reload has been made, and no
  other.
-/
theorem run_closedForm
    {t : Timer}
    (hEnabled : t.enabled = true)
    (hNone : t.overflow = false)
    (hPending : t.pending < 4)
    (ns : List Nat)
    (ic : InterruptController) :
    let u := (t.run ns ic).1
    let n := (t.pending + totalTicks ns) / 4
    u.counter.toNat = (t.counter.toNat + n) % 65536 ∧
      u.pending = (t.pending + totalTicks ns) % 4 ∧
      u.modulo = t.modulo ∧
      u.control = t.control ∧
      (t.falls n < t.room →
        u.count.toNat = t.count.toNat + t.falls n ∧
          u.overflow = false ∧
          (t.run ns ic).2 = ic) ∧
      (t.room ≤ t.falls n →
        let due :=
          t.excess n % t.span = 0 ∧
            (t.counter.toNat + n) % t.period = 0
        (due → u.count = 0 ∧ u.overflow = true) ∧
          (¬ due →
            u.count.toNat =
                t.modulo.toNat + t.excess n % t.span ∧
              u.overflow = false) ∧
          (t.run ns ic).2 =
            if t.excess n = 0 ∧ due then ic
            else ic.request .timer) := by
  intro u n
  let v := t.setPending ((t.pending + totalTicks ns) % 4)
  have hRun :
      t.run ns ic =
        (v.after n,
          if v.reloaded n then ic.request .timer else ic) := by
    rw [run_eq_cycles ns hPending, cycles_eq]
  have hu : u = v.after n := congrArg Prod.fst hRun
  have hReached : v.Reached n u :=
    hu ▸ reached_after (t := v) hEnabled hNone n
  have hRequest :
      v.reloaded n = true ↔
        t.room ≤ t.falls n ∧
          ¬ (t.falls n = t.room ∧ t.Due n) :=
    reloaded_iff (t := v) hEnabled hNone n
  have hCount (h : ¬ t.Due n) :
      u.count.toNat = t.countAfter (t.falls n) ∧
        u.overflow = false :=
    hReached.count_of_not_due h
  refine ⟨hReached.counter, hReached.pending,
    hReached.modulo, hReached.control, ?_, ?_⟩
  · intro hShort
    have hNever : ¬ t.room ≤ t.falls n :=
      Nat.not_le_of_lt hShort
    rcases hCount fun h => hNever h.1.1 with ⟨hValue, hRest⟩
    refine ⟨?_, hRest, ?_⟩
    · rw [hValue]
      exact if_pos hShort
    · rw [hRun]
      exact if_neg fun h => hNever (hRequest.mp h).1
  · intro hLapped due
    have hDue : due ↔ t.Due n :=
      ⟨fun h => ⟨⟨hLapped, h.1⟩, h.2⟩,
        fun h => ⟨h.1.2, h.2⟩⟩
    have hZero : t.excess n = 0 ↔ t.falls n = t.room := by
      unfold excess
      omega
    have hFirst :
        (t.excess n = 0 ∧ due) ↔
          (t.falls n = t.room ∧ t.Due n) :=
      and_congr hZero hDue
    refine ⟨fun h => ?_, fun h => ?_, ?_⟩
    · have hOver : u.overflow = true :=
        hReached.overflow.mpr (hDue.mp h)
      exact ⟨hReached.count hOver, hOver⟩
    · rcases hCount fun hLater => h (hDue.mpr hLater) with
        ⟨hValue, hRest⟩
      refine ⟨?_, hRest⟩
      rw [hValue]
      exact if_neg (Nat.not_lt_of_le hLapped)
    · rw [hRun]
      by_cases hStill : t.excess n = 0 ∧ due
      · rw [if_pos hStill]
        exact if_neg fun h =>
          (hRequest.mp h).2 (hFirst.mp hStill)
      · rw [if_neg hStill]
        exact if_pos (hRequest.mpr
          ⟨hLapped, fun h => hStill (hFirst.mpr h)⟩)

/- Close to its first overflow, with the highest modulo. -/
def aboutToOverflow : Timer where
  counter := 65530
  count := 254
  modulo := 255
  control := 5
  pending := 3

/-
  In eleven cycles, passed in three parts, the hidden counter
  begins anew and its bit falls three times: the timer
  overflows twice, and has been reloaded both times.
-/
theorem run_elevenCycles :
    let t := aboutToOverflow
    let u := (t.run [1, 20, 23] {}).1
    t.enabled = true ∧ t.overflow = false ∧ t.pending < 4 ∧
      u.counter.toNat = 5 ∧
      u.count.toNat = 255 ∧
      u.overflow = false ∧
      (t.run [1, 20, 23] {}).2 =
        InterruptController.request {} .timer := by
  intro t u
  have hEnabled : t.enabled = true := by decide
  have hPending : t.pending < 4 := by decide
  have hCycles :
      (t.pending + totalTicks [1, 20, 23]) / 4 = 11 := by
    decide
  have hResult :=
    run_closedForm hEnabled rfl hPending [1, 20, 23] {}
  simp only [hCycles] at hResult
  rcases hResult with ⟨hCounter, -, -, -, -, hLater⟩
  have hLapped : t.room ≤ t.falls 11 := by decide
  rcases hLater hLapped with ⟨-, hRest, hRequest⟩
  have hMade :
      ¬ (t.excess 11 % t.span = 0 ∧
        (t.counter.toNat + 11) % t.period = 0) := by
    decide
  rcases hRest hMade with ⟨hCount, hOverflow⟩
  rw [if_neg fun h => hMade h.2] at hRequest
  exact ⟨hEnabled, rfl, hPending,
    hCounter.trans (by decide), hCount.trans (by decide),
    hOverflow, hRequest⟩

end Timer

end Dmg
