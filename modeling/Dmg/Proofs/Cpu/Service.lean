import Dmg.Memory.Flat
import Dmg.Proofs.Cpu.Event

/-
  The service of interrupts, as the program that is
  interrupted sees it.

  A handler that does nothing but return costs time and two
  bytes below the stack.  As its return sets the master enable
  at once, the handlers of all pending sources follow one
  another before the program goes on, the source of highest
  priority first.

  Key definitions include:
    * `InterruptController.pendingSources`
    * `FlatMemory.Plain`
    * `Core.Interruptible`
    * `Core.Entered`, `Core.Resumed`
    * `Core.sights`, `Core.elapsed`

  Main results:
    * `Core.Interruptible.entered`
    * `Core.Interruptible.step_returns`
    * `Core.Interruptible.round`
    * `Core.Interruptible.served_all`
    * `Core.service_transparent`
-/

namespace Dmg

------------------------------------------------------------
-- Sources
------------------------------------------------------------

namespace InterruptController

/- The sources that are pending, highest priority first. -/
def pendingSources
    (ic : InterruptController) : List Interrupt :=
  Interrupt.byPriority.filter ic.isPending

/- None of them is requested any longer. -/
def served
    (ic : InterruptController) : InterruptController :=
  { ic with requests := ic.requests &&& ~~~ic.pending }

variable {ic : InterruptController} {i : Interrupt}

theorem mem_pendingSources_iff :
    i ∈ ic.pendingSources ↔ ic.isPending i = true := by
  have hAll : i ∈ Interrupt.byPriority := by
    cases i <;> decide
  unfold pendingSources
  rw [List.mem_filter]
  exact and_iff_right hAll

/- Only the bits of sources are pending. -/
theorem position_of_pending
    {n : Fin 8}
    (h : bit ic.pending n = true) :
    n ∈ Interrupt.byPriority.map Interrupt.position := by
  have hLow : bit 0x1F n = true := by
    unfold pending enabled at h
    rw [bit_and, bit_and] at h
    exact (Bool.and_eq_true_iff.mp
      (Bool.and_eq_true_iff.mp h).2).2
  clear h
  revert n
  decide

/- No source is pending if no bit is. -/
theorem pendingSources_eq_nil_iff :
    ic.pendingSources = [] ↔ ic.pending = 0 := by
  constructor
  · intro hNone
    apply byte_ext
    intro n
    have hZero : bit 0 n = false := Nat.zero_testBit n
    rw [hZero]
    apply Bool.eq_false_iff.mpr
    intro hBit
    rcases List.mem_map.mp (position_of_pending hBit) with
      ⟨i, -, hPosition⟩
    have hMem : i ∈ ic.pendingSources := by
      rw [mem_pendingSources_iff]
      unfold isPending
      rw [hPosition]
      exact hBit
    rw [hNone] at hMem
    cases hMem
  · intro hZero
    apply List.filter_eq_nil_iff.mpr
    intro i _
    unfold isPending
    rw [hZero]
    cases i <;> decide

/- Acknowledging one of them leaves the others pending. -/
theorem isPending_acknowledge
    (j : Interrupt) :
    (ic.acknowledge i).isPending j =
      (i != j && ic.isPending j) := by
  rw [isPending_eq, isPending_eq, isRequested_acknowledge,
    Bool.and_assoc]
  rfl

/- Where none is pending, there is nothing to serve. -/
theorem served_of_nil
    (h : ic.pendingSources = []) :
    ic.served = ic := by
  have hZero := pendingSources_eq_nil_iff.mp h
  have hAll : ic.requests &&& ~~~0 = ic.requests :=
    UInt8.and_neg_one
  unfold served
  rw [hZero, hAll]

section First

variable
  {rest : List Interrupt}
  (hSources : ic.pendingSources = i :: rest)

include hSources

theorem isPending_of_cons :
    ic.isPending i = true := by
  apply mem_pendingSources_iff.mp
  rw [hSources]
  exact List.mem_cons_self

/- The first of them is serviced, if the master enable is set. -/
theorem serviceable_of_cons
    (hMaster : ic.master = true) :
    ic.serviceable = some i := by
  have hSome : ic.pending ≠ 0 := by
    intro hNone
    rw [pendingSources_eq_nil_iff.mpr hNone] at hSources
    cases hSources
  have hFirst : ic.highestPending = some i := by
    unfold highestPending
    unfold pendingSources at hSources
    rw [← List.head?_filter, hSources]
    rfl
  unfold serviceable
  rw [hMaster, hFirst]
  simp [hSome]

/- Once it is acknowledged, the rest is left. -/
theorem pendingSources_acknowledge :
    (ic.acknowledge i).pendingSources = rest := by
  have hOthers : i ∉ rest := by
    have hAll : Interrupt.byPriority.Nodup := by decide
    have hNodup : ic.pendingSources.Nodup :=
      List.Pairwise.filter ic.isPending hAll
    rw [hSources] at hNodup
    exact (List.nodup_cons.mp hNodup).1
  have hFilter :
      (ic.acknowledge i).pendingSources =
        ic.pendingSources.filter (i != ·) := by
    unfold pendingSources
    rw [List.filter_filter]
    congr
    funext j
    exact isPending_acknowledge j
  rw [hFilter, hSources, List.filter_cons_of_neg (by simp),
    List.filter_eq_self]
  intro j hj
  rw [bne_iff_ne]
  rintro rfl
  exact hOthers hj

/- Serving it first makes no difference in the end. -/
theorem served_acknowledge
    (hMaster : ic.master = true) :
    ((ic.acknowledge i).setMaster true).served =
      ic.served := by
  have hPending : bit ic.pending i.position = true :=
    isPending_of_cons hSources
  have hRequests :
      (ic.acknowledge i).requests &&&
          ~~~(ic.acknowledge i).pending =
        ic.requests &&& ~~~ic.pending := by
    apply byte_ext
    intro n
    have hBit :
        bit (ic.acknowledge i).pending n =
          (i.position != n && bit ic.pending n) := by
      unfold acknowledge pending enabled
      rw [bit_and, bit_setBit, bit_and ic.requests]
      by_cases hn : i.position = n
      · rw [if_pos hn, hn, bne_self_eq_false]
        rfl
      · rw [if_neg hn, bne_iff_ne.mpr hn, Bool.true_and]
    rw [bit_and, bit_not, hBit, bit_and, bit_not]
    unfold acknowledge
    rw [bit_setBit]
    by_cases hn : i.position = n
    · rw [if_pos hn, ← hn, hPending, Bool.not_true,
        Bool.and_false]
      rfl
    · rw [if_neg hn, bne_iff_ne.mpr hn, Bool.true_and]
  unfold served
  rw [← hMaster, ← hRequests]
  rfl

end First

end InterruptController

------------------------------------------------------------
-- Memory
------------------------------------------------------------

namespace FlatMemory

/- An address of memory, neither IF nor IE. -/
def Plain
    (a : UInt16) : Prop :=
  a ≠ 0xFF0F ∧ a ≠ 0xFFFF

instance : DecidablePred Plain :=
  fun _ => inferInstanceAs (Decidable (_ ∧ _))

theorem plain_vector
    (i : Interrupt) :
    Plain i.vector := by
  cases i <;> exact ⟨by decide, by decide⟩

variable {a : UInt16} (m : FlatMemory)

theorem load_of_plain
    (h : Plain a) :
    m.load a = m.peek a := by
  unfold load
  rw [if_neg h.1, if_neg h.2]

theorem store_of_plain
    (h : Plain a)
    (v : UInt8) :
    m.store a v = m.poke a v := by
  unfold store
  rw [if_neg h.1, if_neg h.2]

/- A byte in memory after another has been written. -/
theorem peek_write
    (h : Plain a)
    (v : UInt8)
    (b : UInt16) :
    (Bus.write a v m).peek b =
      if b = a then v else m.peek b := by
  change (m.store a v).peek b = _
  rw [m.store_of_plain h]
  split
  · rename_i hSame
    rw [hSame]
    exact m.peek_poke_self a v
  · rename_i hOther
    exact m.peek_poke_of_ne v (Ne.symm hOther)

theorem interrupts_write
    (h : Plain a)
    (v : UInt8) :
    Bus.interrupts (Bus.write a v m) = Bus.interrupts m := by
  change (m.store a v).interrupts = m.interrupts
  rw [m.store_of_plain h]
  rfl

/- A word is written with its low byte first. -/
theorem peek_writeWord
    (hLow : Plain a)
    (hHigh : Plain (a + 1))
    (w b : UInt16) :
    (Bus.writeWord a w m).peek b =
      if b = a + 1 then highByte w
      else if b = a then lowByte w
      else m.peek b := by
  unfold Bus.writeWord
  rw [peek_write _ hHigh, peek_write _ hLow]

theorem interrupts_writeWord
    (hLow : Plain a)
    (hHigh : Plain (a + 1))
    (w : UInt16) :
    Bus.interrupts (Bus.writeWord a w m) =
      Bus.interrupts m := by
  unfold Bus.writeWord
  rw [interrupts_write _ hHigh, interrupts_write _ hLow]

/- And read so. -/
theorem readWord_of_plain
    (hLow : Plain a)
    (hHigh : Plain (a + 1)) :
    (Bus.readWord a m).1 =
      word (m.peek (a + 1)) (m.peek a) := by
  rw [← m.load_of_plain hLow, ← m.load_of_plain hHigh]
  rfl

end FlatMemory

open FlatMemory

------------------------------------------------------------
-- One Source
------------------------------------------------------------

namespace Core

/-
  A processor that can be interrupted and come back: it is
  neither locked nor stopped, interrupts are enabled with
  nothing in flight, every handler begins with a RETI, and the
  two bytes below the stack are memory without a handler.
-/
structure Interruptible
    (s : Core FlatMemory) : Prop where
  locked : s.cpu.locked = none
  stopped : s.cpu.stopped = false
  haltBug : s.cpu.haltBug = false
  enablePending : s.cpu.enablePending = false
  enableDelay : s.cpu.enableDelay = false
  master : s.interrupts.master = true
  handlers : ∀ i : Interrupt, s.bus.peek i.vector = 0xD9
  highPlain : Plain (s.cpu.regs.sp - 1)
  lowPlain : Plain (s.cpu.regs.sp - 2)
  highSpare : ∀ i : Interrupt, i.vector ≠ s.cpu.regs.sp - 1
  lowSpare : ∀ i : Interrupt, i.vector ≠ s.cpu.regs.sp - 2

/- The byte at an address once PC is stored below the stack. -/
def saved
    (s : Core FlatMemory)
    (a : UInt16) : UInt8 :=
  if a = s.cpu.regs.sp - 1 then highByte s.cpu.regs.pc
  else if a = s.cpu.regs.sp - 2 then lowByte s.cpu.regs.pc
  else s.bus.peek a

/- The second state is at the start of a handler. -/
structure Entered
    (i : Interrupt)
    (s t : Core FlatMemory) : Prop where
  cpu :
    t.cpu =
      { s.cpu with
        halted := false
        regs :=
          { s.cpu.regs with
            sp := s.cpu.regs.sp - 2
            pc := i.vector } }
  interrupts : t.interrupts = s.interrupts.acknowledge i
  memory : ∀ a, t.bus.peek a = s.saved a

/-
  The second state is back where the first was, awake, with
  the interrupt controller in a state of its own.
-/
structure Resumed
    (ic : InterruptController)
    (s t : Core FlatMemory) : Prop where
  cpu : t.cpu = { s.cpu with halted := false }
  interrupts : t.interrupts = ic
  memory : ∀ a, t.bus.peek a = s.saved a

variable {s t : Core FlatMemory}

theorem Interruptible.saved_vector
    (h : s.Interruptible)
    (i : Interrupt) :
    s.saved i.vector = 0xD9 := by
  unfold saved
  rw [if_neg (h.highSpare i), if_neg (h.lowSpare i)]
  exact h.handlers i

theorem sub_two_add_one
    (w : UInt16) :
    w - 2 + 1 = w - 1 := by
  rw [UInt16.sub_eq_add_neg, UInt16.sub_eq_add_neg,
    UInt16.add_assoc]
  rfl

theorem cpu_enterHandler
    (hBug : s.cpu.haltBug = false)
    (i : Interrupt) :
    (s.wake.enterHandler i).cpu =
      { s.cpu with
        halted := false
        regs :=
          { s.cpu.regs with
            sp := s.cpu.regs.sp - 2
            pc := i.vector } } := by
  rcases s with ⟨⟨regs, l₁, l₂, bug, l₄, l₅, l₆⟩, m⟩
  cases hBug
  rfl

/- The handler of a source is entered from any state. -/
theorem Interruptible.entered
    (h : s.Interruptible)
    (i : Interrupt) :
    Entered i s (s.wake.enterHandler i) := by
  have hSp := sub_two_add_one s.cpu.regs.sp
  have hHigh : Plain (s.cpu.regs.sp - 2 + 1) :=
    hSp ▸ h.highPlain
  have hPc : returnAddress s.wake.cpu = s.cpu.regs.pc :=
    if_neg (Bool.eq_false_iff.mp h.haltBug)
  let m : FlatMemory :=
    Bus.setInterrupts (s.interrupts.acknowledge i) s.bus
  have hBus :
      ∃ x, (s.wake.enterHandler i).bus =
        Bus.note x
          (Bus.writeWord (s.cpu.regs.sp - 2)
            s.cpu.regs.pc m) := by
    rw [← hPc]
    exact ⟨_, rfl⟩
  rcases hBus with ⟨x, hBus⟩
  constructor
  · exact cpu_enterHandler h.haltBug i
  · unfold Core.interrupts
    rw [hBus]
    exact m.interrupts_writeWord h.lowPlain hHigh _
  · intro a
    have hPeek :=
      m.peek_writeWord h.lowPlain hHigh s.cpu.regs.pc a
    rw [hSp] at hPeek
    rw [hBus]
    exact hPeek

/- A pending source is entered, in a step of 12 ticks. -/
theorem Interruptible.step_enters
    (h : s.Interruptible)
    {i : Interrupt}
    {rest : List Interrupt}
    (hSources : s.interrupts.pendingSources = i :: rest) :
    s.event = .entered i ∧
      s.step = (.ok 12, s.wake.enterHandler i) := by
  have hSome : (s.interrupts.pending == 0) = false := by
    rw [beq_eq_false_iff_ne]
    intro hNone
    rw [InterruptController.pendingSources_eq_nil_iff.mpr
      hNone] at hSources
    cases hSources
  have hAwake : s.suspended = false := by
    unfold suspended
    rw [h.stopped, hSome, Bool.and_false, Bool.false_or]
  have hEvent : s.event = .entered i := by
    unfold event
    simp only [h.locked, hAwake, Bool.false_eq_true, if_false,
      InterruptController.serviceable_of_cons hSources
        h.master]
  refine ⟨hEvent, ?_⟩
  rw [step_eq, hEvent]
  rfl

/- The first instruction of a handler returns. -/
theorem Interruptible.event_of_entered
    (h : s.Interruptible)
    {i : Interrupt}
    (hEntered : Entered i s t) :
    t.event = .executed .reti := by
  have hAwake : t.suspended = false := by
    unfold suspended
    rw [hEntered.cpu, h.stopped]
    rfl
  have hQuiet : t.interrupts.serviceable = none := by
    rw [hEntered.interrupts]
    rfl
  have hOpcode : (Bus.read t.cpu.regs.pc t.bus).1 = 0xD9 := by
    rw [hEntered.cpu]
    change t.bus.load i.vector = 0xD9
    rw [load_of_plain _ (plain_vector i), hEntered.memory,
      h.saved_vector]
  have hLocked : t.cpu.locked = none := by
    rw [hEntered.cpu]
    exact h.locked
  unfold event instructionEvent
  simp only [hLocked, hAwake, Bool.false_eq_true, if_false,
    hQuiet, hOpcode]
  rfl

/- RETI takes PC from the stack and enables interrupts. -/
theorem step_reti
    (hEvent : t.event = .executed .reti)
    (hBug : t.cpu.haltBug = false)
    (hLow : Plain t.cpu.regs.sp)
    (hHigh : Plain (t.cpu.regs.sp + 1)) :
    t.step.1 = .ok 16 ∧
      t.step.2.cpu =
        { t.cpu with
          halted := false
          enablePending := false
          enableDelay := false
          regs :=
            { t.cpu.regs with
              sp := t.cpu.regs.sp + 2
              pc :=
                word (t.bus.peek (t.cpu.regs.sp + 1))
                  (t.bus.peek t.cpu.regs.sp) } } ∧
      t.step.2.interrupts = t.interrupts.setMaster true ∧
      ∀ a, t.step.2.bus.peek a = t.bus.peek a := by
  have hWord := readWord_of_plain t.bus hLow hHigh
  rw [step_eq, hEvent]
  rcases t with ⟨⟨regs, l₁, l₂, bug, l₄, l₅, l₆⟩, m⟩
  cases hBug
  rw [← hWord]
  exact ⟨rfl, rfl, rfl, fun a => rfl⟩

/- With no EI in flight, RETI forgets none. -/
theorem Interruptible.latches
    (h : s.Interruptible) :
    { s.cpu with
      halted := false
      enablePending := false
      enableDelay := false } =
      { s.cpu with halted := false } := by
  have hPending := h.enablePending
  have hDelay := h.enableDelay
  clear h
  rcases s with ⟨⟨regs, l₁, l₂, l₃, p, d, l₆⟩, m⟩
  cases hPending
  cases hDelay
  rfl

/- So the program is back after a step of 16 ticks. -/
theorem Interruptible.step_returns
    (h : s.Interruptible)
    {i : Interrupt}
    (hEntered : Entered i s t) :
    t.step.1 = .ok 16 ∧
      Resumed ((s.interrupts.acknowledge i).setMaster true)
        s t.step.2 := by
  have hEvent := h.event_of_entered hEntered
  have hSp : t.cpu.regs.sp = s.cpu.regs.sp - 2 := by
    rw [hEntered.cpu]
  have hNext : t.cpu.regs.sp + 1 = s.cpu.regs.sp - 1 := by
    rw [hSp, sub_two_add_one]
  have hPc :
      word (t.bus.peek (t.cpu.regs.sp + 1))
          (t.bus.peek t.cpu.regs.sp) =
        s.cpu.regs.pc := by
    have hApart : s.cpu.regs.sp - 2 ≠ s.cpu.regs.sp - 1 := by
      grind
    have hHigh :
        s.saved (s.cpu.regs.sp - 1) =
          highByte s.cpu.regs.pc :=
      if_pos rfl
    have hLow :
        s.saved (s.cpu.regs.sp - 2) =
          lowByte s.cpu.regs.pc := by
      unfold saved
      rw [if_neg hApart, if_pos rfl]
    rw [hNext, hSp, hEntered.memory, hEntered.memory, hHigh,
      hLow, word_highByte_lowByte]
  rcases step_reti hEvent (by rw [hEntered.cpu]; exact h.haltBug)
      (hSp ▸ h.lowPlain) (hNext ▸ h.highPlain) with
    ⟨hResult, hCpu, hInterrupts, hMemory⟩
  refine ⟨hResult, ?_, ?_, ?_⟩
  · rw [← h.latches, hCpu, hPc, hSp, UInt16.sub_add_cancel,
      hEntered.cpu]
  · rw [hInterrupts, hEntered.interrupts]
  · intro a
    rw [hMemory, hEntered.memory]

------------------------------------------------------------
-- All Sources
------------------------------------------------------------

/- What is stored below the stack stays there. -/
theorem Resumed.trans
    {u : Core FlatMemory}
    {ic next : InterruptController}
    (hst : Resumed ic s t)
    (htu : Resumed next t u) :
    Resumed next s u where
  cpu := by
    rw [htu.cpu, hst.cpu]
  interrupts := htu.interrupts
  memory a := by
    rw [htu.memory]
    unfold saved
    rw [hst.cpu, hst.memory]
    unfold saved
    split
    · rfl
    · split <;> rfl

/- And the program can be interrupted again. -/
theorem Interruptible.resumed
    (h : s.Interruptible)
    {ic : InterruptController}
    (hMaster : ic.master = true)
    (hResumed : Resumed ic s t) :
    t.Interruptible := by
  have hCpu := hResumed.cpu
  constructor
  · rw [hCpu]
    exact h.locked
  · rw [hCpu]
    exact h.stopped
  · rw [hCpu]
    exact h.haltBug
  · rw [hCpu]
    exact h.enablePending
  · rw [hCpu]
    exact h.enableDelay
  · rw [hResumed.interrupts]
    exact hMaster
  · intro i
    rw [hResumed.memory]
    exact h.saved_vector i
  · rw [hCpu]
    exact h.highPlain
  · rw [hCpu]
    exact h.lowPlain
  · rw [hCpu]
    exact h.highSpare
  · rw [hCpu]
    exact h.lowSpare

/- What each of some steps does, and where PC is after it. -/
def sights
    {β : Type}
    [Bus β] : Nat → Core β → List (Event × UInt16)
  | 0, _ => []
  | n + 1, s =>
      (s.event, s.step.2.cpu.regs.pc) :: sights n s.step.2

/- The cost of some steps together, if all of them succeed. -/
def elapsed
    {β : Type}
    [Bus β] : Nat → Core β → StepResult
  | 0, _ => .ok 0
  | n + 1, s => do
      let cost ← s.step.1
      let rest ← elapsed n s.step.2
      return cost + rest

/- What is to be seen of the service of sources. -/
def service
    (pc : UInt16)
    (sources : List Interrupt) : List (Event × UInt16) :=
  sources.flatMap fun i =>
    [(.entered i, i.vector), (.executed .reti, pc)]

/-
  Two steps for a source: its handler is entered, and it
  returns.  What is to be seen of later steps is to be seen
  from the state they lead to.
-/
theorem Interruptible.round
    (h : s.Interruptible)
    {i : Interrupt}
    {rest : List Interrupt}
    (hSources : s.interrupts.pendingSources = i :: rest) :
    ∃ u,
      Resumed ((s.interrupts.acknowledge i).setMaster true)
          s u ∧
        ∀ n,
          s.afterSteps (n + 2) = u.afterSteps n ∧
            s.sights (n + 2) =
              service s.cpu.regs.pc [i] ++ u.sights n ∧
            ∀ ticks, u.elapsed n = .ok ticks →
              s.elapsed (n + 2) = .ok (28 + ticks) := by
  let t := s.wake.enterHandler i
  have hEntered : Entered i s t := h.entered i
  have hReti := h.event_of_entered hEntered
  rcases h.step_enters hSources with ⟨hEvent, hStep⟩
  rcases h.step_returns hEntered with ⟨hResult, hResumed⟩
  have hNext : s.step.2 = t := by
    rw [hStep]
  have hFirst : s.step.1 = .ok 12 := by
    rw [hStep]
  have hVector : t.cpu.regs.pc = i.vector := by
    rw [hEntered.cpu]
  have hBack : t.step.2.cpu.regs.pc = s.cpu.regs.pc := by
    rw [hResumed.cpu]
  refine ⟨t.step.2, hResumed, ?_⟩
  intro n
  refine ⟨?_, ?_, ?_⟩
  · change s.step.2.step.2.afterSteps n = _
    rw [hNext]
  · change
      (s.event, s.step.2.cpu.regs.pc) ::
          (s.step.2.event, s.step.2.step.2.cpu.regs.pc) ::
            s.step.2.step.2.sights n = _
    rw [hNext, hEvent, hVector, hReti, hBack]
    rfl
  · intro ticks hTicks
    unfold elapsed elapsed
    rw [hFirst, hNext, hResult, hTicks]
    change Except.ok (12 + (16 + ticks)) = _
    rw [← Nat.add_assoc]

/-
  After the last source none is left, and the program goes on
  where it was.
-/
theorem Interruptible.served_all
    (h : s.Interruptible)
    {i : Interrupt}
    {rest : List Interrupt}
    (hSources : s.interrupts.pendingSources = i :: rest) :
    let m := (i :: rest).length
    s.sights (2 * m) = service s.cpu.regs.pc (i :: rest) ∧
      s.elapsed (2 * m) = .ok (28 * m) ∧
      Resumed s.interrupts.served s (s.afterSteps (2 * m)) := by
  -- The state after each source can be interrupted again, and
  -- its sources are the rest.
  induction rest generalizing s i with
  | nil =>
      rcases h.round hSources with ⟨u, hResumed, hRun⟩
      rcases hRun 0 with ⟨hAfter, hSights, hElapsed⟩
      have hDone :
          s.interrupts.served =
            (s.interrupts.acknowledge i).setMaster true := by
        rw [← InterruptController.served_acknowledge hSources
          h.master]
        exact InterruptController.served_of_nil
          (InterruptController.pendingSources_acknowledge
            hSources)
      rw [hDone]
      exact ⟨hSights, hElapsed 0 rfl, hAfter ▸ hResumed⟩
  | cons j rest ih =>
      rcases h.round hSources with ⟨u, hResumed, hRun⟩
      have hAgain : u.Interruptible := h.resumed rfl hResumed
      have hLeft : u.interrupts.pendingSources = j :: rest := by
        rw [hResumed.interrupts]
        exact
          InterruptController.pendingSources_acknowledge
            hSources
      rcases ih hAgain hLeft with ⟨hSeen, hTicks, hServed⟩
      let n := 2 * (j :: rest).length
      rcases hRun n with ⟨hAfter, hSights, hElapsed⟩
      have hSame : u.interrupts.served = s.interrupts.served := by
        rw [hResumed.interrupts]
        exact InterruptController.served_acknowledge hSources
          h.master
      have hPc : u.cpu.regs.pc = s.cpu.regs.pc := by
        rw [hResumed.cpu]
      rw [hSame] at hServed
      refine ⟨?_, ?_, ?_⟩
      · refine hSights.trans ?_
        rw [hSeen, hPc]
        rfl
      · have hTotal :
            28 + 28 * (j :: rest).length =
              28 * (i :: j :: rest).length :=
          Nat.add_comm 28 _
        rw [← hTotal]
        exact hElapsed _ hTicks
      · have hAll := hResumed.trans hServed
        rw [← hAfter] at hAll
        exact hAll

------------------------------------------------------------
-- Transparency
------------------------------------------------------------

/- Without master enable or pending source, none is entered. -/
theorem event_ne_entered
    {β : Type}
    [Bus β]
    {s : Core β}
    (h : s.interrupts.master = false ∨
      s.interrupts.pending = 0)
    (i : Interrupt) :
    s.event ≠ .entered i := by
  have hNone : s.interrupts.serviceable = none :=
    InterruptController.serviceable_of_quiet h
  unfold event instructionEvent
  rw [hNone]
  split
  · exact Event.noConfusion
  · split
    · exact Event.noConfusion
    · simp only
      split <;> exact Event.noConfusion

/- The PC of a processor that has executed a HALT. -/
theorem pc_of_halt
    {β : Type}
    [Bus β]
    {s : Core β}
    (hEvent : s.event = .executed .halt)
    (hBug : s.cpu.haltBug = false) :
    s.step.2.cpu.regs.pc = s.cpu.regs.pc + 1 := by
  have hHalt (r : Core β) : r.halt.cpu.regs = r.cpu.regs := by
    unfold halt
    simp only
    split <;> rfl
  have hSettle (r : Core β) :
      r.settleEnable.cpu.regs = r.cpu.regs := by
    unfold settleEnable
    split
    · rfl
    · split <;> rfl
  rw [step_eq, hEvent]
  change
    (settleEnable
      ((s.wake.fetch.2.note _).halt.skip .none)).cpu.regs.pc = _
  rw [hSettle]
  change (s.wake.fetch.2.note _).halt.cpu.regs.pc + 0 = _
  rw [hHalt, fetch_eq, UInt16.add_zero]
  change (fetchedRegs s.wake.cpu).pc = _
  unfold fetchedRegs
  exact congrArg Registers.pc
    (if_neg (Bool.eq_false_iff.mp hBug))

/-
  Interrupts are transparent to the program: a processor that
  can be interrupted enters the handlers of all pending
  sources one after the other, highest priority first, each
  for two steps and 28 ticks.  Then it is where it was and as
  it was, awake, with these requests withdrawn, and memory has
  changed below the stack at most.  If it was waiting in a
  HALT, it goes on after it.

  Without the master enable, or with nothing pending, no step
  enters a handler, whatever the state.
-/
theorem service_transparent :
    (∀ s : Core FlatMemory,
        s.Interruptible →
        s.interrupts.pending ≠ 0 →
          let pc := s.cpu.regs.pc
          let sp := s.cpu.regs.sp
          let ic := s.interrupts
          let sources :=
            [.vblank, .lcdStat, .timer, .serial, .joypad].filter
              fun i : Interrupt => bit ic.pending i.position
          let m := sources.length
          let t := s.afterSteps (2 * m)
          0 < m ∧
            s.sights (2 * m) =
              (sources.flatMap fun i =>
                [(.entered i, i.vector),
                  (.executed .reti, pc)]) ∧
            s.elapsed (2 * m) = .ok (28 * m) ∧
            t.cpu = { s.cpu with halted := false } ∧
            t.interrupts =
              { ic with
                requests := ic.requests &&& ~~~ic.pending } ∧
            (∀ a, t.bus.peek a =
              if a = sp - 1 then highByte pc
              else if a = sp - 2 then lowByte pc
              else s.bus.peek a) ∧
            ∀ before : Core FlatMemory,
              before.event = .executed .halt →
              before.cpu.haltBug = false →
              before.step.2.cpu = s.cpu →
                t.cpu.regs.pc = before.cpu.regs.pc + 1) ∧
      ∀ s : Core FlatMemory,
        s.interrupts.master = false ∨
            s.interrupts.pending = 0 →
          ∀ i, s.event ≠ .entered i := by
  refine ⟨?_, fun s h i => event_ne_entered h i⟩
  intro s h hPending pc sp ic sources m t
  have hSome : s.interrupts.pendingSources ≠ [] := by
    intro hNone
    exact hPending
      (InterruptController.pendingSources_eq_nil_iff.mp hNone)
  rcases List.exists_cons_of_ne_nil hSome with
    ⟨i, rest, hSources⟩
  have hList : sources = i :: rest := hSources
  rcases h.served_all hSources with
    ⟨hSights, hElapsed, hResumed⟩
  rw [← hList] at hSights hElapsed hResumed
  have hMany : 0 < m := by
    unfold m
    rw [hList]
    exact Nat.zero_lt_succ _
  refine ⟨hMany, hSights, hElapsed, hResumed.cpu,
    hResumed.interrupts, hResumed.memory, ?_⟩
  intro before hEvent hBug hCpu
  rw [hResumed.cpu, ← hCpu]
  exact pc_of_halt hEvent hBug

/- A HALT at the entry point, and handlers that return. -/
def haltAtEntry : Core FlatMemory :=
  ⟨{}, Interrupt.byPriority.foldl
    (fun m i => m.poke i.vector 0xD9)
    (({} : FlatMemory).poke 0x0100 0x76)⟩

/- The HALT has been executed, and all sources are requested. -/
def allRequested : Core FlatMemory :=
  let s := haltAtEntry.step.2
  let ic : InterruptController :=
    { enable := 0xFF, requests := 0x1F }
  ⟨s.cpu, Bus.setInterrupts ic s.bus⟩

/-
  After ten steps all five have been served and the program is
  behind the HALT; no further handler is entered.
-/
theorem service_allRequested :
    allRequested.Interruptible ∧
      allRequested.cpu.halted = true ∧
      let t := allRequested.afterSteps 10
      allRequested.elapsed 10 = .ok 140 ∧
        (allRequested.sights 10).map Prod.snd =
          [0x40, 0x101, 0x48, 0x101, 0x50, 0x101, 0x58, 0x101,
            0x60, 0x101] ∧
        t.cpu.regs.pc = 0x0101 ∧
        t.cpu.halted = false ∧
        t.interrupts.requests = 0 ∧
        ∀ i, t.event ≠ .entered i := by
  have hInterruptible : allRequested.Interruptible := by
    constructor
    · decide +kernel
    · decide +kernel
    · decide +kernel
    · decide +kernel
    · decide +kernel
    · decide +kernel
    · intro i
      cases i <;> decide +kernel
    · decide +kernel
    · decide +kernel
    · intro i
      cases i <;> decide +kernel
    · intro i
      cases i <;> decide +kernel
  have hPending : allRequested.interrupts.pending = 0x1F := by
    decide +kernel
  have hHalt : haltAtEntry.event = .executed .halt := by
    decide +kernel
  have hEntry : haltAtEntry.cpu.regs.pc = 0x0100 := by
    decide
  have hAll :
      Interrupt.byPriority.filter
          (fun i => bit 0x1F i.position) =
        Interrupt.byPriority := by
    decide
  unfold Interrupt.byPriority at hAll
  rcases service_transparent with ⟨hServe, hNever⟩
  rcases hServe allRequested hInterruptible
      (by rw [hPending]; decide) with
    ⟨-, hSights, hElapsed, hCpu, hInterrupts, -, hBehind⟩
  rw [hPending, hAll] at hSights hElapsed hCpu hInterrupts hBehind
  have hPc := hBehind haltAtEntry hHalt rfl rfl
  have hServed :
      (allRequested.afterSteps 10).interrupts.requests = 0 :=
    congrArg InterruptController.requests hInterrupts
  have hNone :
      (allRequested.afterSteps 10).interrupts.pending = 0 := by
    unfold InterruptController.pending
    rw [hServed]
    exact UInt8.zero_and
  rw [hEntry] at hPc
  have hHere : allRequested.cpu.regs.pc = 0x0101 := by
    decide +kernel
  rw [hHere] at hSights
  exact ⟨hInterruptible, by decide +kernel, hElapsed,
    congrArg (List.map Prod.snd) hSights, hPc,
    congrArg Cpu.halted hCpu, hServed, hNever _ (.inr hNone)⟩

end Core

end Dmg
