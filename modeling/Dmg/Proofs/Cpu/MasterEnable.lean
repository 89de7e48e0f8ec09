import Dmg.Memory.Flat
import Dmg.Proofs.Cpu.Event

/-
  When the master enable rises.

  The master enable and the two latches of EI form a small
  machine of their own, moved by the events of the processor
  alone.  A run therefore has an enabling state that is told
  from its history.

  RETI sets the master enable, and so does the instruction
  after an EI.  An EI that is still in flight when a handler
  is entered is carried into it, and then sets the master
  enable in the midst of the handler.

  Key definitions include:
    * `Bus.KeepsMaster`
    * `Enabling`
    * `Core.Run`
    * `Core.History.FollowsEnable`
    * `Core.History.CarriesEnable`

  Main results:
    * `Core.enabling_step`
    * `Core.Run.master_discipline`
-/

namespace Dmg

------------------------------------------------------------
-- Buses That Keep The Master Enable
------------------------------------------------------------

/-
  A bus that hands back the interrupt controller it was given
  and whose accesses leave the master enable as it is, so that
  only the processor changes it.
-/
class Bus.KeepsMaster
    (β : Type)
    [Bus β] : Prop where
  interrupts_setInterrupts :
    ∀ (ic : InterruptController) (bus : β),
      Bus.interrupts (Bus.setInterrupts ic bus) = ic
  master_read :
    ∀ (addr : UInt16) (bus : β),
      (Bus.interrupts (Bus.read addr bus).2).master =
        (Bus.interrupts bus).master
  master_write :
    ∀ (addr : UInt16) (v : UInt8) (bus : β),
      (Bus.interrupts (Bus.write addr v bus)).master =
        (Bus.interrupts bus).master
  master_note :
    ∀ (m : Message) (bus : β),
      (Bus.interrupts (Bus.note m bus)).master =
        (Bus.interrupts bus).master

theorem Bus.Accessed.master
    {β : Type}
    [Bus β]
    [Bus.KeepsMaster β]
    {a b : β}
    (h : Bus.Accessed a b) :
    (Bus.interrupts b).master = (Bus.interrupts a).master := by
  induction h with
  | refl => rfl
  | read addr _ ih =>
      exact (Bus.KeepsMaster.master_read addr _).trans ih
  | write addr v _ ih =>
      exact (Bus.KeepsMaster.master_write addr v _).trans ih
  | note m _ _ ih =>
      exact (Bus.KeepsMaster.master_note m _).trans ih

------------------------------------------------------------
-- Enabling
------------------------------------------------------------

/-
  The master enable, whether an EI is pending, and whether it
  takes effect at the end of the next instruction.
-/
structure Enabling where
  master : Bool
  pending : Bool
  delay : Bool
deriving DecidableEq, Repr

namespace Enabling

/- The enabling state of a processor just reset. -/
def initial : Enabling where
  master := true
  pending := false
  delay := false

/- Whether an EI has not yet taken effect. -/
def inFlight
    (e : Enabling) : Bool :=
  e.pending || e.delay

/- What an instruction itself does. -/
def perform
    (e : Enabling) : Instruction → Enabling
  | .di => ⟨false, false, false⟩
  | .reti => ⟨true, false, false⟩
  | .ei => { e with pending := true }
  | _ => e

/- What the end of an instruction does. -/
def settle
    (e : Enabling) : Enabling :=
  if e.delay then { e with master := true, delay := false }
  else if e.pending then
    { e with pending := false, delay := true }
  else e

/- What a step of the processor does. -/
def after
    (e : Enabling) : Core.Event → Enabling
  | .entered _ => { e with master := false }
  | .executed i => (e.perform i).settle
  | .idle | .failed _ => e

/-
  An instruction other than DI, RETI and EI only lets the
  latches move on.
-/
theorem after_executed
    (e : Enabling)
    {i : Instruction}
    (hDi : i ≠ .di)
    (hReti : i ≠ .reti)
    (hEi : i ≠ .ei) :
    e.after (.executed i) = e.settle := by
  have hPerform : e.perform i = e := by
    cases i <;> first | rfl | contradiction
  exact congrArg settle hPerform

theorem after_di
    (e : Enabling) :
    e.after (.executed .di) = ⟨false, false, false⟩ :=
  rfl

theorem after_reti
    (e : Enabling) :
    e.after (.executed .reti) = ⟨true, false, false⟩ :=
  rfl

theorem after_ei
    (e : Enabling) :
    e.after (.executed .ei) =
      if e.delay then ⟨true, true, false⟩
      else ⟨e.master, false, true⟩ := by
  rcases e with ⟨master, pending, delay⟩
  cases delay <;> rfl

theorem settle_eq
    (e : Enabling) :
    e.settle =
      ⟨e.master || e.delay, e.pending && e.delay,
        e.pending && !e.delay⟩ := by
  rcases e with ⟨master, pending, delay⟩
  cases master <;> cases pending <;> cases delay <;> rfl

/- At most one EI is in flight after a step, if before it. -/
theorem not_pending_and_delay_after
    {e : Enabling}
    (h : (e.pending && e.delay) = false)
    (event : Core.Event) :
    ((e.after event).pending && (e.after event).delay) =
      false := by
  cases event with
  | idle => exact h
  | entered k => exact h
  | failed fault => exact h
  | executed i =>
      by_cases hDi : i = .di
      · rw [hDi, after_di]
        rfl
      by_cases hReti : i = .reti
      · rw [hReti, after_reti]
        rfl
      by_cases hEi : i = .ei
      · rw [hEi, after_ei]
        split <;> rfl
      · rw [after_executed e hDi hReti hEi, settle_eq]
        simp only [h, Bool.false_and]

/-
  A step sets a clear master enable when it executes RETI, or
  when an EI takes effect at its end.
-/
theorem master_after_iff
    {e : Enabling}
    (hClear : e.master = false)
    (event : Core.Event) :
    (e.after event).master = true ↔
      event = .executed .reti ∨
        ∃ i, event = .executed i ∧ i ≠ .di ∧
          e.delay = true := by
  cases event with
  | idle => simp [after, hClear]
  | entered k => simp [after]
  | failed fault => simp [after, hClear]
  | executed i =>
      by_cases hDi : i = .di
      · simp [hDi, after_di]
      by_cases hReti : i = .reti
      · simp [hReti, after_reti]
      by_cases hEi : i = .ei
      · rw [hEi, after_ei]
        cases e.delay <;> simp [hClear]
      · rw [after_executed e hDi hReti hEi, settle_eq]
        simp [hClear, hReti, hDi]

end Enabling

namespace Core

variable {β : Type} [Bus β]

/- The enabling state of a processor on a bus. -/
def enabling
    (s : Core β) : Enabling where
  master := s.interrupts.master
  pending := s.cpu.enablePending
  delay := s.cpu.enableDelay

variable [Bus.KeepsMaster β]

theorem Works.enabling_eq
    {s t : Core β}
    (h : Works s t) :
    t.enabling = s.enabling := by
  have hMaster :
      t.interrupts.master = s.interrupts.master :=
    h.bus.master
  unfold enabling
  rw [hMaster, h.cpu]

/- The controller is what it was just set to. -/
theorem interrupts_mapInterrupts
    (f : InterruptController → InterruptController)
    (s : Core β) :
    (s.mapInterrupts f).interrupts = f s.interrupts :=
  Bus.KeepsMaster.interrupts_setInterrupts _ _

theorem enabling_settleEnable
    (s : Core β) :
    s.settleEnable.enabling = s.enabling.settle := by
  rcases s with ⟨⟨regs, halted, stopped, bug, p, d, l⟩, bus⟩
  cases d with
  | true =>
      simp only [settleEnable, if_true, enabling,
        Enabling.settle, Core.interrupts, mapInterrupts,
        Bus.KeepsMaster.interrupts_setInterrupts,
        InterruptController.setMaster]
  | false =>
      cases p <;> rfl

theorem enabling_forceMaster
    (on : Bool)
    (s : Core β) :
    (s.forceMaster on).enabling = ⟨on, false, false⟩ := by
  have hMaster :
      (s.forceMaster on).interrupts.master = on := by
    exact congrArg InterruptController.master
      (interrupts_mapInterrupts (·.setMaster on) s)
  unfold enabling
  rw [hMaster]
  rfl

omit [Bus.KeepsMaster β] in
theorem enabling_halt
    (s : Core β) :
    s.halt.enabling = s.enabling := by
  rcases s with ⟨cpu, bus⟩
  simp only [halt]
  split <;> rfl

/- The equations of the five instructions, and work. -/
theorem enabling_execute
    (i : Instruction)
    (imm : UInt16)
    (s : Core β) :
    (s.execute i imm).2.enabling =
      s.enabling.perform i := by
  cases hLatches : i.latches with
  | false =>
      rw [(execute_works hLatches imm s).enabling_eq]
      cases i <;> first | rfl | cases hLatches
  | true =>
      cases i with
      | stop => exact (note_works rfl s).enabling_eq
      | halt => exact enabling_halt s
      | di => exact enabling_forceMaster false s
      | ei => rfl
      | reti =>
          exact (returnToCaller_works _).enabling_eq.trans
            (enabling_forceMaster true s)
      | _ => cases hLatches

------------------------------------------------------------
-- Steps
------------------------------------------------------------

theorem enabling_fetch
    (s : Core β) :
    s.fetch.2.enabling = s.enabling := by
  rw [fetch_eq]
  have hMaster :=
    Bus.KeepsMaster.master_read s.cpu.regs.pc s.bus
  unfold enabling Core.interrupts
  rw [hMaster]

theorem enabling_perform
    (pc : UInt16)
    (i : Instruction)
    (s : Core β) :
    (s.perform pc i).2.enabling =
      (s.enabling.perform i).settle := by
  have hFetched :=
    (fetchImmediate_works i.immediate s).enabling_eq
  unfold perform
  rcases hImm : s.fetchImmediate i.immediate with ⟨imm, t⟩
  rw [hImm] at hFetched
  have hNoted :
      (t.note (.executing pc i imm)).enabling =
        s.enabling :=
    (note_works rfl t).enabling_eq.trans hFetched
  have hExecuted :=
    enabling_execute i imm (t.note (.executing pc i imm))
  rw [hNoted] at hExecuted
  rcases hResult :
      (t.note (.executing pc i imm)).execute i imm with
    ⟨flow, u⟩
  rw [hResult] at hExecuted
  have hSkipped :
      (u.skip i.immediate).enabling = s.enabling.perform i :=
    (skip_works _ u).enabling_eq.trans hExecuted
  cases flow with
  | next =>
      simp only [hResult, enabling_settleEnable, hSkipped]
  | jump =>
      simp only [hResult, enabling_settleEnable, hExecuted]
  | extended more =>
      simp only [hResult, enabling_settleEnable, hSkipped]

theorem enabling_enterHandler
    (i : Interrupt)
    (s : Core β) :
    (s.enterHandler i).enabling =
      { s.enabling with master := false } := by
  let t : Core β :=
    ⟨{ s.cpu with haltBug := false },
      (s.mapInterrupts (·.acknowledge i)).bus⟩
  have hEntered : t.enabling =
      { s.enabling with master := false } := by
    have hController :=
      interrupts_mapInterrupts (·.acknowledge i) s
    have hMaster : t.interrupts.master = false :=
      congrArg InterruptController.master hController
    unfold enabling
    rw [hMaster]
  have hPushed := (push_works (returnAddress s.cpu) t)
  have hWork : Works t (s.enterHandler i) :=
    (hPushed.trans (note_works rfl _)).trans
      (jumpTo_works i.vector _)
  exact hWork.enabling_eq.trans hEntered

theorem enabling_failedState
    (fault : DecodeFault)
    (s : Core β) :
    (s.failedState fault).enabling = s.enabling := by
  unfold failedState
  split
  · rfl
  · exact ((note_works rfl _).enabling_eq).trans
      (enabling_fetch s.wake)

/- The events of a processor move its enabling state. -/
theorem enabling_step
    (s : Core β) :
    s.step.2.enabling = s.enabling.after s.event := by
  rw [step_eq]
  cases s.event with
  | idle => rfl
  | entered i => exact enabling_enterHandler i s.wake
  | executed i =>
      have hFetched := enabling_fetch s.wake
      have hPerformed :=
        enabling_perform s.cpu.regs.pc i s.wake.fetch.2
      rw [hFetched] at hPerformed
      exact hPerformed
  | failed fault => exact enabling_failedState fault s

------------------------------------------------------------
-- Histories
------------------------------------------------------------

/- The events of a run, the latest first. -/
abbrev History := List Event

namespace History

/- Whether an event enters a handler or executes something. -/
def acts : Event → Bool
  | .entered _ | .executed _ => true
  | .idle | .failed _ => false

/- The instructions executed in a history, the latest first. -/
def executions
    (es : History) : List Instruction :=
  es.filterMap fun
    | .executed i => some i
    | _ => none

/- The enabling state that a history leads to from reset. -/
def enabling
    (es : History) : Enabling :=
  es.foldr (fun e state => state.after e) .initial

/- The last thing done is an EI: no handler was entered since. -/
def FollowsEnable
    (es : History) : Prop :=
  es.find? acts = some (.executed .ei)

instance (es : History) : Decidable es.FollowsEnable :=
  inferInstanceAs (Decidable (_ = _))

/-
  A handler was entered in an enabling state of a kind, and
  the given instructions have been executed since.
-/
def EnteredIn
    (kind : Enabling → Bool)
    (done : List Instruction)
    (es : History) : Prop :=
  ∃ (since before : History) (k : Interrupt),
    es = since ++ .entered k :: before ∧
      kind before.enabling = true ∧
      since.executions = done

/-
  A handler was entered with an EI in flight that the next
  instruction brings into effect: either the EI was about to
  take effect and nothing has been executed in the handler,
  or it was pending behind another EI and one instruction has
  been executed that leaves it pending.
-/
def CarriesEnable
    (es : History) : Prop :=
  es.EnteredIn Enabling.delay [] ∨
    ∃ i, i ≠ .ei ∧ i ≠ .di ∧ i ≠ .reti ∧
      es.EnteredIn Enabling.pending [i]

theorem enabling_cons
    (e : Event)
    (es : History) :
    enabling (e :: es) = es.enabling.after e :=
  rfl

theorem enteredIn_entered
    {kind : Enabling → Bool}
    (es : History)
    (h : kind es.enabling = true)
    (k : Interrupt) :
    EnteredIn kind [] (.entered k :: es) :=
  ⟨[], es, k, rfl, h, rfl⟩

theorem EnteredIn.executed
    {kind : Enabling → Bool}
    {done : List Instruction}
    {es : History}
    (h : es.EnteredIn kind done)
    (i : Instruction) :
    EnteredIn kind (i :: done) (.executed i :: es) := by
  rcases h with ⟨since, before, k, rfl, hKind, rfl⟩
  exact ⟨.executed i :: since, before, k, rfl, hKind, rfl⟩

/- What does not act executes nothing. -/
theorem EnteredIn.quiet
    {kind : Enabling → Bool}
    {done : List Instruction}
    {es : History}
    (h : es.EnteredIn kind done)
    {e : Event}
    (hQuiet : acts e = false) :
    EnteredIn kind done (e :: es) := by
  rcases h with ⟨since, before, k, rfl, hKind, rfl⟩
  refine ⟨e :: since, before, k, rfl, hKind, ?_⟩
  cases e with
  | idle => rfl
  | failed fault => rfl
  | entered k => cases hQuiet
  | executed i => cases hQuiet

theorem CarriesEnable.quiet
    {es : History}
    (h : es.CarriesEnable)
    {e : Event}
    (hQuiet : acts e = false) :
    CarriesEnable (e :: es) := by
  rcases h with hDelay | ⟨i, hEi, hDi, hReti, hPending⟩
  · exact .inl (hDelay.quiet hQuiet)
  · exact .inr ⟨i, hEi, hDi, hReti, hPending.quiet hQuiet⟩

------------------------------------------------------------
-- Latches Along A History
------------------------------------------------------------

/- At most one EI is in flight. -/
theorem not_pending_and_delay
    (es : History) :
    (es.enabling.pending && es.enabling.delay) = false := by
  induction es with
  | nil => rfl
  | cons e es ih =>
      exact Enabling.not_pending_and_delay_after ih e

/-
  An EI pending with the master enable clear was carried into
  a handler that has not executed anything: had anything been
  executed, the EI would have moved on, or the EI before it
  would have set the master enable.
-/
theorem enteredIn_of_pending
    {es : History}
    (hPending : es.enabling.pending = true)
    (hClear : es.enabling.master = false) :
    es.EnteredIn Enabling.pending [] := by
  induction es with
  | nil => cases hPending
  | cons e es ih =>
      cases e with
      | idle => exact (ih hPending hClear).quiet rfl
      | failed fault => exact (ih hPending hClear).quiet rfl
      | entered k => exact enteredIn_entered es hPending k
      | executed i =>
          rw [enabling_cons] at hPending hClear
          by_cases hDi : i = .di
          · rw [hDi, Enabling.after_di] at hPending
            cases hPending
          by_cases hReti : i = .reti
          · rw [hReti, Enabling.after_reti] at hPending
            cases hPending
          by_cases hEi : i = .ei
          · rw [hEi, Enabling.after_ei] at hPending hClear
            cases hDelay : (enabling es).delay <;>
              simp [hDelay] at hPending hClear
          · rw [Enabling.after_executed _ hDi hReti hEi]
              at hPending hClear
            simp only [Enabling.settle_eq] at hPending hClear
            have hDelay : (enabling es).delay = false :=
              (Bool.or_eq_false_iff.mp hClear).2
            rw [hDelay, Bool.and_false] at hPending
            cases hPending

/-
  An EI about to take effect with the master enable clear was
  the last thing done, or was carried into a handler.
-/
theorem followsEnable_or_carriesEnable
    {es : History}
    (hDelay : es.enabling.delay = true)
    (hClear : es.enabling.master = false) :
    es.FollowsEnable ∨ es.CarriesEnable := by
  induction es with
  | nil => cases hDelay
  | cons e es ih =>
      cases e with
      | idle =>
          rcases ih hDelay hClear with hFollows | hCarries
          · exact .inl hFollows
          · exact .inr (hCarries.quiet rfl)
      | failed fault =>
          rcases ih hDelay hClear with hFollows | hCarries
          · exact .inl hFollows
          · exact .inr (hCarries.quiet rfl)
      | entered k =>
          exact .inr (.inl (enteredIn_entered es hDelay k))
      | executed i =>
          rw [enabling_cons] at hDelay hClear
          by_cases hDi : i = .di
          · rw [hDi, Enabling.after_di] at hDelay
            cases hDelay
          by_cases hReti : i = .reti
          · rw [hReti, Enabling.after_reti] at hDelay
            cases hDelay
          by_cases hEi : i = .ei
          · subst hEi
            exact .inl rfl
          · rw [Enabling.after_executed _ hDi hReti hEi]
              at hDelay hClear
            simp only [Enabling.settle_eq] at hDelay hClear
            have hPending : (enabling es).pending = true :=
              (Bool.and_eq_true_iff.mp hDelay).1
            have hMaster : (enabling es).master = false :=
              (Bool.or_eq_false_iff.mp hClear).1
            exact .inr (.inr ⟨i, hEi, hDi, hReti,
              (enteredIn_of_pending hPending hMaster).executed
                i⟩)

/- An EI just executed is about to take effect, or has. -/
theorem FollowsEnable.delay_or_master
    {es : History}
    (h : es.FollowsEnable) :
    es.enabling.delay = true ∨ es.enabling.master = true := by
  induction es with
  | nil => cases h
  | cons e es ih =>
      cases e with
      | idle => exact ih h
      | failed fault => exact ih h
      | entered k => cases h
      | executed i =>
          cases h
          rw [enabling_cons, Enabling.after_ei]
          cases (enabling es).delay with
          | true => exact .inr rfl
          | false => exact .inl rfl

/- Nothing but executing moves the latches of EI. -/
theorem latches_of_executions_nil
    {since : History}
    (h : since.executions = [])
    (before : History) :
    enabling (since ++ before) =
      { before.enabling with
        master := (enabling (since ++ before)).master } := by
  induction since with
  | nil => rfl
  | cons e since ih =>
      cases e with
      | idle => exact ih h
      | failed fault => exact ih h
      | entered k =>
          rw [List.cons_append, enabling_cons, ih h]
          rfl
      | executed i => cases h

/- A handler entered with EI about to take effect. -/
theorem EnteredIn.delay
    {es : History}
    (h : es.EnteredIn Enabling.delay []) :
    es.enabling.delay = true := by
  rcases h with ⟨since, before, k, rfl, hDelay, hNone⟩
  rw [latches_of_executions_nil hNone]
  exact hDelay

/-
  A handler entered with an EI pending: one instruction makes
  it about to take effect.
-/
theorem EnteredIn.delay_of_pending
    {es : History}
    {i : Instruction}
    (hDi : i ≠ .di)
    (hReti : i ≠ .reti)
    (hEi : i ≠ .ei)
    (h : es.EnteredIn Enabling.pending [i]) :
    es.enabling.delay = true := by
  rcases h with ⟨since, before, k, rfl, hPending, hOne⟩
  induction since with
  | nil => cases hOne
  | cons e since ih =>
      cases e with
      | idle => exact ih hOne
      | failed fault => exact ih hOne
      | entered k => exact ih hOne
      | executed j =>
          obtain ⟨hSame, hNone⟩ := List.cons_eq_cons.mp hOne
          subst hSame
          have hStill :
              (enabling (since ++ .entered k :: before)).pending
                = true := by
            rw [latches_of_executions_nil hNone]
            exact hPending
          have hOnlyOne :=
            not_pending_and_delay
              (since ++ .entered k :: before)
          rw [hStill, Bool.true_and] at hOnlyOne
          rw [List.cons_append, enabling_cons,
            Enabling.after_executed _ hDi hReti hEi]
          simp only [Enabling.settle_eq, hStill, hOnlyOne]
          rfl

theorem CarriesEnable.delay
    {es : History}
    (h : es.CarriesEnable) :
    es.enabling.delay = true := by
  rcases h with hDelay | ⟨i, hEi, hDi, hReti, hPending⟩
  · exact hDelay.delay
  · exact hPending.delay_of_pending hDi hReti hEi

/-
  While the master enable is clear, an EI takes effect at the
  end of the next instruction exactly when it was the last
  thing done or was carried into a handler.
-/
theorem delay_iff
    {es : History}
    (hClear : es.enabling.master = false) :
    es.enabling.delay = true ↔
      es.FollowsEnable ∨ es.CarriesEnable := by
  constructor
  · intro hDelay
    exact followsEnable_or_carriesEnable hDelay hClear
  · intro h
    rcases h with hFollows | hCarries
    · rcases hFollows.delay_or_master with hDelay | hMaster
      · exact hDelay
      · rw [hClear] at hMaster
        cases hMaster
    · exact hCarries.delay

/-
  A handler entered with no EI in flight, in which no RETI has
  been executed and nothing after an EI, has all clear but for
  its own EI.
-/
theorem handler_clear
    {since before : History}
    (k : Interrupt)
    (hBefore : before.enabling.inFlight = false)
    (hReti : .reti ∉ since.executions)
    (hEi : .ei ∉ since.executions.tail) :
    enabling (since ++ .entered k :: before) =
      ⟨false, false,
        since.executions.head? == some .ei⟩ := by
  induction since with
  | nil =>
      obtain ⟨hPending, hDelay⟩ :=
        Bool.or_eq_false_iff.mp hBefore
      have hEntered :
          enabling (.entered k :: before) =
            ⟨false, before.enabling.pending,
              before.enabling.delay⟩ := rfl
      rw [List.nil_append, hEntered, hPending, hDelay]
      rfl
  | cons e since ih =>
      cases e with
      | idle => exact ih hReti hEi
      | failed fault => exact ih hReti hEi
      | entered j =>
          rw [List.cons_append, enabling_cons, ih hReti hEi]
          rfl
      | executed i =>
          obtain ⟨hNotReti, hReti⟩ :=
            List.ne_and_not_mem_of_not_mem_cons hReti
          have hNoEi : .ei ∉ executions since := hEi
          have hOlder : .ei ∉ (executions since).tail := by
            intro hMember
            exact hNoEi (List.mem_of_mem_tail hMember)
          have hLatest :
              ((executions since).head? == some .ei) =
                false := by
            rw [beq_eq_false_iff_ne]
            intro hHead
            exact hNoEi (List.mem_of_mem_head? hHead)
          rw [List.cons_append, enabling_cons,
            ih hReti hOlder, hLatest]
          change _ =
            (⟨false, false, some i == some .ei⟩ : Enabling)
          by_cases hDi : i = .di
          · rw [hDi]
            rfl
          by_cases hIsEi : i = .ei
          · rw [hIsEi]
            rfl
          · rw [Enabling.after_executed _ hDi
              (Ne.symm hNotReti) hIsEi]
            simp [Enabling.settle, hIsEi]

end History

------------------------------------------------------------
-- Runs
------------------------------------------------------------

/-
  A run from reset, with its history.  Between steps anything
  may happen on the bus that leaves the master enable alone.
-/
inductive Run : History → Core β → Prop where
  | reset
      (bus : β)
      (h : (Bus.interrupts bus).master = true) :
      Run [] ⟨{}, bus⟩
  | step
      {es : History}
      {s : Core β}
      (h : Run es s) :
      Run (s.event :: es) s.step.2
  | between
      {es : History}
      {s : Core β}
      (h : Run es s)
      (bus : β)
      (hMaster :
        (Bus.interrupts bus).master = s.interrupts.master) :
      Run es ⟨s.cpu, bus⟩

omit [Bus.KeepsMaster β] in
theorem Run.step_of
    {es : History}
    {s : Core β}
    (h : Run es s)
    {e : Event}
    (he : s.event = e) :
    Run (e :: es) s.step.2 :=
  he ▸ h.step

/- The enabling state of a run is told from its history. -/
theorem Run.enabling_eq
    {es : History}
    {s : Core β}
    (h : Run es s) :
    s.enabling = es.enabling := by
  induction h with
  | reset bus h =>
      unfold enabling Core.interrupts
      rw [h]
      rfl
  | step _ ih =>
      rw [enabling_step, ih]
      rfl
  | between _ bus hMaster ih =>
      rw [← ih]
      unfold enabling Core.interrupts
      rw [hMaster]
      rfl

/-
  In a step that finds the master enable clear it rises with
  RETI, and with an EI that takes effect.
-/
theorem Run.master_step_iff
    {es : History}
    {s : Core β}
    (hRun : Run es s)
    (hClear : s.interrupts.master = false) :
    s.step.2.interrupts.master = true ↔
      s.event = .executed .reti ∨
        ∃ i, s.event = .executed i ∧ i ≠ .di ∧
          (es.FollowsEnable ∨ es.CarriesEnable) := by
  have hEnabling : s.enabling = es.enabling :=
    hRun.enabling_eq
  have hBefore : es.enabling.master = false := by
    rw [← hEnabling]
    exact hClear
  have hStep :
      s.step.2.interrupts.master =
        (es.enabling.after s.event).master := by
    rw [← hEnabling]
    exact congrArg Enabling.master (enabling_step s)
  rw [hStep, Enabling.master_after_iff hBefore,
    History.delay_iff hBefore]

/- A handler entered with no EI in flight runs with it clear. -/
theorem Run.master_in_handler
    {since before : History}
    {k : Interrupt}
    {s : Core β}
    (hRun : Run (since ++ .entered k :: before) s)
    (hBefore : before.enabling.inFlight = false)
    (hReti : .reti ∉ since.executions)
    (hEi : .ei ∉ since.executions.tail) :
    s.interrupts.master = false := by
  have hMaster := congrArg Enabling.master hRun.enabling_eq
  rw [History.handler_clear k hBefore hReti hEi] at hMaster
  exact hMaster

/-
  When the master enable rises, and how long a handler runs
  with it clear.

  It rises in the step that executes RETI, and in the step
  that executes the instruction after an EI, unless that is
  DI.  It also rises in a handler that was entered with an EI
  in flight.  A handler entered without one runs with it clear
  until it executes RETI or the instruction after an EI of its
  own.
-/
theorem Run.master_discipline
    {es : History}
    {s : Core β}
    (hRun : Run es s) :
    (s.interrupts.master = false →
      (s.step.2.interrupts.master = true ↔
        s.event = .executed .reti ∨
          ∃ i, s.event = .executed i ∧ i ≠ .di ∧
            (es.FollowsEnable ∨ es.CarriesEnable))) ∧
    ∀ (since before : History) (k : Interrupt),
      es = since ++ .entered k :: before →
      before.enabling.inFlight = false →
      .reti ∉ since.executions →
      .ei ∉ since.executions.tail →
      s.interrupts.master = false := by
  constructor
  · exact hRun.master_step_iff
  · rintro since before k rfl hBefore hReti hEi
    exact hRun.master_in_handler hBefore hReti hEi

end Core

------------------------------------------------------------
-- An EI Carried Into A Handler
------------------------------------------------------------

theorem FlatMemory.master_store
    (m : FlatMemory)
    (addr : UInt16)
    (v : UInt8) :
    (m.store addr v).interrupts.master =
      m.interrupts.master := by
  unfold store
  split
  · rfl
  · split <;> rfl

instance : Bus.KeepsMaster FlatMemory where
  interrupts_setInterrupts _ _ := rfl
  master_read _ _ := rfl
  master_write addr v m := m.master_store addr v
  master_note _ _ := rfl

namespace Core

/-
  A program at the entry point: it enables the vertical blank
  in IE, and executes EI although the master enable is set.
-/
def redundantEnable : FlatMemory :=
  [0x3E, 0x01, 0xE0, 0xFF, 0xFB].zipIdx.foldl
    (fun m (v, i) => m.poke (0x0100 + i.toUInt16) v) {}

/- The processor before the EI, and after it. -/
def beforeEnable : Core FlatMemory :=
  (⟨{}, redundantEnable⟩ : Core FlatMemory).step.2.step.2

def afterEnable : Core FlatMemory :=
  beforeEnable.step.2

/- The vertical blank is requested right after the EI. -/
def interrupted : Core FlatMemory :=
  afterEnable.mapInterrupts (·.request .vblank)

/- The handler is about to execute a NOP. -/
def inHandler : Core FlatMemory :=
  interrupted.step.2

def handlerHistory : History :=
  [.entered .vblank, .executed .ei, .executed .storeHigh,
    .executed (.loadByte .a)]

theorem run_inHandler :
    Run handlerHistory inHandler := by
  have hReset : Run [] ⟨{}, redundantEnable⟩ :=
    .reset redundantEnable (by decide +kernel)
  have hBefore :
      Run [.executed .storeHigh, .executed (.loadByte .a)]
        beforeEnable :=
    (hReset.step_of (by decide +kernel)).step_of
      (by decide +kernel)
  have hAfter : Run (.executed .ei :: _) afterEnable :=
    hBefore.step_of (by decide +kernel)
  have hRequested : Run (.executed .ei :: _) interrupted :=
    hAfter.between interrupted.bus (by decide +kernel)
  exact hRequested.step_of (by decide +kernel)

/-
  The master enable rises in the midst of the handler, at the
  end of a NOP that does not follow an EI.
-/
theorem rises_inHandler :
    inHandler.interrupts.master = false ∧
      inHandler.event = .executed .nop ∧
      ¬ handlerHistory.FollowsEnable ∧
      inHandler.step.2.interrupts.master = true := by
  have hClear : inHandler.interrupts.master = false := by
    decide +kernel
  have hNop : inHandler.event = .executed .nop := by
    decide +kernel
  have hCarries : handlerHistory.CarriesEnable :=
    .inl ⟨[], _, .vblank, rfl, rfl, rfl⟩
  refine ⟨hClear, hNop, by decide +kernel, ?_⟩
  have hRises :=
    (Run.master_discipline run_inHandler).1 hClear
  exact hRises.mpr
    (.inr ⟨.nop, hNop, by decide, .inr hCarries⟩)

/-
  The master enable does not rise only in a step that executes
  RETI or the instruction after an EI: it rose in the handler.
-/
theorem not_only_after_enable :
    ¬ ∀ (es : History) (s : Core FlatMemory),
      Run es s →
      s.interrupts.master = false →
      s.step.2.interrupts.master = true →
      s.event = .executed .reti ∨
        (∃ i, s.event = .executed i) ∧ es.FollowsEnable := by
  intro h
  have hClaim := h handlerHistory inHandler run_inHandler
    (by decide +kernel) (by decide +kernel)
  rcases hClaim with hReti | ⟨-, hFollows⟩
  · exact absurd hReti (by decide +kernel)
  · exact absurd hFollows (by decide +kernel)

end Core

end Dmg
