import Dmg.Proofs.Cpu.Event

/-
  The processor sees of its bus what the accesses answer, and
  nothing else.

  A map between buses that goes along with every access goes
  along with a step.  A bus that records what passes over it,
  say, makes the processor do what it does without the record.

  Key definitions include:
    * `Bus.Translation`
    * `Core.map`

  Main results:
    * `Core.execute_map`
    * `Core.step_map`
-/

namespace Dmg

/- A map between buses that goes along with every access. -/
structure Bus.Translation
    {β γ : Type}
    [Bus β]
    [Bus γ]
    (f : β → γ) : Prop where
  read :
    ∀ addr bus,
      Bus.read addr (f bus) =
        ((Bus.read addr bus).1, f (Bus.read addr bus).2)
  write :
    ∀ addr v bus,
      Bus.write addr v (f bus) = f (Bus.write addr v bus)
  interrupts :
    ∀ bus, Bus.interrupts (f bus) = Bus.interrupts bus
  setInterrupts :
    ∀ ic bus,
      Bus.setInterrupts ic (f bus) =
        f (Bus.setInterrupts ic bus)
  note :
    ∀ m bus, Bus.note m (f bus) = f (Bus.note m bus)

variable {β γ : Type} [Bus β] [Bus γ] {f : β → γ}

namespace Bus.Translation

theorem readWord
    (hf : Translation f)
    (addr : UInt16)
    (bus : β) :
    Bus.readWord addr (f bus) =
      ((Bus.readWord addr bus).1,
        f (Bus.readWord addr bus).2) := by
  simp only [Bus.readWord, hf.read]

theorem writeWord
    (hf : Translation f)
    (addr w : UInt16)
    (bus : β) :
    Bus.writeWord addr w (f bus) =
      f (Bus.writeWord addr w bus) := by
  simp only [Bus.writeWord, hf.write]

end Bus.Translation

namespace Core

/- The same processor on the image of its bus. -/
def map
    (f : β → γ)
    (s : Core β) : Core γ :=
  ⟨s.cpu, f s.bus⟩

/- The image of a state that comes with an answer. -/
def mapAnswer
    {α : Type}
    (f : β → γ)
    (r : α × Core β) : α × Core γ :=
  (r.1, r.2.map f)

omit [Bus β] [Bus γ] in
theorem mapRegs_map
    (g : Registers → Registers)
    (s : Core β) :
    (s.map f).mapRegs g = (s.mapRegs g).map f :=
  rfl

omit [Bus β] [Bus γ] in
theorem jumpTo_map
    (pc : UInt16)
    (s : Core β) :
    (s.map f).jumpTo pc = (s.jumpTo pc).map f :=
  rfl

------------------------------------------------------------
-- Memory And Stack
------------------------------------------------------------

section Accesses

variable (hf : Bus.Translation f) (s : Core β)

include hf

theorem read_map
    (addr : UInt16) :
    (s.map f).read addr = mapAnswer f (s.read addr) := by
  simp only [read, map, hf.read, mapAnswer]

theorem write_map
    (addr : UInt16)
    (v : UInt8) :
    (s.map f).write addr v = (s.write addr v).map f := by
  simp only [write, map, hf.write]

theorem readWord_map
    (addr : UInt16) :
    (s.map f).readWord addr =
      mapAnswer f (s.readWord addr) := by
  simp only [readWord, map, hf.readWord, mapAnswer]

theorem writeWord_map
    (addr w : UInt16) :
    (s.map f).writeWord addr w =
      (s.writeWord addr w).map f := by
  simp only [writeWord, map, hf.writeWord]

theorem note_map
    (m : Message) :
    (s.map f).note m = (s.note m).map f := by
  simp only [note, map, hf.note]

theorem interrupts_map :
    (s.map f).interrupts = s.interrupts :=
  hf.interrupts s.bus

theorem mapInterrupts_map
    (g : InterruptController → InterruptController) :
    (s.map f).mapInterrupts g =
      (s.mapInterrupts g).map f := by
  simp only [mapInterrupts, map, hf.interrupts,
    hf.setInterrupts]

theorem get_map
    (o : Operand) :
    (s.map f).get o = mapAnswer f (s.get o) := by
  cases o with
  | atHL => exact read_map hf s _
  | _ => rfl

theorem set_map
    (o : Operand)
    (v : UInt8) :
    (s.map f).set o v = (s.set o v).map f := by
  cases o with
  | atHL => exact write_map hf s _ v
  | _ => rfl

theorem push_map
    (w : UInt16) :
    (s.map f).push w = (s.push w).map f := by
  unfold push
  exact writeWord_map hf
    (s.mapRegs fun r => { r with sp := r.sp - 2 }) _ w

theorem pop_map :
    (s.map f).pop = mapAnswer f s.pop := by
  unfold pop
  rw [readWord_map hf]
  rfl

theorem callTo_map
    (width addr : UInt16) :
    (s.map f).callTo width addr =
      (s.callTo width addr).map f := by
  unfold callTo
  rw [push_map hf, jumpTo_map]
  rfl

theorem returnToCaller_map :
    (s.map f).returnToCaller = s.returnToCaller.map f := by
  unfold returnToCaller
  rw [pop_map hf]
  rfl

theorem loadAFrom_map
    (addr : UInt16) :
    (s.map f).loadAFrom addr = (s.loadAFrom addr).map f := by
  unfold loadAFrom
  rw [read_map hf]
  rfl

theorem storeAAt_map
    (addr : UInt16) :
    (s.map f).storeAAt addr = (s.storeAAt addr).map f :=
  write_map hf s addr _

theorem fetchImmediate_map
    (kind : Immediate) :
    (s.map f).fetchImmediate kind =
      mapAnswer f (s.fetchImmediate kind) := by
  cases kind with
  | none => rfl
  | byte =>
      unfold fetchImmediate
      rw [read_map hf]
      rfl
  | word => exact readWord_map hf s _

------------------------------------------------------------
-- Latches And The Master Enable
------------------------------------------------------------

theorem forceMaster_map
    (on : Bool) :
    (s.map f).forceMaster on = (s.forceMaster on).map f := by
  unfold forceMaster
  rw [mapInterrupts_map hf]
  rfl

theorem halt_map :
    (s.map f).halt = s.halt.map f := by
  dsimp only [halt]
  rw [interrupts_map hf]
  split <;> rfl

theorem stop_map :
    (s.map f).stop = s.stop.map f := by
  unfold stop
  rw [note_map hf]
  rfl

theorem settleEnable_map :
    (s.map f).settleEnable = s.settleEnable.map f := by
  unfold settleEnable
  rw [mapInterrupts_map hf]
  change (if s.cpu.enableDelay then _ else _) = _
  split
  · rfl
  · change (if s.cpu.enablePending then _ else _) = _
    split <;> rfl

theorem lock_map
    (fault : DecodeFault) :
    (s.map f).lock fault = (s.lock fault).map f := by
  unfold lock
  rw [note_map hf]
  rfl

theorem enterHandler_map
    (i : Interrupt) :
    (s.map f).enterHandler i = (s.enterHandler i).map f := by
  unfold enterHandler
  rw [mapInterrupts_map hf]
  rcases s.mapInterrupts (·.acknowledge i) with ⟨cpu, bus⟩
  have hPush :=
    push_map hf ⟨{ cpu with haltBug := false }, bus⟩
      (returnAddress cpu)
  rcases hPushed :
      push (returnAddress cpu)
        (⟨{ cpu with haltBug := false }, bus⟩ : Core β) with
    ⟨cpu', bus'⟩
  rw [hPushed] at hPush
  unfold map at hPush
  simp only [map, hPush, hPushed, interrupts,
    hf.interrupts, note, hf.note, jumpTo, mapRegs]

------------------------------------------------------------
-- Instructions
------------------------------------------------------------

omit [Bus β] [Bus γ] hf in
theorem branch_map
    (cond : Option Condition)
    {taken : Core γ → Core γ}
    {taken' : Core β → Core β}
    (h : ∀ t, taken (t.map f) = (taken' t).map f) :
    (s.map f).branch cond taken =
      mapAnswer f (s.branch cond taken') := by
  have hHolds : (s.map f).holds cond = s.holds cond := rfl
  unfold branch
  rw [hHolds, h]
  split <;> rfl

theorem executePrefixed_map
    (i : PrefixedInstruction) :
    (s.map f).executePrefixed i =
      (s.executePrefixed i).map f := by
  cases i with
  | shift op o =>
      simp only [executePrefixed, get_map hf, mapAnswer,
        mapRegs_map, set_map hf]
      rfl
  | test i o =>
      simp only [executePrefixed, get_map hf, mapAnswer,
        mapRegs_map]
  | reset i o =>
      simp only [executePrefixed, get_map hf, mapAnswer,
        set_map hf]
  | set i o =>
      simp only [executePrefixed, get_map hf, mapAnswer,
        set_map hf]

/- An instruction does the same on the image of a bus. -/
theorem execute_map
    (i : Instruction)
    (imm : UInt16) :
    (s.map f).execute i imm =
      mapAnswer f (s.execute i imm) := by
  cases i with
  | stop => simp only [execute, stop_map hf]; rfl
  | halt => simp only [execute, halt_map hf]; rfl
  | di => simp only [execute, forceMaster_map hf]; rfl
  | extended =>
      simp only [execute, note_map hf,
        executePrefixed_map hf]
      rfl
  | load dst src =>
      simp only [execute, get_map hf, mapAnswer, set_map hf]
  | loadByte dst => simp only [execute, set_map hf]; rfl
  | loadWord p => cases p <;> rfl
  | storeA p =>
      have hPointer : (s.map f).pointer p = s.pointer p := by
        cases p <;> rfl
      simp only [execute, hPointer, storeAAt_map hf]
      cases p <;> rfl
  | loadA p =>
      have hPointer : (s.map f).pointer p = s.pointer p := by
        cases p <;> rfl
      simp only [execute, hPointer, loadAFrom_map hf]
      cases p <;> rfl
  | storeSP =>
      simp only [execute, writeWord_map hf]
      rfl
  | inc o | dec o =>
      simp only [execute, get_map hf, mapAnswer,
        mapRegs_map, set_map hf]
  | incPair p | decPair p | addHL p => cases p <;> rfl
  | alu op src =>
      simp only [execute, get_map hf, mapAnswer, mapRegs_map]
  | jumpRelative cond | jump cond =>
      exact branch_map s cond fun _ => rfl
  | call cond =>
      exact branch_map s cond fun t => callTo_map hf t 2 imm
  | ret cond =>
      exact branch_map s cond (returnToCaller_map hf)
  | reti =>
      simp only [execute, forceMaster_map hf,
        returnToCaller_map hf]
      rfl
  | restart n => simp only [execute, callTo_map hf]; rfl
  | push p =>
      have hPair : (s.map f).stackPair p = s.stackPair p := by
        cases p <;> rfl
      simp only [execute, hPair, push_map hf]
      rfl
  | pop p =>
      simp only [execute, pop_map hf, mapAnswer]
      cases p <;> rfl
  | storeHigh | storeHighC | storeDirect =>
      simp only [execute, storeAAt_map hf]
      rfl
  | loadHigh | loadHighC | loadDirect =>
      simp only [execute, loadAFrom_map hf]
      rfl
  | _ => rfl

theorem perform_map
    (pc : UInt16)
    (i : Instruction) :
    (s.map f).perform pc i = mapAnswer f (s.perform pc i) := by
  unfold perform
  rw [fetchImmediate_map hf]
  rcases s.fetchImmediate i.immediate with ⟨imm, t⟩
  simp only [mapAnswer, note_map hf, execute_map hf]
  rcases (t.note (.executing pc i imm)).execute i imm with
    ⟨flow, u⟩
  cases flow with
  | next =>
      exact congrArg (Prod.mk _)
        (settleEnable_map hf (u.skip i.immediate))
  | jump =>
      exact congrArg (Prod.mk _) (settleEnable_map hf u)
  | extended more =>
      exact congrArg (Prod.mk _)
        (settleEnable_map hf (u.skip i.immediate))

------------------------------------------------------------
-- Steps
------------------------------------------------------------

theorem fetch_map :
    (s.map f).fetch = mapAnswer f s.fetch := by
  simp only [fetch_eq, map, hf.read, mapAnswer]

theorem failedState_map
    (fault : DecodeFault) :
    (s.map f).failedState fault =
      (s.failedState fault).map f := by
  have hWake : (s.map f).wake = s.wake.map f := rfl
  unfold failedState
  rw [hWake, fetch_map hf]
  change (if s.cpu.locked.isSome then _ else _) = _
  split
  · rfl
  · exact lock_map hf _ fault

theorem event_map :
    (s.map f).event = s.event := by
  have hEvent :
      (s.map f).instructionEvent = s.instructionEvent := by
    simp only [instructionEvent, map, hf.read]
  simp only [event, suspended, interrupts_map hf, hEvent]
  rfl

/- A step does the same on the image of a bus. -/
theorem step_map :
    (s.map f).step = mapAnswer f s.step := by
  rw [step_eq, step_eq, event_map hf]
  have hWake : (s.map f).wake = s.wake.map f := rfl
  cases s.event with
  | idle => rfl
  | entered i =>
      simp only [hWake, enterHandler_map hf]
      rfl
  | executed i =>
      simp only [hWake, fetch_map hf, mapAnswer,
        perform_map hf]
      rfl
  | failed fault =>
      simp only [failedState_map hf]
      rfl

end Accesses

end Core

end Dmg
