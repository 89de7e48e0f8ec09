import Dmg.Proofs.Cpu.Standstill
import Dmg.Proofs.Machine.Requests

/-
  Everything that can be asked of a machine, one thing after
  another.

  A run is a list of actions with their answers.  Some actions
  restart the machine; all others are steps, frames, buttons,
  accesses and requests, and what each of these keeps, a run
  without restart keeps.

  Key definitions include:
    * `Machine.Action`, `Machine.Answer`
    * `Machine.perform`
    * `Machine.run`
    * `Machine.Kept`
    * `Machine.after`
    * `Machine.programmed`

  Main results:
    * `Machine.perform_restart`
    * `Machine.run_kept`
    * `Machine.run_reached`
-/

namespace Dmg

/- The image of a cartridge of the supported kind. -/
theorem Cartridge.ofBytes_toArray
    (c : Cartridge)
    (hKind : c.rom.get ⟨0x147, by decide⟩ = 0)
    (hSize : c.rom.get ⟨0x148, by decide⟩ = 0) :
    ofBytes c.rom.toArray = .ok c := by
  rcases c with ⟨⟨image, hLength⟩⟩
  have hHeader : ¬ image.size < headerEnd := by
    rw [hLength]
    decide
  unfold ofBytes
  rw [dif_neg hHeader]
  dsimp only
  rw [if_neg fun hNe => hNe hKind,
    if_neg fun hNe => hNe hSize, dif_pos hLength]

theorem entryPoint_lt :
    0x100 < romSize := by
  decide

/- A cartridge whose program begins with an opcode. -/
def Cartridge.beginningWith
    (op : UInt8) : Cartridge :=
  ⟨(Vector.replicate romSize 0).set 0x100 op entryPoint_lt⟩

theorem Cartridge.ofBytes_beginningWith
    (op : UInt8) :
    ofBytes (beginningWith op).rom.toArray =
      .ok (beginningWith op) := by
  have hZero {i : Nat} (hi : i < romSize) (hNe : 0x100 ≠ i) :
      (beginningWith op).rom.get ⟨i, hi⟩ = 0 := by
    change ((Vector.replicate romSize 0).set 0x100 op)[i] = 0
    rw [Vector.getElem_set_ne _ hi hNe,
      Vector.getElem_replicate]
  exact ofBytes_toArray _ (hZero _ (by decide))
    (hZero _ (by decide))

/- A journal that keeps nothing is left alone. -/
theorem Journal.note_of_limit
    {j : Journal}
    (h : j.limit = 0)
    (m : Message) :
    j.note m = j := by
  have hAbove : ¬ m.level.rank ≤ j.limit := by
    rw [h]
    cases m.level <;> decide
  unfold note
  rw [if_neg hAbove]

theorem Journal.noteAll_of_limit
    {j : Journal}
    (h : j.limit = 0)
    (ms : List Message) :
    j.noteAll ms = j := by
  induction ms with
  | nil => rfl
  | cons m ms ih =>
      change (j.note m).noteAll ms = j
      rw [note_of_limit h]
      exact ih

namespace Machine

------------------------------------------------------------
-- Actions
------------------------------------------------------------

/- Something that can be asked of a machine. -/
inductive Action where
  | step
  | runFrame
  | setButton (button : Button) (held : Bool)
  | handleKey (k : Key) (held : Bool)
  | read (addr : UInt16)
  | write (addr : UInt16) (v : UInt8)
  | request (i : Interrupt)
  | reset
  | load (image : Array UInt8)

/- What is answered to an action. -/
inductive Answer where
  | done
  | stepped (r : StepResult)
  | framed (r : FrameResult)
  | byte (v : UInt8)
  | loaded (r : Except CartridgeFault Unit)

/- Request an interrupt from outside. -/
def request
    (i : Interrupt)
    (m : Machine) : Machine :=
  { m with
    board := { m.board with
      interrupts := m.board.interrupts.request i } }

def perform
    (a : Action)
    (m : Machine) : Journaled (Answer × Machine) :=
  fun journal =>
    match a with
    | .step =>
        let ((r, m), journal) := m.step journal
        ((.stepped r, m), journal)
    | .runFrame =>
        let ((r, m), journal) := m.runFrame journal
        ((.framed r, m), journal)
    | .setButton button held =>
        let (m, journal) := m.setButton button held journal
        ((.done, m), journal)
    | .handleKey k held =>
        let (m, journal) := m.handleKey k held journal
        ((.done, m), journal)
    | .read addr => ((.byte (m.read addr), m), journal)
    | .write addr v =>
        let (m, journal) := m.write addr v journal
        ((.done, m), journal)
    | .request i => ((.done, m.request i), journal)
    | .reset =>
        let (m, journal) := m.reset journal
        ((.done, m), journal)
    | .load image =>
        let ((r, m), journal) := m.loadImage image journal
        ((.loaded r, m), journal)

/-
  A frame with its answer.  What the frame comes to is named,
  as its loop is too long to be unfolded.
-/
theorem perform_runFrame
    {m n : Machine}
    {journal j : Journal}
    {r : FrameResult}
    (h : m.runFrame journal = ((r, n), j)) :
    m.perform .runFrame journal = ((.framed r, n), j) := by
  simp only [perform, h]

/- Perform actions in order, with their answers. -/
def run :
    List Action → Machine →
      Journaled (List Answer × Machine)
  | [], m, journal => (([], m), journal)
  | a :: as, m, journal =>
      let ((answer, m), journal) := m.perform a journal
      let ((answers, m), journal) := run as m journal
      ((answer :: answers, m), journal)

/- The machine after actions. -/
def afterRun
    (as : List Action)
    (m : Machine)
    (journal : Journal) : Machine :=
  (m.run as journal).1.2

theorem afterRun_nil
    (m : Machine)
    (journal : Journal) :
    m.afterRun [] journal = m :=
  rfl

theorem afterRun_cons
    (a : Action)
    (as : List Action)
    (m : Machine)
    (journal : Journal) :
    m.afterRun (a :: as) journal =
      (m.perform a journal).1.2.afterRun as
        (m.perform a journal).2 :=
  rfl

namespace Action

/- Whether an action puts in a cartridge. -/
def loads : Action → Bool
  | .load image => (Cartridge.ofBytes image).toBool
  | _ => false

/- Whether an action starts the machine anew. -/
def restarts
    (a : Action) : Bool :=
  match a with
  | .reset => true
  | _ => a.loads

end Action

------------------------------------------------------------
-- Loading
------------------------------------------------------------

/- An image that is refused changes nothing. -/
theorem loadImage_of_error
    {image : Array UInt8}
    {e : CartridgeFault}
    (h : Cartridge.ofBytes image = .error e)
    (m : Machine)
    (journal : Journal) :
    m.loadImage image journal = ((.error e, m), journal) := by
  have hAccept : accept image journal = (.error e, journal) := by
    unfold accept
    rw [h]
    rfl
  simp only [loadImage, bind, StateT.bind, hAccept]
  rfl

/- An image that is accepted is all that is kept. -/
theorem loadImage_of_ok
    {image : Array UInt8}
    {c : Cartridge}
    (h : Cartridge.ofBytes image = .ok c)
    (m : Machine)
    (journal : Journal) :
    m.loadImage image journal =
      ((.ok (), { board := { rom := c.rom } }),
        (journal.noteAll (acceptanceEvents c)).note
          .machineReset) := by
  have hAccept :
      accept image journal =
        (.ok c, journal.noteAll (acceptanceEvents c)) := by
    unfold accept
    rw [h]
    rfl
  simp only [loadImage, bind, StateT.bind, hAccept]
  rfl

theorem loadImage_cases
    (image : Array UInt8)
    (m : Machine)
    (journal : Journal) :
    (∃ e, Cartridge.ofBytes image = .error e ∧
        m.loadImage image journal =
          ((.error e, m), journal)) ∨
      ∃ c, Cartridge.ofBytes image = .ok c ∧
        m.loadImage image journal =
          ((.ok (), { board := { rom := c.rom } }),
            (journal.noteAll (acceptanceEvents c)).note
              .machineReset) := by
  cases h : Cartridge.ofBytes image with
  | error e => exact .inl ⟨e, rfl, loadImage_of_error h ..⟩
  | ok c => exact .inr ⟨c, rfl, loadImage_of_ok h ..⟩

theorem perform_load
    {image : Array UInt8}
    {c : Cartridge}
    (h : Cartridge.ofBytes image = .ok c)
    (m : Machine)
    (journal : Journal) :
    m.perform (.load image) journal =
      ((.loaded (.ok ()), { board := { rom := c.rom } }),
        (journal.noteAll (acceptanceEvents c)).note
          .machineReset) := by
  simp only [perform, loadImage_of_ok h]

theorem perform_beginningWith
    (op : UInt8)
    (m : Machine)
    {journal : Journal}
    (h : journal.limit = 0) :
    let c := Cartridge.beginningWith op
    m.perform (.load c.rom.toArray) journal =
      ((.loaded (.ok ()), { board := { rom := c.rom } }),
        journal) := by
  intro c
  rw [perform_load (Cartridge.ofBytes_beginningWith op),
    Journal.noteAll_of_limit h, Journal.note_of_limit h]

/- An action that restarts leaves nothing but an image. -/
theorem perform_restart
    {a : Action}
    (h : a.restarts = true)
    (m : Machine)
    (journal : Journal) :
    ∃ rom, (m.perform a journal).1.2 =
      { board := { rom := rom } } := by
  cases a with
  | reset => exact ⟨m.board.rom, rfl⟩
  | load image =>
      rcases m.loadImage_cases image journal with
        ⟨e, hError, -⟩ | ⟨c, -, hLoad⟩
      · change (Cartridge.ofBytes image).toBool = true at h
        rw [hError] at h
        cases h
      · refine ⟨c.rom, ?_⟩
        simp only [perform, hLoad]
  | _ => cases h

------------------------------------------------------------
-- What Actions Keep
------------------------------------------------------------

/- A property that every action keeps but a restart. -/
structure Kept
    (P : Machine → Prop) : Prop where
  step :
    ∀ m journal, P m → P (m.step journal).1.2
  takeFrame :
    ∀ m, P m → P m.takeFrame
  setButton :
    ∀ button held m journal,
      P m → P (m.setButton button held journal).1
  write :
    ∀ addr v m journal, P m → P (m.write addr v journal).1
  request :
    ∀ i m, P m → P (m.request i)

variable {P : Machine → Prop}

theorem perform_kept
    (hP : Kept P)
    {a : Action}
    (hKeeps : a.restarts = false)
    {m : Machine}
    (h : P m)
    (journal : Journal) :
    P (m.perform a journal).1.2 := by
  cases a with
  | step => exact hP.step m journal h
  | runFrame =>
      have hFrame : P (m.runFrame journal).1.2 :=
        runUntil_invariant (P := P) hP.step hP.takeFrame h
          (m.ticks + frameTicks) frameTicks journal
      rcases hResult : m.runFrame journal with ⟨⟨r, n⟩, j⟩
      rw [hResult] at hFrame
      rw [perform_runFrame hResult]
      exact hFrame
  | setButton button held =>
      exact hP.setButton button held m journal h
  | handleKey k held =>
      simp only [perform, handleKey]
      cases k.button? with
      | none => exact h
      | some button =>
          exact hP.setButton button held m journal h
  | read addr => exact h
  | write addr v => exact hP.write addr v m journal h
  | request i => exact hP.request i m h
  | reset => cases hKeeps
  | load image =>
      rcases m.loadImage_cases image journal with
        ⟨e, -, hLoad⟩ | ⟨c, hOk, -⟩
      · simp only [perform, hLoad]
        exact h
      · change (Cartridge.ofBytes image).toBool = false at hKeeps
        rw [hOk] at hKeeps
        cases hKeeps

/- What each action of a list keeps, their run keeps. -/
theorem run_of_perform
    {as : List Action}
    (hEach : ∀ a ∈ as, ∀ m journal,
      P m → P (m.perform a journal).1.2)
    {m : Machine}
    (h : P m)
    (journal : Journal) :
    P (m.afterRun as journal) := by
  induction as generalizing m journal with
  | nil => exact h
  | cons a as ih =>
      have hFirst :=
        hEach a List.mem_cons_self m journal h
      rw [afterRun_cons]
      exact ih
        (fun b hb => hEach b (List.mem_cons_of_mem a hb))
        hFirst _

theorem run_kept
    (hP : Kept P)
    {as : List Action}
    (hKeeps : ∀ a ∈ as, a.restarts = false)
    {m : Machine}
    (h : P m)
    (journal : Journal) :
    P (m.afterRun as journal) :=
  run_of_perform (P := P)
    (fun a ha _ j hm => perform_kept hP (hKeeps a ha) hm j)
    h journal

/- What fresh machines have as well, every run keeps. -/
theorem run_invariant
    (hP : Kept P)
    (hFresh : ∀ rom, P { board := { rom := rom } })
    (as : List Action)
    {m : Machine}
    (h : P m)
    (journal : Journal) :
    P (m.afterRun as journal) := by
  apply run_of_perform _ h
  intro a ha m j hm
  cases hRestarts : a.restarts with
  | false => exact perform_kept hP hRestarts hm j
  | true =>
      rcases perform_restart hRestarts m j with ⟨rom, hNew⟩
      rw [hNew]
      exact hFresh rom

------------------------------------------------------------
-- The Processor
------------------------------------------------------------

/- The processor of a run is on a run from reset. -/
def Begun
    (m : Machine) : Prop :=
  ∀ w : Wired, Core.Reached ⟨m.cpu, w⟩

theorem kept_begun :
    Kept Begun where
  step m journal h := by
    intro w
    have hStep := (h ⟨m.board, journal⟩).step.between w
    rw [(m.step_core journal).2.1]
    exact hStep
  takeFrame _ h := h
  setButton button held m journal h := by
    unfold Machine.setButton
    cases m.board.presses button held <;> exact h
  write _ _ _ _ h := h
  request _ _ h := h

theorem run_reached
    (as : List Action)
    (journal : Journal) :
    (afterRun as {} journal).Begun := by
  apply run_invariant kept_begun
  · intro rom w
    exact .reset w
  · intro w
    exact .reset w

------------------------------------------------------------
-- Programs
------------------------------------------------------------

/- A machine after some steps. -/
def after
    (m : Machine) : Nat → Machine
  | 0 => m
  | steps + 1 => ((m.after steps).step {}).1.2

theorem Reachable.after
    {m : Machine}
    (h : m.Reachable)
    (steps : Nat) :
    (m.after steps).Reachable := by
  induction steps with
  | zero => exact h
  | succ steps ih => exact ih.step {}

/- A machine reset with a program at its entry point. -/
def programmed
    (program : List UInt8) : Machine :=
  let rom :=
    program.zipIdx.foldl
      (fun (rom : Vector UInt8 romSize) (v, i) =>
        if h : 0x100 + i < romSize then
          rom.set (0x100 + i) v h
        else rom)
      (.replicate romSize 0)
  (reset { board := { rom } } {}).1

/- A machine whose program is a CALL of itself, at 0x101. -/
def recursing : Machine :=
  let rom := Vector.replicate romSize 0
  let rom := rom.set 0x101 0xCD
  let rom := rom.set 0x102 0x01
  let rom := rom.set 0x103 0x01
  (reset { board := { rom } } {}).1

end Machine

end Dmg
