import Dmg.Proofs.Machine.Reports
import Dmg.Session

/-
  What is done to a session, and what comes of it.

  A window asks a session for frames and passes on its keys.
  An update that finds the session over does nothing.  Any
  other runs a frame, counts it, and compares the PC with the
  one before.  Keys do no more than hold buttons, reset the
  machine or end the session.

  Key definitions include:
    * `Journal.stalls`
    * `Session.Input`
    * `Session.play`
    * `Session.Ends`
    * `Session.frameEnds`

  Main results:
    * `Session.update_of_over`
    * `Session.session_update`
    * `Session.stalls_update`
    * `Session.shouldExit_play_iff`
-/

namespace Dmg

open Journal

------------------------------------------------------------
-- Reports Of Stalls
------------------------------------------------------------

theorem Journaled.bind_apply
    {α β : Type}
    (x : Journaled α)
    (f : α → Journaled β)
    (j : Journal) :
    (x >>= f) j = f (x j).1 (x j).2 :=
  rfl

/- Whether a message reports a stall. -/
def Message.isStall : Message → Bool
  | .pcUnchanged .. => true
  | _ => false

theorem Message.isStall_of_ofMachine
    {m : Message}
    (h : m.ofMachine = true) :
    m.isStall = false := by
  cases m <;> first | rfl | cases h

/- The stalls that have been reported. -/
def Journal.stalls
    (j : Journal) : Journal :=
  j.only Message.isStall

/- Other reports are no stalls. -/
theorem Journal.stalls_note
    {m : Message}
    (h : m.isStall = false)
    (j : Journal) :
    (j.note m).stalls = j.stalls := by
  unfold stalls
  rw [only_note, h]
  rfl

/- Nor are those of a machine. -/
theorem Journal.Grown.stalls
    {j k : Journal}
    (h : Grown Message.ofMachine j k) :
    k.stalls = j.stalls :=
  h.only_eq fun _ => Message.isStall_of_ofMachine

namespace Session

------------------------------------------------------------
-- The Parts Of An Update
------------------------------------------------------------

section Updates

variable (s : Session) (j : Journal)

theorem runFrame_eq :
    s.runFrame j =
      let r := s.machine.runFrame j
      match r.1.1 with
      | .ok _ => ({ s with machine := r.1.2 }, r.2)
      | .error e =>
          ({ s with machine := r.1.2, shouldExit := true },
            r.2.note (.emulationHalted e)) := by
  rcases hFrame : s.machine.runFrame j with ⟨⟨r, n⟩, k⟩
  rcases s with ⟨m, ended, scale, frames, pc, stagnant, lcdc⟩
  unfold runFrame
  dsimp only at hFrame ⊢
  rw [hFrame]
  cases r <;> rfl

/- A fault ends the session. -/
theorem session_runFrame :
    (s.runFrame j).1 =
      let r := (s.machine.runFrame j).1
      { s with
        machine := r.2
        shouldExit := !r.1.isOk || s.shouldExit } := by
  rw [runFrame_eq]
  rcases s.machine.runFrame j with ⟨⟨r, n⟩, k⟩
  cases r <;> rfl

theorem stalls_runFrame :
    (s.runFrame j).2.stalls = j.stalls := by
  have hFrame := (s.machine.grown_runFrame j).stalls
  rw [runFrame_eq]
  rcases hRun : s.machine.runFrame j with ⟨⟨r, n⟩, k⟩
  rw [hRun] at hFrame
  cases r with
  | ok _ => exact hFrame
  | error e => exact (stalls_note rfl _).trans hFrame

/- So does STOP. -/
theorem session_endIfStopped :
    (s.endIfStopped j).1 =
      { s with
        shouldExit :=
          s.machine.cpu.stopped || s.shouldExit } := by
  unfold endIfStopped
  cases s.machine.cpu.stopped <;> rfl

theorem stalls_endIfStopped :
    (s.endIfStopped j).2.stalls = j.stalls := by
  unfold endIfStopped
  cases s.machine.cpu.stopped with
  | true => exact stalls_note rfl j
  | false => rfl

theorem countStagnant_eq :
    s.countStagnant =
      { s with
        lastPc := s.machine.cpu.regs.pc
        stagnantFrames :=
          if s.machine.cpu.regs.pc = s.lastPc then
            min (s.stagnantFrames + 1) stagnantLimit
          else 0 } := by
  unfold countStagnant
  dsimp only
  split
  · rename_i hSame
    rw [hSame]
  · rfl

theorem trackStall_eq :
    s.trackStall j =
      let c := s.countStagnant
      let k :=
        if c.stagnantFrames = stallFrames then
          j.note (.pcUnchanged c.machine.cpu.regs.pc
            c.machine.cpu.halted)
        else j
      ({ c with lastLcdc := c.lcdc },
        if c.lcdc ≠ c.lastLcdc then
          k.note (.lcdcChanged c.lastLcdc c.lcdc)
        else k) := by
  unfold trackStall
  generalize s.countStagnant = c
  dsimp only
  split
  · split <;> rfl
  · split <;> rfl

/- The frames with the same PC have been counted. -/
theorem session_trackStall :
    (s.trackStall j).1 =
      { s.countStagnant with
        lastLcdc := s.countStagnant.lcdc } := by
  rw [trackStall_eq]

/- A count of `stallFrames` is reported. -/
theorem stalls_trackStall :
    (s.trackStall j).2.stalls =
      let t := (s.trackStall j).1
      if t.stagnantFrames = stallFrames then
        j.stalls.note (.pcUnchanged t.machine.cpu.regs.pc
          t.machine.cpu.halted)
      else j.stalls := by
  rw [trackStall_eq]
  generalize s.countStagnant = c
  dsimp only
  have hLcdc (k : Journal) :
      (if c.lcdc ≠ c.lastLcdc then
          k.note (.lcdcChanged c.lastLcdc c.lcdc)
        else k).stalls = k.stalls := by
    split
    · exact stalls_note rfl k
    · rfl
  rw [hLcdc]
  split
  · exact only_note _ _ _
  · rfl

------------------------------------------------------------
-- Updates
------------------------------------------------------------

/- An update of a session that is over does nothing. -/
theorem update_of_over
    (h : s.shouldExit = true)
    (screen : Array UInt8) :
    s.update screen j = ((s, screen), j) := by
  unfold update
  rw [if_pos h]
  rfl

theorem update_of_running
    (h : s.shouldExit = false)
    (screen : Array UInt8) :
    s.update screen j =
      let a := s.runFrame j
      let b :=
        endIfStopped { a.1 with frames := a.1.frames + 1 } a.2
      let c := b.1.trackStall b.2
      ((c.1, a.1.machine.drawInto screen),
        if c.1.summaryDue then c.2.note (.summary c.1.status)
        else c.2) := by
  have hNot : ¬ s.shouldExit = true := by
    rw [h]
    decide
  rw [update.eq_def, if_neg hNot, Journaled.bind_apply]
  rcases s.runFrame j with ⟨a, j₁⟩
  rcases hEnd : endIfStopped { a with frames := a.frames + 1 } j₁
    with ⟨b, j₂⟩
  rcases hTrack : b.trackStall j₂ with ⟨c, j₃⟩
  simp only [Journaled.bind_apply, hEnd, hTrack, pure]
  split <;> rfl

/- A session after a frame, from how the frame ended. -/
def afterFrame
    (s : Session)
    (r : Machine.FrameResult × Machine) : Session where
  machine := r.2
  shouldExit := r.2.cpu.stopped || !r.1.isOk
  scale := s.scale
  frames := s.frames + 1
  lastPc := r.2.cpu.regs.pc
  stagnantFrames :=
    if r.2.cpu.regs.pc = s.lastPc then
      min (s.stagnantFrames + 1) stagnantLimit
    else 0
  lastLcdc := r.2.read 0xFF40

/- Any other update runs a frame. -/
theorem session_update
    (h : s.shouldExit = false)
    {r : Machine.FrameResult × Machine}
    (hFrame : (s.machine.runFrame j).1 = r)
    (screen : Array UInt8) :
    (s.update screen j).1 =
      (s.afterFrame r, r.2.drawInto screen) := by
  have hSession := s.session_runFrame j
  rw [hFrame] at hSession
  rw [update_of_running s j h]
  rcases hRun : s.runFrame j with ⟨a, j₁⟩
  rw [hRun] at hSession
  cases hSession
  dsimp only
  rw [session_trackStall, session_endIfStopped,
    countStagnant_eq, h]
  dsimp only
  rw [Bool.or_false]
  rfl

theorem stalls_update
    (h : s.shouldExit = false)
    (screen : Array UInt8) :
    let r := s.update screen j
    r.2.stalls =
      if r.1.1.stagnantFrames = stallFrames then
        j.stalls.note (.pcUnchanged r.1.1.machine.cpu.regs.pc
          r.1.1.machine.cpu.halted)
      else j.stalls := by
  have hSummary (c : Session) (k : Journal) :
      (if c.summaryDue then k.note (.summary c.status)
        else k).stalls = k.stalls := by
    split
    · exact stalls_note rfl k
    · rfl
  have hFrame := s.stalls_runFrame j
  rw [update_of_running s j h]
  rcases hRun : s.runFrame j with ⟨a, j₁⟩
  rw [hRun] at hFrame
  dsimp only
  rw [hSummary, stalls_trackStall, stalls_endIfStopped, hFrame]

end Updates

------------------------------------------------------------
-- Keys
------------------------------------------------------------

section Keys

variable (s : Session) (k : Key) (held : Bool) (j : Journal)

/- What a key does to a machine. -/
def keyed
    (m : Machine) : Journaled Machine :=
  if k == .backspace && held then m.reset
  else m.handleKey k held

theorem handleKey_eq :
    s.handleKey k held j =
      let r := keyed k held s.machine
        (j.note (.keyEvent k held))
      ({ s with
          machine := r.1
          shouldExit :=
            (k == .escape && held) || s.shouldExit },
        r.2) := by
  cases k <;> cases held <;> rfl

/- Neither a button nor a reset is a stall. -/
theorem stalls_keyed
    (m : Machine) :
    (keyed k held m j).2.stalls = j.stalls := by
  unfold keyed
  split
  · exact stalls_note (m := .machineReset) rfl j
  · unfold Machine.handleKey
    cases k.button? with
    | none => rfl
    | some button =>
        dsimp only
        unfold Machine.setButton
        cases m.board.presses button held with
        | true =>
            exact stalls_note (m := .buttonPressed button) rfl j
        | false => rfl

theorem stalls_handleKey :
    (s.handleKey k held j).2.stalls = j.stalls := by
  rw [handleKey_eq]
  exact (stalls_keyed k held _ _).trans (stalls_note rfl j)

end Keys

------------------------------------------------------------
-- Histories
------------------------------------------------------------

/- What is done to a session. -/
inductive Input where
  | update (screen : Array UInt8)
  | key (k : Key) (held : Bool)

/- Do it. -/
def handle
    (i : Input)
    (s : Session) : Journaled Session :=
  match i with
  | .update screen => do return (← s.update screen).1
  | .key k held => s.handleKey k held

/- Do one thing after another. -/
def play : List Input → Session → Journaled Session
  | [], s => return s
  | i :: is, s => do play is (← handle i s)

/- A session on a machine, begun or not. -/
def opened
    (m : Machine)
    (scale : Nat)
    (begun : Bool) : Journaled Session :=
  let s := withScale { machine := m } scale
  if begun then s.start else return s

/- Whether an input runs a frame. -/
def Input.runs
    (i : Input)
    (s : Session) : Bool :=
  match i with
  | .update _ => !s.shouldExit
  | .key .. => false

theorem Input.runs_update
    {s : Session}
    (h : s.shouldExit = false)
    (screen : Array UInt8) :
    (Input.update screen).runs s = true := by
  unfold runs
  rw [h]
  rfl

/- The machines that the frames of a session end with. -/
def frameEnds : List Input → Session → Journal → List Machine
  | [], _, _ => []
  | i :: is, s, j =>
      let r := handle i s j
      let rest := frameEnds is r.1 r.2
      if i.runs s then r.1.machine :: rest else rest

theorem handle_update
    (screen : Array UInt8)
    (s : Session)
    (j : Journal) :
    handle (.update screen) s j =
      let r := s.update screen j
      (r.1.1, r.2) :=
  rfl

section Histories

variable (before after : List Input)
variable (s : Session) (j : Journal)

theorem play_append :
    play (before ++ after) s j =
      let r := play before s j
      play after r.1 r.2 := by
  induction before generalizing s j with
  | nil => rfl
  | cons i before ih =>
      exact ih (handle i s j).1 (handle i s j).2

theorem frameEnds_append :
    frameEnds (before ++ after) s j =
      let r := play before s j
      frameEnds before s j ++ frameEnds after r.1 r.2 := by
  induction before generalizing s j with
  | nil => rfl
  | cons i before ih =>
      have hRest := ih (handle i s j).1 (handle i s j).2
      simp only [List.cons_append, frameEnds, hRest]
      split <;> rfl

theorem frameEnds_of_runs
    {i : Input}
    (h : i.runs s = true) :
    frameEnds (i :: after) s j =
      let r := handle i s j
      r.1.machine :: frameEnds after r.1 r.2 := by
  rw [frameEnds, if_pos h]

/- A frame in the middle of a history. -/
theorem frameEnds_through
    {i : Input}
    {t : Session}
    {k : Journal}
    (hPast : play before s j = (t, k))
    (h : i.runs t = true) :
    frameEnds (before ++ i :: after) s j =
      let r := handle i t k
      frameEnds before s j ++
        r.1.machine :: frameEnds after r.1 r.2 := by
  rw [frameEnds_append, hPast]
  dsimp only
  rw [frameEnds_of_runs after t k h]

theorem frameEnds_of_not_runs
    {i : Input}
    (h : i.runs s = false) :
    frameEnds (i :: after) s j =
      let r := handle i s j
      frameEnds after r.1 r.2 := by
  have hNot : ¬ i.runs s = true := by
    rw [h]
    decide
  rw [frameEnds, if_neg hNot]

end Histories

------------------------------------------------------------
-- The End Of A Session
------------------------------------------------------------

/-
  Whether an input ends a session: Escape, or a frame that
  fails or leaves the processor stopped.
-/
def Ends
    (i : Input)
    (s : Session)
    (j : Journal) : Prop :=
  match i with
  | .key k held => k = .escape ∧ held = true
  | .update _ =>
      let r := (s.machine.runFrame j).1
      s.shouldExit = false ∧
        ((∃ e, r.1 = .error e) ∨ r.2.cpu.stopped = true)

theorem shouldExit_handle_iff
    (i : Input)
    (s : Session)
    (j : Journal) :
    (handle i s j).1.shouldExit = true ↔
      s.shouldExit = true ∨ Ends i s j := by
  cases i with
  | key k held =>
      change (s.handleKey k held j).1.shouldExit = true ↔ _
      rw [handleKey_eq]
      simp [Ends, or_comm]
  | update screen =>
      change (s.update screen j).1.1.shouldExit = true ↔ _
      cases h : s.shouldExit with
      | true =>
          rw [update_of_over s j h]
          simp [h]
      | false =>
          rcases hFrame : (s.machine.runFrame j).1 with ⟨r, n⟩
          rw [session_update s j h hFrame]
          unfold Ends afterFrame
          rw [hFrame]
          cases r <;> simp [h, Except.isOk, Except.toBool]

/-
  A session is over once an input has ended it, and then for
  good.
-/
theorem shouldExit_play_iff
    (is : List Input)
    (s : Session)
    (j : Journal) :
    (play is s j).1.shouldExit = true ↔
      s.shouldExit = true ∨
        ∃ before i after,
          is = before ++ i :: after ∧
            let r := play before s j
            Ends i r.1 r.2 := by
  induction is generalizing s j with
  | nil =>
      constructor
      · intro hOver
        exact .inl hOver
      · rintro (hOver | ⟨before, i, after, hNil, -⟩)
        · exact hOver
        · cases before <;> cases hNil
  | cons i is ih =>
      have hRest := ih (handle i s j).1 (handle i s j).2
      rw [shouldExit_handle_iff, or_assoc] at hRest
      apply hRest.trans
      apply or_congr Iff.rfl
      constructor
      · rintro (hEnds | ⟨before, i', after, rfl, hEnds⟩)
        · exact ⟨[], i, is, rfl, hEnds⟩
        · exact ⟨i :: before, i', after, rfl, hEnds⟩
      · rintro ⟨before, i', after, hSplit, hEnds⟩
        cases before with
        | nil =>
            cases hSplit
            exact .inl hEnds
        | cons i before =>
            cases hSplit
            exact .inr ⟨before, i', after, rfl, hEnds⟩

end Session

end Dmg
