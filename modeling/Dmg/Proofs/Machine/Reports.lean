import Dmg.Proofs.Lcd.Batching
import Dmg.Proofs.Machine.Frame

/-
  What a machine reports while it runs.

  The processor, the writes on its bus and the LCD controller
  have reports of their own.  A step or a frame adds no others
  to a journal, and takes none from it.

  Key definitions include:
    * `Message.ofMachine`
    * `Journal.Grown`
    * `Journal.only`

  Main results:
    * `Raster.grown_advanceTo`
    * `Machine.grown_step`
    * `Machine.grown_runFrame`
-/

namespace Dmg

/- Whether a message is one that a running machine reports. -/
def Message.ofMachine : Message → Bool
  | .romWriteIgnored .. | .spriteCopy _ | .lcdSwitched _
  | .vblankEntered _ | .modeRequest .. | .lineRequest _ =>
      true
  | m => m.ofProcessor

theorem Message.ofMachine_of_ofProcessor
    {m : Message}
    (h : m.ofProcessor = true) :
    m.ofMachine = true := by
  cases m <;> first | rfl | exact h

------------------------------------------------------------
-- Journals
------------------------------------------------------------

/- Only reports of one kind have been added to a journal. -/
def Journal.Grown
    (kind : Message → Bool)
    (j k : Journal) : Prop :=
  ∃ ms, (∀ m ∈ ms, kind m = true) ∧ k = j.noteAll ms

namespace Journal.Grown

variable {kind : Message → Bool} {j k l : Journal}

theorem refl
    (j : Journal) :
    Grown kind j j := by
  refine ⟨[], ?_, rfl⟩
  intro m hm
  cases hm

theorem trans
    (hjk : Grown kind j k)
    (hkl : Grown kind k l) :
    Grown kind j l := by
  obtain ⟨ms, hms, rfl⟩ := hjk
  obtain ⟨ns, hns, rfl⟩ := hkl
  refine ⟨ms ++ ns, ?_, ?_⟩
  · intro m hm
    rcases List.mem_append.mp hm with hFirst | hLast
    · exact hms m hFirst
    · exact hns m hLast
  · exact List.foldl_append.symm

theorem note
    (h : Grown kind j k)
    {m : Message}
    (hm : kind m = true) :
    Grown kind j (k.note m) := by
  refine h.trans ⟨[m], ?_, rfl⟩
  intro n hn
  rw [List.mem_singleton.mp hn]
  exact hm

/- What is kept does not change. -/
theorem limit
    (h : Grown kind j k) :
    k.limit = j.limit := by
  obtain ⟨ms, -, rfl⟩ := h
  exact limit_noteAll ms j

end Journal.Grown

/- A journal with no more than the reports of one kind. -/
def Journal.only
    (kind : Message → Bool)
    (j : Journal) : Journal :=
  { j with entries := j.entries.filter kind }

/- Of a report nothing is seen unless it is of the kind. -/
theorem Journal.only_note
    (kind : Message → Bool)
    (j : Journal)
    (m : Message) :
    (j.note m).only kind =
      if kind m then (j.only kind).note m
      else j.only kind := by
  unfold note only
  split <;> cases h : kind m <;> simp [h]

theorem Journal.Grown.only_eq
    {kind other : Message → Bool}
    {j k : Journal}
    (h : Grown kind j k)
    (hOther : ∀ m, kind m = true → other m = false) :
    k.only other = j.only other := by
  obtain ⟨ms, hms, rfl⟩ := h
  induction ms generalizing j with
  | nil => rfl
  | cons m ms ih =>
      have hRest := ih (j := j.note m) fun n hn =>
        hms n (List.mem_cons_of_mem m hn)
      have hFirst : other m = false :=
        hOther m (hms m List.mem_cons_self)
      rw [only_note, hFirst] at hRest
      exact hRest

open Journal

------------------------------------------------------------
-- The LCD Controller
------------------------------------------------------------

namespace Raster

variable {kind : Message → Bool} {j : Journal} {r : Raster}

theorem grown_requestStatus
    (h : Grown kind j r.journal)
    {m : Message}
    (hm : kind m = true) :
    Grown kind j (r.requestStatus m).journal := by
  rcases r with ⟨lcd, ic, journal⟩
  unfold requestStatus
  dsimp only
  split
  · exact h.note hm
  · exact h

theorem grown_requestSelected
    (h : Grown kind j r.journal)
    (select : Option Nat)
    {m : Message}
    (hm : kind m = true) :
    Grown kind j (r.requestSelected select m).journal := by
  unfold requestSelected
  cases select with
  | none => exact h
  | some i =>
      dsimp only
      split
      · exact grown_requestStatus h hm
      · exact h

theorem grown_enter
    (h : Grown Message.ofMachine j r.journal)
    (mode : Mode) :
    Grown Message.ofMachine j (r.enter mode).journal := by
  unfold enter
  apply grown_requestSelected _ _ rfl
  split
  · exact h.note rfl
  · exact h

theorem grown_reachLine
    (h : Grown Message.ofMachine j r.journal)
    (line : Nat) :
    Grown Message.ofMachine j (r.reachLine line).journal := by
  unfold reachLine
  dsimp only
  split
  · apply grown_requestSelected _ _ rfl
    exact h
  · exact h

variable (vram : VideoRam) (oam : SpriteRam)

theorem grown_transition
    (h : Grown Message.ofMachine j r.journal) :
    Grown Message.ofMachine j
      (r.transition vram oam).journal := by
  unfold transition
  cases r.lcd.beam.mode with
  | oamScan => exact grown_enter h _
  | vramRead =>
      exact grown_enter
        (r := r.mapLcd (·.drawLine vram oam)) h _
  | hblank => exact grown_enter (grown_reachLine h _) _
  | vblank =>
      dsimp only
      split
      · apply grown_enter
        apply grown_reachLine
        exact h
      · exact grown_reachLine h _

/- The controller reports frames, modes and lines. -/
theorem grown_advanceTo
    (now : Nat)
    (r : Raster) :
    Grown Message.ofMachine r.journal
      (r.advanceTo vram oam now).journal := by
  apply advanceTo_invariant vram oam
    (P := fun q => Grown Message.ofMachine r.journal q.journal)
  · intro q h
    exact grown_transition vram oam h
  · intro last residue q h
    exact h
  · exact .refl r.journal

end Raster

------------------------------------------------------------
-- The Bus
------------------------------------------------------------

/- What is reported of a write is the machine's. -/
theorem Board.ofMachine_of_writeEvent?
    {b : Board}
    {addr : UInt16}
    {v : UInt8}
    {m : Message}
    (h : b.writeEvent? addr v = some m) :
    m.ofMachine = true := by
  unfold writeEvent? at h
  cases hLoc : Location.ofAddress addr with
  | rom i =>
      rw [hLoc] at h
      cases h
      rfl
  | lcd x =>
      rw [hLoc] at h
      cases x with
      | control =>
          dsimp only at h
          split at h
          · cases h
          · cases h
            rfl
      | _ => cases h
  | spriteCopy =>
      rw [hLoc] at h
      cases h
      rfl
  | _ =>
      rw [hLoc] at h
      cases h

theorem Wired.steady_grown
    (j : Journal) :
    Bus.Steady fun w : Wired =>
      Grown Message.ofMachine j w.journal where
  read _ _ h := h
  write addr v w h := by
    rcases w with ⟨board, journal⟩
    cases hEvent : board.writeEvent? addr v with
    | none =>
        simp only [Bus.write, Wired.write, hEvent]
        exact h
    | some m =>
        simp only [Bus.write, Wired.write, hEvent]
        exact h.note (Board.ofMachine_of_writeEvent? hEvent)
  setMaster _ _ h := h
  note _ _ hm h := h.note (Message.ofMachine_of_ofProcessor hm)

------------------------------------------------------------
-- Machines
------------------------------------------------------------

namespace Machine

/- A step adds reports of the machine to a journal. -/
theorem grown_step
    (m : Machine)
    (journal : Journal) :
    Grown Message.ofMachine journal (m.step journal).2 := by
  have hGranted :
      (m.core journal).granted.journal = journal := by
    unfold Core.granted
    split <;> rfl
  have hStart :
      Grown Message.ofMachine journal
        (m.core journal).granted.journal := by
    rw [hGranted]
    exact .refl journal
  have hCore :
      Grown Message.ofMachine journal
        (m.core journal).step.2.bus.journal :=
    Core.step_steady (Wired.steady_grown journal) hStart
  rcases m.step_outcome journal with
    ⟨e, -, hStep⟩ | ⟨cost, -, hStep⟩
  · rw [hStep]
    exact hCore
  · rw [hStep]
    exact hCore.trans
      (Raster.grown_advanceTo _ _ _
        ⟨_, _, (m.core journal).step.2.bus.journal⟩)

theorem grown_of_step
    {m n : Machine}
    {j k : Journal}
    {result : StepResult}
    (h : m.step j = ((result, n), k)) :
    Grown Message.ofMachine j k := by
  have hGrown := m.grown_step j
  rw [h] at hGrown
  exact hGrown

/- So does a frame. -/
theorem grown_runFrame
    (m : Machine)
    (journal : Journal) :
    Grown Message.ofMachine journal
      (m.runFrame journal).2 := by
  have hLoop := m.frameLoop_runFrame journal
  generalize m.ticks + frameTicks = deadline at hLoop
  generalize m.runFrame journal = r at hLoop ⊢
  induction hLoop with
  | ended => exact .refl _
  | failed h hStep => exact grown_of_step hStep
  | completed h hStep hReady => exact grown_of_step hStep
  | again h hStep hReady hRest ih =>
      exact (grown_of_step hStep).trans ih

end Machine

end Dmg
