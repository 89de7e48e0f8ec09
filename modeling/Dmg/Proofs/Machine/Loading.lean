import Dmg.Proofs.Lcd.Batching
import Dmg.Proofs.Machine.Action

/-
  Loading an image, and what is left of the past after it.

  An image that is refused changes nothing.  One that is
  accepted is all that a machine keeps, so two machines that
  load it cannot be told apart by anything that is done to
  them later.  What has been reported does not tell them apart
  either: no part of a machine reads the journal.

  Key definitions include:
    * `Journaled.Blind`
    * `Raster.Agree`

  Main results:
    * `Machine.run_blind`
    * `Machine.perform_rom`
    * `Machine.loading`
-/

namespace Dmg

------------------------------------------------------------
-- Boards Without A Journal
------------------------------------------------------------

/- A board on which reports are dropped. -/
instance : Bus Board where
  read addr b := (b.read addr, b)
  write addr v b := b.write addr v
  interrupts b := b.interrupts
  setInterrupts ic b := { b with interrupts := ic }
  note _ b := b

/- The processor does the same on it. -/
theorem Wired.translation_board :
    Bus.Translation Wired.board where
  read _ _ := rfl
  write _ _ _ := rfl
  interrupts _ := rfl
  setInterrupts _ _ := rfl
  note _ _ := rfl

------------------------------------------------------------
-- The Raster
------------------------------------------------------------

namespace Raster

/- Two rasters that differ at most in their journals. -/
structure Agree
    (q r : Raster) : Prop where
  lcd : r.lcd = q.lcd
  interrupts : r.interrupts = q.interrupts

section Agreement

variable {q r : Raster}

/- Operations that do not look at the journal agree. -/
theorem Agree.ext
    (h : Agree q r) :
    ∃ journal,
      r = ⟨q.lcd, q.interrupts, journal⟩ := by
  rcases q with ⟨lcd, ic, j⟩
  rcases r with ⟨lcd', ic', k⟩
  rcases h with ⟨hLcd, hInterrupts⟩
  cases hLcd
  cases hInterrupts
  exact ⟨k, rfl⟩

theorem Agree.requestStatus
    (h : Agree q r)
    (m n : Message) :
    Agree (q.requestStatus m) (r.requestStatus n) := by
  rcases h.ext with ⟨journal, rfl⟩
  unfold Raster.requestStatus
  dsimp only
  split <;> exact ⟨rfl, rfl⟩

theorem Agree.requestSelected
    (h : Agree q r)
    (select : Option Nat)
    (m n : Message) :
    Agree (q.requestSelected select m)
      (r.requestSelected select n) := by
  cases select with
  | none => exact h
  | some i =>
      unfold Raster.requestSelected
      simp only [h.lcd]
      split
      · exact h.requestStatus m n
      · exact h

theorem Agree.completeFrame
    (h : Agree q r) :
    Agree q.completeFrame r.completeFrame := by
  rcases h.ext with ⟨journal, rfl⟩
  exact ⟨rfl, rfl⟩

theorem Agree.mapLcd
    (h : Agree q r)
    (f : Lcd → Lcd) :
    Agree (q.mapLcd f) (r.mapLcd f) := by
  rcases h.ext with ⟨journal, rfl⟩
  exact ⟨rfl, rfl⟩

theorem Agree.setClock
    (h : Agree q r)
    (last residue : Nat) :
    Agree (q.setClock last residue)
      (r.setClock last residue) := by
  rcases h.ext with ⟨journal, rfl⟩
  exact ⟨rfl, rfl⟩

theorem Agree.enter
    (h : Agree q r)
    (mode : Mode) :
    Agree (q.enter mode) (r.enter mode) := by
  have hMoved :
      Agree (q.mapBeam fun b => { b with mode := mode })
        (r.mapBeam fun b => { b with mode := mode }) :=
    h.mapLcd _
  unfold Raster.enter
  dsimp only
  split
  · exact hMoved.completeFrame.requestSelected _ _ _
  · exact hMoved.requestSelected _ _ _

theorem Agree.reachLine
    (h : Agree q r)
    (line : Nat) :
    Agree (q.reachLine line) (r.reachLine line) := by
  have hMoved :
      Agree (q.mapBeam fun b => { b with line := line })
        (r.mapBeam fun b => { b with line := line }) :=
    h.mapLcd _
  unfold Raster.reachLine
  simp only [hMoved.lcd]
  split
  · exact hMoved.requestSelected _ _ _
  · exact hMoved

theorem Agree.transition
    (vram : VideoRam)
    (oam : SpriteRam)
    (h : Agree q r) :
    Agree (q.transition vram oam)
      (r.transition vram oam) := by
  unfold Raster.transition
  simp only [h.lcd]
  cases q.lcd.beam.mode with
  | oamScan => exact h.enter _
  | vramRead => exact (h.mapLcd _).enter _
  | hblank => exact (h.reachLine _).enter _
  | vblank =>
      dsimp only
      split
      · exact ((h.mapLcd _).reachLine 0).enter _
      · exact h.reachLine _

theorem Agree.drain
    (vram : VideoRam)
    (oam : SpriteRam)
    (ticks : Nat)
    (h : Agree q r) :
    Agree (q.drain vram oam ticks)
      (r.drain vram oam ticks) := by
  induction ticks, q using Raster.drain.induct vram oam
    generalizing r with
  | case1 ticks q hDue ih =>
      have hDue' : r.lcd.beam.mode.budget ≤ ticks := by
        rw [h.lcd]
        exact hDue
      rw [drain_of_due vram oam hDue,
        drain_of_due vram oam hDue', h.lcd]
      exact ih (h.transition vram oam)
  | case2 ticks q hShort =>
      have hShort' : ¬ r.lcd.beam.mode.budget ≤ ticks := by
        rw [h.lcd]
        exact hShort
      rw [drain_of_short vram oam hShort,
        drain_of_short vram oam hShort', h.lcd]
      exact h.setClock _ _

/- Time passes alike whatever has been reported. -/
theorem Agree.advanceTo
    (vram : VideoRam)
    (oam : SpriteRam)
    (now : Nat)
    (h : Agree q r) :
    Agree (q.advanceTo vram oam now)
      (r.advanceTo vram oam now) := by
  unfold Raster.advanceTo
  simp only [h.lcd]
  exact (h.mapLcd _).drain vram oam _

end Agreement

end Raster

------------------------------------------------------------
-- What Has Been Reported Does Not Matter
------------------------------------------------------------

/- An activity whose result no journal changes. -/
def Journaled.Blind
    {α : Type}
    (x : Journaled α) : Prop :=
  ∀ j k, (x j).1 = (x k).1

theorem Board.advance_blind
    (ticks now : Nat)
    (b : Board) :
    Journaled.Blind (b.advance ticks now) := by
  intro j k
  let ic := (b.timer.tick ticks b.interrupts).2
  have hStart : Raster.Agree ⟨b.lcd, ic, j⟩ ⟨b.lcd, ic, k⟩ :=
    ⟨rfl, rfl⟩
  obtain ⟨hLcd, hInterrupts⟩ :=
    hStart.advanceTo b.videoRam b.spriteRam now
  have hAdvanced (l : Journal) :
      (b.advance ticks now l).1 =
        let r := Raster.advanceTo b.videoRam b.spriteRam now
          ⟨b.lcd, ic, l⟩
        { b with
          timer := (b.timer.tick ticks b.interrupts).1
          lcd := r.lcd
          interrupts := r.interrupts } := rfl
  simp only [hAdvanced, hLcd, hInterrupts]

namespace Machine

theorem core_blind
    (m : Machine)
    (j k : Journal) :
    let s := (m.core j).step
    let t := (m.core k).step
    t.1 = s.1 ∧ t.2.cpu = s.2.cpu ∧
      t.2.bus.board = s.2.bus.board := by
  intro s t
  have hStep (l : Journal) :
      Core.mapAnswer Wired.board (m.core l).step =
        (⟨m.cpu, m.board⟩ : Core Board).step :=
    (Core.step_map Wired.translation_board (m.core l)).symm
  have hSame :
      Core.mapAnswer Wired.board t =
        Core.mapAnswer Wired.board s := by
    rw [hStep k, hStep j]
  exact ⟨(congrArg (fun r => r.1) hSame :),
    (congrArg (fun r => r.2.cpu) hSame :),
    (congrArg (fun r => r.2.bus) hSame :)⟩

theorem step_blind
    (m : Machine) :
    Journaled.Blind m.step := by
  intro j k
  obtain ⟨hResult, hCpu, hBoard⟩ := m.core_blind j k
  rcases m.step_outcome j with
    ⟨e, hError, hStep⟩ | ⟨cost, hOk, hStep⟩
  · rw [hError] at hResult
    rcases m.step_outcome k with
      ⟨e', hError', hStep'⟩ | ⟨cost', hOk', -⟩
    · rw [hResult] at hError'
      cases hError'
      rw [hStep, hStep', hCpu, hBoard]
    · rw [hResult] at hOk'
      cases hOk'
  · rw [hOk] at hResult
    rcases m.step_outcome k with
      ⟨e', hError', -⟩ | ⟨cost', hOk', hStep'⟩
    · rw [hResult] at hError'
      cases hError'
    · rw [hResult] at hOk'
      cases hOk'
      rw [hStep, hStep', hCpu, hBoard]
      simp only
      rw [Board.advance_blind _ _ _ _
        (m.core k).step.2.bus.journal]

theorem runUntil_blind
    (deadline fuel : Nat)
    (m : Machine) :
    Journaled.Blind (runUntil deadline fuel m) := by
  induction fuel generalizing m with
  | zero =>
      intro j k
      rfl
  | succ fuel ih =>
      intro j k
      have hStep := m.step_blind j k
      unfold runUntil
      split
      · rcases hFirst : m.step j with ⟨⟨result, n⟩, j'⟩
        rcases hSecond : m.step k with ⟨⟨result', n'⟩, k'⟩
        rw [hFirst, hSecond] at hStep
        cases hStep
        cases result with
        | error e => rfl
        | ok cost =>
            simp only
            split
            · rfl
            · exact ih n j' k'
      · rfl

theorem runFrame_blind
    (m : Machine) :
    Journaled.Blind m.runFrame :=
  runUntil_blind (m.ticks + frameTicks) frameTicks m

theorem setButton_blind
    (button : Button)
    (held : Bool)
    (m : Machine) :
    Journaled.Blind (m.setButton button held) := by
  intro j k
  unfold setButton
  cases m.board.presses button held <;> rfl

theorem loadImage_blind
    (image : Array UInt8)
    (m : Machine) :
    Journaled.Blind (m.loadImage image) := by
  intro j k
  cases h : Cartridge.ofBytes image with
  | error e =>
      rw [loadImage_of_error h, loadImage_of_error h]
  | ok c =>
      rw [loadImage_of_ok h, loadImage_of_ok h]

theorem perform_blind
    (a : Action)
    (m : Machine) :
    Journaled.Blind (m.perform a) := by
  intro j k
  cases a with
  | step =>
      exact (congrArg (fun r => (Answer.stepped r.1, r.2))
        (m.step_blind j k) :)
  | runFrame =>
      have hSame := m.runFrame_blind j k
      rcases hFirst : m.runFrame j with ⟨⟨r, n⟩, j'⟩
      rcases hSecond : m.runFrame k with ⟨⟨r', n'⟩, k'⟩
      rw [hFirst, hSecond] at hSame
      cases hSame
      rw [perform_runFrame hFirst, perform_runFrame hSecond]
  | setButton button held =>
      exact (congrArg (Prod.mk Answer.done)
        (m.setButton_blind button held j k) :)
  | handleKey key held =>
      simp only [perform, handleKey]
      cases key.button? with
      | none => rfl
      | some button =>
          exact (congrArg (Prod.mk Answer.done)
            (m.setButton_blind button held j k) :)
  | read addr => rfl
  | write addr v => rfl
  | request i => rfl
  | reset => rfl
  | load image =>
      exact (congrArg (fun r => (Answer.loaded r.1, r.2))
        (m.loadImage_blind image j k) :)

/-
  The answers of a run and the machine it leads to do not
  depend on what has been reported before.
-/
theorem run_blind
    (as : List Action)
    (m : Machine) :
    Journaled.Blind (m.run as) := by
  induction as generalizing m with
  | nil =>
      intro j k
      rfl
  | cons a as ih =>
      intro j k
      have hFirst := m.perform_blind a j k
      rcases hj : m.perform a j with ⟨⟨answer, n⟩, j'⟩
      rcases hk : m.perform a k with ⟨⟨answer', n'⟩, k'⟩
      rw [hj, hk] at hFirst
      cases hFirst
      simp only [run, hj, hk]
      exact (congrArg (fun r => (answer :: r.1, r.2))
        (ih n j' k') :)

end Machine

------------------------------------------------------------
-- The Image
------------------------------------------------------------

/- No write changes the image. -/
theorem Board.rom_write
    (b : Board)
    (addr : UInt16)
    (v : UInt8) :
    (b.write addr v).rom = b.rom := by
  unfold write
  cases Location.ofAddress addr with
  | videoRam i =>
      change (b.writeVideo i v).rom = b.rom
      unfold writeVideo
      split <;> rfl
  | spriteCopy =>
      rcases copySprites_cases b v with
        ⟨ram, registers, -, -, hCopy⟩
      change (b.copySprites v).rom = b.rom
      rw [hCopy]
  | _ => rfl

/- The image is what is read below 0x8000. -/
theorem Board.read_rom
    (b : Board)
    {addr : UInt16}
    (h : addr.toNat < 0x8000) :
    b.read addr = b.rom.get ⟨addr.toNat, h⟩ := by
  have hLocation :
      Location.ofAddress addr = .rom ⟨addr.toNat, h⟩ := by
    unfold Location.ofAddress
    simp only [h, dif_pos]
  unfold read
  rw [hLocation]
  rfl

theorem Wired.invariant_rom
    (rom : Vector UInt8 romSize) :
    Bus.Invariant fun w : Wired => w.board.rom = rom where
  read _ _ h := h
  write addr v w h := (w.board.rom_write addr v).trans h
  setInterrupts _ _ h := h
  note _ _ h := h

namespace Machine

/- Nothing but a restart could change the image. -/
theorem kept_rom
    (rom : Vector UInt8 romSize) :
    Kept fun m => m.board.rom = rom where
  step m journal h := by
    have hExecuted :=
      Core.step_invariant (Wired.invariant_rom rom)
        (s := m.core journal) h
    rcases m.step_outcome journal with
      ⟨e, -, hStep⟩ | ⟨cost, -, hStep⟩
    · rw [hStep]
      exact hExecuted
    · rw [hStep]
      exact hExecuted
  takeFrame _ h := h
  setButton button held m journal h := by
    unfold Machine.setButton
    cases m.board.presses button held <;> exact h
  write addr v m _ h := (m.board.rom_write addr v).trans h
  request _ _ h := h

/- Only putting in a cartridge changes the image. -/
theorem perform_rom
    {a : Action}
    (h : a.loads = false)
    (m : Machine)
    (journal : Journal) :
    (m.perform a journal).1.2.board.rom = m.board.rom := by
  cases hRestarts : a.restarts with
  | false =>
      exact perform_kept (kept_rom m.board.rom) hRestarts rfl
        journal
  | true =>
      cases a with
      | reset => rfl
      | load image =>
          unfold Action.restarts at hRestarts
          rw [h] at hRestarts
          cases hRestarts
      | _ => cases hRestarts

theorem run_rom
    {as : List Action}
    (h : ∀ a ∈ as, a.loads = false)
    (m : Machine)
    (journal : Journal) :
    (m.afterRun as journal).board.rom = m.board.rom := by
  apply run_of_perform
    (P := fun n => n.board.rom = m.board.rom)
  · intro a ha n j hn
    exact (perform_rom (h a ha) n j).trans hn
  · rfl

end Machine

------------------------------------------------------------
-- Loading
------------------------------------------------------------

/- A cartridge holds the image that it was accepted with. -/
theorem Cartridge.toArray_of_ofBytes
    {image : Array UInt8}
    {c : Cartridge}
    (h : ofBytes image = .ok c) :
    c.rom.toArray = image := by
  unfold ofBytes at h
  split at h
  · cases h
  · dsimp only at h
    split at h
    · cases h
    · split at h
      · cases h
      · split at h
        · cases h
          rfl
        · cases h

namespace Machine

/-
  An image is refused without a trace, or it is all that is
  left of a machine.

  In the second case any other machine that loads it is in the
  same state, whatever had been reported on either, and has
  the same answers to the same actions.  Until a cartridge is
  put in again the image is what is read below 0x8000, and a
  reset brings back the state right after the load.
-/
theorem loading
    (image : Array UInt8)
    (m : Machine)
    (j : Journal) :
    (∀ e n k,
        m.loadImage image j = ((.error e, n), k) →
          n = m ∧ k = j) ∧
      ∀ n k,
        m.loadImage image j = ((.ok (), n), k) →
          (∀ (m' : Machine) j',
            (m'.loadImage image j').1 = (.ok (), n) ∧
              ∀ as l l',
                ((m'.loadImage image j').1.2.run as l').1 =
                  (n.run as l).1) ∧
            ∀ as l,
              (∀ a ∈ as, a.loads = false) →
                let p := n.afterRun as l
                (∀ addr : UInt16,
                  addr.toNat < 0x8000 →
                    image[addr.toNat]? = some (p.read addr)) ∧
                  ∀ l', (p.reset l').1 = n := by
  rcases m.loadImage_cases image j with
    ⟨e, -, hLoad⟩ | ⟨c, hAccepted, hLoad⟩
  · rw [hLoad]
    constructor
    · intro e' n k hSame
      cases hSame
      exact ⟨rfl, rfl⟩
    · intro n k hSame
      cases hSame
  · rw [hLoad]
    constructor
    · intro e n k hSame
      cases hSame
    · intro n k hSame
      cases hSame
      refine ⟨?_, ?_⟩
      · intro m' j'
        rw [loadImage_of_ok hAccepted]
        refine ⟨rfl, ?_⟩
        intro as l l'
        exact run_blind as _ l' l
      · intro as l hNoLoad p
        have hRom : p.board.rom = c.rom := run_rom hNoLoad _ l
        refine ⟨?_, ?_⟩
        · intro addr hLow
          have hRead : p.read addr = c.rom[addr.toNat] := by
            change p.board.read addr = _
            rw [p.board.read_rom hLow, hRom]
            rfl
          rw [hRead, ← Cartridge.toArray_of_ofBytes hAccepted]
          exact Array.getElem?_eq_getElem _
        · intro l'
          change
            ({ board := { rom := p.board.rom } } : Machine) = _
          rw [hRom]

/- A machine that has been used, unlike a new one. -/
def used : Machine :=
  { cpu := { halted := true }, ticks := 1000 }

/-
  An image without bytes is refused, and one whose program is
  a HALT makes a used machine like a new one.
-/
theorem loading_halt :
    (∃ e n k,
        used.loadImage #[] {} = ((.error e, n), k) ∧
          n = used ∧ k = {}) ∧
      let image := (Cartridge.beginningWith 0x76).rom.toArray
      ∃ n k,
        used.loadImage image {} = ((.ok (), n), k) ∧
          (Machine.loadImage image {} {}).1 = (.ok (), n) ∧
          let p := n.afterRun [.step, .write 0x0100 0x12] {}
          image[0x0100]? = some (p.read 0x0100) ∧
            (p.reset {}).1 = n := by
  constructor
  · have hRefused :
        Cartridge.ofBytes #[] =
          .error (.malformed (.tooSmall 0)) := rfl
    have hLoad := loadImage_of_error hRefused used {}
    exact ⟨_, _, _, hLoad,
      (loading #[] used {}).1 _ _ _ hLoad⟩
  · intro image
    have hLoad :=
      loadImage_of_ok (Cartridge.ofBytes_beginningWith 0x76)
        used {}
    obtain ⟨hSame, hAfter⟩ :=
      (loading image used {}).2 _ _ hLoad
    obtain ⟨hRead, hReset⟩ :=
      hAfter [.step, .write 0x0100 0x12] {}
        (by simp [Action.loads])
    exact ⟨_, _, hLoad, (hSame {} {}).1,
      hRead 0x0100 (by decide), hReset {}⟩

end Machine

end Dmg
