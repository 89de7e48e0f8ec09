import Dmg.Proofs.Lcd.Picture
import Dmg.Proofs.Machine.Loading
import Dmg.Proofs.Session
import Dmg.Snapshot

/-
  The frames that are run for a picture, against those that a
  session shows.

  A session that is given no keys stops for a fault or for
  STOP, and then keeps its machine.  The program that records
  frames stops for the same reasons.  Up to there the two have
  the same machine after every frame, since no frame depends
  on what has been reported.

  Key definitions include:
    * `Session.watched`
    * `Session.Faults`

  Main results:
    * `Session.watched_of_faults`
    * `Session.watched_over_iff`
    * `Session.watched_shows`
    * `Snapshot.runFrames_cases`
    * `Snapshot.runFrames_reaches`
    * `Snapshot.runFrames_of_fine`
    * `Snapshot.runFrames_of_faults`
-/

namespace Dmg

/- A buffer as large as the picture takes all of it. -/
theorem Machine.drawInto_of_size
    {m : Machine}
    {buffer : Array UInt8}
    (h : buffer.size = m.videoBytes.size) :
    m.drawInto buffer = m.videoBytes := by
  have hNone :
      buffer.extract m.videoBytes.size buffer.size = #[] :=
    Array.extract_empty_of_stop_le_start (Nat.le_of_eq h)
  unfold drawInto
  dsimp only
  rw [hNone, h, Array.extract_size, Array.append_empty]

namespace Session

------------------------------------------------------------
-- Sessions Without Keys
------------------------------------------------------------

/- A session, its screen and its journal after some updates. -/
def watched
    (screen : Array UInt8)
    (s : Session)
    (j : Journal) : Nat → (Session × Array UInt8) × Journal
  | 0 => ((s, screen), j)
  | k + 1 =>
      let r := watched screen s j k
      r.1.1.update r.1.2 r.2

/- The frame that an update would run fails. -/
structure Faults
    (s : Session)
    (e : DecodeFault) : Prop where
  running : s.shouldExit = false
  fails : ∀ j, (s.machine.runFrame j).1.1 = .error e

/- One frame that fails is enough to tell. -/
theorem faults_of_frame
    {s : Session}
    {l : Journal}
    {e : DecodeFault}
    {n : Machine}
    (h : s.shouldExit = false)
    (hFrame : (s.machine.runFrame l).1 = (.error e, n)) :
    s.Faults e := by
  refine ⟨h, ?_⟩
  intro j
  rw [s.machine.runFrame_blind j l, hFrame]

section Watched

variable (screen : Array UInt8)
variable (s : Session) (j : Journal)

/- A session that is over does not change. -/
theorem watched_of_over
    {k : Nat}
    (h : (watched screen s j k).1.1.shouldExit = true)
    (i : Nat) :
    watched screen s j (k + i) = watched screen s j k := by
  induction i with
  | zero => rfl
  | succ i ih =>
      change
        (watched screen s j (k + i)).1.1.update
          (watched screen s j (k + i)).1.2
          (watched screen s j (k + i)).2 = _
      rw [ih, update_of_over _ _ h]

/- Any other takes the result of a frame, and shows it. -/
theorem watched_succ
    {k : Nat}
    (h : (watched screen s j k).1.1.shouldExit = false)
    {l : Journal}
    {r : Machine.FrameResult × Machine}
    (hFrame :
      ((watched screen s j k).1.1.machine.runFrame l).1 = r) :
    (watched screen s j (k + 1)).1 =
      ((watched screen s j k).1.1.afterFrame r,
        r.2.drawInto (watched screen s j k).1.2) := by
  have hSame :=
    (Machine.runFrame_blind _ (watched screen s j k).2 l).trans
      hFrame
  exact session_update _ _ h hSame _

/- From the first frame on a screen shows the last picture. -/
theorem watched_shows
    (hRunning : s.shouldExit = false)
    (hSize : screen.size = 69120)
    (k : Nat) :
    (watched screen s j (k + 1)).1.2 =
      (watched screen s j (k + 1)).1.1.machine.videoBytes := by
  have hDrawn {i : Nat}
      (hOn : (watched screen s j i).1.1.shouldExit = false)
      (hFits : (watched screen s j i).1.2.size = 69120) :
      (watched screen s j (i + 1)).1.2 =
        (watched screen s j (i + 1)).1.1.machine.videoBytes := by
    rw [watched_succ screen s j hOn (l := j) rfl]
    exact Machine.drawInto_of_size (hFits.trans
      (Picture.size_bytes _).symm)
  induction k with
  | zero => exact hDrawn hRunning hSize
  | succ k ih =>
      cases hOver :
          (watched screen s j (k + 1)).1.1.shouldExit with
      | true =>
          rw [watched_of_over screen s j hOver 1]
          exact ih
      | false =>
          apply hDrawn hOver
          rw [ih]
          exact Picture.size_bytes _

/-
  A frame that fails is the last one.  What it leaves of the
  machine stays.
-/
theorem watched_of_faults
    {d k : Nat}
    {e : DecodeFault}
    (h : (watched screen s j d).1.1.Faults e)
    (hLater : d < k)
    (l : Journal) :
    (watched screen s j k).1.1.shouldExit = true ∧
      (watched screen s j k).1.1.machine =
        ((watched screen s j d).1.1.machine.runFrame l).1.2 := by
  have hFails := h.fails l
  rcases hFrame :
      ((watched screen s j d).1.1.machine.runFrame l).1
    with ⟨r, n⟩
  rw [hFrame] at hFails
  cases hFails
  have hNext := watched_succ screen s j h.running hFrame
  have hOver :
      (watched screen s j (d + 1)).1.1.shouldExit = true := by
    rw [hNext]
    exact Bool.or_true _
  obtain ⟨i, rfl⟩ := Nat.exists_eq_add_of_lt hLater
  rw [Nat.add_right_comm, watched_of_over screen s j hOver i,
    hNext]
  exact ⟨Bool.or_true _, rfl⟩

/- Without a fault only STOP ends a session. -/
theorem watched_over_iff
    (hStart :
      s.shouldExit = true ↔ s.machine.cpu.stopped = true)
    {n : Nat}
    (hFine :
      ∀ d e, d < n → ¬ (watched screen s j d).1.1.Faults e) :
    (watched screen s j n).1.1.shouldExit = true ↔
      (watched screen s j n).1.1.machine.cpu.stopped = true := by
  induction n with
  | zero => exact hStart
  | succ n ih =>
      have hBefore := ih fun d e hd =>
        hFine d e (Nat.lt_succ_of_lt hd)
      cases hOver : (watched screen s j n).1.1.shouldExit with
      | true =>
          rw [watched_of_over screen s j hOver 1]
          exact hBefore
      | false =>
          rcases hFrame :
              ((watched screen s j n).1.1.machine.runFrame j).1
            with ⟨r, m⟩
          rw [watched_succ screen s j hOver hFrame]
          cases r with
          | ok _ => simp [afterFrame, Except.isOk, Except.toBool]
          | error e =>
              exact absurd (faults_of_frame hOver hFrame)
                (hFine n e (Nat.lt_succ_self n))

end Watched

end Session

namespace Snapshot

------------------------------------------------------------
-- Frames
------------------------------------------------------------

section Frames

variable {left frame : Nat} {m n : Machine} {j k : Journal}

theorem runFrames_of_error
    {e : DecodeFault}
    (h : m.runFrame j = ((.error e, n), k)) :
    runFrames (left + 1) frame m j =
      (.error (.emulation frame e), k) := by
  rw [runFrames, Journaled.bind_apply, h]
  rfl

theorem runFrames_of_stopped
    (h : m.runFrame j = ((.ok (), n), k))
    (hStopped : n.cpu.stopped = true) :
    runFrames (left + 1) frame m j =
      (.ok n, k.note (.stoppedAfter (frame + 1))) := by
  rw [runFrames, Journaled.bind_apply, h]
  dsimp only
  rw [if_pos hStopped]
  rfl

theorem runFrames_of_running
    (h : m.runFrame j = ((.ok (), n), k))
    (hRunning : n.cpu.stopped = false) :
    runFrames (left + 1) frame m j =
      runFrames left (frame + 1) n k := by
  have hNot : ¬ n.cpu.stopped = true := by
    rw [hRunning]
    decide
  rw [runFrames, Journaled.bind_apply, h]
  dsimp only
  rw [if_neg hNot]

end Frames

section Lockstep

variable (screen : Array UInt8)
variable (s : Session) (l : Journal)

open Session

/-
  What the program does with one more frame, when it has come
  to frame `d` with the machine of a session after `d`
  updates.
-/
theorem runFrames_cases
    {d : Nat}
    (hRunning : (watched screen s l d).1.1.shouldExit = false)
    (left : Nat)
    (j : Journal) :
    let here := watched screen s l d
    let next := watched screen s l (d + 1)
    let r := runFrames (left + 1) d here.1.1.machine j
    (∃ e, here.1.1.Faults e ∧ r.1 = .error (.emulation d e)) ∨
      (next.1.1.shouldExit = true ∧
        r.1 = .ok next.1.1.machine) ∨
      (next.1.1.shouldExit = false ∧
        ∃ k, r = runFrames left (d + 1) next.1.1.machine k) := by
  intro here next r
  rcases hRun : here.1.1.machine.runFrame j
    with ⟨⟨result, n⟩, k⟩
  have hFrame := congrArg Prod.fst hRun
  have hNext : next.1.1 = _ := congrArg Prod.fst
    (watched_succ screen s l hRunning hFrame)
  cases result with
  | error e =>
      refine .inl ⟨e, faults_of_frame hRunning hFrame, ?_⟩
      exact congrArg Prod.fst (runFrames_of_error hRun)
  | ok _ =>
      right
      rw [hNext]
      cases hStopped : n.cpu.stopped with
      | true =>
          left
          refine ⟨by rw [afterFrame, hStopped]; rfl, ?_⟩
          exact congrArg Prod.fst
            (runFrames_of_stopped hRun hStopped)
      | false =>
          right
          refine ⟨by rw [afterFrame, hStopped]; rfl, k, ?_⟩
          exact runFrames_of_running hRun hStopped

/- It comes to every frame with the machine of the session. -/
theorem runFrames_reaches
    {d i : Nat}
    (hRunning :
      (watched screen s l (d + i)).1.1.shouldExit = false)
    (left : Nat)
    (j : Journal) :
    ∃ k,
      runFrames (left + i) d (watched screen s l d).1.1.machine j =
        runFrames left (d + i)
          (watched screen s l (d + i)).1.1.machine k := by
  induction i generalizing left with
  | zero => exact ⟨j, rfl⟩
  | succ i ih =>
      have hNot :
          ¬ (watched screen s l (d + i + 1)).1.1.shouldExit =
            true := by
        rw [Nat.add_assoc, hRunning]
        decide
      have hBefore :
          (watched screen s l (d + i)).1.1.shouldExit = false := by
        rw [← Bool.not_eq_true]
        intro hOver
        apply hNot
        rw [watched_of_over screen s l hOver 1]
        exact hOver
      obtain ⟨k, hReached⟩ := ih hBefore (left + 1)
      have hCount : left + (i + 1) = left + 1 + i := by omega
      rw [hCount, hReached]
      rcases runFrames_cases screen s l hBefore left k with
        ⟨e, hFaults, -⟩ | ⟨hOver, -⟩ | ⟨-, k', hResult⟩
      · have hOver := (watched_of_faults screen s l hFaults
          (Nat.lt_succ_self _) l).1
        exact absurd hOver hNot
      · exact absurd hOver hNot
      · exact ⟨k', hResult⟩

/-
  If none of the frames to come fails, it ends with the
  machine that the session has after them.
-/
theorem runFrames_of_fine
    {left d : Nat}
    (hRunning : (watched screen s l d).1.1.shouldExit = false)
    (hFine :
      ∀ i e, d ≤ i → i < d + left →
        ¬ (watched screen s l i).1.1.Faults e)
    (j : Journal) :
    (runFrames left d (watched screen s l d).1.1.machine j).1 =
      .ok (watched screen s l (d + left)).1.1.machine := by
  induction left generalizing d j with
  | zero => rfl
  | succ left ih =>
      have hEnd : d + (left + 1) = d + 1 + left := by omega
      rcases runFrames_cases screen s l hRunning left j with
        ⟨e, hFaults, -⟩ |
          ⟨hOver, hResult⟩ |
          ⟨hNext, k, hResult⟩
      · exact absurd hFaults (hFine d e (Nat.le_refl d) (by omega))
      · rw [hResult, hEnd, watched_of_over screen s l hOver left]
      · rw [hResult, hEnd]
        apply ih hNext
        intro i e hFrom hTo
        exact hFine i e (by omega) (by omega)

/- If one of them fails, it says which. -/
theorem runFrames_of_faults
    {d i : Nat}
    {e : DecodeFault}
    (h : (watched screen s l (d + i)).1.1.Faults e)
    (left : Nat)
    (j : Journal) :
    (runFrames (left + 1 + i) d
        (watched screen s l d).1.1.machine j).1 =
      .error (.emulation (d + i) e) := by
  obtain ⟨k, hReached⟩ :=
    runFrames_reaches screen s l h.running (left + 1) j
  have hFrame := h.fails k
  rcases hRun :
      (watched screen s l (d + i)).1.1.machine.runFrame k
    with ⟨⟨result, n⟩, k'⟩
  rw [hRun] at hFrame
  cases hFrame
  rw [hReached, runFrames_of_error hRun]

end Lockstep

end Snapshot

end Dmg
