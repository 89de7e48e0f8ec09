import Dmg.Proofs.Machine.Standstill
import Dmg.Proofs.Session
import Mathlib.Algebra.Group.Nat.Defs

/-
  The life cycle of a session, and the report of a stall.

  The PC at the end of each frame is compared with the one
  before.  The count of frames that have not changed it is the
  length of the latest streak, and a streak is reported once,
  when it is `stallFrames` long.

  Key definitions include:
    * `Unchanged`
    * `Streak`
    * `Session.Counted`
    * `Machine.Asleep`
    * `Session.LifeCycle`

  Main results:
    * `Streak.unchanged_iff`
    * `Session.counted_play`
    * `Session.life_cycle`
-/

namespace Dmg

open Journal

------------------------------------------------------------
-- Streaks
------------------------------------------------------------

/-
  For exactly `n` turns before turn `k` a value has been what
  it is at turn `k`.
-/
def Unchanged
    {α : Type}
    (p : Nat → α)
    (k n : Nat) : Prop :=
  n ≤ k ∧
    (∀ i ≤ n, p (k - i) = p k) ∧
    (n = k ∨ p (k - (n + 1)) ≠ p k)

instance
    {α : Type}
    [DecidableEq α]
    (p : Nat → α)
    (k n : Nat) :
    Decidable (Unchanged p k n) := by
  unfold Unchanged
  infer_instance

/-
  From its first turn `a` to turn `b` a value stays what it
  became at turn `a`.
-/
structure Streak
    {α : Type}
    (p : Nat → α)
    (a b : Nat) : Prop where
  same : ∀ i, a ≤ i → i ≤ b → p i = p a
  first : a = 0 ∨ p (a - 1) ≠ p a

section Streaks

variable {α : Type} {p q : Nat → α} {a b k m n : Nat}

theorem unchanged_zero :
    Unchanged p 0 0 := by
  refine ⟨Nat.le_refl 0, ?_, .inl rfl⟩
  intro i hi
  rw [Nat.zero_sub]

theorem Unchanged.succ
    (h : Unchanged p k n)
    (hSame : p (k + 1) = p k) :
    Unchanged p (k + 1) (n + 1) := by
  obtain ⟨hLe, hStays, hFirst⟩ := h
  refine ⟨Nat.succ_le_succ hLe, ?_, ?_⟩
  · intro i hi
    cases i with
    | zero => rfl
    | succ i =>
        rw [Nat.add_sub_add_right, hSame]
        exact hStays i (Nat.le_of_succ_le_succ hi)
  · rw [Nat.add_sub_add_right, hSame]
    exact hFirst.imp_left (congrArg (· + 1))

theorem unchanged_of_ne
    (h : p (k + 1) ≠ p k) :
    Unchanged p (k + 1) 0 := by
  refine ⟨Nat.zero_le _, ?_, .inr ?_⟩
  · intro i hi
    rw [Nat.le_zero.mp hi, Nat.sub_zero]
  · exact h.symm

/- Only one count is exact. -/
theorem Unchanged.le
    (hm : Unchanged p k m)
    (hn : Unchanged p k n) :
    m ≤ n := by
  apply Nat.le_of_not_lt
  intro hLess
  obtain ⟨hLe, hStays, -⟩ := hm
  rcases hn.2.2 with hAll | hNot
  · omega
  · exact hNot (hStays (n + 1) (by omega))

theorem Unchanged.unique
    (hm : Unchanged p k m)
    (hn : Unchanged p k n) :
    m = n :=
  Nat.le_antisymm (hm.le hn) (hn.le hm)

/- Later turns do not matter. -/
theorem Unchanged.congr
    (h : Unchanged p k n)
    (hSame : ∀ i ≤ k, q i = p i) :
    Unchanged q k n := by
  obtain ⟨hLe, hStays, hFirst⟩ := h
  refine ⟨hLe, ?_, ?_⟩
  · intro i hi
    rw [hSame _ (Nat.sub_le k i), hSame k (Nat.le_refl k)]
    exact hStays i hi
  · rw [hSame _ (Nat.sub_le k (n + 1)),
      hSame k (Nat.le_refl k)]
    exact hFirst

theorem Streak.unchanged
    (h : Streak p a b)
    (ha : a ≤ k)
    (hb : k ≤ b) :
    Unchanged p k (k - a) := by
  refine ⟨Nat.sub_le k a, ?_, ?_⟩
  · intro i hi
    rw [h.same k ha hb]
    exact h.same (k - i) (by omega) (by omega)
  · rcases h.first with rfl | hFirst
    · exact .inl (Nat.sub_zero k)
    · by_cases hZero : a = 0
      · exact .inl (by omega)
      · right
        rw [h.same k ha hb,
          show k - (k - a + 1) = a - 1 by omega]
        exact hFirst

/- A count is reached at one turn of a streak, if at all. -/
theorem Streak.unchanged_iff
    (h : Streak p a b)
    (ha : a ≤ k)
    (hb : k ≤ b) :
    Unchanged p k n ↔ k = a + n := by
  have hCount := h.unchanged ha hb
  constructor
  · intro hn
    have hEq := hn.unique hCount
    omega
  · rintro rfl
    rw [Nat.add_sub_cancel_left] at hCount
    exact hCount

end Streaks

namespace Session

------------------------------------------------------------
-- Counting
------------------------------------------------------------

/- The PC at the start and at the end of each frame. -/
def framePcs
    (first : UInt16)
    (ends : List Machine) : List UInt16 :=
  first :: ends.map fun n => n.cpu.regs.pc

/- Frames to come do not matter to those that have been. -/
theorem framePcs_append
    (first : UInt16)
    (ends : List Machine)
    (n : Machine)
    (rest : List Machine)
    {i : Nat}
    (hi : i ≤ ends.length + 1) :
    (framePcs first (ends ++ n :: rest))[i]? =
      (framePcs first ends ++ [n.cpu.regs.pc])[i]? := by
  have hSplit :
      framePcs first (ends ++ n :: rest) =
        (framePcs first ends ++ [n.cpu.regs.pc]) ++
          rest.map fun n => n.cpu.regs.pc := by
    simp [framePcs]
  rw [hSplit]
  apply List.getElem?_append_left
  simp only [framePcs, List.length_append, List.length_cons,
    List.length_map, List.length_nil]
  omega

/-
  A session has counted `k` frames.  The PC was `pcs[0]`
  before them, and what follows in `pcs` at the end of each.
-/
structure Counted
    (pcs : List UInt16)
    (k : Nat)
    (s : Session) : Prop where
  length : pcs.length = k + 1
  frames : s.frames.toNat = k % 2 ^ 64
  lastPc : pcs[k]? = some s.lastPc
  stagnantFrames :
    ∃ n,
      Unchanged (pcs[·]?) k n ∧
        s.stagnantFrames = min n stagnantLimit

section Counts

variable {pcs : List UInt16} {k : Nat} {s : Session}

theorem Counted.of_fields
    {t : Session}
    (h : Counted pcs k s)
    (hFrames : t.frames = s.frames)
    (hLastPc : t.lastPc = s.lastPc)
    (hStagnant : t.stagnantFrames = s.stagnantFrames) :
    Counted pcs k t := by
  refine ⟨h.length, ?_, ?_, ?_⟩
  · rw [hFrames]
    exact h.frames
  · rw [hLastPc]
    exact h.lastPc
  · rw [hStagnant]
    exact h.stagnantFrames

theorem Counted.afterFrame
    (h : Counted pcs k s)
    (r : Machine.FrameResult × Machine) :
    Counted (pcs ++ [r.2.cpu.regs.pc]) (k + 1)
      (s.afterFrame r) := by
  have hOld (i : Nat) (hi : i ≤ k) :
      (pcs ++ [r.2.cpu.regs.pc])[i]? = pcs[i]? := by
    apply List.getElem?_append_left
    rw [h.length]
    exact Nat.lt_succ_of_le hi
  have hNew :
      (pcs ++ [r.2.cpu.regs.pc])[k + 1]? =
        some r.2.cpu.regs.pc := by
    rw [← h.length]
    exact List.getElem?_concat_length
  have hLast := (hOld k (Nat.le_refl k)).trans h.lastPc
  obtain ⟨n, hUnchanged, hCount⟩ := h.stagnantFrames
  refine ⟨?_, ?_, hNew, ?_⟩
  · rw [List.length_append, h.length]
    rfl
  · change (s.frames + 1).toNat = _
    rw [UInt64.toNat_add, h.frames]
    exact Nat.mod_add_mod k _ 1
  · by_cases hSame : r.2.cpu.regs.pc = s.lastPc
    · refine ⟨n + 1, (hUnchanged.congr hOld).succ ?_, ?_⟩
      · rw [hNew, hLast, hSame]
      · change (if r.2.cpu.regs.pc = s.lastPc then _ else _) = _
        rw [if_pos hSame, hCount]
        omega
    · refine ⟨0, unchanged_of_ne ?_, ?_⟩
      · rw [hNew, hLast]
        exact fun hEq => hSame (Option.some.inj hEq)
      · exact if_neg hSame

/- The reported count is that of an exact streak. -/
theorem Counted.stall_iff
    (h : Counted pcs k s) :
    s.stagnantFrames = stallFrames ↔
      Unchanged (pcs[·]?) k stallFrames := by
  obtain ⟨n, hUnchanged, hCount⟩ := h.stagnantFrames
  have hBelow : stallFrames < stagnantLimit := by decide
  rw [hCount]
  constructor
  · intro hEq
    have hn : n = stallFrames := by omega
    rw [← hn]
    exact hUnchanged
  · intro hStall
    rw [hUnchanged.unique hStall]
    exact Nat.min_eq_left (Nat.le_of_lt hBelow)

/- An input that runs a frame adds one to the count. -/
theorem Counted.handle_of_runs
    (h : Counted pcs k s)
    {i : Input}
    (hRuns : i.runs s = true)
    (j : Journal) :
    Counted (pcs ++ [(handle i s j).1.machine.cpu.regs.pc])
      (k + 1) (handle i s j).1 := by
  cases i with
  | key name held => cases hRuns
  | update screen =>
      have hRunning : s.shouldExit = false := by
        simpa [Input.runs] using hRuns
      rcases hFrame : (s.machine.runFrame j).1 with ⟨r, n⟩
      rw [handle_update]
      dsimp only
      rw [session_update s j hRunning hFrame]
      exact h.afterFrame (r, n)

/- Any other leaves the count. -/
theorem Counted.handle_of_not_runs
    (h : Counted pcs k s)
    {i : Input}
    (hRuns : i.runs s = false)
    (j : Journal) :
    Counted pcs k (handle i s j).1 := by
  cases i with
  | key name held =>
      change Counted pcs k (s.handleKey name held j).1
      rw [handleKey_eq]
      exact h.of_fields rfl rfl rfl
  | update screen =>
      have hOver : s.shouldExit = true := by
        simpa [Input.runs] using hRuns
      rw [handle_update, update_of_over s j hOver]
      exact h

/- Whatever is done, the frames are counted. -/
theorem counted_play
    (is : List Input)
    (h : Counted pcs k s)
    (j : Journal) :
    Counted
      (pcs ++ (frameEnds is s j).map fun n => n.cpu.regs.pc)
      (k + (frameEnds is s j).length) (play is s j).1 := by
  induction is generalizing pcs k s j with
  | nil =>
      dsimp only [frameEnds]
      rw [List.map_nil, List.append_nil]
      exact h
  | cons i is ih =>
      cases hRuns : i.runs s with
      | false =>
          rw [frameEnds_of_not_runs is s j hRuns]
          exact ih (h.handle_of_not_runs hRuns j) _
      | true =>
          have hRest := ih (h.handle_of_runs hRuns j)
            (handle i s j).2
          rw [List.append_assoc, Nat.add_assoc,
            Nat.add_comm 1] at hRest
          rw [frameEnds_of_runs is s j hRuns]
          exact hRest

/-
  An update that runs frame `k + 1` reports a stall if the
  streak up to it is exactly `stallFrames` long.
-/
theorem Counted.stalls_update
    (h : Counted pcs k s)
    (hRunning : s.shouldExit = false)
    (screen : Array UInt8)
    (j : Journal) :
    (s.update screen j).2.stalls =
      let n := (s.update screen j).1.1.machine
      if Unchanged ((pcs ++ [n.cpu.regs.pc])[·]?) (k + 1)
          stallFrames then
        j.stalls.note (.pcUnchanged n.cpu.regs.pc n.cpu.halted)
      else j.stalls := by
  have hRuns := Input.runs_update hRunning screen
  have hStall :
      (s.update screen j).1.1.stagnantFrames = stallFrames ↔
        _ :=
    (h.handle_of_runs hRuns j).stall_iff
  rw [Session.stalls_update s j hRunning screen]
  simp only [hStall]
  rfl

/- In a history the frames after it do not matter. -/
theorem stalls_through
    {first : UInt16}
    {t : Session}
    {j l : Journal}
    (hStart : Counted [first] 0 s)
    {before : List Input}
    (hPast : play before s j = (t, l))
    (hRunning : t.shouldExit = false)
    (screen : Array UInt8)
    (after : List Input) :
    let n := (t.update screen l).1.1.machine
    let k := (frameEnds before s j).length + 1
    let pc (i : Nat) :=
      (framePcs first
        (frameEnds (before ++ .update screen :: after) s j))[i]?
    pc k = some n.cpu.regs.pc ∧
      (t.update screen l).2.stalls =
        if Unchanged pc k stallFrames then
          l.stalls.note
            (.pcUnchanged n.cpu.regs.pc n.cpu.halted)
        else l.stalls := by
  intro n k pc
  have hCounted := counted_play before hStart j
  rw [hPast, Nat.zero_add] at hCounted
  have hReported :=
    hCounted.stalls_update hRunning screen l
  have hRuns := Input.runs_update hRunning screen
  have hSame (i : Nat) (hi : i ≤ k) :
      pc i =
        (framePcs first (frameEnds before s j) ++
          [n.cpu.regs.pc])[i]? := by
    dsimp only [pc]
    rw [frameEnds_through before after s j hPast hRuns]
    exact framePcs_append first _ n _ hi
  have hStall :
      Unchanged pc k stallFrames ↔ _ :=
    ⟨fun h => h.congr fun i hi => (hSame i hi).symm,
      fun h => h.congr hSame⟩
  constructor
  · have hLength :
        k = (framePcs first (frameEnds before s j)).length :=
      hCounted.length.symm
    rw [hSame k (Nat.le_refl k), hLength]
    exact List.getElem?_concat_length
  · simp only [hStall]
    exact hReported

end Counts

end Session

------------------------------------------------------------
-- Sleeping Machines
------------------------------------------------------------

/- A machine that is halted, and that no interrupt can wake. -/
structure Machine.Asleep
    (cpu : Cpu)
    (m : Machine) : Prop where
  unmoved : m.cpu = cpu
  halted : cpu.halted = true
  stopped : cpu.stopped = false
  locked : cpu.locked = none
  enable : m.board.interrupts.enable = 0

namespace Machine

variable {cpu : Cpu} {m : Machine}

theorem Asleep.step
    (h : Asleep cpu m)
    (j : Journal) :
    ∃ n k,
      m.step j = ((.ok idleTicks, n), k) ∧ Asleep cpu n := by
  have hSuspended : (m.core j).suspended = true := by
    have hHalted : m.cpu.halted = true := by
      rw [h.unmoved]
      exact h.halted
    simp [Core.suspended, Core.interrupts, core, Bus.interrupts,
      InterruptController.pending, InterruptController.enabled,
      h.enable, hHalted]
  have hLocked : m.cpu.locked = none := by
    rw [h.unmoved]
    exact h.locked
  have hCore := Core.step_of_suspended (s := m.core j)
    hLocked hSuspended
  rcases m.step_outcome j with
    ⟨e, hError, -⟩ | ⟨cost, hOk, hStep⟩
  · rw [hCore] at hError
    cases hError
  · rw [hCore] at hOk hStep
    cases hOk
    refine ⟨_, _, hStep, h.unmoved, h.halted, h.stopped,
      h.locked, ?_⟩
    exact (Board.sameStorage_advance _ _ _ _).enable.trans
      h.enable

/- It sleeps through a frame. -/
theorem Asleep.runFrame
    (h : Asleep cpu m)
    (j : Journal) :
    (m.runFrame j).1.1 = .ok () ∧
      Asleep cpu (m.runFrame j).1.2 := by
  have hLoop := m.frameLoop_runFrame j
  generalize m.ticks + frameTicks = deadline at hLoop
  generalize m.runFrame j = r at hLoop ⊢
  induction hLoop with
  | ended _ => exact ⟨rfl, h⟩
  | @failed m n j k e hTest hStep =>
      obtain ⟨n', k', hSlept, -⟩ := h.step j
      rw [hSlept] at hStep
      cases hStep
  | @completed m n j k cost hTest hStep hReady =>
      obtain ⟨n', k', hSlept, hAsleep⟩ := h.step j
      rw [hSlept] at hStep
      cases hStep
      exact ⟨rfl, hAsleep.unmoved, hAsleep.halted,
        hAsleep.stopped, hAsleep.locked, hAsleep.enable⟩
  | @again m n j k cost r hTest hStep hReady hRest ih =>
      obtain ⟨n', k', hSlept, hAsleep⟩ := h.step j
      rw [hSlept] at hStep
      cases hStep
      exact ih hAsleep

end Machine

namespace Session

/- A session whose machine sleeps goes on. -/
theorem update_asleep
    {cpu : Cpu}
    {s : Session}
    (hRunning : s.shouldExit = false)
    (h : s.machine.Asleep cpu)
    (screen : Array UInt8)
    (j : Journal) :
    let t := (s.update screen j).1.1
    t.shouldExit = false ∧ t.machine.Asleep cpu := by
  obtain ⟨hOk, hAsleep⟩ := h.runFrame j
  rcases hFrame : (s.machine.runFrame j).1 with ⟨r, n⟩
  rw [hFrame] at hOk hAsleep
  rw [session_update s j hRunning hFrame]
  refine ⟨?_, hAsleep⟩
  dsimp only at hOk hAsleep
  simp [afterFrame, hOk, hAsleep.unmoved, hAsleep.stopped,
    Except.isOk, Except.toBool]

theorem play_asleep
    {cpu : Cpu}
    {s : Session}
    (hRunning : s.shouldExit = false)
    (h : s.machine.Asleep cpu)
    (screen : Array UInt8)
    (count : Nat)
    (j : Journal) :
    let is := List.replicate count (.update screen)
    let t := (play is s j).1
    t.shouldExit = false ∧
      t.machine.Asleep cpu ∧
      (frameEnds is s j).map (fun n => n.cpu) =
        List.replicate count cpu := by
  induction count generalizing s j with
  | zero => exact ⟨hRunning, h, rfl⟩
  | succ count ih =>
      obtain ⟨hRunning', hAsleep⟩ :=
        update_asleep hRunning h screen j
      obtain ⟨hRuns, hSleeps, hEnds⟩ :=
        ih hRunning' hAsleep (s.update screen j).2
      refine ⟨hRuns, hSleeps, ?_⟩
      have hFirst := Input.runs_update hRunning screen
      rw [List.replicate_succ,
        frameEnds_of_runs _ s j hFirst]
      dsimp only [handle_update]
      rw [List.map_cons, hAsleep.unmoved, hEnds]
      rfl

------------------------------------------------------------
-- The Life Cycle
------------------------------------------------------------

theorem counted_opened
    (m : Machine)
    (scale : Nat)
    (begun : Bool)
    (j : Journal) :
    Counted [if begun then m.cpu.regs.pc else 0] 0
      (opened m scale begun j).1 := by
  cases begun <;>
    exact ⟨rfl, rfl, rfl, 0, unchanged_zero, rfl⟩

theorem stalls_opened
    (m : Machine)
    (scale : Nat)
    (begun : Bool)
    (j : Journal) :
    (opened m scale begun j).2.stalls = j.stalls := by
  cases begun with
  | true => exact stalls_note rfl j
  | false => rfl

/-
  What holds of a session that was opened as `o`, with the PC
  at `first`, after all that has been done to it since.

  It is over as soon as an input has ended it, and stays over.
  Its frames are counted up to 2^64.  The update that runs
  frame `i` reports a stall if that frame is the last of
  exactly `stallFrames` that have left the PC as it was.  In a
  streak this is one frame, however long the streak goes on,
  and none if it is too short.
-/
structure LifeCycle
    (first : UInt16)
    (o : Session)
    (j : Journal)
    (is : List Input) : Prop where
  ended :
    (play is o j).1.shouldExit = true ↔
      ∃ before i after,
        is = before ++ i :: after ∧
          Ends i (play before o j).1 (play before o j).2
  stays :
    ∀ before after,
      is = before ++ after →
        (play before o j).1.shouldExit = true →
          (play is o j).1.shouldExit = true
  frames :
    (play is o j).1.frames.toNat =
      (frameEnds is o j).length % 2 ^ 64
  reports :
    ∀ before screen after s k,
      is = before ++ .update screen :: after →
        play before o j = (s, k) →
          s.shouldExit = false →
            let n := (s.update screen k).1.1.machine
            let i := (frameEnds before o j).length + 1
            let pc (i : Nat) :=
              (framePcs first (frameEnds is o j))[i]?
            pc i = some n.cpu.regs.pc ∧
              (s.update screen k).2.stalls =
                if Unchanged pc i stallFrames then
                  k.stalls.note
                    (.pcUnchanged n.cpu.regs.pc n.cpu.halted)
                else k.stalls
  streaks :
    ∀ a b i,
      Streak ((framePcs first (frameEnds is o j))[·]?) a b →
        a ≤ i →
          i ≤ b →
            (Unchanged ((framePcs first (frameEnds is o j))[·]?)
                i stallFrames ↔
              i = a + stallFrames)

theorem lifeCycle_of_counted
    {first : UInt16}
    {o : Session}
    (hStart : Counted [first] 0 o)
    (hRunning : o.shouldExit = false)
    (j : Journal)
    (is : List Input) :
    LifeCycle first o j is where
  ended := by
    rw [shouldExit_play_iff is o j, hRunning]
    simp only [Bool.false_eq_true, false_or]
  stays := by
    rintro before after rfl hOver
    rw [play_append]
    exact (shouldExit_play_iff after _ _).mpr (.inl hOver)
  frames := by
    have hCounted := counted_play is hStart j
    rw [hCounted.frames, Nat.zero_add]
  reports := by
    rintro before screen after s k rfl hPast hOn
    exact stalls_through hStart hPast hOn screen after
  streaks a b i hStreak := hStreak.unchanged_iff

/-
  The life cycle of a session on any machine, begun or not,
  whatever is done to it.  Once it is over an update does
  nothing.  Neither opening it nor a key reports a stall, and
  no key changes the number of its frames.
-/
theorem life_cycle
    (m : Machine)
    (scale : Nat)
    (begun : Bool)
    (j₀ : Journal)
    (is : List Input) :
    let o := opened m scale begun j₀
    LifeCycle (if begun then m.cpu.regs.pc else 0) o.1 o.2 is ∧
      o.2.stalls = j₀.stalls ∧
      (∀ (s : Session) screen j,
        s.shouldExit = true →
          s.update screen j = ((s, screen), j)) ∧
      ∀ (s : Session) key held j,
        (s.handleKey key held j).1.frames = s.frames ∧
          (s.handleKey key held j).2.stalls = j.stalls := by
  intro o
  have hRunning : o.1.shouldExit = false := by
    cases begun <;> rfl
  have hStart := counted_opened m scale begun j₀
  refine ⟨lifeCycle_of_counted hStart hRunning o.2 is,
    stalls_opened m scale begun j₀, ?_, ?_⟩
  · intro s screen j hOver
    exact update_of_over s j hOver screen
  · intro s key held j
    refine ⟨?_, stalls_handleKey s key held j⟩
    rw [handleKey_eq]

/- A machine that sleeps is reported by update 600 alone. -/
theorem LifeCycle.stalls_asleep
    {cpu : Cpu}
    {o : Session}
    {j : Journal}
    (hLife : ∀ is, LifeCycle cpu.regs.pc o j is)
    (hRunning : o.shouldExit = false)
    (hAsleep : o.machine.Asleep cpu)
    (screen : Array UInt8)
    (count : Nat) :
    let past :=
      play (List.replicate count (.update screen)) o j
    (past.1.update screen past.2).2.stalls =
      if count + 1 = stallFrames then
        past.2.stalls.note (.pcUnchanged cpu.regs.pc true)
      else past.2.stalls := by
  intro past
  let is := List.replicate (count + 1) (Input.update screen)
  obtain ⟨hOn, hSleeps, hEnds⟩ :=
    play_asleep hRunning hAsleep screen count j
  obtain ⟨-, -, hAllEnds⟩ :=
    play_asleep hRunning hAsleep screen (count + 1) j
  have hCpu :
      (past.1.update screen past.2).1.1.machine.cpu = cpu :=
    (update_asleep hOn hSleeps screen past.2).2.unmoved
  have hLength := congrArg List.length hEnds
  rw [List.length_map, List.length_replicate] at hLength
  have hPcs :
      framePcs cpu.regs.pc (frameEnds is o j) =
        List.replicate (count + 2) cpu.regs.pc := by
    have hSame := congrArg (List.map fun cpu => cpu.regs.pc)
      hAllEnds
    rw [List.map_map, List.map_replicate] at hSame
    exact congrArg (List.cons cpu.regs.pc) hSame
  have hStreak :
      Streak ((framePcs cpu.regs.pc (frameEnds is o j))[·]?)
        0 (count + 1) := by
    refine ⟨?_, .inl rfl⟩
    intro i _ hi
    have hIn : i < count + 2 := Nat.lt_succ_of_le hi
    simp only [hPcs, List.getElem?_replicate, hIn, if_true]
    rfl
  have hDue :=
    (hLife is).streaks 0 (count + 1) (count + 1) hStreak
      (Nat.zero_le _) (Nat.le_refl _)
  obtain ⟨-, hStalls⟩ :=
    (hLife is).reports _ _ _ _ _ List.replicate_succ' rfl hOn
  rw [Nat.zero_add] at hDue
  rw [hLength, hCpu, hAsleep.halted] at hStalls
  simp only [hDue] at hStalls
  exact hStalls

/-
  A machine that sleeps is reported by update 600, and not
  again by the next.  Escape ends its session before the
  first, and a reset does not bring it back.
-/
theorem life_cycle_asleep :
    let m : Machine := { cpu := { halted := true } }
    let o := opened m defaultScale true (.keeping .warn)
    let past (count : Nat) :=
      play (List.replicate count (.update #[])) o.1 o.2
    let next (count : Nat) :=
      (past count).1.update #[] (past count).2
    (next 599).2.stalls =
        (past 599).2.stalls.note (.pcUnchanged 0x0100 true) ∧
      (next 600).2.stalls = (past 600).2.stalls ∧
      let t :=
        (play [.key .escape true, .update #[],
          .key .backspace true] o.1 o.2).1
      t.shouldExit = true ∧ t.frames.toNat = 0 := by
  intro m o past next
  have hAsleep : m.Asleep { halted := true } :=
    ⟨rfl, rfl, rfl, rfl, rfl⟩
  have hLife (is : List Input) : LifeCycle 0x0100 o.1 o.2 is :=
    (life_cycle m defaultScale true (.keeping .warn) is).1
  have hNext (count : Nat) :
      (next count).2.stalls =
        if count + 1 = stallFrames then
          (past count).2.stalls.note (.pcUnchanged 0x0100 true)
        else (past count).2.stalls :=
    LifeCycle.stalls_asleep (o := o.1) hLife rfl hAsleep #[]
      count
  refine ⟨?_, ?_, rfl, rfl⟩
  · rw [hNext, if_pos (by decide)]
  · rw [hNext, if_neg (by decide)]

end Session

end Dmg
