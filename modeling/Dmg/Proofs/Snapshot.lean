import Dmg.Proofs.Lcd.Picture
import Dmg.Proofs.Machine.Standstill
import Dmg.Proofs.Snapshot.Frames
import Dmg.Proofs.Text

/-
  The program that writes the last picture of an image, against
  a session on the same image.

  The program reads its arguments, the image, and then runs
  frames.  It writes once and at the end, so that nothing is
  written if any of this fails.  The world that it reads and
  writes in may be any.

  Key definitions include:
    * `Snapshot.Asks`
    * `Snapshot.cartridge?`
    * `Snapshot.session`
    * `Snapshot.Agrees`
    * `Snapshot.Ending`

  Main results:
    * `Snapshot.ofArgs_ok_iff`
    * `Snapshot.run_ending`
    * `Snapshot.agreement`
-/

namespace Dmg

namespace Snapshot

------------------------------------------------------------
-- Arguments
------------------------------------------------------------

/- The request that arguments make. -/
inductive Asks : List String → Request → Prop where
  | standard
      (image out : String) :
      Asks [image, out] ⟨image, out, 120⟩
  | counted
      (image out : String)
      {frames : String}
      {n : Nat}
      (hSpells : Numeral.Spells frames.toList n)
      (hFits : n < 2 ^ 32)
      (rest : List String) :
      Asks (image :: out :: frames :: rest) ⟨image, out, n⟩

theorem ofArgs_ok_iff
    {args : List String}
    {q : Request} :
    Request.ofArgs args = .ok q ↔ Asks args q := by
  constructor
  · intro h
    unfold Request.ofArgs at h
    split at h
    · cases h
    · cases h
    · cases h
      exact .standard _ _
    · split at h
      · rename_i hRead
        cases h
        obtain ⟨hSpells, hFits⟩ := Numeral.read_ok_iff.mp hRead
        exact .counted _ _ hSpells hFits _
      · cases h
  · rintro (_ | ⟨image, out, hSpells, hFits, rest⟩)
    · rfl
    · have hRead := Numeral.read_ok_iff.mpr ⟨hSpells, hFits⟩
      unfold Request.ofArgs
      dsimp only
      rw [hRead]

/- Arguments that make no request are too few or miscounted. -/
theorem not_asks_iff
    (args : List String) :
    (∀ q, ¬ Asks args q) ↔
      args.length < 2 ∨
        ∃ frames,
          args[2]? = some frames ∧
            ∀ n,
              Numeral.Spells frames.toList n → ¬ n < 2 ^ 32 := by
  constructor
  · intro h
    match args, h with
    | [], _ => exact .inl (by decide)
    | [_], _ => exact .inl (Nat.lt_succ_self 1)
    | [image, out], h => exact absurd (.standard image out) (h _)
    | image :: out :: frames :: rest, h =>
        refine .inr ⟨frames, rfl, ?_⟩
        intro n hSpells hFits
        exact h _ (.counted image out hSpells hFits rest)
  · rintro hBad q (_ | ⟨image, out, hSpells, hFits, rest⟩)
    · rcases hBad with hFew | ⟨frames, hThird, -⟩
      · exact absurd hFew (Nat.lt_irrefl 2)
      · cases hThird
    · rcases hBad with hFew | ⟨frames, hThird, hNone⟩
      · simp only [List.length_cons] at hFew
        omega
      · cases hThird
        exact hNone _ hSpells hFits

------------------------------------------------------------
-- Images
------------------------------------------------------------

/- The cartridge that an image is accepted as. -/
def cartridge?
    (contents : Except FileFault (Array UInt8)) :
    Option Cartridge :=
  match contents with
  | .error _ => none
  | .ok image =>
      match Cartridge.ofBytes image with
      | .error _ => none
      | .ok c => some c

section Images

variable {contents : Except FileFault (Array UInt8)}
variable {c : Cartridge}

theorem cartridge?_of_ok
    {image : Array UInt8}
    (h : Cartridge.ofBytes image = .ok c) :
    cartridge? (.ok image) = some c := by
  unfold cartridge?
  dsimp only
  rw [h]

theorem acceptFile_eq
    (path : String)
    (image : Array UInt8)
    (j : Journal) :
    (Launch.acceptFile path (.ok image) j).1 =
      Cartridge.ofBytes image := by
  unfold Launch.acceptFile Machine.accept
  dsimp only
  rw [Journaled.bind_apply]
  cases Cartridge.ofBytes image <;> rfl

/- An image that is refused is not run. -/
theorem record_of_refused
    (h : cartridge? contents = none)
    (path : String)
    (frames : Nat)
    (j : Journal) :
    ∃ e k,
      record path contents frames j =
        (.error (.cartridge e), k) := by
  unfold cartridge? at h
  cases contents with
  | error cause => exact ⟨_, _, rfl⟩
  | ok image =>
      dsimp only at h
      cases hRead : Cartridge.ofBytes image with
      | error e =>
          refine ⟨e, (Launch.acceptFile path (.ok image) j).2, ?_⟩
          unfold record
          rw [Journaled.bind_apply, acceptFile_eq, hRead]
          rfl
      | ok c =>
          rw [hRead] at h
          cases h

theorem record_of_accepted
    (h : cartridge? contents = some c)
    (path : String)
    (frames : Nat)
    (j : Journal) :
    ∃ k,
      record path contents frames j =
        runFrames frames 0 (Machine.load c {} {}).1 k := by
  unfold cartridge? at h
  cases contents with
  | error cause => cases h
  | ok image =>
      dsimp only at h
      cases hRead : Cartridge.ofBytes image with
      | error e =>
          rw [hRead] at h
          cases h
      | ok c' =>
          rw [hRead] at h
          cases h
          unfold record
          rw [Journaled.bind_apply, acceptFile_eq, hRead]
          exact ⟨_, rfl⟩

end Images

------------------------------------------------------------
-- The Program
------------------------------------------------------------

section Program

variable {W : Type}

theorem bind_apply
    {α β : Type}
    (x : StateT Journal (StateM W) α)
    (f : α → StateT Journal (StateM W) β)
    (j : Journal)
    (w : W) :
    (x >>= f) j w = f (x j w).1.1 (x j w).1.2 (x j w).2 :=
  rfl

theorem lift_apply
    {α : Type}
    (x : StateM W α)
    (j : Journal)
    (w : W) :
    (StateT.lift x : StateT Journal (StateM W) α) j w =
      (((x w).1, j), (x w).2) :=
  rfl

theorem modifyGet_apply
    {α : Type}
    (f : Journaled α)
    (j : Journal)
    (w : W) :
    (modifyGet f : StateT Journal (StateM W) α) j w = (f j, w) :=
  rfl

variable [Files (StateM W)]

/- Read a file of a world. -/
def loaded
    (path : String)
    (w : W) : Except FileFault (Array UInt8) × W :=
  (Files.load path : StateM W _) w

/- Write a file of a world. -/
def saved
    (path : String)
    (bytes : Array UInt8)
    (w : W) : Except FileFault Unit × W :=
  (Files.save path bytes : StateM W _) w

variable {q : Request} {j k : Journal} {w : W}

/- Nothing is written if there is no picture. -/
theorem perform_of_error
    {e : Fault}
    (h :
      record q.image (loaded q.image w).1 q.frames j =
        (.error e, k)) :
    (perform q : StateT Journal (StateM W) _) j w =
      ((.error e, k), (loaded q.image w).2) := by
  unfold loaded at h ⊢
  unfold perform
  rw [bind_apply, lift_apply, bind_apply, modifyGet_apply]
  dsimp only
  rw [h]
  rfl

/- What comes of writing the picture of a machine. -/
def filed
    (out : String)
    (m : Machine) :
    Except FileFault Unit → Except Fault Machine
  | .ok _ => .ok m
  | .error e => .error (.unwritable out e)

/- The picture of the last frame is all that is written. -/
theorem perform_of_ok
    {m : Machine}
    (h :
      record q.image (loaded q.image w).1 q.frames j =
        (.ok m, k)) :
    (perform q : StateT Journal (StateM W) _) j w =
      let r := saved q.out m.videoBytes (loaded q.image w).2
      ((filed q.out m r.1, k), r.2) := by
  unfold saved
  unfold loaded at h ⊢
  unfold perform
  rw [bind_apply, lift_apply, bind_apply, modifyGet_apply]
  dsimp only
  rw [h]
  dsimp only
  rw [bind_apply, lift_apply]
  dsimp only
  rcases (Files.save q.out m.videoBytes : StateM W _)
    ((Files.load q.image : StateM W _) w).2 with ⟨result, v⟩
  cases result <;> rfl

theorem summary_eq
    (out : String)
    (m : Machine) :
    summary out m =
      "Wrote 69120 bytes (160x144 rgb24) after " ++
        toString m.ticks ++ " ticks to '" ++ out ++ "'\n" ++
        (if m.serialOutput.isEmpty then ""
          else
            "serial: " ++ Utf8.decode m.serialOutput.toList ++
              "\n") := by
  have hSize : m.videoBytes.size = 69120 :=
    Picture.size_bytes _
  unfold summary
  rw [hSize]
  rfl

/- What the program says at its end. -/
def exitOf
    (out : String) : Except Fault Machine → Exit
  | .ok m => { code := 0, stdout := summary out m }
  | .error e =>
      { code := 1, stderr := "error: " ++ e.message ++ "\n" }

theorem run_of_ok
    {args : List String}
    (h : Request.ofArgs args = .ok q)
    (j : Journal)
    (w : W) :
    (run args : StateT Journal (StateM W) _) j w =
      let r := (perform q : StateT Journal (StateM W) _) j w
      ((exitOf q.out r.1.1, r.1.2), r.2) := by
  unfold run
  rw [h]
  dsimp only
  rw [bind_apply]
  rcases (perform q : StateT Journal (StateM W) _) j w
    with ⟨⟨result, k⟩, v⟩
  cases result <;> rfl

theorem run_of_error
    {args : List String}
    {e : ArgumentFault}
    (h : Request.ofArgs args = .error e)
    (j : Journal)
    (w : W) :
    (run args : StateT Journal (StateM W) _) j w =
      (({ code := 2, stderr := e.message ++ "\n" }, j), w) := by
  unfold run
  rw [h]
  rfl

------------------------------------------------------------
-- Agreement
------------------------------------------------------------

/-
  A session on a cartridge, begun or not, and its screen after
  a number of updates.
-/
def session
    (c : Cartridge)
    (scale : Nat)
    (begun : Bool)
    (screen : Array UInt8)
    (l : Journal)
    (k : Nat) : Session × Array UInt8 :=
  let m := Machine.load c {} l
  let o := Session.opened m.1 scale begun m.2
  (Session.watched screen o.1 o.2 k).1

/-
  The program agrees with a session on the same cartridge.

  A picture that has been written is that of the session after
  as many updates, and what its screen shows if it is as large.
  What is printed is the session's too.  A frame that fails is
  named, and nothing is written.  The session fails at the same
  frame, which the program comes to with the same machine, and
  what that frame leaves of the machine is kept.
-/
structure Agrees
    (q : Request)
    (app : Nat → Session × Array UInt8)
    (v : W)
    (exit : Exit)
    (after : W) : Prop where
  written :
    exit.code = 0 →
      let m := (app q.frames).1.machine
      saved q.out m.videoBytes v = (.ok (), after) ∧
        m.videoBytes.size = 69120 ∧
        (0 < q.frames →
          (app 0).2.size = 69120 →
            (app q.frames).2 = m.videoBytes) ∧
        exit.stdout =
            "Wrote 69120 bytes (160x144 rgb24) after " ++
              toString m.ticks ++ " ticks to '" ++ q.out ++ "'\n" ++
              (if m.serialOutput.isEmpty then ""
                else
                  "serial: " ++
                    Utf8.decode m.serialOutput.toList ++ "\n") ∧
        ((app q.frames).1.shouldExit = true ↔
          m.cpu.stopped = true)
  failed :
    exit.code = 1 ↔
      (∃ d e, d < q.frames ∧ (app d).1.Faults e) ∨
        ∃ e,
          (saved q.out (app q.frames).1.machine.videoBytes v).1 =
            .error e
  finished : exit.code = 0 ∨ exit.code = 1
  fault :
    ∀ d e,
      d < q.frames →
        (app d).1.Faults e →
          exit.stderr =
              "error: " ++
                ("emulation failed during frame " ++ toString d ++
                  ": " ++ e.message) ++ "\n" ∧
            after = v
  reached :
    ∀ d j,
      d ≤ q.frames →
        (app d).1.shouldExit = false →
          ∃ k,
            runFrames q.frames 0 (app 0).1.machine j =
              runFrames (q.frames - d) d (app d).1.machine k
  kept :
    ∀ d e k j,
      (app d).1.Faults e →
        d < k →
          (app k).1.shouldExit = true ∧
            (app k).1.machine =
              ((app d).1.machine.runFrame j).1.2

/- How a run on an image that is accepted ends. -/
inductive Ending
    (q : Request)
    (app : Nat → Session × Array UInt8)
    (v : W) : Exit → W → Prop where
  | faulted
      {d : Nat}
      {e : DecodeFault}
      (hd : d < q.frames)
      (hFaults : (app d).1.Faults e) :
      Ending q app v (exitOf q.out (.error (.emulation d e))) v
  | unwritten
      {e : FileFault}
      {after : W}
      (hFine :
        ∀ d e, d < q.frames → ¬ (app d).1.Faults e)
      (hSaved :
        saved q.out (app q.frames).1.machine.videoBytes v =
          (.error e, after)) :
      Ending q app v
        (exitOf q.out (.error (.unwritable q.out e))) after
  | written
      {after : W}
      (hFine :
        ∀ d e, d < q.frames → ¬ (app d).1.Faults e)
      (hSaved :
        saved q.out (app q.frames).1.machine.videoBytes v =
          (.ok (), after)) :
      Ending q app v
        (exitOf q.out (.ok (app q.frames).1.machine)) after

section Endings

variable {app : Nat → Session × Array UInt8} {v after : W}
variable {exit : Exit}

theorem Ending.finished
    (h : Ending q app v exit after) :
    exit.code = 0 ∨ exit.code = 1 := by
  cases h with
  | faulted => exact .inr rfl
  | unwritten => exact .inr rfl
  | written => exact .inl rfl

theorem Ending.failed_iff
    (h : Ending q app v exit after) :
    exit.code = 1 ↔
      (∃ d e, d < q.frames ∧ (app d).1.Faults e) ∨
        ∃ e,
          (saved q.out (app q.frames).1.machine.videoBytes v).1 =
            .error e := by
  cases h with
  | faulted hd hFaults =>
      exact iff_of_true rfl (.inl ⟨_, _, hd, hFaults⟩)
  | unwritten _ hSaved =>
      exact iff_of_true rfl (.inr ⟨_, congrArg Prod.fst hSaved⟩)
  | written hFine hSaved =>
      apply iff_of_false Nat.zero_ne_one
      rintro (⟨d, e, hd, hFaults⟩ | ⟨e, hError⟩)
      · exact hFine d e hd hFaults
      · rw [hSaved] at hError
        cases hError

/- The picture has been written only if no frame failed. -/
theorem Ending.of_code_zero
    (h : Ending q app v exit after)
    (hZero : exit.code = 0) :
    let m := (app q.frames).1.machine
    (∀ d e, d < q.frames → ¬ (app d).1.Faults e) ∧
      saved q.out m.videoBytes v = (.ok (), after) ∧
      exit.stdout = summary q.out m := by
  cases h with
  | faulted => cases hZero
  | unwritten => cases hZero
  | written hFine hSaved => exact ⟨hFine, hSaved, rfl⟩

end Endings

section Agreement

variable {c : Cartridge}

theorem session_zero
    (scale : Nat)
    (begun : Bool)
    (screen : Array UInt8)
    (l : Journal) :
    let s := session c scale begun screen l 0
    s.1.shouldExit = false ∧
      s.1.machine = (Machine.load c {} {}).1 := by
  cases begun <;> exact ⟨rfl, rfl⟩

/- The whole of a run on a cartridge that is accepted. -/
theorem run_of_accepted
    {args : List String}
    (hAsks : Asks args q)
    (hAccepted : cartridge? (loaded q.image w).1 = some c)
    (scale : Nat)
    (begun : Bool)
    (screen : Array UInt8)
    (l : Journal) :
    let app := session c scale begun screen l
    let v := (loaded q.image w).2
    let r := (run args : StateT Journal (StateM W) _) j w
    (∀ d e,
        d < q.frames →
          (app d).1.Faults e →
            r.1.1 = exitOf q.out (.error (.emulation d e)) ∧
              r.2 = v) ∧
      ((∀ d e, d < q.frames → ¬ (app d).1.Faults e) →
        let m := (app q.frames).1.machine
        let p := saved q.out m.videoBytes v
        r.1.1 = exitOf q.out (filed q.out m p.1) ∧
          r.2 = p.2) := by
  intro app v r
  obtain ⟨hRunning, hMachine⟩ :=
    session_zero (c := c) scale begun screen l
  obtain ⟨k, hRecord⟩ :=
    record_of_accepted hAccepted q.image q.frames j
  rw [← hMachine] at hRecord
  have hRun : r = _ := run_of_ok (ofArgs_ok_iff.mpr hAsks) j w
  rcases hResult :
      record q.image (loaded q.image w).1 q.frames j
    with ⟨result, k'⟩
  rw [hResult] at hRecord
  let o := Session.opened (Machine.load c {} l).1 scale begun
    (Machine.load c {} l).2
  constructor
  · intro d e hd hFaults
    have hCount : q.frames - d - 1 + 1 + d = q.frames := by omega
    rw [← Nat.zero_add d] at hFaults
    have hFrames := runFrames_of_faults screen o.1 o.2
      hFaults (q.frames - d - 1) k
    rw [hCount, Nat.zero_add] at hFrames
    have hError : result = .error (.emulation d e) :=
      (congrArg Prod.fst hRecord).trans hFrames
    subst hError
    rw [hRun, perform_of_error hResult]
    exact ⟨rfl, rfl⟩
  · intro hFine m p
    have hFrames :
        (runFrames q.frames 0 (app 0).1.machine k).1 =
          .ok (app (0 + q.frames)).1.machine := by
      apply runFrames_of_fine screen o.1 o.2 hRunning
      intro i e _ hi
      rw [Nat.zero_add] at hi
      exact hFine i e hi
    rw [Nat.zero_add] at hFrames
    have hOk : result = .ok m :=
      (congrArg Prod.fst hRecord).trans hFrames
    subst hOk
    rw [hRun, perform_of_ok hResult]
    exact ⟨rfl, rfl⟩

theorem session_reached
    (scale : Nat)
    (begun : Bool)
    (screen : Array UInt8)
    (l j : Journal)
    {n d : Nat}
    (hd : d ≤ n) :
    let app := session c scale begun screen l
    (app d).1.shouldExit = false →
      ∃ k,
        runFrames n 0 (app 0).1.machine j =
          runFrames (n - d) d (app d).1.machine k := by
  intro app hRunning
  let o := Session.opened (Machine.load c {} l).1 scale begun
    (Machine.load c {} l).2
  rw [← Nat.zero_add d] at hRunning
  have hReached :=
    runFrames_reaches screen o.1 o.2 hRunning (n - d) j
  rw [Nat.sub_add_cancel hd, Nat.zero_add] at hReached
  exact hReached

/- However it goes, a run comes to one of three endings. -/
theorem run_ending
    {args : List String}
    (hAsks : Asks args q)
    (hAccepted : cartridge? (loaded q.image w).1 = some c)
    (scale : Nat)
    (begun : Bool)
    (screen : Array UInt8)
    (l : Journal) :
    let r := (run args : StateT Journal (StateM W) _) j w
    Ending q (session c scale begun screen l)
      (loaded q.image w).2 r.1.1 r.2 := by
  intro r
  let app := session c scale begun screen l
  obtain ⟨hFault, hFine⟩ :=
    run_of_accepted hAsks hAccepted scale begun screen l (j := j)
  by_cases hAny : ∃ d e, d < q.frames ∧ (app d).1.Faults e
  · obtain ⟨d, e, hd, hFaults⟩ := hAny
    obtain ⟨hExit, hAfter⟩ := hFault d e hd hFaults
    rw [hExit, hAfter]
    exact .faulted hd hFaults
  · have hNone (d : Nat) (e : DecodeFault) (hd : d < q.frames) :
        ¬ (app d).1.Faults e :=
      fun hFaults => hAny ⟨d, e, hd, hFaults⟩
    obtain ⟨hExit, hAfter⟩ := hFine hNone
    rw [hExit, hAfter]
    rcases hSaved :
        saved q.out (app q.frames).1.machine.videoBytes
          (loaded q.image w).2
      with ⟨result, after⟩
    cases result with
    | ok _ => exact .written hNone hSaved
    | error e => exact .unwritten hNone hSaved

/- The program and the session agree. -/
theorem agrees_of_accepted
    {args : List String}
    (hAsks : Asks args q)
    (hAccepted : cartridge? (loaded q.image w).1 = some c)
    (scale : Nat)
    (begun : Bool)
    (screen : Array UInt8)
    (l : Journal) :
    let r := (run args : StateT Journal (StateM W) _) j w
    Agrees q (session c scale begun screen l)
      (loaded q.image w).2 r.1.1 r.2 := by
  intro r
  have hEnding :=
    run_ending hAsks hAccepted scale begun screen l (j := j)
  constructor
  case written =>
    intro hZero
    obtain ⟨hFine, hSaved, hStdout⟩ :=
      hEnding.of_code_zero hZero
    refine ⟨hSaved, Picture.size_bytes _, ?_,
      hStdout.trans (summary_eq _ _), ?_⟩
    · obtain ⟨hRunning, -⟩ :=
        session_zero (c := c) scale begun screen l
      intro hSome hSize
      obtain ⟨k, hFrames⟩ := Nat.exists_eq_add_of_lt hSome
      rw [hFrames]
      exact Session.watched_shows _ _ _ hRunning hSize _
    · apply Session.watched_over_iff screen _ _ _ hFine
      cases begun <;> exact Iff.rfl
  case failed => exact hEnding.failed_iff
  case finished => exact hEnding.finished
  case fault =>
    intro d e hd hFaults
    obtain ⟨hExit, hAfter⟩ :=
      (run_of_accepted hAsks hAccepted scale begun screen l).1
        d e hd hFaults
    exact ⟨congrArg Exit.stderr hExit, hAfter⟩
  case reached =>
    intro d k hd
    exact session_reached scale begun screen l k hd
  case kept =>
    intro d e k i hFaults hLater
    exact Session.watched_of_faults screen _ _ hFaults hLater i

/- A run on an image that is refused. -/
theorem run_of_refused
    {args : List String}
    (hAsks : Asks args q)
    (hRefused : cartridge? (loaded q.image w).1 = none) :
    let r := (run args : StateT Journal (StateM W) _) j w
    r.1.1.code = 1 ∧ r.2 = (loaded q.image w).2 := by
  obtain ⟨e, k, hRecord⟩ :=
    record_of_refused hRefused q.image q.frames j
  rw [run_of_ok (ofArgs_ok_iff.mpr hAsks) j w,
    perform_of_error hRecord]
  exact ⟨rfl, rfl⟩

/- A run that no request was made of. -/
theorem run_of_not_asks
    {args : List String}
    (h : ∀ q, ¬ Asks args q) :
    let r := (run args : StateT Journal (StateM W) _) j w
    r.1.1.code = 2 ∧ r.2 = w := by
  cases hRead : Request.ofArgs args with
  | ok q => exact absurd (ofArgs_ok_iff.mp hRead) (h q)
  | error e =>
      rw [run_of_error hRead j w]
      exact ⟨rfl, rfl⟩

/-
  The program in any world of files, against a session on the
  same image.

  Its status is 2 if its arguments make no request, and then
  nothing is done.  If the image of a request is refused the
  status is 1 and nothing is written.  Otherwise the program
  agrees with every session on the cartridge, whatever its
  scale, its screen and what has been reported.
-/
theorem agreement
    (args : List String)
    (j : Journal)
    (w : W) :
    let r := (run args : StateT Journal (StateM W) _) j w
    (r.1.1.code = 2 ↔
        args.length < 2 ∨
          ∃ frames,
            args[2]? = some frames ∧
              ∀ n,
                Numeral.Spells frames.toList n →
                  ¬ n < 2 ^ 32) ∧
      (r.1.1.code = 2 → r.2 = w) ∧
      ∀ q,
        Asks args q →
          let v := (loaded q.image w).2
          match cartridge? (loaded q.image w).1 with
          | none => r.1.1.code = 1 ∧ r.2 = v
          | some c =>
              ∀ scale begun screen l,
                Agrees q (session c scale begun screen l) v
                  r.1.1 r.2 := by
  intro r
  have hAsked (q : Request) (hAsks : Asks args q) :
      r.1.1.code ≠ 2 ∧
        match cartridge? (loaded q.image w).1 with
        | none => r.1.1.code = 1 ∧ r.2 = (loaded q.image w).2
        | some c =>
            ∀ scale begun screen l,
              Agrees q (session c scale begun screen l)
                (loaded q.image w).2 r.1.1 r.2 := by
    cases hImage : cartridge? (loaded q.image w).1 with
    | none =>
        have hRefused := run_of_refused (j := j) hAsks hImage
        refine ⟨?_, hRefused⟩
        intro hTwo
        cases hTwo.symm.trans hRefused.1
    | some c =>
        have hAgrees := agrees_of_accepted (j := j) hAsks hImage
        refine ⟨?_, hAgrees⟩
        intro hTwo
        rcases (hAgrees 1 true #[] j).finished with
          hZero | hOne
        · cases hTwo.symm.trans hZero
        · cases hTwo.symm.trans hOne
  have hUnasked (hTwo : r.1.1.code = 2) (q : Request) :
      ¬ Asks args q :=
    fun hAsks => (hAsked q hAsks).1 hTwo
  refine ⟨?_, ?_, ?_⟩
  · rw [← not_asks_iff]
    exact ⟨hUnasked, fun h => (run_of_not_asks h).1⟩
  · intro hTwo
    exact (run_of_not_asks (hUnasked hTwo)).2
  · intro q hAsks
    exact (hAsked q hAsks).2

/- The first step of a program that begins with 0xD3 fails. -/
theorem runFrame_undecodable
    (j : Journal) :
    ((Machine.beginningWith 0xD3).runFrame j).1.1 =
      .error ⟨0xD3, 0x0100⟩ := by
  have hEvent :
      ((Machine.beginningWith 0xD3).core {}).event =
        .failed ⟨0xD3, 0x0100⟩ := by
    decide +kernel
  have hResult :
      ((Machine.beginningWith 0xD3).step j).1.1 =
        .error ⟨0xD3, 0x0100⟩ := by
    rw [Machine.step_blind _ j {},
      ((Machine.beginningWith 0xD3).step_core {}).1,
      Core.step_eq, hEvent]
  rcases hStep : (Machine.beginningWith 0xD3).step j
    with ⟨⟨result, n⟩, k⟩
  rw [hStep] at hResult
  cases hResult
  have hContinues :
      (Machine.beginningWith 0xD3).continues (0 + frameTicks) =
        true := by
    decide +kernel
  have hLoop := (Machine.beginningWith 0xD3).frameLoop_runFrame j
  rw [hLoop.eq_of_error hContinues hStep]

/- A world of one image, in which all paths can be written. -/
structure Disk where
  image : Array UInt8
  written : List (String × Array UInt8) := []

instance : Files (StateM Disk) where
  load _ d := (.ok d.image, d)
  save path bytes d :=
    (.ok (), { d with written := (path, bytes) :: d.written })

/-
  A program that begins with 0xD3 fails in its first frame,
  and nothing is written.  Nor is it if no file is named.
-/
theorem agreement_undecodable :
    let image := (Cartridge.beginningWith 0xD3).rom.toArray
    let d : Disk := { image := image }
    let ran (args : List String) :=
      (run args : StateT Journal (StateM Disk) _) {} d
    let r := ran ["game.gb", "out", "+3"]
    r.1.1.code = 1 ∧
      r.1.1.stderr =
        "error: " ++
          ("emulation failed during frame 0: " ++
            (⟨0xD3, 0x0100⟩ : DecodeFault).message) ++ "\n" ∧
      r.2 = d ∧
      (ran ["game.gb"]).1.1.code = 2 ∧
      (ran ["game.gb"]).2 = d := by
  have hAsks :
      Asks ["game.gb", "out", "+3"] ⟨"game.gb", "out", 3⟩ := by
    have hDigits : ∀ c ∈ ['3'], Numeral.IsDigit c := by
      simp [Numeral.IsDigit]
    have hSpells : Numeral.Spells "+3".toList 3 :=
      .signed (by decide) hDigits
    exact .counted "game.gb" "out" hSpells (by decide) []
  have hImage :=
    cartridge?_of_ok (Cartridge.ofBytes_beginningWith 0xD3)
  have hFaults :
      (session (Cartridge.beginningWith 0xD3) defaultScale true
        #[] {} 0).1.Faults ⟨0xD3, 0x0100⟩ := by
    obtain ⟨hRunning, hMachine⟩ :=
      session_zero (c := Cartridge.beginningWith 0xD3)
        defaultScale true #[] {}
    refine ⟨hRunning, ?_⟩
    intro j
    rw [hMachine]
    exact runFrame_undecodable j
  obtain ⟨c, hCartridge⟩ :
      ∃ c, c = Cartridge.beginningWith 0xD3 :=
    ⟨_, rfl⟩
  rw [← hCartridge] at hImage hFaults ⊢
  intro image d ran r
  obtain ⟨-, -, hRuns⟩ :=
    agreement ["game.gb", "out", "+3"] {} d
  have hAgrees := hRuns _ hAsks
  dsimp only at hAgrees
  rw [show (loaded "game.gb" d).1 = .ok c.rom.toArray from rfl,
    hImage] at hAgrees
  have hApp := hAgrees defaultScale true #[] {}
  obtain ⟨hStderr, hAfter⟩ := hApp.fault 0 _ (by decide) hFaults
  obtain ⟨hTwo, hLeft, -⟩ := agreement ["game.gb"] {} d
  have hCode := hTwo.mpr (.inl (by decide))
  exact ⟨hApp.failed.mpr (.inl ⟨0, _, by decide, hFaults⟩),
    hStderr, hAfter, hCode, hLeft hCode⟩

end Agreement

end Program

end Snapshot

end Dmg
