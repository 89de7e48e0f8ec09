import Dmg.Files.Directory
import Dmg.Proofs.Snapshot

/-
  The program in a working directory.

  A plain name leads to a file of the directory and nowhere
  else, so that what is read by it is that file, and what is
  written by it changes that file alone.

  Key definitions include:
    * `Directory.Plain`

  Main results:
    * `Directory.load_of_plain`
    * `Directory.save_of_plain`
    * `Snapshot.run_of_plain`
-/

namespace Dmg

------------------------------------------------------------
-- Plain Names
------------------------------------------------------------

namespace Directory

/- A name that can mean nothing but a file. -/
structure Plain (name : String) : Prop where
  nonempty : name ≠ ""
  noSlash : '/' ∉ name.toList
  noNul : '\x00' ∉ name.toList
  notHere : name ≠ "."
  notAround : name ≠ ".."
  short : name.utf8ByteSize ≤ nameLimit

example : Plain "game.gb" := by
  constructor <;> decide

theorem splitSlash_of_not_mem
    {cs : List Char}
    (h : '/' ∉ cs) :
    splitSlash cs = [cs] := by
  induction cs with
  | nil =>
      rfl
  | cons c cs ih =>
      rw [List.mem_cons, not_or] at h
      rw [splitSlash, if_neg (Ne.symm h.1), ih h.2]

section PlainNames

variable {name : String}

theorem Plain.checkPath_eq
    (h : Plain name) :
    checkPath name = .ok () := by
  have hNul : ¬ name.toList.contains '\x00' = true := by
    simpa using h.noNul
  have hShort : ¬ pathLimit ≤ name.utf8ByteSize := by
    have hSize := h.short
    simp only [pathLimit, nameLimit] at hSize ⊢
    omega
  unfold checkPath pathFault?
  rw [if_neg hNul, if_neg h.nonempty, if_neg hShort]

theorem Plain.parts_eq
    (h : Plain name) :
    parts name = (.working, [name]) := by
  unfold parts
  rw [splitSlash_of_not_mem h.noSlash, List.map_singleton,
    String.ofList_toList]
  split
  · rename_i hHead
    cases hHead
    exact absurd rfl h.nonempty
  · rfl

theorem Plain.stepInto_eq
    (h : Plain name)
    (d : Directory) :
    d.stepInto .working name =
      match d.get? name with
      | some _ => .ok (.file name)
      | none => .error .notFound := by
  have hShort := Nat.not_lt.mpr h.short
  unfold stepInto child?
  cases d.get? name <;>
    simp [Place.isDirectory, h.nonempty, h.notHere,
      h.notAround, hShort]

theorem load_of_plain
    (h : Plain name)
    (d : Directory) :
    d.load name =
      match d.get? name with
      | some bytes => .ok bytes
      | none => .error .notFound := by
  have hLocate :
      d.locate name = d.stepInto .working name := by
    unfold locate
    rw [h.checkPath_eq, h.parts_eq]
    exact bind_pure (d.stepInto .working name)
  unfold load
  rw [hLocate, h.stepInto_eq]
  cases hFile : d.get? name with
  | none =>
      rfl
  | some bytes =>
      change Except.ok ((d.get? name).getD #[]) = .ok bytes
      rw [hFile, Option.getD_some]

theorem Plain.writeIn_eq
    (h : Plain name)
    (d : Directory)
    (bytes : Array UInt8) :
    d.writeIn .working name false bytes =
      .ok (d.put name bytes) := by
  have hShort := Nat.not_lt.mpr h.short
  unfold writeIn writeAt child?
  cases d.get? name <;>
    simp [Place.isDirectory, h.notHere, h.notAround, hShort]

theorem save_of_plain
    (h : Plain name)
    (d : Directory)
    (bytes : Array UInt8) :
    d.save name bytes = .ok (d.put name bytes) := by
  have hNames :
      [name].dropWhile (fun part => part == "") = [name] := by
    simp [h.nonempty]
  have hSlash : ([name].getLast? == some "") = false := by
    simpa using h.nonempty
  unfold save
  rw [h.checkPath_eq, h.parts_eq]
  dsimp only [bind, Except.bind]
  rw [hSlash, List.reverse_singleton, hNames]
  exact h.writeIn_eq d bytes

/- The file of a plain name is what is read by it. -/
theorem load_eq_ok_iff
    (h : Plain name)
    (d : Directory)
    (bytes : Array UInt8) :
    d.load name = .ok bytes ↔ d.get? name = some bytes := by
  rw [load_of_plain h]
  cases d.get? name with
  | none => exact iff_of_false nofun nofun
  | some _ => rw [Except.ok.injEq, Option.some.injEq]

end PlainNames

end Directory

------------------------------------------------------------
-- The Program
------------------------------------------------------------

namespace Snapshot

open Directory

theorem cartridge?_eq_some_iff
    {contents : Except FileFault (Array UInt8)}
    {c : Cartridge} :
    cartridge? contents = some c ↔
      ∃ image,
        contents = .ok image ∧
          Cartridge.ofBytes image = .ok c := by
  constructor
  · intro h
    unfold cartridge? at h
    split at h
    · cases h
    · rename_i image
      split at h
      · cases h
      · rename_i hRead
        cases h
        exact ⟨image, rfl, hRead⟩
  · rintro ⟨image, rfl, hRead⟩
    exact cartridge?_of_ok hRead

theorem saved_of_plain
    {name : String}
    (h : Plain name)
    (bytes : Array UInt8)
    (d : Directory) :
    saved name bytes d = (.ok (), d.put name bytes) := by
  unfold saved
  simp only [Files.save]
  rw [save_of_plain h]

section Program

variable {args : List String} {q : Request} {c : Cartridge}

/-
  A run on a cartridge of the directory changes one file at
  most.  It is written exactly if no frame fails.
-/
theorem run_of_plain_out
    (hAsks : Asks args q)
    (hOut : Plain q.out)
    (j : Journal)
    (d : Directory)
    (hAccepted : cartridge? (d.load q.image) = some c)
    (scale : Nat)
    (begun : Bool)
    (screen : Array UInt8)
    (l : Journal) :
    let app := session c scale begun screen l
    let r :=
      (run args : StateT Journal (StateM Directory) _) j d
    (r.1.1.code = 0 ↔
        ∀ k e, k < q.frames → ¬ (app k).1.Faults e) ∧
      (r.1.1.code ≠ 0 → r.2 = d) ∧
      (r.1.1.code = 0 →
        r.2 =
          d.put q.out (app q.frames).1.machine.videoBytes) := by
  intro app r
  have hEnding : Ending q app d r.1.1 r.2 :=
    run_ending (w := d) hAsks hAccepted scale begun screen l
  have hSaved := saved_of_plain hOut
    (app q.frames).1.machine.videoBytes d
  clear_value r
  obtain ⟨⟨exit, k⟩, after⟩ := r
  dsimp only at hEnding ⊢
  cases hEnding with
  | faulted hk hFaults =>
      refine ⟨iff_of_false Nat.one_ne_zero ?_, fun _ => rfl,
        nofun⟩
      intro hFine
      exact hFine _ _ hk hFaults
  | unwritten _ hUnsaved =>
      rw [hSaved] at hUnsaved
      cases hUnsaved
  | written hFine hWritten =>
      rw [hSaved] at hWritten
      cases hWritten
      exact ⟨iff_of_true rfl hFine, fun h => absurd rfl h,
        fun _ => rfl⟩

/-
  The program on plain names.

  It ends well exactly if there is a file of the first name,
  it is accepted as an image, and no frame of it fails.  The
  file of the other name is then the picture of a session on
  the image.  No other file is touched, and none at all if
  the program fails.
-/
theorem run_of_plain
    (hAsks : Asks args q)
    (hImage : Plain q.image)
    (hOut : Plain q.out)
    (j : Journal)
    (d : Directory)
    (scale : Nat)
    (begun : Bool)
    (screen : Array UInt8)
    (l : Journal) :
    let r :=
      (run args : StateT Journal (StateM Directory) _) j d
    let Accepted (c : Cartridge) :=
      ∃ image,
        d.get? q.image = some image ∧
          Cartridge.ofBytes image = .ok c
    let app (c : Cartridge) := session c scale begun screen l
    (r.1.1.code = 0 ↔
        ∃ c,
          Accepted c ∧
            ∀ k e, k < q.frames → ¬ (app c k).1.Faults e) ∧
      (r.1.1.code ≠ 0 → r.2 = d) ∧
      (r.1.1.code = 0 →
        ∀ c,
          Accepted c →
            r.2.get? q.out =
              some (app c q.frames).1.machine.videoBytes) ∧
      ∀ name, name ≠ q.out → r.2.get? name = d.get? name := by
  intro r Accepted app
  have hAccepted (c : Cartridge) :
      Accepted c ↔ cartridge? (d.load q.image) = some c := by
    simp only [Accepted, cartridge?_eq_some_iff,
      load_eq_ok_iff hImage]
  simp only [hAccepted]
  cases hRead : cartridge? (d.load q.image) with
  | none =>
      obtain ⟨hCode, hKept⟩ :
          r.1.1.code = 1 ∧ r.2 = d :=
        run_of_refused (w := d) hAsks hRead
      rw [hCode, hKept]
      refine ⟨iff_of_false Nat.one_ne_zero ?_, fun _ => rfl,
        nofun, fun _ _ => rfl⟩
      rintro ⟨c, hNone, -⟩
      cases hNone
  | some c =>
      obtain ⟨hEnds, hKept, hWritten⟩ :=
        run_of_plain_out hAsks hOut j d hRead scale begun
          screen l
      refine ⟨?_, hKept, ?_, ?_⟩
      · rw [hEnds]
        simp only [Option.some.injEq, exists_eq_left']
        rfl
      · rintro hZero c' hSame
        cases hSame
        rw [hWritten hZero, get?_put_self]
      · intro name hOther
        by_cases hZero : r.1.1.code = 0
        · rw [hWritten hZero, get?_put_of_ne _ _ hOther]
        · rw [hKept hZero]

end Program

end Snapshot

end Dmg
