import Dmg.Proofs.Cpu.FlagRules
import Dmg.Proofs.Machine.History
import Dmg.Proofs.Memory.Footprint

/-
  The joypad, over any history of touches and selections.

  A button is held if its last touch has held it, however
  often it was touched before.  The program selects what it
  reads of them by what it last wrote to P1, and a touch
  requests an interrupt exactly if it holds a button that was
  not held.

  Key definitions include:
    * `Touch`
    * `Touch.held`, `Touch.isPress`
    * `Machine.touch`
    * `Machine.Touched`

  Main results:
    * `Joypad.read_low`
    * `Joypad.read_high`
    * `Machine.Touched.isHeld`
    * `Machine.Reachable.joypad_register`
-/

namespace Dmg

------------------------------------------------------------
-- Touches
------------------------------------------------------------

/- What is done to a button from outside, or to a key. -/
inductive Touch where
  | button (x : Button) (holds : Bool)
  | key (k : Key) (holds : Bool)
deriving DecidableEq, Repr

namespace Touch

/- The button that is touched. -/
def button? : Touch → Option Button
  | .button x _ => some x
  | .key k _ => k.button?

/- Whether the button is held from then on. -/
def holds : Touch → Bool
  | .button _ holds => holds
  | .key _ holds => holds

/- Whether the last touch of a button, if any, has held it. -/
def held
    (x : Button)
    (ts : List Touch) : Bool :=
  (ts.reverse.find? fun t => t.button? = some x).any holds

/- Whether a touch holds a button that was not held. -/
def isPress
    (ts : List Touch)
    (t : Touch) : Bool :=
  t.holds && t.button?.any fun x => !held x ts

theorem held_append
    (x : Button)
    (ts : List Touch)
    (t : Touch) :
    held x (ts ++ [t]) =
      if t.button? = some x then t.holds else held x ts := by
  unfold held
  rw [List.reverse_append, List.reverse_singleton,
    List.singleton_append, List.find?_cons]
  by_cases hTouched : t.button? = some x
  · rw [if_pos hTouched, decide_eq_true hTouched]
    rfl
  · rw [if_neg hTouched, decide_eq_false hTouched]

end Touch

------------------------------------------------------------
-- The Register
------------------------------------------------------------

namespace Joypad

variable (j : Joypad)

/- Two buttons can be touched in either order. -/
theorem set_comm
    {x y : Button}
    (h : x ≠ y)
    (u v : Bool) :
    (j.set x u).set y v = (j.set y v).set x u := by
  have hApart (hSame : x.isDirection = y.isDirection) :
      x.position ≠ y.position :=
    fun hPosition =>
      h ((Button.position_eq_iff hSame).mp hPosition)
  unfold set group
  cases hx : x.isDirection <;> cases hy : y.isDirection
  · have hCommute :=
      setBit_comm j.actions (hApart (hx.trans hy.symm)) u v
    exact congrArg (fun a => { j with actions := a }) hCommute
  · rfl
  · rfl
  · have hCommute :=
      setBit_comm j.directions (hApart (hx.trans hy.symm)) u v
    exact congrArg (fun d => { j with directions := d })
      hCommute

/- A group that is not selected pulls no bit down. -/
theorem bit_pulled
    (selected : Bool)
    (held : UInt8)
    (i : Fin 8) :
    bit (pulled selected held) i =
      (bit 0x0F i && !(selected && bit held i)) := by
  unfold pulled
  cases selected with
  | false => exact (Bool.and_true _).symm
  | true =>
      rw [if_pos rfl, bit_and, bit_not]
      rfl

/- Select bits are read as they were written. -/
theorem read_high
    {last : UInt8}
    (hSelect : j.select = last &&& 0x30) :
    j.read &&& 0xF0 = 0xC0 ||| (last &&& 0x30) := by
  apply byte_ext
  intro i
  have hHigh : bit 0xF0 i = !bit 0x0F i := by
    revert i
    decide
  have hLow :
      bit 0x0F i = true →
        bit 0xC0 i = false ∧ bit 0x30 i = false := by
    revert i
    decide
  unfold read
  simp only [hSelect, bit_and, bit_or, bit_pulled, hHigh]
  cases hBit : bit 0x0F i with
  | false => simp
  | true => simp [hLow hBit]

/-
  A bit of the lower half is clear if the direction of a
  selected group is held, or the action is.
-/
theorem read_low
    {last : UInt8}
    (hSelect : j.select = last &&& 0x30)
    {x y : Button}
    (hx : x.isDirection = true)
    (hy : y.isDirection = false)
    (hSame : y.position = x.position) :
    bit j.read x.position = false ↔
      (bit last 4 = false ∧ j.isHeld x = true) ∨
        (bit last 5 = false ∧ j.isHeld y = true) := by
  have hDirections :
      ∀ b : UInt8, (b &&& 0x30 &&& 0x10 == 0) = !bit b 4 :=
    forall_byte (by decide +kernel)
  have hActions :
      ∀ b : UInt8, (b &&& 0x30 &&& 0x20 == 0) = !bit b 5 :=
    forall_byte (by decide +kernel)
  have hLow :
      bit 0x0F x.position = true ∧
        bit 0xC0 x.position = false ∧
        bit 0x30 x.position = false := by
    cases x <;> decide
  have hGroups :
      j.group x = j.directions ∧ j.group y = j.actions := by
    unfold group
    rw [hx, hy]
    exact ⟨rfl, rfl⟩
  obtain ⟨hF, hC, h3⟩ := hLow
  unfold read isHeld
  rw [hSelect, hGroups.1, hGroups.2, hSame]
  simp only [bit_and, bit_or, bit_pulled, hDirections,
    hActions, hF, hC, h3]
  cases bit last 4 <;> cases bit last 5 <;>
    cases bit j.directions x.position <;>
    cases bit j.actions x.position <;> simp

end Joypad

------------------------------------------------------------
-- Boards
------------------------------------------------------------

namespace Board

/- Other locations move neither buttons nor serial line. -/
theorem ports_writeAt
    (b : Board)
    (v : UInt8)
    (l : Location) :
    (l ≠ .joypad → (b.writeAt v l).joypad = b.joypad) ∧
      (l ≠ .serialData → l ≠ .serialControl →
        (b.writeAt v l).serial = b.serial) := by
  cases l with
  | joypad => exact ⟨fun h => absurd rfl h, fun _ _ => rfl⟩
  | serialData => exact ⟨fun _ => rfl, fun h => absurd rfl h⟩
  | serialControl =>
      exact ⟨fun _ => rfl, fun _ h => absurd rfl h⟩
  | spriteCopy =>
      rcases b.copySprites_cases v with
        ⟨ram, registers, -, -, hCopy⟩
      change
        (_ → (b.copySprites v).joypad = _) ∧
          (_ → _ → (b.copySprites v).serial = _)
      rw [hCopy]
      exact ⟨fun _ => rfl, fun _ _ => rfl⟩
  | videoRam k =>
      change
        (_ → (b.writeVideo k v).joypad = _) ∧
          (_ → _ → (b.writeVideo k v).serial = _)
      unfold writeVideo
      split <;> exact ⟨fun _ => rfl, fun _ _ => rfl⟩
  | _ => exact ⟨fun _ => rfl, fun _ _ => rfl⟩

/- One register selects buttons, and none holds them. -/
theorem joypad_write
    (b : Board)
    (addr : UInt16)
    (v : UInt8) :
    (b.write addr v).joypad =
      if addr = 0xFF00 then b.joypad.write v else b.joypad := by
  split
  · next hAddr =>
      rw [hAddr]
      rfl
  · next hAddr =>
      apply (b.ports_writeAt v _).1
      intro hLoc
      exact hAddr (Location.eq_address hLoc (by decide))

/- The select bits are those that were last written. -/
theorem historic_select :
    Historic fun as b =>
      b.joypad.select =
        Access.lastWritten 0xFF00 0x30 as &&& 0x30 where
  fresh _ := rfl
  read as addr v b h := by
    rw [Access.lastWritten_read]
    exact h
  write as addr v b h := by
    rw [joypad_write, Access.lastWritten_write]
    split
    · rfl
    · exact h
  setInterrupts _ _ _ h := h
  advance _ _ _ _ _ h := h
  setButton as x held b h := by
    change (b.joypad.set x held).select = _
    unfold Joypad.set
    dsimp only
    split <;> exact h
  takeFrame _ _ h := h

/- What is on the bus does not move the buttons. -/
theorem invariant_isHeld
    (held : Button → Bool) :
    Bus.Invariant fun w : Wired =>
      ∀ x, w.board.joypad.isHeld x = held x where
  read _ _ h := h
  write addr v w h := by
    intro x
    change (w.board.write addr v).joypad.isHeld x = _
    rw [joypad_write]
    split <;> exact h x
  setInterrupts _ _ h := h
  note _ _ h := h

/- Two buttons can be held or released in either order. -/
theorem setButton_comm
    (b : Board)
    {x y : Button}
    (h : x ≠ y)
    (u v : Bool) :
    (b.setButton x u).setButton y v =
      (b.setButton y v).setButton x u := by
  have hFirst : (b.setButton x u).presses y v = b.presses y v := by
    unfold presses setButton
    rw [Joypad.isHeld_set, if_neg h]
  have hSecond :
      (b.setButton y v).presses x u = b.presses x u := by
    unfold presses setButton
    rw [Joypad.isHeld_set, if_neg (Ne.symm h)]
  unfold setButton at hFirst hSecond ⊢
  rw [hFirst, hSecond, b.joypad.set_comm h]
  cases b.presses x u <;> cases b.presses y v <;> rfl

/- What a touch does to a board. -/
def touch
    (t : Touch)
    (b : Board) : Board :=
  match t.button? with
  | none => b
  | some x => b.setButton x t.holds

/- Two touches of different buttons commute. -/
theorem touch_comm
    {t u : Touch}
    (h : ∀ x, t.button? = some x → u.button? ≠ some x)
    (b : Board) :
    (b.touch t).touch u = (b.touch u).touch t := by
  unfold touch
  cases ht : t.button? with
  | none => rfl
  | some x =>
      cases hu : u.button? with
      | none => rfl
      | some y =>
          have hNe : x ≠ y := by
            rintro rfl
            exact h x ht hu
          exact b.setButton_comm hNe t.holds u.holds

theorem isHeld_touch
    (t : Touch)
    (b : Board)
    (y : Button) :
    (b.touch t).joypad.isHeld y =
      if t.button? = some y then t.holds
      else b.joypad.isHeld y := by
  unfold touch
  cases t.button? with
  | none => rfl
  | some x =>
      change (b.joypad.set x t.holds).isHeld y = _
      simp only [Joypad.isHeld_set, Option.some_inj]

end Board

------------------------------------------------------------
-- Machines
------------------------------------------------------------

namespace Machine

/- Touch a button or a key. -/
def touch
    (t : Touch)
    (m : Machine) : Journaled Machine :=
  match t with
  | .button x holds => m.setButton x holds
  | .key k holds => m.handleKey k holds

/-
  A machine with the touches, in order, since it was switched
  on or reset.
-/
inductive Touched : List Touch → Machine → Prop where
  | new : Touched [] {}
  | reset
      (m : Machine)
      (journal : Journal) :
      Touched [] (m.reset journal).1
  | load
      (c : Cartridge)
      (m : Machine)
      (journal : Journal) :
      Touched [] (m.load c journal).1
  | step
      {ts : List Touch}
      {m : Machine}
      (h : Touched ts m)
      (journal : Journal) :
      Touched ts (m.step journal).1.2
  | takeFrame
      {ts : List Touch}
      {m : Machine}
      (h : Touched ts m) :
      Touched ts m.takeFrame
  | touch
      {ts : List Touch}
      {m : Machine}
      (h : Touched ts m)
      (t : Touch)
      (journal : Journal) :
      Touched (ts ++ [t]) (m.touch t journal).1
  | write
      {ts : List Touch}
      {m : Machine}
      (h : Touched ts m)
      (addr : UInt16)
      (v : UInt8)
      (journal : Journal) :
      Touched ts (m.write addr v journal).1

/- Every reachable machine has been touched, or not. -/
theorem Reachable.touched
    {m : Machine}
    (h : m.Reachable) :
    ∃ ts, Touched ts m := by
  apply h.lasting (P := fun m => ∃ ts, Touched ts m)
  constructor
  · intro m journal
    exact ⟨[], .reset m journal⟩
  · rintro m journal ⟨ts, hTouched⟩
    exact ⟨ts, hTouched.step journal⟩
  · rintro m ⟨ts, hTouched⟩
    exact ⟨ts, hTouched.takeFrame⟩
  · rintro button held m journal ⟨ts, hTouched⟩
    exact ⟨_, hTouched.touch (.button button held) journal⟩
  · rintro addr v m journal ⟨ts, hTouched⟩
    exact ⟨ts, hTouched.write addr v journal⟩

/- A frame touches nothing. -/
theorem Touched.runFrame
    {ts : List Touch}
    {m : Machine}
    (h : Touched ts m)
    (journal : Journal) :
    Touched ts (m.runFrame journal).1.2 :=
  runUntil_invariant (fun _ j hBefore => hBefore.step j)
    (fun _ hBefore => hBefore.takeFrame) h _ _ journal

/- A touch makes no access. -/
theorem History.touch
    {as : List Access}
    {m : Machine}
    (h : History as m)
    (t : Touch)
    (journal : Journal) :
    History as (m.touch t journal).1 := by
  cases t with
  | button x holds => exact h.setButton x holds journal
  | key k holds =>
      unfold Machine.touch handleKey
      dsimp only
      cases k.button? with
      | none => exact h
      | some x => exact h.setButton x holds journal

/- A touch changes the board, and nothing else. -/
theorem touch_eq
    (t : Touch)
    (m : Machine)
    (journal : Journal) :
    (m.touch t journal).1 =
      { m with board := m.board.touch t } := by
  have hSet (x : Button) (holds : Bool) :
      (m.setButton x holds journal).1 =
        { m with board := m.board.setButton x holds } := by
    unfold setButton
    cases m.board.presses x holds <;> rfl
  cases t with
  | button x holds => exact hSet x holds
  | key k holds =>
      unfold touch handleKey Board.touch Touch.button?
      dsimp only
      cases k.button? with
      | none => rfl
      | some x => exact hSet x holds

/- The buttons held are those whose last touch holds them. -/
theorem Touched.isHeld
    {ts : List Touch}
    {m : Machine}
    (h : Touched ts m) :
    ∀ x, m.board.joypad.isHeld x = Touch.held x ts := by
  have hFresh (x : Button) :
      ({} : Joypad).isHeld x = Touch.held x [] := by
    cases x <;> decide
  induction h with
  | new => exact hFresh
  | reset m journal => exact hFresh
  | load c m journal => exact hFresh
  | @step ts m _ journal ih =>
      have hExecuted :=
        Core.step_invariant (Board.invariant_isHeld _)
          (s := m.core journal) ih
      rcases m.step_outcome journal with
        ⟨e, -, hStep⟩ | ⟨cost, -, hStep⟩
      · rw [hStep]
        exact hExecuted
      · rw [hStep]
        exact hExecuted
  | takeFrame _ ih => exact ih
  | @touch ts m _ t journal ih =>
      intro y
      rw [touch_eq, Touch.held_append, ← ih]
      exact m.board.isHeld_touch t y
  | @write ts m _ addr v journal ih =>
      intro x
      change (m.board.write addr v).joypad.isHeld x = _
      rw [Board.joypad_write]
      split <;> exact ih x

/- A touch of a machine that has been touched before. -/
theorem Touched.touch_eq
    {ts : List Touch}
    {m : Machine}
    (h : Touched ts m)
    (t : Touch)
    (journal : Journal) :
    let j := m.board.joypad
    let ic := m.board.interrupts
    (m.touch t journal).1 =
      { m with
        board :=
          { m.board with
            joypad := t.button?.elim j fun x => j.set x t.holds
            interrupts :=
              if t.isPress ts then ic.request .joypad
              else ic } } := by
  intro j ic
  rw [Machine.touch_eq]
  unfold Board.touch Touch.isPress
  cases t.button? with
  | none =>
      rw [Option.any_none, Bool.and_false]
      rfl
  | some x =>
      rw [Option.any_some, ← h.isHeld x]
      rfl

/-
  What a program reads of the buttons is told by what it last
  wrote to P1 and by the touches since the machine was
  switched on or reset: a bit of the lower half is clear if
  its button of a selected group is held.

  A touch holds or releases its button, and changes nothing
  else but that it requests an interrupt if it is a press.
  Touches of different buttons commute.
-/
theorem Reachable.joypad_register
    {m : Machine}
    (h : m.Reachable) :
    (∃ as, History as m) ∧
      (∃ ts, Touched ts m) ∧
      (∀ as ts, History as m → Touched ts m →
        let last := Access.lastWritten 0xFF00 0x30 as
        let v := m.read 0xFF00
        v &&& 0xF0 = 0xC0 ||| (last &&& 0x30) ∧
          (∀ i x y,
            (i, x, y) ∈
              [((0 : Fin 8), Button.right, Button.a),
                (1, .left, .b), (2, .up, .select),
                (3, .down, .start)] →
              (bit v i = false ↔
                (bit last 4 = false ∧
                    Touch.held x ts = true) ∨
                  (bit last 5 = false ∧
                    Touch.held y ts = true))) ∧
          ∀ t journal,
            let n := (m.touch t journal).1
            let j := m.board.joypad
            let ic := m.board.interrupts
            Touched ts (m.runFrame journal).1.2 ∧
              History as n ∧ Touched (ts ++ [t]) n ∧
              n =
                { m with
                  board :=
                    { m.board with
                      joypad :=
                        t.button?.elim j fun x =>
                          j.set x t.holds
                      interrupts :=
                        if t.isPress ts then
                          ic.request .joypad
                        else ic } } ∧
              n.board.interrupts.isRequested .joypad =
                (t.isPress ts || ic.isRequested .joypad)) ∧
      ∀ t u : Touch,
        (∀ x, t.button? = some x → u.button? ≠ some x) →
          ∀ i j k l,
            ((m.touch t i).1.touch u j).1 =
              ((m.touch u k).1.touch t l).1 := by
  refine ⟨h.history, h.touched, ?_, ?_⟩
  · intro as ts hHistory hTouched last v
    have hSelect : m.board.joypad.select = last &&& 0x30 :=
      hHistory.board Board.historic_select
    refine ⟨m.board.joypad.read_high hSelect, ?_, ?_⟩
    · intro i x y hButtons
      have hGroups :
          x.isDirection = true ∧ y.isDirection = false ∧
            y.position = x.position ∧ x.position = i := by
        revert hButtons
        revert i x y
        simp only [List.mem_cons, List.not_mem_nil, or_false]
        rintro i x y (h | h | h | h) <;> cases h <;> decide
      obtain ⟨hx, hy, hSame, rfl⟩ := hGroups
      rw [← hTouched.isHeld x, ← hTouched.isHeld y]
      exact m.board.joypad.read_low hSelect hx hy hSame
    · intro t journal n j ic
      have hEq := hTouched.touch_eq t journal
      refine ⟨hTouched.runFrame journal, ?_,
        hTouched.touch t journal, hEq, ?_⟩
      · exact hHistory.touch t journal
      · rw [show n = _ from hEq]
        dsimp only
        cases t.isPress ts with
        | false => rfl
        | true => exact ic.isRequested_request .joypad .joypad
  · intro t u hApart i j k l
    rw [touch_eq, touch_eq, touch_eq, touch_eq]
    dsimp only
    rw [m.board.touch_comm hApart]

/- The touches of a key of A and of a direction. -/
def twoTouches : List Touch :=
  [.key .z true, .button .left true]

/- A machine that reads both groups, with a button of each. -/
def twoHeld : Machine :=
  let m := (({} : Machine).write 0xFF00 0x0F {}).1
  let m := (m.touch (.key .z true) {}).1
  (m.touch (.button .left true) {}).1

/-
  Both buttons are read.  Another press of the key is none,
  and the two buttons can be released in either order.
-/
theorem joypad_register_twoHeld :
    let m := twoHeld
    let v := m.read 0xFF00
    let again := (m.touch (.key .z true) {}).1
    m.Reachable ∧ History [.write 0xFF00 0x0F] m ∧
      Touched twoTouches m ∧
      v &&& 0xF0 = 0xC0 ∧
      bit v 0 = false ∧ bit v 1 = false ∧ bit v 2 = true ∧
      again.board.interrupts.isRequested .joypad =
        m.board.interrupts.isRequested .joypad ∧
      ((m.touch (.key .z false) {}).1.touch
          (.button .left false) {}).1 =
        ((m.touch (.button .left false) {}).1.touch
          (.key .z false) {}).1 := by
  intro m v again
  have hReachable : m.Reachable :=
    ((Reachable.new.write 0xFF00 0x0F {}).handleKey .z true
      {}).setButton .left true {}
  have hHistory : History [.write 0xFF00 0x0F] m :=
    ((History.new.write 0xFF00 0x0F {}).touch (.key .z true)
      {}).touch (.button .left true) {}
  have hTouched : Touched twoTouches m :=
    ((Touched.new.write 0xFF00 0x0F {}).touch (.key .z true)
      {}).touch (.button .left true) {}
  obtain ⟨-, -, hRead, hComm⟩ := hReachable.joypad_register
  obtain ⟨hHigh, hLow, hTouch⟩ := hRead _ _ hHistory hTouched
  obtain ⟨-, -, -, -, hAgain⟩ := hTouch (.key .z true) {}
  have hBit0 := hLow 0 .right .a (by decide)
  have hBit1 := hLow 1 .left .b (by decide)
  have hBit2 := hLow 2 .up .select (by decide)
  refine ⟨hReachable, hHistory, hTouched, hHigh, ?_, ?_, ?_,
    ?_, ?_⟩
  · exact hBit0.mpr (.inr (by decide))
  · exact hBit1.mpr (.inl (by decide))
  · rw [← Bool.not_eq_false]
    intro hClear
    exact absurd (hBit2.mp hClear) (by decide)
  · exact hAgain
  · exact hComm _ _ (by rintro x hx; cases hx; decide) {} {} {} {}

end Machine

end Dmg
