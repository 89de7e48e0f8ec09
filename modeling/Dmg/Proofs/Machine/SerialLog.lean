import Dmg.Proofs.Machine.Buttons

/-
  The output of the serial line is a log of the transfers.

  Each write to the control register that starts a transfer
  adds one byte to the log: the one last written to the data
  register since the transfer before.  Nothing else adds to
  the log, and nothing takes from it.

  Key definitions include:
    * `Access.isTransfer`
    * `Access.waiting`
    * `Access.sent`
    * `Machine.Logs`

  Main results:
    * `Access.sent_append`
    * `Board.historic_serial`
    * `Machine.Reachable.serial_log`
-/

namespace Dmg

------------------------------------------------------------
-- Transfers
------------------------------------------------------------

namespace Access

/- Whether an access starts a transfer. -/
def isTransfer : Access → Bool
  | .read _ _ => false
  | .write addr v => addr == 0xFF02 && Serial.starts v

/- The accesses since the last transfer. -/
def sinceTransfer
    (as : List Access) : List Access :=
  (as.reverse.takeWhile fun a => !a.isTransfer).reverse

/-
  The byte that waits to be sent: the one last written since
  the last transfer, or else what is there after a transfer,
  or before the first.
-/
def waiting
    (as : List Access) : UInt8 :=
  lastWritten 0xFF01 (if as.any isTransfer then 0xFF else 0x00)
    (sinceTransfer as)

/- The bytes sent: for each transfer, what waited before it. -/
def sent
    (as : List Access) : List UInt8 :=
  let transfers :=
    (List.range as.length).filter fun i =>
      as[i]?.any isTransfer
  transfers.map fun i => waiting (as.take i)

theorem waiting_snoc
    (as : List Access)
    (a : Access) :
    waiting (as ++ [a]) =
      if a.isTransfer then 0xFF
      else lastWritten 0xFF01 (waiting as) [a] := by
  unfold waiting sinceTransfer
  rw [List.reverse_append, List.reverse_singleton,
    List.singleton_append, List.takeWhile_cons,
    List.any_append, List.any_cons, List.any_nil,
    Bool.or_false]
  cases hTransfer : a.isTransfer with
  | true =>
      rw [Bool.or_true]
      rfl
  | false =>
      rw [Bool.or_false, ← lastWritten_append]
      simp

theorem sent_snoc
    (as : List Access)
    (a : Access) :
    sent (as ++ [a]) =
      sent as ++ if a.isTransfer then [waiting as] else [] := by
  have hFilter :
      ((List.range as.length).filter fun i =>
          (as ++ [a])[i]?.any isTransfer) =
        (List.range as.length).filter fun i =>
          as[i]?.any isTransfer := by
    apply List.filter_congr
    intro i hi
    rw [List.getElem?_append_left (List.mem_range.mp hi)]
  have hLast :
      (as ++ [a])[as.length]?.any isTransfer =
        a.isTransfer := by
    rw [List.getElem?_concat_length]
    rfl
  unfold sent
  dsimp only
  rw [List.length_append, List.length_singleton,
    List.range_succ, List.filter_append, List.map_append,
    hFilter, List.filter_cons, List.filter_nil, hLast]
  congr 1
  · apply List.map_congr_left
    intro i hi
    have hLt : i < as.length :=
      List.mem_range.mp (List.mem_filter.mp hi).1
    rw [List.take_append_of_le_length (Nat.le_of_lt hLt)]
  · cases a.isTransfer with
    | false => rfl
    | true =>
        rw [if_pos rfl, if_pos rfl, List.map_singleton,
          List.take_left]

/- Later accesses add a byte for each of their transfers. -/
theorem sent_append
    (as bs : List Access) :
    ∃ later,
      sent (as ++ bs) = sent as ++ later ∧
        later.length = bs.countP isTransfer := by
  induction bs generalizing as with
  | nil => exact ⟨[], by simp, rfl⟩
  | cons b bs ih =>
      obtain ⟨later, hLater, hLength⟩ := ih (as ++ [b])
      rw [List.append_assoc, List.singleton_append, sent_snoc,
        List.append_assoc] at hLater
      refine ⟨_, hLater, ?_⟩
      rw [List.length_append, hLength, List.countP_cons,
        Nat.add_comm]
      split <;> rfl

end Access

------------------------------------------------------------
-- The Bus
------------------------------------------------------------

namespace Board

open Access

/- Two registers move the serial line when written. -/
theorem serial_write
    (b : Board)
    (addr : UInt16)
    (v : UInt8) :
    (b.write addr v).serial =
      if addr = 0xFF02 then b.serial.writeControl v
      else if addr = 0xFF01 then b.serial.writeData v
      else b.serial := by
  split
  · next hControl =>
      rw [hControl]
      rfl
  · next hControl =>
      split
      · next hData =>
          rw [hData]
          rfl
      · next hData =>
          apply (b.ports_writeAt v _).2
          · intro hLoc
            exact hData (Location.eq_address hLoc (by decide))
          · intro hLoc
            exact hControl
              (Location.eq_address hLoc (by decide))

/-
  A transfer sends the data byte.  It leaves the line idle and
  requests an interrupt.
-/
theorem write_of_transfer
    (b : Board)
    {v : UInt8}
    (h : Serial.starts v = true) :
    let n := b.write 0xFF02 v
    n.serial.output = b.serial.output.push b.serial.data ∧
      n.read 0xFF01 = 0xFF ∧
      bit (n.read 0xFF02) 7 = false ∧
      n.interrupts.isRequested .serial = true := by
  intro n
  have hSerial :
      n.serial =
        ⟨0xFF, v &&& 0x7F,
          b.serial.output.push b.serial.data⟩ := by
    change b.serial.writeControl v = _
    unfold Serial.writeControl
    rw [if_pos h]
    rfl
  refine ⟨?_, ?_, ?_, ?_⟩
  · rw [hSerial]
  · change n.serial.data = 0xFF
    rw [hSerial]
  · have hClear :
        ∀ v : UInt8, bit (v &&& 0x7F ||| 0x7E) 7 = false :=
      forall_byte (by decide +kernel)
    change bit n.serial.readControl 7 = false
    rw [hSerial]
    exact hClear v
  · change
      (if Serial.starts v = true then
          b.interrupts.request .serial
        else b.interrupts).isRequested .serial = true
    rw [if_pos h, InterruptController.isRequested_request]
    rfl

/- No other write sends anything, or moves the data byte. -/
theorem write_of_no_transfer
    (b : Board)
    {addr : UInt16}
    {v : UInt8}
    (h : (Access.write addr v).isTransfer = false) :
    (b.write addr v).serial.output = b.serial.output ∧
      (b.write addr v).serial.data =
        if addr = 0xFF01 then v else b.serial.data := by
  rw [serial_write]
  by_cases hControl : addr = 0xFF02
  · subst hControl
    have hStarts : Serial.starts v = false := h
    rw [if_pos rfl, if_neg (by decide)]
    unfold Serial.writeControl
    simp only [hStarts, Bool.false_eq_true, if_false, and_self]
  · rw [if_neg hControl]
    split <;> exact ⟨rfl, rfl⟩

/- The output is the log, and the data byte waits. -/
theorem historic_serial :
    Historic fun as b =>
      b.serial.output.toList = sent as ∧
        b.serial.data = waiting as where
  fresh _ := ⟨rfl, rfl⟩
  read as addr v b h := by
    rw [sent_snoc, waiting_snoc]
    exact ⟨h.1.trans (List.append_nil _).symm, h.2⟩
  write as addr v b h := by
    obtain ⟨hSent, hWaiting⟩ := h
    rw [sent_snoc, waiting_snoc]
    cases hTransfer : (Access.write addr v).isTransfer with
    | true =>
        obtain ⟨hAddr, hStarts⟩ :=
          (Bool.and_eq_true _ _).mp hTransfer
        cases eq_of_beq hAddr
        obtain ⟨hOutput, hIdle, -⟩ :=
          b.write_of_transfer hStarts
        refine ⟨?_, hIdle⟩
        rw [hOutput, Array.toList_push, hSent, hWaiting]
        rfl
    | false =>
        obtain ⟨hOutput, hData⟩ :=
          b.write_of_no_transfer hTransfer
        rw [hOutput, hData, hSent, ← hWaiting]
        exact ⟨(List.append_nil _).symm, rfl⟩
  setInterrupts _ _ _ h := h
  advance _ _ _ _ _ h := h
  setButton _ _ _ _ h := h
  takeFrame _ _ h := h

end Board

------------------------------------------------------------
-- Machines
------------------------------------------------------------

namespace Machine

/- The accesses of a frame are those of its steps. -/
theorem History.runFrame
    {as : List Access}
    {m : Machine}
    (h : History as m)
    (journal : Journal) :
    ∃ bs, History (as ++ bs) (m.runFrame journal).1.2 := by
  unfold Machine.runFrame
  apply runUntil_invariant
    (P := fun m => ∃ bs, History (as ++ bs) m)
  · rintro m j ⟨bs, hBefore⟩
    refine ⟨bs ++ (m.core j).accesses, ?_⟩
    rw [← List.append_assoc]
    exact hBefore.step j
  · rintro m ⟨bs, hBefore⟩
    exact ⟨bs, hBefore.takeFrame⟩
  · exact ⟨[], (List.append_nil as).symm ▸ h⟩

/-
  From one machine to another some accesses have been made,
  and for each transfer among them there is one more byte in
  the log.
-/
structure Logs
    (as bs : List Access)
    (m n : Machine) : Prop where
  history : History (as ++ bs) n
  output : n.serialOutput.toList = Access.sent (as ++ bs)
  grows :
    ∃ later,
      n.serialOutput.toList = m.serialOutput.toList ++ later ∧
        later.length = bs.countP Access.isTransfer

theorem History.logs
    {as bs : List Access}
    {m n : Machine}
    (h : History as m)
    (hNext : History (as ++ bs) n) :
    Logs as bs m n := by
  obtain ⟨hBefore, -⟩ := h.board Board.historic_serial
  obtain ⟨hAfter, -⟩ := hNext.board Board.historic_serial
  obtain ⟨later, hLater, hLength⟩ := Access.sent_append as bs
  refine ⟨hNext, hAfter, later, ?_, hLength⟩
  calc n.serialOutput.toList
      = Access.sent (as ++ bs) := hAfter
    _ = Access.sent as ++ later := hLater
    _ = m.serialOutput.toList ++ later :=
        congrArg (· ++ later) hBefore.symm

/- What makes no access leaves the log. -/
theorem History.logs_nil
    {as : List Access}
    {m n : Machine}
    (h : History as m)
    (hNext : History as n) :
    Logs as [] m n :=
  h.logs ((List.append_nil as).symm ▸ hNext)

/-
  The output is the log of the transfers since the machine was
  switched on or reset, whoever started them, and no step,
  frame, touch or write takes from it.

  On the bus a transfer sends the data byte, leaves the line
  idle, and requests an interrupt.  No other write, no read,
  no change of the interrupt controller and no report sends
  anything.  A word that is stored at the data register sends
  its low byte if its high byte starts a transfer.
-/
theorem Reachable.serial_log
    {m : Machine}
    (h : m.Reachable) :
    (∃ as, History as m) ∧
      (∀ as, History as m →
        m.serialOutput.toList = Access.sent as ∧
          m.read 0xFF01 = Access.waiting as ∧
          (∀ journal,
            Logs as (m.core journal).accesses m
              (m.step journal).1.2) ∧
          (∀ journal, ∃ bs,
            Logs as bs m (m.runFrame journal).1.2) ∧
          Logs as [] m m.takeFrame ∧
          (∀ t journal, Logs as [] m (m.touch t journal).1) ∧
          ∀ addr v journal,
            Logs as [.write addr v] m
              (m.write addr v journal).1) ∧
      ∀ w : Wired,
        let line := w.board.serial
        (∀ addr v,
          let b := (Bus.write addr v w).board
          if (Access.write addr v).isTransfer then
            b.serial.output = line.output.push line.data ∧
              b.read 0xFF01 = 0xFF ∧
              bit (b.read 0xFF02) 7 = false ∧
              b.interrupts.isRequested .serial = true
          else b.serial.output = line.output) ∧
        (∀ addr, (Bus.read addr w).2.board.serial = line) ∧
        (∀ ic, (Bus.setInterrupts ic w).board.serial = line) ∧
        (∀ msg, (Bus.note msg w).board.serial = line) ∧
        ∀ x,
          (Bus.writeWord 0xFF01 x w).board.serial.output =
            if Serial.starts (highByte x) then
              line.output.push (lowByte x)
            else line.output := by
  refine ⟨h.history, ?_, ?_⟩
  · intro as hHistory
    obtain ⟨hSent, hWaiting⟩ :=
      hHistory.board Board.historic_serial
    refine ⟨hSent, hWaiting, ?_, ?_, ?_, ?_, ?_⟩
    · intro journal
      exact hHistory.logs (hHistory.step journal)
    · intro journal
      obtain ⟨bs, hNext⟩ := hHistory.runFrame journal
      exact ⟨bs, hHistory.logs hNext⟩
    · exact hHistory.logs_nil hHistory.takeFrame
    · intro t journal
      exact hHistory.logs_nil (hHistory.touch t journal)
    · intro addr v journal
      exact hHistory.logs (hHistory.write addr v journal)
  · intro w line
    refine ⟨?_, fun _ => rfl, fun _ => rfl, fun _ => rfl, ?_⟩
    · intro addr v b
      cases hTransfer : (Access.write addr v).isTransfer with
      | true =>
          obtain ⟨hAddr, hStarts⟩ :=
            (Bool.and_eq_true _ _).mp hTransfer
          cases eq_of_beq hAddr
          exact w.board.write_of_transfer hStarts
      | false =>
          exact (w.board.write_of_no_transfer hTransfer).1
    · intro x
      let b := w.board.write 0xFF01 (lowByte x)
      change (b.write 0xFF02 (highByte x)).serial.output = _
      cases hStarts : Serial.starts (highByte x) with
      | true => exact (b.write_of_transfer hStarts).1
      | false =>
          have hNone :
              (Access.write 0xFF02 (highByte x)).isTransfer =
                false := hStarts
          exact (b.write_of_no_transfer hNone).1

/- Two transfers, and what is written in between. -/
def transfers : List Access :=
  [.write 0xFF01 0x41, .write 0xFF02 0x81, .write 0xFF02 0x81,
    .write 0xFF01 0x42, .write 0xFF02 0x01]

/- The machine after them. -/
def sentTwice : Machine :=
  let m := (({} : Machine).write 0xFF01 0x41 {}).1
  let m := (m.write 0xFF02 0x81 {}).1
  let m := (m.write 0xFF02 0x81 {}).1
  let m := (m.write 0xFF01 0x42 {}).1
  (m.write 0xFF02 0x01 {}).1

/- The second transfer sends what the first has left. -/
theorem serial_log_sentTwice :
    let m := sentTwice
    let n := (m.write 0xFF02 0xFF {}).1
    m.Reachable ∧ History transfers m ∧
      m.serialOutput.toList = [0x41, 0xFF] ∧
      n.serialOutput.toList = [0x41, 0xFF, 0x42] := by
  intro m n
  have hReachable : m.Reachable :=
    ((((Reachable.new.write 0xFF01 0x41 {}).write 0xFF02 0x81
      {}).write 0xFF02 0x81 {}).write 0xFF01 0x42 {}).write
        0xFF02 0x01 {}
  have hHistory : History transfers m :=
    ((((History.new.write 0xFF01 0x41 {}).write 0xFF02 0x81
      {}).write 0xFF02 0x81 {}).write 0xFF01 0x42 {}).write
        0xFF02 0x01 {}
  obtain ⟨-, hLog, -⟩ := hReachable.serial_log
  obtain ⟨hSent, -, -, -, -, -, hWrite⟩ := hLog _ hHistory
  have hNext := (hWrite 0xFF02 0xFF {}).output
  exact ⟨hReachable, hHistory, hSent.trans (by decide),
    hNext.trans (by decide)⟩

end Machine

end Dmg
