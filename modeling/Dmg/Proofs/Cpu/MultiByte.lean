import Dmg.Proofs.Cpu.Branches
import Dmg.Proofs.Cpu.PackedDecimal

/-
  Binary arithmetic on numbers of any length.

  ADC and SBC pass the carry or the borrow from one byte to
  the next through the carry flag.  So a chain of them, lowest
  byte first, computes a sum or a difference, whatever is done
  between its links as long as that keeps the carry flag.

  The sixteen-bit sums have adders of their own.  ADD HL does
  what such a chain does with the two bytes of HL; the flags
  of a signed byte added to SP are those of an eight-bit sum.

  Key definitions include:
    * `Registers.Combines`
    * `Registers.Chain`
    * `Core.addend`
    * `Core.binaryRoutine`

  Main results:
    * `Registers.Chain.balances`
    * `Core.combines_of_executed`
    * `Core.multi_byte_arithmetic`
-/

namespace Dmg

open PackedDecimal
  (Balances balances_adc_iff balances_sbc_iff toNat_eq_ite)

------------------------------------------------------------
-- Binary Numbers
------------------------------------------------------------

namespace Binary

/- The number that bytes stand for, lowest first. -/
def value
    (bs : List UInt8) : Nat :=
  Nat.ofDigits 256 (bs.map UInt8.toNat)

theorem value_cons
    (b : UInt8)
    (bs : List UInt8) :
    value (b :: bs) = b.toNat + 256 * value bs :=
  Nat.ofDigits_cons

theorem value_lt
    (bs : List UInt8) :
    value bs < 256 ^ bs.length := by
  have hDigits : ∀ d ∈ bs.map UInt8.toNat, d < 256 := by
    intro d hd
    rcases List.mem_map.mp hd with ⟨b, -, rfl⟩
    exact b.toNat_lt
  have hBelow :=
    Nat.ofDigits_lt_base_pow_length (by decide) hDigits
  rw [List.length_map] at hBelow
  exact hBelow

end Binary

------------------------------------------------------------
-- Links
------------------------------------------------------------

namespace Registers

/-
  From one register file to another, an operation has combined
  a byte in A with another byte: A and all flags are what it
  makes of them and of the carry flag.
-/
structure Combines
    (op : AluOp)
    (x y : UInt8)
    (r q : Registers) : Prop where
  before : r.a = x
  after : q.a = (op.apply x y (r.flag .c)).1
  flags :
    ∀ f, q.flag f = (op.apply x y (r.flag .c)).2.get f

theorem combines_accumulate
    (op : AluOp)
    (y : UInt8)
    (r : Registers) :
    Combines op r.a y r (r.accumulate op y) where
  before := rfl
  after := rfl
  flags := flag_accumulate r op y

section Link

variable {x y : UInt8} {r q : Registers}

/- ADC: carry and half carry are the carries out of a sum. -/
theorem Combines.sum
    (h : Combines .adc x y r q) :
    let k := (r.flag .c).toNat
    q.a.toNat = (x.toNat + y.toNat + k) % 256 ∧
      (q.flag .c = true ↔ 256 ≤ x.toNat + y.toNat + k) ∧
      (q.flag .h = true ↔
        16 ≤ x.toNat % 16 + y.toNat % 16 + k) ∧
      q.flag .z = (q.a == 0) ∧
      q.flag .n = false := by
  intro k
  have hX := x.toNat_lt
  have hY := y.toNat_lt
  have hRule :
      AluOp.adc.apply x y (r.flag .c) = Rules.add x y k :=
    Arithmetic.add_eq_rule x y (r.flag .c)
  have hAfter := h.after
  have hFlags := h.flags
  rw [hRule] at hAfter hFlags
  refine ⟨?_, ?_, ?_, ?_, hFlags .n⟩
  · rw [hAfter]
    exact UInt8.toNat_ofNat'
  · rw [hFlags .c]
    change decide (256 ≤ _) = true ↔ _
    rw [decide_eq_true_iff, Nat.mod_eq_of_lt hX,
      Nat.mod_eq_of_lt hY]
  · rw [hFlags .h]
    exact decide_eq_true_iff
  · rw [hFlags .z, hAfter, beq_zero_eq_toNat]
    rfl

/- SBC: they are the borrows into a difference. -/
theorem Combines.difference
    (h : Combines .sbc x y r q) :
    let k := (r.flag .c).toNat
    (q.a.toNat : Int) =
        ((x.toNat : Int) - y.toNat - k) % 256 ∧
      (q.flag .c = true ↔ x.toNat < y.toNat + k) ∧
      (q.flag .h = true ↔
        x.toNat % 16 < y.toNat % 16 + k) ∧
      q.flag .z = (q.a == 0) ∧
      q.flag .n = true := by
  intro k
  have hX := x.toNat_lt
  have hY := y.toNat_lt
  have hRule :
      AluOp.sbc.apply x y (r.flag .c) = Rules.sub x y k :=
    Arithmetic.sub_eq_rule x y (r.flag .c)
  have hAfter := h.after
  have hFlags := h.flags
  rw [hRule] at hAfter hFlags
  refine ⟨?_, ?_, ?_, ?_, hFlags .n⟩
  · rw [hAfter]
    change ((UInt8.ofInt _).toNat : Int) = _
    rw [toNat_ofInt_byte]
    exact Int.toNat_of_nonneg (Int.emod_nonneg _ (by decide))
  · rw [hFlags .c]
    change decide (_ % 256 < _ % 256 + _) = true ↔ _
    rw [decide_eq_true_iff, Nat.mod_eq_of_lt hX,
      Nat.mod_eq_of_lt hY]
  · rw [hFlags .h]
    exact decide_eq_true_iff
  · rw [hFlags .z, hAfter, beq_zero_eq_toNat]
    rfl

/- One byte is balanced at the place of 256. -/
theorem Combines.balances
    {op : AluOp}
    (hOp : op = .adc ∨ op = .sbc)
    (h : Combines op x y r q) :
    Balances op 256 x.toNat y.toNat (r.flag .c) q.a.toNat
      (q.flag .c) := by
  have hX := x.toNat_lt
  have hY := y.toNat_lt
  have hCarry := Bool.toNat_le (r.flag .c)
  rcases hOp with rfl | rfl
  · obtain ⟨hA, hC, -⟩ := h.sum
    rw [balances_adc_iff, toNat_eq_ite (q.flag .c),
      if_congr hC rfl rfl, hA]
    split <;> omega
  · obtain ⟨hA, hC, -⟩ := h.difference
    rw [balances_sbc_iff, toNat_eq_ite (q.flag .c),
      if_congr hC rfl rfl]
    split <;> omega

end Link

------------------------------------------------------------
-- Chains
------------------------------------------------------------

/-
  A chain of links from one register file to another.  Each
  combines a byte of one number with a byte of the other; up
  to the next link the carry flag is kept.
-/
inductive Chain
    (op : AluOp) :
    Registers → List (UInt8 × UInt8) → List UInt8 →
      Registers → Prop where
  | nil
      (r : Registers) :
      Chain op r [] [] r
  | cons
      {r u v q : Registers}
      {x y : UInt8}
      {ps : List (UInt8 × UInt8)}
      {out : List UInt8}
      (hCarry : u.flag .c = r.flag .c)
      (hLink : Combines op x y u v)
      (hRest : Chain op v ps out q) :
      Chain op r ((x, y) :: ps) (v.a :: out) q

open Binary

variable
  {op : AluOp}
  {r q : Registers}
  {ps : List (UInt8 × UInt8)}
  {out : List UInt8}

theorem Chain.of_nil
    (h : Chain op r [] out q) :
    out = [] ∧ q = r := by
  cases h
  exact ⟨rfl, rfl⟩

theorem Chain.of_cons
    {x y : UInt8}
    (h : Chain op r ((x, y) :: ps) out q) :
    ∃ u v rest,
      u.flag .c = r.flag .c ∧ Combines op x y u v ∧
        Chain op v ps rest q ∧ out = v.a :: rest := by
  cases h with
  | cons hCarry hLink hRest =>
      exact ⟨_, _, _, hCarry, hLink, hRest, rfl⟩

/- A chain may begin wherever the carry flag is the same. -/
theorem Chain.of_carry
    (h : Chain op r ps out q)
    {r' : Registers}
    (hCarry : r'.flag .c = r.flag .c) :
    ∃ q',
      Chain op r' ps out q' ∧ q'.flag .c = q.flag .c := by
  cases h with
  | nil => exact ⟨r', .nil r', hCarry⟩
  | cons hKept hLink hRest =>
      exact ⟨q, .cons (hKept.trans hCarry.symm) hLink hRest,
        rfl⟩

theorem Chain.length_eq
    (h : Chain op r ps out q) :
    out.length = ps.length := by
  induction h with
  | nil r => rfl
  | cons _ _ _ ih => exact congrArg Nat.succ ih

/-
  What the links of a chain leave in A is balanced with the
  numbers, the carry before it and the carry after it.
-/
theorem Chain.balances
    (hOp : op = .adc ∨ op = .sbc)
    (h : Chain op r ps out q) :
    Balances op (256 ^ ps.length)
      (value (ps.map Prod.fst)) (value (ps.map Prod.snd))
      (r.flag .c) (value out) (q.flag .c) := by
  induction h with
  | nil r =>
      unfold Balances
      simp [value]
  | cons hCarry hLink _ ih =>
      have hFirst := hLink.balances hOp
      rw [hCarry] at hFirst
      rw [List.map_cons, List.map_cons, value_cons,
        value_cons, value_cons, List.length_cons, Nat.pow_succ']
      exact hFirst.cons ih

theorem Chain.value_lt
    (h : Chain op r ps out q) :
    value out < 256 ^ ps.length := by
  rw [← h.length_eq]
  exact Binary.value_lt out

------------------------------------------------------------
-- Words
------------------------------------------------------------

/- A chain over the bytes of two words is their sum. -/
theorem Chain.addWord
    {x y : UInt16}
    (h :
      Chain .adc r
        [(lowByte x, lowByte y), (highByte x, highByte y)]
        out q)
    (hClear : r.flag .c = false) :
    let sum := Arithmetic.addWord x y
    out = [lowByte sum.1, highByte sum.1] ∧
      q.flag .h = sum.2.1 ∧
      q.flag .c = sum.2.2 := by
  intro sum
  obtain ⟨u, v, rest, hFirst, hLow, hTail, rfl⟩ := h.of_cons
  obtain ⟨u', v', rest', hSecond, hHigh, hEnd, rfl⟩ :=
    hTail.of_cons
  obtain ⟨rfl, rfl⟩ := hEnd.of_nil
  obtain ⟨hL, hLowCarry, -⟩ := hLow.sum
  obtain ⟨hH, hCarry, hHalf, -⟩ := hHigh.sum
  have hSum :
      sum.1.toNat = (x.toNat + y.toNat) % 65536 :=
    UInt16.toNat_add x y
  have hX := x.toNat_lt
  have hY := y.toNat_lt
  -- the carry into the upper bytes
  have hIn :
      (u'.flag .c).toNat =
        if 256 ≤ x.toNat % 256 + y.toNat % 256 then 1
        else 0 := by
    rw [hFirst, hClear] at hLowCarry
    rw [hSecond, toNat_eq_ite, if_congr hLowCarry rfl rfl,
      toNat_lowByte, toNat_lowByte, Bool.toNat_false,
      Nat.add_zero]
  rw [hFirst, hClear, toNat_lowByte, toNat_lowByte] at hL
  rw [hIn, toNat_highByte, toNat_highByte] at hH hCarry hHalf
  refine ⟨?_, ?_, ?_⟩
  · have hLower : v.a = lowByte sum.1 := by
      apply UInt8.toNat_inj.mp
      rw [hL, toNat_lowByte, hSum, Bool.toNat_false]
      omega
    have hUpper : q.a = highByte sum.1 := by
      apply UInt8.toNat_inj.mp
      rw [hH, toNat_highByte, hSum]
      split <;> omega
    rw [hLower, hUpper]
  · rw [Bool.eq_iff_iff, hHalf]
    change _ ↔ decide (_ < _) = true
    rw [decide_eq_true_iff]
    split <;> omega
  · rw [Bool.eq_iff_iff, hCarry]
    change _ ↔ decide (_ < _) = true
    rw [decide_eq_true_iff]
    split <;> omega

theorem flag_addToHL
    (w : UInt16)
    (r : Registers) :
    let sum := Arithmetic.addWord r.hl w
    let v := r.addToHL w
    v.hl = sum.1 ∧
      v.flag .z = r.flag .z ∧
      v.flag .n = false ∧
      v.flag .h = sum.2.1 ∧
      v.flag .c = sum.2.2 := by
  intro sum v
  let f :=
    ((r.setFlag .n false).setFlag .h sum.2.1).setFlag .c
      sum.2.2
  have hFlag (x : Flag) : v.flag x = f.flag x := rfl
  simp only [hFlag, f, flag_setFlag]
  exact ⟨hl_setHL f _, rfl, rfl, rfl, rfl⟩

/- The flags after an offset, whatever is set to the sum. -/
theorem flag_offsetFlags
    (half full : Bool)
    (r : Registers) :
    let v := r.offsetFlags half full
    v.flag .z = false ∧ v.flag .n = false ∧
      v.flag .h = half ∧ v.flag .c = full := by
  unfold offsetFlags
  simp only [flag_setFlag]
  exact ⟨rfl, rfl, rfl, rfl⟩

/- They are those of an eight-bit sum. -/
theorem Combines.addOffset
    {base : UInt16}
    {v : UInt8}
    (h : Combines .add (lowByte base) v r q) :
    let sum := Arithmetic.addOffset base v
    q.flag .h = sum.2.1 ∧ q.flag .c = sum.2.2 := by
  have hLow := toNat_lowByte base
  have hNone : (carryBit false).toNat = 0 := rfl
  constructor
  · rw [h.flags .h]
    change decide (_ < _) = decide (_ < _)
    rw [decide_eq_decide, hLow]
    omega
  · rw [h.flags .c]
    change decide (_ < _) = decide (_ < _)
    rw [decide_eq_decide, hLow]
    omega

end Registers

------------------------------------------------------------
-- Steps
------------------------------------------------------------

/- The operation on A that an instruction is, if any. -/
def Instruction.operation? : Instruction → Option AluOp
  | .alu op _ => some op
  | .aluByte op => some op
  | _ => none

namespace Core

variable {β : Type} [Bus β] {s : Core β}

/- The byte that an operation combines with that in A. -/
def addend
    (s : Core β)
    (i : Instruction) : UInt8 :=
  match i with
  | .alu _ o => ((s.begun.primed s.cpu.regs.pc i).get o).1
  | _ => lowByte (s.begun.operand i)

/- When an instruction takes effect, only PC has moved. -/
theorem regs_primed
    (s : Core β)
    (i : Instruction) :
    ∃ pc,
      (s.begun.primed s.cpu.regs.pc i).cpu.regs =
        { s.cpu.regs with pc := pc } := by
  rw [cpu_primed]
  change ∃ pc, fetchedRegs s.cpu = _
  unfold fetchedRegs
  split
  · exact ⟨s.cpu.regs.pc, rfl⟩
  · exact ⟨s.cpu.regs.pc + 1, rfl⟩

/-
  A step with an instruction that is no branch leaves to the
  registers what its effect makes of them, PC apart.
-/
theorem regs_of_effect
    {i : Instruction}
    (hEvent : s.event = .executed i)
    {effect : Registers → Registers}
    (hEffect :
      let u := s.begun.primed s.cpu.regs.pc i
      let r := u.execute i (s.begun.operand i)
      r.1 = .next ∧ r.2.cpu.regs = effect u.cpu.regs) :
    ∃ pc pc',
      s.step.2.cpu.regs =
        { effect { s.cpu.regs with pc := pc } with
          pc := pc' } := by
  let u := s.begun.primed s.cpu.regs.pc i
  obtain ⟨hFlow, hRegs⟩ := hEffect
  obtain ⟨pc, hBefore⟩ := s.regs_primed i
  refine ⟨pc, ?_⟩
  rw [(executes_of_event hEvent).state, regs_perform,
    ← hBefore, ← hRegs]
  unfold outcome
  rcases hResult : u.execute i (s.begun.operand i) with
    ⟨flow, v⟩
  rw [hResult] at hFlow
  subst hFlow
  exact ⟨_, rfl⟩

theorem cpu_get
    (o : Operand)
    (s : Core β) :
    (s.get o).2.cpu = s.cpu := by
  cases o <;> rfl

/- An operation on A is a link. -/
theorem combines_of_executed
    {i : Instruction}
    {op : AluOp}
    (hEvent : s.event = .executed i)
    (hOperation : i.operation? = some op) :
    Registers.Combines op s.cpu.regs.a (s.addend i)
      s.cpu.regs s.step.2.cpu.regs := by
  let u := s.begun.primed s.cpu.regs.pc i
  have hEffect :
      let r := u.execute i (s.begun.operand i)
      r.1 = .next ∧
        r.2.cpu.regs =
          Registers.accumulate op (s.addend i) u.cpu.regs := by
    cases i with
    | alu op' o =>
        cases hOperation
        refine ⟨rfl, ?_⟩
        rw [← cpu_get o u]
        rfl
    | aluByte op' =>
        cases hOperation
        exact ⟨rfl, rfl⟩
    | _ => cases hOperation
  obtain ⟨pc, pc', hRegs⟩ := regs_of_effect hEvent hEffect
  have hLink :=
    Registers.combines_accumulate op (s.addend i)
      { s.cpu.regs with pc := pc }
  rw [hRegs]
  exact ⟨rfl, hLink.after, hLink.flags⟩

/-
  ADD HL leaves in HL, in the carry and in the half carry what
  any chain over the bytes of HL and of the word leaves.
-/
theorem addHL_of_executed
    {p : Pair}
    (hEvent : s.event = .executed (.addHL p)) :
    let before := s.cpu.regs
    let after := s.step.2.cpu.regs
    let w := s.pair p
    after.flag .n = false ∧
      after.flag .z = before.flag .z ∧
      ∀ r q out,
        r.flag .c = false →
        Registers.Chain .adc r
          [(before.l, lowByte w), (before.h, highByte w)]
          out q →
        out = [after.l, after.h] ∧
          after.flag .h = q.flag .h ∧
          after.flag .c = q.flag .c := by
  intro before after w
  let u := s.begun.primed s.cpu.regs.pc (.addHL p)
  have hPair : u.pair p = w := by
    obtain ⟨pc, hBefore⟩ := s.regs_primed (.addHL p)
    cases p <;>
      simp only [u, w, pair, hBefore] <;> rfl
  have hEffect :
      let r := u.execute (.addHL p)
        (s.begun.operand (.addHL p))
      r.1 = .next ∧
        r.2.cpu.regs = Registers.addToHL w u.cpu.regs := by
    rw [← hPair]
    exact ⟨rfl, rfl⟩
  obtain ⟨pc, pc', hRegs⟩ := regs_of_effect hEvent hEffect
  obtain ⟨hHl, hZ, hN, hHalf, hFull⟩ :=
    Registers.flag_addToHL w { before with pc := pc }
  let v := Registers.addToHL w { before with pc := pc }
  let sum := Arithmetic.addWord before.hl w
  have hFlag (f : Flag) : after.flag f = v.flag f := by
    unfold after
    rw [hRegs]
    rfl
  have hL : after.l = lowByte sum.1 :=
    congrArg Registers.l hRegs
  have hH : after.h = highByte sum.1 :=
    congrArg Registers.h hRegs
  refine ⟨(hFlag .n).trans hN, (hFlag .z).trans hZ, ?_⟩
  intro r q out hClear hChain
  have hLow : before.l = lowByte before.hl :=
    (lowByte_word before.h before.l).symm
  have hHigh : before.h = highByte before.hl :=
    (highByte_word before.h before.l).symm
  rw [hLow, hHigh] at hChain
  obtain ⟨hOut, hChainHalf, hChainFull⟩ :=
    hChain.addWord hClear
  rw [hL, hH, hFlag, hFlag, hChainHalf, hChainFull]
  exact ⟨hOut, hHalf, hFull⟩

/- The two instructions that add a signed byte to SP. -/
def offsetResult? : Instruction → Option (Registers → UInt16)
  | .addSP => some Registers.sp
  | .loadHLSP => some Registers.hl
  | _ => none

theorem offset_of_executed
    {i : Instruction}
    {result : Registers → UInt16}
    (hEvent : s.event = .executed i)
    (hResult : offsetResult? i = some result) :
    let sp := s.cpu.regs.sp
    let v := lowByte (s.begun.operand i)
    let after := s.step.2.cpu.regs
    ((result after).toNat : Int) =
        (sp.toNat + Rules.offset v) % 65536 ∧
      after.flag .z = false ∧
      after.flag .n = false ∧
      ∀ r q,
        Registers.Combines .add (lowByte sp) v r q →
        after.flag .h = q.flag .h ∧
          after.flag .c = q.flag .c := by
  intro sp v after
  let sum := Arithmetic.addOffset sp v
  have hAfter :
      result after = sum.1 ∧
        ∃ start : Registers,
          after.f =
            (start.offsetFlags sum.2.1 sum.2.2).f := by
    let u := s.begun.primed s.cpu.regs.pc i
    unfold after
    cases i with
    | addSP =>
        cases hResult
        have hEffect :
            let r := u.execute .addSP (s.begun.operand .addSP)
            r.1 = .next ∧
              r.2.cpu.regs = Registers.addToSP v u.cpu.regs :=
          ⟨rfl, rfl⟩
        obtain ⟨pc, pc', hRegs⟩ :=
          regs_of_effect hEvent hEffect
        let start : Registers := { s.cpu.regs with pc := pc }
        rw [hRegs]
        exact ⟨rfl, start, rfl⟩
    | loadHLSP =>
        cases hResult
        have hEffect :
            let r :=
              u.execute .loadHLSP (s.begun.operand .loadHLSP)
            r.1 = .next ∧
              r.2.cpu.regs =
                Registers.loadHLFromSP v u.cpu.regs :=
          ⟨rfl, rfl⟩
        obtain ⟨pc, pc', hRegs⟩ :=
          regs_of_effect hEvent hEffect
        let start : Registers := { s.cpu.regs with pc := pc }
        have hHl :=
          Registers.hl_setHL
            (start.offsetFlags sum.2.1 sum.2.2) sum.1
        rw [hRegs]
        exact ⟨hHl, start, rfl⟩
    | _ => cases hResult
  obtain ⟨hResult, start, hF⟩ := hAfter
  have hFlag (x : Flag) :
      after.flag x =
        (start.offsetFlags sum.2.1 sum.2.2).flag x :=
    congrArg (bit · x.position) hF
  obtain ⟨hZ, hN, hHalf, hFull⟩ :=
    start.flag_offsetFlags sum.2.1 sum.2.2
  refine ⟨?_, (hFlag .z).trans hZ, (hFlag .n).trans hN, ?_⟩
  · have hSum : sum.1 = Rules.moved sp v :=
      add_signExtend sp v
    rw [hResult, hSum]
    unfold Rules.moved
    rw [toNat_ofInt_word]
    exact Int.toNat_of_nonneg (Int.emod_nonneg _ (by decide))
  · intro r q hLink
    obtain ⟨hLinkHalf, hLinkFull⟩ := hLink.addOffset
    rw [hFlag, hFlag, hHalf, hFull]
    exact ⟨hLinkHalf.symm, hLinkFull.symm⟩

------------------------------------------------------------
-- A Routine
------------------------------------------------------------

/- LD A and ADC A or SBC A, and A is stored at HL. -/
def binaryByte
    (op : AluOp)
    (p : UInt8 × UInt8) : List (Instruction × UInt16) :=
  byteOperation op p ++ [(.storeA .hlUp, 0)]

/- The routine for two numbers, given as pairs of bytes. -/
def binaryRoutine
    (op : AluOp)
    (ps : List (UInt8 × UInt8)) :
    List (Instruction × UInt16) :=
  ps.flatMap (binaryByte op)

/-
  It is a chain for any two numbers of one length, from any
  state, and stores what the links leave in A.
-/
theorem chain_binaryRoutine
    (op : AluOp)
    (ps : List (UInt8 × UInt8))
    (s : Core β) :
    let t := s.executeAll (binaryRoutine op ps)
    ∃ out q,
      Registers.Chain op s.cpu.regs ps out q ∧
        t.cpu.regs.flag .c = q.flag .c ∧
        t.bus = Bus.store out s.cpu.regs.hl s.bus := by
  induction ps generalizing s with
  | nil => exact ⟨[], s.cpu.regs, .nil _, rfl, rfl⟩
  | cons p ps ih =>
      let r : Registers := { s.cpu.regs with a := p.1 }
      let v := r.accumulate op p.2
      let u : Core β :=
        ⟨{ s.cpu with regs := v.setHL (s.cpu.regs.hl + 1) },
          Bus.write s.cpu.regs.hl v.a s.bus⟩
      have hFirst :
          s.executeAll (binaryRoutine op (p :: ps)) =
            u.executeAll (binaryRoutine op ps) := by
        unfold binaryRoutine binaryByte
        rw [List.flatMap_cons, executeAll_append,
          executeAll_append, executeAll_byteOperation]
        rfl
      have hHl : u.cpu.regs.hl = s.cpu.regs.hl + 1 :=
        Registers.hl_setHL v _
      have hLink : Registers.Combines op p.1 p.2 r v :=
        Registers.combines_accumulate op p.2 r
      have hKept : r.flag .c = s.cpu.regs.flag .c := rfl
      obtain ⟨out, q, hChain, hCarry, hBus⟩ := ih u
      have hBack : v.flag .c = u.cpu.regs.flag .c := rfl
      obtain ⟨q', hRest, hSame⟩ := hChain.of_carry hBack
      refine ⟨v.a :: out, q', ?_, ?_, ?_⟩
      · exact .cons hKept hLink hRest
      · rw [hFirst, hSame]
        exact hCarry
      · rw [hFirst, hBus, hHl]
        rfl

------------------------------------------------------------
-- Numbers Of Any Length
------------------------------------------------------------

open Registers (Chain Combines)
open Binary (value)

/-
  A step with an operation on A is a link.  A link with ADC or
  SBC leaves in A the sum or difference with the carry; carry
  and half carry are those out of, or borrowed into, eight and
  four bits, the zero flag tells whether A is zero, and N
  tells the operation.

  So a chain over numbers of any length, with either carry
  before it, leaves the bytes of their sum or difference
  modulo 256 ^ n, and the carry flag tells an overflow or a
  borrow.  From every state there is a routine that is such a
  chain and stores these bytes.

  The adders of sixteen bits agree: ADD HL with a chain over
  two bytes, and the flags of a signed byte added to SP with
  an eight-bit ADD to the low byte of SP.
-/
theorem multi_byte_arithmetic :
    (∀ (s : Core β) i op,
      s.event = .executed i →
      i.operation? = some op →
      Combines op s.cpu.regs.a (s.addend i) s.cpu.regs
        s.step.2.cpu.regs) ∧
    (∀ (x y : UInt8) r q,
      let k := (r.flag .c).toNat
      (Combines .adc x y r q →
        q.a.toNat = (x.toNat + y.toNat + k) % 256 ∧
          (q.flag .c = true ↔
            256 ≤ x.toNat + y.toNat + k) ∧
          (q.flag .h = true ↔
            16 ≤ x.toNat % 16 + y.toNat % 16 + k) ∧
          q.flag .z = (q.a == 0) ∧ q.flag .n = false) ∧
      (Combines .sbc x y r q →
        (q.a.toNat : Int) =
            ((x.toNat : Int) - y.toNat - k) % 256 ∧
          (q.flag .c = true ↔ x.toNat < y.toNat + k) ∧
          (q.flag .h = true ↔
            x.toNat % 16 < y.toNat % 16 + k) ∧
          q.flag .z = (q.a == 0) ∧ q.flag .n = true)) ∧
    (∀ r q ps out,
      let n := ps.length
      let x := value (ps.map Prod.fst)
      let y := value (ps.map Prod.snd)
      let k := (r.flag .c).toNat
      (Chain .adc r ps out q →
        out.length = n ∧
          value out = (x + y + k) % 256 ^ n ∧
          (q.flag .c = true ↔ 256 ^ n ≤ x + y + k)) ∧
      (Chain .sbc r ps out q →
        out.length = n ∧
          (value out : Int) =
            ((x : Int) - y - k) % (256 ^ n : Nat) ∧
          (q.flag .c = true ↔ x < y + k))) ∧
    (∀ op ps (s : Core β),
      let t := s.executeAll (binaryRoutine op ps)
      ∃ out q,
        Chain op s.cpu.regs ps out q ∧
          t.cpu.regs.flag .c = q.flag .c ∧
          t.bus = Bus.store out s.cpu.regs.hl s.bus) ∧
    (∀ (s : Core β) p,
      s.event = .executed (.addHL p) →
      let before := s.cpu.regs
      let after := s.step.2.cpu.regs
      let w := s.pair p
      after.flag .n = false ∧
        after.flag .z = before.flag .z ∧
        ∀ r q out,
          r.flag .c = false →
          Chain .adc r
            [(before.l, lowByte w), (before.h, highByte w)]
            out q →
          out = [after.l, after.h] ∧
            after.flag .h = q.flag .h ∧
            after.flag .c = q.flag .c) ∧
    ∀ (s : Core β) i result,
      s.event = .executed i →
      offsetResult? i = some result →
      let sp := s.cpu.regs.sp
      let v := lowByte (s.begun.operand i)
      let after := s.step.2.cpu.regs
      ((result after).toNat : Int) =
          (sp.toNat + Rules.offset v) % 65536 ∧
        after.flag .z = false ∧
        after.flag .n = false ∧
        ∀ r q,
          Combines .add (lowByte sp) v r q →
          after.flag .h = q.flag .h ∧
            after.flag .c = q.flag .c := by
  refine ⟨?_, ?_, ?_, ?_, ?_, ?_⟩
  · intro s i op hEvent hOperation
    exact combines_of_executed hEvent hOperation
  · intro x y r q k
    exact ⟨Combines.sum, Combines.difference⟩
  · intro r q ps out n x y k
    refine ⟨?_, ?_⟩
    · intro hChain
      have hBalance := hChain.balances (.inl rfl)
      exact ⟨hChain.length_eq,
        hBalance.sum_eq hChain.value_lt⟩
    · intro hChain
      have hBalance := hChain.balances (.inr rfl)
      exact ⟨hChain.length_eq,
        hBalance.difference_eq hChain.value_lt⟩
  · exact chain_binaryRoutine
  · intro s p hEvent
    exact addHL_of_executed hEvent
  · intro s i result hEvent hResult
    exact offset_of_executed hEvent hResult

/-
  12FF and 3401 and a carry make 4701.  At entry, ADC A,44
  makes 46 of A; ADD HL,DE makes 0225 of HL, as a chain over
  4D and D8, and 01 and 00, does; and FF added to SP takes one
  from it, with the carry of FE and FF added.
-/
theorem multi_byte_arithmetic_carrying :
    let ps : List (UInt8 × UInt8) :=
      [(0xFF, 0x01), (0x12, 0x34)]
    let t := carrying.executeAll (binaryRoutine .adc ps)
    let word := loaded [0x19] {}
    let byte := loaded [0xCE, 0x44] {}
    let offset := loaded [0xE8, 0xFF] {}
    (∃ out,
        t.bus = Bus.store out 0xC000 carrying.bus ∧
          out.length = 2 ∧ value out = 0x4701 ∧
          t.cpu.regs.flag .c = false) ∧
      (word.event = .executed (.addHL .de) ∧
        ∃ q,
          Chain .adc {} [(0x4D, 0xD8), (0x01, 0x00)]
            [0x25, 0x02] q) ∧
      (byte.event = .executed (.aluByte .adc) ∧
        byte.step.2.cpu.regs.a = 0x46) ∧
      offset.event = .executed .addSP ∧
        offset.step.2.cpu.regs.sp.toNat = 0xFFFD ∧
        offset.step.2.cpu.regs.flag .c = true := by
  intro ps t word byte offset
  have hWord : word.event = .executed (.addHL .de) := by
    decide +kernel
  have hByte : byte.event = .executed (.aluByte .adc) := by
    decide +kernel
  have hOffset : offset.event = .executed .addSP := by
    decide +kernel
  obtain ⟨hLinks, hFlags, hChains, hRoutine, hHL, hSP⟩ :=
    multi_byte_arithmetic (β := FlatMemory)
  refine ⟨?_, ⟨hWord, ?_⟩, ⟨hByte, ?_⟩, hOffset, ?_, ?_⟩
  · obtain ⟨out, q, hChain, hCarry, hBus⟩ :=
      hRoutine .adc ps carrying
    obtain ⟨hLength, hValue, hOver⟩ :=
      (hChains _ q ps out).1 hChain
    refine ⟨out, hBus, hLength, hValue.trans (by decide), ?_⟩
    rw [hCarry, Bool.eq_false_iff, ne_eq, hOver]
    decide +kernel
  · let start : Core FlatMemory := ⟨{ regs := {} }, {}⟩
    have hBytes :
        word.cpu.regs.l = 0x4D ∧ word.cpu.regs.h = 0x01 ∧
          lowByte (word.pair .de) = 0xD8 ∧
          highByte (word.pair .de) = 0x00 := by
      decide +kernel
    have hSum :
        word.step.2.cpu.regs.l = 0x25 ∧
          word.step.2.cpu.regs.h = 0x02 := by
      decide +kernel
    obtain ⟨out, q, hChain, -⟩ :=
      hRoutine .adc [(0x4D, 0xD8), (0x01, 0x00)] start
    obtain ⟨-, -, hAgrees⟩ := hHL word .de hWord
    rw [hBytes.1, hBytes.2.1, hBytes.2.2.1, hBytes.2.2.2,
      hSum.1, hSum.2] at hAgrees
    obtain ⟨rfl, -⟩ := hAgrees {} q out rfl hChain
    exact ⟨q, hChain⟩
  · have hLink := hLinks byte (.aluByte .adc) .adc hByte rfl
    obtain ⟨hA, -⟩ := (hFlags _ _ _ _).1 hLink
    apply UInt8.toNat_inj.mp
    rw [hA]
    decide +kernel
  · have hSum := (hSP offset .addSP _ hOffset rfl).1
    exact Int.ofNat_inj.mp (hSum.trans (by decide +kernel))
  · let r : Registers := { a := 0xFE }
    have hLink :=
      Registers.combines_accumulate .add 0xFF r
    obtain ⟨-, -, -, hAgrees⟩ :=
      hSP offset .addSP _ hOffset rfl
    have hBytes :
        lowByte offset.cpu.regs.sp = 0xFE ∧
          lowByte (offset.begun.operand .addSP) = 0xFF := by
      decide +kernel
    rw [hBytes.1, hBytes.2] at hAgrees
    rw [(hAgrees r _ hLink).2]
    decide

end Core

end Dmg
