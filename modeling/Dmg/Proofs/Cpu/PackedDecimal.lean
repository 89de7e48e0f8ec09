import Dmg.Memory.Flat
import Dmg.Proofs.Cpu.FlagRules
import Mathlib.Data.Nat.Digits.Defs
import Mathlib.Tactic.LinearCombination

/-
  Decimal arithmetic on numbers of any length.

  A packed byte holds two decimal digits.  A sum or difference
  of two packed bytes, adjusted, is again a packed byte, and
  the carry flag is the carry or the borrow between places of
  a hundred.  So a routine that goes through two numbers byte
  by byte, lowest first, computes their sum or difference.

  Key definitions include:
    * `IsPacked`
    * `PackedDecimal.number`, `PackedDecimal.value`
    * `PackedDecimal.packed`
    * `Registers.decimal`
    * `Core.executeAll`
    * `Core.decimalRoutine`

  Main results:
    * `PackedDecimal.balances_adjusted`
    * `Core.decimalRoutine_balances`
    * `Core.decimalRoutine_stores`
    * `Core.decimal_arithmetic`
-/

namespace Dmg

------------------------------------------------------------
-- Packed Bytes
------------------------------------------------------------

/- Both halves of a byte are decimal digits. -/
def IsPacked
    (b : UInt8) : Prop :=
  b.toNat / 16 ≤ 9 ∧ b.toNat % 16 ≤ 9

instance : DecidablePred IsPacked :=
  fun _ => inferInstanceAs (Decidable (_ ∧ _))

namespace PackedDecimal

/- The number that a packed byte stands for. -/
def number
    (b : UInt8) : Nat :=
  b.toNat / 16 * 10 + b.toNat % 16

/- The packed byte of a number below a hundred. -/
def pack
    (d : Nat) : UInt8 :=
  UInt8.ofNat (d / 10 * 16 + d % 10)

theorem number_lt
    {b : UInt8}
    (h : IsPacked b) :
    number b < 100 := by
  unfold IsPacked at h
  unfold number
  omega

theorem toNat_pack
    {d : Nat}
    (h : d < 100) :
    (pack d).toNat = d / 10 * 16 + d % 10 := by
  unfold pack
  rw [UInt8.toNat_ofNat']
  omega

theorem isPacked_pack
    {d : Nat}
    (h : d < 100) :
    IsPacked (pack d) := by
  unfold IsPacked
  rw [toNat_pack h]
  omega

theorem number_pack
    {d : Nat}
    (h : d < 100) :
    number (pack d) = d := by
  unfold number
  rw [toNat_pack h]
  omega

theorem pack_number
    {b : UInt8}
    (h : IsPacked b) :
    pack (number b) = b := by
  apply UInt8.toNat_inj.mp
  rw [toNat_pack (number_lt h)]
  unfold IsPacked at h
  unfold number
  omega

------------------------------------------------------------
-- Packed Numbers
------------------------------------------------------------

/- The number that packed bytes stand for, lowest first. -/
def value
    (bs : List UInt8) : Nat :=
  Nat.ofDigits 100 (bs.map number)

/- The lowest places of a number, as packed bytes. -/
def packed : Nat → Nat → List UInt8
  | 0, _ => []
  | n + 1, v => pack (v % 100) :: packed n (v / 100)

theorem value_cons
    (b : UInt8)
    (bs : List UInt8) :
    value (b :: bs) = number b + 100 * value bs :=
  Nat.ofDigits_cons

theorem value_lt
    {bs : List UInt8}
    (h : ∀ b ∈ bs, IsPacked b) :
    value bs < 100 ^ bs.length := by
  have hDigits : ∀ d ∈ bs.map number, d < 100 := by
    intro d hd
    rcases List.mem_map.mp hd with ⟨b, hb, rfl⟩
    exact number_lt (h b hb)
  have hBelow :=
    Nat.ofDigits_lt_base_pow_length (by decide) hDigits
  rw [List.length_map] at hBelow
  exact hBelow

theorem length_packed
    (n v : Nat) :
    (packed n v).length = n := by
  induction n generalizing v with
  | zero => rfl
  | succ n ih => exact congrArg Nat.succ (ih _)

theorem isPacked_of_mem_packed
    {n v : Nat}
    {b : UInt8}
    (h : b ∈ packed n v) :
    IsPacked b := by
  induction n generalizing v with
  | zero => cases h
  | succ n ih =>
      rcases List.mem_cons.mp h with rfl | hRest
      · exact isPacked_pack (Nat.mod_lt v (by decide))
      · exact ih hRest

theorem value_packed
    (n v : Nat) :
    value (packed n v) = v % 100 ^ n := by
  induction n generalizing v with
  | zero => exact (Nat.mod_one v).symm
  | succ n ih =>
      unfold packed
      have hLow : v % 100 < 100 := Nat.mod_lt v (by decide)
      rw [value_cons, ih, number_pack hLow, Nat.pow_succ',
        Nat.mod_mul]

theorem packed_value
    {bs : List UInt8}
    (h : ∀ b ∈ bs, IsPacked b) :
    packed bs.length (value bs) = bs := by
  induction bs with
  | nil => rfl
  | cons b bs ih =>
      obtain ⟨hFirst, hRest⟩ := List.forall_mem_cons.mp h
      have hLow := number_lt hFirst
      rw [value_cons, List.length_cons]
      unfold packed
      rw [Nat.add_mul_mod_self_left, Nat.mod_eq_of_lt hLow,
        pack_number hFirst,
        Nat.add_mul_div_left _ _ (by decide),
        Nat.div_eq_of_lt hLow, Nat.zero_add, ih hRest]

------------------------------------------------------------
-- One Byte
------------------------------------------------------------

theorem toNat_eq_ite
    (b : Bool) :
    b.toNat = if b = true then 1 else 0 := by
  cases b <;> rfl

section OneByte

variable
  {x y : UInt8}
  (hX : IsPacked x)
  (hY : IsPacked y)
  (carry : Bool)

include hX hY

/- An adjusted sum, with the carry to the next place. -/
theorem adjusted_add :
    let r := Arithmetic.add x y carry
    let d := Arithmetic.decimalAdjust r.1 false r.2.h r.2.c
    IsPacked d.1 ∧
      number d.1 + 100 * d.2.toNat =
        number x + number y + carry.toNat := by
  intro r d
  have hCarry := Bool.toNat_le carry
  simp only [r, d, Arithmetic.add_eq_rule,
    Arithmetic.decimalAdjust_eq_rule, Rules.add,
    Rules.report, Rules.decimal, Rules.carries,
    Bool.false_eq_true, if_false, Bool.or_eq_true,
    decide_eq_true_eq, UInt8.toNat_ofNat']
  generalize carry.toNat = k at hCarry ⊢
  unfold IsPacked number at *
  simp only [toNat_eq_ite, Bool.or_eq_true,
    decide_eq_true_eq]
  split <;> split <;> simp only [UInt8.toNat_ofNat'] <;>
    omega

/- An adjusted difference, with the borrow from the next. -/
theorem adjusted_sub :
    let r := Arithmetic.sub x y carry
    let d := Arithmetic.decimalAdjust r.1 true r.2.h r.2.c
    IsPacked d.1 ∧
      number x + 100 * d.2.toNat =
        number d.1 + number y + carry.toNat := by
  intro r d
  have hCarry := Bool.toNat_le carry
  simp only [r, d, Arithmetic.sub_eq_rule,
    Arithmetic.decimalAdjust_eq_rule, Rules.sub,
    Rules.report, Rules.decimal, Rules.borrows, if_true,
    decide_eq_true_eq, toNat_ofInt_byte]
  generalize carry.toNat = k at hCarry ⊢
  unfold IsPacked number at *
  simp only [toNat_eq_ite, decide_eq_true_eq,
    toNat_ofInt_byte]
  split <;> split <;> omega

end OneByte

/- Whether an operation adds or subtracts its second number. -/
def sign
    (op : AluOp) : Int :=
  if op = .sbc then -1 else 1

/-
  Numbers, a result and its carry, so that the result is what
  the operation makes of the numbers and of the carry before
  it, but for the carry to the place `m`.
-/
def Balances
    (op : AluOp)
    (m x y : Nat)
    (carry : Bool)
    (r : Nat)
    (next : Bool) : Prop :=
  (r : Int) + sign op * m * next.toNat =
    x + sign op * (y + carry.toNat)

section Balance

variable {m x y r : Nat} {carry next : Bool}

theorem balances_adc_iff :
    Balances .adc m x y carry r next ↔
      r + m * next.toNat = x + y + carry.toNat := by
  have hSign : sign .adc = 1 := rfl
  unfold Balances
  rw [hSign]
  constructor
  · intro h
    zify
    linear_combination h
  · intro h
    zify at h
    linear_combination h

theorem balances_sbc_iff :
    Balances .sbc m x y carry r next ↔
      x + m * next.toNat = r + y + carry.toNat := by
  have hSign : sign .sbc = -1 := rfl
  unfold Balances
  rw [hSign]
  constructor
  · intro h
    zify
    linear_combination -h
  · intro h
    zify at h
    linear_combination -h

/- A balanced sum is the sum, taken modulo the last place. -/
theorem Balances.sum_eq
    (hBelow : r < m)
    (h : Balances .adc m x y carry r next) :
    r = (x + y + carry.toNat) % m ∧
      (next = true ↔ m ≤ x + y + carry.toNat) := by
  rw [← balances_adc_iff.mp h, Nat.add_mul_mod_self_left,
    Nat.mod_eq_of_lt hBelow]
  refine ⟨rfl, ?_⟩
  cases next with
  | false => simp [hBelow]
  | true => simp

/- And a balanced difference is the difference. -/
theorem Balances.difference_eq
    (hBelow : r < m)
    (h : Balances .sbc m x y carry r next) :
    (r : Int) = ((x : Int) - y - carry.toNat) % m ∧
      (next = true ↔ x < y + carry.toNat) := by
  have hBalance := balances_sbc_iff.mp h
  have hDifference :
      (x : Int) - y - carry.toNat = r - m * next.toNat := by
    zify at hBalance
    linear_combination hBalance
  rw [hDifference, Int.sub_mul_emod_self_left,
    Int.emod_eq_of_lt (Int.natCast_nonneg r)
      (Int.ofNat_lt.mpr hBelow)]
  refine ⟨rfl, ?_⟩
  cases next with
  | false =>
      rw [Bool.toNat_false, Nat.mul_zero] at hBalance
      simp only [Bool.false_eq_true, false_iff]
      omega
  | true =>
      rw [Bool.toNat_true, Nat.mul_one] at hBalance
      simp only [true_iff]
      omega

end Balance

/- One byte is balanced at the place of a hundred. -/
theorem balances_adjusted
    {op : AluOp}
    (hOp : op = .adc ∨ op = .sbc)
    {x y : UInt8}
    (hX : IsPacked x)
    (hY : IsPacked y)
    (carry : Bool) :
    let r := op.apply x y carry
    let d := Arithmetic.decimalAdjust r.1 r.2.n r.2.h r.2.c
    IsPacked d.1 ∧
      Balances op 100 (number x) (number y) carry (number d.1)
        d.2 := by
  rcases hOp with rfl | rfl
  · obtain ⟨hPacked, hSum⟩ := adjusted_add hX hY carry
    exact ⟨hPacked, balances_adc_iff.mpr hSum⟩
  · obtain ⟨hPacked, hDifference⟩ := adjusted_sub hX hY carry
    exact ⟨hPacked, balances_sbc_iff.mpr hDifference⟩

/- The balance of a first byte, and that of the rest. -/
theorem Balances.cons
    {op : AluOp}
    {b m x y r x' y' r' : Nat}
    {carry next last : Bool}
    (hFirst : Balances op b x y carry r next)
    (hRest : Balances op m x' y' next r' last) :
    Balances op (b * m) (x + b * x') (y + b * y') carry
      (r + b * r') last := by
  unfold Balances at *
  push_cast
  linear_combination hFirst + (b : Int) * hRest

end PackedDecimal

open PackedDecimal

------------------------------------------------------------
-- Registers
------------------------------------------------------------

namespace Registers

variable (r : Registers)

theorem flag_accumulate
    (op : AluOp)
    (v : UInt8)
    (x : Flag) :
    (r.accumulate op v).flag x =
      (op.apply r.a v (r.flag .c)).2.get x :=
  flag_setFlags _ _ x

/- Z tells whether A is zero, H is clear, and N is kept. -/
theorem flag_adjustDecimal :
    r.adjustDecimal.flag .z = (r.adjustDecimal.a == 0) ∧
      r.adjustDecimal.flag .n = r.flag .n ∧
      r.adjustDecimal.flag .h = false ∧
      r.adjustDecimal.flag .c =
        (Arithmetic.decimalAdjust r.a (r.flag .n) (r.flag .h)
          (r.flag .c)).2 := by
  let high :=
    (Arithmetic.decimalAdjust r.a (r.flag .n) (r.flag .h)
      (r.flag .c)).2
  have hFlag (x : Flag) :
      r.adjustDecimal.flag x =
        (((r.setFlag .c high).setFlag .h false).setFlag .z
          (r.adjustDecimal.a == 0)).flag x := rfl
  simp only [hFlag, flag_setFlag]
  exact ⟨rfl, rfl, rfl, rfl⟩

/-
  The registers after A is set to a byte, added to or
  subtracted from, and adjusted.
-/
def decimal
    (op : AluOp)
    (x y : UInt8) : Registers :=
  ({ r with a := x }.accumulate op y).adjustDecimal

theorem decimal_balances
    {op : AluOp}
    (hOp : op = .adc ∨ op = .sbc)
    {x y : UInt8}
    (hX : IsPacked x)
    (hY : IsPacked y) :
    let q := r.decimal op x y
    IsPacked q.a ∧
      Balances op 100 (number x) (number y) (r.flag .c)
        (number q.a) (q.flag .c) := by
  intro q
  let p := { r with a := x }.accumulate op y
  have hFlag (f : Flag) :
      p.flag f = (op.apply x y (r.flag .c)).2.get f :=
    flag_accumulate { r with a := x } op y f
  have hCarry := p.flag_adjustDecimal.2.2.2
  have hAdjusted := balances_adjusted hOp hX hY (r.flag .c)
  have hA :
      q.a =
        (Arithmetic.decimalAdjust p.a (p.flag .n) (p.flag .h)
          (p.flag .c)).1 := rfl
  have hC : q.flag .c = _ := hCarry
  rw [hA, hC, hFlag, hFlag, hFlag]
  exact hAdjusted

end Registers

------------------------------------------------------------
-- The Routine
------------------------------------------------------------

/- Bytes written one after the other, from an address on. -/
def Bus.store
    {β : Type}
    [Bus β] : List UInt8 → UInt16 → β → β
  | [], _, bus => bus
  | b :: bs, addr, bus =>
      store bs (addr + 1) (Bus.write addr b bus)

namespace Core

variable {β : Type} [Bus β]

/- The effects of instructions with their operands, in turn. -/
def executeAll
    (is : List (Instruction × UInt16))
    (s : Core β) : Core β :=
  is.foldl (fun s i => (s.execute i.1 i.2).2) s

/- LD A and ADC A or SBC A, with two bytes. -/
def byteOperation
    (op : AluOp)
    (p : UInt8 × UInt8) : List (Instruction × UInt16) :=
  [(.loadByte .a, p.1.toUInt16),
    (.aluByte op, p.2.toUInt16)]

/- Then DAA, and A is stored at HL, which moves on. -/
def decimalByte
    (op : AluOp)
    (p : UInt8 × UInt8) : List (Instruction × UInt16) :=
  byteOperation op p ++ [(.daa, 0), (.storeA .hlUp, 0)]

/- The routine for two numbers, given as pairs of bytes. -/
def decimalRoutine
    (op : AluOp)
    (ps : List (UInt8 × UInt8)) :
    List (Instruction × UInt16) :=
  ps.flatMap (decimalByte op)

theorem executeAll_append
    (is js : List (Instruction × UInt16))
    (s : Core β) :
    s.executeAll (is ++ js) =
      (s.executeAll is).executeAll js :=
  List.foldl_append

theorem executeAll_byteOperation
    (op : AluOp)
    (p : UInt8 × UInt8)
    (s : Core β) :
    s.executeAll (byteOperation op p) =
      s.mapRegs fun r =>
        { r with a := p.1 }.accumulate op p.2 := by
  unfold executeAll byteOperation
  simp only [List.foldl_cons, List.foldl_nil, execute,
    lowByte_toUInt16]
  rfl

theorem executeAll_decimalByte
    (op : AluOp)
    (p : UInt8 × UInt8)
    (s : Core β) :
    let q := s.cpu.regs.decimal op p.1 p.2
    s.executeAll (decimalByte op p) =
      ⟨{ s.cpu with regs := q.setHL (s.cpu.regs.hl + 1) },
        Bus.write s.cpu.regs.hl q.a s.bus⟩ := by
  intro q
  unfold decimalByte
  rw [executeAll_append, executeAll_byteOperation]
  rfl

/-
  What the routine writes, and the carry that it leaves, are
  balanced with the numbers and the carry at its beginning.
-/
theorem decimalRoutine_balances
    {op : AluOp}
    (hOp : op = .adc ∨ op = .sbc)
    {ps : List (UInt8 × UInt8)}
    (hPacked : ∀ p ∈ ps, IsPacked p.1 ∧ IsPacked p.2)
    (s : Core β) :
    let t := s.executeAll (decimalRoutine op ps)
    ∃ out,
      out.length = ps.length ∧
        (∀ b ∈ out, IsPacked b) ∧
        t.bus = Bus.store out s.cpu.regs.hl s.bus ∧
        Balances op (100 ^ ps.length)
          (value (ps.map Prod.fst)) (value (ps.map Prod.snd))
          (s.cpu.regs.flag .c) (value out)
          (t.cpu.regs.flag .c) := by
  induction ps generalizing s with
  | nil =>
      refine ⟨[], rfl, List.forall_mem_nil _, rfl, ?_⟩
      unfold Balances
      simp [executeAll, decimalRoutine, value]
  | cons p ps ih =>
      obtain ⟨⟨hX, hY⟩, hRest⟩ :=
        List.forall_mem_cons.mp hPacked
      let q := s.cpu.regs.decimal op p.1 p.2
      let u : Core β :=
        ⟨{ s.cpu with regs := q.setHL (s.cpu.regs.hl + 1) },
          Bus.write s.cpu.regs.hl q.a s.bus⟩
      have hFirst :
          s.executeAll (decimalRoutine op (p :: ps)) =
            u.executeAll (decimalRoutine op ps) := by
        unfold decimalRoutine
        rw [List.flatMap_cons, executeAll_append,
          executeAll_decimalByte]
      have hHl : u.cpu.regs.hl = s.cpu.regs.hl + 1 :=
        Registers.hl_setHL q _
      obtain ⟨hByte, hBalance⟩ :=
        s.cpu.regs.decimal_balances hOp hX hY
      obtain ⟨out, hLength, hBytes, hBus, hOthers⟩ := ih hRest u
      refine ⟨q.a :: out, congrArg Nat.succ hLength,
        List.forall_mem_cons.mpr ⟨hByte, hBytes⟩, ?_, ?_⟩
      · rw [hFirst, hBus, hHl]
        rfl
      · rw [hFirst, List.map_cons, List.map_cons, value_cons,
          value_cons, value_cons, List.length_cons,
          Nat.pow_succ']
        exact Balances.cons hBalance hOthers

/- So what it writes are the digits of a balanced number. -/
theorem decimalRoutine_stores
    {op : AluOp}
    (hOp : op = .adc ∨ op = .sbc)
    {ps : List (UInt8 × UInt8)}
    (hPacked : ∀ p ∈ ps, IsPacked p.1 ∧ IsPacked p.2)
    (s : Core β) :
    let t := s.executeAll (decimalRoutine op ps)
    ∃ r,
      r < 100 ^ ps.length ∧
        t.bus =
          Bus.store (packed ps.length r) s.cpu.regs.hl s.bus ∧
        Balances op (100 ^ ps.length)
          (value (ps.map Prod.fst)) (value (ps.map Prod.snd))
          (s.cpu.regs.flag .c) r (t.cpu.regs.flag .c) := by
  obtain ⟨out, hLength, hBytes, hBus, hBalance⟩ :=
    decimalRoutine_balances hOp hPacked s
  rw [← packed_value hBytes, hLength] at hBus
  have hBelow := value_lt hBytes
  rw [hLength] at hBelow
  exact ⟨value out, hBelow, hBus, hBalance⟩

/- DAA after an operation on two packed bytes. -/
theorem adjusted_byteOperation
    {op : AluOp}
    (hOp : op = .adc ∨ op = .sbc)
    {p : UInt8 × UInt8}
    (hPacked : IsPacked p.1 ∧ IsPacked p.2)
    (s : Core β) :
    let u := s.executeAll (byteOperation op p)
    let v := u.executeAll [(.daa, 0)]
    IsPacked v.cpu.regs.a ∧
      v.cpu.regs.flag .z = (v.cpu.regs.a == 0) ∧
      v.cpu.regs.flag .h = false ∧
      v.cpu.regs.flag .n = u.cpu.regs.flag .n ∧
      u.cpu.regs.flag .n = decide (op = .sbc) := by
  intro u v
  let q := s.cpu.regs
  let w := { q with a := p.1 }.accumulate op p.2
  have hU : u.cpu.regs = w :=
    congrArg (fun t : Core β => t.cpu.regs)
      (executeAll_byteOperation op p s)
  have hV : v.cpu.regs = w.adjustDecimal := by
    rw [← hU]
    rfl
  obtain ⟨hZ, hN, hH, -⟩ := w.flag_adjustDecimal
  have hSubtracts : w.flag .n = decide (op = .sbc) := by
    unfold w
    rw [Registers.flag_accumulate]
    rcases hOp with rfl | rfl <;> rfl
  rw [hU, hV]
  exact ⟨(q.decimal_balances hOp hPacked.1 hPacked.2).1, hZ,
    hH, hN, hSubtracts⟩

/-
  Packed decimal numbers of any length, added or subtracted
  byte by byte through DAA, from either carry: what is written
  are the digits of the sum or of the difference modulo
  100 ^ n, and the carry flag tells an overflow or a borrow.
  After every DAA the zero flag tells whether the byte is
  zero, the half carry is clear, and the subtraction flag is
  as the operation before it left it.
-/
theorem decimal_arithmetic
    (s : Core β)
    (ps : List (UInt8 × UInt8))
    (hPacked : ∀ p ∈ ps, IsPacked p.1 ∧ IsPacked p.2) :
    let n := ps.length
    let x := value (ps.map Prod.fst)
    let y := value (ps.map Prod.snd)
    let carry := (s.cpu.regs.flag .c).toNat
    let hl := s.cpu.regs.hl
    (let t := s.executeAll (decimalRoutine .adc ps)
      let r := (x + y + carry) % 100 ^ n
      t.bus = Bus.store (packed n r) hl s.bus ∧
        (t.cpu.regs.flag .c = true ↔
          100 ^ n ≤ x + y + carry)) ∧
      (let t := s.executeAll (decimalRoutine .sbc ps)
        let r := ((x : Int) - y - carry) % 100 ^ n
        t.bus = Bus.store (packed n r.toNat) hl s.bus ∧
          (t.cpu.regs.flag .c = true ↔ x < y + carry)) ∧
      (∀ v,
        (packed n v).length = n ∧
          (∀ b ∈ packed n v, IsPacked b) ∧
          value (packed n v) = v % 100 ^ n) ∧
      ∀ op,
        op = .adc ∨ op = .sbc →
          ∀ before p after,
            ps = before ++ p :: after →
              let u :=
                s.executeAll
                  (decimalRoutine op before ++
                    byteOperation op p)
              let v := u.executeAll [(.daa, 0)]
              IsPacked v.cpu.regs.a ∧
                v.cpu.regs.flag .z = (v.cpu.regs.a == 0) ∧
                v.cpu.regs.flag .h = false ∧
                v.cpu.regs.flag .n = u.cpu.regs.flag .n ∧
                u.cpu.regs.flag .n = decide (op = .sbc) := by
  intro n x y carry hl
  refine ⟨?_, ?_, ?_, ?_⟩
  · intro t r
    obtain ⟨r', hBelow, hBus, hBalance⟩ :=
      decimalRoutine_stores (.inl rfl) hPacked s
    obtain ⟨hSum, hCarry⟩ := hBalance.sum_eq hBelow
    rw [hSum] at hBus
    exact ⟨hBus, hCarry⟩
  · intro t r
    obtain ⟨r', hBelow, hBus, hBalance⟩ :=
      decimalRoutine_stores (.inr rfl) hPacked s
    obtain ⟨hDifference, hBorrow⟩ :=
      hBalance.difference_eq hBelow
    have hResult : r.toNat = r' :=
      congrArg Int.toNat hDifference.symm
    rw [← hResult] at hBus
    exact ⟨hBus, hBorrow⟩
  · intro v
    exact ⟨length_packed n v,
      fun b hb => isPacked_of_mem_packed hb,
      value_packed n v⟩
  · intro op hOp before p after hSplit u v
    have hMem : p ∈ ps := by
      rw [hSplit]
      exact List.mem_append_right _ List.mem_cons_self
    have hAdjusted :=
      adjusted_byteOperation hOp (hPacked p hMem)
        (s.executeAll (decimalRoutine op before))
    rw [← executeAll_append] at hAdjusted
    exact hAdjusted

/- A processor with a carry, and HL in work memory. -/
def carrying : Core FlatMemory :=
  ⟨{ regs := { f := 0x10, h := 0xC0 } }, {}⟩

/- 1899 and 8100 and a carry make 10000. -/
theorem decimal_arithmetic_carrying :
    let ps : List (UInt8 × UInt8) :=
      [(0x99, 0x00), (0x18, 0x81)]
    let t := carrying.executeAll (decimalRoutine .adc ps)
    (∀ p ∈ ps, IsPacked p.1 ∧ IsPacked p.2) ∧
      t.bus = Bus.store [0x00, 0x00] 0xC000 carrying.bus ∧
      t.cpu.regs.flag .c = true := by
  intro ps t
  have hPacked : ∀ p ∈ ps, IsPacked p.1 ∧ IsPacked p.2 :=
    List.forall_mem_cons.mpr
      ⟨by decide,
        List.forall_mem_cons.mpr
          ⟨by decide, List.forall_mem_nil _⟩⟩
  have hDigits :
      packed ps.length
        ((value (ps.map Prod.fst) + value (ps.map Prod.snd) +
          (carrying.cpu.regs.flag .c).toNat) %
            100 ^ ps.length) = [0x00, 0x00] := by
    decide +kernel
  obtain ⟨⟨hBus, hCarry⟩, -⟩ :=
    decimal_arithmetic carrying ps hPacked
  rw [hDigits] at hBus
  exact ⟨hPacked, hBus, hCarry.mpr (by decide +kernel)⟩

end Core

end Dmg
