import Dmg.Word
import Mathlib.Algebra.Group.Int.Defs
import Mathlib.Algebra.Group.Nat.Defs

/-
  Computation that watches its bounds.

  Numbers have a width and tables a length.  A checked
  computation looks at each sum, difference and index, and
  has no result where a number does not fit its width or an
  index lies outside of its table.

  Bytes and words that are meant to wrap need no check, nor
  does a shift by a position in a byte, which is below eight
  by its type.

  Key definitions include:
    * `Checked.add`, `Checked.sub`, `Checked.signed`
    * `Checked.get`, `Checked.set`
    * `Checked.loop`, `Checked.loopDown`

  Main results:
    * `Checked.loop_eq`
    * `Checked.loop_eq_foldl`
    * `Checked.loop_fill`
-/

namespace Dmg

namespace Checked

variable {α σ : Type} {n : Nat}

------------------------------------------------------------
-- Numbers
------------------------------------------------------------

/- Go on only if a condition holds. -/
def require
    (p : Prop)
    [Decidable p] : Option Unit :=
  if p then some () else none

/- An unsigned number of a width. -/
def unsigned
    (bits n : Nat) : Option Nat :=
  if n < 2 ^ bits then some n else none

/- A signed number of a width. -/
def signed
    (bits : Nat)
    (i : Int) : Option Int :=
  if -(2 ^ (bits - 1)) ≤ i ∧ i < 2 ^ (bits - 1) then some i
  else none

/- A sum of unsigned numbers. -/
def add
    (bits x y : Nat) : Option Nat :=
  unsigned bits (x + y)

/- A product of unsigned numbers. -/
def mul
    (bits x y : Nat) : Option Nat :=
  unsigned bits (x * y)

/- A difference of unsigned numbers. -/
def sub
    (x y : Nat) : Option Nat :=
  if y ≤ x then some (x - y) else none

/- The amount by which a number of a width is shifted. -/
def amount
    (bits k : Nat) : Option Nat :=
  if k < bits then some k else none

/-
  A signed number taken for an index: one below zero becomes
  larger than any table is long.
-/
def toIndex
    (i : Int) : Nat :=
  (i % 2 ^ 64).toNat

theorem require_of
    {p : Prop}
    [Decidable p]
    (h : p) :
    require p = some () :=
  if_pos h

theorem unsigned_of_lt
    {bits x : Nat}
    (h : x < 2 ^ bits) :
    unsigned bits x = some x :=
  if_pos h

theorem signed_of
    {bits : Nat}
    {i : Int}
    (hLow : -(2 ^ (bits - 1)) ≤ i)
    (hHigh : i < 2 ^ (bits - 1)) :
    signed bits i = some i :=
  if_pos ⟨hLow, hHigh⟩

theorem add_of_lt
    {bits x y : Nat}
    (h : x + y < 2 ^ bits) :
    add bits x y = some (x + y) :=
  if_pos h

theorem mul_of_lt
    {bits x y : Nat}
    (h : x * y < 2 ^ bits) :
    mul bits x y = some (x * y) :=
  if_pos h

theorem sub_of_le
    {x y : Nat}
    (h : y ≤ x) :
    sub x y = some (x - y) :=
  if_pos h

theorem amount_of_lt
    {bits k : Nat}
    (h : k < bits) :
    amount bits k = some k :=
  if_pos h

theorem toIndex_natCast
    {k : Nat}
    (h : k < 2 ^ 64) :
    toIndex k = k := by
  unfold toIndex
  omega

/- What does not fit has no result. -/
example :
    add 8 0xFF 1 = none ∧ sub 3 4 = none ∧
      signed 16 0x8000 = none := by
  decide

------------------------------------------------------------
-- Tables
------------------------------------------------------------

/- The entry of a table at an index. -/
def get
    (xs : Vector α n)
    (i : Nat) : Option α :=
  xs[i]?

/- Set the entry of a table at an index. -/
def set
    (xs : Vector α n)
    (i : Nat)
    (v : α) : Option (Vector α n) :=
  if h : i < n then some (xs.set i v) else none

/- A part of a table of a length. -/
def slice
    (length start stop : Nat) : Option Unit :=
  require (start ≤ stop ∧ stop ≤ length)

theorem get_of_lt
    (xs : Vector α n)
    {i : Nat}
    (h : i < n) :
    get xs i = some xs[i] :=
  Vector.getElem?_eq_getElem h

theorem set_of_lt
    (xs : Vector α n)
    {i : Nat}
    (h : i < n)
    (v : α) :
    set xs i v = some (xs.set i v) :=
  dif_pos h

theorem slice_of_le
    {length start stop : Nat}
    (hStart : start ≤ stop)
    (hStop : stop ≤ length) :
    slice length start stop = some () :=
  if_pos ⟨hStart, hStop⟩

------------------------------------------------------------
-- Loops
------------------------------------------------------------

/- Do something for each index from one up to another. -/
def loop
    (start stop : Nat)
    (f : Nat → σ → Option σ)
    (a : σ) : Option σ :=
  (List.range' start (stop - start)).foldlM
    (fun a i => f i a) a

/- Do something for each index below another, downwards. -/
def loopDown
    (stop : Nat)
    (f : Nat → σ → Option σ)
    (a : σ) : Option σ :=
  (List.range stop).reverse.foldlM (fun a i => f i a) a

/- A loop whose states are known leads to the last one. -/
theorem loop_eq
    {start stop : Nat}
    (h : start ≤ stop)
    {f : Nat → σ → Option σ}
    {s : Nat → σ}
    (hStep : ∀ i, start ≤ i → i < stop →
      f i (s i) = some (s (i + 1))) :
    loop start stop f (s start) = some (s stop) := by
  rcases Nat.exists_eq_add_of_le h with ⟨k, rfl⟩
  unfold loop
  rw [Nat.add_sub_cancel_left]
  clear h
  induction k generalizing start with
  | zero => rfl
  | succ k ih =>
      have hFirst := hStep start (Nat.le_refl _) (by omega)
      have hRest :=
        @ih (start + 1) fun i hi hEnd =>
          hStep i (by omega) (by omega)
      rw [List.range'_succ, List.foldlM_cons, hFirst]
      refine hRest.trans ?_
      rw [Nat.add_right_comm]
      rfl

/- A fold whose turns all have results. -/
theorem foldlM_some
    {f : σ → α → Option σ}
    {g : σ → α → σ}
    (h : ∀ a x, f a x = some (g a x))
    (l : List α)
    (a : σ) :
    l.foldlM f a = some (l.foldl g a) := by
  induction l generalizing a with
  | nil => rfl
  | cons x l ih =>
      rw [List.foldlM_cons, h]
      exact ih (g a x)

/- A loop whose turns all have results is a fold. -/
theorem loop_eq_foldl
    {f : Nat → σ → Option σ}
    {g : σ → Fin n → σ}
    (h : ∀ (i : Fin n) a, f i.val a = some (g a i))
    (a : σ) :
    loop 0 n f a = some (Fin.foldl n g a) := by
  unfold loop
  rw [Nat.sub_zero, ← List.range_eq_range']
  induction n generalizing a with
  | zero =>
      rw [Fin.foldl_zero]
      rfl
  | succ n ih =>
      have hFirst :=
        ih (g := fun a i => g a i.castSucc)
          (fun i a => h i.castSucc a) a
      have hLast : ∀ a, f n a = some (g a (Fin.last n)) :=
        h (Fin.last n)
      rw [List.range_succ, List.foldlM_append, hFirst,
        Fin.foldl_succ_last]
      simp only [List.foldlM_cons, List.foldlM_nil, hLast,
        Option.bind_eq_bind, Option.bind_some]
      rfl

theorem loopDown_eq_foldr
    {f : Nat → σ → Option σ}
    {g : Fin n → σ → σ}
    (h : ∀ (i : Fin n) a, f i.val a = some (g i a))
    (a : σ) :
    loopDown n f a = some (Fin.foldr n g a) := by
  unfold loopDown
  induction n generalizing a with
  | zero =>
      rw [Fin.foldr_zero]
      rfl
  | succ n ih =>
      have hRest :=
        ih (g := fun i a => g i.castSucc a)
          (fun i a => h i.castSucc a) (g (Fin.last n) a)
      have hLast : f n a = some (g (Fin.last n) a) :=
        h (Fin.last n) a
      rw [List.range_succ, List.reverse_append,
        Fin.foldr_succ_last]
      simp only [List.reverse_cons, List.reverse_nil,
        List.nil_append, List.cons_append, List.foldlM_cons,
        hLast]
      exact hRest

------------------------------------------------------------
-- Filling A Table
------------------------------------------------------------

/- A table some of whose entries have been set. -/
def filled
    (g : Fin n → α)
    (start stop : Nat)
    (xs : Vector α n) : Vector α n :=
  Vector.ofFn fun i =>
    if start ≤ i.val ∧ i.val < stop then g i else xs[i]

theorem filled_start
    (g : Fin n → α)
    (start : Nat)
    (xs : Vector α n) :
    filled g start start xs = xs := by
  apply Vector.ext
  intro i hi
  unfold filled
  rw [Vector.getElem_ofFn, if_neg (by omega)]
  rfl

/- The next entry is set in its turn. -/
theorem set_filled
    (g : Fin n → α)
    {start k : Nat}
    (hStart : start ≤ k)
    (hk : k < n)
    (xs : Vector α n) :
    (filled g start k xs).set k (g ⟨k, hk⟩) =
      filled g start (k + 1) xs := by
  apply Vector.ext
  intro i hi
  unfold filled
  rw [Vector.getElem_set]
  simp only [Vector.getElem_ofFn]
  by_cases hSet : k = i
  · subst hSet
    rw [if_pos rfl, if_pos ⟨hStart, Nat.lt_succ_self k⟩]
  · have hSame :
        (start ≤ i ∧ i < k) ↔ start ≤ i ∧ i < k + 1 := by
      omega
    rw [if_neg hSet]
    simp only [hSame]

/- Setting all entries in turn leaves none of the old ones. -/
theorem loop_fill
    {f : Nat → Vector α n → Option (Vector α n)}
    (g : Fin n → α)
    (h : ∀ (i : Fin n) xs, f i.val xs = some (xs.set i (g i)))
    (xs : Vector α n) :
    loop 0 n f xs = some (Vector.ofFn g) := by
  have hEnd : filled g 0 n xs = Vector.ofFn g := by
    unfold filled
    congr 1
    funext i
    rw [if_pos ⟨Nat.zero_le _, i.isLt⟩]
  have hLoop :
      loop 0 n f (filled g 0 0 xs) =
        some (filled g 0 n xs) := by
    apply loop_eq (s := fun k => filled g 0 k xs)
      (Nat.zero_le n)
    intro i hi hn
    rw [h ⟨i, hn⟩]
    exact congrArg some (set_filled g hi hn xs)
  rwa [filled_start, hEnd] at hLoop

end Checked

end Dmg
