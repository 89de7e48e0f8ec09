import Dmg.Text.Blank
import Dmg.Text.Numeral
import Mathlib.Algebra.Group.Nat.Defs
import Mathlib.Data.List.DropRight

/-
  Which texts are numerals, and what is left of a text once
  the white space around it is dropped.

  Key definitions include:
    * `Numeral.value`
    * `Numeral.Spells`
    * `Blank.Wraps`

  Main results:
    * `Numeral.read_ok_iff`
    * `Blank.trim_eq_iff`
-/

namespace Dmg

------------------------------------------------------------
-- Numerals
------------------------------------------------------------

namespace Numeral

/- The decimal digits. -/
def IsDigit
    (c : Char) : Prop :=
  '0' ≤ c ∧ c ≤ '9'

/- The number that digits stand for, each at its place. -/
def value : List Char → Nat
  | [] => 0
  | c :: cs =>
      (c.toNat - '0'.toNat) * 10 ^ cs.length + value cs

/-
  A text that spells a number: a plus sign or none, and one or
  more digits.
-/
inductive Spells : List Char → Nat → Prop where
  | bare
      {cs : List Char}
      (hNe : cs ≠ [])
      (hDigits : ∀ c ∈ cs, IsDigit c) :
      Spells cs (value cs)
  | signed
      {cs : List Char}
      (hNe : cs ≠ [])
      (hDigits : ∀ c ∈ cs, IsDigit c) :
      Spells ('+' :: cs) (value cs)

theorem not_isDigit_plus :
    ¬ IsDigit '+' := by
  unfold IsDigit
  decide

theorem digitValue?_of_isDigit
    {c : Char}
    (h : IsDigit c) :
    digitValue? c = some (c.toNat - '0'.toNat) := by
  unfold digitValue?
  rw [if_pos (by simpa [IsDigit] using h)]
  rfl

theorem digitValue?_of_not_isDigit
    {c : Char}
    (h : ¬ IsDigit c) :
    digitValue? c = none := by
  unfold digitValue?
  rw [if_neg (by simpa [IsDigit] using h)]

/- One more digit moves those before it one place up. -/
theorem value_onto
    (acc : Nat)
    (c : Char)
    (cs : List Char) :
    acc * 10 ^ (c :: cs).length + value (c :: cs) =
      (acc * 10 + (c.toNat - '0'.toNat)) * 10 ^ cs.length +
        value cs := by
  rw [List.length_cons, Nat.pow_succ', value, Nat.add_mul,
    Nat.mul_assoc, Nat.add_assoc]

/-
  The value so far does not get smaller, so that one that no
  longer fits cannot come to fit again.
-/
theorem readDigits_ok_iff
    {cs : List Char}
    {acc n : Nat}
    (hFits : acc < 2 ^ 32) :
    readDigits cs acc = .ok n ↔
      (∀ c ∈ cs, IsDigit c) ∧
        n = acc * 10 ^ cs.length + value cs ∧
        n < 2 ^ 32 := by
  have hSize : UInt32.size = 2 ^ 32 := rfl
  induction cs generalizing acc with
  | nil =>
      simp only [readDigits, value, Except.ok.injEq,
        List.not_mem_nil, false_implies, implies_true,
        List.length_nil, Nat.pow_zero, true_and]
      omega
  | cons c cs ih =>
      rw [value_onto, List.forall_mem_cons]
      by_cases hDigit : IsDigit c
      · by_cases hNext :
            acc * 10 + (c.toNat - '0'.toNat) < 2 ^ 32
        · simp only [readDigits, digitValue?_of_isDigit hDigit,
            hSize, if_pos hNext, ih hNext, hDigit, true_and]
        · have hLarge :
              acc * 10 + (c.toNat - '0'.toNat) ≤
                (acc * 10 + (c.toNat - '0'.toNat)) *
                  10 ^ cs.length :=
            Nat.le_mul_of_pos_right _
              (Nat.pow_pos (Nat.zero_lt_succ 9))
          simp only [readDigits, digitValue?_of_isDigit hDigit,
            hSize, if_neg hNext, reduceCtorEq, false_iff]
          rintro ⟨-, rfl, hSmall⟩
          omega
      · simp only [readDigits,
          digitValue?_of_not_isDigit hDigit, reduceCtorEq,
          false_iff]
        rintro ⟨⟨hFirst, -⟩, -⟩
        exact hDigit hFirst

/- Exactly the numerals that fit in 32 bits are read. -/
theorem read_ok_iff
    {cs : List Char}
    {n : Nat} :
    read cs = .ok n ↔ Spells cs n ∧ n < 2 ^ 32 := by
  have hZero : 0 < 2 ^ 32 := by decide
  unfold read
  split
  · simp only [reduceCtorEq, false_iff]
    rintro ⟨h, -⟩
    cases h with
    | bare hNe => exact hNe rfl
  · simp only [reduceCtorEq, false_iff]
    rintro ⟨h, -⟩
    cases h with
    | bare _ hDigits =>
        exact not_isDigit_plus (hDigits _ List.mem_cons_self)
    | signed hNe => exact hNe rfl
  · next cs hMore =>
      rw [readDigits_ok_iff hZero, Nat.zero_mul,
        Nat.zero_add]
      constructor
      · rintro ⟨hDigits, rfl, hFits⟩
        exact ⟨.signed (fun h => hMore h) hDigits, hFits⟩
      · rintro ⟨h, hFits⟩
        cases h with
        | bare _ hDigits =>
            exact absurd (hDigits _ List.mem_cons_self)
              not_isDigit_plus
        | signed _ hDigits => exact ⟨hDigits, rfl, hFits⟩
  · next cs hNe _ hUnsigned =>
      rw [readDigits_ok_iff hZero, Nat.zero_mul,
        Nat.zero_add]
      constructor
      · rintro ⟨hDigits, rfl, hFits⟩
        exact ⟨.bare hNe hDigits, hFits⟩
      · rintro ⟨h, hFits⟩
        cases h with
        | bare _ hDigits => exact ⟨hDigits, rfl, hFits⟩
        | signed => exact absurd rfl (hUnsigned _)

end Numeral

------------------------------------------------------------
-- The Ends Of A Text
------------------------------------------------------------

section Ends

variable {α : Type} {p : α → Bool}

/- What is left does not begin with what is dropped. -/
theorem not_of_mem_head?_dropWhile
    {cs : List α}
    {x : α}
    (h : x ∈ (cs.dropWhile p).head?) :
    p x = false := by
  have hHead := List.head?_dropWhile_not p cs
  rw [Option.mem_def.mp h] at hHead
  exact hHead

/- Nor does it end with what is dropped at the end. -/
theorem not_of_mem_getLast?_rdropWhile
    {cs : List α}
    {x : α}
    (h : x ∈ (cs.rdropWhile p).getLast?) :
    p x = false := by
  unfold List.rdropWhile at h
  rw [List.getLast?_reverse] at h
  exact not_of_mem_head?_dropWhile h

/- What is dropped at the end is dropped after any text. -/
theorem rdropWhile_append_of_forall
    {after : List α}
    (h : ∀ x ∈ after, p x = true)
    (body : List α) :
    (body ++ after).rdropWhile p = body.rdropWhile p := by
  unfold List.rdropWhile
  rw [List.reverse_append, List.dropWhile_append_of_pos]
  intro x hx
  exact h x (List.mem_reverse.mp hx)

/- Nothing is dropped from a text that ends otherwise. -/
theorem rdropWhile_of_getLast?
    {body : List α}
    (h : ∀ x ∈ body.getLast?, p x = false) :
    body.rdropWhile p = body := by
  rw [List.rdropWhile_eq_self_iff]
  intro hNe hLast
  have hNot :=
    h _ (Option.mem_def.mpr (List.getLast?_eq_some_getLast hNe))
  rw [hNot] at hLast
  cases hLast

end Ends

------------------------------------------------------------
-- White Space
------------------------------------------------------------

namespace Blank

/-
  A text is another with white space around it, where the
  other neither begins nor ends with white space.
-/
structure Wraps
    (cs body : List Char) : Prop where
  around :
    ∃ before after,
      cs = before ++ (body ++ after) ∧
        (∀ c ∈ before, isBlank c = true) ∧
        ∀ c ∈ after, isBlank c = true
  begins : ∀ c ∈ body.head?, isBlank c = false
  ends : ∀ c ∈ body.getLast?, isBlank c = false

/- The text within the white space is what is left. -/
theorem trim_eq_iff
    {cs body : List Char} :
    trim cs = body ↔ Wraps cs body := by
  have hTrim :
      trim cs = (cs.dropWhile isBlank).rdropWhile isBlank := rfl
  rw [hTrim]
  constructor
  · rintro rfl
    let rest := cs.dropWhile isBlank
    refine ⟨⟨cs.takeWhile isBlank, rest.rtakeWhile isBlank,
      ?_, ?_, ?_⟩, ?_, ?_⟩
    · rw [List.rdropWhile_append_rtakeWhile,
        List.takeWhile_append_dropWhile]
    · intro c hc
      exact List.mem_takeWhile_imp hc
    · intro c hc
      exact List.mem_rtakeWhile_imp hc
    · intro c hc
      obtain ⟨tail, hTail⟩ :=
        List.rdropWhile_prefix (p := isBlank) (l := rest)
      have hFirst : c ∈ rest.head? := by
        rw [← hTail, List.head?_append, Option.mem_def.mp hc]
        rfl
      exact not_of_mem_head?_dropWhile hFirst
    · intro c hc
      exact not_of_mem_getLast?_rdropWhile hc
  · rintro ⟨⟨before, after, rfl, hBefore, hAfter⟩, hBegins,
      hEnds⟩
    rw [List.dropWhile_append_of_pos hBefore]
    cases body with
    | nil =>
        rw [List.nil_append, List.dropWhile_eq_nil_iff.mpr hAfter]
        rfl
    | cons c body =>
        have hFirst : ¬ isBlank c = true := by
          rw [hBegins c rfl]
          exact Bool.false_ne_true
        rw [List.cons_append, List.dropWhile_cons_of_neg hFirst,
          ← List.cons_append,
          rdropWhile_append_of_forall hAfter]
        exact rdropWhile_of_getLast? hEnds

end Blank

end Dmg
