import Dmg.Launch
import Dmg.Proofs.Text

/-
  Which texts name a scale.

  A text names a scale if it is a numeral of 32 bits above
  zero with nothing but white space around it.  All others are
  reported, and the default is taken instead.

  Key definitions include:
    * `Scale.Names`

  Main results:
    * `Scale.read?_eq_some_iff`
    * `Scale.choice`
-/

namespace Dmg

namespace Scale

/- A text that names a scale. -/
def Names
    (s : String)
    (n : Nat) : Prop :=
  ∃ body,
    Blank.Wraps s.toList body ∧ Numeral.Spells body n ∧
      1 ≤ n ∧ n < 2 ^ 32

/- Exactly the scale that a text names is read from it. -/
theorem read?_eq_some_iff
    {s : String}
    {n : Nat} :
    read? s = some n ↔ Names s n := by
  have hNames :
      Names s n ↔
        Numeral.read (Blank.trim s.toList) = .ok n ∧
          1 ≤ n := by
    rw [Numeral.read_ok_iff]
    constructor
    · rintro ⟨body, hWraps, hSpells, hLeast, hMost⟩
      rw [Blank.trim_eq_iff.mpr hWraps]
      exact ⟨⟨hSpells, hMost⟩, hLeast⟩
    · rintro ⟨⟨hSpells, hMost⟩, hLeast⟩
      exact ⟨_, Blank.trim_eq_iff.mp rfl, hSpells, hLeast, hMost⟩
  rw [hNames]
  unfold read?
  cases Numeral.read (Blank.trim s.toList) with
  | error cause => simp
  | ok m => cases m <;> simp <;> omega

------------------------------------------------------------
-- The Choice
------------------------------------------------------------

theorem choose_of_names
    {s : String}
    {n : Nat}
    (h : Names s n)
    (journal : Journal) :
    choose (some s) journal = (n, journal) := by
  simp only [choose, read?_eq_some_iff.mpr h]
  rfl

theorem choose_of_not_names
    {s : String}
    (h : ¬ ∃ n, Names s n)
    (journal : Journal) :
    choose (some s) journal =
      (defaultScale, journal.note .scaleIgnored) := by
  have hNone : read? s = none := by
    cases hRead : read? s with
    | none => rfl
    | some n => exact absurd ⟨n, read?_eq_some_iff.mp hRead⟩ h
  simp only [choose, hNone]
  rfl

/-
  What is chosen is the scale that is named, without a report,
  or else the default.  A warning is reported exactly for a
  text that names none.  A session takes what is chosen as it
  is, since it is never zero.
-/
theorem choice
    (value : Option String)
    (journal : Journal) :
    let r := choose value journal
    (∀ s n, value = some s → Names s n → r = (n, journal)) ∧
      (∀ s, value = some s → (¬ ∃ n, Names s n) →
        r = (4, journal.note .scaleIgnored)) ∧
      (value = none → r = (4, journal)) ∧
      Message.scaleIgnored.level = .warn ∧
      1 ≤ r.1 ∧ r.1 < 2 ^ 32 ∧
      ∀ session : Session,
        (session.withScale r.1).scale = r.1 := by
  intro r
  have hDefault : 1 ≤ defaultScale ∧ defaultScale < 2 ^ 32 := by
    decide
  have hBounds : 1 ≤ r.1 ∧ r.1 < 2 ^ 32 := by
    unfold r
    cases value with
    | none => exact hDefault
    | some s =>
        by_cases h : ∃ n, Names s n
        · obtain ⟨n, hn⟩ := h
          rw [choose_of_names hn]
          obtain ⟨-, -, -, hLeast, hMost⟩ := hn
          exact ⟨hLeast, hMost⟩
        · rw [choose_of_not_names h]
          exact hDefault
  refine ⟨?_, ?_, ?_, rfl, hBounds.1, hBounds.2, ?_⟩
  · rintro s n rfl hn
    exact choose_of_names hn journal
  · rintro s rfl hNone
    exact choose_of_not_names hNone journal
  · rintro rfl
    rfl
  · intro session
    exact Nat.max_eq_left hBounds.1

/-
  A sign, leading zeros and white space are allowed, and the
  first number that needs 33 bits is not.
-/
theorem choice_largest :
    (choose (some " \t+004294967295\n") {}).1 = 2 ^ 32 - 1 ∧
      choose (some "4294967296") (.keeping .warn) =
        (4, ⟨2, #[.scaleIgnored]⟩) := by
  have hLargest : Names " \t+004294967295\n" (2 ^ 32 - 1) := by
    rw [← read?_eq_some_iff]
    decide +kernel
  have hNone : ¬ ∃ n, Names "4294967296" n := by
    rintro ⟨n, hn⟩
    rw [← read?_eq_some_iff] at hn
    have hRead : read? "4294967296" = none := by
      decide +kernel
    rw [hRead] at hn
    cases hn
  have hAccepted :=
    (choice (some " \t+004294967295\n") {}).1 _ _ rfl hLargest
  have hIgnored :=
    (choice (some "4294967296") (.keeping .warn)).2.1 _ rfl
      hNone
  exact ⟨congrArg Prod.fst hAccepted, hIgnored⟩

end Scale

end Dmg
