import Dmg.Proofs.Cpu.Event

/-
  What a step may cost: between one and six machine cycles of
  four ticks each.

  Key definitions include:
    * `StepCost`

  Main results:
    * `Core.stepCost_step`
-/

namespace Dmg

/- Between one and six whole machine cycles. -/
structure StepCost
    (ticks : Nat) : Prop where
  least : 4 ≤ ticks
  most : ticks ≤ 24
  whole : ticks % 4 = 0

instance
    (ticks : Nat) : Decidable (StepCost ticks) :=
  decidable_of_iff
    (4 ≤ ticks ∧ ticks ≤ 24 ∧ ticks % 4 = 0)
    ⟨fun h => ⟨h.1, h.2.1, h.2.2⟩,
      fun h => ⟨h.least, h.most, h.whole⟩⟩

------------------------------------------------------------
-- Instructions
------------------------------------------------------------

theorem stepCost_operandTicks
    {register memory : Nat}
    (hRegister : StepCost register)
    (hMemory : StepCost memory)
    (o : Operand) :
    StepCost (Instruction.operandTicks o register memory) := by
  unfold Instruction.operandTicks
  split
  · exact hMemory
  · exact hRegister

theorem stepCost_ticks
    (i : Instruction) :
    StepCost i.ticks := by
  cases i with
  | load dst src => cases dst <;> cases src <;> decide
  | loadByte o | inc o | dec o | alu op o =>
      exact stepCost_operandTicks (by decide) (by decide) o
  | jumpRelative cond | jump cond | call cond | ret cond =>
      cases cond <;> simp only [Instruction.ticks] <;> decide
  | _ =>
      simp only [Instruction.ticks]
      decide

theorem stepCost_takenTicks
    (i : Instruction) :
    StepCost i.takenTicks := by
  cases i with
  | ret cond =>
      cases cond with
      | none => exact stepCost_ticks (.ret none)
      | some x =>
          simp only [Instruction.takenTicks]
          decide
  | jumpRelative cond | jump cond | call cond =>
      simp only [Instruction.takenTicks]
      decide
  | _ =>
      simp only [Instruction.takenTicks]
      exact stepCost_ticks _

/- A prefixed instruction with the cost of its prefix. -/
theorem stepCost_prefixed
    (i : PrefixedInstruction) :
    StepCost (Instruction.extended.ticks + i.ticks) := by
  cases i with
  | test b o | shift op o | reset b o | set b o =>
      simp only [PrefixedInstruction.ticks]
      cases o <;> decide

namespace Core

variable {β : Type} [Bus β]

omit [Bus β] in
theorem branch_ne_extended
    (cond : Option Condition)
    (taken : Core β → Core β)
    (s : Core β)
    (more : Nat) :
    (s.branch cond taken).1 ≠ .extended more := by
  unfold branch
  split <;> exact Flow.noConfusion

/- Only the prefix has a cost of its own to add. -/
theorem execute_extended
    {i : Instruction}
    {imm : UInt16}
    {s : Core β}
    {more : Nat}
    (h : (s.execute i imm).1 = .extended more) :
    i = .extended ∧ more =
      (PrefixedInstruction.ofOpcode (lowByte imm)).ticks := by
  cases i with
  | extended =>
      cases h
      exact ⟨rfl, rfl⟩
  | jumpRelative cond | jump cond | call cond | ret cond =>
      exact absurd h (branch_ne_extended _ _ _ _)
  | _ => cases h

theorem stepCost_perform
    (pc : UInt16)
    (i : Instruction)
    (s : Core β) :
    StepCost (s.perform pc i).1 := by
  unfold perform
  rcases s.fetchImmediate i.immediate with ⟨imm, t⟩
  rcases hResult :
      (t.note (.executing pc i imm)).execute i imm with
    ⟨flow, u⟩
  simp only [hResult]
  cases flow with
  | next => exact stepCost_ticks i
  | jump => exact stepCost_takenTicks i
  | extended more =>
      obtain ⟨rfl, rfl⟩ :=
        execute_extended (congrArg Prod.fst hResult)
      exact stepCost_prefixed _

/- Every step costs between one and six machine cycles. -/
theorem stepCost_step
    {s : Core β}
    {cost : Nat}
    (h : s.step.1 = .ok cost) :
    StepCost cost := by
  rw [step_eq] at h
  cases hEvent : s.event with
  | idle =>
      rw [hEvent] at h
      cases h
      decide
  | entered i =>
      rw [hEvent] at h
      cases h
      decide
  | executed i =>
      rw [hEvent] at h
      cases h
      exact stepCost_perform _ i _
  | failed fault =>
      rw [hEvent] at h
      cases h

end Core

end Dmg
