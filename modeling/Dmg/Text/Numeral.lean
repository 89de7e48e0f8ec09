/-
  Unsigned 32-bit numerals: an optional plus sign and one or
  more decimal digits, with leading zeros allowed.

  Key definitions include:
    * `Numeral.Fault`
    * `Numeral.Fault.message`
    * `Numeral.read`
-/

namespace Dmg.Numeral

/- Why a text is no numeral. -/
inductive Fault where
  | empty
  | invalidDigit
  | tooLarge
deriving DecidableEq, Repr

/- The wording of each cause. -/
def Fault.message : Fault → String
  | .empty => "cannot parse integer from empty string"
  | .invalidDigit => "invalid digit found in string"
  | .tooLarge =>
      "number too large to fit in target type"

/- The value of a decimal digit. -/
def digitValue?
    (c : Char) : Option Nat :=
  if '0' ≤ c && c ≤ '9' then some (c.toNat - 48) else none

/-
  Read digits from the left onto the value so far.  The first
  fault met wins: a character that is no digit, or a value
  that no longer fits in 32 bits.
-/
def readDigits : List Char → Nat → Except Fault Nat
  | [], n => .ok n
  | c :: cs, n =>
      match digitValue? c with
      | none => .error .invalidDigit
      | some d =>
          if n * 10 + d < UInt32.size then
            readDigits cs (n * 10 + d)
          else
            .error .tooLarge

/- Read a numeral. -/
def read : List Char → Except Fault Nat
  | [] => .error .empty
  | ['+'] => .error .invalidDigit
  | '+' :: cs => readDigits cs 0
  | cs => readDigits cs 0

end Dmg.Numeral
