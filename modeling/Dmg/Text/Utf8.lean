/-
  Lenient reading of UTF-8: each longest sequence of bytes
  that begins a character but does not finish it, and each
  byte that begins none, becomes one replacement character.

  Key definitions include:
    * `Utf8.Partial`
    * `Utf8.start`
    * `Utf8.decodeFrom`
    * `Utf8.decode`
-/

namespace Dmg.Utf8

/-
  A character read in part: the code so far, the number of
  bytes still to come, and the range the next must lie in.
-/
structure Partial where
  code : Nat
  missing : Nat
  low : Nat
  high : Nat
deriving DecidableEq, Repr

/- What the first byte of a character leaves to be read. -/
inductive Lead where
  | complete (c : Char)
  | begun (p : Partial)
  | invalid

/- The character that stands for bytes that spell none. -/
def replacement : Char := Char.ofNat 0xFFFD

/- Read the first byte of a character. -/
def start
    (b : UInt8) : Lead :=
  let n := b.toNat
  if n < 0x80 then .complete (Char.ofNat n)
  else if n < 0xC2 then .invalid
  else if n < 0xE0 then .begun ⟨n - 0xC0, 1, 0x80, 0xBF⟩
  else if n = 0xE0 then .begun ⟨0, 2, 0xA0, 0xBF⟩
  else if n = 0xED then .begun ⟨0xD, 2, 0x80, 0x9F⟩
  else if n < 0xF0 then .begun ⟨n - 0xE0, 2, 0x80, 0xBF⟩
  else if n = 0xF0 then .begun ⟨0, 3, 0x90, 0xBF⟩
  else if n < 0xF4 then .begun ⟨n - 0xF0, 3, 0x80, 0xBF⟩
  else if n = 0xF4 then .begun ⟨4, 3, 0x80, 0x8F⟩
  else .invalid

/- Read bytes, with a character possibly begun before. -/
def decodeFrom : Option Partial → List UInt8 → List Char
  | none, [] => []
  | some _, [] => [replacement]
  | none, b :: bs => begin b bs
  | some p, b :: bs =>
      if p.low ≤ b.toNat ∧ b.toNat ≤ p.high then
        let code := p.code * 64 + b.toNat % 64
        if p.missing = 1 then
          Char.ofNat code :: decodeFrom none bs
        else
          decodeFrom
            (some ⟨code, p.missing - 1, 0x80, 0xBF⟩) bs
      else
        replacement :: begin b bs
where
  /- Begin a new character at a byte. -/
  begin (b : UInt8) (bs : List UInt8) : List Char :=
    match start b with
    | .complete c => c :: decodeFrom none bs
    | .begun p => decodeFrom (some p) bs
    | .invalid => replacement :: decodeFrom none bs

/- Read bytes as text. -/
def decode
    (bs : List UInt8) : String :=
  String.ofList (decodeFrom none bs)

end Dmg.Utf8
