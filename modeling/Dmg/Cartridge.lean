import Dmg.Text.Hex

/-
  Cartridges: plain 32 KiB images without a mapper, checked
  by their header.

  An image is refused if it is too small for a header, names
  a mapper or another size, or is not as large as its header
  says.  A wrong logo or header checksum only earns a warning.

  Key definitions include:
    * `FileFault`
    * `ImageDefect`
    * `CartridgeFault`
    * `Cartridge`
    * `Cartridge.ofBytes`
    * `Cartridge.title`
    * `Cartridge.warnings`
-/

namespace Dmg

------------------------------------------------------------
-- Faults
------------------------------------------------------------

/- Why a file cannot be read or written. -/
inductive FileFault where
  | nulInName
  | notFound
  | denied
  | notDirectory
  | isDirectory
  | noSpace
  | nameTooLong
  | other (text : String) (code : Nat)
deriving DecidableEq, Repr

/- The wording of a fault, with the system's number of it. -/
def FileFault.message : FileFault → String
  | .nulInName =>
      "file name contained an unexpected NUL byte"
  | .notFound => "No such file or directory (os error 2)"
  | .denied => "Permission denied (os error 13)"
  | .notDirectory => "Not a directory (os error 20)"
  | .isDirectory => "Is a directory (os error 21)"
  | .noSpace => "No space left on device (os error 28)"
  | .nameTooLong => "File name too long (os error 36)"
  | .other text code =>
      text ++ " (os error " ++ toString code ++ ")"

/- What is wrong with the size of an image, in bytes. -/
inductive ImageDefect where
  | tooSmall (size : Nat)
  | wrongSize (size : Nat)
deriving DecidableEq, Repr

def ImageDefect.message : ImageDefect → String
  | .tooSmall size =>
      toString size ++
        " bytes is smaller than the 0x150-byte header"
  | .wrongSize size =>
      "file is " ++ toString size ++
        " bytes but the header declares 32768 bytes"

/- Why a cartridge is refused. -/
inductive CartridgeFault where
  | unreadable (path : String) (cause : FileFault)
  | unsupportedKind (kind : UInt8)
  | unsupportedSize (code : UInt8)
  | malformed (defect : ImageDefect)
deriving DecidableEq, Repr

namespace CartridgeFault

/- The wording of a fault. -/
def message : CartridgeFault → String
  | .unreadable path _ =>
      "failed to read ROM file " ++ path
  | .unsupportedKind kind =>
      "unsupported cartridge type 0x" ++ Hex.byte kind ++
        " (only ROM ONLY cartridges are supported)"
  | .unsupportedSize code =>
      "unsupported ROM size code 0x" ++ Hex.byte code ++
        " (only 32 KiB ROMs are supported)"
  | .malformed defect =>
      "malformed ROM: " ++ defect.message

/- The wording of what lies behind a fault, if anything. -/
def cause? : CartridgeFault → Option String
  | .unreadable _ cause => some cause.message
  | _ => none

/- The wording of a fault and of what lies behind it. -/
def report
    (e : CartridgeFault) : String :=
  match e.cause? with
  | none => e.message
  | some cause => e.message ++ ": " ++ cause

end CartridgeFault

------------------------------------------------------------
-- Header
------------------------------------------------------------

/- The size of an accepted image. -/
def romSize : Nat := 0x8000

/- The size of the smallest image with a complete header. -/
def headerEnd : Nat := 0x150

/- The bitmap expected at 0x0104. -/
def logo : List UInt8 :=
  [0xCE, 0xED, 0x66, 0x66, 0xCC, 0x0D, 0x00, 0x0B,
   0x03, 0x73, 0x00, 0x83, 0x00, 0x0C, 0x00, 0x0D,
   0x00, 0x08, 0x11, 0x1F, 0x88, 0x89, 0x00, 0x0E,
   0xDC, 0xCC, 0x6E, 0xE6, 0xDD, 0xDD, 0xD9, 0x99,
   0xBB, 0xBB, 0x67, 0x63, 0x6E, 0x0E, 0xEC, 0xCC,
   0xDD, 0xDC, 0x99, 0x9F, 0xBB, 0xB9, 0x33, 0x3E]

/- The bytes of an image from one address up to another. -/
def bytesFrom
    (image : Array UInt8)
    (start stop : Nat) : List UInt8 :=
  (image.extract start stop).toList

/- The checksum of the header bytes 0x0134 to 0x014C. -/
def headerChecksum
    (image : Array UInt8) : UInt8 :=
  (bytesFrom image 0x134 0x14D).foldl
    (fun x b => x - b - 1) 0

/- A byte of a title as a character; a space if unprintable. -/
def titleChar
    (b : UInt8) : Char :=
  if 0x20 ≤ b.toNat ∧ b.toNat ≤ 0x7E then
    Char.ofNat b.toNat
  else ' '

/-
  The text of a title field: its bytes up to the first NUL,
  without the spaces at the end.
-/
def titleText
    (field : List UInt8) : List Char :=
  let cs := (field.takeWhile (· != 0)).map titleChar
  (cs.reverse.dropWhile (· == ' ')).reverse

/- Header problems that do not keep a cartridge from running. -/
inductive HeaderWarning where
  | logoMismatch
  | checksumMismatch (stored computed : UInt8)
deriving DecidableEq, Repr

def HeaderWarning.message : HeaderWarning → String
  | .logoMismatch => "Nintendo logo does not match"
  | .checksumMismatch stored computed =>
      "header checksum mismatch (stored 0x" ++
        Hex.byte stored ++ ", computed 0x" ++
        Hex.byte computed ++ ")"

------------------------------------------------------------
-- Cartridge
------------------------------------------------------------

/- An accepted image. -/
structure Cartridge where
  rom : Vector UInt8 romSize
deriving DecidableEq, Repr

namespace Cartridge

/- Accept or refuse an image. -/
def ofBytes
    (image : Array UInt8) :
    Except CartridgeFault Cartridge :=
  if hHeader : image.size < headerEnd then
    .error (.malformed (.tooSmall image.size))
  else
    have : 0x150 ≤ image.size := Nat.le_of_not_lt hHeader
    if image[0x147] ≠ 0 then
      .error (.unsupportedKind image[0x147])
    else if image[0x148] ≠ 0 then
      .error (.unsupportedSize image[0x148])
    else if hSize : image.size = romSize then
      .ok ⟨⟨image, hSize⟩⟩
    else
      .error (.malformed (.wrongSize image.size))

/- The title in the header. -/
def title
    (c : Cartridge) : String :=
  String.ofList
    (titleText (bytesFrom c.rom.toArray 0x134 0x144))

/- The kind byte in the header. -/
def kind
    (c : Cartridge) : UInt8 :=
  have h : 0x147 < romSize := by decide
  c.rom[0x147]

/- The size of the external RAM that the header declares. -/
def ramSize
    (c : Cartridge) : Nat :=
  have h : 0x149 < romSize := by decide
  match c.rom[0x149].toNat with
  | 1 => 0x800
  | 2 => 0x2000
  | 3 => 0x8000
  | 4 => 0x20000
  | 5 => 0x10000
  | _ => 0

/- The checksum stored in the header. -/
def storedChecksum
    (c : Cartridge) : UInt8 :=
  have h : 0x14D < romSize := by decide
  c.rom[0x14D]

/- What the header earns a warning for. -/
def warnings
    (c : Cartridge) : List HeaderWarning :=
  let computed := headerChecksum c.rom.toArray
  (if bytesFrom c.rom.toArray 0x104 0x134 = logo then []
    else [.logoMismatch]) ++
  (if c.storedChecksum = computed then []
    else [.checksumMismatch c.storedChecksum computed])

end Cartridge

end Dmg
