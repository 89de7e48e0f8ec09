import Dmg.Snapshot

/-
  The command line: runs the pure program on the files of the
  host.

  Key definitions include:
    * `HostFiles.faultOf`
    * `main`
-/

namespace Dmg

namespace HostFiles

/-
  The number of an error of the host, which some calls hand
  out with its sign changed.
-/
def magnitude
    (code : UInt32) : Nat :=
  if code.toNat < 0x80000000 then code.toNat
  else 0x100000000 - code.toNat

/- The cause that a number of the host stands for. -/
def faultOfCode
    (code : UInt32)
    (text : String) : FileFault :=
  match magnitude code with
  | 2 => .notFound
  | 13 => .denied
  | 20 => .notDirectory
  | 21 => .isDirectory
  | 28 => .noSpace
  | 36 => .nameTooLong
  | n => .other text n

/- The cause behind an error of the host. -/
def faultOf : IO.Error → FileFault
  | .noFileOrDirectory _ code text
  | .permissionDenied _ code text
  | .inappropriateType _ code text
  | .invalidArgument _ code text
  | .resourceExhausted _ code text
  | .alreadyExists _ code text
  | .illegalOperation code text
  | .resourceBusy code text
  | .hardwareFault code text
  | .unsupportedOperation code text
  | .otherError code text => faultOfCode code text
  | e => .other (toString e) 0

/- Act on a path if nothing is wrong with it in itself. -/
def attempt
    {α : Type}
    (path : String)
    (act : IO α) : IO (Except FileFault α) := do
  match checkPath path with
  | .error e => return .error e
  | .ok _ =>
      try return .ok (← act)
      catch e => return .error (faultOf e)

instance : Files IO where
  load path := attempt path do
    return (← IO.FS.readBinFile path).data
  save path bytes := attempt path do
    IO.FS.writeBinFile path ⟨bytes⟩

end HostFiles

/- Print what a program leaves behind. -/
def finish
    (program : StateT Journal IO Exit) : IO UInt32 := do
  let (exit, _) ← program.run {}
  IO.print exit.stdout
  IO.eprint exit.stderr
  return exit.code.toUInt32

end Dmg

/- Run an image and write its last picture. -/
def main
    (args : List String) : IO UInt32 :=
  Dmg.finish (Dmg.Snapshot.run args)
