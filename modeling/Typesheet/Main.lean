import Typesheet.Command.Run

/-! The program on the files of the machine it runs on. -/
namespace Typesheet.Command.Machine

/-- The number of an error of the system, which may come with its sign turned. -/
def systemCode (code : UInt32) : Nat := min code.toNat (0 - code).toNat

/-- An error of the system with the words for it. -/
def systemError (code : UInt32) (details : String) : DiskError :=
  .other (details ++ " (os error " ++ Text.decimalString (systemCode code) ++ ")")

/-- Why an operation on a file of the machine failed. -/
def diskError : IO.Error → DiskError
  | .noFileOrDirectory .. => .notFound
  | .alreadyExists _ _ _ => .alreadyExists
  | .inappropriateType _ code details =>
    if systemCode code = 21 then .isDirectory
    else if systemCode code = 20 then .notDirectory
    else systemError code details
  | .invalidArgument _ code details =>
    if systemCode code = 36 then .nameTooLong else systemError code details
  | .permissionDenied _ code details => systemError code details
  | e => .other (toString e)

/-- An operation on a file of the machine, with the reason if it fails. -/
def attempt {α : Type} (act : IO α) : IO (Except DiskError α) := do
  try return .ok (← act)
  catch e => return .error (diskError e)

/-- The files of the machine. -/
def disk : Disk IO where
  read p := attempt (IO.FS.readBinFile p.text)
  write p text := attempt (IO.FS.writeFile p.text text)
  makeDirectory p := attempt (IO.FS.createDir p.text)
  isDirectory p := do
    match ← attempt (IO.FS.readBinFile p.text) with
    | .error .isDirectory => return true
    | _ => return false

end Typesheet.Command.Machine

def main (args : List String) : IO UInt32 := do
  let outcome ← Typesheet.Command.run Typesheet.Command.Machine.disk args
  (← IO.getStdout).putStr outcome.stdout
  (← IO.getStderr).putStr outcome.stderr
  return UInt32.ofNat outcome.exit
