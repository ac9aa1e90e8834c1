import Typesheet.Command.Path

/-! Files and directories, as far as the program uses them.

A `Disk` gives the four things that are done to files, each of which may fail
with a reason. Making a directory with everything above it is built from them. -/
namespace Typesheet.Command

/-- Why something could not be done to a file or directory. -/
inductive DiskError where
  | notFound
  | alreadyExists
  | notDirectory
  | isDirectory
  | nameTooLong
  /-- The bytes of a file spell no text. -/
  | invalidText
  | other (text : String)
deriving DecidableEq, Repr, Inhabited

/-- The reason in words. -/
def DiskError.text : DiskError → String
  | notFound => "No such file or directory (os error 2)"
  | alreadyExists => "File exists (os error 17)"
  | notDirectory => "Not a directory (os error 20)"
  | isDirectory => "Is a directory (os error 21)"
  | nameTooLong => "File name too long (os error 36)"
  | invalidText => "stream did not contain valid UTF-8"
  | other text => text

/-- What can be done to files and directories. -/
structure Disk (m : Type → Type) where
  read : Path → m (Except DiskError ByteArray)
  write : Path → String → m (Except DiskError Unit)
  makeDirectory : Path → m (Except DiskError Unit)
  isDirectory : Path → m Bool

namespace Disk
variable {m : Type → Type} [Monad m]

/-- A directory that is there in the end counts as made. -/
def settle (disk : Disk m) (p : Path) : Except DiskError Unit → m (Except DiskError Unit)
  | .ok () => return .ok ()
  | .error e => return if ← disk.isDirectory p then .ok () else .error e

/-- Makes the first of these directories, each of which lies in the next, and
those of the others that it needs. -/
def makeLineage (disk : Disk m) : List Path → m (Except DiskError Unit)
  | [] => return .ok ()
  | p :: above => do
    if p.isEmpty then
      return .ok ()
    else
      match ← disk.makeDirectory p with
      | .error .notFound =>
        match ← disk.makeLineage above with
        | .ok () => disk.settle p (← disk.makeDirectory p)
        | .error e => return .error e
      | made => disk.settle p made

/-- Makes a directory and everything above it. -/
def makeDirectories (disk : Disk m) (p : Path) : m (Except DiskError Unit) :=
  disk.makeLineage p.lineage

/-- The text of a file. -/
def readText (disk : Disk m) (p : Path) : m (Except DiskError String) := do
  match ← disk.read p with
  | .error e => return .error e
  | .ok bytes =>
    match String.fromUTF8? bytes with
    | some text => return .ok text
    | none => return .error .invalidText

end Disk

end Typesheet.Command
