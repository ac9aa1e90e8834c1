import Typesheet.Command.Disk

/-! A tree of files held in memory.

A directory holds what lies in it by name, so that nothing lies below anything but
a directory. A path is followed segment by segment: every place it passes through
has to be a directory, and every name a possible one. -/
namespace Typesheet.Command

/-- What can lie at a place. -/
inductive Entry where
  | directory (contents : List (String × Entry))
  | file (bytes : ByteArray)
  /-- A device that is always empty, whatever is written to it. -/
  | sink
deriving Inhabited

/-- A place in the tree, by the names that lead to it from the root. -/
abbrev Place := List String

namespace Entry

/-- A directory with nothing in it. -/
def emptyDirectory : Entry := directory []

/-- What lies at a place below. -/
def at? : Entry → Place → Option Entry
  | entry, [] => some entry
  | directory contents, name :: place =>
    match contents.lookup name with
    | none => none
    | some entry => entry.at? place
  | _, _ :: _ => none

/-- The same with something put at a place below, in place of what lay there, and
directories above it. -/
def put (new : Entry) : Entry → Place → Entry
  | _, [] => new
  | directory contents, name :: place =>
    let below := (contents.lookup name).getD emptyDirectory
    directory ((name, new.put below place) :: contents.filter (·.1 ≠ name))
  | _, name :: place => directory [(name, new.put emptyDirectory place)]

end Entry

/-- A tree and the place in it that relative paths start from. -/
structure Files where
  root : Entry
  home : Place
deriving Inhabited

namespace Files

/-- How many bytes a name can have. -/
def nameLimit : Nat := 255

/-- How many bytes a path has to stay below. -/
def pathLimit : Nat := 4096

/-- The tree with something put at a place, and directories above it. -/
def put (fs : Files) (place : Place) (entry : Entry) : Files :=
  {fs with root := entry.put fs.root place}

/-- The directories that lie at the root of a system. -/
def rootDirectories : List String :=
  ["bin", "boot", "dev", "etc", "home", "lib", "media", "mnt", "opt", "proc", "root", "run",
    "sbin", "srv", "sys", "tmp", "usr", "var"]

/-- What a system holds, with an empty directory of its own to start from. -/
def initial : Files :=
  let root := Entry.directory (rootDirectories.map fun name => (name, .emptyDirectory))
  let home := ["tmp", "work"]
  ((Files.mk root home).put home .emptyDirectory).put ["dev", "null"] .sink

/-- What lies at a place whose name was read in a path. -/
def lookUp (fs : Files) (place : Place) : Except DiskError (Option Entry) :=
  if place.getLast?.any (nameLimit < ·.utf8ByteSize) then .error .nameTooLong
  else .ok (fs.root.at? place)

/-- Requires a directory at a place. -/
def enter (fs : Files) (place : Place) : Except DiskError Unit := do
  match ← fs.lookUp place with
  | none => .error .notFound
  | some (.directory _) => .ok ()
  | some _ => .error .notDirectory

/-- The place that a segment leads to from a directory. -/
def step (place : Place) (segment : String) : Place :=
  if segment = "" ∨ segment = "." then place
  else if segment = ".." then place.dropLast
  else place ++ [segment]

/-- The place that segments lead to, whether or not anything lies there. -/
def follow (fs : Files) (place : Place) : List String → Except DiskError Place
  | [] => .ok place
  | segment :: segments => do
    fs.enter place
    fs.follow (step place segment) segments

/-- The place that a path starts from. -/
def origin (fs : Files) (p : Path) : Place := if p.absolute then [] else fs.home

/-- Requires that a path is not too long. -/
def requireShort (p : Path) : Except DiskError Unit :=
  if p.text.utf8ByteSize < pathLimit then .ok () else .error .nameTooLong

/-- What a path leads to. -/
def find (fs : Files) (p : Path) : Except DiskError Entry := do
  requireShort p
  match ← fs.lookUp (← fs.follow (fs.origin p) p.segments) with
  | none => .error .notFound
  | some entry => .ok entry

def read (fs : Files) (p : Path) : Except DiskError ByteArray := do
  match ← fs.find p with
  | .directory _ => .error .isDirectory
  | .file bytes => .ok bytes
  | .sink => .ok .empty

def isDirectory (fs : Files) (p : Path) : Bool :=
  match fs.find p with
  | .ok (.directory _) => true
  | _ => false

/-- A place where something is to be made. -/
inductive Target where
  /-- A directory and a name in it. -/
  | named (place : Place)
  /-- A directory reached by dots, or the root. -/
  | existing

/-- The place that a path names, slashes at its end aside. -/
def target (fs : Files) (p : Path) : Except DiskError Target := do
  requireShort p
  match p.segments.reverse.dropWhile (· = "") with
  | [] => .ok .existing
  | last :: front =>
    let place ← fs.follow (fs.origin p) front.reverse
    fs.enter place
    if last = "." ∨ last = ".." then .ok .existing else .ok (.named (place ++ [last]))

/-- Writes a file, whatever it held; a path that ends in a slash names none. -/
def write (fs : Files) (p : Path) (text : String) : Except DiskError Files := do
  match ← fs.target p with
  | .existing => .error .isDirectory
  | .named place =>
    if p.segments.getLast? = some "" then .error .isDirectory
    else
      match ← fs.lookUp place with
      | some (.directory _) => .error .isDirectory
      | some .sink => .ok fs
      | _ => .ok (fs.put place (.file text.toUTF8))

/-- Makes a directory where nothing lies yet. -/
def makeDirectory (fs : Files) (p : Path) : Except DiskError Files := do
  match ← fs.target p with
  | .existing => .error .alreadyExists
  | .named place =>
    match ← fs.lookUp place with
    | some _ => .error .alreadyExists
    | none => .ok (fs.put place .emptyDirectory)

/-- A change to the tree, which stays as it was if the change fails. -/
def change (f : Files → Except DiskError Files) : StateM Files (Except DiskError Unit) :=
  fun fs =>
  match f fs with
  | .ok fs => (.ok (), fs)
  | .error e => (.error e, fs)

/-- The tree as a disk. -/
def disk : Disk (StateM Files) where
  read p := fun fs => (fs.read p, fs)
  write p text := change (·.write p text)
  makeDirectory p := change (·.makeDirectory p)
  isDirectory p := fun fs => (fs.isDirectory p, fs)

/-- The tree with a file at a path, and directories above it. -/
def add (fs : Files) (p : Path) (bytes : ByteArray) : Files :=
  fs.put (p.segments.foldl step (fs.origin p)) (.file bytes)

end Files

end Typesheet.Command
