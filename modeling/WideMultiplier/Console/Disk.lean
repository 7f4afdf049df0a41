import WideMultiplier.Console.FileSystem
import WideMultiplier.Console.Path

/-!
# Disks

A file system that lies in memory, to run sessions in. A disk tells what stands where: directories,
links, regular files, and files that are more than a content, such as devices and reports that are
made up when they are read. A path is walked name by name, over at most `maxLinks` links.
-/

namespace WideMultiplier

/-- A file that is more than a content. -/
inductive SystemFile where
  /-- Takes everything and gives nothing. -/
  | null
  /-- Takes everything and gives zeros without end. -/
  | zero
  /-- Takes everything and gives random bytes without end. -/
  | random
  /-- Has no room, and gives zeros without end. -/
  | full
  /-- What the program is given, which is nothing. -/
  | input
  /-- Where the program prints. -/
  | output
  /-- Where the program complains. -/
  | errors
  /-- The terminal, which the program has not. -/
  | terminal
  /-- A text. -/
  | text
  /-- A text about the machine, which can only be read. -/
  | report
  /-- A text about a running program, which can only be read. -/
  | record
  /-- The words that the program was started with, which can only be read. -/
  | commandLine
  /-- The memory of the running program, of which nothing lies at address 0. -/
  | memory
  /-- A program. It is no text, and cannot be replaced while it runs. -/
  | program
deriving DecidableEq

namespace SystemFile

/-- The name that the program is started by. -/
def programName : String :=
  "bigmul-testgen"

/-- What such a file gives to a program that was started with these arguments. A zero ends every
word of the command line. Memory does not hold what has no end. -/
def content (arguments : List String) : SystemFile → Except FileFault (List UInt8)
  | .zero | .random | .full => .error (.other "out of memory")
  | .terminal => .error .noDevice
  | .memory => .error .inputOutput
  | .program => .error .notText
  | .commandLine =>
    .ok ((programName :: arguments).flatMap fun word => word.toUTF8.toList ++ [0])
  | .null | .input | .output | .errors | .text | .report | .record => .ok []

end SystemFile

/-- A place in the tree of directories: the names on the way to it, innermost first. -/
abbrev Location := List String

namespace Location

/-- Whether a place lies in the directories of processes. -/
def ofProcesses (place : Location) : Bool :=
  place.getLast? == some "proc"

/-- Whether a place lies in the directories of the machine. -/
def ofMachine (place : Location) : Bool :=
  place.getLast? == some "sys"

/-- Why a name in a directory leads nowhere. The directories of processes and of the machine take
names of every length. -/
def absence (parent : Location) (name : String) : FileFault :=
  if Path.isTooLong name && !parent.ofProcesses && !parent.ofMachine then .nameTooLong
  else .notFound

/-- Why no file with a name can be made in a directory, if that is so. The directories of processes,
of the machine and of terminals show what there is, and take nothing. -/
def refusal? (parent : Location) (name : String) : Option FileFault :=
  if parent.ofProcesses then some .notFound
  else if parent.ofMachine then some .denied
  else if Path.isTooLong name then some .nameTooLong
  else if parent = ["pts", "dev"] then some .denied
  else none

end Location

/-- What stands at a place that is no directory. -/
inductive Entry where
  | file (content : List UInt8)
  | system (file : SystemFile)
deriving DecidableEq

/-- What a path leads to: a directory, or a name in a directory with what stands there. -/
inductive Place where
  | directory
  | entry (parent : Location) (name : String) (found : Option Entry)
deriving DecidableEq

/-- A disk, as the program sees it. -/
structure Disk where
  directories : List Location
  /-- Each link with the names on the way from the root to where it leads. -/
  links : List (Location × List String)
  systemFiles : List (Location × SystemFile)
  files : List (Location × List UInt8)
  /-- The working directory. -/
  home : Location
  /-- The words that the program was started with. -/
  arguments : List String

namespace Disk

/-- What stands at a place that is no directory. -/
def lookup (disk : Disk) (place : Location) : Option Entry :=
  match disk.systemFiles.lookup place with
  | some file => some (.system file)
  | none => (disk.files.lookup place).map .file

/-- Where a walk ends at a name that is no link and no directory, with these names left. -/
def stop (disk : Disk) (here : Location) (name : String) : List String → Except FileFault Place
  | [] => .ok (.entry here name (disk.lookup (name :: here)))
  | _ :: _ =>
    match disk.lookup (name :: here) with
    | some _ => .error .notDirectory
    | none => .error (here.absence name)

/-- Walks along names from a directory, up to the first link. There the walk goes on from the root,
with the names that the link leads along before those that are left. -/
def walkNames (disk : Disk) (follow : List String → Except FileFault Place) :
    Location → List String → Except FileFault Place
  | _, [] => .ok .directory
  | here, name :: rest =>
    if name = Path.here then disk.walkNames follow here rest
    else if name = Path.above then disk.walkNames follow here.tail rest
    else
      match disk.links.lookup (name :: here) with
      | some target => follow (target ++ rest)
      | none =>
        if disk.directories.contains (name :: here) then
          disk.walkNames follow (name :: here) rest
        else disk.stop here name rest

/-- Walks along names from a directory, over at most so many links. -/
def walkWithin (disk : Disk) : Nat → Location → List String → Except FileFault Place
  | 0 => disk.walkNames fun _ => .error .tooManyLinks
  | budget + 1 => disk.walkNames (disk.walkWithin budget [])

/-- The most links on a way. -/
def maxLinks : Nat := 40

/-- What the names on a way lead to. -/
def locate (disk : Disk) (path : Path) (names : List String) : Except FileFault Place :=
  disk.walkWithin maxLinks (if path.absolute then [] else disk.home) names

/-- What a path leads to that is written. -/
def target (disk : Disk) (text : String) : Except FileFault Place := do
  let path ← Path.read text
  disk.locate path path.writeNames

/-- Reads what stands at a path. -/
def read (disk : Disk) (text : String) : Except FileFault (List UInt8) := do
  let path ← Path.read text
  match ← disk.locate path path.readNames with
  | .directory => .error .isDirectory
  | .entry _ _ (some (.file content)) => .ok content
  | .entry _ _ (some (.system file)) => file.content disk.arguments
  | .entry parent name none => .error (parent.absence name)

/-- The disk on which the file at a place has this content. -/
def put (disk : Disk) (place : Location) (content : List UInt8) : Disk :=
  { disk with files := (place, content) :: disk.files.filter fun file => file.1 != place }

/-- Makes a file at a path, or empties the one that is there. -/
def create (disk : Disk) (text : String) : Except FileFault Disk := do
  match ← disk.target text with
  | .directory => .error .isDirectory
  | .entry _ _ (some (.system _)) => .ok disk
  | .entry parent name (some (.file _)) => .ok (disk.put (name :: parent) [])
  | .entry parent name none =>
    match parent.refusal? name with
    | some fault => .error fault
    | none => .ok (disk.put (name :: parent) [])

/-- Writes a text to a file that is more than a content. -/
def writeSystem (disk : Disk) (content : String) : SystemFile → Written Disk
  | .null | .zero | .random | .input | .text => ⟨.ok (), disk, "", ""⟩
  | .output => ⟨.ok (), disk, content, ""⟩
  | .errors => ⟨.ok (), disk, "", content⟩
  | .full => ⟨.error .noSpace, disk, "", ""⟩
  | .terminal => ⟨.error .noDevice, disk, "", ""⟩
  | .report | .memory => ⟨.error .inputOutput, disk, "", ""⟩
  | .record | .commandLine => ⟨.error .invalidArgument, disk, "", ""⟩
  | .program => ⟨.error .busy, disk, "", ""⟩

/-- Writes a text to the file at a path. -/
def write (disk : Disk) (text content : String) : Written Disk :=
  match disk.target text with
  | .error fault => ⟨.error fault, disk, "", ""⟩
  | .ok .directory => ⟨.error .isDirectory, disk, "", ""⟩
  | .ok (.entry _ _ (some (.system file))) => disk.writeSystem content file
  | .ok (.entry parent name _) =>
    ⟨.ok (), disk.put (name :: parent) content.toUTF8.toList, "", ""⟩

/-- The operations on files, carried out on a disk. -/
def fileSystem : FileSystem Disk where
  read path disk := (disk.read path, disk)
  create path disk :=
    match disk.create path with
    | .error fault => (.error fault, disk)
    | .ok after => (.ok (), after)
  write path content disk := disk.write path content

/-- The names of all files in the working directory, in ascending order. -/
def names (disk : Disk) : List String :=
  (disk.files.filterMap fun file =>
    match file.1 with
    | name :: parent => if parent = disk.home then some name else none
    | [] => none).mergeSort fun first second => !(second < first)

end Disk

end WideMultiplier
