import WideMultiplier.Console.FileFault

/-!
# Paths

A path is a sequence of names that slashes separate. It begins at the root of the tree of
directories if a slash begins it, and otherwise in the working directory. Two slashes count as one.
A path that a slash ends stands for a directory.
-/

namespace WideMultiplier

/-- A path, taken apart. -/
structure Path where
  /-- Whether it begins at the root. -/
  absolute : Bool
  names : List String
  /-- Whether a slash ends it. -/
  closed : Bool
deriving DecidableEq

namespace Path

/-- The name that stands for the directory that it is in. -/
def here : String :=
  "."

/-- The name that stands for the directory above the one that it is in. -/
def above : String :=
  ".."

/-- The longest path, in bytes. -/
def maxBytes : Nat := 4095

/-- The longest name, in bytes. -/
def maxNameBytes : Nat := 255

/-- Takes a path apart. An empty path leads nowhere. -/
def read (text : String) : Except FileFault Path :=
  let parts := text.toList.splitOn '/'
  if text.isEmpty then .error .notFound
  else if maxBytes < text.utf8ByteSize then .error .nameTooLong
  else
    .ok {
      absolute := parts.head? == some []
      names := (parts.filter fun part => !part.isEmpty).map String.ofList
      closed := parts.getLast? == some [] }

/-- The names on the way to what is read. What a slash ends has to be a directory. -/
def readNames (path : Path) : List String :=
  if path.closed then path.names ++ [here] else path.names

/-- The names on the way to what is written. What a slash ends is taken for a directory, whether it
is there or not. -/
def writeNames (path : Path) : List String :=
  if path.closed then path.names.dropLast ++ [here] else path.names

/-- Whether a name is too long for a file. -/
def isTooLong (name : String) : Bool :=
  maxNameBytes < name.utf8ByteSize

end Path

end WideMultiplier
