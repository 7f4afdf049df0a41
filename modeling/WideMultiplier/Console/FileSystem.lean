import WideMultiplier.Console.FileFault

/-!
# File systems

What a session can do with files. A `FileSystem` carries its operations out on a state of any type:
nothing is fixed of the tree of directories, of permissions, or of what else is in a state.
`RegularFiles` is what is documented of regular files, and all that sessions rely on.
-/

namespace WideMultiplier

/-- What writing to a file leaves behind: whether it succeeded, the state, and what is printed,
since a path may lead to where the program prints. -/
structure Written (σ : Type) where
  result : Except FileFault Unit
  after : σ
  output : String
  errors : String

/-- The operations on files, each with the state after it. -/
structure FileSystem (σ : Type) where
  /-- Reads all bytes at a path. -/
  read : String → σ → Except FileFault (List UInt8) × σ
  /-- Makes a file at a path, in place of the one that may be there. -/
  create : String → σ → Except FileFault Unit × σ
  /-- Writes a text to the file that was made at a path. -/
  write : String → String → σ → Written σ

namespace FileSystem

variable {σ : Type} (system : FileSystem σ)

/-- Reads the text at a path. -/
def readText (path : String) (state : σ) : Except FileFault String × σ :=
  let read := system.read path state
  (read.1 >>= decodeText, read.2)

/-- Makes a file at a path and writes a text to it. -/
def writeText (path content : String) (state : σ) : Written σ :=
  match system.create path state with
  | (.error fault, after) => ⟨.error fault, after, "", ""⟩
  | (.ok (), after) => system.write path content after

/-- Whether a regular file can be made at a path. -/
structure Makes (holds : String → σ → Option (List UInt8)) (path : String) (state : σ) : Prop where
  created : (system.create path state).1 = .ok ()
  regular : (holds path (system.create path state).2).isSome = true

end FileSystem

end WideMultiplier
