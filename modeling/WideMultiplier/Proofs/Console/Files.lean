import WideMultiplier.Console.Disk
import WideMultiplier.Proofs.Sink

/-!
# Regular files

Where a regular file can be made, a text that is written is read back: `RegularFiles.read_writeText`
says so of every file system that keeps what is documented. A disk does (`Disk.regularFiles`),
whatever directories and links it has: a file that is put at a place changes nothing on the way
there, so the same path leads to it afterwards (`Disk.locate_put`).
-/

namespace WideMultiplier

namespace FileSystem

variable {σ : Type} {system : FileSystem σ}

end FileSystem

namespace Path

variable {path : Path}

end Path

namespace Disk

/-! ## Putting a file at a place -/

section Put

variable {disk : Disk} {here parent : Location} {name : String} {names : List String}
  {found : Option Entry} {content : List UInt8}

end Put

/-! ## Regular files -/

/-- What the regular file at a path holds, if there is one. What a slash ends is no path to a
file. -/
def holds (text : String) (disk : Disk) : Option (List UInt8) :=
  match Path.read text with
  | .error _ => none
  | .ok path =>
    if path.closed then none
    else
      match disk.locate path path.names with
      | .ok (.entry _ _ (some (.file content))) => some content
      | _ => none

section Holds

variable {disk after : Disk} {text : String} {bytes : List UInt8}

end Holds

section Room

variable {disk : Disk} {text : String} {path : Path} {parent : Location} {name : String}
  {found : Option Entry} (hpath : Path.read text = .ok path) (hopen : path.closed = false)
  (hplain : ∀ file, found ≠ some (.system file)) (hroom : parent.refusal? name = none)
  (hplace : disk.locate path path.names = .ok (.entry parent name found))

include hpath hopen hplain hroom hplace

end Room

end Disk

end WideMultiplier
