/-!
# File faults

Why a file cannot be read or written. The faults and their texts are those that an operating system
reports, each under a number of its own.
-/

namespace WideMultiplier

/-- Why a file cannot be read or written. -/
inductive FileFault where
  | notFound
  | inputOutput
  | noDevice
  | denied
  | notDirectory
  | isDirectory
  | invalidArgument
  | busy
  | noSpace
  | nameTooLong
  | tooManyLinks
  /-- The content is not text. -/
  | notText
  | other (reason : String)
deriving DecidableEq

/-- The text of a file fault. -/
def FileFault.message : FileFault → String
  | .notFound => "No such file or directory (os error 2)"
  | .inputOutput => "Input/output error (os error 5)"
  | .noDevice => "No such device or address (os error 6)"
  | .denied => "Permission denied (os error 13)"
  | .notDirectory => "Not a directory (os error 20)"
  | .isDirectory => "Is a directory (os error 21)"
  | .invalidArgument => "Invalid argument (os error 22)"
  | .busy => "Text file busy (os error 26)"
  | .noSpace => "No space left on device (os error 28)"
  | .nameTooLong => "File name too long (os error 36)"
  | .tooManyLinks => "Too many levels of symbolic links (os error 40)"
  | .notText => "stream did not contain valid UTF-8"
  | .other reason => reason

/-- The fault that an operating system reports under a number. -/
def FileFault.ofNumber (number : Nat) (details : String) : FileFault :=
  match number with
  | 2 => .notFound
  | 5 => .inputOutput
  | 6 => .noDevice
  | 13 => .denied
  | 20 => .notDirectory
  | 21 => .isDirectory
  | 22 => .invalidArgument
  | 26 => .busy
  | 28 => .noSpace
  | 36 => .nameTooLong
  | 40 => .tooManyLinks
  | _ => .other (details ++ " (os error " ++ toString number ++ ")")

/-- The bytes as text, if they are valid. -/
def decodeText (bytes : List UInt8) : Except FileFault String :=
  match String.fromUTF8? ⟨bytes.toArray⟩ with
  | some text => .ok text
  | none => .error .notText

end WideMultiplier
