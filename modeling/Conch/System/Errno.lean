-- SUMMARY: The causes for which the system refuses a request, with their numbers and texts.

/-!
# Causes of refusal

The system answers a request that it cannot serve with a cause. Each cause has a
number and a fixed text, and diagnostics show both or the text alone.
-/

namespace Conch

/-- Why the system refused a request. -/
inductive Errno where
  | notPermitted
  | noEntry
  | inputOutput
  | noDevice
  | argumentsTooLong
  | execFormat
  | badDescriptor
  | noMemory
  | accessDenied
  | busy
  | alreadyExists
  | notDirectory
  | isDirectory
  | invalid
  | busyText
  | noSpace
  | illegalSeek
  | brokenPipe
  | nameTooLong
  | notEmpty
  | linkLoop
  deriving DecidableEq, Repr

namespace Errno

/-- The number of a cause. -/
def number : Errno → Nat
  | notPermitted => 1
  | noEntry => 2
  | inputOutput => 5
  | noDevice => 6
  | argumentsTooLong => 7
  | execFormat => 8
  | badDescriptor => 9
  | noMemory => 12
  | accessDenied => 13
  | busy => 16
  | alreadyExists => 17
  | notDirectory => 20
  | isDirectory => 21
  | invalid => 22
  | busyText => 26
  | noSpace => 28
  | illegalSeek => 29
  | brokenPipe => 32
  | nameTooLong => 36
  | notEmpty => 39
  | linkLoop => 40

/-- The text of a cause. -/
def text : Errno → String
  | notPermitted => "Operation not permitted"
  | noEntry => "No such file or directory"
  | inputOutput => "Input/output error"
  | noDevice => "No such device or address"
  | argumentsTooLong => "Argument list too long"
  | execFormat => "Exec format error"
  | badDescriptor => "Bad file descriptor"
  | noMemory => "Cannot allocate memory"
  | accessDenied => "Permission denied"
  | busy => "Device or resource busy"
  | alreadyExists => "File exists"
  | notDirectory => "Not a directory"
  | isDirectory => "Is a directory"
  | invalid => "Invalid argument"
  | busyText => "Text file busy"
  | noSpace => "No space left on device"
  | illegalSeek => "Illegal seek"
  | brokenPipe => "Broken pipe"
  | nameTooLong => "File name too long"
  | notEmpty => "Directory not empty"
  | linkLoop => "Too many levels of symbolic links"

/-- The causes that mean a path leads nowhere, as against trouble on the way. -/
def meansAbsent : Errno → Bool
  | noEntry | notDirectory | badDescriptor | linkLoop => true
  | _ => false

end Errno

end Conch
