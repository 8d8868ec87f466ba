/-!
Faults of file operations, with the wording in which they are reported.
-/

namespace HostBindings.Files

inductive Fault where
  | notFound
  | exists
  | notDirectory
  | isDirectory
  /-- The path of a directory to be removed ends in a dot. -/
  | selfReference
  /-- The path of a directory to be removed ends in two dots. -/
  | notEmpty
  | nameTooLong
  /-- A path holds the character zero. -/
  | zeroInPath
  /-- The octets of a file are not UTF-8. -/
  | notText
  | other (text : String)
  deriving DecidableEq, Repr

def Fault.message : Fault → String
  | .notFound => "No such file or directory (os error 2)"
  | .exists => "File exists (os error 17)"
  | .notDirectory => "Not a directory (os error 20)"
  | .isDirectory => "Is a directory (os error 21)"
  | .selfReference => "Invalid argument (os error 22)"
  | .nameTooLong => "File name too long (os error 36)"
  | .notEmpty => "Directory not empty (os error 39)"
  | .zeroInPath => "file name contained an unexpected NUL byte"
  | .notText => "stream did not contain valid UTF-8"
  | .other text => text

end HostBindings.Files
