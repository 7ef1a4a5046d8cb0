import Stencil.Text.Basic

/-! # Faults of the file system -/

namespace Stencil.Storage

/-- Why a file cannot be read or written. -/
inductive Fault where
  | missing
  | isDirectory
  | notDirectory
  | nameTooLong
  /-- No name holds the character U+0000. -/
  | notName
  | notText
  deriving DecidableEq, Repr

def Fault.message : Fault → Text
  | missing => "No such file or directory (os error 2)".toList
  | isDirectory => "Is a directory (os error 21)".toList
  | notDirectory => "Not a directory (os error 20)".toList
  | nameTooLong => "File name too long (os error 36)".toList
  | notName => "file name contained an unexpected NUL byte".toList
  | notText => "stream did not contain valid UTF-8".toList

end Stencil.Storage
