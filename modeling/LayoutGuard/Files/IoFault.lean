/-!
Reasons for which the operating system refuses an operation on files or
processes, with their wording.
-/

namespace LayoutGuard

/-- A numbered operating system error. -/
inductive OsError
  | notFound
  | permissionDenied
  | busy
  | alreadyExists
  | notADirectory
  | isADirectory
  | invalidArgument
  | nameTooLong
  | notEmpty
deriving DecidableEq, Repr

namespace OsError

def text : OsError → String
  | notFound => "No such file or directory (os error 2)"
  | permissionDenied => "Permission denied (os error 13)"
  | busy => "Device or resource busy (os error 16)"
  | alreadyExists => "File exists (os error 17)"
  | notADirectory => "Not a directory (os error 20)"
  | isADirectory => "Is a directory (os error 21)"
  | invalidArgument => "Invalid argument (os error 22)"
  | nameTooLong => "File name too long (os error 36)"
  | notEmpty => "Directory not empty (os error 39)"

end OsError

/-- Why reading, writing or starting something failed. -/
inductive IoFault
  | system (e : OsError)
  /-- A file name that holds a NUL character. -/
  | nulInName
  /-- A NUL character in a command or one of its arguments. -/
  | nulInCommand
  /-- File contents that are not UTF-8. -/
  | notText
deriving DecidableEq, Repr

namespace IoFault

def text : IoFault → String
  | system e => e.text
  | nulInName => "file name contained an unexpected NUL byte"
  | nulInCommand => "nul byte found in provided data"
  | notText => "stream did not contain valid UTF-8"

end IoFault

end LayoutGuard
