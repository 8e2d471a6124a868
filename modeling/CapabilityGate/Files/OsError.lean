/-!
# Failures of the operating system

## Main definitions

* `OsError`: why an operation on files or processes fails, with its wording in `OsError.message`.
-/

namespace CapabilityGate

/-- Why an operation on files or processes fails. -/
inductive OsError where
  /-- There is nothing at the path. -/
  | notFound
  /-- The path cannot be used in this way. -/
  | denied
  /-- There is something at the path already. -/
  | alreadyThere
  /-- A part of the path leads to something that is no directory. -/
  | notDirectory
  /-- The path leads to a directory. -/
  | isDirectory
  /-- A name is too long. -/
  | nameTooLong
  /-- The path cannot be removed. -/
  | invalid
  /-- The path has a null character. -/
  | nullInPath
  /-- An argument has a null character. -/
  | nullInArgument
  /-- A file to be copied is none. -/
  | noRegularFile
  /-- The file is no text. -/
  | noText
  deriving Repr, DecidableEq

/-- The wording of a failed operation. -/
def OsError.message : OsError → String
  | notFound => "No such file or directory (os error 2)"
  | denied => "Permission denied (os error 13)"
  | alreadyThere => "File exists (os error 17)"
  | notDirectory => "Not a directory (os error 20)"
  | isDirectory => "Is a directory (os error 21)"
  | nameTooLong => "File name too long (os error 36)"
  | invalid => "Invalid argument (os error 22)"
  | nullInPath => "file name contained an unexpected NUL byte"
  | nullInArgument => "nul byte found in provided data"
  | noRegularFile => "the source path is neither a regular file nor a symlink to a regular file"
  | noText => "stream did not contain valid UTF-8"

end CapabilityGate
