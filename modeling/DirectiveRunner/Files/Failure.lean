/-!
# File failures

The ways in which reading, writing or starting a file can fail, each with the text the operating
system gives it.
-/

namespace DirectiveRunner

/-- Why a file could not be read, written or started. -/
inductive FileFailure where
  | notFound
  /-- The path goes through something that is no directory. -/
  | notDirectory
  /-- A file was asked for where there is a directory. -/
  | isDirectory
  | notPermitted
  /-- A name in the path is longer than a file system takes. -/
  | nameTooLong
  | nulInPath
  /-- A program or an argument holds a NUL character. -/
  | nulInArgument
  /-- The file holds bytes that are no UTF-8 where text is needed. -/
  | notText
deriving DecidableEq, Repr

namespace FileFailure

def text : FileFailure → String
  | notFound => "No such file or directory (os error 2)"
  | notDirectory => "Not a directory (os error 20)"
  | isDirectory => "Is a directory (os error 21)"
  | notPermitted => "Permission denied (os error 13)"
  | nameTooLong => "File name too long (os error 36)"
  | nulInPath => "file name contained an unexpected NUL byte"
  | nulInArgument => "nul byte found in provided data"
  | notText => "stream did not contain valid UTF-8"

end FileFailure

end DirectiveRunner
