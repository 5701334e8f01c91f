import DirectiveRunner.Checksum
import DirectiveRunner.Files.Tree
import DirectiveRunner.Text.Blank
import DirectiveRunner.Text.Digits
/-!
# Observations of files

What was seen of a file: the checksum of its contents, or that there is no file. An observation is
written as eight hexadecimal digits or as `-`, and read back from that text.
-/

namespace DirectiveRunner

/-- What was seen of a file. -/
inductive Observation where
  /-- A file whose contents have this checksum. -/
  | present (crc : UInt32)
  | absent
deriving DecidableEq, Repr, Inhabited

namespace Observation

def text : Observation → List Char
  | present crc => Text.padded 8 (Text.digits 16 crc.toNat)
  | absent => ['-']

/-- Reads a checksum, which may have a plus sign. -/
def readChecksum? (cs : List Char) : Option UInt32 := do
  let digits :=
    match cs with
    | '+' :: r => r
    | cs => cs
  let n ← Text.ofDigits? 16 digits
  if n < UInt32.size then some (UInt32.ofNat n) else none

def read? (cs : List Char) : Option Observation :=
  let cs := Text.trim cs
  if cs = ['-'] then some absent else (readChecksum? cs).map present

/-- Looks at a file; what can be neither read nor missed is a failure. -/
def ofFile (files : FileTree) (p : Path) : Except FileFailure Observation :=
  match files.read p with
  | .ok bytes => .ok (present (checksum bytes))
  | .error .notFound => .ok absent
  | .error e => .error e

end Observation

end DirectiveRunner
