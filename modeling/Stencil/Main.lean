import Stencil.CommandLine

/-!
The program: the command line over the files of the system.
-/

open Stencil

/-- The fault with a number of the system, which may come negated. One that is no fault of a path
is reported in words. -/
def numberedFault (number : UInt32) (words : String) : ReadFault :=
  match if number < 0x80000000 then number else -number with
  | 2 => .missing
  | 13 => .system "Permission denied (os error 13)"
  | 20 => .notDirectory
  | 21 => .isDirectory
  | 36 => .nameTooLong
  | 40 => .system "Too many levels of symbolic links (os error 40)"
  | number => .system (words ++ " (os error " ++ toString number ++ ")")

def readFault : IO.Error → ReadFault
  | .noFileOrDirectory _ number words
  | .inappropriateType _ number words
  | .invalidArgument _ number words
  | .permissionDenied _ number words
  | .resourceExhausted _ number words
  | .interrupted _ number words
  | .noSuchThing _ number words
  | .hardwareFault number words
  | .otherError number words => numberedFault number words
  | error => .system (toString error)

def readText (path : String) : IO (Except ReadFault String) := do
  try
    return decodeText (← IO.FS.readBinFile path)
  catch error =>
    return .error (readFault error)

def main (arguments : List String) : IO UInt32 := do
  let outcome ← runArguments readText arguments
  (← IO.getStdout).putStr outcome.stdout
  (← IO.getStderr).putStr outcome.stderr
  return outcome.status.toUInt32
