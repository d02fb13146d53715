import Backtrack.CommandLine

/-!
The program: reads what the command line asks for, and prints the answer.
-/

open Backtrack.CommandLine

/-- All bytes of a stream. -/
partial def readStream (stream : IO.FS.Stream) (read : ByteArray) : IO ByteArray := do
  let chunk ← stream.read 65536
  if chunk.isEmpty then return read else readStream stream (read ++ chunk)

/-- The bytes of a source. -/
def readSource : Source → IO ByteArray
  | .standardInput => do readStream (← IO.getStdin) .empty
  | .file path => IO.FS.readBinFile path

/-- Why reading failed. -/
def failureOf : IO.Error → ReadFailure
  | .noFileOrDirectory .. => .notFound
  | .inappropriateType .. => .isDirectory
  | error => .other (toString error)

/-- Runs the program. -/
def main (arguments : List String) : IO UInt32 := do
  let content : Except ReadFailure ByteArray ←
    match Arguments.parse arguments with
    | .ok (some found) =>
      try .ok <$> readSource (.ofPath? found.path?) catch error => pure (.error (failureOf error))
    | _ => pure (.ok .empty)
  let response := respond (fun _ => content) arguments
  IO.print response.stdout
  IO.eprint response.stderr
  return response.code.toUInt32
