import TreeQuery.CommandLine.Run

/-! The program: texts are read from files and from the standard input, a report goes to the
standard error, everything else to the standard output. -/

namespace TreeQuery.CommandLine

partial def readAll (stream : IO.FS.Stream) (read : ByteArray) : IO ByteArray := do
  let chunk ← stream.read 65536
  if chunk.isEmpty then return read else readAll stream (read ++ chunk)

def readText (source : TextSource) : IO (Except LoadFault String) := do
  try
    let bytes ← match source with
      | .standardInput => readAll (← IO.getStdin) .empty
      | .file path => IO.FS.readBinFile path
    return match String.fromUTF8? bytes with
      | some text => .ok text
      | none => .error .notUtf8
  catch
    | .noFileOrDirectory .. => return .error .notFound
    | .inappropriateType .. => return .error .isDirectory
    | fault => return .error (.other (toString fault))

def perform (arguments : List String) : IO Nat := do
  match Invocation.ofArguments arguments with
  | .error .help =>
    IO.print usage
    return UsageError.help.exitCode
  | .error refusal =>
    IO.eprint ("error: " ++ refusal.message ++ "\n\n" ++ usage)
    return refusal.exitCode
  | .ok invocation =>
    match ← (run readText (← (← IO.getStderr).isTty) invocation.command).run with
    | .ok outcome =>
      IO.print outcome.output
      IO.eprint outcome.errors
      return outcome.exitCode
    | .error failure =>
      IO.eprintln ("error: " ++ failure.message)
      return 1

end TreeQuery.CommandLine

def main (arguments : List String) : IO UInt32 := do
  return .ofNat (← TreeQuery.CommandLine.perform arguments)
