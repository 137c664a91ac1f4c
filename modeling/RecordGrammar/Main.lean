import RecordGrammar.CommandLine.Run

/-! The command line program. -/

open RecordGrammar.CommandLine

def printEnding (ending : Ending) : IO UInt32 := do
  IO.print ending.output
  IO.eprint ending.errors
  return ending.exitCode.toUInt32

def printBreakdown (breakdown : Breakdown) : IO UInt32 := do
  match breakdown with
  | .designation error => IO.eprintln error.message
  | .path _ => IO.eprintln "The file cannot be read."
  | .fault _ => IO.eprintln "The text cannot be parsed."
  return 1

def main (words : List String) : IO UInt32 := do
  match parseArguments words with
  | .error usage =>
      IO.eprintln "usage: SHAPE [SOURCE_PATH] [-h] [-i] [--partial] [--tree]"
      return usage.exitCode.toUInt32
  | .ok arguments =>
      match plan arguments with
      | .error breakdown => printBreakdown breakdown
      | .ok (.done ending) => printEnding ending
      | .ok (.read path registry parser style) => do
          let content ← IO.FS.readFile path
          match finish path registry parser style content.toList with
          | .error breakdown => printBreakdown breakdown
          | .ok ending => printEnding ending
