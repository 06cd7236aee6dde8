import InfixArithmetic.CommandLine

/-!
The program. The outcome of a command line is computed from its words and all of standard input. At
a terminal, where lines are typed one after the other, a prompted session is held instead.
-/
namespace InfixArithmetic.Main

open CommandLine Sessions Transcripts

/-- The typed line without its end. -/
def withoutEnd (line : String) : String :=
  match line.toList.reverse with
  | '\n' :: '\r' :: before => String.ofList before.reverse
  | '\n' :: before => String.ofList before.reverse
  | _ => line

partial def converse (input output : IO.FS.Stream) : IO Unit := do
  output.putStr prompt
  output.flush
  let line ← input.getLine
  if line.isEmpty then output.putStr farewell
  else
    let answer := reply (withoutEnd line)
    output.putStr answer.output
    unless answer.ends do converse input output

def emit (outcome : Outcome) : IO UInt32 := do
  (← IO.getStdout).putStr outcome.stdout
  (← IO.getStdout).flush
  (← IO.getStderr).putStr outcome.stderr
  return .ofNat outcome.code

def start (words : List String) : IO UInt32 := do
  let input ← IO.getStdin
  match request words with
  | .session showsBanner =>
    if ← input.isTty then
      let output ← IO.getStdout
      if showsBanner then output.putStr banner
      converse input output
      output.flush
      return 0
    else
      emit ((batch (← input.readBinToEnd).data.toList).outcome)
  | other => emit (other.outcome [])

end InfixArithmetic.Main

def main (words : List String) : IO UInt32 := InfixArithmetic.Main.start words
