import InfixArithmetic.ByteLines
import InfixArithmetic.LineEditing
import InfixArithmetic.Sessions

/-!
Two ways to hold a session with a stream of bytes. Both go through its lines until one of them ends
the session or is not a text. A batch writes the replies and nothing else. A prompted session writes
the prompt before it looks for a line, so also where it finds none or one that is not a text, and it
answers a line as the backspaces in it have edited it. A line that cannot be edited aborts the
program. An interrupt, to which a prompted session at a terminal answers with a farewell of its own,
is no part of a stream and is left out.
-/
namespace InfixArithmetic.Transcripts

open ByteLines LineEditing Sessions

inductive Ending where
  | finished
  | undecodable
deriving DecidableEq

/-- All that a session wrote, and how it ended. -/
structure Transcript where
  output : String
  ending : Ending
deriving DecidableEq

def batchFrom (written : String) : List (List UInt8) → Transcript
  | [] => ⟨written, .finished⟩
  | line :: rest =>
    match decode? line with
    | none => ⟨written, .undecodable⟩
    | some text =>
      let answer := reply text
      if answer.ends then ⟨written ++ answer.output, .finished⟩
      else batchFrom (written ++ answer.output) rest

def batch (stream : List UInt8) : Transcript := batchFrom "" (cut stream)

/-- What a prompted session comes to. Where it is aborted only what was written before is left. -/
inductive Conversation where
  | held (transcript : Transcript)
  | aborted (output : String)
deriving DecidableEq

def promptedFrom (written : String) : List (List UInt8) → Conversation
  | [] => .held ⟨written ++ prompt ++ farewell, .finished⟩
  | line :: rest =>
    match decode? line with
    | none => .held ⟨written ++ prompt, .undecodable⟩
    | some text =>
      match edit? text with
      | none => .aborted (written ++ prompt)
      | some edited =>
        let answer := reply edited
        if answer.ends then .held ⟨written ++ prompt ++ answer.output, .finished⟩
        else promptedFrom (written ++ prompt ++ answer.output) rest

def prompted (showsBanner : Bool) (stream : List UInt8) : Conversation :=
  promptedFrom (if showsBanner then banner else "") (cut stream)

def undecodableMessage : String := "stream did not contain valid UTF-8"

/-- What a finished program leaves behind. -/
structure Outcome where
  stdout : String
  stderr : String
  code : Nat
deriving DecidableEq

def Transcript.outcome (transcript : Transcript) : Outcome :=
  match transcript.ending with
  | .finished => ⟨transcript.output, "", 0⟩
  | .undecodable => ⟨transcript.output, undecodableMessage ++ "\n", 1⟩

/-- What is said of an abort, without the place in the program that is told along with it. -/
def abortMessage : String := "assertion failed: self.is_char_boundary(new_len)"

def Conversation.outcome : Conversation → Outcome
  | .held transcript => transcript.outcome
  | .aborted output => ⟨output, abortMessage ++ "\n", 101⟩

end InfixArithmetic.Transcripts
