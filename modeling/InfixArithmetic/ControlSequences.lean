/-!
A word that a message repeats is shown without what would steer a terminal, that is without control
characters and control sequences. A sequence starts with an escape character. The characters after
it tell what kind of sequence it is, and the kind tells where it ends. Another escape character
starts a new sequence, and a cancel or substitute character ends any. Tabs, line feeds, form feeds
and carriage returns count as text, except within strings. Where one of them interrupts a sequence,
the text from there on is shown; the next control character resumes the sequence.
-/
namespace InfixArithmetic.ControlSequences

/-- How far a sequence has come. -/
inductive Sequence where
  | outside
  | escape
  | intermediate
  | control
  | systemCommand
  | deviceStart
  | deviceParameters
  | deviceIntermediate
  | string
deriving DecidableEq

def within (first last : Nat) (c : Char) : Bool := first ≤ c.toNat && c.toNat ≤ last

/-- The byte that ends a string may be any byte of a character's encoding but the first. -/
def hasTerminator (c : Char) : Bool := (String.utf8EncodeChar c).contains 0x9c

namespace Sequence

/-- The effect of a character that is not shown. A device control string has a header of parameters
and intermediate characters; a header with a character out of place is passed over like the string
itself. -/
def advance (sequence : Sequence) (c : Char) : Sequence :=
  if c = '\x1b' then .escape
  else if c = '\x18' ∨ c = '\x1a' then .outside
  else
    match sequence with
    | .outside => .outside
    | .escape =>
      if c = '[' then .control
      else if c = ']' then .systemCommand
      else if c = 'P' then .deviceStart
      else if c = 'X' ∨ c = '^' ∨ c = '_' then .string
      else if within 0x20 0x2f c then .intermediate
      else if within 0x30 0x7e c then .outside
      else .escape
    | .intermediate => if within 0x30 0x7e c then .outside else .intermediate
    | .control => if within 0x40 0x7e c then .outside else .control
    | .systemCommand => if c = '\x07' then .outside else .systemCommand
    | .deviceStart =>
      if within 0x20 0x2f c then .deviceIntermediate
      else if within 0x30 0x3f c then .deviceParameters
      else if within 0x40 0x7e c then .string
      else .deviceStart
    | .deviceParameters =>
      if within 0x20 0x2f c then .deviceIntermediate
      else if within 0x3c 0x7e c then .string
      else .deviceParameters
    | .deviceIntermediate => if within 0x30 0x7e c then .string else .deviceIntermediate
    | .string => if hasTerminator c then .outside else .string

/-- Strings and their headers swallow everything; the other sequences can be interrupted. -/
def isInterruptible : Sequence → Bool
  | .outside | .escape | .intermediate | .control => true
  | .systemCommand | .deviceStart | .deviceParameters | .deviceIntermediate | .string => false

end Sequence

def isSpacing (c : Char) : Bool := c == '\t' || c == '\n' || c == '\x0c' || c == '\r'

def isText (c : Char) : Bool := isSpacing c || (0x20 ≤ c.toNat && c.toNat != 0x7f)

/-- The text shown so far, whether the last character was shown, and the sequence in progress or
interrupted. -/
structure Filter where
  output : String
  showing : Bool
  sequence : Sequence

namespace Filter

def shows (filter : Filter) (c : Char) : Bool :=
  if filter.showing || filter.sequence == .outside then isText c
  else filter.sequence.isInterruptible && isSpacing c

/-- A character beyond ASCII in the text shown makes an interrupted sequence forgotten. -/
def take (filter : Filter) (c : Char) : Filter :=
  if filter.shows c then
    ⟨filter.output.push c, true, if c.toNat < 0x80 then filter.sequence else .outside⟩
  else ⟨filter.output, false, filter.sequence.advance c⟩

end Filter

/-- What is shown of a text. -/
def visible (text : String) : String :=
  (text.toList.foldl Filter.take ⟨"", false, .outside⟩).output

end InfixArithmetic.ControlSequences
