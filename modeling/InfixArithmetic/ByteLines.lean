/-!
A stream of bytes is cut into lines after every line feed. A carriage return directly before it
belongs to the line end, one anywhere else to the line. What follows the last line feed is a line
too unless it is empty. Whether the bytes of a line are a text is a question of that line alone.
-/
namespace InfixArithmetic.ByteLines

def lineFeed : UInt8 := 0x0a

def carriageReturn : UInt8 := 0x0d

/-- The line that a line feed ends, from its bytes in reverse. -/
def ended : List UInt8 → List UInt8
  | [] => []
  | last :: before => if last = carriageReturn then before.reverse else (last :: before).reverse

/-- Cuts the rest of a stream, given the bytes of the current line and the lines found before it,
both in reverse. -/
def cutFrom (current : List UInt8) (found : List (List UInt8)) : List UInt8 → List (List UInt8)
  | [] => (if current.isEmpty then found else current.reverse :: found).reverse
  | byte :: rest =>
    if byte = lineFeed then cutFrom [] (ended current :: found) rest
    else cutFrom (byte :: current) found rest

def cut (stream : List UInt8) : List (List UInt8) := cutFrom [] [] stream

/-- The text of which the bytes are the UTF-8 encoding. -/
def decode? (line : List UInt8) : Option String := String.fromUTF8? ⟨line.toArray⟩

end InfixArithmetic.ByteLines
