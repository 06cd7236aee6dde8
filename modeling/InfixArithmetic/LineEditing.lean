import InfixArithmetic.GraphemeBreaks

/-!
A line given to a prompted session is edited by the backspaces in it. Each takes away what a reader
would take for the last character, that is the last grapheme cluster still standing, and does
nothing where none is left. Only the sizes of the clusters are kept, each in one byte. Of a cluster
of 256 bytes or more a backspace therefore takes away the remainder only, and where those bytes end
inside a character the line cannot be edited.
-/
namespace InfixArithmetic.LineEditing

open GraphemeBreaks

/-- The characters still standing and the sizes of their clusters, both with the last one first,
and the context of everything typed. -/
structure Draft where
  text : List Char
  sizes : List UInt8
  context : Context

/-- Takes away the characters at the front of a list that have so many bytes, if there are such. -/
def dropBytes? : Nat → List Char → Option (List Char)
  | 0, text => some text
  | _ + 1, [] => none
  | bytes + 1, c :: rest =>
    if c.utf8Size ≤ bytes + 1 then dropBytes? (bytes + 1 - c.utf8Size) rest else none

namespace Draft

def empty : Draft := ⟨[], [], .start⟩

/-- The sizes after a character, which belongs to the last cluster or begins one. -/
def grow (draft : Draft) (c : Char) : List UInt8 :=
  let size : UInt8 := .ofNat c.utf8Size
  match draft.sizes with
  | [] => [size]
  | last :: sizes =>
    if draft.context.joins (breakClass c) then (last + size) :: sizes else size :: last :: sizes

def enter? (draft : Draft) (c : Char) : Option Draft :=
  if c = '\x08' then
    match draft.sizes with
    | [] => some { draft with context := draft.context.after c }
    | size :: sizes =>
      (dropBytes? size.toNat draft.text).map fun text => ⟨text, sizes, draft.context.after c⟩
  else some ⟨c :: draft.text, draft.grow c, draft.context.after c⟩

end Draft

/-- What is left of a line when the backspaces in it have taken effect. -/
def edit? (line : String) : Option String :=
  (line.toList.foldlM Draft.enter? .empty).map fun draft => String.ofList draft.text.reverse

end InfixArithmetic.LineEditing
