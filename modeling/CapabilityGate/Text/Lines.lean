/-!
# Lines

## Main definitions

* `Text.lines`: the lines of a text, without the line breaks at their ends.
-/

namespace CapabilityGate.Text

/-- The lines of a text. The first of them starts with `taken`, which is given backwards. A line
break is a line feed, perhaps with a carriage return in front; behind the last one there is a line
only if there are characters. -/
def linesFrom (taken : List Char) : List Char → List (List Char)
  | [] => if taken.isEmpty then [] else [taken.reverse]
  | '\n' :: rest =>
    match taken with
    | '\r' :: before => before.reverse :: linesFrom [] rest
    | _ => taken.reverse :: linesFrom [] rest
  | c :: rest => linesFrom (c :: taken) rest

/-- The **lines** of a text. -/
def lines (s : String) : List String :=
  (linesFrom [] s.toList).map String.ofList

end CapabilityGate.Text
