/-!
Lines of a text: what stands between line feeds. A carriage return before a line feed belongs to
the line end, and a line feed at the end of the text opens no further line.
-/

namespace HostBindings.Text

def linesOfChars : List Char → List (List Char)
  | [] => []
  | '\n' :: cs => [] :: linesOfChars cs
  | '\r' :: '\n' :: cs => [] :: linesOfChars cs
  | c :: cs =>
    match linesOfChars cs with
    | [] => [[c]]
    | line :: lines =>
      -- the text behind `c` may start with a line end, and then its first line is empty
      (c :: line) :: lines

def lines (s : String) : List String :=
  (linesOfChars s.toList).map String.ofList

end HostBindings.Text
