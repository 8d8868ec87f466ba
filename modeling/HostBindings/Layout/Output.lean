/-!
Indented text. Declarations are laid out as events, which an output takes one by one: lines, each
behind the indentation of the innermost level, wishes for a blank line, and the opening and closing
of levels. A wish is granted only if the text so far is not empty and does not end in a blank line,
and the finished text does not end in one.
-/

namespace HostBindings.Layout

inductive Event where
  | line (text : String)
  | blank
  | push
  | pop
  deriving DecidableEq, Repr

structure Output where
  text : String
  /-- The indentation of one level. -/
  unit : String
  /-- The indentations of the open levels, innermost first. -/
  stack : List String
  deriving DecidableEq, Repr

namespace Output

/-- No text yet, and no level but the outermost one. A unit may have any width, since no limit of
memory is part of the layout. -/
def empty (width : Nat) : Output where
  text := ""
  unit := String.ofList (List.replicate width ' ')
  stack := [""]

def current (o : Output) : String :=
  o.stack.headD ""

def push (o : Output) : Output :=
  { o with stack := (o.current ++ o.unit) :: o.stack }

def pop (o : Output) : Output :=
  if o.stack.length > 1 then { o with stack := o.stack.tail } else o

def line (o : Output) (text : String) : Output :=
  { o with text := o.text ++ o.current ++ text ++ "\n" }

/-- Ends the text in a blank line, if there is a text and it does not end in one. -/
def blank (o : Output) : Output :=
  if o.text.isEmpty || o.text.endsWith "\n\n" then o else { o with text := o.text ++ "\n" }

def take (o : Output) : Event → Output
  | .line text => o.line text
  | .blank => o.blank
  | .push => o.push
  | .pop => o.pop

def run (o : Output) (es : List Event) : Output :=
  es.foldl take o

/-- The characters of a text in reverse order, without the blank lines at its end. -/
def dropBlankLines : List Char → List Char
  | [] => []
  | c :: cs => if c = '\n' && cs.head? = some '\n' then dropBlankLines cs else c :: cs

def finish (o : Output) : String :=
  String.ofList (dropBlankLines o.text.toList.reverse).reverse

end Output

end HostBindings.Layout
