import HostBindings.Code.Stmt

/-!
Blocks of code: lines and statements, with nested blocks. A block records the imports that its own
lines need.
-/

namespace HostBindings.Code

inductive Item where
  | line (text : String)
  | stmt (s : Stmt)
  | blank
  /-- A header, then items between braces, with the imports that they need. -/
  | block (header : String) (imports : List String) (items : List Item)
  deriving Repr, Inhabited

structure Block where
  items : List Item
  imports : List String
  deriving Repr, Inhabited

namespace Block

def empty : Block :=
  ⟨[], []⟩

def ofLines (lines : List String) : Block :=
  ⟨lines.map .line, []⟩

def append (a b : Block) : Block :=
  ⟨a.items ++ b.items, a.imports ++ b.imports⟩

end Block

mutual

def Item.imports : Item → List String
  | .block _ imports items => imports ++ Item.importsOfList items
  | _ => []

def Item.importsOfList : List Item → List String
  | [] => []
  | item :: items => item.imports ++ Item.importsOfList items

end

def Block.allImports (b : Block) : List String :=
  b.imports ++ Item.importsOfList b.items

end HostBindings.Code
