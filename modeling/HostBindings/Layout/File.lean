import HostBindings.Code.Check
import HostBindings.Code.Imports
import HostBindings.Layout.Output
import HostBindings.Target
import HostBindings.Text.Lines

/-!
The layout of a file: its comment, package and imports, then its members with a blank line between
any two, except between fields that take one line each.
-/

namespace HostBindings.Layout

open HostBindings.Code

structure Piece where
  /-- Whether the member is a field on one line without documentation. -/
  isOneLine : Bool
  events : List Event

def separate : List Piece → List Event
  | [] => []
  | [p] => p.events
  | p :: q :: ps =>
    p.events ++ (if p.isOneLine && q.isOneLine then [] else [.blank]) ++ separate (q :: ps)

mutual

def itemEvents (lang : Lang) : Item → List Event
  | .line text => [.line text]
  | .stmt s => [.line (lang.stmtText s)]
  | .blank => [.blank]
  | .block header _ items =>
    [.line (header ++ " \x7b"), .push] ++ itemsEvents lang items ++ [.pop, .line "\x7d"]

def itemsEvents (lang : Lang) : List Item → List Event
  | [] => []
  | item :: items => itemEvents lang item ++ itemsEvents lang items

end

def docEvents (lang : Lang) (docs : List String) : List Event :=
  (lang.docLines docs).map .line

def isOneLine (f : Field) : Bool :=
  f.docs.isEmpty &&
    match f.initializer with
    | some (.closure _ _) => false
    | _ => true

def fieldPiece (lang : Lang) (f : Field) : Piece where
  isOneLine := isOneLine f
  events :=
    docEvents lang f.docs ++
      match f.initializer with
      | none => [.line (lang.fieldText f)]
      | some (.expr e) => [.line (lang.fieldText f ++ " = " ++ e)]
      | some (.closure params body) =>
        [.line (lang.fieldText f ++ " = " ++ lang.closureOpen params), .push] ++
          itemsEvents lang body.items ++ [.pop, .line "\x7d"]

def funcPiece (lang : Lang) (f : Func) : Piece where
  isOneLine := false
  events :=
    docEvents lang f.docs ++ (lang.leadingLines f).map .line ++
      match f.body with
      | none => [.line (lang.signature f)]
      | some body =>
        [.line (lang.signature f ++ " \x7b"), .push] ++ itemsEvents lang body.items ++
          [.pop, .line "\x7d"]

def impliedPieces (lang : Lang) (h : TypeHead) : List Piece :=
  (lang.impliedFields h).map (fieldPiece lang) ++
    (lang.impliedConstructor? h).toList.map (funcPiece lang)

/-- The opening of a type; `brace` ends it. -/
def headEvents (lang : Lang) (h : TypeHead) (brace : String) : List Event :=
  let header := lang.typeHeader h
  docEvents lang h.docs ++ h.annotations.map (fun a => .line (lang.annotationText a)) ++
    if header.params.isEmpty then [.line (header.lead ++ header.tail ++ brace)]
    else
      [.line (header.lead ++ "("), .push] ++ header.params.map (fun p => .line (p ++ ",")) ++
        [.pop, .line (")" ++ header.tail ++ brace)]

mutual

def memberPiece (lang : Lang) : Member → Piece
  | .field f => fieldPiece lang f
  | .func f => funcPiece lang f
  | .type h members =>
    let body := impliedPieces lang h ++ memberPieces lang members
    { isOneLine := false
      events :=
        if body.isEmpty && lang.omitsBody h members then headEvents lang h ""
        else headEvents lang h " \x7b" ++ [.push] ++ separate body ++ [.pop, .line "\x7d"] }

def memberPieces (lang : Lang) : List Member → List Piece
  | [] => []
  | m :: ms => memberPiece lang m :: memberPieces lang ms

end

def paragraph (lines : List String) : List Event :=
  lines.map .line ++ [.blank]

def headerEvents : Option String → List Event
  | none => []
  | some header => paragraph ((Text.lines header).map Lang.commentLine)

def packageEvents (lang : Lang) (package : Option String) : List Event :=
  match package.bind lang.packageLine? with
  | none => []
  | some line => paragraph [line]

def importEvents (imports : List String) : List Event :=
  if imports.isEmpty then [] else paragraph (imports.map Lang.importLine)

def frontEvents (lang : Lang) (f : SourceFile) : List Event :=
  headerEvents f.header ++ packageEvents lang f.package ++ importEvents f.allImports

def fileEvents (lang : Lang) (f : SourceFile) : List Event :=
  frontEvents lang f ++ separate (memberPieces lang f.members)

def renderFile (lang : Lang) (width : Nat) (f : SourceFile) : Except Unresolved String :=
  match f.unresolved? lang.isBuiltin with
  | some u => .error u
  | none => .ok ((Output.empty width).run (fileEvents lang f)).finish

end HostBindings.Layout
