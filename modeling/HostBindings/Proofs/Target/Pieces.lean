import HostBindings.Target

/-!
The text of statements, cut into pieces that are marked as names from outside of the function, as
names of the function's own, or as fixed text. Names from outside are functions, registries, and
types where a value may stand.
-/

namespace HostBindings

open HostBindings.Code HostBindings.Target

/-! ### Pieces -/

namespace Code

inductive Piece where
  /-- A name that is looked up outside of the function, unless a parameter hides it. -/
  | outer (name : String)
  /-- A parameter or local of the function. -/
  | own (name : String)
  /-- Signs, keywords, labels, and names that are looked up behind a dot or as a type. -/
  | fixed (text : String)
  deriving DecidableEq, Repr

namespace Piece

def text : Piece → String
  | .outer name => name
  | .own name => name
  | .fixed text => text

def outer? : Piece → Option String
  | .outer name => some name
  | _ => none

def outers (ps : List Piece) : List String :=
  ps.filterMap outer?

def join : List Piece → String
  | [] => ""
  | p :: ps => p.text ++ join ps

def commas : List (List Piece) → List Piece
  | [] => []
  | [part] => part
  | part :: next :: parts => part ++ .fixed ", " :: commas (next :: parts)

def call (callee : List Piece) (args : List (List Piece)) : List Piece :=
  callee ++ .fixed "(" :: commas args ++ [.fixed ")"]

def registryCall (callback method x : String) : List Piece :=
  call [.outer (Naming.registryName callback), .fixed method] [[.own x]]

@[simp] theorem text_outer (name : String) : (outer name).text = name :=
  rfl

@[simp] theorem text_own (name : String) : (own name).text = name :=
  rfl

@[simp] theorem text_fixed (text : String) : (fixed text).text = text :=
  rfl

@[simp] theorem join_nil : join [] = "" :=
  rfl

@[simp] theorem join_cons (p : Piece) (ps : List Piece) : join (p :: ps) = p.text ++ join ps :=
  rfl

@[simp] theorem join_append (ps qs : List Piece) : join (ps ++ qs) = join ps ++ join qs := by
  induction ps with
  | nil => simp
  | cons p ps ih => simp [ih, String.append_assoc]

theorem join_commas (parts : List (List Piece)) :
    join (commas parts) = Target.commas (parts.map join) := by
  unfold Target.commas
  induction parts with
  | nil => rfl
  | cons part parts ih =>
    cases parts with
    | nil => simp [commas]
    | cons next parts =>
      rw [commas, join_append, join_cons, ih]
      simp only [List.map_cons, String.intercalate_cons_cons, text_fixed, String.append_assoc]

@[simp] theorem join_call (callee : List Piece) (args : List (List Piece)) :
    join (call callee args) = join callee ++ "(" ++ Target.commas (args.map join) ++ ")" := by
  simp [call, join_commas, String.append_assoc]

@[simp] theorem join_registryCall (callback method x : String) :
    join (registryCall callback method x) =
      Naming.registryName callback ++ method ++ "(" ++ Target.commas [x] ++ ")" := by
  simp [registryCall]

theorem outers_append (ps qs : List Piece) : outers (ps ++ qs) = outers ps ++ outers qs :=
  List.filterMap_append

theorem outers_commas (parts : List (List Piece)) :
    outers (commas parts) = parts.flatMap outers := by
  induction parts with
  | nil => rfl
  | cons part parts ih =>
    cases parts with
    | nil => rw [commas, List.flatMap_singleton]
    | cons next parts =>
      rw [commas, outers_append, List.flatMap_cons, ← ih]
      rfl

theorem outers_call (callee : List Piece) (args : List (List Piece)) :
    outers (call callee args) = outers callee ++ args.flatMap outers := by
  have hopen (ps : List Piece) : outers (.fixed "(" :: ps) = outers ps := rfl
  have hclose : outers [.fixed ")"] = [] := rfl
  rw [call, outers_append, outers_append, hopen, hclose, List.append_nil, outers_commas]

end Piece

end Code

/-! ### Swift -/

namespace Swift

/-- The name in the host type of a value; in a list that of its elements. -/
def typeName : BoundaryType → String
  | .vec e => typeText (elementType e)
  | type => typeText (hostType type)

def typePieces : BoundaryType → List Piece
  | .vec e => [.fixed "[", .outer (typeName (.vec e)), .fixed "]"]
  | type => [.outer (typeName type)]

def trampolinePieces (owner label name : String) : List Piece :=
  [.fixed (label ++ ": "), .outer owner, .fixed ("." ++ name)]

def modelPieces (owner callback : String) (methods : List String) (handle : String) :
    List (List Piece) :=
  (methods.map fun m => trampolinePieces owner m (Naming.trampolineName callback m)) ++
    [trampolinePieces owner "free_callback" (Naming.releaseTrampolineName callback),
     [.fixed "index: ", .own handle]]

/-- Types stand among values where they are called, and where they are passed with `.self`. -/
def exprPieces : Expr → List Piece
  | .name x => [.own x]
  | .cast target x => [.outer (numericName target), .fixed "(", .own x, .fixed ")"]
  | .asInteger x => [.own x, .fixed " ? 1 : 0"]
  | .asTruth x => [.own x, .fixed " > 0"]
  | .duplicate e => [.outer "strdup", .fixed "("] ++ exprPieces e ++ [.fixed ")"]
  | .copyText x => [.outer "String", .fixed "(cString: ", .own x, .fixed "!)"]
  | .jsonEncode x =>
    [.outer "String", .fixed "(decoding: try! ", .outer "JSONEncoder", .fixed "().encode(", .own x,
     .fixed "), as: ", .outer "UTF8", .fixed ".self)"]
  | .jsonDecode type x =>
    [.fixed "try! ", .outer "JSONDecoder", .fixed "().decode("] ++ typePieces type ++
      [.fixed ".self, from: ", .outer "Data", .fixed "(", .own x, .fixed ".utf8))"]
  | .allocate x =>
    [.outer "malloc", .fixed "(", .outer "max", .fixed "(", .own x,
     .fixed ".count, 1))!.assumingMemoryBound(to: ", .outer "Int8", .fixed ".self)"]
  | .copyBytes x =>
    [.fixed "[", .outer "Int8", .fixed "](", .outer "UnsafeBufferPointer", .fixed "(start: ",
     .own x, .fixed ".ptr, count: ", .outer "Int", .fixed "(", .own x, .fixed ".len)))"]
  | .wireBytes buffer x =>
    Piece.call [.outer "WireBytes"]
      [[.fixed "ptr: ", .own buffer],
       [.fixed "len: ", .outer "Int32", .fixed "(", .own x, .fixed ".count)"]]
  | .register callback x => Piece.registryCall callback ".register" x
  | .lookup callback handle => Piece.registryCall callback ".lookup" handle
  | .remove callback handle => Piece.registryCall callback ".remove" handle
  | .model scope callback methods handle =>
    Piece.call [.outer (modelName scope.module callback)]
      (modelPieces scope.owner callback methods handle)
  | .proxy callback x =>
    Piece.call [.outer (Naming.proxyName callback)] [[.fixed "native_handle: ", .own x]]
  | .native scope symbol args =>
    Piece.call [.outer (symbolName scope symbol)] (args.map fun a => [.own a])
  | .invoke receiver method args =>
    Piece.call [.own receiver, .fixed ("." ++ method)]
      (args.map fun a => [.fixed (a.1 ++ ": "), .own a.2])

def stmtPieces : Stmt → List Piece
  | .bind x (.asInteger y) =>
    [.fixed "let ", .own x, .fixed ": Int32 = "] ++ exprPieces (.asInteger y)
  | .bind x value => [.fixed "let ", .own x, .fixed " = "] ++ exprPieces value
  | .fill buffer x =>
    [.own buffer, .fixed ".initialize(from: ", .own x, .fixed ", count: ", .own x,
     .fixed ".count)"]
  | .deferRelease buffer =>
    [.fixed "defer \x7b ", .outer "free", .fixed "(", .own buffer, .fixed ") \x7d"]
  | .run value => exprPieces value
  | .ret x => [.fixed "return ", .own x]
  | .loadLibrary library =>
    [.outer "System", .fixed (".loadLibrary(\"" ++ library ++ "\")")]

theorem join_typePieces (type : BoundaryType) :
    Piece.join (typePieces type) = typeText (hostType type) := by
  cases type with
  | vec e => simp [typePieces, typeName, hostType, typeText, String.append_assoc]
  | _ => simp [typePieces, typeName]

theorem join_modelPieces (owner callback : String) (methods : List String) (handle : String) :
    (modelPieces owner callback methods handle).map Piece.join =
      (modelArgs owner callback methods handle).map argText := by
  have hrelease : "free_callback: " = "free_callback" ++ ": " := by decide
  have hindex : "index: " = "index" ++ ": " := by decide
  simp [modelPieces, modelArgs, trampolinePieces, argText, String.append_assoc, hindex,
    Function.comp_def]

theorem join_exprPieces (e : Expr) : Piece.join (exprPieces e) = exprText e := by
  -- a text with names in it is split around them; `simp` must not put it together again
  induction e with
  | name x => exact String.append_empty
  | cast target x =>
    unfold exprPieces exprText
    simp [String.append_assoc]
  | asInteger x | asTruth x =>
    unfold exprPieces exprText
    simp
  | duplicate e ih =>
    have hcall : "strdup(" = "strdup" ++ "(" := by decide
    unfold exprPieces exprText
    simp [ih, hcall, String.append_assoc, -String.reduceAppend]
  | copyText x =>
    have hcall : "String(cString: " = "String" ++ "(cString: " := by decide
    unfold exprPieces exprText
    simp [hcall, String.append_assoc, -String.reduceAppend]
  | jsonEncode x =>
    have hopen : "String(decoding: try! JSONEncoder().encode(" =
        "String" ++ ("(decoding: try! " ++ ("JSONEncoder" ++ "().encode(")) := by decide
    have hclose : "), as: UTF8.self)" = "), as: " ++ ("UTF8" ++ ".self)") := by decide
    unfold exprPieces exprText
    simp [hopen, hclose, String.append_assoc, -String.reduceAppend]
  | jsonDecode type x =>
    have hopen : "try! JSONDecoder().decode(" = "try! " ++ ("JSONDecoder" ++ "().decode(") := by
      decide
    have hdata : ".self, from: Data(" = ".self, from: " ++ ("Data" ++ "(") := by decide
    unfold exprPieces exprText
    simp [join_typePieces, hopen, hdata, String.append_assoc, -String.reduceAppend]
  | allocate x =>
    have hopen : "malloc(max(" = "malloc" ++ ("(" ++ ("max" ++ "(")) := by decide
    have hclose : ".count, 1))!.assumingMemoryBound(to: Int8.self)" =
        ".count, 1))!.assumingMemoryBound(to: " ++ ("Int8" ++ ".self)") := by decide
    unfold exprPieces exprText
    simp [hopen, hclose, String.append_assoc, -String.reduceAppend]
  | copyBytes x =>
    have hopen : "[Int8](UnsafeBufferPointer(start: " =
        "[" ++ ("Int8" ++ ("](" ++ ("UnsafeBufferPointer" ++ "(start: "))) := by decide
    have hcount : ".ptr, count: Int(" = ".ptr, count: " ++ ("Int" ++ "(") := by decide
    unfold exprPieces exprText
    simp [hopen, hcount, String.append_assoc, -String.reduceAppend]
  | wireBytes buffer x =>
    have hptr : "ptr: " = "ptr" ++ ": " := by decide
    have hlen : "len: " = "len" ++ ": " := by decide
    have hcount : "Int32(" = "Int32" ++ "(" := by decide
    unfold exprPieces exprText
    simp [callText, argText, hptr, hlen, hcount, String.append_assoc, -String.reduceAppend]
  | register callback x | lookup callback x | remove callback x =>
    unfold exprPieces exprText
    simp [plainCall, callText, argText]
  | model scope callback methods handle =>
    unfold exprPieces exprText
    simp [callText, join_modelPieces]
  | proxy callback x =>
    have hlabel : "native_handle: " = "native_handle" ++ ": " := by decide
    unfold exprPieces exprText
    simp [callText, argText, hlabel]
  | native scope symbol args =>
    unfold exprPieces exprText
    simp [plainCall, callText, argText, Function.comp_def]
  | invoke receiver method args =>
    unfold exprPieces exprText
    simp [callText, argText, Function.comp_def, String.append_assoc]

/-- The pieces of a statement make up its text. -/
theorem join_stmtPieces (st : Stmt) : Piece.join (stmtPieces st) = stmtText st := by
  cases st with
  | bind x value =>
    have hvalue := join_exprPieces value
    -- a truth value gets a type, all others are bound alike
    cases value with
    | asInteger y =>
      unfold stmtPieces stmtText
      simp [hvalue, String.append_assoc]
    | _ =>
      unfold stmtPieces stmtText
      simp [bindText, hvalue, String.append_assoc]
  | fill buffer x =>
    unfold stmtPieces stmtText
    simp [String.append_assoc]
  | deferRelease buffer =>
    have hopen : "defer \x7b free(" = "defer \x7b " ++ ("free" ++ "(") := by decide
    unfold stmtPieces stmtText
    simp [hopen, String.append_assoc, -String.reduceAppend]
  | run value => exact join_exprPieces value
  | ret x =>
    unfold stmtPieces stmtText
    simp
  | loadLibrary library =>
    have hopen : "System.loadLibrary(\"" = "System" ++ ".loadLibrary(\"" := by decide
    unfold stmtPieces stmtText
    simp [hopen, String.append_assoc, -String.reduceAppend]

end Swift

/-! ### Kotlin -/

namespace Kotlin

/-- The argument of a type is looked up as a type. -/
def exprPieces : Expr → List Piece
  | .name x => [.own x]
  | .cast target x => [.own x, .fixed (".to" ++ numericName target ++ "()")]
  | .asInteger x => [.fixed "if (", .own x, .fixed ") 1 else 0"]
  | .asTruth x => [.own x, .fixed " > 0"]
  | .duplicate e => exprPieces e
  | .copyText x => [.own x]
  | .jsonEncode x => [.outer "Json", .fixed ".encodeToString(", .own x, .fixed ")"]
  | .jsonDecode type x =>
    [.outer "Json", .fixed (".decodeFromString<" ++ typeText (hostType type) ++ ">("), .own x,
     .fixed ")"]
  | .allocate x => [.own x]
  | .copyBytes x => [.own x]
  | .wireBytes _ x => [.own x]
  | .register callback x => Piece.registryCall callback ".register" x
  | .lookup callback handle => Piece.registryCall callback ".lookup" handle
  | .remove callback handle => Piece.registryCall callback ".remove" handle
  | .model _ _ _ handle => [.own handle]
  | .proxy callback x => Piece.call [.outer (Naming.proxyName callback)] [[.own x]]
  | .native scope symbol args =>
    Piece.call [.outer scope.owner, .fixed ("." ++ symbolName symbol)]
      (args.map fun a => [.own a])
  | .invoke receiver method args =>
    Piece.call [.own receiver, .fixed ("." ++ method)] (args.map fun a => [.own a.2])

def stmtPieces : Stmt → List Piece
  | .bind x value => [.fixed "val ", .own x, .fixed " = "] ++ exprPieces value
  | .fill _ _ => []
  | .deferRelease _ => []
  | .run value => exprPieces value
  | .ret x => [.fixed "return ", .own x]
  | .loadLibrary library =>
    [.outer "System", .fixed (".loadLibrary(\"" ++ library ++ "\")")]

theorem join_exprPieces (e : Expr) : Piece.join (exprPieces e) = exprText e := by
  induction e with
  | duplicate e ih =>
    unfold exprPieces exprText
    exact ih
  | jsonEncode x =>
    have hopen : "Json.encodeToString(" = "Json" ++ ".encodeToString(" := by decide
    unfold exprPieces exprText
    simp [hopen, String.append_assoc, -String.reduceAppend]
  | jsonDecode type x =>
    have hopen : "Json.decodeFromString<" = "Json" ++ ".decodeFromString<" := by decide
    unfold exprPieces exprText
    simp [hopen, String.append_assoc, -String.reduceAppend]
  | register callback x | lookup callback x | remove callback x | proxy callback x =>
    unfold exprPieces exprText
    simp [plainCall, callText]
  | native scope symbol args =>
    unfold exprPieces exprText
    simp [plainCall, symbolCallee, callText, Function.comp_def, String.append_assoc]
  | invoke receiver method args =>
    unfold exprPieces exprText
    simp [plainCall, callText, Function.comp_def, String.append_assoc]
  | _ =>
    unfold exprPieces exprText
    simp [String.append_assoc]

theorem join_stmtPieces (st : Stmt) : Piece.join (stmtPieces st) = stmtText st := by
  cases st with
  | bind x value =>
    unfold stmtPieces stmtText
    simp [bindText, join_exprPieces, String.append_assoc]
  | fill buffer x | deferRelease buffer => rfl
  | run value => exact join_exprPieces value
  | ret x =>
    unfold stmtPieces stmtText
    simp
  | loadLibrary library =>
    have hopen : "System.loadLibrary(\"" = "System" ++ ".loadLibrary(\"" := by decide
    unfold stmtPieces stmtText
    simp [hopen, String.append_assoc, -String.reduceAppend]

end Kotlin

namespace Lang

def stmtPieces : Lang → Stmt → List Piece
  | .swift => Swift.stmtPieces
  | .kotlin => Kotlin.stmtPieces

theorem join_stmtPieces (lang : Lang) (st : Stmt) :
    Piece.join (lang.stmtPieces st) = lang.stmtText st := by
  cases lang with
  | swift => exact Swift.join_stmtPieces st
  | kotlin => exact Kotlin.join_stmtPieces st

end Lang

end HostBindings
