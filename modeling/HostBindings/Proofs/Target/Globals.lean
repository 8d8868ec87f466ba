import HostBindings.Proofs.Marshal
import HostBindings.Proofs.Target.Pieces

/-!
The names from outside of a function that its statements mention, read off their text. What a
conversion mentions depends only on the type of the value and on where it stands.
-/

namespace HostBindings

open HostBindings.Code

namespace Lang

variable {lang : Lang}

def globals (lang : Lang) (st : Stmt) : List String :=
  Piece.outers (lang.stmtPieces st)

def calleeName (lang : Lang) (scope : Scope) (symbol : Symbol) : String :=
  match lang with
  | .swift => Swift.symbolName scope symbol
  | .kotlin => scope.owner

theorem globals_bind (x : String) (value : Expr) :
    lang.globals (.bind x value) = lang.globals (.run value) := by
  cases lang with
  | swift => cases value <;> rfl
  | kotlin => rfl

theorem globals_native (scope : Scope) (symbol : Symbol) (args : List String) :
    lang.globals (.run (.native scope symbol args)) = [lang.calleeName scope symbol] := by
  have hargs : (args.map fun a => [Piece.own a]).flatMap Piece.outers = [] := by
    rw [List.flatMap_map]
    exact List.flatMap_eq_nil_iff.mpr fun _ _ => rfl
  cases lang with
  | swift =>
    rw [globals, stmtPieces, Swift.stmtPieces, Swift.exprPieces, Piece.outers_call, hargs]
    rfl
  | kotlin =>
    rw [globals, stmtPieces, Kotlin.stmtPieces, Kotlin.exprPieces, Piece.outers_call, hargs]
    rfl

theorem globals_invoke (receiver method : String) (args : List (String × String)) :
    lang.globals (.run (.invoke receiver method args)) = [] := by
  cases lang with
  | swift =>
    rw [globals, stmtPieces, Swift.stmtPieces, Swift.exprPieces, Piece.outers_call,
      List.flatMap_map]
    exact List.flatMap_eq_nil_iff.mpr fun _ _ => rfl
  | kotlin =>
    rw [globals, stmtPieces, Kotlin.stmtPieces, Kotlin.exprPieces, Piece.outers_call,
      List.flatMap_map]
    exact List.flatMap_eq_nil_iff.mpr fun _ _ => rfl

end Lang

/-! ### Conversions -/

def Swift.needs (scope : Scope) (type : BoundaryType) (position : Position) : List String :=
  match type with
  | .void => []
  | .single (.numeric n) => [numericName n]
  | .single .boolean => []
  | .single .string =>
    match position with
    | .argument => []
    | .result => ["String", symbolName scope .releaseText]
    | .callbackArgument => ["String"]
    | .callbackResult => ["strdup"]
  | .vec (.numeric .byte) =>
    match position with
    | .argument => ["malloc", "max", "Int8", "free", "WireBytes", "Int32"]
    | .result => ["Int8", "UnsafeBufferPointer", "Int", symbolName scope .releaseBytes]
    | .callbackArgument => ["Int8", "UnsafeBufferPointer", "Int"]
    | .callbackResult => ["malloc", "max", "Int8", "WireBytes", "Int32"]
  | .callback name =>
    match position with
    | .argument => [Naming.registryName name, modelName scope.module name, scope.owner]
    | .result => [Naming.proxyName name]
    | _ => []
  -- records and lists other than bytes cross as JSON
  | document =>
    match position with
    | .argument => ["String", "JSONEncoder", "UTF8"]
    | .result =>
      ["String", symbolName scope .releaseText, "JSONDecoder", typeName document, "Data"]
    | .callbackArgument => ["String", "JSONDecoder", typeName document, "Data"]
    | .callbackResult => ["strdup", "String", "JSONEncoder", "UTF8"]

def Kotlin.needs (type : BoundaryType) (position : Position) : List String :=
  match type with
  | .void => []
  | .single (.numeric _) => []
  | .single .boolean => []
  | .single .string => []
  | .vec (.numeric .byte) => []
  | .callback name =>
    match position with
    | .argument => [Naming.registryName name]
    | .result => [Naming.proxyName name]
    | _ => []
  | _ => ["Json"]

def Lang.needs (lang : Lang) (scope : Scope) (type : BoundaryType) (position : Position) :
    List String :=
  match lang with
  | .swift => Swift.needs scope type position
  | .kotlin => Kotlin.needs type position

variable {lang : Lang} {ctx : Context} {x : Crossing} {t : BoundaryType} {pos : Position}
  {name input output : String} {b : List Stmt}

/-- Each trampoline of a registered callback mentions their owner, and there is one at least. -/
theorem Swift.mem_globals_model {scope : Scope} {callback handle : String}
    {methods : List String} :
    name ∈ Lang.swift.globals (.bind output (.model scope callback methods handle)) ↔
      name = modelName scope.module callback ∨ name = scope.owner := by
  have hmodel : name ∈ (modelPieces scope.owner callback methods handle).flatMap Piece.outers ↔
      name = scope.owner := by
    rw [modelPieces, List.flatMap_append, List.flatMap_map, List.mem_append]
    constructor
    · rintro (hmethod | hrelease)
      · obtain ⟨m, _, hm⟩ := List.mem_flatMap.mp hmethod
        exact List.mem_singleton.mp hm
      · exact List.mem_singleton.mp hrelease
    · exact fun h => .inr (List.mem_singleton.mpr h)
  rw [Lang.globals_bind, Lang.globals, Lang.stmtPieces, Swift.stmtPieces, exprPieces,
    Piece.outers_call, List.mem_append, hmodel]
  exact or_congr_left List.mem_singleton

theorem Kotlin.globals_convert (hplan : Marshal.plan Lang.kotlin.ownership t pos = .ok x) :
    (Kotlin.convert x input output).flatMap Lang.kotlin.globals = Kotlin.needs t pos := by
  obtain ⟨wire, hw, rfl⟩ := Marshal.plan_eq_ok.mp hplan
  cases t with
  | void => rfl
  | single e => cases e <;> cases pos <;> rfl
  | vec e =>
    cases e with
    | numeric n => cases n <;> cases pos <;> rfl
    | _ => cases pos <;> rfl
  | callback name =>
    -- a callback has no plan where native code makes the call
    cases pos with
    | argument => rfl
    | result => rfl
    | callbackArgument => cases hw
    | callbackResult => cases hw

theorem Swift.mem_globals_convert (hplan : Marshal.plan Lang.swift.ownership t pos = .ok x)
    (h : Swift.convert ctx x input output = .ok b) :
    name ∈ b.flatMap Lang.swift.globals ↔ name ∈ Swift.needs ctx.scope t pos := by
  obtain ⟨wire, hw, rfl⟩ := Marshal.plan_eq_ok.mp hplan
  cases t with
  | void =>
    cases h
    rfl
  | single e =>
    -- with the type and the position known, the conversion is a list of statements
    cases e <;> cases pos <;> cases hw <;> cases h <;> rfl
  | vec e =>
    cases e with
    | numeric n => cases n <;> cases pos <;> cases hw <;> cases h <;> rfl
    | _ => cases pos <;> cases hw <;> cases h <;> rfl
  | callback name =>
    cases pos with
    | argument =>
      unfold Swift.convert Marshal.conversion at h
      dsimp only [Position.direction] at h
      -- the interface is looked up for the model
      split at h
      · cases h
      · cases h
        rw [List.flatMap_cons, List.flatMap_singleton, List.mem_append, Swift.mem_globals_model,
          Lang.globals_bind, Swift.needs, List.mem_cons, List.mem_cons, List.mem_singleton]
        exact or_congr_left List.mem_singleton
    | result =>
      cases hw
      cases h
      rfl
    | callbackArgument => cases hw
    | callbackResult => cases hw

/-- The type of a value and its position decide what its conversion mentions. -/
theorem mem_globals_convert (hplan : Marshal.plan lang.ownership t pos = .ok x)
    (h : lang.convert ctx x input output = .ok b) :
    name ∈ b.flatMap lang.globals ↔ name ∈ lang.needs ctx.scope t pos := by
  cases lang with
  | swift => exact Swift.mem_globals_convert hplan h
  | kotlin =>
    cases h
    rw [Kotlin.globals_convert hplan]
    rfl

/-- Swift makes a buffer for bytes with the help of two functions and a type. -/
example : Lang.swift.globals (.bind "w_data_buf" (.allocate "data")) = ["malloc", "max", "Int8"] :=
  rfl

end HostBindings
