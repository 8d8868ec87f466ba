import HostBindings.Target.Kotlin.Decls
import HostBindings.Target.Kotlin.Members
import HostBindings.Target.Kotlin.Stmts
import HostBindings.Target.Swift.Decls
import HostBindings.Target.Swift.Members
import HostBindings.Target.Swift.Stmts

/-!
The target languages side by side: what the generator and the layout ask of a language, by cases
on the language.
-/

namespace HostBindings.Lang

open HostBindings.Code HostBindings.Target

/-! ### Names and files -/

def keywords : Lang → List String
  | .swift => Swift.keywords
  | .kotlin => Kotlin.keywords

def builtins : Lang → List String
  | .swift => Swift.builtins
  | .kotlin => Kotlin.builtins

def isBuiltin (lang : Lang) (name : String) : Bool :=
  lang.builtins.contains name

def hostName (lang : Lang) (native : String) : String :=
  Naming.escapeKeyword lang.keywords (Naming.camelCase native)

def lastSegment (name : String) : String :=
  String.ofList ((Text.splitAtChar (· == '.') name.toList).getLast?.getD [])

def fileName (lang : Lang) (module : String) : String :=
  match lang with
  | .swift => module ++ ".swift"
  | .kotlin => Naming.pascalCase (lastSegment module) ++ ".kt"

def fileImports (lang : Lang) (s : Settings) : List String :=
  match lang with
  | .swift => [Swift.foundation, s.moduleName]
  | .kotlin => []

def package? (lang : Lang) (s : Settings) : Option String :=
  match lang with
  | .swift => none
  | .kotlin => some s.moduleName

def importLine (name : String) : String :=
  "import " ++ name

def packageLine? (lang : Lang) (package : String) : Option String :=
  match lang with
  | .swift => none
  | .kotlin => some ("package " ++ package)

def commentLine (text : String) : String :=
  "// " ++ text

/-! ### Types -/

def ownership : Lang → Ownership
  | .swift => .nativeFreed
  | .kotlin => .managed

def typeText : Lang → TypeRef → String
  | .swift => Swift.typeText
  | .kotlin => Kotlin.typeText

def hostType : Lang → BoundaryType → TypeRef
  | .swift => Swift.hostType
  | .kotlin => Kotlin.hostType

def wireType (lang : Lang) (ctx : Context) (c : Crossing) : Option TypeRef :=
  match lang with
  | .swift => Swift.wireType ctx c
  | .kotlin => Kotlin.wireType c

def handleType : Lang → TypeRef
  | .swift => Swift.handleType
  | .kotlin => Kotlin.handleType

/-! ### Statements -/

def callText : Lang → String → List CallArg → String
  | .swift => Swift.callText
  | .kotlin => Kotlin.callText

def bindText : Lang → String → String → String
  | .swift => Swift.bindText
  | .kotlin => Kotlin.bindText

def stmtText : Lang → Stmt → String
  | .swift => Swift.stmtText
  | .kotlin => Kotlin.stmtText

def stmtImports : Lang → Stmt → List String
  | .swift => fun _ => []
  | .kotlin => Kotlin.stmtImports

def symbolName (lang : Lang) (scope : Scope) (symbol : Symbol) : String :=
  match lang with
  | .swift => Swift.symbolName scope symbol
  | .kotlin => Kotlin.symbolName symbol

def symbolCallee (lang : Lang) (scope : Scope) (symbol : Symbol) : String :=
  match lang with
  | .swift => Swift.symbolName scope symbol
  | .kotlin => Kotlin.symbolCallee scope symbol

/-- The statements that bind `output` to `input`, converted as the decision says. -/
def convert (lang : Lang) (ctx : Context) (c : Crossing) (input output : String) :
    Except PlanError (List Stmt) :=
  match lang with
  | .swift => Swift.convert ctx c input output
  | .kotlin => .ok (Kotlin.convert c input output)

def block (lang : Lang) (stmts : List Stmt) : Block :=
  ⟨stmts.map .stmt, stmts.flatMap lang.stmtImports⟩

/-! ### Declarations -/

def docLines : Lang → List String → List String
  | .swift => Swift.docLines
  | .kotlin => Kotlin.docLines

def annotationText : Lang → TypeRef → String
  | .swift => Swift.annotationText
  | .kotlin => Kotlin.annotationText

def typeHeader : Lang → TypeHead → TypeHeader
  | .swift => Swift.typeHeader
  | .kotlin => Kotlin.typeHeader

/-- The fields that a type's properties imply in its body. -/
def impliedFields (lang : Lang) (h : TypeHead) : List Field :=
  match lang with
  | .swift => h.properties
  | .kotlin => []

def impliedConstructor? (lang : Lang) (h : TypeHead) : Option Func :=
  match lang with
  | .swift => Swift.implied? h
  | .kotlin => none

def omitsBody (lang : Lang) (h : TypeHead) (members : List Member) : Bool :=
  match lang with
  | .swift => false
  | .kotlin => Kotlin.omitsBody h members

def signature : Lang → Func → String
  | .swift => Swift.signature
  | .kotlin => Kotlin.signature

def leadingLines : Lang → Func → List String
  | .swift => Swift.leadingLines
  | .kotlin => Kotlin.leadingLines

def fieldText : Lang → Field → String
  | .swift => Swift.fieldText
  | .kotlin => Kotlin.fieldText

def closureOpen : Lang → List String → String
  | .swift => Swift.closureOpen
  | .kotlin => Kotlin.closureOpen

/-! ### Members -/

def serializable (lang : Lang) (h : TypeHead) : TypeHead :=
  match lang with
  | .swift => { h with supertypes := h.supertypes ++ [.plain "Codable"] }
  | .kotlin =>
    { h with
      annotations :=
        h.annotations ++ [.imported "Serializable" "kotlinx.serialization.Serializable"] }

def registryType : Lang → Member
  | .swift => Swift.registryType
  | .kotlin => Kotlin.registryType

def registryField : Lang → String → Field
  | .swift => Swift.registryField
  | .kotlin => Kotlin.registryField

def loader? (lang : Lang) (ctx : Context) : Option Func :=
  match lang with
  | .swift => none
  | .kotlin => some (Kotlin.loader ctx)

def nativeDeclaration? (lang : Lang) (name : String) (visibility : Modifier)
    (params : List Param) (returns : Option TypeRef) : Option Func :=
  match lang with
  | .swift => none
  | .kotlin => some (Kotlin.nativeDeclaration name visibility params returns)

def trampoline : Lang → String → List Param → Option TypeRef → Block → Member
  | .swift => Swift.trampoline
  | .kotlin => Kotlin.trampoline

def proxySupertypes : Lang → List TypeRef
  | .swift => []
  | .kotlin => Kotlin.proxySupertypes

def proxyRelease : Lang → Item → List Member
  | .swift => Swift.proxyRelease
  | .kotlin => Kotlin.proxyRelease

end HostBindings.Lang
