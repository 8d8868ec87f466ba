import HostBindings.Code.Block
import HostBindings.Code.TypeRef

/-!
Declarations of a generated file: fields, functions and types. Each language spells, orders or
drops the modifiers in its own way.
-/

namespace HostBindings.Code

inductive Modifier where
  /-- Visible everywhere. -/
  | exposed
  /-- Visible in the same module. -/
  | internal
  /-- Visible in the same file or type. -/
  | hidden
  | override
  | static
  | final
  /-- Implemented by native code. -/
  | external
  deriving DecidableEq, Repr

structure TypeParam where
  name : String
  bound : Option TypeRef
  deriving Repr

structure Param where
  name : String
  /-- The label of the argument; without one the name is the label. -/
  label : Option String
  type : TypeRef
  deriving Repr

def Param.plain (name : String) (type : TypeRef) : Param :=
  ⟨name, none, type⟩

inductive Initializer where
  | expr (text : String)
  /-- A closure, with the names of its parameters. -/
  | closure (params : List String) (body : Block)
  deriving Repr

structure Field where
  name : String
  type : TypeRef
  modifiers : List Modifier
  isMutable : Bool
  initializer : Option Initializer
  docs : List String
  deriving Repr, Inhabited

inductive FuncKind where
  | function
  | constructor
  /-- Runs when an object is released. -/
  | finalizer
  /-- Runs when a type is loaded. -/
  | loader
  deriving DecidableEq, Repr

structure Func where
  kind : FuncKind
  name : String
  modifiers : List Modifier
  annotations : List TypeRef
  params : List Param
  returns : Option TypeRef
  body : Option Block
  docs : List String
  deriving Repr

namespace Func

def plain (name : String) : Func where
  kind := .function
  name
  modifiers := []
  annotations := []
  params := []
  returns := none
  body := none
  docs := []

def finalizer (body : Block) : Func :=
  { plain "deinit" with kind := .finalizer, body := some body }

def loader (body : Block) : Func :=
  { plain "init" with kind := .loader, body := some body }

end Func

def Field.plain (name : String) (type : TypeRef) : Field where
  name
  type
  modifiers := []
  isMutable := false
  initializer := none
  docs := []

inductive TypeKind where
  /-- Plain data. -/
  | record
  /-- Implemented elsewhere. -/
  | interface
  /-- Holds static members. -/
  | holder
  /-- Has objects with a state. -/
  | object
  deriving DecidableEq, Repr

structure TypeHead where
  kind : TypeKind
  name : String
  modifiers : List Modifier
  annotations : List TypeRef
  typeParams : List TypeParam
  supertypes : List TypeRef
  /-- Fields that the constructor sets. -/
  properties : List Field
  constructorModifiers : List Modifier
  docs : List String
  deriving Repr

def TypeHead.plain (kind : TypeKind) (name : String) : TypeHead where
  kind
  name
  modifiers := []
  annotations := []
  typeParams := []
  supertypes := []
  properties := []
  constructorModifiers := []
  docs := []

inductive Member where
  | field (f : Field)
  | func (f : Func)
  | type (head : TypeHead) (members : List Member)
  deriving Repr, Inhabited

structure SourceFile where
  name : String
  header : Option String
  package : Option String
  /-- Imports that no type reference implies. -/
  imports : List String
  members : List Member
  deriving Repr

def TypeHead.refs (h : TypeHead) : List TypeRef :=
  h.supertypes ++ h.annotations ++ h.typeParams.filterMap (·.bound) ++ h.properties.map (·.type)

def Func.refs (f : Func) : List TypeRef :=
  f.params.map (·.type) ++ f.returns.toList ++ f.annotations

end HostBindings.Code
