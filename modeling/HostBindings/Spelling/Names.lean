import HostBindings.Catalog.Error
import HostBindings.Spelling.Expr

/-!
Names of records and callback interfaces, read from the spelling of a type.
-/

namespace HostBindings.Spelling

def read (spelling : String) : Except CatalogError Expr :=
  match parse spelling with
  | .ok e => .ok e
  | .error f => .error (.invalidSpelling spelling f)

def elementName (spelling : String) : Except CatalogError String :=
  match read spelling with
  | .error e => .error e
  | .ok e =>
    match e.args with
    | [element] =>
      if e.baseName ≠ "Vec" then .error (.invalidSpelling spelling .notVector)
      -- lists do not nest
      else if element.baseName = "Vec" then .error (.nestedVec spelling)
      else if element.isGeneric then .error (.unsupported (.genericElement spelling))
      else .ok element.baseName
    | _ => .error (.invalidSpelling spelling .notVector)

def isPointer (name : String) : Bool :=
  name == "Box" || name == "Arc" || name == "Rc"

def unwrap : Expr → Expr
  | ⟨path, args⟩ =>
    match args with
    | [inner] =>
      if isPointer (Expr.mk path [inner]).baseName then unwrap inner else ⟨path, [inner]⟩
    | args => ⟨path, args⟩

/-- The callback interface named by a spelling such as `Box<dyn T>`. -/
def callbackName (spelling : String) : Except CatalogError String :=
  match read spelling with
  | .error e => .error e
  | .ok e =>
    if (unwrap e).isGeneric then .error (.unsupported (.genericCallback spelling))
    else .ok (unwrap e).baseName

def recordName (spelling : String) : Except CatalogError String :=
  match read spelling with
  | .error e => .error e
  | .ok e =>
    if e.baseName = "Vec" then .error (.unsupported (.listAsRecord spelling))
    else if e.isGeneric then .error (.unsupported (.genericRecord spelling))
    else .ok e.baseName

end HostBindings.Spelling
