import HostBindings.Target

/-!
Bodies of generated functions, as statements: convert each argument, call, convert the result,
return it.
-/

namespace HostBindings.Generate

open HostBindings.Code

/-- The local that holds a converted argument. The camel case name has no underscore, so the
endings that conversions append cannot make it the local of another argument. -/
def argLocal (side name : String) : String :=
  side ++ "_" ++ Naming.camelCase name

def wireLocal (a : ArgPlan) : String :=
  argLocal "w" a.slot.name

def hostLocal (a : ArgPlan) : String :=
  argLocal "h" a.slot.name

def convertArgs (lang : Lang) (ctx : Context) (slotLocal : ArgPlan → String)
    (args : List ArgPlan) : Except PlanError (List Stmt) :=
  (args.mapM fun a => lang.convert ctx a.crossing (lang.hostName a.slot.name) (slotLocal a)).map
    List.flatten

/-- The statements that make a call and return its result, converted from the local `raw` into
the local `cooked`. -/
def finish (lang : Lang) (ctx : Context) (result : Crossing) (call : Expr) (raw cooked : String) :
    Except PlanError (List Stmt) :=
  if result.isVoid then .ok [.run call]
  else
    (lang.convert ctx result raw cooked).map fun conversion =>
      .bind raw call :: conversion ++ [.ret cooked]

/-- The body of a call into native code. The leading arguments are passed as they are. -/
def nativeCallBody (lang : Lang) (ctx : Context) (p : CallPlan) (symbol : Symbol)
    (leading : List String) : Except PlanError (List Stmt) := do
  let conversions ← convertArgs lang ctx wireLocal p.args
  let call := Expr.native ctx.scope symbol (leading ++ p.args.map wireLocal)
  let rest ← finish lang ctx p.result call "native_ret" "host_ret"
  return conversions ++ rest

def trampolineBody (lang : Lang) (ctx : Context) (p : CallPlan) (callback : String) :
    Except PlanError (List Stmt) := do
  let conversions ← convertArgs lang ctx hostLocal p.args
  let args := p.args.map fun a => (lang.hostName a.slot.name, hostLocal a)
  let call := Expr.invoke "host_callback" (lang.hostName p.method.name) args
  let rest ← finish lang ctx p.result call "host_ret" "wire_ret"
  return .bind "host_callback" (.lookup callback "callback_handle") :: conversions ++ rest

def hostParams (lang : Lang) (m : Method) : List Param :=
  m.passed.map fun s => .plain (lang.hostName s.name) (lang.hostType s.type)

def hostReturn (lang : Lang) (type : BoundaryType) : Option TypeRef :=
  if type.isVoid then none else some (lang.hostType type)

def wireParams (lang : Lang) (ctx : Context) (p : CallPlan) : List Param :=
  p.args.filterMap fun a =>
    (lang.wireType ctx a.crossing).map (.plain (lang.hostName a.slot.name))

def hostFunc (lang : Lang) (m : Method) : Func :=
  { Func.plain (lang.hostName m.name) with
    params := hostParams lang m
    returns := hostReturn lang m.returns }

end HostBindings.Generate
