import HostBindings.Proofs.Code.Imports
import HostBindings.Proofs.Text.Brackets

/-!
Code without stray brackets. The words of a declaration, which come from a catalog or from
settings, have no brackets at all; what is written by hand, such as lines of code and of
documentation, is balanced. The predicates follow the syntax, so that a language needs one lemma
for each kind of declaration that it writes.
-/

namespace HostBindings

open HostBindings.Text

def BoundaryType.words (t : BoundaryType) : List String :=
  t.recordName?.toList ++ t.callbackName?.toList

namespace Code

/-! ### Words -/

def Symbol.words : Symbol → List String
  | .method name => [name]
  | .callbackMethod callback name => [callback, name]
  | .callbackRelease callback => [callback]
  | .releaseText => []
  | .releaseBytes => []

def Expr.words : Expr → List String
  | .name x => [x]
  | .cast _ x => [x]
  | .asInteger x => [x]
  | .asTruth x => [x]
  | .duplicate e => e.words
  | .copyText x => [x]
  | .jsonEncode x => [x]
  | .jsonDecode type x => x :: type.words
  | .allocate x => [x]
  | .copyBytes x => [x]
  | .wireBytes buffer x => [buffer, x]
  | .register callback x => [callback, x]
  | .lookup callback handle => [callback, handle]
  | .remove callback handle => [callback, handle]
  | .model scope callback methods handle => [scope.module, scope.owner, callback, handle] ++ methods
  | .proxy callback x => [callback, x]
  | .native scope symbol args => [scope.module, scope.owner] ++ symbol.words ++ args
  | .invoke receiver method args =>
    [receiver, method] ++ (args.map (·.1) ++ args.map (·.2))

def Stmt.words : Stmt → List String
  | .bind x value => x :: value.words
  | .fill buffer x => [buffer, x]
  | .deferRelease buffer => [buffer]
  | .run value => value.words
  | .ret x => [x]
  | .loadLibrary library => [library]

/-! ### Declarations without stray brackets -/

inductive TypeRef.WellBracketed : TypeRef → Prop where
  | named {name args provider} (hname : BracketFree name) (hargs : ∀ t ∈ args, WellBracketed t)
      (hprovider : ∀ p ∈ provider, BracketFree p) : WellBracketed (.named name args provider)
  | array {element} (h : WellBracketed element) : WellBracketed (.array element)
  | map {key value} (hkey : WellBracketed key) (hvalue : WellBracketed value) :
      WellBracketed (.map key value)
  | optional {inner} (h : WellBracketed inner) : WellBracketed (.optional inner)
  | function {params result native} (hparams : ∀ t ∈ params, WellBracketed t)
      (hresult : WellBracketed result) : WellBracketed (.function params result native)

inductive Item.WellBracketed : Item → Prop where
  | line {text} (h : Balanced (brackets text)) : WellBracketed (.line text)
  | stmt {st} (h : ∀ w ∈ st.words, BracketFree w) : WellBracketed (.stmt st)
  | blank : WellBracketed .blank
  | block {header imports items} (hheader : Balanced (brackets header))
      (himports : ∀ i ∈ imports, BracketFree i) (hitems : ∀ item ∈ items, WellBracketed item) :
      WellBracketed (.block header imports items)

structure Block.WellBracketed (b : Block) : Prop where
  items : ∀ item ∈ b.items, item.WellBracketed
  imports : ∀ i ∈ b.imports, BracketFree i

inductive Initializer.WellBracketed : Initializer → Prop where
  | expr {text} (h : Balanced (brackets text)) : WellBracketed (.expr text)
  | closure {params body} (hparams : ∀ n ∈ params, BracketFree n) (hbody : body.WellBracketed) :
      WellBracketed (.closure params body)

structure Param.WellBracketed (p : Param) : Prop where
  name : BracketFree p.name
  label : ∀ l ∈ p.label, BracketFree l
  type : p.type.WellBracketed

structure TypeParam.WellBracketed (p : TypeParam) : Prop where
  name : BracketFree p.name
  bound : ∀ t ∈ p.bound, t.WellBracketed

structure Field.WellBracketed (f : Field) : Prop where
  name : BracketFree f.name
  type : f.type.WellBracketed
  initializer : ∀ i ∈ f.initializer, i.WellBracketed
  docs : ∀ line ∈ f.docs, Balanced (brackets line)

structure Func.WellBracketed (f : Func) : Prop where
  name : BracketFree f.name
  annotations : ∀ t ∈ f.annotations, t.WellBracketed
  params : ∀ p ∈ f.params, p.WellBracketed
  returns : ∀ t ∈ f.returns, t.WellBracketed
  body : ∀ b ∈ f.body, b.WellBracketed
  docs : ∀ line ∈ f.docs, Balanced (brackets line)

structure TypeHead.WellBracketed (h : TypeHead) : Prop where
  name : BracketFree h.name
  annotations : ∀ t ∈ h.annotations, t.WellBracketed
  typeParams : ∀ p ∈ h.typeParams, p.WellBracketed
  supertypes : ∀ t ∈ h.supertypes, t.WellBracketed
  properties : ∀ p ∈ h.properties, p.WellBracketed
  docs : ∀ line ∈ h.docs, Balanced (brackets line)

inductive Member.WellBracketed : Member → Prop where
  | field {f} (h : f.WellBracketed) : WellBracketed (.field f)
  | func {f} (h : f.WellBracketed) : WellBracketed (.func f)
  | type {head members} (hhead : head.WellBracketed) (hmembers : ∀ m ∈ members, WellBracketed m) :
      WellBracketed (.type head members)

structure SourceFile.WellBracketed (f : SourceFile) : Prop where
  header : ∀ text ∈ f.header, Balanced (brackets text)
  package : ∀ p ∈ f.package, BracketFree p
  imports : ∀ i ∈ f.imports, BracketFree i
  members : ∀ m ∈ f.members, m.WellBracketed

/-! ### Plain declarations -/

namespace TypeRef.WellBracketed

theorem plain {name : String} (h : BracketFree name) : (TypeRef.plain name).WellBracketed :=
  .named h (fun _ ht => absurd ht List.not_mem_nil) (fun p hp => absurd hp (Option.not_mem_none p))

theorem imported {name provider : String} (hname : BracketFree name)
    (hprovider : BracketFree provider) : (TypeRef.imported name provider).WellBracketed := by
  refine .named hname (fun _ ht => absurd ht List.not_mem_nil) ?_
  rintro p ⟨⟩
  exact hprovider

end TypeRef.WellBracketed

/-- A result of a type without arguments. -/
theorem wellBracketed_returned {type : String} (h : BracketFree type) :
    ∀ t ∈ some (TypeRef.plain type), t.WellBracketed := by
  rintro t ⟨⟩
  exact .plain h

theorem Param.WellBracketed.plain {name : String} {type : TypeRef} (hname : BracketFree name)
    (htype : type.WellBracketed) : (Param.plain name type).WellBracketed :=
  ⟨hname, nofun, htype⟩

theorem Field.WellBracketed.ofExpr {f : Field} {text : String} (hname : BracketFree f.name)
    (htype : f.type.WellBracketed) (hinit : f.initializer = some (.expr text))
    (htext : Balanced (brackets text)) (hdocs : f.docs = []) : f.WellBracketed where
  name := hname
  type := htype
  initializer := by
    intro i hi
    rw [hinit] at hi
    cases hi
    exact .expr htext
  docs := hdocs ▸ List.forall_mem_nil _

theorem Item.wellBracketed_lines {lines : List String}
    (h : ∀ line ∈ lines, Balanced (brackets line)) :
    ∀ item ∈ lines.map Item.line, item.WellBracketed :=
  List.forall_mem_map.mpr fun line hline => .line (h line hline)

/-! ### Imports -/

namespace TypeRef.WellBracketed

variable {t : TypeRef}

theorem nodes (h : t.WellBracketed) : ∀ u ∈ t.nodes, u.WellBracketed := by
  induction h with
  | named hname hargs hprovider ih =>
    rw [TypeRef.nodes, List.forall_mem_cons]
    refine ⟨.named hname hargs hprovider, fun u hu => ?_⟩
    obtain ⟨t, ht, hu⟩ := mem_nodesOfList.mp hu
    exact ih t ht u hu
  | array h ih => exact List.forall_mem_cons.mpr ⟨.array h, ih⟩
  | map hkey hvalue ihkey ihvalue =>
    rw [TypeRef.nodes, List.forall_mem_cons, List.forall_mem_append]
    exact ⟨.map hkey hvalue, ihkey, ihvalue⟩
  | optional h ih => exact List.forall_mem_cons.mpr ⟨.optional h, ih⟩
  | function hparams hresult ihparams ihresult =>
    rw [TypeRef.nodes, List.forall_mem_cons, List.forall_mem_append]
    refine ⟨.function hparams hresult, fun u hu => ?_, ihresult⟩
    obtain ⟨t, ht, hu⟩ := mem_nodesOfList.mp hu
    exact ihparams t ht u hu

theorem imports (h : t.WellBracketed) : ∀ i ∈ t.imports, BracketFree i := by
  intro i hi
  obtain ⟨u, hu, hi⟩ := List.mem_filterMap.mp hi
  cases h.nodes u hu with
  | named _ _ hprovider => exact hprovider i hi
  | _ => cases hi

end TypeRef.WellBracketed

theorem Item.WellBracketed.imports {item : Item} (h : item.WellBracketed) :
    ∀ i ∈ item.imports, BracketFree i := by
  induction h with
  | block hheader himports hitems ih =>
    rw [Item.imports, List.forall_mem_append]
    refine ⟨himports, fun i hi => ?_⟩
    obtain ⟨item, hitem, hi⟩ := Item.mem_importsOfList.mp hi
    exact ih item hitem i hi
  | _ => exact fun i hi => absurd hi List.not_mem_nil

theorem Block.WellBracketed.allImports {b : Block} (h : b.WellBracketed) :
    ∀ i ∈ b.allImports, BracketFree i := by
  rw [Block.allImports, List.forall_mem_append]
  refine ⟨h.imports, fun i hi => ?_⟩
  obtain ⟨item, hitem, hi⟩ := Item.mem_importsOfList.mp hi
  exact (h.items item hitem).imports i hi

theorem forall_mem_imports {refs : List TypeRef} (h : ∀ t ∈ refs, t.WellBracketed) :
    ∀ i ∈ refs.flatMap (·.imports), BracketFree i := by
  intro i hi
  obtain ⟨t, ht, hi⟩ := List.mem_flatMap.mp hi
  exact (h t ht).imports i hi

theorem Field.WellBracketed.allImports {f : Field} (h : f.WellBracketed) :
    ∀ i ∈ f.imports, BracketFree i := by
  rw [Field.imports, List.forall_mem_append]
  refine ⟨h.type.imports, ?_⟩
  split
  · rename_i params body hinit
    cases h.initializer _ hinit with
    | closure _ hbody => exact hbody.allImports
  · exact fun i hi => absurd hi List.not_mem_nil

theorem Func.WellBracketed.allImports {f : Func} (h : f.WellBracketed) :
    ∀ i ∈ f.imports, BracketFree i := by
  rw [Func.imports, List.forall_mem_append]
  constructor
  · refine forall_mem_imports fun t ht => ?_
    rw [Func.refs, List.mem_append, List.mem_append] at ht
    rcases ht with (ht | ht) | ht
    · obtain ⟨p, hp, rfl⟩ := List.mem_map.mp ht
      exact (h.params p hp).type
    · exact h.returns t (Option.mem_toList.mp ht)
    · exact h.annotations t ht
  · cases hbody : f.body with
    | none => exact fun i hi => absurd hi List.not_mem_nil
    | some body => exact (h.body body hbody).allImports

theorem TypeHead.WellBracketed.refs {head : TypeHead} (h : head.WellBracketed) :
    ∀ t ∈ head.refs, t.WellBracketed := by
  intro t ht
  rw [TypeHead.refs, List.mem_append, List.mem_append, List.mem_append] at ht
  rcases ht with ((ht | ht) | ht) | ht
  · exact h.supertypes t ht
  · exact h.annotations t ht
  · obtain ⟨p, hp, hbound⟩ := List.mem_filterMap.mp ht
    exact (h.typeParams p hp).bound t hbound
  · obtain ⟨p, hp, rfl⟩ := List.mem_map.mp ht
    exact (h.properties p hp).type

theorem Member.WellBracketed.imports {m : Member} (h : m.WellBracketed) :
    ∀ i ∈ m.imports, BracketFree i := by
  induction h with
  | field h => exact h.allImports
  | func h => exact h.allImports
  | type hhead hmembers ih =>
    rw [Member.imports, List.forall_mem_append]
    refine ⟨forall_mem_imports hhead.refs, fun i hi => ?_⟩
    obtain ⟨m, hm, hi⟩ := Member.mem_importsOfList.mp hi
    exact ih m hm i hi

theorem SourceFile.WellBracketed.allImports {f : SourceFile} (h : f.WellBracketed) :
    ∀ i ∈ f.allImports, BracketFree i := by
  intro i hi
  rcases List.mem_append.mp (mem_sortedSet.mp hi) with hi | hi
  · exact h.imports i hi
  · obtain ⟨m, hm, hi⟩ := Member.mem_importsOfList.mp hi
    exact (h.members m hm).imports i hi

end Code

end HostBindings
