import HostBindings.Layout.File
import HostBindings.Proofs.Code.Known

/-!
Uses of type names. A use is a name in a reference of a declaration, together with the types that
the declaration stands in, since their type parameters are known there and nowhere else. The check
of a file reports the first use, in the order of the file, whose name nothing provides.
-/

namespace HostBindings.Code

/-! ### Where names stand -/

inductive TypeRef.Names : TypeRef → String → Option String → Prop where
  | self (name args provider) : Names (.named name args provider) name provider
  | arg {name args provider t n p} (ht : t ∈ args) (h : Names t n p) :
      Names (.named name args provider) n p
  | element {t n p} (h : Names t n p) : Names (.array t) n p
  | key {key value n p} (h : Names key n p) : Names (.map key value) n p
  | value {key value n p} (h : Names value n p) : Names (.map key value) n p
  | inner {t n p} (h : Names t n p) : Names (.optional t) n p
  | param {params result native t n p} (ht : t ∈ params) (h : Names t n p) :
      Names (.function params result native) n p
  | result {params result native n p} (h : Names result n p) :
      Names (.function params result native) n p

/-- A member at any depth, with the declarations of the types around it, the outermost first. -/
inductive Stands : List Member → List TypeHead → Member → Prop where
  | top {members d} (h : d ∈ members) : Stands members [] d
  | inside {members head inner enclosing d} (h : .type head inner ∈ members)
      (hd : Stands inner enclosing d) : Stands members (head :: enclosing) d

inductive Func.Mentions (f : Func) : TypeRef → Prop where
  | param {p} (hp : p ∈ f.params) : Mentions f p.type
  | result {t} (ht : f.returns = some t) : Mentions f t
  | mark {t} (ht : t ∈ f.annotations) : Mentions f t

inductive TypeHead.Mentions (head : TypeHead) : TypeRef → Prop where
  | supertype {t} (ht : t ∈ head.supertypes) : Mentions head t
  | mark {t} (ht : t ∈ head.annotations) : Mentions head t
  | bound {p t} (hp : p ∈ head.typeParams) (ht : p.bound = some t) : Mentions head t
  | property {p} (hp : p ∈ head.properties) : Mentions head p.type

/-- A reference of some declaration. A type encloses what its own declaration refers to. -/
inductive Refers (members : List Member) : List TypeHead → TypeRef → Prop where
  | field {enclosing f} (h : Stands members enclosing (.field f)) : Refers members enclosing f.type
  | func {enclosing f t} (h : Stands members enclosing (.func f)) (ht : f.Mentions t) :
      Refers members enclosing t
  | type {enclosing head inner t} (h : Stands members enclosing (.type head inner))
      (ht : head.Mentions t) : Refers members (enclosing ++ [head]) t

/-- A type name in a file, with the import it carries and the types that it stands in. -/
structure Use where
  enclosing : List TypeHead
  name : String
  provider : Option String

namespace SourceFile

def HasUse (f : SourceFile) (u : Use) : Prop :=
  ∃ t, Refers f.members u.enclosing t ∧ t.Names u.name u.provider

def Declares (f : SourceFile) (name : String) : Prop :=
  ∃ enclosing head inner, Stands f.members enclosing (.type head inner) ∧ head.name = name

end SourceFile

namespace Use

/-- Something provides the name: an import, a declaration anywhere in the file, a type parameter of
a type around it, or the language. -/
inductive Resolved (lang : Lang) (f : SourceFile) (u : Use) : Prop where
  | imported {p} (h : u.provider = some p)
  | declared (h : f.Declares u.name)
  | param {head} (hhead : head ∈ u.enclosing) (h : u.name ∈ head.typeParams.map (·.name))
  | builtin (h : lang.isBuiltin u.name = true)

end Use

def contextOf (file : String) (enclosing : List TypeHead) : String :=
  (enclosing.getLast?.map (·.name)).getD file

def Use.report (file : String) (u : Use) : Unresolved :=
  ⟨u.name, contextOf file u.enclosing⟩

/-! ### The order of uses -/

def TypeRef.use? (enclosing : List TypeHead) : TypeRef → Option Use
  | .named name _ provider => some ⟨enclosing, name, provider⟩
  | _ => none

def refUses (enclosing : List TypeHead) (refs : List TypeRef) : List Use :=
  refs.flatMap fun t => t.nodes.filterMap (·.use? enclosing)

mutual

def Member.uses (enclosing : List TypeHead) : Member → List Use
  | .field f => refUses enclosing [f.type]
  | .func f => refUses enclosing f.refs
  | .type head members =>
    refUses (enclosing ++ [head]) head.refs ++ Member.usesInList (enclosing ++ [head]) members

def Member.usesInList (enclosing : List TypeHead) : List Member → List Use
  | [] => []
  | m :: ms => m.uses enclosing ++ Member.usesInList enclosing ms

end

def SourceFile.uses (f : SourceFile) : List Use :=
  Member.usesInList [] f.members

/-! ### The list holds the uses -/

mutual

theorem TypeRef.names_of_mem_nodes {n : String} {args : List TypeRef} {p : Option String} :
    ∀ t : TypeRef, .named n args p ∈ t.nodes → t.Names n p
  | .named name as provider, h => by
    rw [nodes, List.mem_cons] at h
    rcases h with heq | h
    · cases heq
      exact .self n args p
    · obtain ⟨t, ht, hn⟩ := names_of_mem_nodesOfList as h
      exact .arg ht hn
  | .array t, h => by
    rw [nodes, List.mem_cons] at h
    exact .element (names_of_mem_nodes t (h.resolve_left nofun))
  | .map key value, h => by
    rw [nodes, List.mem_cons, List.mem_append] at h
    rcases h.resolve_left nofun with h | h
    · exact .key (names_of_mem_nodes key h)
    · exact .value (names_of_mem_nodes value h)
  | .optional t, h => by
    rw [nodes, List.mem_cons] at h
    exact .inner (names_of_mem_nodes t (h.resolve_left nofun))
  | .function params result native, h => by
    rw [nodes, List.mem_cons, List.mem_append] at h
    rcases h.resolve_left nofun with h | h
    · obtain ⟨t, ht, hn⟩ := names_of_mem_nodesOfList params h
      exact .param ht hn
    · exact .result (names_of_mem_nodes result h)

theorem TypeRef.names_of_mem_nodesOfList {n : String} {args : List TypeRef} {p : Option String} :
    ∀ ts : List TypeRef, .named n args p ∈ nodesOfList ts → ∃ t ∈ ts, t.Names n p
  | [], h => absurd h List.not_mem_nil
  | t :: ts, h => by
    rw [nodesOfList, List.mem_append] at h
    rcases h with h | h
    · exact ⟨t, List.mem_cons_self, names_of_mem_nodes t h⟩
    · obtain ⟨u, hu, hn⟩ := names_of_mem_nodesOfList ts h
      exact ⟨u, List.mem_cons_of_mem t hu, hn⟩

end

theorem TypeRef.Names.exists_node {t : TypeRef} {n : String} {p : Option String}
    (h : t.Names n p) : ∃ args, .named n args p ∈ t.nodes := by
  induction h with
  | self name args provider => exact ⟨args, List.mem_cons_self⟩
  | arg ht _ ih =>
    obtain ⟨args, hn⟩ := ih
    exact ⟨args, List.mem_cons_of_mem _ (mem_nodesOfList.mpr ⟨_, ht, hn⟩)⟩
  | element _ ih | inner _ ih =>
    obtain ⟨args, hn⟩ := ih
    exact ⟨args, List.mem_cons_of_mem _ hn⟩
  | key _ ih =>
    obtain ⟨args, hn⟩ := ih
    exact ⟨args, List.mem_cons_of_mem _ (List.mem_append_left _ hn)⟩
  | value _ ih | result _ ih =>
    obtain ⟨args, hn⟩ := ih
    exact ⟨args, List.mem_cons_of_mem _ (List.mem_append_right _ hn)⟩
  | param ht _ ih =>
    obtain ⟨args, hn⟩ := ih
    exact ⟨args, List.mem_cons_of_mem _ (List.mem_append_left _ (mem_nodesOfList.mpr ⟨_, ht, hn⟩))⟩

theorem Func.mem_refs {f : Func} {t : TypeRef} : t ∈ f.refs ↔ f.Mentions t := by
  simp only [refs, List.mem_append, List.mem_map, Option.mem_toList]
  constructor
  · rintro ((⟨p, hp, rfl⟩ | ht) | ht)
    · exact .param hp
    · exact .result ht
    · exact .mark ht
  · rintro (hp | ht | ht)
    · exact Or.inl (Or.inl ⟨_, hp, rfl⟩)
    · exact Or.inl (Or.inr ht)
    · exact Or.inr ht

theorem TypeHead.mem_refs {head : TypeHead} {t : TypeRef} : t ∈ head.refs ↔ head.Mentions t := by
  simp only [refs, List.mem_append, List.mem_map, List.mem_filterMap]
  constructor
  · rintro (((ht | ht) | ⟨p, hp, ht⟩) | ⟨p, hp, rfl⟩)
    · exact .supertype ht
    · exact .mark ht
    · exact .bound hp ht
    · exact .property hp
  · rintro (ht | ht | ⟨hp, ht⟩ | hp)
    · exact Or.inl (Or.inl (Or.inl ht))
    · exact Or.inl (Or.inl (Or.inr ht))
    · exact Or.inl (Or.inr ⟨_, hp, ht⟩)
    · exact Or.inr ⟨_, hp, rfl⟩

theorem mem_refUses {u : Use} {enclosing : List TypeHead} {refs : List TypeRef} :
    u ∈ refUses enclosing refs ↔
      u.enclosing = enclosing ∧ ∃ t ∈ refs, t.Names u.name u.provider := by
  simp only [refUses, List.mem_flatMap, List.mem_filterMap]
  constructor
  · rintro ⟨t, ht, node, hnode, huse⟩
    cases node with
    | named name args provider =>
      cases huse
      exact ⟨rfl, t, ht, TypeRef.names_of_mem_nodes t hnode⟩
    | _ => cases huse
  · rintro ⟨rfl, t, ht, hn⟩
    obtain ⟨args, hnode⟩ := hn.exists_node
    exact ⟨t, ht, _, hnode, rfl⟩

theorem Member.mem_usesInList {u : Use} {enclosing : List TypeHead} {members : List Member} :
    u ∈ Member.usesInList enclosing members ↔ ∃ d ∈ members, u ∈ d.uses enclosing :=
  mem_of_cons rfl fun _ _ => rfl

theorem Stands.mono {members more : List Member} {enclosing : List TypeHead} {d : Member}
    (h : Stands members enclosing d) (hsub : members ⊆ more) : Stands more enclosing d := by
  cases h with
  | top h => exact .top (hsub h)
  | inside h hd => exact .inside (hsub h) hd

theorem Refers.mono {members more : List Member} {enclosing : List TypeHead} {t : TypeRef}
    (h : Refers members enclosing t) (hsub : members ⊆ more) : Refers more enclosing t := by
  cases h with
  | field h => exact .field (h.mono hsub)
  | func h ht => exact .func (h.mono hsub) ht
  | type h ht => exact .type (h.mono hsub) ht

/-- What stands in a type of the list stands in the list. -/
theorem Refers.inside {members inner : List Member} {head : TypeHead} {enclosing : List TypeHead}
    {t : TypeRef} (hmem : .type head inner ∈ members) (h : Refers inner enclosing t) :
    Refers members (head :: enclosing) t := by
  cases h with
  | field h => exact .field (.inside hmem h)
  | func h ht => exact .func (.inside hmem h) ht
  | type h ht => exact .type (.inside hmem h) ht

mutual

/-- The uses that a member has are those of references in it. -/
theorem Member.refers_of_mem_uses {u : Use} : ∀ (d : Member) (outer : List TypeHead),
    u ∈ d.uses outer → ∃ enclosing t, u.enclosing = outer ++ enclosing ∧
      Refers [d] enclosing t ∧ t.Names u.name u.provider
  | .field f, outer, h => by
    obtain ⟨henclosing, t, ht, hn⟩ := mem_refUses.mp h
    rw [List.mem_singleton.mp ht] at hn
    exact ⟨[], _, by rw [henclosing, List.append_nil], .field (.top List.mem_cons_self), hn⟩
  | .func f, outer, h => by
    obtain ⟨henclosing, t, ht, hn⟩ := mem_refUses.mp h
    exact ⟨[], t, by rw [henclosing, List.append_nil], .func (.top List.mem_cons_self)
      (Func.mem_refs.mp ht), hn⟩
  | .type head members, outer, h => by
    rw [uses, List.mem_append] at h
    rcases h with h | h
    · obtain ⟨henclosing, t, ht, hn⟩ := mem_refUses.mp h
      exact ⟨[head], t, henclosing, .type (.top List.mem_cons_self) (TypeHead.mem_refs.mp ht), hn⟩
    · obtain ⟨enclosing, t, henclosing, hrefers, hn⟩ := refers_of_mem_usesInList members _ h
      -- inside a type, its head comes first among the enclosing ones
      refine ⟨head :: enclosing, t, ?_, hrefers.inside List.mem_cons_self, hn⟩
      rw [henclosing, List.append_assoc, List.singleton_append]

theorem Member.refers_of_mem_usesInList {u : Use} : ∀ (members : List Member)
    (outer : List TypeHead), u ∈ Member.usesInList outer members →
      ∃ enclosing t, u.enclosing = outer ++ enclosing ∧ Refers members enclosing t ∧
        t.Names u.name u.provider
  | [], _, h => absurd h List.not_mem_nil
  | d :: members, outer, h => by
    rw [usesInList, List.mem_append] at h
    rcases h with h | h
    · obtain ⟨enclosing, t, henclosing, hrefers, hn⟩ := refers_of_mem_uses d outer h
      exact ⟨enclosing, t, henclosing, hrefers.mono (List.cons_subset_cons d (List.nil_subset _)), hn⟩
    · obtain ⟨enclosing, t, henclosing, hrefers, hn⟩ := refers_of_mem_usesInList members outer h
      exact ⟨enclosing, t, henclosing, hrefers.mono (List.subset_cons_self d members), hn⟩

end

/-- What stands at any depth contributes its uses. -/
theorem Stands.uses_subset {members : List Member} {enclosing : List TypeHead} {d : Member}
    (h : Stands members enclosing d) (outer : List TypeHead) :
    d.uses (outer ++ enclosing) ⊆ Member.usesInList outer members := by
  induction h generalizing outer with
  | top hd =>
    rw [List.append_nil]
    exact fun u hu => Member.mem_usesInList.mpr ⟨_, hd, hu⟩
  | @inside members head inner enclosing d hmem _ ih =>
    intro u hu
    -- seen from inside, the type is the last one around
    rw [← List.singleton_append, ← List.append_assoc] at hu
    refine Member.mem_usesInList.mpr ⟨_, hmem, ?_⟩
    rw [Member.uses]
    exact List.mem_append_right _ (ih _ hu)

theorem SourceFile.mem_uses {f : SourceFile} {u : Use} : u ∈ f.uses ↔ f.HasUse u := by
  constructor
  · intro h
    obtain ⟨enclosing, t, henclosing, hrefers, hn⟩ := Member.refers_of_mem_usesInList f.members [] h
    rw [List.nil_append] at henclosing
    exact ⟨t, henclosing ▸ hrefers, hn⟩
  · obtain ⟨enclosing, name, provider⟩ := u
    rintro ⟨t, hrefers, hn⟩
    cases hrefers with
    | field h =>
      exact h.uses_subset [] (mem_refUses.mpr ⟨rfl, _, List.mem_cons_self, hn⟩)
    | func h ht =>
      exact h.uses_subset [] (mem_refUses.mpr ⟨rfl, t, Func.mem_refs.mpr ht, hn⟩)
    | type h ht =>
      refine h.uses_subset [] ?_
      rw [Member.uses]
      exact List.mem_append_left _ (mem_refUses.mpr ⟨rfl, t, TypeHead.mem_refs.mpr ht, hn⟩)

/-! ### The check finds the first use that is not resolved -/

def paramsOf (enclosing : List TypeHead) : List String :=
  enclosing.flatMap fun head => head.typeParams.map (·.name)

def Use.isKnown (known : String → Bool) (u : Use) : Bool :=
  u.provider.isSome || (known u.name || (paramsOf u.enclosing).contains u.name)

variable {known : String → Bool}

/-- The first unknown name of a reference is that of its first use that is not known. -/
theorem findSome?_unknown {scope : List String} {enclosing : List TypeHead}
    (hscope : scope = paramsOf enclosing) (nodes : List TypeRef) :
    nodes.findSome? (·.unknown? fun n => known n || scope.contains n) =
      ((nodes.filterMap (·.use? enclosing)).find? (!·.isKnown known)).map (·.name) := by
  subst hscope
  induction nodes with
  | nil => rfl
  | cons node nodes ih =>
    cases node with
    | named name args provider =>
      have huse : (TypeRef.named name args provider).use? enclosing =
          some ⟨enclosing, name, provider⟩ := rfl
      rw [List.filterMap_cons_some huse]
      cases provider with
      | some p =>
        -- an import makes the use known, and the check passes over it
        exact ih
      | none =>
        have hknown : Use.isKnown known ⟨enclosing, name, none⟩ =
            (known name || (paramsOf enclosing).contains name) := rfl
        by_cases h : (known name || (paramsOf enclosing).contains name) = true
        · rw [List.find?_cons_of_neg (by rw [hknown, h]; decide), List.findSome?_cons,
            TypeRef.unknown?, if_pos h]
          exact ih
        · rw [List.find?_cons_of_pos (by rw [hknown, eq_false_of_ne_true h]; rfl),
            List.findSome?_cons, TypeRef.unknown?, if_neg h]
          rfl
    | _ => exact ih

theorem unresolvedRefs?_eq {scope : List String} {enclosing : List TypeHead}
    (hscope : scope = paramsOf enclosing) (context : String) (refs : List TypeRef) :
    unresolvedRefs? (fun n => known n || scope.contains n) context refs =
      ((refUses enclosing refs).find? (!·.isKnown known)).map (⟨·.name, context⟩) := by
  induction refs with
  | nil => rfl
  | cons t refs ih =>
    rw [refUses, List.flatMap_cons, List.find?_append, ← refUses, Option.map_or, ← ih]
    rw [unresolvedRefs?, List.findSome?_cons, findSome?_unknown hscope]
    cases ((t.nodes.filterMap (·.use? enclosing)).find? (!·.isKnown known)) <;> rfl

/-- All uses in these references stand in the same types. -/
theorem map_find?_refUses (context : String) (enclosing : List TypeHead) (refs : List TypeRef) :
    ((refUses enclosing refs).find? (!·.isKnown known)).map
        (fun u => (⟨u.name, contextOf context enclosing⟩ : Unresolved)) =
      ((refUses enclosing refs).find? (!·.isKnown known)).map (·.report context) := by
  apply Option.map_congr
  intro u hu
  rw [Use.report, (mem_refUses.mp (List.mem_of_find?_eq_some hu)).1]

mutual

theorem Member.unresolved?_eq : ∀ (d : Member) (enclosing : List TypeHead) (context : String),
    d.unresolved? known (paramsOf enclosing) (contextOf context enclosing) =
      ((d.uses enclosing).find? (!·.isKnown known)).map (·.report context)
  | .field f, enclosing, context => by
    rw [unresolved?, unresolvedRefs?_eq rfl, uses]
    exact map_find?_refUses context enclosing _
  | .func f, enclosing, context => by
    rw [unresolved?, unresolvedRefs?_eq rfl, uses]
    exact map_find?_refUses context enclosing _
  | .type head members, enclosing, context => by
    -- the type joins those around its members, and errors in it are reported under its name
    have hscope : paramsOf enclosing ++ head.typeParams.map (·.name) =
        paramsOf (enclosing ++ [head]) := by
      simp [paramsOf]
    have hcontext : head.name = contextOf context (enclosing ++ [head]) := by
      simp [contextOf]
    rw [unresolved?, hscope, uses, List.find?_append, Option.map_or, hcontext,
      unresolvedRefs?_eq rfl, map_find?_refUses, unresolvedInList?_eq members]

theorem Member.unresolvedInList?_eq : ∀ (members : List Member) (enclosing : List TypeHead)
    (context : String),
    Member.unresolvedInList? known (paramsOf enclosing) (contextOf context enclosing) members =
      ((Member.usesInList enclosing members).find? (!·.isKnown known)).map (·.report context)
  | [], _, _ => rfl
  | d :: members, enclosing, context => by
    rw [unresolvedInList?, unresolved?_eq d, unresolvedInList?_eq members, usesInList,
      List.find?_append, Option.map_or]

end

theorem mem_paramsOf {name : String} {enclosing : List TypeHead} :
    name ∈ paramsOf enclosing ↔ ∃ head ∈ enclosing, name ∈ head.typeParams.map (·.name) :=
  List.mem_flatMap

mutual

theorem Member.exists_stands_of_mem_declared {n : String} : ∀ d : Member, n ∈ d.declared →
    ∃ enclosing head inner, Stands [d] enclosing (.type head inner) ∧ head.name = n
  | .field _, h => absurd h List.not_mem_nil
  | .func _, h => absurd h List.not_mem_nil
  | .type head members, h => by
    rw [declared, List.mem_cons] at h
    rcases h with rfl | h
    · exact ⟨[], head, members, .top List.mem_cons_self, rfl⟩
    · obtain ⟨enclosing, head', inner, hd, rfl⟩ := exists_stands_of_mem_declaredInList members h
      exact ⟨head :: enclosing, head', inner, .inside List.mem_cons_self hd, rfl⟩

theorem Member.exists_stands_of_mem_declaredInList {n : String} : ∀ members : List Member,
    n ∈ Member.declaredInList members →
      ∃ enclosing head inner, Stands members enclosing (.type head inner) ∧ head.name = n
  | [], h => absurd h List.not_mem_nil
  | d :: members, h => by
    rw [declaredInList, List.mem_append] at h
    rcases h with h | h
    · obtain ⟨enclosing, head, inner, hd, rfl⟩ := exists_stands_of_mem_declared d h
      exact ⟨enclosing, head, inner, hd.mono (List.cons_subset_cons d (List.nil_subset _)), rfl⟩
    · obtain ⟨enclosing, head, inner, hd, rfl⟩ := exists_stands_of_mem_declaredInList members h
      exact ⟨enclosing, head, inner, hd.mono (List.subset_cons_self d members), rfl⟩

end

theorem Stands.declared_subset {members : List Member} {enclosing : List TypeHead} {d : Member}
    (h : Stands members enclosing d) : d.declared ⊆ Member.declaredInList members := by
  induction h with
  | top hd => exact fun n hn => Member.mem_declaredInList.mpr ⟨_, hd, hn⟩
  | inside hmem _ ih =>
    intro n hn
    refine Member.mem_declaredInList.mpr ⟨_, hmem, ?_⟩
    rw [Member.declared]
    exact List.mem_cons_of_mem _ (ih hn)

theorem SourceFile.declares_iff {f : SourceFile} {n : String} :
    f.Declares n ↔ n ∈ Member.declaredInList f.members := by
  constructor
  · rintro ⟨enclosing, head, inner, hd, rfl⟩
    exact hd.declared_subset (Member.name_mem_declared head inner)
  · exact Member.exists_stands_of_mem_declaredInList f.members

section Verdict

variable {lang : Lang} {indent : Nat} {f : SourceFile} {u : Use}

theorem Use.isKnown_iff :
    u.isKnown (fun n => (Member.declaredInList f.members).contains n || lang.isBuiltin n) = true ↔
      u.Resolved lang f := by
  simp only [isKnown, Bool.or_eq_true, List.contains_iff_mem, Option.isSome_iff_exists,
    mem_paramsOf, ← SourceFile.declares_iff]
  constructor
  · rintro (⟨p, hp⟩ | (hd | hb) | ⟨head, hhead, hn⟩)
    · exact .imported hp
    · exact .declared hd
    · exact .builtin hb
    · exact .param hhead hn
  · intro h
    cases h with
    | imported h => exact Or.inl ⟨_, h⟩
    | declared h => exact Or.inr (Or.inl (Or.inl h))
    | param hhead h => exact Or.inr (Or.inr ⟨_, hhead, h⟩)
    | builtin h => exact Or.inr (Or.inl (Or.inr h))

/-- The check looks for the first use that nothing provides. -/
theorem SourceFile.unresolved?_eq (lang : Lang) (f : SourceFile) :
    f.unresolved? lang.isBuiltin =
      (f.uses.find? (!·.isKnown fun n =>
        (Member.declaredInList f.members).contains n || lang.isBuiltin n)).map
          (·.report f.name) :=
  Member.unresolvedInList?_eq f.members [] f.name

theorem SourceFile.unresolved?_eq_none_iff :
    f.unresolved? lang.isBuiltin = none ↔ ∀ u ∈ f.uses, u.Resolved lang f := by
  simp only [unresolved?_eq, Option.map_eq_none_iff, List.find?_eq_none, Bool.not_eq_true',
    Bool.not_eq_false, Use.isKnown_iff]

theorem SourceFile.unresolved?_eq_some_iff {r : Unresolved} :
    f.unresolved? lang.isBuiltin = some r ↔
      ∃ before u after, f.uses = before ++ u :: after ∧ (∀ v ∈ before, v.Resolved lang f) ∧
        ¬ u.Resolved lang f ∧ r = u.report f.name := by
  simp only [unresolved?_eq, Option.map_eq_some_iff, List.find?_eq_some_iff_append,
    Bool.not_eq_true', ← Use.isKnown_iff, Bool.not_eq_true, Bool.not_not]
  constructor
  · rintro ⟨u, ⟨hu, before, after, huses, hbefore⟩, rfl⟩
    exact ⟨before, u, after, huses, hbefore, hu, rfl⟩
  · rintro ⟨before, u, after, huses, hbefore, hu, rfl⟩
    exact ⟨u, ⟨hu, before, after, huses, hbefore⟩, rfl⟩

theorem renderFile_eq_error {r : Unresolved} :
    Layout.renderFile lang indent f = .error r ↔ f.unresolved? lang.isBuiltin = some r := by
  unfold Layout.renderFile
  cases f.unresolved? lang.isBuiltin <;> simp

theorem exists_renderFile_eq_ok :
    (∃ text, Layout.renderFile lang indent f = .ok text) ↔
      f.unresolved? lang.isBuiltin = none := by
  unfold Layout.renderFile
  cases f.unresolved? lang.isBuiltin <;> simp

/-- A file is refused exactly if it has a use that nothing provides: no import, no type declared
anywhere in the file, no type parameter of a type around the use, and not the language. The first
such use, in the order of the file, is reported. All other files are written out. -/
theorem renderFile_verdict (lang : Lang) (indent : Nat) (f : SourceFile) :
    ((∃ r, Layout.renderFile lang indent f = .error r) ↔ ∃ u, f.HasUse u ∧ ¬ u.Resolved lang f) ∧
    ((∃ text, Layout.renderFile lang indent f = .ok text) ↔
      ∀ u, f.HasUse u → u.Resolved lang f) ∧
    (∀ u, u ∈ f.uses ↔ f.HasUse u) ∧
    ∀ r, Layout.renderFile lang indent f = .error r ↔
      ∃ before u after, f.uses = before ++ u :: after ∧ (∀ v ∈ before, v.Resolved lang f) ∧
        ¬ u.Resolved lang f ∧ r = u.report f.name := by
  have hall : f.unresolved? lang.isBuiltin = none ↔ ∀ u, f.HasUse u → u.Resolved lang f := by
    simp only [SourceFile.unresolved?_eq_none_iff, SourceFile.mem_uses]
  refine ⟨?_, exists_renderFile_eq_ok.trans hall, fun u => SourceFile.mem_uses, fun r => ?_⟩
  · simp only [renderFile_eq_error, ← Option.isSome_iff_exists, ← Option.ne_none_iff_isSome]
    simp only [ne_eq, hall, not_forall, exists_prop]
  · rw [renderFile_eq_error, SourceFile.unresolved?_eq_some_iff]

/-- A type parameter is known in its own type, and not in the declaration behind it. -/
example :
    Layout.renderFile .swift 4
      ⟨"demo.swift", none, none, [],
        [.type { TypeHead.plain .object "Box" with typeParams := [⟨"T", none⟩] }
          [.field (.plain "item" (.plain "T"))],
         .field (.plain "last" (.array (.plain "T")))]⟩ = .error ⟨"T", "demo.swift"⟩ := by
  rfl

end Verdict

end HostBindings.Code
