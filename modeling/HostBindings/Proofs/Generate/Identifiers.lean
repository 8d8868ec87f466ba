import HostBindings.Proofs.Generate.Made
import HostBindings.Proofs.Generate.Outcome

/-!
Identifiers of generated files: the names of functions, of parameters and of the properties of
records. Host names are made legal by escaping, unless a native name has a digit behind leading
underscores, which camel case drops; properties keep the names of the fields as they are, reserved
or not.
-/

namespace HostBindings

open HostBindings.Code

/-! ### Legal names -/

/-- A name that may be declared: it has a first character, which is no digit, and is no bare
reserved word. -/
structure Legal (lang : Lang) (name : String) : Prop where
  nonempty : name ≠ ""
  start : name.toList.head?.any Char.isDigit = false
  unreserved : name ∉ lang.keywords

theorem legal_iff {lang : Lang} {name : String} :
    Legal lang name ↔
      name ≠ "" ∧ name.toList.head?.any Char.isDigit = false ∧ name ∉ lang.keywords :=
  ⟨fun h => ⟨h.nonempty, h.start, h.unreserved⟩, fun ⟨hne, hstart, hfree⟩ => ⟨hne, hstart, hfree⟩⟩

instance (lang : Lang) : DecidablePred (Legal lang) :=
  fun _ => decidable_of_iff' _ legal_iff

def IsIdentifier (name : String) : Prop :=
  Settings.isIdentifier name.toList = true ∧ name.toList.any (· != '_') = true

instance : DecidablePred IsIdentifier :=
  fun _ => inferInstanceAs (Decidable (_ ∧ _))

def StartsPlain (name : String) : Prop :=
  (name.toList.find? (· != '_')).any Char.isDigit = false

instance : DecidablePred StartsPlain :=
  fun _ => inferInstanceAs (Decidable (_ = _))

namespace Naming

/-- Camel case begins with the first character that is no underscore, as it is. -/
theorem head?_camelFrom (cs : List Char) :
    (camelFrom false false cs).head? = cs.find? (· != '_') := by
  induction cs with
  | nil => rfl
  | cons c cs ih =>
    unfold camelFrom
    split
    · rename_i hc
      rw [List.find?_cons_of_neg (by simp [hc]), ih]
    · rename_i hc
      rw [List.find?_cons_of_pos (by simpa using hc)]
      rfl

theorem head?_camelCase (name : String) :
    (camelCase name).toList.head? = name.toList.find? (· != '_') := by
  rw [camelCase, String.toList_ofList, head?_camelFrom]

end Naming

section Names

variable {lang : Lang} {name : String}

/-- No reserved word begins with a digit or has an underscore. -/
theorem keywords_plain (lang : Lang) : ∀ k ∈ lang.keywords,
    k.toList.head?.any Char.isDigit = false ∧ '_' ∉ k.toList := by
  cases lang <;> decide

theorem legal_append {front : String} (hne : front ≠ "")
    (hstart : front.toList.head?.any Char.isDigit = false) (hmem : '_' ∈ front.toList)
    (rest : String) : Legal lang (front ++ rest) where
  nonempty := fun h => hne (String.append_eq_empty_iff.mp h).1
  start := by
    cases hhead : front.toList.head? with
    | none => exact absurd (String.toList_eq_nil_iff.mp (List.head?_eq_none_iff.mp hhead)) hne
    | some c => rwa [Naming.head?_append front rest hhead, ← hhead]
  unreserved := fun h =>
    (keywords_plain lang _ h).2 (Naming.underscore_mem_append front rest hmem)

/-- A host name is legal if it does not lose what keeps a digit from being the first. -/
theorem legal_hostName (h : IsIdentifier name) :
    Legal lang (lang.hostName name) ↔ StartsPlain name := by
  have hhead := Naming.head?_camelCase name
  refine ⟨fun hl => ?_, fun hplain => ⟨?_, ?_, hostName_notMem_keywords lang name⟩⟩
  · by_cases hk : Naming.camelCase name ∈ lang.keywords
    · rw [StartsPlain, ← hhead]
      exact (keywords_plain lang _ hk).1
    · have hstart := hl.start
      rwa [Lang.hostName, Naming.escapeKeyword, if_neg hk, hhead] at hstart
  · -- some character is no underscore and stays
    have hsome : (name.toList.find? (· != '_')).isSome = true := by
      rw [List.find?_isSome]
      simpa using h.2
    intro hempty
    unfold Lang.hostName Naming.escapeKeyword at hempty
    split at hempty
    · have hlength := congrArg String.length hempty
      simp at hlength
    · rw [← hhead, hempty] at hsome
      exact absurd hsome (by decide)
  · unfold Lang.hostName Naming.escapeKeyword
    split
    · rw [String.append_assoc, Naming.head?_append "`" _ (show "`".toList.head? = some '`' by rfl)]
      rfl
    · rwa [hhead]

theorem isDigit_of_isIdentifierStart {c : Char} (h : Settings.isIdentifierStart c = true) :
    c.isDigit = false := by
  change (decide (c.val ≥ 'A'.val ∧ c.val ≤ 'Z'.val) ||
    (decide (c.val ≥ 'a'.val) && decide (c.val ≤ 'z'.val)) || c == '_') = true at h
  simp only [Bool.or_eq_true, Bool.and_eq_true, decide_eq_true_eq, beq_iff_eq, ge_iff_le,
    UInt32.le_iff_toNat_le] at h
  simp only [Char.isDigit, Bool.and_eq_false_iff, decide_eq_false_iff_not, UInt32.le_iff_toNat_le]
  rcases h with h | rfl
  · right
    have hcodes : 'A'.val.toNat = 65 ∧ 'a'.val.toNat = 97 ∧ '9'.val.toNat = 57 := by decide
    omega
  · decide

/-- A name that stays as it is is legal unless it is reserved. -/
theorem legal_of_isIdentifier (h : IsIdentifier name) : Legal lang name ↔ name ∉ lang.keywords := by
  refine ⟨fun hl => hl.unreserved, fun hfree => ⟨?_, ?_, hfree⟩⟩
  · rintro rfl
    exact absurd h.1 (by decide)
  · have hstart := h.1
    cases hchars : name.toList with
    | nil => rfl
    | cons c cs =>
      rw [hchars, Settings.isIdentifier, Bool.and_eq_true] at hstart
      exact isDigit_of_isIdentifierStart hstart.1

end Names

structure Catalog.HasIdentifiers (c : Catalog) : Prop where
  methods : ∀ i ∈ c.interfaces, ∀ m ∈ i.methods, IsIdentifier m.name
  arguments : ∀ i ∈ c.interfaces, ∀ m ∈ i.methods, ∀ slot ∈ m.params, IsIdentifier slot.name
  fields : ∀ r ∈ c.records, ∀ slot ∈ r.fields, IsIdentifier slot.name

theorem Catalog.hasIdentifiers_iff {c : Catalog} :
    c.HasIdentifiers ↔ (∀ i ∈ c.interfaces, ∀ m ∈ i.methods, IsIdentifier m.name) ∧
      (∀ i ∈ c.interfaces, ∀ m ∈ i.methods, ∀ slot ∈ m.params, IsIdentifier slot.name) ∧
      ∀ r ∈ c.records, ∀ slot ∈ r.fields, IsIdentifier slot.name :=
  ⟨fun h => ⟨h.methods, h.arguments, h.fields⟩, fun ⟨hm, ha, hf⟩ => ⟨hm, ha, hf⟩⟩

instance : DecidablePred Catalog.HasIdentifiers :=
  fun _ => decidable_of_iff' _ Catalog.hasIdentifiers_iff

/-- No name of a catalog loses what makes it legal: methods and passed arguments have no digit
behind leading underscores, fields are not reserved. -/
structure KeepsLegal (lang : Lang) (c : Catalog) : Prop where
  methods : ∀ i ∈ c.interfaces, ∀ m ∈ i.methods, StartsPlain m.name
  arguments : ∀ i ∈ c.interfaces, ∀ m ∈ i.methods, ∀ slot ∈ m.passed, StartsPlain slot.name
  fields : ∀ r ∈ c.records, ∀ slot ∈ r.fields, slot.name ∉ lang.keywords

theorem keepsLegal_iff {lang : Lang} {c : Catalog} :
    KeepsLegal lang c ↔ (∀ i ∈ c.interfaces, ∀ m ∈ i.methods, StartsPlain m.name) ∧
      (∀ i ∈ c.interfaces, ∀ m ∈ i.methods, ∀ slot ∈ m.passed, StartsPlain slot.name) ∧
      ∀ r ∈ c.records, ∀ slot ∈ r.fields, slot.name ∉ lang.keywords :=
  ⟨fun h => ⟨h.methods, h.arguments, h.fields⟩, fun ⟨hm, ha, hf⟩ => ⟨hm, ha, hf⟩⟩

instance (lang : Lang) : DecidablePred (KeepsLegal lang) :=
  fun _ => decidable_of_iff' _ keepsLegal_iff

/-! ### Names that a file declares -/

namespace Code

/-- The name of a function and those of its parameters. Constructors, finalizers and loaders have no
names of their own. -/
def Func.identifiers (fn : Func) : List String :=
  (if fn.kind = .function then [fn.name] else []) ++ fn.params.map (·.name)

def Field.identifiers (fld : Field) : List String :=
  match fld.initializer with
  | some (.closure params _) => params
  | _ => []

def TypeHead.identifiers (lang : Lang) (head : TypeHead) : List String :=
  (if head.kind = .record then head.properties.map (·.name) else []) ++
    (lang.impliedConstructor? head).toList.flatMap Func.identifiers

mutual

def Member.identifiers (lang : Lang) : Member → List String
  | .field fld => fld.identifiers
  | .func fn => fn.identifiers
  | .type head members => head.identifiers lang ++ Member.identifiersOfList lang members

def Member.identifiersOfList (lang : Lang) : List Member → List String
  | [] => []
  | m :: ms => m.identifiers lang ++ Member.identifiersOfList lang ms

end

theorem Member.mem_identifiersOfList {lang : Lang} {n : String} {members : List Member} :
    n ∈ Member.identifiersOfList lang members ↔ ∃ d ∈ members, n ∈ d.identifiers lang :=
  mem_of_cons rfl fun _ _ => rfl

end Code

namespace Generate

def methodNames (lang : Lang) (m : Method) : List String :=
  lang.hostName m.name :: m.passed.map fun slot => lang.hostName slot.name

variable {c : Catalog} {s : Settings} {lang : Lang} {ctx : Context}

/-! ### Single members -/

theorem identifiers_hostFunc (m : Method) (modifiers : List Modifier) (body : Option Block) :
    (Member.func { hostFunc lang m with modifiers, body }).identifiers lang =
      methodNames lang m := by
  show [lang.hostName m.name] ++ (hostParams lang m).map (·.name) = _
  rw [hostParams_names]
  rfl

theorem identifiers_declared (m : Method) :
    (Member.func (hostFunc lang m)).identifiers lang = methodNames lang m :=
  identifiers_hostFunc m [] none

/-- A type declares its properties only, once more for the constructor that sets them. -/
theorem mem_identifiers_head {head : TypeHead} {n : String} (h : n ∈ head.identifiers lang) :
    n ∈ head.properties.map (·.name) := by
  rcases List.mem_append.mp h with h | h
  · split at h
    · exact h
    · exact absurd h List.not_mem_nil
  · obtain ⟨fn, hfn, hn⟩ := List.mem_flatMap.mp h
    cases lang with
    | kotlin => exact absurd hfn List.not_mem_nil
    | swift =>
      rw [Option.mem_toList, Lang.impliedConstructor?, Swift.implied?] at hfn
      split at hfn
      · obtain rfl := Option.some.inj hfn
        simpa [Func.identifiers, Function.comp_def, Param.plain] using hn
      · cases hfn

theorem properties_recordType (lang : Lang) (r : Record) :
    (recordType lang r).head.properties.map (·.name) =
      (r.fields.filter fun slot => !slot.type.isVoid).map (·.name) := by
  cases lang <;> exact List.map_map

theorem legal_registryType (lang : Lang) :
    ∀ n ∈ lang.registryType.identifiers lang, Legal lang n := by
  cases lang <;> decide

theorem identifiers_registryField (lang : Lang) (callback : String) :
    (lang.registryField callback).identifiers = [] := by
  cases lang <;> rfl

theorem identifiers_loader {fn : Func} (h : lang.loader? ctx = some fn) : fn.identifiers = [] := by
  cases lang with
  | swift => cases h
  | kotlin =>
    cases h
    rfl

theorem legal_proxyRelease {item : Item} {d : Member} (h : d ∈ lang.proxyRelease item) :
    ∀ n ∈ d.identifiers lang, Legal lang n := by
  cases lang with
  | swift =>
    rw [List.mem_singleton.mp h]
    exact fun n hn => absurd hn List.not_mem_nil
  | kotlin =>
    rcases List.mem_cons.mp h with rfl | h
    · exact fun n hn => absurd hn List.not_mem_nil
    · rw [List.mem_singleton.mp h]
      show ∀ n ∈ ["close"], Legal .kotlin n
      decide

/-- The names under which handles are passed and held. -/
theorem legal_handles (lang : Lang) :
    ∀ n ∈ ["handle", callbackHandle, nativeHandle], Legal lang n := by
  cases lang <;> decide

/-- A trampoline has the names of its parameters, and in Kotlin a name of its own. -/
theorem mem_identifiers_trampoline {name n : String} {params : List Param}
    {returns : Option TypeRef} {body : Block}
    (h : n ∈ (lang.trampoline name params returns body).identifiers lang) :
    n = name ∨ n ∈ params.map (·.name) := by
  cases lang with
  | swift => exact Or.inr h
  | kotlin => exact List.mem_cons.mp h

/-- Native functions are declared in Kotlin only, under names that begin alike. -/
theorem mem_identifiers_native {symbol : Symbol} {visibility : Modifier} {params : List Param}
    {returns : Option TypeRef} {fn : Func} {n : String}
    (h : lang.nativeDeclaration? (lang.symbolName ctx.scope symbol) visibility params returns =
      some fn) (hn : n ∈ fn.identifiers) :
    (∃ rest, n = "native_" ++ rest) ∨ n ∈ params.map (·.name) := by
  cases lang with
  | swift => cases h
  | kotlin =>
    cases h
    refine (List.mem_cons.mp hn).imp_left fun heq => ?_
    show ∃ rest, n = "native_" ++ rest
    rw [heq]
    show ∃ rest, Kotlin.symbolName symbol = "native_" ++ rest
    cases symbol with
    | method name => exact ⟨name, rfl⟩
    | callbackMethod callback method =>
      exact ⟨callback ++ "_" ++ method, by simp only [Kotlin.symbolName, String.append_assoc]⟩
    | callbackRelease callback =>
      exact ⟨callback ++ "_free", by simp only [Kotlin.symbolName, String.append_assoc]⟩
    | releaseText => exact ⟨"free_str", rfl⟩
    | releaseBytes => exact ⟨"free_bytes", rfl⟩

/-! ### All members -/

section Members

variable
  (hmethods : ∀ i ∈ c.interfaces, ∀ m ∈ i.methods, ∀ n ∈ methodNames s.lang m, Legal s.lang n)

include hmethods

/-- The parameters of a function on the boundary carry a handle or arguments of a method. -/
theorem legal_wireParams {a r : Position} {i : Interface} {m : Method} {p : CallPlan}
    (hi : i ∈ c.interfaces) (hm : m ∈ i.methods)
    (hplan : Marshal.planMethod s.lang.ownership a r m = .ok p) :
    ∀ n ∈ (wireParams s.lang ctx p).map (·.name), Legal s.lang n := by
  rw [wireParams_names hplan]
  exact fun n hn => hmethods i hi m hm n (List.mem_cons_of_mem _ hn)

/-- If methods and fields have legal names, all names of a file are legal. -/
theorem legal_of_made (hfields : ∀ r ∈ c.records, ∀ slot ∈ r.fields, Legal s.lang slot.name)
    {d : Member} (h : Made c s d) : ∀ n ∈ d.identifiers s.lang, Legal s.lang n := by
  -- a fixed beginning without digits and keywords makes every name legal that it begins
  have hnative : ∀ rest, Legal s.lang ("native_" ++ rest) :=
    legal_append (by decide) (by decide) (by decide)
  have hhandle := legal_handles s.lang
  -- one case for each kind of member that is generated
  induction h with
  | registryType => exact legal_registryType s.lang
  | registry hi =>
    intro n hn
    rw [Member.identifiers, identifiers_registryField] at hn
    exact absurd hn List.not_mem_nil
  | declared hi hm =>
    intro n hn
    rw [identifiers_declared] at hn
    exact hmethods _ (Catalog.mem_callbacks.mp hi).1 _ hm n hn
  | called hk hi hm hplan hsymbol hleading hbody =>
    intro n hn
    rw [identifiers_hostFunc] at hn
    exact hmethods _ hi _ hm n hn
  | @trampoline k j m p body hk hj hm hplan hbody =>
    intro n hn
    rcases mem_identifiers_trampoline hn with rfl | hn
    · rw [Naming.trampolineName, String.append_assoc, String.append_assoc]
      exact legal_append (by decide) (by decide) (by decide) _
    · rcases List.mem_cons.mp hn with rfl | hn
      · exact hhandle _ (by simp [handleParam, Param.plain])
      · exact legal_wireParams hmethods (Catalog.mem_callbacks.mp hj).1 hm hplan n hn
  | releaseTrampoline hj =>
    intro n hn
    rcases mem_identifiers_trampoline hn with rfl | hn
    · exact legal_append (by decide) (by decide) (by decide) _
    · have hname : n = callbackHandle := List.mem_singleton.mp hn
      exact hhandle n (by simp [hname])
  | loader hk hfn =>
    intro n hn
    rw [Member.identifiers, identifiers_loader hfn] at hn
    exact absurd hn List.not_mem_nil
  | native hk hi hm hplan hsymbol hleading hfn =>
    intro n hn
    rcases mem_identifiers_native hfn hn with ⟨rest, rfl⟩ | hn
    · exact hnative rest
    · rw [List.map_append, List.mem_append] at hn
      rcases hn with hn | hn
      · obtain ⟨param, hparam, rfl⟩ := List.mem_map.mp hn
        rw [List.mem_singleton.mp (hleading hparam)]
        exact hhandle _ (by simp [handleParam, Param.plain])
      · exact legal_wireParams hmethods hi hm hplan n hn
  | releaseDecl hk hj hfn =>
    intro n hn
    rcases mem_identifiers_native hfn hn with ⟨rest, rfl⟩ | hn
    · exact hnative rest
    · exact hhandle n (by simpa [handleParam, Param.plain] using Or.inl (List.mem_singleton.mp hn))
  | proxyRelease hk hj hd => exact legal_proxyRelease hd
  | type hhead hmembers ih =>
    intro n hn
    rw [Member.identifiers, List.mem_append, Member.mem_identifiersOfList] at hn
    rcases hn with hn | ⟨d, hd, hn⟩
    · have hproperty := mem_identifiers_head hn
      cases hhead with
      | record hr =>
        rw [properties_recordType] at hproperty
        obtain ⟨slot, hslot, rfl⟩ := List.mem_map.mp hproperty
        exact hfields _ hr slot (List.mem_of_mem_filter hslot)
      | interface hi => exact absurd hproperty List.not_mem_nil
      | service hi => exact absurd hproperty List.not_mem_nil
      | proxy hj =>
        obtain rfl : n = nativeHandle := List.mem_singleton.mp hproperty
        exact hhandle _ (by simp)
    · exact ih d hd n hn

end Members

/-- The methods of all interfaces, and the fields of all records, are named in the file. -/
theorem mem_identifiers_file {f : SourceFile} (hc : c.Valid) (hf : file c s = .ok f) :
    (∀ i ∈ c.interfaces, ∀ m ∈ i.methods, ∀ n ∈ methodNames s.lang m,
      ∃ d ∈ f.members, n ∈ d.identifiers s.lang) ∧
    ∀ r ∈ c.records, ∀ slot ∈ r.fields, ∃ d ∈ f.members, slot.name ∈ d.identifiers s.lang := by
  -- a method is declared by its callback interface, or as a host function of its service
  refine ⟨fun i hi m hm n hn => ?_, fun r hr slot hslot => ?_⟩
  · cases hcallback : i.isCallback with
    | true =>
      have hi : i ∈ c.callbacks := Catalog.mem_callbacks.mpr ⟨hi, hcallback⟩
      refine ⟨_, (mem_members hf).mpr (Or.inr (Or.inr (Or.inl ⟨i, hi, rfl⟩))), ?_⟩
      refine List.mem_append_right _
        (Member.mem_identifiersOfList.mpr ⟨_, List.mem_map_of_mem hm, ?_⟩)
      rw [identifiers_declared]
      exact hn
    | false =>
      have hi : i ∈ c.services := Catalog.mem_services.mpr ⟨hi, hcallback⟩
      obtain ⟨proxies, funcs, taken, made, hs⟩ := exists_hasService hf hi
      refine ⟨_, service_mem_members hf hs, ?_⟩
      obtain ⟨r, hr, hok⟩ := forall₂_exists_right hs.parts.methods hm
      obtain ⟨p, body, _, _, rfl⟩ := serviceMethod_eq_ok.mp hok
      refine List.mem_append_right _ (Member.mem_identifiersOfList.mpr
        ⟨_, mem_serviceMembers_of_method hr, ?_⟩)
      rw [identifiers_hostFunc]
      exact hn
  · refine ⟨_, (mem_members hf).mpr (Or.inr (Or.inl ⟨r, hr, rfl⟩)), ?_⟩
    have hkind : (recordType s.lang r).head.kind = .record := by
      cases s.lang <;> rfl
    apply List.mem_append_left
    apply List.mem_append_left
    rw [if_pos hkind, properties_recordType]
    have hvalue : (!slot.type.isVoid) = true := by
      rw [(hc.field_value r hr slot hslot).1]
      rfl
    exact List.mem_map_of_mem (List.mem_filter.mpr ⟨hslot, hvalue⟩)

/-- With identifiers as native names, the names that a file declares are legal exactly if no method
and no argument has a digit behind underscores at its beginning, and no field a reserved name. -/
theorem identifiers_legal {a : Artifact} (hnames : c.HasIdentifiers) (h : artifact c s = .ok a) :
    ∃ f, file c s = .ok f ∧ Layout.renderFile s.lang s.indent f = .ok a.contents ∧
      ((∀ d ∈ f.members, ∀ n ∈ d.identifiers s.lang, Legal s.lang n) ↔ KeepsLegal s.lang c) := by
  obtain ⟨hc, _, f, hf, hcontents⟩ := artifact_eq_ok h
  refine ⟨f, hf, hcontents, fun hall => ?_, fun hkeeps d hd => ?_⟩
  · -- every name of the catalog becomes an identifier of some member
    obtain ⟨hmethods, hfields⟩ := mem_identifiers_file hc hf
    have hlegal : ∀ i ∈ c.interfaces, ∀ m ∈ i.methods, ∀ n ∈ methodNames s.lang m,
        Legal s.lang n := by
      intro i hi m hm n hn
      obtain ⟨d, hd, hmem⟩ := hmethods i hi m hm n hn
      exact hall d hd n hmem
    refine ⟨fun i hi m hm => ?_, fun i hi m hm slot hslot => ?_, fun r hr slot hslot => ?_⟩
    · exact (legal_hostName (hnames.methods i hi m hm)).mp
        (hlegal i hi m hm _ List.mem_cons_self)
    · have hargument := hnames.arguments i hi m hm slot (Method.mem_params_of_mem_passed hslot)
      exact (legal_hostName hargument).mp
        (hlegal i hi m hm _ (List.mem_cons_of_mem _ (List.mem_map_of_mem hslot)))
    · obtain ⟨d, hd, hmem⟩ := hfields r hr slot hslot
      exact (hall d hd _ hmem).unreserved
  · -- every identifier of a member is one of them, or fixed
    refine legal_of_made (fun i hi m hm n hn => ?_) (fun r hr slot hslot => ?_)
      (made_members hf d hd)
    · rcases List.mem_cons.mp hn with rfl | hn
      · exact (legal_hostName (hnames.methods i hi m hm)).mpr (hkeeps.methods i hi m hm)
      · obtain ⟨slot, hslot, rfl⟩ := List.mem_map.mp hn
        have hargument := hnames.arguments i hi m hm slot (Method.mem_params_of_mem_passed hslot)
        exact (legal_hostName hargument).mpr (hkeeps.arguments i hi m hm slot hslot)
    · exact (legal_of_isIdentifier (hnames.fields r hr slot hslot)).mpr
        (hkeeps.fields r hr slot hslot)

def namedCatalog (method field : String) : Catalog where
  interfaces :=
    [⟨"Tank", "lib", "lib", false,
      [⟨method, .single (.record "Gauge"), "Gauge", [⟨"class", .single .string, "String"⟩]⟩]⟩]
  records := [⟨"Gauge", "lib", "lib", [⟨field, .single (.numeric .int), "i32"⟩]⟩]

def namedSettings : Settings :=
  { Settings.forModule "demo" with lang := .kotlin }

/-- Names behind underscores and reserved words of methods and arguments become legal. -/
theorem identifiers_legal_class :
    ∃ a f, (namedCatalog "_as" "_1").HasIdentifiers ∧
      artifact (namedCatalog "_as" "_1") namedSettings = .ok a ∧
      file (namedCatalog "_as" "_1") namedSettings = .ok f ∧
      ∀ d ∈ f.members, ∀ n ∈ d.identifiers .kotlin, Legal .kotlin n := by
  have hs : namedSettings.check = .ok () := by decide
  have hc : (namedCatalog "_as" "_1").check = .ok () := by decide
  have hn : catalogCollision? namedSettings.lang (namedCatalog "_as" "_1") = none := by decide
  have hnames : (namedCatalog "_as" "_1").HasIdentifiers := by decide
  obtain ⟨_, _, _, _, ha⟩ := artifact_of_checks hs hc hn
  obtain ⟨f, hf, _, hiff⟩ := identifiers_legal hnames ha
  have hkeeps : KeepsLegal namedSettings.lang (namedCatalog "_as" "_1") := by decide
  exact ⟨_, f, hnames, ha, hf, hiff.mpr hkeeps⟩

/-- A method `_1` is declared as `1`, and a field `in` under its reserved name. -/
theorem identifiers_illegal_digit :
    ∃ a f, (namedCatalog "_1" "in").HasIdentifiers ∧
      artifact (namedCatalog "_1" "in") namedSettings = .ok a ∧
      file (namedCatalog "_1" "in") namedSettings = .ok f ∧
      (∃ d ∈ f.members, "1" ∈ d.identifiers .kotlin) ∧
      (∃ d ∈ f.members, "in" ∈ d.identifiers .kotlin) ∧
      ¬ Legal .kotlin "1" ∧ ¬ Legal .kotlin "in" := by
  have hs : namedSettings.check = .ok () := by decide
  have hc : (namedCatalog "_1" "in").check = .ok () := by decide
  have hn : catalogCollision? namedSettings.lang (namedCatalog "_1" "in") = none := by decide
  have hnames : (namedCatalog "_1" "in").HasIdentifiers := by decide
  obtain ⟨f, _, hf, _, ha⟩ := artifact_of_checks hs hc hn
  obtain ⟨hmethods, hfields⟩ := mem_identifiers_file (Catalog.check_eq_ok.mp hc) hf
  refine ⟨_, f, hnames, ha, hf, ?_, ?_, by decide, by decide⟩
  · exact hmethods _ List.mem_cons_self _ List.mem_cons_self "1" (by decide)
  · exact hfields _ List.mem_cons_self _ List.mem_cons_self

end Generate

end HostBindings
