import HostBindings.Proofs.Generate.Outcome
import HostBindings.Proofs.Generate.TopNames
import Mathlib.Data.List.Find

/-!
The two target languages side by side. They reserve different words, but escaping keeps names apart
as they are in camel case, as long as no native name has a backtick of its own. So both languages
refuse the same catalogs, and what they generate offers the same methods to the host.
-/

namespace HostBindings

open HostBindings.Code

def Catalog.NoBackticks (c : Catalog) : Prop :=
  ∀ i ∈ c.interfaces, ∀ m ∈ i.methods,
    '`' ∉ m.name.toList ∧ ∀ slot ∈ m.params, '`' ∉ slot.name.toList

instance : DecidablePred Catalog.NoBackticks :=
  fun c => inferInstanceAs (Decidable (∀ i ∈ c.interfaces, ∀ m ∈ i.methods, _ ∧ _))

def Settings.targeting (s : Settings) (lang : Lang) : Settings :=
  { s with lang }

namespace Generate

/-! ### Collisions -/

/-- Images that are equal for the same names clash at the same names. -/
theorem firstClash?_congr {image image' : String → String} {seen names : List String}
    (h : ∀ a ∈ seen ++ names, ∀ b ∈ seen ++ names, image a = image b ↔ image' a = image' b) :
    (firstClash? image (seen.map fun n => (image n, n)) names).map (fun k => (k.1, k.2.1)) =
      (firstClash? image' (seen.map fun n => (image' n, n)) names).map fun k => (k.1, k.2.1) := by
  induction names generalizing seen with
  | nil => rfl
  | cons n names ih =>
    -- the first name seen with the image is the same one
    have hfind : ∀ f : String → String,
        (seen.map fun n' => (f n', n')).find? (·.1 == f n) =
          (seen.find? fun n' => f n' == f n).map fun n' => (f n', n') := by
      intro f
      rw [List.find?_map]
      rfl
    have hsame : (seen.find? fun n' => image n' == image n) =
        seen.find? fun n' => image' n' == image' n := by
      apply List.find?_congr
      intro n' hn'
      rw [Bool.eq_iff_iff, beq_iff_eq, beq_iff_eq]
      exact h n' (List.mem_append_left _ hn') n (List.mem_append_right _ List.mem_cons_self)
    rw [firstClash?, firstClash?, hfind, hfind, hsame]
    cases seen.find? fun n' => image' n' == image' n with
    | some first => rfl
    | none =>
      have hmem : ∀ a, a ∈ (n :: seen) ++ names → a ∈ seen ++ n :: names := by
        intro a ha
        simp only [List.cons_append, List.mem_cons, List.mem_append] at ha ⊢
        tauto
      exact @ih (n :: seen) fun a ha b hb => h a (hmem a ha) b (hmem b hb)

def Collision.place (k : Collision) : String × String × String :=
  (k.scope, k.first, k.second)

theorem collision?_congr {image image' : String → String} {names : List String} (scope : String)
    (h : ∀ a ∈ names, ∀ b ∈ names, image a = image b ↔ image' a = image' b) :
    (collision? scope image names).map Collision.place =
      (collision? scope image' names).map Collision.place := by
  have hclash := congrArg (Option.map fun k => (scope, k.1, k.2))
    (@firstClash?_congr image image' [] names (by simpa using h))
  rw [Option.map_map, Option.map_map] at hclash
  rw [collision?, collision?, Option.map_map, Option.map_map]
  exact hclash

theorem catalogCollision?_congr {c : Catalog} (h : c.NoBackticks) (lang lang' : Lang) :
    (catalogCollision? lang c).map Collision.place =
      (catalogCollision? lang' c).map Collision.place := by
  -- two names clash in a language exactly if their camel case is the same
  have hnames : ∀ {a b : String}, '`' ∉ a.toList → '`' ∉ b.toList →
      (lang.hostName a = lang.hostName b ↔ lang'.hostName a = lang'.hostName b) :=
    fun ha hb => (hostName_inj ha hb).trans (hostName_inj ha hb).symm
  have hinterface : ∀ i ∈ c.interfaces, (interfaceCollision? lang i).map Collision.place =
      (interfaceCollision? lang' i).map Collision.place := by
    intro i hi
    have hmethods : (collision? i.name lang.hostName (i.methods.map (·.name))).map Collision.place =
        (collision? i.name lang'.hostName (i.methods.map (·.name))).map Collision.place := by
      apply collision?_congr
      simp only [List.forall_mem_map]
      exact fun m hm m' hm' => hnames (h i hi m hm).1 (h i hi m' hm').1
    have harguments : ∀ m ∈ i.methods,
        (collision? (i.name ++ "." ++ m.name) lang.hostName (m.passed.map (·.name))).map
            Collision.place =
          (collision? (i.name ++ "." ++ m.name) lang'.hostName (m.passed.map (·.name))).map
            Collision.place := by
      intro m hm
      apply collision?_congr
      simp only [List.forall_mem_map]
      exact fun slot hslot slot' hslot' =>
        hnames ((h i hi m hm).2 slot (Method.mem_params_of_mem_passed hslot))
          ((h i hi m hm).2 slot' (Method.mem_params_of_mem_passed hslot'))
    rw [interfaceCollision?, interfaceCollision?, Option.map_or, Option.map_or, hmethods,
      List.map_findSome?, List.map_findSome?]
    congr 1
    exact findSome?_congr harguments
  have hinterfaces : (c.interfaces.findSome? (interfaceCollision? lang)).map Collision.place =
      (c.interfaces.findSome? (interfaceCollision? lang')).map Collision.place := by
    rw [List.map_findSome?, List.map_findSome?]
    exact findSome?_congr hinterface
  rw [catalogCollision?, catalogCollision?, Option.map_or, Option.map_or, hinterfaces]

/-- Generation fails with a collision if the settings and the catalog pass, and names collide. -/
theorem artifact_eq_collision {c : Catalog} {s : Settings} {k : Collision} :
    artifact c s = .error (.collision k) ↔
      s.check = .ok () ∧ c.check = .ok () ∧ catalogCollision? s.lang c = some k := by
  cases hs : s.check with
  | error e => simp [artifact_of_settings hs]
  | ok u =>
    cases hc : c.check with
    | error e => simp [artifact_of_catalog hs hc]
    | ok u =>
      cases hn : catalogCollision? s.lang c with
      | some k' => simp [artifact_of_collision hs hc hn]
      | none =>
        obtain ⟨f, contents, _, _, hok⟩ := artifact_of_checks hs hc hn
        simp [hok]

/-- A collision at some place is one with some name. -/
theorem exists_collision {o : Option Collision} {scope first second : String} :
    (∃ name, o = some ⟨scope, first, second, name⟩) ↔
      o.map Collision.place = some (scope, first, second) := by
  rw [Option.map_eq_some_iff]
  constructor
  · rintro ⟨name, h⟩
    exact ⟨_, h, rfl⟩
  · rintro ⟨k, h, hplace⟩
    obtain ⟨rfl, rfl, rfl⟩ : k.scope = scope ∧ k.first = first ∧ k.second = second := by
      simpa [Collision.place] using hplace
    exact ⟨k.name, h⟩

/-! ### What a file offers to the host -/

/-- The function of a type that the host calls or implements: every function of an interface, the
static ones of a service, and those that a proxy overrides. -/
def hostMethod? : TypeKind → Member → Option Func
  | .interface, .func fn => some fn
  | .holder, d => hostFunction? d
  | .object, .func fn =>
    if .exposed ∈ fn.modifiers ∧ .override ∈ fn.modifiers then some fn else none
  | _, _ => none

def hostMethods (head : TypeHead) (members : List Member) : List Func :=
  members.filterMap (hostMethod? head.kind)

def Entry.methods (c : Catalog) : Entry → List Method
  | .interface i => i.methods
  | .service i => i.methods
  | .proxy callback => c.callbackMethods callback
  | _ => []

def Entry.isType : Entry → Bool
  | .registry _ => false
  | _ => true

inductive Entry.Offers (lang : Lang) (c : Catalog) : Entry → Member → Prop where
  | registry {i fld} (name : fld.name = Naming.registryName i.name) :
      Offers lang c (.registry i) (.field fld)
  | type {e : Entry} {head members} (h : e.isType = true) (name : head.name = e.name)
      (methods : List.Forall₂ (DeclaredFor lang) (e.methods c) (hostMethods head members)) :
      Offers lang c e (.type head members)

section Offers

variable {lang : Lang} {ctx : Context} {c : Catalog} {s : Settings} {f : SourceFile}

theorem offers_record (r : Record) :
    (Entry.record r).Offers lang c (recordType lang r).member := by
  cases lang <;> exact .type rfl rfl .nil

theorem offers_interface (i : Interface) :
    (Entry.interface i).Offers lang c (callbackType lang i).member := by
  refine .type rfl rfl ?_
  have hmethods : hostMethods (callbackType lang i).head (callbackType lang i).members =
      i.methods.map (hostFunc lang) := by
    show (i.methods.map fun m => Member.func (hostFunc lang m)).filterMap _ = _
    rw [List.filterMap_map, ← List.filterMap_eq_map]
    rfl
  rw [hmethods, List.forall₂_map_right_iff]
  exact List.forall₂_same.mpr fun m _ => declaredFor_hostFunc m [] none

theorem offers_proxy {callback : String} {r : TypeDecl × List Func}
    (h : proxy lang ctx callback = .ok r) :
    (Entry.proxy callback).Offers lang ctx.catalog r.1.member := by
  obtain ⟨j, fs, hj, hfs, rfl⟩ := proxy_eq_ok.mp h
  refine .type rfl rfl ?_
  have hfuncs : List.Forall₂ (fun m r => DeclaredFor lang m r.1 ∧
      hostMethod? .object (.func r.1) = some r.1) j.methods fs := by
    apply hfs.imp
    intro m r hok
    obtain ⟨p, body, _, _, rfl⟩ := proxyFunc_eq_ok.mp hok
    exact ⟨declaredFor_hostFunc m _ _, rfl⟩
  -- what releases a proxy is no method of its interface
  have hrelease : (lang.proxyRelease (.stmt (releaseCall ctx callback))).filterMap
      (hostMethod? .object) = [] := by
    cases lang <;> rfl
  have hmethods : hostMethods (proxyHead lang callback)
      (fs.map (.func ·.1) ++ lang.proxyRelease (.stmt (releaseCall ctx callback))) =
        fs.map (·.1) := by
    show List.filterMap (hostMethod? .object) _ = _
    rw [List.filterMap_append, hrelease, List.append_nil, List.filterMap_map,
      ← List.filterMap_eq_map]
    apply List.filterMap_congr
    intro r hr
    obtain ⟨_, _, _, hsome⟩ := forall₂_exists_left hfuncs hr
    exact hsome
  show List.Forall₂ _ (ctx.catalog.callbackMethods callback) (hostMethods _ _)
  rw [hmethods, Catalog.callbackMethods_eq hj, List.forall₂_map_right_iff]
  exact hfuncs.imp fun m r hr => hr.1

theorem offers_service {i : Interface} {proxies : List String} {funcs : List (Func × Option Func)}
    {taken : List (List Member)} {made : List (TypeDecl × List Func)}
    (hs : ServiceParts lang ctx i proxies funcs taken made) :
    (Entry.service i).Offers lang ctx.catalog
      (.type (serviceHead i) (serviceMembers lang ctx funcs taken made)) := by
  cases standsFor_service hs with
  | service kind name methods trampolines => exact .type rfl name methods

theorem offers_members (hf : file c s = .ok f) :
    List.Forall₂ (Entry.Offers s.lang c) (entries c) f.members := by
  refine forall₂_members hf ?_ (fun i _ => ?_) (fun r _ => offers_record r)
    (fun i _ => offers_interface i) (fun _ _ _ _ _ => offers_service) fun _ _ _ => offers_proxy
  · -- what registries do is not for the host
    cases s.lang <;> exact .type rfl rfl .nil
  · cases s.lang <;> exact .registry rfl

end Offers

/-! ### Two files -/

/-- Names of two languages that are the same but for the backticks around keywords. -/
def SameName (lang lang' : Lang) (a b : String) : Prop :=
  ∃ plain : String, '`' ∉ plain.toList ∧ a = Naming.escapeKeyword lang.keywords plain ∧
    b = Naming.escapeKeyword lang'.keywords plain

/-- Methods with the same name, the same names of as many parameters, and a result in both
languages or in none. -/
structure SameMethod (lang lang' : Lang) (fn fn' : Func) : Prop where
  name : SameName lang lang' fn.name fn'.name
  params : List.Forall₂ (fun p p' => SameName lang lang' p.name p'.name) fn.params fn'.params
  returns : fn.returns.isSome = fn'.returns.isSome

inductive SameMember (lang lang' : Lang) : Member → Member → Prop where
  | field {fld fld' : Field} (name : fld.name = fld'.name) :
      SameMember lang lang' (.field fld) (.field fld')
  | type {head head' : TypeHead} {members members' : List Member} (name : head.name = head'.name)
      (methods : List.Forall₂ (SameMethod lang lang') (hostMethods head members)
        (hostMethods head' members')) :
      SameMember lang lang' (.type head members) (.type head' members')

def typeName? : Member → Option String
  | .type head _ => some head.name
  | _ => none

theorem SameMember.typeName {lang lang' : Lang} {d d' : Member} (h : SameMember lang lang' d d') :
    typeName? d = typeName? d' := by
  cases h with
  | field name => rfl
  | type name methods => exact congrArg some name

theorem sameName_hostName {name : String} (h : '`' ∉ name.toList) (lang lang' : Lang) :
    SameName lang lang' (lang.hostName name) (lang'.hostName name) :=
  ⟨Naming.camelCase name, Naming.backtick_notMem_camelCase h, rfl, rfl⟩

/-- Functions declared for the same method are the same method. -/
theorem DeclaredFor.same {lang lang' : Lang} {m : Method} {fn fn' : Func}
    (hm : '`' ∉ m.name.toList) (hparams : ∀ slot ∈ m.params, '`' ∉ slot.name.toList)
    (h : DeclaredFor lang m fn) (h' : DeclaredFor lang' m fn') : SameMethod lang lang' fn fn' where
  name := by
    rw [h.name, h'.name]
    exact sameName_hostName hm lang lang'
  params := by
    apply forall₂_trans_of_mem h.params h'.params
    rintro slot hslot p p' rfl rfl
    exact sameName_hostName (hparams slot (Method.mem_params_of_mem_passed hslot)) lang lang'
  returns := by
    rw [h.returns, h'.returns]
    cases m.returns.isVoid <;> rfl

/-- The methods of the entries are those of interfaces of the catalog. -/
theorem exists_interface_of_entry {c : Catalog} {e : Entry} {m : Method} (he : e ∈ entries c)
    (hm : m ∈ e.methods c) : ∃ i ∈ c.interfaces, m ∈ i.methods := by
  have hregistries : ∀ e' ∈ (if c.callbacks = [] then []
      else Entry.registryType :: c.callbacks.map .registry), e'.methods c = [] := by
    split <;> simp [Entry.methods]
  rw [entries, List.mem_append, List.mem_append, List.mem_append] at he
  rcases he with ((he | he) | he) | he
  · rw [hregistries e he] at hm
    exact absurd hm List.not_mem_nil
  · obtain ⟨r, _, rfl⟩ := List.mem_map.mp he
    exact absurd hm List.not_mem_nil
  · obtain ⟨i, hi, rfl⟩ := List.mem_map.mp he
    exact ⟨i, (Catalog.mem_callbacks.mp hi).1, hm⟩
  · obtain ⟨first, hfirst, he⟩ := List.mem_flatMap.mp he
    rcases List.mem_cons.mp he with rfl | he
    · have hi : first.1 ∈ c.services := by
        rw [← firstReturns_fst [] c.services]
        exact List.mem_map_of_mem hfirst
      exact ⟨first.1, (Catalog.mem_services.mp hi).1, hm⟩
    · obtain ⟨callback, _, rfl⟩ := List.mem_map.mp he
      -- a proxy offers what its callback interface declares
      cases hj : c.callback? callback with
      | none =>
        rw [Entry.methods, Catalog.callbackMethods, hj] at hm
        exact absurd hm List.not_mem_nil
      | some j =>
        rw [Entry.methods, Catalog.callbackMethods_eq hj] at hm
        exact ⟨j, (Catalog.mem_callbacks.mp (Catalog.callback?_eq_some hj).1).1, hm⟩

theorem sameMember_of_offers {c : Catalog} (hc : c.NoBackticks) {lang lang' : Lang} {e : Entry}
    (he : e ∈ entries c) {d d' : Member} (h : e.Offers lang c d) (h' : e.Offers lang' c d') :
    SameMember lang lang' d d' := by
  cases h with
  | registry name =>
    cases h' with
    | registry name' => exact .field (name.trans name'.symm)
    | type htype => cases htype
  | type htype name methods =>
    cases h' with
    | registry name' => cases htype
    | type _ name' methods' =>
      refine .type (name.trans name'.symm) (forall₂_trans_of_mem methods methods' ?_)
      intro m hm fn fn' hfn hfn'
      obtain ⟨i, hi, hmem⟩ := exists_interface_of_entry he hm
      exact hfn.same (hc i hi m hmem).1 (hc i hi m hmem).2 hfn'

theorem check_targeting (s : Settings) (lang lang' : Lang) :
    (s.targeting lang).check = (s.targeting lang').check :=
  rfl

/-- Both languages accept the same catalogs, those with backticks in names aside, and report a
collision at the same place. What they generate has the same types, which offer the same methods
to the host under the same names but for the backticks around keywords. -/
theorem languages_agree {c : Catalog} (hc : c.NoBackticks) (s : Settings) :
    ((∃ a, artifact c (s.targeting .swift) = .ok a) ↔
      ∃ a, artifact c (s.targeting .kotlin) = .ok a) ∧
    (∀ scope first second,
      (∃ name, artifact c (s.targeting .swift) =
        .error (.collision ⟨scope, first, second, name⟩)) ↔
      ∃ name, artifact c (s.targeting .kotlin) =
        .error (.collision ⟨scope, first, second, name⟩)) ∧
    ∀ a b, artifact c (s.targeting .swift) = .ok a → artifact c (s.targeting .kotlin) = .ok b →
      ∃ f g, file c (s.targeting .swift) = .ok f ∧
        Layout.renderFile .swift s.indent f = .ok a.contents ∧
        file c (s.targeting .kotlin) = .ok g ∧
        Layout.renderFile .kotlin s.indent g = .ok b.contents ∧
        f.members.filterMap typeName? = g.members.filterMap typeName? ∧
        List.Forall₂ (SameMember .swift .kotlin) f.members g.members := by
  -- settings and catalog are checked alike, so host names decide
  have hcheck := check_targeting s .swift .kotlin
  have hplace := catalogCollision?_congr hc .swift .kotlin
  refine ⟨?_, fun scope first second => ?_, fun a b ha hb => ?_⟩
  · have hnames : DistinctNames .swift c ↔ DistinctNames .kotlin c := by
      rw [← catalogCollision?_eq_none, ← catalogCollision?_eq_none,
        ← Option.map_eq_none_iff (f := Collision.place), hplace, Option.map_eq_none_iff]
    rw [(artifact_outcome c (s.targeting .swift)).2.2.2.1,
      (artifact_outcome c (s.targeting .kotlin)).2.2.2.1, hcheck]
    exact and_congr_right fun _ => and_congr_right fun _ => hnames
  · simp only [artifact_eq_collision, hcheck, exists_and_left]
    have hexists : (∃ name, catalogCollision? .swift c = some ⟨scope, first, second, name⟩) ↔
        ∃ name, catalogCollision? .kotlin c = some ⟨scope, first, second, name⟩ := by
      rw [exists_collision, exists_collision, hplace]
    exact and_congr_right fun _ => and_congr_right fun _ => hexists
  · obtain ⟨_, _, f, hf, hcontents⟩ := artifact_eq_ok ha
    obtain ⟨_, _, g, hg, hcontents'⟩ := artifact_eq_ok hb
    have hmembers : List.Forall₂ (SameMember .swift .kotlin) f.members g.members :=
      forall₂_trans_of_mem (offers_members hf) (offers_members hg)
        fun e he d d' hd hd' => sameMember_of_offers hc he hd hd'
    refine ⟨f, g, hf, hcontents, hg, hcontents', ?_, hmembers⟩
    exact (filterMap_congr_of_forall₂ (hmembers.imp fun d d' hd => hd.typeName.symm)).symm

/-- A service and a callback interface whose names are reserved in one language or the other. -/
def reservedCatalog : Catalog where
  interfaces :=
    [⟨"Door", "lib", "lib", false,
      [⟨"fun", .callback "Bell", "Box<dyn Bell>",
        [⟨"in", .callback "Bell", "Box<dyn Bell>"⟩, ⟨"func", .single .string, "String"⟩]⟩]⟩,
     ⟨"Bell", "lib", "lib", true, [⟨"val", .void, "()", [⟨"guard", .single .boolean, "bool"⟩]⟩]⟩]
  records := []

theorem languages_agree_reserved :
    reservedCatalog.NoBackticks ∧
      ∃ a b f g, artifact reservedCatalog ((Settings.forModule "demo").targeting .swift) = .ok a ∧
        artifact reservedCatalog ((Settings.forModule "demo").targeting .kotlin) = .ok b ∧
        file reservedCatalog ((Settings.forModule "demo").targeting .swift) = .ok f ∧
        file reservedCatalog ((Settings.forModule "demo").targeting .kotlin) = .ok g ∧
        List.Forall₂ (SameMember .swift .kotlin) f.members g.members := by
  have hplain : reservedCatalog.NoBackticks := by decide
  have hc : reservedCatalog.check = .ok () := by decide
  have hs : ∀ lang, ((Settings.forModule "demo").targeting lang).check = .ok () := by
    intro lang
    cases lang <;> decide
  have hn : ∀ lang, catalogCollision? lang reservedCatalog = none := by
    intro lang
    cases lang <;> decide
  obtain ⟨_, _, _, _, ha⟩ := artifact_of_checks (hs .swift) hc (hn .swift)
  obtain ⟨_, _, _, _, hb⟩ := artifact_of_checks (hs .kotlin) hc (hn .kotlin)
  obtain ⟨f, g, hf, _, hg, _, _, hmembers⟩ :=
    (languages_agree hplain (Settings.forModule "demo")).2.2 _ _ ha hb
  exact ⟨hplain, _, _, f, g, ha, hb, hf, hg, hmembers⟩

end Generate

end HostBindings
