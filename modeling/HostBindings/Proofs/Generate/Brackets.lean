import HostBindings.Proofs.Generate.Made
import HostBindings.Proofs.Generate.Outcome
import HostBindings.Proofs.Generate.Words
import HostBindings.Proofs.Layout.Brackets

/-!
The brackets of generated files. No member of a file has stray brackets if no name of the catalog
and no text of the settings has any, so the text of the file is balanced.
-/

namespace HostBindings

open HostBindings.Code HostBindings.Text

/-! ### Texts of settings -/

theorem Text.bracketFree_trim {text : String} (h : BracketFree text) : BracketFree (trim text) := by
  refine bracketFree_of_mem (fun c _ hc => ?_) h
  rw [trim, String.toList_ofList, trimChars, List.mem_reverse] at hc
  have hinner := List.mem_reverse.mp ((List.dropWhile_suffix _).mem hc)
  exact (List.dropWhile_suffix _).mem hinner

theorem Naming.bracketFree_toSymbol {name : String} (h : BracketFree name) :
    BracketFree (toSymbol name) := by
  refine bracketFree_of_mem (fun c hbracket hc => ?_) h
  rw [toSymbol, String.toList_ofList] at hc
  obtain ⟨d, hd, rfl⟩ := List.mem_map.mp hc
  -- what takes the place of a dash or dot is no bracket
  split at hbracket
  · exact absurd hbracket (by decide)
  · rename_i hsame
    rw [if_neg hsame]
    exact hd

theorem bracketFree_libraries {s : Settings} {package : String}
    (hs : ∀ w ∈ s.words, BracketFree w) (hpackage : BracketFree package) :
    ∀ l ∈ s.mainLibrary package :: s.furtherLibraries, BracketFree l := by
  rw [List.forall_mem_cons]
  constructor
  · unfold Settings.mainLibrary
    cases hname : s.libraryName with
    | none => exact Naming.bracketFree_toSymbol hpackage
    | some name => exact hs name (by simp [Settings.words, hname])
  · intro l hl
    obtain ⟨text, htext, rfl⟩ := List.mem_map.mp (List.mem_of_mem_filter hl)
    exact Text.bracketFree_trim (hs text (by simp [Settings.words, htext]))

/-! ### Generated members -/

namespace Generate

variable {c : Catalog} {s : Settings} {lang : Lang} {ctx : Context} {m : Method}

theorem wellBracketed_hostFunc (hm : ∀ w ∈ m.words, BracketFree w) {body : Option Block}
    (hbody : ∀ b ∈ body, b.WellBracketed) (modifiers : List Modifier) :
    ({ hostFunc lang m with modifiers, body } : Func).WellBracketed := by
  have htype : ∀ slot ∈ m.passed, ∀ w ∈ slot.type.words, BracketFree w := fun slot hslot w hw =>
    hm w (Method.words_subset_of_passed hslot (List.mem_cons_of_mem _ hw))
  refine ⟨bracketFree_hostName lang (hm _ List.mem_cons_self), List.forall_mem_nil _, ?_, ?_, hbody,
    List.forall_mem_nil _⟩
  · refine List.forall_mem_map.mpr fun slot hslot => .plain ?_ ?_
    · have hname := Method.words_subset_of_passed hslot List.mem_cons_self
      exact bracketFree_hostName lang (hm _ hname)
    · exact Lang.wellBracketed_hostType (htype slot hslot)
  · intro t ht
    change hostReturn lang m.returns = some t at ht
    unfold hostReturn at ht
    split at ht
    · cases ht
    · cases ht
      exact Lang.wellBracketed_hostType fun w hw => hm w (m.returns_words_subset hw)

theorem wellBracketed_wireParams {a r : Position} {p : CallPlan}
    (hctx : ∀ w ∈ ctx.words, BracketFree w) (hm : ∀ w ∈ m.words, BracketFree w)
    (hplan : Marshal.planMethod lang.ownership a r m = .ok p) :
    ∀ q ∈ wireParams lang ctx p, q.WellBracketed := by
  intro q hq
  obtain ⟨x, hx, hq⟩ := List.mem_filterMap.mp hq
  obtain ⟨t, ht, rfl⟩ := Option.map_eq_some_iff.mp hq
  obtain ⟨hname, hwords⟩ := Marshal.planMethod_arg_words hplan hx
  exact .plain (bracketFree_hostName lang (hm _ hname))
    (wellBracketed_wireType hctx (fun w hw => hm w (hwords hw)) t ht)

theorem wellBracketed_handleParam {name : String} (h : BracketFree name) :
    (handleParam lang name).WellBracketed :=
  .plain h Lang.wellBracketed_handleType

theorem wellBracketed_serializable {head : TypeHead} (h : head.WellBracketed) :
    (lang.serializable head).WellBracketed := by
  cases lang with
  | swift =>
    refine ⟨h.name, h.annotations, h.typeParams, ?_, h.properties, h.docs⟩
    exact List.forall_mem_append.mpr
      ⟨h.supertypes, List.forall_mem_singleton.mpr (.plain (by decide))⟩
  | kotlin =>
    refine ⟨h.name, ?_, h.typeParams, h.supertypes, h.properties, h.docs⟩
    exact List.forall_mem_append.mpr
      ⟨h.annotations, List.forall_mem_singleton.mpr (.imported (by decide) (by decide))⟩

section Catalog

variable (hc : ∀ w ∈ c.words, BracketFree w)

include hc

theorem bracketFree_interface {i : Interface} (hi : i ∈ c.interfaces) :
    ∀ w ∈ i.words, BracketFree w :=
  fun w hw => hc w (List.mem_append_left _ (List.mem_flatMap_of_mem hi hw))

theorem bracketFree_record {r : Record} (hr : r ∈ c.records) : ∀ w ∈ r.words, BracketFree w :=
  fun w hw => hc w (List.mem_append_right _ (List.mem_flatMap_of_mem hr hw))

theorem bracketFree_method {i : Interface} (hi : i ∈ c.interfaces) (hm : m ∈ i.methods) :
    ∀ w ∈ m.words, BracketFree w :=
  fun w hw => bracketFree_interface hc hi w
    (List.mem_append_right _ (List.mem_flatMap_of_mem hm hw))

theorem bracketFree_callback {j : Interface} (hj : j ∈ c.callbacks) : BracketFree j.name :=
  bracketFree_interface hc (Catalog.mem_callbacks.mp hj).1 _ List.mem_cons_self

theorem wellBracketed_recordHead {r : Record} (hr : r ∈ c.records) :
    (recordType lang r).head.WellBracketed := by
  have hwords := bracketFree_record hc hr
  refine wellBracketed_serializable ⟨hwords _ List.mem_cons_self, List.forall_mem_nil _,
    List.forall_mem_nil _, List.forall_mem_nil _, ?_, List.forall_mem_nil _⟩
  refine List.forall_mem_map.mpr fun slot hslot => ?_
  have hslot : ∀ w ∈ slot.words, BracketFree w := fun w hw => hwords w
    (List.mem_append_right _ (List.mem_flatMap_of_mem (List.mem_of_mem_filter hslot) hw))
  refine ⟨hslot _ List.mem_cons_self, Lang.wellBracketed_hostType fun w hw => ?_, nofun,
    List.forall_mem_nil _⟩
  exact hslot w (List.mem_cons_of_mem _ hw)

theorem wellBracketed_callbackHead {i : Interface} (hi : i ∈ c.callbacks) :
    (callbackType lang i).head.WellBracketed := by
  have hwords := bracketFree_interface hc (Catalog.mem_callbacks.mp hi).1
  have hpackage : BracketFree i.package := hwords _ (by simp [Interface.words])
  have hmodule : BracketFree i.module := hwords _ (by simp [Interface.words])
  refine ⟨hwords _ List.mem_cons_self, List.forall_mem_nil _, List.forall_mem_nil _,
    List.forall_mem_nil _, List.forall_mem_nil _, List.forall_mem_singleton.mpr ?_⟩
  simp only [brackets_append, hpackage, hmodule]
  decide

theorem wellBracketed_serviceHead {i : Interface} (hi : i ∈ c.services) :
    (serviceHead i).WellBracketed := by
  have hwords := bracketFree_interface hc (Catalog.mem_services.mp hi).1
  have hname : BracketFree i.name := hwords _ List.mem_cons_self
  have hpackage : BracketFree i.package := hwords _ (by simp [Interface.words])
  have hmodule : BracketFree i.module := hwords _ (by simp [Interface.words])
  refine ⟨hname, List.forall_mem_nil _, List.forall_mem_nil _, List.forall_mem_nil _,
    List.forall_mem_nil _, List.forall_mem_singleton.mpr ?_⟩
  simp only [brackets_append, hname, hpackage, hmodule]
  decide

theorem wellBracketed_proxyHead {j : Interface} (hj : j ∈ c.callbacks) :
    (proxyHead lang j.name).WellBracketed := by
  have hname := bracketFree_callback hc hj
  have hself : ∀ w ∈ (BoundaryType.callback j.name).words, BracketFree w :=
    List.forall_mem_singleton.mpr hname
  refine ⟨Naming.bracketFree_proxyName hname, List.forall_mem_nil _, List.forall_mem_nil _,
    List.forall_mem_cons.mpr ⟨Lang.wellBracketed_hostType hself, ?_⟩,
    List.forall_mem_singleton.mpr ?_, List.forall_mem_singleton.mpr ?_⟩
  · -- what can be closed is a supertype of its own in Kotlin
    cases lang with
    | swift => exact List.forall_mem_nil _
    | kotlin => exact List.forall_mem_singleton.mpr (.plain (by decide))
  · exact ⟨show BracketFree nativeHandle by decide, Lang.wellBracketed_handleType, nofun,
      List.forall_mem_nil _⟩
  · simp only [brackets_append, hname]
    decide

theorem wellBracketed_head {head : TypeHead} (h : MadeHead c s head) : head.WellBracketed := by
  cases h with
  | record hr => exact wellBracketed_recordHead hc hr
  | interface hi => exact wellBracketed_callbackHead hc hi
  | service hi => exact wellBracketed_serviceHead hc hi
  | proxy hj => exact wellBracketed_proxyHead hc hj

/-- The names in the symbol of a native function that a method goes to. -/
theorem bracketFree_symbol {i : Interface} {symbol : Symbol} (hi : i ∈ c.interfaces)
    (hm : m ∈ i.methods) (h : symbol = .method m.name ∨ symbol = .callbackMethod i.name m.name) :
    ∀ w ∈ symbol.words, BracketFree w := by
  have hmethod : BracketFree m.name := bracketFree_method hc hi hm _ List.mem_cons_self
  have hname : BracketFree i.name := bracketFree_interface hc hi _ List.mem_cons_self
  rcases h with rfl | rfl
  · exact List.forall_mem_singleton.mpr hmethod
  · exact List.forall_mem_cons.mpr ⟨hname, List.forall_mem_singleton.mpr hmethod⟩

variable (hs : ∀ w ∈ s.words, BracketFree w)

include hs

theorem bracketFree_place {k : Interface} (hk : k ∈ c.services) :
    ∀ w ∈ (Context.ofInterface c s k).words, BracketFree w := by
  have hwords := bracketFree_interface hc (Catalog.mem_services.mp hk).1
  rw [Context.words, List.forall_mem_append]
  constructor
  · simp only [List.forall_mem_cons]
    exact ⟨hs _ List.mem_cons_self, hwords _ (by simp [Interface.words, Context.ofInterface]),
      hwords _ List.mem_cons_self, List.forall_mem_nil _⟩
  · intro w hw
    obtain ⟨j, hj, hw⟩ := List.mem_flatMap.mp hw
    exact bracketFree_interface hc (Catalog.mem_callbacks.mp hj).1 w hw

/-- No member of a file has stray brackets. -/
theorem wellBracketed_of_made {d : Member} (h : Made c s d) : d.WellBracketed := by
  induction h with
  | registryType =>
    cases s.lang with
    | swift => exact Swift.wellBracketed_registryType
    | kotlin => exact Kotlin.wellBracketed_registryType
  | registry hi => exact .field (Lang.wellBracketed_registryField (bracketFree_callback hc hi))
  | @declared i m hi hm =>
    have hwords := bracketFree_method hc (Catalog.mem_callbacks.mp hi).1 hm
    have hnone : ∀ b ∈ (none : Option Block), b.WellBracketed := nofun
    exact .func (wellBracketed_hostFunc hwords hnone [])
  | called hk hi hm hplan hsymbol hleading hbody =>
    -- what leads the arguments is at most the handle of a proxy
    have hhandle : BracketFree nativeHandle := by decide
    have hstmts := bracketFree_nativeCallBody (bracketFree_place hc hs hk)
      (bracketFree_method hc hi hm) hplan (bracketFree_symbol hc hi hm hsymbol)
      (fun n hn => List.mem_singleton.mp (hleading hn) ▸ hhandle) hbody
    refine .func (wellBracketed_hostFunc (bracketFree_method hc hi hm) ?_ _)
    rintro b ⟨⟩
    exact Lang.wellBracketed_block hstmts
  | trampoline hk hj hm hplan hbody =>
    have hplace := bracketFree_place hc hs hk
    have hwords := bracketFree_method hc (Catalog.mem_callbacks.mp hj).1 hm
    have hname := bracketFree_callback hc hj
    have hresult := Marshal.planMethod_result_words hplan
    refine Lang.wellBracketed_trampoline
      (Naming.bracketFree_trampolineName hname (hwords _ List.mem_cons_self))
      (List.forall_mem_cons.mpr
        ⟨wellBracketed_handleParam (by decide), wellBracketed_wireParams hplace hwords hplan⟩)
      (wellBracketed_wireType hplace fun w hw => hwords w (hresult hw)) ?_
    exact Lang.wellBracketed_block (bracketFree_trampolineBody hplace hwords hplan hname hbody)
  | releaseTrampoline hj =>
    have hname := bracketFree_callback hc hj
    refine Lang.wellBracketed_trampoline (Naming.bracketFree_releaseTrampolineName hname)
      (List.forall_mem_singleton.mpr (wellBracketed_handleParam (by decide))) nofun ?_
    refine Lang.wellBracketed_block (List.forall_mem_singleton.mpr ?_)
    exact List.forall_mem_cons.mpr ⟨hname, List.forall_mem_singleton.mpr (by decide)⟩
  | @loader k fn hk hfn =>
    have hpackage : BracketFree k.package :=
      bracketFree_interface hc (Catalog.mem_services.mp hk).1 _ (by simp [Interface.words])
    exact .func (Lang.wellBracketed_loader (bracketFree_libraries hs hpackage) hfn)
  | native hk hi hm hplan hsymbol hleading hfn =>
    have hplace := bracketFree_place hc hs hk
    have hwords := bracketFree_method hc hi hm
    have hresult := Marshal.planMethod_result_words hplan
    refine .func (Lang.wellBracketed_nativeDeclaration ?_ (List.forall_mem_append.mpr ⟨?_, ?_⟩)
      (wellBracketed_wireType hplace fun w hw => hwords w (hresult hw)) hfn)
    · exact Lang.bracketFree_symbolName (Context.bracketFree_module hplace)
        (bracketFree_symbol hc hi hm hsymbol)
    · intro q hq
      rw [List.mem_singleton.mp (hleading hq)]
      exact wellBracketed_handleParam (by decide)
    · exact wellBracketed_wireParams hplace hwords hplan
  | releaseDecl hk hj hfn =>
    have hplace := bracketFree_place hc hs hk
    have hname := bracketFree_callback hc hj
    have hnone : ∀ t ∈ (none : Option TypeRef), t.WellBracketed := nofun
    refine .func (Lang.wellBracketed_nativeDeclaration ?_
      (List.forall_mem_singleton.mpr (wellBracketed_handleParam (by decide))) hnone hfn)
    exact Lang.bracketFree_symbolName (Context.bracketFree_module hplace)
      (List.forall_mem_singleton.mpr hname)
  | proxyRelease hk hj hd =>
    have hplace := bracketFree_place hc hs hk
    have hname := bracketFree_callback hc hj
    refine Lang.wellBracketed_proxyRelease (.stmt ?_) _ hd
    simp only [releaseCall, Stmt.words, Expr.words, Symbol.words, List.forall_mem_append,
      List.forall_mem_cons]
    exact ⟨⟨⟨Context.bracketFree_module hplace, Context.bracketFree_owner hplace,
      List.forall_mem_nil _⟩, hname, List.forall_mem_nil _⟩, by decide, List.forall_mem_nil _⟩
  | type hhead hmembers ih => exact .type (wellBracketed_head hc hhead) ih

theorem wellBracketed_file {f : SourceFile} (hf : file c s = .ok f) : f.WellBracketed := by
  have hmembers : ∀ d ∈ f.members, d.WellBracketed :=
    fun d hd => wellBracketed_of_made hc hs (made_members hf d hd)
  obtain ⟨types, _, rfl⟩ := file_eq_ok.mp hf
  have hmodule : BracketFree s.moduleName := hs _ List.mem_cons_self
  refine ⟨fun text htext => ?_, ?_, ?_, hmembers⟩
  · refine BracketFree.balanced (hs text (List.mem_cons_of_mem _ ?_))
    exact List.mem_append_left _ (List.mem_append_left _ (Option.mem_toList.mpr htext))
  · show ∀ p ∈ s.lang.package? s, BracketFree p
    cases s.lang with
    | swift => exact nofun
    | kotlin =>
      rintro p ⟨⟩
      exact hmodule
  · show ∀ i ∈ s.lang.fileImports s, BracketFree i
    cases s.lang with
    | swift =>
      exact List.forall_mem_cons.mpr ⟨by decide, List.forall_mem_singleton.mpr hmodule⟩
    | kotlin => exact List.forall_mem_nil _

end Catalog

/-- If no name of the catalog and no text of the settings has a bracket, the brackets of the
generated text are balanced. -/
theorem artifact_balanced {a : Artifact} (hc : ∀ w ∈ c.words, BracketFree w)
    (hs : ∀ w ∈ s.words, BracketFree w) (h : artifact c s = .ok a) :
    Balanced a.contents.toList := by
  obtain ⟨_, _, f, hf, hcontents⟩ := artifact_eq_ok h
  exact Layout.balanced_renderFile (wellBracketed_file hc hs hf) hcontents

def mailCatalog : Catalog where
  interfaces :=
    [⟨"Post", "lib", "demo-lib", false,
      [⟨"send", .callback "Receipt", "Box<dyn Receipt>",
        [⟨"letters", .vec (.record "Letter"), "Vec<Letter>"⟩,
         ⟨"receipt", .callback "Receipt", "Box<dyn Receipt>"⟩]⟩]⟩,
     ⟨"Receipt", "lib", "demo-lib", true,
      [⟨"done", .single .boolean, "bool", [⟨"stamp", .vec (.numeric .byte), "Vec<u8>"⟩]⟩]⟩]
  records := [⟨"Letter", "lib", "demo-lib", [⟨"lines", .vec .string, "Vec<String>"⟩]⟩]

def mailSettings (lang : Lang) : Settings :=
  { Settings.forModule "mail" with
    lang, header := some "Generated.\nDo not edit.", extraLibraries := ["zip"] }

theorem artifact_balanced_mail :
    ∃ a b, artifact mailCatalog (mailSettings .swift) = .ok a ∧
      artifact mailCatalog (mailSettings .kotlin) = .ok b ∧
      Balanced a.contents.toList ∧ Balanced b.contents.toList := by
  have hc : mailCatalog.check = .ok () := by decide
  have hwords : ∀ w ∈ mailCatalog.words, BracketFree w := by decide
  have hn : ∀ lang, catalogCollision? (mailSettings lang).lang mailCatalog = none := by
    intro lang
    cases lang <;> decide
  have hs : ∀ lang, (mailSettings lang).check = .ok () ∧
      ∀ w ∈ (mailSettings lang).words, BracketFree w := by
    intro lang
    cases lang <;> decide
  obtain ⟨_, _, _, _, ha⟩ := artifact_of_checks (hs .swift).1 hc (hn .swift)
  obtain ⟨_, _, _, _, hb⟩ := artifact_of_checks (hs .kotlin).1 hc (hn .kotlin)
  exact ⟨_, _, ha, hb, artifact_balanced hwords (hs .swift).2 ha,
    artifact_balanced hwords (hs .kotlin).2 hb⟩

end Generate

end HostBindings
