import HostBindings.Proofs.Spelling.Canonical
import HostBindings.Spelling.Names

/-!
Wrappers around the name of a callback interface. Reading drops references, `dyn` and further
bounds, and `unwrap` drops pointers. `Spelling.callbackName_wrapped` says that the two together
reach the name through any number of wrappers in any order, and that every name found is one word.
-/

namespace HostBindings.Spelling

open HostBindings.Text

/-- A path that is read as itself wherever a type may stand. -/
structure PlainPath (path : List String) : Prop where
  nonempty : path ≠ []
  words : ∀ w ∈ path, IsWord w
  not_dyn : path.head? ≠ some "dyn"
  not_mut : path.head? ≠ some "mut"

instance (path : List String) : Decidable (PlainPath path) :=
  decidable_of_iff (path ≠ [] ∧ (∀ w ∈ path, IsWord w) ∧ path.head? ≠ some "dyn" ∧
      path.head? ≠ some "mut")
    ⟨fun h => ⟨h.1, h.2.1, h.2.2.1, h.2.2.2⟩,
      fun h => ⟨h.nonempty, h.words, h.not_dyn, h.not_mut⟩⟩

def furtherBounds (bounds : List String) : String :=
  String.join (bounds.map (" + " ++ ·))

/-- Spellings of a path behind references and `dyn` and inside pointers, in any order. The name of
a pointer may have any path before it, such as that of `std::boxed::Box`. -/
inductive Wrapped (path : List String) : String → Prop where
  | bare : Wrapped path (String.intercalate "::" path)
  | pointer {home : List String} {name s : String} (hpointer : isPointer name = true)
      (hhome : PlainPath (home ++ [name])) (h : Wrapped path s) :
      Wrapped path (String.intercalate "::" (home ++ [name]) ++ "<" ++ s ++ ">")
  | reference {gap s : String} (hgap : ∀ c ∈ gap.toList, isBlank c = true) (h : Wrapped path s) :
      Wrapped path ("&" ++ gap ++ s)
  | lifetime {name s : String} (hname : ∀ c ∈ name.toList, isWordChar c = true)
      (h : Wrapped path s) : Wrapped path ("&'" ++ name ++ " " ++ s)
  | mutReference {s : String} (h : Wrapped path s) : Wrapped path ("&mut " ++ s)
  | dyn {bounds : List String} {s : String} (hbounds : ∀ b ∈ bounds, ∃ e, read b = .ok e)
      (h : Wrapped path s) : Wrapped path ("dyn " ++ s ++ furtherBounds bounds)

/-! ### Tokens of parts of a spelling -/

/-- The second text continues no word of the first. -/
theorem Lexes.append {cs ds : List Char} {ts us : List Token} (h : Lexes cs ts)
    (hus : Lexes ds us) (hcut : ∀ c ∈ ds.head?, isWordChar c = false) :
    Lexes (cs ++ ds) (ts ++ us) := by
  -- a run that ends with the first text does not go on into the second
  have hrun : ∀ {run rest : List Char}, IsRun run rest → IsRun run (rest ++ ds) := by
    intro run rest hrun
    cases rest with
    | nil => exact ⟨hrun.inside, hcut⟩
    | cons c rest => exact ⟨hrun.inside, hrun.behind⟩
  induction h with
  | nil => exact hus
  | blank hc _ ih => exact .blank hc ih
  | mark ht _ ih => exact .mark ht ih
  | separator _ ih => exact .separator ih
  | lifetime hname _ ih =>
    rw [List.cons_append, List.append_assoc]
    exact .lifetime (hrun hname) ih
  | word hword _ ih =>
    rw [List.cons_append, List.append_assoc]
    exact .word (hrun hword) ih

/-- A word and a space behind it. -/
theorem Lexes.spacedWord {w : String} {cs : List Char} {ts : List Token} (h : Lexes cs ts)
    (hw : IsWord w) : Lexes (w.toList ++ ' ' :: cs) (.word w :: ts) := by
  refine (h.blank isBlank_space).token (fun v hv => Token.word.inj hv ▸ hw) (Or.inr ?_)
  rintro _ ⟨⟩
  exact isWordChar_of_isBlank isBlank_space

theorem PlainPath.lexes {path : List String} (h : PlainPath path) :
    Lexes (String.intercalate "::" path).toList (pathTokens path) := by
  have hpath := isPath_pathTokens h.nonempty
  exact lexes_of_spaced (spaced_pathTokens path) hpath.tokens.1
    fun w hw => h.words w ((hpath.words.2 w).mpr hw)

theorem PlainPath.derives {path : List String} (h : PlainPath path) :
    Derives (.type ⟨path, []⟩) (pathTokens path) :=
  .path (isPath_pathTokens h.nonempty) h.not_dyn

theorem PlainPath.read {path : List String} (h : PlainPath path) :
    Spelling.read (String.intercalate "::" path) = .ok ⟨path, []⟩ :=
  read_eq_ok.mpr ⟨_, h.lexes, h.derives⟩

theorem PlainPath.head {path : List String} (h : PlainPath path) (ts : List Token) :
    (pathTokens path ++ ts).head? ≠ some (.word "mut") := by
  obtain ⟨hne, -, -, hmut⟩ := h
  match path with
  | [w] => simpa [pathTokens] using hmut
  | w :: v :: path => simpa [pathTokens] using hmut

theorem toList_furtherBounds (b : String) (bounds : List String) :
    (furtherBounds (b :: bounds)).toList =
      ' ' :: '+' :: ' ' :: (b.toList ++ (furtherBounds bounds).toList) := by
  simp [furtherBounds]

theorem head_furtherBounds (bounds : List String) :
    ∀ c ∈ (furtherBounds bounds).toList.head?, isWordChar c = false := by
  cases bounds with
  | nil => exact nofun
  | cons b bounds =>
    rw [toList_furtherBounds]
    rintro _ ⟨⟩
    exact isWordChar_of_isBlank isBlank_space

theorem lexes_furtherBounds {bounds : List String} (h : ∀ b ∈ bounds, ∃ e, read b = .ok e) :
    ∃ bs, Lexes (furtherBounds bounds).toList bs ∧ Derives .bounds bs := by
  induction bounds with
  | nil => exact ⟨[], .nil, .noBounds⟩
  | cons b bounds ih =>
    obtain ⟨⟨e, he⟩, hrest⟩ := List.forall_mem_cons.mp h
    obtain ⟨ts, hts, hderives⟩ := read_eq_ok.mp he
    obtain ⟨bs, hbs, hbounds⟩ := ih hrest
    refine ⟨.plus :: (ts ++ bs), ?_, .bound hderives hbounds⟩
    have htokens := hts.append hbs (head_furtherBounds bounds)
    rw [toList_furtherBounds]
    exact .blank isBlank_space (.mark rfl (.blank isBlank_space htokens))

/-! ### One wrapper -/

/-- The text can stand behind `&`, and the type that it spells has `inner` in its pointers. -/
def Reaches (inner : Expr) (s : String) : Prop :=
  ∃ ts e, Lexes s.toList ts ∧ Derives (.type e) ts ∧ ts.head? ≠ some (.word "mut") ∧
    unwrap e = inner

section Wrappers

variable {inner : Expr} {s : String}

theorem reaches_bare {path : List String} (hpath : PlainPath path) :
    Reaches ⟨path, []⟩ (String.intercalate "::" path) := by
  have hhead := hpath.head []
  rw [List.append_nil] at hhead
  refine ⟨_, _, hpath.lexes, hpath.derives, hhead, ?_⟩
  rw [unwrap]
  exact nofun

theorem unwrap_pointer {home : List String} {name : String} {e : Expr}
    (hpointer : isPointer name = true) : unwrap ⟨home ++ [name], [e]⟩ = unwrap e := by
  rw [unwrap]
  simp [Expr.baseName, hpointer]

theorem Reaches.pointer {home : List String} {name : String} (hpointer : isPointer name = true)
    (hhome : PlainPath (home ++ [name])) (h : Reaches inner s) :
    Reaches inner (String.intercalate "::" (home ++ [name]) ++ "<" ++ s ++ ">") := by
  obtain ⟨ts, e, hlexes, hderives, -, rfl⟩ := h
  have hclose : Lexes (s.toList ++ ['>']) (ts ++ [.greater]) :=
    hlexes.append (.mark rfl .nil) (by rintro _ ⟨⟩; decide)
  have hopen : Lexes ('<' :: (s.toList ++ ['>'])) (.less :: (ts ++ [.greater])) := .mark rfl hclose
  refine ⟨_, _, ?_, .generic (isPath_pathTokens hhome.nonempty) hhome.not_dyn (.lastArg hderives),
    hhome.head _, unwrap_pointer hpointer⟩
  rw [String.toList_append, String.toList_append, String.toList_append, List.append_assoc,
    List.append_assoc]
  exact hhome.lexes.append hopen (by rintro _ ⟨⟩; decide)

theorem Reaches.reference {gap : String} (hgap : ∀ c ∈ gap.toList, isBlank c = true)
    (h : Reaches inner s) : Reaches inner ("&" ++ gap ++ s) := by
  obtain ⟨ts, e, hlexes, hderives, hmut, rfl⟩ := h
  refine ⟨.ampersand :: ts, e, ?_, .reference (Or.inl rfl) hmut hderives, nofun, rfl⟩
  have htokens : Lexes (gap.toList ++ s.toList) ts := hlexes.gap hgap
  rw [String.toList_append, String.toList_append, List.append_assoc]
  exact .mark rfl htokens

theorem Reaches.lifetime {name : String} (hname : ∀ c ∈ name.toList, isWordChar c = true)
    (h : Reaches inner s) : Reaches inner ("&'" ++ name ++ " " ++ s) := by
  obtain ⟨ts, e, hlexes, hderives, hmut, rfl⟩ := h
  refine ⟨.ampersand :: .lifetime :: ts, e, ?_, .reference (Or.inr rfl) hmut hderives, nofun, rfl⟩
  have hrun : IsRun name.toList (' ' :: s.toList) :=
    ⟨hname, by rintro _ ⟨⟩; exact isWordChar_of_isBlank isBlank_space⟩
  have htokens := Lexes.lifetime hrun (.blank isBlank_space hlexes)
  rw [String.toList_append, String.toList_append, String.toList_append, List.append_assoc,
    List.append_assoc]
  exact .mark rfl htokens

theorem Reaches.mutReference (h : Reaches inner s) : Reaches inner ("&mut " ++ s) := by
  obtain ⟨ts, e, hlexes, hderives, -, rfl⟩ := h
  refine ⟨.ampersand :: .word "mut" :: ts, e, ?_, .mutReference (Or.inl rfl) hderives, nofun, rfl⟩
  have hword := hlexes.spacedWord (show IsWord "mut" by decide)
  rw [String.toList_append]
  exact .mark rfl hword

theorem Reaches.dyn {bounds : List String} (hbounds : ∀ b ∈ bounds, ∃ e, read b = .ok e)
    (h : Reaches inner s) : Reaches inner ("dyn " ++ s ++ furtherBounds bounds) := by
  obtain ⟨ts, e, hlexes, hderives, -, rfl⟩ := h
  obtain ⟨bs, hbs, hderives_bounds⟩ := lexes_furtherBounds hbounds
  refine ⟨.word "dyn" :: (ts ++ bs), e, ?_, .dyn hderives hderives_bounds, by simp, rfl⟩
  have htokens := hlexes.append hbs (head_furtherBounds bounds)
  rw [String.toList_append, String.toList_append, List.append_assoc]
  exact htokens.spacedWord (show IsWord "dyn" by decide)

theorem reaches_of_wrapped {path : List String} (hpath : PlainPath path) (h : Wrapped path s) :
    Reaches ⟨path, []⟩ s := by
  induction h with
  | bare => exact reaches_bare hpath
  | pointer hpointer hhome _ ih => exact ih.pointer hpointer hhome
  | reference hgap _ ih => exact ih.reference hgap
  | lifetime hname _ ih => exact ih.lifetime hname
  | mutReference _ ih => exact ih.mutReference
  | dyn hbounds _ ih => exact ih.dyn hbounds

end Wrappers

/-! ### Names of callback interfaces -/

theorem callbackName_eq_ok {s n : String} :
    callbackName s = .ok n ↔
      ∃ e, read s = .ok e ∧ (unwrap e).isGeneric = false ∧ (unwrap e).baseName = n := by
  unfold callbackName
  cases read s with
  | error e => simp
  | ok e => cases h : (unwrap e).isGeneric <;> simp [h]

theorem Expr.WellFormed.unwrap {e : Expr} (h : e.WellFormed) : (Spelling.unwrap e).WellFormed := by
  induction h with
  | @mk path args hne hwords hkeyword hargs ih =>
    unfold Spelling.unwrap
    split
    · split
      · exact ih _ List.mem_cons_self
      · exact .mk hne hwords hkeyword hargs
    · exact .mk hne hwords hkeyword hargs

theorem Expr.WellFormed.baseName {e : Expr} (h : e.WellFormed) : IsWord e.baseName := by
  obtain ⟨hne, hwords, -, -⟩ := h
  rw [Expr.baseName, List.getLast?_eq_some_getLast hne]
  exact hwords _ (List.getLast_mem hne)

/-- The name of a callback interface is found through any wrappers, and what is found is a word. -/
theorem callbackName_wrapped :
    (∀ (path : List String) (hpath : PlainPath path) (s : String), Wrapped path s →
      callbackName s = .ok (path.getLast hpath.nonempty)) ∧
    ∀ s n, callbackName s = .ok n → IsWord n ∧
      ∀ c ∈ n.toList, isBlank c = false ∧ c ≠ ':' ∧ c ≠ '<' ∧ c ≠ '&' := by
  refine ⟨fun path hpath s hs => ?_, fun s n h => ?_⟩
  · obtain ⟨ts, e, hlexes, hderives, -, hinner⟩ := reaches_of_wrapped hpath hs
    refine callbackName_eq_ok.mpr ⟨e, read_eq_ok.mpr ⟨ts, hlexes, hderives⟩, ?_, ?_⟩
    · rw [hinner]; rfl
    · rw [hinner, Expr.baseName, List.getLast?_eq_some_getLast hpath.nonempty]; rfl
  · obtain ⟨e, hread, -, rfl⟩ := callbackName_eq_ok.mp h
    have hword := (wellFormed_of_read hread).unwrap.baseName
    refine ⟨hword, fun c hc => ?_⟩
    obtain ⟨hblank, hmark, hcolon, -⟩ := classes_of_isWordChar (hword.inside c hc)
    refine ⟨hblank, hcolon, ?_, ?_⟩
    · rintro rfl
      cases hmark
    · rintro rfl
      cases hmark

/-- Wrappers of every kind around a listener. -/
theorem callbackName_wrapped_listener :
    callbackName "& &'a Box<dyn std::sync::Arc<&mut demo::Listener> + Send>" = .ok "Listener" := by
  have hplain : PlainPath ["demo", "Listener"] ∧ PlainPath ["std", "sync", "Arc"] ∧
      PlainPath ["Box"] ∧ PlainPath ["Send"] := by decide
  obtain ⟨hlistener, harc, hbox, hsend⟩ := hplain
  have hbounds : ∀ b ∈ ["Send"], ∃ e, read b = .ok e :=
    List.forall_mem_singleton.mpr ⟨⟨["Send"], []⟩, hsend.read⟩
  have hshared : Wrapped ["demo", "Listener"] "std::sync::Arc<&mut demo::Listener>" :=
    @Wrapped.pointer _ ["std", "sync"] "Arc" _ rfl harc (.mutReference .bare)
  have hboxed : Wrapped ["demo", "Listener"]
      "Box<dyn std::sync::Arc<&mut demo::Listener> + Send>" :=
    @Wrapped.pointer _ [] "Box" _ rfl hbox (.dyn hbounds hshared)
  have hlifetime : Wrapped ["demo", "Listener"]
      "&'a Box<dyn std::sync::Arc<&mut demo::Listener> + Send>" :=
    @Wrapped.lifetime _ "a" _ (List.all_eq_true.mp rfl) hboxed
  exact callbackName_wrapped.1 _ hlistener _
    (@Wrapped.reference _ " " _ (List.all_eq_true.mp rfl) hlifetime)

end HostBindings.Spelling
