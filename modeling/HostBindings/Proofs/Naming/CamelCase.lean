import HostBindings.Proofs.Generate.HostNames
import HostBindings.Proofs.Naming
import HostBindings.Proofs.Text.Split

/-!
Camel case by words. A name in camel case is its first word and then each further word with its
first character in upper case, so underscores matter only as ends of words. Where words are lower
case, the capitals show where they begin: the name can be read back, and host names of different
native names differ.
-/

namespace HostBindings

namespace Naming

open HostBindings.Text

/-! ### Words -/

/-- The words of a name: what stands between its underscores, if anything does. -/
def words (name : List Char) : List (List Char) :=
  (splitAtChar (· == '_') name).filter (!·.isEmpty)

def joinWords : List (List Char) → List Char
  | [] => []
  | word :: words => word ++ words.flatMap capitalizeChars

theorem flatMap_capitalize_filter (parts : List (List Char)) :
    (parts.filter (!·.isEmpty)).flatMap capitalizeChars = parts.flatMap capitalizeChars := by
  induction parts with
  | nil => rfl
  | cons part parts ih =>
    cases part with
    | nil => exact ih
    | cons c cs =>
      rw [List.filter_cons_of_pos rfl, List.flatMap_cons, List.flatMap_cons, ih]

theorem camelFrom_started {cs part : List Char} {parts : List (List Char)}
    (h : splitAtChar (· == '_') cs = part :: parts) :
    camelFrom true true cs = (part :: parts).flatMap capitalizeChars ∧
      camelFrom true false cs = part ++ parts.flatMap capitalizeChars := by
  induction cs generalizing part parts with
  | nil =>
    obtain ⟨rfl, rfl⟩ := List.cons.inj h
    exact ⟨rfl, rfl⟩
  | cons c cs ih =>
    obtain ⟨first, others, hothers⟩ :=
      List.exists_cons_of_ne_nil (splitAtChar_ne_nil (p := (· == '_')) cs)
    obtain ⟨hraised, hbegun⟩ := ih hothers
    rw [splitAtChar, hothers] at h
    -- an underscore ends a part and raises the next one
    by_cases hc : c = '_'
    · rw [if_pos (beq_iff_eq.mpr hc)] at h
      obtain ⟨rfl, rfl⟩ := List.cons.inj h
      rw [camelFrom, if_pos hc, camelFrom, if_pos hc, hraised]
      exact ⟨rfl, rfl⟩
    · rw [if_neg (by simpa using hc)] at h
      obtain ⟨rfl, rfl⟩ := List.cons.inj h
      rw [camelFrom, if_neg hc, camelFrom, if_neg hc, hbegun]
      exact ⟨(List.append_assoc _ _ _).symm, rfl⟩

theorem camelFrom_eq (cs : List Char) : camelFrom false false cs = joinWords (words cs) := by
  induction cs with
  | nil => rfl
  | cons c cs ih =>
    obtain ⟨part, parts, hparts⟩ :=
      List.exists_cons_of_ne_nil (splitAtChar_ne_nil (p := (· == '_')) cs)
    by_cases hc : c = '_'
    · rw [camelFrom, if_pos hc, ih, words, words, splitAtChar, if_pos (beq_iff_eq.mpr hc)]
      rfl
    · have hsplit : splitAtChar (· == '_') (c :: cs) = (c :: part) :: parts := by
        rw [splitAtChar, if_neg (by simpa using hc), hparts]
      rw [camelFrom, if_neg hc, (camelFrom_started hparts).2, words, hsplit,
        List.filter_cons_of_pos rfl, joinWords, flatMap_capitalize_filter]
      rfl

theorem toList_camelCase (name : String) :
    (camelCase name).toList = joinWords (words name.toList) := by
  rw [camelCase, String.toList_ofList, camelFrom_eq]

/-! ### Underscores -/

theorem words_append (before after : List Char) :
    words (before ++ '_' :: after) = words before ++ words after := by
  rw [words, splitAtChar_append _ _ (c := '_') rfl, List.filter_append, words, words]

theorem words_nil : words [] = [] :=
  rfl

/-- The words alone decide on the camel case. -/
theorem camelCase_congr {a b : String} (h : words a.toList = words b.toList) :
    camelCase a = camelCase b := by
  rw [← String.toList_inj, toList_camelCase, toList_camelCase, h]

theorem camelCase_leading (name : String) : camelCase ("_" ++ name) = camelCase name := by
  apply camelCase_congr
  have hsplit : ("_" ++ name).toList = [] ++ '_' :: name.toList := by simp
  rw [hsplit, words_append, words_nil, List.nil_append]

theorem camelCase_trailing (name : String) : camelCase (name ++ "_") = camelCase name := by
  apply camelCase_congr
  have hsplit : (name ++ "_").toList = name.toList ++ '_' :: [] := by simp
  rw [hsplit, words_append, words_nil, List.append_nil]

theorem camelCase_repeated (before after : String) :
    camelCase (before ++ "__" ++ after) = camelCase (before ++ "_" ++ after) := by
  apply camelCase_congr
  have htwo : (before ++ "__" ++ after).toList =
      before.toList ++ '_' :: ([] ++ '_' :: after.toList) := by simp
  have hone : (before ++ "_" ++ after).toList = before.toList ++ '_' :: after.toList := by simp
  rw [htwo, hone, words_append, words_append, words_append, words_nil, List.nil_append]

/-! ### Snake case -/

def IsSnakeWord : List Char → Prop
  | [] => False
  | c :: cs => c.isLower = true ∧ ∀ d ∈ cs, d.isLower = true ∨ d.isDigit = true

instance : DecidablePred IsSnakeWord
  | [] => inferInstanceAs (Decidable False)
  | _ :: cs => @instDecidableAnd _ _ inferInstance (List.decidableBAll _ cs)

/-- Words joined by single underscores: between any two underscores, and at both ends, there is a
word. -/
def IsSnakeCase (name : String) : Prop :=
  ∀ word ∈ splitAtChar (· == '_') name.toList, IsSnakeWord word

instance : DecidablePred IsSnakeCase :=
  fun name => inferInstanceAs (Decidable (∀ word ∈ splitAtChar (· == '_') name.toList, _))

def readBack (cs : List Char) : List Char :=
  cs.flatMap fun c => if c.isUpper then ['_', c.toLower] else [c]

/-- What holds of all codes of ASCII holds of its characters. -/
theorem forall_ascii {P : Char → Prop} (h : ∀ n < 128, P (Char.ofNat n)) {c : Char}
    (hc : c.toNat < 128) : P c := by
  have hp := h c.toNat hc
  rwa [Char.ofNat_toNat] at hp

theorem toNat_lt_of_isLower {c : Char} (h : c.isLower = true) : c.toNat < 128 := by
  have hz : c.val.toNat ≤ 122 := of_decide_eq_true (Bool.and_eq_true_iff.mp h).2
  show c.val.toNat < 128
  omega

theorem toNat_lt_of_isDigit {c : Char} (h : c.isDigit = true) : c.toNat < 128 := by
  have hnine : c.val.toNat ≤ 57 := of_decide_eq_true (Bool.and_eq_true_iff.mp h).2
  show c.val.toNat < 128
  omega

/-- The characters of words are no capitals, and no backticks either. -/
theorem not_isUpper_of_snake {c : Char} (h : c.isLower = true ∨ c.isDigit = true) :
    c.isUpper = false ∧ c ≠ '`' :=
  forall_ascii (P := fun c => c.isLower = true ∨ c.isDigit = true → c.isUpper = false ∧ c ≠ '`')
    (by decide) (h.elim toNat_lt_of_isLower toNat_lt_of_isDigit) h

theorem toUpper_of_isLower {c : Char} (h : c.isLower = true) :
    c.toUpper.isUpper = true ∧ c.toUpper.toLower = c :=
  forall_ascii (P := fun c => c.isLower = true → c.toUpper.isUpper = true ∧ c.toUpper.toLower = c)
    (by decide) (toNat_lt_of_isLower h) h

theorem IsSnakeWord.forall_mem {word : List Char} (h : IsSnakeWord word) :
    ∀ c ∈ word, c.isLower = true ∨ c.isDigit = true := by
  cases word with
  | nil => exact h.elim
  | cons c cs => exact List.forall_mem_cons.mpr ⟨Or.inl h.1, h.2⟩

theorem backtick_notMem_of_snakeCase {name : String} (h : IsSnakeCase name) :
    '`' ∉ name.toList := by
  rw [mem_iff_splitAtChar (p := (· == '_')) (by decide)]
  rintro ⟨word, hword, hmem⟩
  exact (not_isUpper_of_snake ((h word hword).forall_mem _ hmem)).2 rfl

/-! ### Reading back -/

theorem readBack_small {cs : List Char} (h : ∀ c ∈ cs, c.isLower = true ∨ c.isDigit = true) :
    readBack cs = cs := by
  induction cs with
  | nil => rfl
  | cons c cs ih =>
    rw [List.forall_mem_cons] at h
    have hcs := ih h.2
    rw [readBack] at hcs ⊢
    rw [List.flatMap_cons, (not_isUpper_of_snake h.1).1, hcs]
    rfl

theorem readBack_capitalize {word : List Char} (h : IsSnakeWord word) :
    readBack (capitalizeChars word) = '_' :: word := by
  cases word with
  | nil => exact h.elim
  | cons c cs =>
    obtain ⟨hc, hcs⟩ := h
    obtain ⟨hupper, hlower⟩ := toUpper_of_isLower hc
    have htail := readBack_small hcs
    rw [readBack] at htail
    rw [capitalizeChars, upper_ascii (toNat_lt_of_isLower hc), readBack, List.singleton_append,
      List.flatMap_cons, if_pos hupper, hlower, htail]
    rfl

theorem readBack_append (a b : List Char) : readBack (a ++ b) = readBack a ++ readBack b :=
  List.flatMap_append

theorem readBack_capitals {words : List (List Char)} (h : ∀ word ∈ words, IsSnakeWord word) :
    readBack (words.flatMap capitalizeChars) = words.flatMap ('_' :: ·) := by
  induction words with
  | nil => rfl
  | cons word words ih =>
    rw [List.forall_mem_cons] at h
    rw [List.flatMap_cons, readBack_append, readBack_capitalize h.1, ih h.2, List.flatMap_cons]

theorem words_of_snakeCase {name : String} (h : IsSnakeCase name) :
    words name.toList = splitAtChar (· == '_') name.toList := by
  rw [words, List.filter_eq_self]
  intro word hword
  cases word with
  | nil => exact (h _ hword).elim
  | cons c cs => rfl

theorem readBack_camelCase {name : String} (h : IsSnakeCase name) :
    readBack (camelCase name).toList = name.toList := by
  obtain ⟨part, parts, hparts⟩ :=
    List.exists_cons_of_ne_nil (splitAtChar_ne_nil (p := (· == '_')) name.toList)
  have hwords : ∀ word ∈ part :: parts, IsSnakeWord word := hparts ▸ h
  rw [List.forall_mem_cons] at hwords
  rw [toList_camelCase, words_of_snakeCase h, hparts, joinWords, readBack_append,
    readBack_small hwords.1.forall_mem, readBack_capitals hwords.2, splitAtChar_join hparts]

theorem camelCase_injOn {a b : String} (ha : IsSnakeCase a) (hb : IsSnakeCase b)
    (h : camelCase a = camelCase b) : a = b := by
  rw [← String.toList_inj, ← readBack_camelCase ha, ← readBack_camelCase hb, h]

end Naming

/-- Host names keep names in snake case apart. -/
theorem hostName_injOn {lang : Lang} {a b : String} (ha : Naming.IsSnakeCase a)
    (hb : Naming.IsSnakeCase b) (h : lang.hostName a = lang.hostName b) : a = b :=
  Naming.camelCase_injOn ha hb
    ((hostName_inj (Naming.backtick_notMem_of_snakeCase ha)
      (Naming.backtick_notMem_of_snakeCase hb)).mp h)

namespace Generate

open HostBindings.Naming

variable {lang : Lang} {c : Catalog}

/-! ### Collisions -/

def SnakeCaseNames (c : Catalog) : Prop :=
  ∀ i ∈ c.interfaces, ∀ m ∈ i.methods,
    IsSnakeCase m.name ∧ ∀ s ∈ m.passed, IsSnakeCase s.name

instance : DecidablePred SnakeCaseNames :=
  fun c => inferInstanceAs
    (Decidable (∀ i ∈ c.interfaces, ∀ m ∈ i.methods, _ ∧ ∀ s ∈ m.passed, _))

structure NativeNamesDistinct (c : Catalog) : Prop where
  methods : ∀ i ∈ c.interfaces, (i.methods.map (·.name)).Nodup
  arguments : ∀ i ∈ c.interfaces, ∀ m ∈ i.methods, (m.passed.map (·.name)).Nodup
  fields : ∀ r ∈ c.records, (r.fields.map (·.name)).Nodup

theorem nodup_hostNames (lang : Lang) {names : List String} (h : ∀ name ∈ names, IsSnakeCase name) :
    (names.map lang.hostName).Nodup ↔ names.Nodup :=
  ⟨List.Nodup.of_map _, fun hnodup =>
    hnodup.map_on fun a ha b hb => hostName_injOn (h a ha) (h b hb)⟩

theorem distinctNames_iff (h : SnakeCaseNames c) :
    DistinctNames lang c ↔ NativeNamesDistinct c := by
  have hmethods : ∀ i ∈ c.interfaces,
      (i.methods.map fun m => lang.hostName m.name).Nodup ↔ (i.methods.map (·.name)).Nodup := by
    intro i hi
    rw [← nodup_hostNames lang (List.forall_mem_map.mpr fun m hm => (h i hi m hm).1),
      List.map_map]
    rfl
  have harguments : ∀ i ∈ c.interfaces, ∀ m ∈ i.methods,
      (m.passed.map fun s => lang.hostName s.name).Nodup ↔ (m.passed.map (·.name)).Nodup := by
    intro i hi m hm
    rw [← nodup_hostNames lang (List.forall_mem_map.mpr (h i hi m hm).2), List.map_map]
    rfl
  constructor
  · intro hd
    exact ⟨fun i hi => (hmethods i hi).mp (hd.methods i hi),
      fun i hi m hm => (harguments i hi m hm).mp (hd.arguments i hi m hm), hd.fields⟩
  · intro hd
    exact ⟨fun i hi => (hmethods i hi).mpr (hd.methods i hi),
      fun i hi m hm => (harguments i hi m hm).mpr (hd.arguments i hi m hm), hd.fields⟩

/-- Both names of a collision have one host name. Fields are compared as they are. -/
theorem image_eq_of_collision {k : Collision} (h : catalogCollision? lang c = some k) :
    lang.hostName k.first = lang.hostName k.second := by
  rw [catalogCollision?_eq] at h
  obtain ⟨s, hs, hk⟩ := List.exists_of_findSome?_eq_some h
  have himage := (NameScope.firstClash_of_collision? hk).image_eq
  have hscope : s.image = lang.hostName ∨ s.image = id := image_of_mem_nameScopes hs
  rcases hscope with heq | heq
  · rwa [heq] at himage
  · rw [heq] at himage
    rw [show k.first = k.second from himage]

/-- Camel case goes by words. It has no underscore, and it is the first word followed by the others
with their first characters in upper case, so underscores at the ends of a name or next to each
other do not matter. Host names in both languages differ for different names in snake case: no
collision is reported between two such names, and a catalog that uses them has none exactly if its
native names differ in each scope. -/
theorem camelCase_separates :
    (∀ name, '_' ∉ (camelCase name).toList ∧
      (camelCase name).toList = joinWords (words name.toList)) ∧
    (∀ name rest, camelCase ("_" ++ name) = camelCase name ∧
      camelCase (name ++ "_") = camelCase name ∧
        camelCase (name ++ "__" ++ rest) = camelCase (name ++ "_" ++ rest)) ∧
    (∀ (lang : Lang) (a b : String), IsSnakeCase a → IsSnakeCase b →
      lang.hostName a = lang.hostName b → a = b) ∧
    ∀ (lang : Lang) (c : Catalog),
      (∀ k, catalogCollision? lang c = some k → IsSnakeCase k.first → IsSnakeCase k.second →
        k.first = k.second) ∧
      (SnakeCaseNames c → (catalogCollision? lang c = none ↔ NativeNamesDistinct c)) := by
  refine ⟨fun name => ⟨underscore_notMem_camelCase name, toList_camelCase name⟩,
    fun name rest => ⟨camelCase_leading name, camelCase_trailing name, ?_⟩,
    fun lang a b => hostName_injOn, fun lang c => ⟨fun k hk hfirst hsecond => ?_, fun h => ?_⟩⟩
  · exact camelCase_repeated name rest
  · exact hostName_injOn hfirst hsecond (image_eq_of_collision hk)
  · exact catalogCollision?_eq_none.trans (distinctNames_iff h)

/-- A service whose method and arguments differ by underscores and reserved words only. -/
def pumpCatalog : Catalog where
  interfaces :=
    [{ name := "Pump", module := "demo", package := "demo-lib", isCallback := false,
       methods :=
        [⟨"for_each", .void, "()",
          [⟨"in", .single .string, "String"⟩, ⟨"i_n", .single .string, "String"⟩]⟩,
         ⟨"foreach", .void, "()", []⟩, ⟨"for", .void, "()", []⟩] }]
  records := []

theorem camelCase_separates_pump :
    IsSnakeCase "for_each" ∧ IsSnakeCase "foreach" ∧
      (∀ lang : Lang, lang.hostName "for_each" ≠ lang.hostName "foreach") ∧
      SnakeCaseNames pumpCatalog ∧ NativeNamesDistinct pumpCatalog ∧
      ∀ lang, catalogCollision? lang pumpCatalog = none := by
  have hfor : IsSnakeCase "for_each" := by decide
  have hforeach : IsSnakeCase "foreach" := by decide
  have hsnake : SnakeCaseNames pumpCatalog := by decide
  have hdistinct : NativeNamesDistinct pumpCatalog := ⟨by decide, by decide, by decide⟩
  obtain ⟨-, -, hnames, hcatalogs⟩ := camelCase_separates
  refine ⟨hfor, hforeach, fun lang h => ?_, hsnake, hdistinct, fun lang => ?_⟩
  · exact absurd (hnames lang _ _ hfor hforeach h) (by decide)
  · exact ((hcatalogs lang pumpCatalog).2 hsnake).mpr hdistinct

end Generate

end HostBindings
