import HostBindings.Generate.Body

/-!
Names and signs. Case mappings produce letters of ASCII and characters beyond it, so a sign such as
an underscore or a bracket is in a mapped name only if it was in the name. Camel case drops the
underscores of a name: a host name differs from every name that is written with an underscore, and a
word in camel case can be told apart from an ending behind it that begins with one. Registries and
proxies are told apart by their endings.
-/

namespace HostBindings

/-! ### Case mappings and signs -/

namespace Text

theorem ofNat_ne {n : Nat} {c : Char} (h : n ≠ c.toNat) (hc : c.toNat ≠ 0) : Char.ofNat n ≠ c := by
  intro he
  by_cases hn : n.isValidChar
  · rw [Char.ofNat, dif_pos hn] at he
    exact h (congrArg Char.toNat he)
  · rw [Char.ofNat, dif_neg hn] at he
    exact hc (congrArg Char.toNat he).symm

/-- A code that is in no image of the tables comes from itself alone. -/
theorem notMem_mapCase {expansions : List (Nat × List Nat)} {runs : List CaseRun} {bad code : Nat}
    (hexpansions : ∀ e ∈ expansions, bad ∉ e.2)
    (hruns : ∀ r ∈ runs, bad < r.target ∨ r.target + (r.last - r.first) < bad)
    (h : code ≠ bad) : bad ∉ mapCase expansions runs code := by
  unfold mapCase
  split
  · rename_i e codes he
    exact hexpansions _ (List.mem_of_find?_eq_some he)
  · split
    · rename_i r hr
      have hc := List.find?_some hr
      simp only [CaseRun.covers, Bool.and_eq_true, decide_eq_true_eq] at hc
      rw [List.mem_singleton, CaseRun.image]
      -- a run shifts its codes, so all its images lie on the side of the target
      rcases hruns r (List.mem_of_find?_eq_some hr) with ht | ht <;> omega
    · rw [List.mem_singleton]
      exact h.symm

/-- Codes that case mappings may produce: those of ASCII letters, and all beyond ASCII. -/
def IsCased (n : Nat) : Prop :=
  128 ≤ n ∨ 65 ≤ n ∧ n ≤ 90 ∨ 97 ≤ n ∧ n ≤ 122

instance : DecidablePred IsCased :=
  fun _ => inferInstanceAs (Decidable (_ ∨ _))

/-- The other characters, such as underscores, digits and brackets. -/
def IsSign (c : Char) : Prop :=
  0 < c.toNat ∧ ¬ IsCased c.toNat

instance : DecidablePred IsSign :=
  fun _ => inferInstanceAs (Decidable (_ ∧ _))

theorem sign_notMem_mapCase {expansions : List (Nat × List Nat)} {runs : List CaseRun} {code : Nat}
    {sign : Char} (hexpansions : ∀ e ∈ expansions, ∀ n ∈ e.2, IsCased n)
    (hruns : ∀ r ∈ runs, 128 ≤ r.target ∨ r.first = r.last ∧ IsCased r.target)
    (hsign : IsSign sign) (h : code ≠ sign.toNat) :
    sign ∉ (mapCase expansions runs code).map Char.ofNat := by
  rw [List.mem_map]
  rintro ⟨n, hmem, he⟩
  apply ofNat_ne _ (Nat.ne_of_gt hsign.1) he
  rintro rfl
  refine notMem_mapCase (fun e he hn => hsign.2 (hexpansions e he _ hn)) (fun r hr => ?_) h hmem
  have hcased := hsign.2
  rcases hruns r hr with ht | ⟨hone, ht⟩
  · unfold IsCased at hcased
    omega
  · -- the run maps one code only
    have hne : r.target ≠ sign.toNat := fun heq => hcased (heq ▸ ht)
    omega

/-! ### Upper case -/

theorem toUpper_ne_sign {c sign : Char} (hsign : IsSign sign) (h : c ≠ sign) :
    c.toUpper ≠ sign := by
  unfold Char.toUpper
  split
  · rename_i hc
    -- the new code is the old one less 32, that of a capital letter
    intro he
    have hn := congrArg (fun d : Char => d.val.toNat) he
    simp only [UInt32.toNat_add] at hn
    have hlo : 97 ≤ c.val.toNat := hc.1
    have hhi : c.val.toNat ≤ 122 := hc.2
    have hd : ('A'.val - 'a'.val).toNat = 4294967264 := by decide
    have hcased : ¬ IsCased sign.val.toNat := hsign.2
    unfold IsCased at hcased
    omega
  · exact h

theorem upperExpansions_cased : ∀ e ∈ upperExpansions, ∀ n ∈ e.2, IsCased n := by
  decide +kernel

theorem upperRuns_cased :
    ∀ r ∈ upperRuns, 128 ≤ r.target ∨ r.first = r.last ∧ IsCased r.target := by
  decide +kernel

/-- An upper case has no sign but the character itself. -/
theorem sign_notMem_upper {c sign : Char} (hsign : IsSign sign) (h : c ≠ sign) :
    sign ∉ upper c := by
  unfold upper
  split
  · -- up to 127 the language has its own upper case
    rw [List.mem_singleton]
    exact (toUpper_ne_sign hsign h).symm
  · exact sign_notMem_mapCase upperExpansions_cased upperRuns_cased hsign
      fun heq => h (Char.toNat_inj.mp heq)

/-! ### Lower case -/

theorem toLower_ne_capital (c : Char) : c.toLower ≠ 'C' := by
  unfold Char.toLower
  split
  · rename_i hc
    -- the new code is the old one and 32
    intro he
    have hn := congrArg (fun d : Char => d.val.toNat) he
    simp only [UInt32.toNat_add] at hn
    have hlo : 65 ≤ c.val.toNat := hc.1
    have hhi : c.val.toNat ≤ 90 := hc.2
    have hd : ('a'.val - 'A'.val).toNat = 32 := by decide
    have hu : 'C'.val.toNat = 67 := by decide
    omega
  · rename_i hc
    rintro rfl
    exact hc (by decide)

theorem toLower_ne_sign {c sign : Char} (hsign : IsSign sign) (h : c ≠ sign) :
    c.toLower ≠ sign := by
  unfold Char.toLower
  split
  · rename_i hc
    intro he
    have hn := congrArg (fun d : Char => d.val.toNat) he
    simp only [UInt32.toNat_add] at hn
    have hlo : 65 ≤ c.val.toNat := hc.1
    have hhi : c.val.toNat ≤ 90 := hc.2
    have hd : ('a'.val - 'A'.val).toNat = 32 := by decide
    have hcased : ¬ IsCased sign.val.toNat := hsign.2
    unfold IsCased at hcased
    omega
  · exact h

theorem lowerExpansions_images : ∀ e ∈ lowerExpansions, e.2 ≠ [] ∧ 67 ∉ e.2 := by
  decide

theorem lowerExpansions_cased : ∀ e ∈ lowerExpansions, ∀ n ∈ e.2, IsCased n := by
  decide

theorem lowerRuns_cased :
    ∀ r ∈ lowerRuns, 128 ≤ r.target ∨ r.first = r.last ∧ IsCased r.target := by
  decide +kernel

/-- A lower case has no sign but the character itself. -/
theorem sign_notMem_lower {c sign : Char} (hsign : IsSign sign) (h : c ≠ sign) :
    sign ∉ lower c := by
  unfold lower
  split
  · rw [List.mem_singleton]
    exact (toLower_ne_sign hsign h).symm
  · exact sign_notMem_mapCase lowerExpansions_cased lowerRuns_cased hsign
      fun heq => h (Char.toNat_inj.mp heq)

theorem lowerRuns_ne_capital :
    ∀ r ∈ lowerRuns, 67 < r.target ∨ r.target + (r.last - r.first) < 67 := by
  decide +kernel

/-- No lower case is the letter that the type of registries begins with. -/
theorem capital_notMem_lower (c : Char) : 'C' ∉ lower c := by
  unfold lower
  split
  · rw [List.mem_singleton]
    exact (toLower_ne_capital c).symm
  · rename_i hc
    have hn : c.toNat ≠ 67 := by omega
    rw [List.mem_map]
    rintro ⟨n, hmem, he⟩
    apply ofNat_ne _ (by decide) he
    rintro rfl
    exact notMem_mapCase (fun e he => (lowerExpansions_images e he).2) lowerRuns_ne_capital hn hmem

theorem lower_ne_nil (c : Char) : lower c ≠ [] := by
  unfold lower
  split
  · exact List.cons_ne_nil _ _
  · rw [ne_eq, List.map_eq_nil_iff]
    unfold mapCase
    split
    · rename_i e codes he
      exact (lowerExpansions_images _ (List.mem_of_find?_eq_some he)).1
    · split <;> exact List.cons_ne_nil _ _

end Text

/-! ### Camel case and host names -/

namespace Naming

/-- Camel case has the signs of the name, but no underscore. -/
theorem sign_mem_camelFrom {sign : Char} (hsign : Text.IsSign sign) (started raise : Bool)
    {cs : List Char} (h : sign ∈ camelFrom started raise cs) : sign ≠ '_' ∧ sign ∈ cs := by
  induction cs generalizing started raise with
  | nil => exact absurd h List.not_mem_nil
  | cons c cs ih =>
    unfold camelFrom at h
    split at h
    · exact (ih _ _ h).imp_right (List.mem_cons_of_mem c)
    · rename_i hc
      rcases List.mem_append.mp h with h | h
      · -- the character itself, for no other one has the sign in its upper case
        have hself : c = sign := by
          cases raise with
          | false => exact (List.mem_singleton.mp h).symm
          | true => exact Decidable.by_contra fun hne => Text.sign_notMem_upper hsign hne h
        exact ⟨hself ▸ hc, hself ▸ List.mem_cons_self⟩
      · exact (ih _ _ h).imp_right (List.mem_cons_of_mem c)

theorem sign_mem_camelCase {sign : Char} (hsign : Text.IsSign sign) {name : String}
    (h : sign ∈ (camelCase name).toList) : sign ≠ '_' ∧ sign ∈ name.toList := by
  rw [camelCase, String.toList_ofList] at h
  exact sign_mem_camelFrom hsign _ _ h

theorem underscore_notMem_camelCase (name : String) : '_' ∉ (camelCase name).toList :=
  fun h => (sign_mem_camelCase (by decide) h).1 rfl

/-- Escaping keeps apart what has no backticks of its own. -/
theorem escapeKeyword_inj {keywords : List String} {a b : String} (ha : '`' ∉ a.toList)
    (hb : '`' ∉ b.toList) :
    escapeKeyword keywords a = escapeKeyword keywords b ↔ a = b := by
  refine ⟨fun h => ?_, fun h => h ▸ rfl⟩
  have hescaped : ∀ x : String, '`' ∈ ("`" ++ x ++ "`").toList := by
    intro x
    rw [String.toList_append]
    exact List.mem_append_right _ (by decide)
  unfold escapeKeyword at h
  split at h <;> split at h
  · exact (String.append_right_inj _).mp ((String.append_left_inj _).mp h)
  · exact absurd (h ▸ hescaped a) hb
  · exact absurd (h ▸ hescaped b) ha
  · exact h

theorem backtick_notMem_camelCase {name : String} (h : '`' ∉ name.toList) :
    '`' ∉ (camelCase name).toList :=
  fun hc => h (sign_mem_camelCase (by decide) hc).2

end Naming

/-- Names without backticks have the same host name exactly if they have the same camel case. -/
theorem hostName_inj {lang : Lang} {a b : String} (ha : '`' ∉ a.toList) (hb : '`' ∉ b.toList) :
    lang.hostName a = lang.hostName b ↔ Naming.camelCase a = Naming.camelCase b :=
  Naming.escapeKeyword_inj (Naming.backtick_notMem_camelCase ha)
    (Naming.backtick_notMem_camelCase hb)

theorem underscore_notMem_hostName (lang : Lang) (name : String) :
    '_' ∉ (lang.hostName name).toList := by
  have hc := Naming.underscore_notMem_camelCase name
  unfold Lang.hostName Naming.escapeKeyword
  split
  · -- a keyword is put into backticks
    simpa only [String.toList_append, List.mem_append, not_or] using ⟨⟨by decide, hc⟩, by decide⟩
  · exact hc

/-- No keyword begins with a backtick, so an escaped name is none. -/
theorem hostName_notMem_keywords (lang : Lang) (name : String) :
    lang.hostName name ∉ lang.keywords := by
  unfold Lang.hostName Naming.escapeKeyword
  split
  · have hplain : ∀ k ∈ lang.keywords, k.toList.head? ≠ some '`' := by
      cases lang <;> decide
    intro hk
    apply hplain _ hk
    simp only [String.toList_append]
    rfl
  · assumption

/-- The host name is made from the camel case alone. -/
theorem hostName_congr (lang : Lang) {a b : String} (h : Naming.camelCase a = Naming.camelCase b) :
    lang.hostName a = lang.hostName b := by
  unfold Lang.hostName
  rw [h]

/-! ### Words and endings -/

namespace Naming

/-- What may stand behind a word in camel case: nothing, or a text that begins with an
underscore. -/
def IsEnding (s : String) : Prop :=
  s = "" ∨ ∃ cs, s.toList = '_' :: cs

theorem takeWhile_word {word ending : String} (hw : '_' ∉ word.toList) (he : IsEnding ending) :
    (word ++ ending).toList.takeWhile (· != '_') = word.toList := by
  have hall : ∀ c ∈ word.toList, (c != '_') = true := by
    intro c hc
    rw [bne_iff_ne]
    rintro rfl
    exact hw hc
  rw [String.toList_append, List.takeWhile_append_of_pos hall]
  rcases he with rfl | ⟨cs, hcs⟩
  · rw [String.toList_empty, List.takeWhile_nil, List.append_nil]
  · rw [hcs, List.takeWhile_cons_of_neg (by decide), List.append_nil]

/-- A text splits into a word and an ending in one way only. -/
theorem word_append_inj {v w s t : String} (hv : '_' ∉ v.toList) (hw : '_' ∉ w.toList)
    (hs : IsEnding s) (ht : IsEnding t) (h : v ++ s = w ++ t) : v = w ∧ s = t := by
  -- the word is what stands before the first underscore
  have hvw : v = w := by
    rw [← String.toList_inj, ← takeWhile_word hv hs, h, takeWhile_word hw ht]
  subst hvw
  exact ⟨rfl, (String.append_right_inj v).mp h⟩

/-! ### Fronts -/

theorem append_injective (front : String) : Function.Injective (front ++ ·) :=
  fun _ _ => (String.append_right_inj front).mp

theorem head?_append (front rest : String) {c : Char} (h : front.toList.head? = some c) :
    (front ++ rest).toList.head? = some c := by
  rw [String.toList_append, List.head?_append, h]
  rfl

theorem suffix_append (front rest : String) : rest.toList <:+ (front ++ rest).toList := by
  rw [String.toList_append]
  exact List.suffix_append _ _

theorem proxyName_injective : Function.Injective proxyName :=
  fun _ _ => (String.append_left_inj "Proxy").mp

theorem registryName_ne_proxyName (callback other : String) :
    registryName callback ≠ proxyName other := by
  intro h
  have hregistry := suffix_append (decapitalize callback) "Registry"
  have hproxy := suffix_append other "Proxy"
  rw [show decapitalize callback ++ "Registry" = other ++ "Proxy" from h] at hregistry
  -- the shorter one of two endings is an ending of the other
  exact absurd (List.suffix_of_suffix_length_le hproxy hregistry (by decide)) (by decide)

theorem registryName_ne_registryType (callback : String) :
    registryName callback ≠ "CallbackRegistry" := by
  intro h
  have hstart : decapitalize callback = "Callback" :=
    (String.append_left_inj "Registry").mp
      (h.trans (show "CallbackRegistry" = "Callback" ++ "Registry" by decide))
  have hchars : decapitalizeChars callback.toList = 'C' :: "allback".toList := by
    rw [← String.toList_ofList (l := decapitalizeChars callback.toList)]
    exact congrArg String.toList hstart
  cases hc : callback.toList with
  | nil =>
    rw [hc] at hchars
    cases hchars
  | cons c cs =>
    rw [hc, decapitalizeChars] at hchars
    -- the first character is a lower case
    obtain ⟨d, ds, hd⟩ := List.exists_cons_of_ne_nil (Text.lower_ne_nil c)
    rw [hd, List.cons_append, List.cons.injEq] at hchars
    apply Text.capital_notMem_lower c
    rw [hd, hchars.1]
    exact List.mem_cons_self

theorem proxyName_ne_registryType (callback : String) :
    proxyName callback ≠ "CallbackRegistry" := by
  intro h
  have hsuffix := suffix_append callback "Proxy"
  rw [show callback ++ "Proxy" = "CallbackRegistry" from h] at hsuffix
  exact absurd hsuffix (by decide)

theorem underscore_mem_append (front rest : String) (h : '_' ∈ front.toList) :
    '_' ∈ (front ++ rest).toList := by
  rw [String.toList_append]
  exact List.mem_append_left _ h

end Naming

namespace Generate

/-- Different camel case or a different ending makes a different local. -/
theorem argLocal_append_inj {side a b s t : String} (hs : Naming.IsEnding s)
    (ht : Naming.IsEnding t) (h : argLocal side a ++ s = argLocal side b ++ t) :
    Naming.camelCase a = Naming.camelCase b ∧ s = t := by
  unfold argLocal at h
  simp only [String.append_assoc] at h
  exact Naming.word_append_inj (Naming.underscore_notMem_camelCase a)
    (Naming.underscore_notMem_camelCase b) hs ht
    ((String.append_right_inj _).mp ((String.append_right_inj _).mp h))

theorem underscore_mem_argLocal (side name : String) : '_' ∈ (argLocal side name).toList := by
  unfold argLocal
  simp only [String.toList_append, List.mem_append]
  exact Or.inl (Or.inr (by decide))

end Generate

end HostBindings
