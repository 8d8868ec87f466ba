import HostBindings.Files.Path
import HostBindings.Proofs.Text.Split

/-!
Paths and the names in them. The path of an entry has the names of its directory and then that of
the entry, however the path of the directory is written.
-/

namespace HostBindings

namespace Files.Path

open HostBindings.Text

/-- A name that can stand between the slashes of a path. -/
structure IsName (name : String) : Prop where
  ne_empty : name ≠ ""
  slash_notMem : '/' ∉ name.toList

theorem isName_iff {name : String} : IsName name ↔ name ≠ "" ∧ '/' ∉ name.toList :=
  ⟨fun h => ⟨h.ne_empty, h.slash_notMem⟩, fun ⟨hne, hslash⟩ => ⟨hne, hslash⟩⟩

instance : DecidablePred IsName :=
  fun _ => decidable_of_iff' _ isName_iff

theorem names_empty : names "" = [] :=
  rfl

theorem names_append_slash (before after : String) :
    names (before ++ "/" ++ after) = names before ++ names after := by
  have htext : (before ++ "/" ++ after).toList = before.toList ++ '/' :: after.toList := by simp
  unfold names
  rw [htext, splitAtChar_append _ _ (c := '/') rfl, List.filter_append, List.map_append]

theorem names_of_isName {name : String} (h : IsName name) : names name = [name] := by
  have hparts : splitAtChar (· == '/') name.toList = [name.toList] := by
    refine splitAtChar_of_forall fun c hc => beq_eq_false_iff_ne.mpr ?_
    rintro rfl
    exact h.slash_notMem hc
  have hne : name.toList.isEmpty = false := by
    rw [List.isEmpty_eq_false_iff]
    exact fun hnil => h.ne_empty (String.toList_eq_nil_iff.mp hnil)
  unfold names
  rw [hparts, List.filter_cons, hne]
  simp

theorem isName_of_mem_names {path name : String} (h : name ∈ names path) : IsName name := by
  obtain ⟨part, hpart, rfl⟩ := List.mem_map.mp h
  rw [List.mem_filter] at hpart
  constructor
  · intro hempty
    obtain rfl : part = [] := by rwa [← String.toList_eq_nil_iff, String.toList_ofList] at hempty
    exact absurd hpart.2 (by simp)
  · intro hslash
    rw [String.toList_ofList] at hslash
    exact absurd (notMem_of_mem_splitAtChar hpart.1 '/' hslash) (by simp)

theorem names_intercalate {ns : List String} (h : ∀ n ∈ ns, IsName n) :
    names ("/".intercalate ns) = ns := by
  induction ns with
  | nil => rfl
  | cons n ns ih =>
    rw [List.forall_mem_cons] at h
    cases ns with
    | nil => rw [String.intercalate_singleton, names_of_isName h.1]
    | cons m ns =>
      rw [String.intercalate_cons_cons, names_append_slash, names_of_isName h.1, ih h.2]
      rfl

theorem names_slash (path : String) : names ("/" ++ path) = names path := by
  have h := names_append_slash "" path
  rwa [String.empty_append, names_empty, List.nil_append] at h

theorem isAbsolute_of_isName {name : String} (h : IsName name) : isAbsolute name = false := by
  unfold isAbsolute
  cases hname : name.toList with
  | nil => rfl
  | cons c cs =>
    rw [List.head?_cons]
    refine beq_eq_false_iff_ne.mpr fun hc => h.slash_notMem ?_
    rw [hname, ← Option.some.inj hc]
    exact List.mem_cons_self

theorem eq_append_slash {path : String} (h : endsInSlash path = true) :
    ∃ before, path = before ++ "/" := by
  unfold endsInSlash at h
  rw [beq_iff_eq] at h
  obtain ⟨cs, hcs⟩ := List.getLast?_eq_some_iff.mp h
  refine ⟨String.ofList cs, ?_⟩
  rw [← String.toList_inj, hcs]
  simp

theorem exists_join_eq {dir name : String} (hdir : dir ≠ "") (h : IsName name) :
    ∃ tail, join dir name = dir ++ tail := by
  unfold join
  rw [isAbsolute_of_isName h, Bool.false_or, if_neg (by simpa using hdir)]
  split
  · exact ⟨name, rfl⟩
  · exact ⟨"/" ++ name, String.append_assoc⟩

/-- The path of an entry leads through the directory to the entry. -/
theorem names_join (dir : String) {name : String} (h : IsName name) :
    names (join dir name) = names dir ++ [name] := by
  unfold join
  rw [isAbsolute_of_isName h, Bool.false_or]
  split
  · next hempty =>
    obtain rfl : dir = "" := String.isEmpty_iff.mp hempty
    rw [names_of_isName h, names_empty, List.nil_append]
  · split
    · next hslash =>
      -- there is no name behind a slash at the end
      obtain ⟨before, rfl⟩ := eq_append_slash hslash
      have hdir : names (before ++ "/") = names before := by
        rw [← String.append_empty (s := before ++ "/"), names_append_slash, names_empty,
          List.append_nil]
      rw [names_append_slash, hdir, names_of_isName h]
    · rw [names_append_slash, names_of_isName h]

/-- The path of an entry starts where that of the directory does. -/
theorem isAbsolute_join (dir : String) {name : String} (h : IsName name) :
    isAbsolute (join dir name) = isAbsolute dir := by
  by_cases hdir : dir = ""
  · have hjoin : join dir name = name := by
      rw [join, hdir, if_pos (by simp)]
    rw [hjoin, isAbsolute_of_isName h, hdir]
    rfl
  · obtain ⟨tail, htail⟩ := exists_join_eq hdir h
    obtain ⟨c, cs, hchars⟩ := List.exists_cons_of_ne_nil (mt String.toList_eq_nil_iff.mp hdir)
    rw [htail, isAbsolute, isAbsolute, String.toList_append, hchars]
    rfl

def NotAfter (path other : String) : Prop :=
  names path ≤ names other

/-- The paths of the entries of one directory are in the order of the entries' names. -/
theorem notAfter_join (dir : String) {name other : String} (hname : IsName name)
    (hother : IsName other) : NotAfter (join dir name) (join dir other) ↔ name ≤ other := by
  unfold NotAfter
  rw [names_join dir hname, names_join dir hother]
  induction names dir with
  | nil => simp [← not_lt, List.cons_lt_cons_iff]
  | cons n ns ih => simpa [← not_lt, List.cons_lt_cons_iff] using ih

theorem hasExtension_iff {extension name : String} :
    hasExtension extension name = true ↔
      ∃ stem, stem ≠ "" ∧ name = stem ++ "." ++ extension := by
  unfold hasExtension
  rw [Bool.and_eq_true, decide_eq_true_iff, List.isSuffixOf_iff_suffix]
  constructor
  · rintro ⟨hlength, stem, hstem⟩
    refine ⟨String.ofList stem, ?_, ?_⟩
    · -- a name that is all extension is too short
      intro hempty
      obtain rfl : stem = [] := by rwa [← String.toList_eq_nil_iff, String.toList_ofList] at hempty
      rw [← hstem, List.nil_append] at hlength
      exact absurd hlength (lt_irrefl _)
    · rw [← String.toList_inj, ← hstem]
      simp
  · rintro ⟨stem, hne, rfl⟩
    have htext : (stem ++ "." ++ extension).toList = stem.toList ++ '.' :: extension.toList := by
      simp
    have hpos : 0 < stem.toList.length := by
      rw [List.length_pos_iff]
      exact fun hnil => hne (String.toList_eq_nil_iff.mp hnil)
    rw [htext, List.length_append]
    exact ⟨Nat.lt_add_of_pos_left hpos, List.suffix_append _ _⟩

end Files.Path

end HostBindings
