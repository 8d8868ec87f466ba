import HostBindings.Proofs.Json.Scanning

/-!
Written values are read back. `Tree.ofText?_write` says that the text of any value is well formed
and names the tree it is read as; `Value.ofTree?_tree` says that this tree is read as the value
itself exactly if no key repeats, no nesting is too deep and every number is restored.
-/

namespace HostBindings.Json

namespace Value

/-! ### Trees -/

mutual

def tree : Value → Tree
  | .null => .null
  | .bool b => .bool b
  | .number n => n.tree
  | .text s => .text (some s)
  | .list items => .list (treesOfItems items)
  | .record fields => .record (treesOfFields fields)

def treesOfItems : List Value → List Tree
  | [] => []
  | v :: vs => tree v :: treesOfItems vs

def treesOfFields : List (String × Value) → List (Option String × Tree)
  | [] => []
  | (key, v) :: fields => (some key, tree v) :: treesOfFields fields

end

end Value

namespace Tree

open Value

theorem tokens_append_ne (v : Value) (us ts : List Token) :
    v.tokens ++ us ≠ .listClose :: ts := by
  cases v with
  | list items => cases items <;> simp [tokens]
  | record fields => cases fields <;> simp [tokens]
  | _ => simp [tokens]

mutual

/-- The tokens of a value are read as its tree, whatever follows them. -/
theorem readValue?_tokens : ∀ (v : Value) (ts : List Token) (frames : List Frame),
    readValue? (v.tokens ++ ts) frames = readRest? v.tree ts frames
  | .null, ts, frames => by
    rw [tokens, List.singleton_append, readValue?]
    rfl
  | .bool true, ts, frames => by
    rw [tokens, List.singleton_append, readValue?]
    rfl
  | .bool false, ts, frames => by
    rw [tokens, List.singleton_append, readValue?]
    rfl
  | .number n, ts, frames => by
    rw [tokens, List.singleton_append, readValue?, n.ofWord?_text]
    rfl
  | .text s, ts, frames => by
    rw [tokens, List.singleton_append, readValue?]
    rfl
  | .list [], ts, frames => by
    rw [tokens, List.cons_append, List.singleton_append, readValue?]
    rfl
  | .list (v :: vs), ts, frames => by
    rw [tokens, List.cons_append, List.append_assoc, readValue?,
      readValue?_tokens v, readRest?_itemTokens vs]
    · rfl
    · exact tokens_append_ne v _
  | .record [], ts, frames => by
    rw [tokens, List.cons_append, List.singleton_append, readValue?]
    rfl
  | .record ((key, v) :: fields), ts, frames => by
    rw [tokens, List.cons_append, List.cons_append, List.cons_append, List.append_assoc,
      readValue?, readValue?_tokens v, readRest?_fieldTokens fields]
    rfl

theorem readRest?_itemTokens : ∀ (vs : List Value) (t : Tree) (done : List Tree)
    (ts : List Token) (frames : List Frame),
    readRest? t (itemTokens vs ++ ts) (.list done :: frames) =
      readRest? (.list ((t :: done).reverse ++ treesOfItems vs)) ts frames
  | [], t, done, ts, frames => by
    rw [itemTokens, List.singleton_append, readRest?, treesOfItems, List.append_nil]
  | v :: vs, t, done, ts, frames => by
    rw [itemTokens, List.cons_append, List.append_assoc, readRest?, readValue?_tokens v,
      readRest?_itemTokens vs, treesOfItems, List.reverse_cons, List.append_assoc]
    rfl

theorem readRest?_fieldTokens : ∀ (fields : List (String × Value)) (t : Tree)
    (key : Option String) (done : List (Option String × Tree)) (ts : List Token)
    (frames : List Frame),
    readRest? t (fieldTokens fields ++ ts) (.record done key :: frames) =
      readRest? (.record (((key, t) :: done).reverse ++ treesOfFields fields)) ts frames
  | [], t, key, done, ts, frames => by
    rw [fieldTokens, List.singleton_append, readRest?, treesOfFields, List.append_nil]
  | (next, v) :: fields, t, key, done, ts, frames => by
    rw [fieldTokens, List.cons_append, List.cons_append, List.cons_append, List.append_assoc,
      readRest?, readValue?_tokens v, readRest?_fieldTokens fields, treesOfFields,
      List.reverse_cons, List.append_assoc]
    rfl

end

/-- The text of every value is well formed. -/
theorem ofText?_write (v : Value) : ofText? v.write = some v.tree := by
  have hscan : Token.scan? v.write.toList = some v.tokens := by
    have h := scan?_write v Token.ends_nil
    rw [List.append_nil] at h
    rw [h, Token.scan?, Option.map_some, List.append_nil]
  have hread : readValue? v.tokens [] = some v.tree := by
    rw [← List.append_nil v.tokens, readValue?_tokens]
    rfl
  rw [ofText?, hscan, Option.bind_some, hread]

end Tree

namespace Number

/-- A number that is read back from its text: every 64-bit integer, and a double only if its
numeral, scaled by a power of ten, happens to give it again. -/
def Restored (n : Number) : Prop :=
  n.numeral?.bind Numeral.number? = some n

theorem restored_int {i : Int} (hleast : -0x8000000000000000 ≤ i)
    (hgreatest : i ≤ 0xFFFFFFFFFFFFFFFF) : (Number.int i).Restored :=
  Numeral.number?_ofInt hleast hgreatest

end Number

namespace Value

/-! ### Values -/

/-- A value that is read back from its tree, with a bound on nesting. -/
inductive Exact : Nat → Value → Prop where
  | null {depth} : Exact depth .null
  | bool {depth b} : Exact depth (.bool b)
  | number {depth n} (h : n.Restored) : Exact depth (.number n)
  | text {depth s} : Exact depth (.text s)
  | list {depth items} (h : ∀ v ∈ items, Exact depth v) : Exact (depth + 1) (.list items)
  | record {depth fields} (hkeys : (fields.map Prod.fst).Nodup)
      (h : ∀ f ∈ fields, Exact depth f.2) : Exact (depth + 1) (.record fields)

variable {depth : Nat}

theorem exact_number {n : Number} : Exact depth (.number n) ↔ n.Restored :=
  ⟨fun h => by cases h; assumption, .number⟩

theorem exact_list {items : List Value} :
    Exact (depth + 1) (.list items) ↔ ∀ v ∈ items, Exact depth v :=
  ⟨fun h => by cases h; assumption, .list⟩

theorem exact_record {fields : List (String × Value)} :
    Exact (depth + 1) (.record fields) ↔
      (fields.map Prod.fst).Nodup ∧ ∀ f ∈ fields, Exact depth f.2 :=
  ⟨fun h => by cases h; exact ⟨by assumption, by assumption⟩, fun h => .record h.1 h.2⟩

theorem ofTree?_number {n : Number} : ofTree? depth n.tree = some (.number n) ↔ n.Restored := by
  rw [Number.Restored, Number.tree]
  cases n.numeral? with
  | none => simp [ofTree?]
  | some m => simp [ofTree?]

/-! ### Fields -/

theorem setField_of_notMem {key : String} {v : Value} {done : List (String × Value)}
    (h : key ∉ done.map Prod.fst) : setField key v done = done ++ [(key, v)] := by
  induction done with
  | nil => rfl
  | cons f done ih =>
    rw [List.map_cons, List.mem_cons, not_or] at h
    rw [setField, if_neg (Ne.symm h.1), ih h.2, List.cons_append]

theorem length_setField_of_mem {key : String} {v : Value} {done : List (String × Value)}
    (h : key ∈ done.map Prod.fst) : (setField key v done).length = done.length := by
  induction done with
  | nil => cases h
  | cons f done ih =>
    rw [setField]
    split
    · rfl
    · rename_i hne
      rw [List.map_cons, List.mem_cons] at h
      rw [List.length_cons, List.length_cons, ih (h.resolve_left (Ne.symm hne))]

/-- A record has no more fields than are written, and it has as many only if no field is set
again. -/
theorem fieldsOfTrees?_grows {fields : List (Option String × Tree)}
    {done result : List (String × Value)} (h : fieldsOfTrees? depth fields done = some result) :
    result.length ≤ done.length + fields.length ∧
      (result.length = done.length + fields.length → done <+: result) := by
  induction fields generalizing done with
  | nil =>
    obtain rfl : done = result := Option.some.inj h
    exact ⟨Nat.le_refl _, fun _ => List.prefix_rfl⟩
  | cons f fields ih =>
    obtain ⟨key?, t⟩ := f
    unfold fieldsOfTrees? at h
    split at h
    · rename_i key v _
      obtain ⟨hle, hfirst⟩ := ih h
      -- a key that is there already is overwritten, and the list stays behind for good
      by_cases hkey : key ∈ done.map Prod.fst
      · rw [length_setField_of_mem hkey] at hle
        rw [List.length_cons]
        exact ⟨by omega, fun heq => by omega⟩
      · rw [setField_of_notMem hkey] at hle hfirst
        simp only [List.length_append, List.length_cons, List.length_nil] at hle hfirst ⊢
        exact ⟨by omega, fun heq => (List.prefix_append _ _).trans (hfirst (by omega))⟩
    · cases h

theorem fresh_concat {fields done : List (String × Value)} {key : String} {v : Value} :
    (∀ f ∈ fields, f.1 ∉ (done ++ [(key, v)]).map Prod.fst) ↔
      (∀ f ∈ fields, f.1 ∉ done.map Prod.fst) ∧ key ∉ fields.map Prod.fst := by
  simp only [List.map_append, List.map_cons, List.map_nil, List.mem_append, List.mem_singleton,
    not_or]
  constructor
  · intro h
    refine ⟨fun f hf => (h f hf).1, fun hmem => ?_⟩
    obtain ⟨f, hf, rfl⟩ := List.mem_map.mp hmem
    exact (h f hf).2 rfl
  · rintro ⟨hdone, hkey⟩ f hf
    exact ⟨hdone f hf, fun heq => hkey (heq ▸ List.mem_map_of_mem hf)⟩

theorem length_treesOfFields (fields : List (String × Value)) :
    (treesOfFields fields).length = fields.length := by
  induction fields with
  | nil => rfl
  | cons f fields ih => rw [treesOfFields, List.length_cons, List.length_cons, ih]

mutual

/-- A value is read back from its tree exactly if nothing in it is lost. -/
theorem ofTree?_tree : ∀ (v : Value) (depth : Nat),
    ofTree? depth v.tree = some v ↔ v.Exact depth
  | .null, depth => iff_of_true rfl .null
  | .bool b, depth => iff_of_true rfl .bool
  | .number n, depth => ofTree?_number.trans exact_number.symm
  | .text s, depth => iff_of_true rfl .text
  | .list items, 0 => iff_of_false (by simp [tree, ofTree?]) nofun
  | .list items, depth + 1 => by
    rw [exact_list, ← itemsOfTrees?_trees items depth, tree, ofTree?]
    simp
  | .record fields, 0 => iff_of_false (by simp [tree, ofTree?]) nofun
  | .record fields, depth + 1 => by
    have h := fieldsOfTrees?_trees fields depth []
    rw [List.nil_append] at h
    rw [exact_record, tree, ofTree?]
    simp [h]

theorem itemsOfTrees?_trees : ∀ (items : List Value) (depth : Nat),
    itemsOfTrees? depth (treesOfItems items) = some items ↔ ∀ v ∈ items, v.Exact depth
  | [], depth => by simp [treesOfItems, itemsOfTrees?]
  | v :: vs, depth => by
    rw [List.forall_mem_cons, ← ofTree?_tree v depth, ← itemsOfTrees?_trees vs depth,
      treesOfItems]
    cases hv : ofTree? depth v.tree with
    | none => simp [itemsOfTrees?, hv]
    | some w =>
      simp only [itemsOfTrees?, hv, Option.map_eq_some_iff, List.cons.injEq, Option.some.injEq]
      constructor
      · rintro ⟨_, hitems, hw, rfl⟩
        exact ⟨hw, hitems⟩
      · rintro ⟨hw, hitems⟩
        exact ⟨vs, hitems, hw, rfl⟩

theorem fieldsOfTrees?_trees : ∀ (fields : List (String × Value)) (depth : Nat)
    (done : List (String × Value)),
    fieldsOfTrees? depth (treesOfFields fields) done = some (done ++ fields) ↔
      (∀ f ∈ fields, f.1 ∉ done.map Prod.fst) ∧ (fields.map Prod.fst).Nodup ∧
        ∀ f ∈ fields, f.2.Exact depth
  | [], depth, done => by simp [treesOfFields, fieldsOfTrees?]
  | (key, v) :: fields, depth, done => by
    have hrest := fieldsOfTrees?_trees fields depth (done ++ [(key, v)])
    rw [List.append_assoc, List.singleton_append, fresh_concat] at hrest
    rw [List.forall_mem_cons, List.forall_mem_cons, List.map_cons, List.nodup_cons,
      ← ofTree?_tree v depth, treesOfFields]
    cases hv : ofTree? depth v.tree with
    | none => simp [fieldsOfTrees?, hv]
    | some w =>
      constructor
      · intro h
        simp only [fieldsOfTrees?, hv] at h
        obtain ⟨hle, hfirst⟩ := fieldsOfTrees?_grows h
        rw [length_treesOfFields, List.length_append, List.length_cons] at hle hfirst
        -- a key that is there already would leave the record too short
        have hnew : key ∉ done.map Prod.fst := by
          intro hkey
          rw [length_setField_of_mem hkey] at hle
          omega
        rw [setField_of_notMem hnew] at h hfirst
        obtain rfl : w = v := by
          have hfront := hfirst (by rw [List.length_append, List.length_singleton]; omega)
          rw [List.prefix_append_right_inj, List.cons_prefix_cons] at hfront
          exact (Prod.mk.inj hfront.1).2
        obtain ⟨⟨hnews, hkey⟩, hkeys, hexact⟩ := hrest.mp h
        exact ⟨⟨hnew, hnews⟩, ⟨hkey, hkeys⟩, rfl, hexact⟩
      · rintro ⟨⟨hnew, hnews⟩, ⟨hkey, hkeys⟩, hw, hexact⟩
        obtain rfl : w = v := Option.some.inj hw
        simp only [fieldsOfTrees?, hv]
        rw [setField_of_notMem hnew, hrest]
        exact ⟨⟨hnews, hkey⟩, hkeys, hexact⟩

end

end Value

end HostBindings.Json
