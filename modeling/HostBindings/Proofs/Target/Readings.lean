import HostBindings.Proofs.Code.Readings
import HostBindings.Proofs.Target.Brackets.Swift

/-!
Readings of Swift types. The text of a type is read in one way, apart from the mark of optional
types: it stands behind the type, and behind a function type it is read as a mark of the result.
`Swift.typeText_determines` says that two types are written alike exactly if they are read alike,
and that types without an optional function type are told apart by their texts.
-/

namespace HostBindings

/-! ### Texts -/

namespace Swift

open HostBindings.Code HostBindings.Code.TypeRef HostBindings.Target

def chars (t : TypeRef) : List Char :=
  (typeText t).toList

def furtherChars (ts : List TypeRef) : List Char :=
  ts.flatMap fun t => ',' :: ' ' :: chars t

theorem toList_commas (t : TypeRef) (ts : List TypeRef) :
    (commas (typeTexts (t :: ts))).toList = chars t ++ furtherChars ts := by
  rw [typeTexts_eq_map, commas, furtherChars]
  induction ts generalizing t with
  | nil => simp [chars]
  | cons u ts ih =>
    rw [List.map_cons, List.map_cons, String.intercalate_cons_cons, ← List.map_cons,
      String.toList_append, String.toList_append, ih]
    simp [chars]

def argChars : List TypeRef → List Char
  | [] => []
  | t :: ts => '<' :: (chars t ++ (furtherChars ts ++ ['>']))

theorem chars_named (name : String) (args : List TypeRef) (provider : Option String) :
    chars (.named name args provider) = name.toList ++ argChars args := by
  cases args with
  | nil => exact (List.append_nil _).symm
  | cons t ts =>
    rw [chars, typeText, String.toList_append, String.toList_append, String.toList_append,
      toList_commas, argChars]
    · simp
    · exact List.cons_ne_nil t ts

theorem chars_array (t : TypeRef) : chars (.array t) = '[' :: (chars t ++ [']']) := by
  simp [chars, typeText]

theorem chars_map (k v : TypeRef) :
    chars (.map k v) = '[' :: (chars k ++ ':' :: ' ' :: (chars v ++ [']'])) := by
  simp [chars, typeText]

theorem chars_optional (t : TypeRef) : chars (.optional t) = chars t ++ ['?'] := by
  simp [chars, typeText]

def convention (native : Bool) : List Char :=
  (if native then "@convention(c) " else "").toList

def paramChars : List TypeRef → List Char
  | [] => []
  | t :: ts => chars t ++ furtherChars ts

theorem chars_function (params : List TypeRef) (result : TypeRef) (native : Bool) :
    chars (.function params result native) =
      convention native ++ '(' :: (paramChars params ++ ')' :: " -> ".toList ++ chars result) := by
  have hparams : (commas (typeTexts params)).toList = paramChars params := by
    cases params with
    | nil => rfl
    | cons t ts => exact toList_commas t ts
  simp [chars, typeText, convention, hparams]

/-! ### Where types end -/

def closers : List Char :=
  ['>', ']', ')', ',', ':']

theorem sign_of_closer {c : Char} (h : c ∈ closers) : c ∈ signs ∧ c ≠ '<' := by
  simp only [closers, List.mem_cons, List.not_mem_nil, or_false] at h
  rcases h with rfl | rfl | rfl | rfl | rfl <;> decide

/-- What may follow a whole type: nothing, or a character that belongs to no type before it. -/
def Closing (cs : List Char) : Prop :=
  ∀ c ∈ cs.head?, c ∈ closers

theorem closing_cons {c : Char} (h : c ∈ closers) (cs : List Char) : Closing (c :: cs) := by
  intro d hd
  rwa [← Option.some.inj hd]

theorem closing_further {close : Char} (h : close ∈ closers) (ts : List TypeRef) (r : List Char) :
    Closing (furtherChars ts ++ close :: r) := by
  cases ts with
  | nil => exact closing_cons h r
  | cons t ts => exact closing_cons (c := ',') (by decide) _

/-- Optional marks are counted up to the end of a type. -/
theorem marks_inj {k l : Nat} {r s : List Char} (hr : Closing r) (hs : Closing s)
    (h : List.replicate k '?' ++ r = List.replicate l '?' ++ s) : k = l ∧ r = s := by
  -- behind the marks no further mark follows
  have hmark {cs : List Char} {n : Nat} (hcs : Closing cs)
      (heq : cs = List.replicate (n + 1) '?' ++ s ∨ cs = List.replicate (n + 1) '?' ++ r) :
      False := by
    have hhead : cs.head? = some '?' := by
      rcases heq with rfl | rfl <;> rfl
    exact absurd (hcs '?' hhead) (by decide)
  induction k generalizing l with
  | zero =>
    cases l with
    | zero => exact ⟨rfl, h⟩
    | succ l => exact (hmark hr (Or.inl h)).elim
  | succ k ih =>
    cases l with
    | zero => exact (hmark hs (Or.inr h.symm)).elim
    | succ l =>
      rw [List.replicate_succ, List.replicate_succ, List.cons_append, List.cons_append] at h
      obtain ⟨hkl, hrest⟩ := ih (List.cons.inj h).2
      exact ⟨congrArg _ hkl, hrest⟩

/-- A name ends before the first sign. -/
theorem name_inj {xs ys a b : List Char} (hxs : ∀ c ∈ xs, c ∉ signs) (hys : ∀ c ∈ ys, c ∉ signs)
    (ha : ∀ c ∈ a.head?, c ∈ signs) (hb : ∀ c ∈ b.head?, c ∈ signs) (h : xs ++ a = ys ++ b) :
    xs = ys ∧ a = b := by
  induction xs generalizing ys with
  | nil =>
    cases ys with
    | nil => exact ⟨rfl, h⟩
    | cons y ys => exact absurd (ha y (by rw [← List.nil_append a, h]; rfl)) (hys y (by simp))
  | cons x xs ih =>
    cases ys with
    | nil => exact absurd (hb x (by rw [← List.nil_append b, ← h]; rfl)) (hxs x (by simp))
    | cons y ys =>
      obtain ⟨hchar, hrest⟩ := List.cons.inj h
      rw [List.forall_mem_cons] at hxs hys
      obtain ⟨hname, hab⟩ := ih hxs.2 hys.2 hrest
      exact ⟨by rw [hchar, hname], hab⟩

/-- What follows the name of a type is a sign. -/
theorem sign_marks {r : List Char} (hr : Closing r) (k : Nat) :
    ∀ c ∈ (List.replicate k '?' ++ r).head?, c ∈ signs ∧ c ≠ '<' := by
  intro c hc
  cases k with
  | zero => exact sign_of_closer (hr c hc)
  | succ k =>
    obtain rfl : '?' = c := Option.some.inj hc
    decide

theorem sign_args {r : List Char} (hr : Closing r) (k : Nat) (args : List TypeRef) :
    ∀ c ∈ (argChars args ++ (List.replicate k '?' ++ r)).head?, c ∈ signs := by
  cases args with
  | nil => exact fun c hc => (sign_marks hr k c hc).1
  | cons t ts =>
    intro c hc
    obtain rfl : '<' = c := Option.some.inj hc
    decide

/-! ### Types that are read in one way -/

/-- The characters of a type, with marks behind them, can be taken for those of another type only
if the two are read alike. -/
def Determined (t : TypeRef) : Prop :=
  ∀ ⦃u : TypeRef⦄ ⦃k l : Nat⦄ ⦃r s : List Char⦄, u.HasNames → Closing r → Closing s →
    chars t ++ (List.replicate k '?' ++ r) = chars u ++ (List.replicate l '?' ++ s) →
      t.readWith k = u.readWith l ∧ r = s

theorem Determined.whole {t u : TypeRef} {r s : List Char} (ht : Determined t) (hu : u.HasNames)
    (hr : Closing r) (hs : Closing s) (h : chars t ++ r = chars u ++ s) :
    t.readWith 0 = u.readWith 0 ∧ r = s :=
  ht (k := 0) (l := 0) hu hr hs h

theorem further_determined {ts us : List TypeRef} {close : Char} {r s : List Char}
    (hts : ∀ t ∈ ts, Determined t) (hus : ∀ u ∈ us, u.HasNames) (hclose : close ∈ closers)
    (hcomma : close ≠ ',')
    (h : furtherChars ts ++ close :: r = furtherChars us ++ close :: s) :
    ts.map (readWith 0) = us.map (readWith 0) ∧ r = s := by
  induction ts generalizing us with
  | nil =>
    cases us with
    | nil => exact ⟨rfl, (List.cons.inj h).2⟩
    | cons u us => exact absurd (List.cons.inj h).1 hcomma
  | cons t ts ih =>
    cases us with
    | nil => exact absurd (List.cons.inj h).1.symm hcomma
    | cons u us =>
      rw [List.forall_mem_cons] at hts hus
      -- a type that is determined ends at the same place in both
      have hnext : chars t ++ (furtherChars ts ++ close :: r) =
          chars u ++ (furtherChars us ++ close :: s) := by
        simpa [furtherChars] using h
      obtain ⟨htu, hrest⟩ := hts.1.whole hus.1 (closing_further hclose ts r)
        (closing_further hclose us s) hnext
      obtain ⟨hall, hrs⟩ := ih hts.2 hus.2 hrest
      exact ⟨by rw [List.map_cons, List.map_cons, htu, hall], hrs⟩

theorem list_determined {t u : TypeRef} {ts us : List TypeRef} {close : Char} {r s : List Char}
    (hts : ∀ x ∈ t :: ts, Determined x) (hus : ∀ x ∈ u :: us, x.HasNames)
    (hclose : close ∈ closers) (hcomma : close ≠ ',')
    (h : chars t ++ (furtherChars ts ++ close :: r) = chars u ++ (furtherChars us ++ close :: s)) :
    (t :: ts).map (readWith 0) = (u :: us).map (readWith 0) ∧ r = s := by
  rw [List.forall_mem_cons] at hts hus
  obtain ⟨htu, hrest⟩ := hts.1.whole hus.1 (closing_further hclose ts r)
    (closing_further hclose us s) h
  obtain ⟨hall, hrs⟩ := further_determined hts.2 hus.2 hclose hcomma hrest
  exact ⟨by rw [List.map_cons, List.map_cons, htu, hall], hrs⟩

/-- Every type is one that is not optional, with marks behind it. -/
theorem exists_core {u : TypeRef} (hu : u.HasNames) (l : Nat) : ∃ v m, v.HasNames ∧
    (∀ inner, v ≠ .optional inner) ∧ u.readWith l = v.readWith m ∧
      chars u ++ List.replicate l '?' = chars v ++ List.replicate m '?' := by
  induction hu generalizing l with
  | @optional inner _ ih =>
    obtain ⟨v, m, hv, hcore, hread, hchars⟩ := ih (l + 1)
    refine ⟨v, m, hv, hcore, hread, ?_⟩
    rw [chars_optional, ← hchars, List.append_assoc]
    rfl
  | named hname hargs => exact ⟨_, l, .named hname hargs, by simp, rfl, rfl⟩
  | array h => exact ⟨_, l, .array h, by simp, rfl, rfl⟩
  | map hkey hvalue => exact ⟨_, l, .map hkey hvalue, by simp, rfl, rfl⟩
  | function hparams hresult => exact ⟨_, l, .function hparams hresult, by simp, rfl, rfl⟩

theorem exists_named_cons {name : String} (h : IsTypeName name) (args : List TypeRef)
    (provider : Option String) :
    ∃ c cs, chars (.named name args provider) = c :: cs ∧ c ∉ signs := by
  obtain ⟨c, cs, hcs⟩ := List.exists_cons_of_ne_nil (mt String.toList_eq_nil_iff.mp h.nonempty)
  exact ⟨c, cs ++ argChars args, by rw [chars_named, hcs]; rfl,
    h.plain c (hcs ▸ List.mem_cons_self)⟩

/-- No type begins with a character that may follow a type. -/
theorem exists_chars_cons {t : TypeRef} (ht : t.HasNames) :
    ∃ c cs, chars t = c :: cs ∧ c ∉ closers := by
  induction ht with
  | named hname _ _ =>
    obtain ⟨c, cs, hcs, hc⟩ := exists_named_cons hname _ _
    exact ⟨c, cs, hcs, fun hclose => hc (sign_of_closer hclose).1⟩
  | array _ _ => exact ⟨'[', _, chars_array _, by decide⟩
  | map _ _ _ _ => exact ⟨'[', _, chars_map _ _, by decide⟩
  | optional _ ih =>
    obtain ⟨c, cs, hcs, hc⟩ := ih
    exact ⟨c, cs ++ ['?'], by rw [chars_optional, hcs]; rfl, hc⟩
  | @function params result native _ _ _ _ =>
    cases native with
    | true => exact ⟨'@', _, chars_function .., by decide⟩
    | false => exact ⟨'(', _, chars_function .., by decide⟩

theorem named_ne {name : String} {args : List TypeRef} {provider : Option String}
    (h : IsTypeName name) {c : Char} (hc : c ∈ signs) (a b : List Char) :
    chars (.named name args provider) ++ a ≠ c :: b := by
  obtain ⟨d, cs, hcs, hd⟩ := exists_named_cons h args provider
  rw [hcs]
  exact fun heq => hd ((List.cons.inj heq).1 ▸ hc)

theorem function_ne {params : List TypeRef} {result : TypeRef} {native : Bool} (a b : List Char) :
    chars (.function params result native) ++ a ≠ '[' :: b := by
  intro heq
  rw [chars_function] at heq
  cases native with
  | true => exact absurd (List.cons.inj heq).1 (by decide)
  | false => exact absurd (List.cons.inj heq).1 (by decide)

/-! ### One case for each constructor -/

/-- It is enough to compare a type with those that are not optional themselves. -/
theorem Determined.of_core {t : TypeRef} (h : ∀ ⦃v : TypeRef⦄ ⦃k m : Nat⦄ ⦃r s : List Char⦄,
    v.HasNames → (∀ inner, v ≠ .optional inner) → Closing r → Closing s →
      chars t ++ (List.replicate k '?' ++ r) = chars v ++ (List.replicate m '?' ++ s) →
        t.readWith k = v.readWith m ∧ r = s) : Determined t := by
  intro u k l r s hu hr hs heq
  obtain ⟨v, m, hv, hcore, hread, hchars⟩ := exists_core hu l
  rw [hread]
  refine h hv hcore hr hs ?_
  rw [heq, ← List.append_assoc, hchars, List.append_assoc]

theorem args_determined {ts us : List TypeRef} {k m : Nat} {r s : List Char}
    (hts : ∀ t ∈ ts, Determined t) (hus : ∀ u ∈ us, u.HasNames) (hr : Closing r) (hs : Closing s)
    (h : argChars ts ++ (List.replicate k '?' ++ r) =
      argChars us ++ (List.replicate m '?' ++ s)) :
    ts.map (readWith 0) = us.map (readWith 0) ∧
      List.replicate k '?' ++ r = List.replicate m '?' ++ s := by
  cases ts with
  | nil =>
    cases us with
    | nil => exact ⟨rfl, h⟩
    | cons u us => exact absurd rfl (sign_marks hr k '<' (h.symm ▸ rfl)).2
  | cons t ts =>
    cases us with
    | nil => exact absurd rfl (sign_marks hs m '<' (h ▸ rfl)).2
    | cons u us =>
      have hlist : chars t ++ (furtherChars ts ++ '>' :: (List.replicate k '?' ++ r)) =
          chars u ++ (furtherChars us ++ '>' :: (List.replicate m '?' ++ s)) := by
        simpa [argChars] using h
      exact list_determined hts hus (by decide) (by decide) hlist

theorem determined_named {name : String} {args : List TypeRef} {provider : Option String}
    (hname : IsTypeName name) (hargs : ∀ t ∈ args, Determined t) :
    Determined (.named name args provider) := by
  refine .of_core fun v k m r s hv hcore hr hs h => ?_
  -- only a name starts with characters of a name
  cases hv with
  | @named name' args' provider' hname' hargs' =>
    rw [chars_named, chars_named, List.append_assoc, List.append_assoc] at h
    obtain ⟨hnames, hrest⟩ :=
      name_inj hname.plain hname'.plain (sign_args hr k args) (sign_args hs m args') h
    obtain ⟨hall, hmarks⟩ := args_determined hargs hargs' hr hs hrest
    obtain ⟨hkm, hrs⟩ := marks_inj hr hs hmarks
    rw [readWith, readWith, readAll_eq_map, readAll_eq_map, hall, hkm, String.toList_inj.mp hnames]
    exact ⟨rfl, hrs⟩
  | array _ =>
    rw [chars_array] at h
    exact absurd h (named_ne hname (by decide) _ _)
  | map _ _ =>
    rw [chars_map] at h
    exact absurd h (named_ne hname (by decide) _ _)
  | optional _ => exact absurd rfl (hcore _)
  | @function params result native _ _ =>
    rw [chars_function] at h
    cases native with
    | true => exact absurd h (named_ne (c := '@') hname (by decide) _ _)
    | false => exact absurd h (named_ne (c := '(') hname (by decide) _ _)

theorem determined_array {t : TypeRef} (ht : Determined t) : Determined (.array t) := by
  refine .of_core fun v k m r s hv hcore hr hs h => ?_
  cases hv with
  | named hname _ =>
    rw [chars_array] at h
    exact absurd h.symm (named_ne hname (by decide) _ _)
  | array hu =>
    simp only [chars_array, List.cons_append, List.append_assoc, List.nil_append] at h
    obtain ⟨htu, hrest⟩ := ht.whole hu (closing_cons (by decide) _) (closing_cons (by decide) _)
      (List.cons.inj h).2
    obtain ⟨hkm, hrs⟩ := marks_inj hr hs (List.cons.inj hrest).2
    rw [readWith, readWith, htu, hkm]
    exact ⟨rfl, hrs⟩
  | map hkey _ =>
    simp only [chars_array, chars_map, List.cons_append, List.append_assoc, List.nil_append] at h
    obtain ⟨_, hrest⟩ := ht.whole hkey (closing_cons (by decide) _) (closing_cons (by decide) _)
      (List.cons.inj h).2
    -- the element is followed by the bracket here, by a colon there
    exact absurd (List.cons.inj hrest).1 (by decide)
  | optional _ => exact absurd rfl (hcore _)
  | function _ _ =>
    rw [chars_array] at h
    exact absurd h.symm (function_ne _ _)

theorem determined_map {t u : TypeRef} (ht : Determined t) (hu : Determined u) :
    Determined (.map t u) := by
  refine .of_core fun v k m r s hv hcore hr hs h => ?_
  cases hv with
  | named hname _ =>
    rw [chars_map] at h
    exact absurd h.symm (named_ne hname (by decide) _ _)
  | array helement =>
    simp only [chars_array, chars_map, List.cons_append, List.append_assoc, List.nil_append] at h
    obtain ⟨_, hrest⟩ := ht.whole helement (closing_cons (by decide) _)
      (closing_cons (by decide) _) (List.cons.inj h).2
    exact absurd (List.cons.inj hrest).1 (by decide)
  | map hkey hvalue =>
    simp only [chars_map, List.cons_append, List.append_assoc, List.nil_append] at h
    obtain ⟨hkeys, hrest⟩ := ht.whole hkey (closing_cons (by decide) _)
      (closing_cons (by decide) _) (List.cons.inj h).2
    obtain ⟨hboth, hend⟩ := hu.whole hvalue (closing_cons (by decide) _)
      (closing_cons (by decide) _) (List.cons.inj (List.cons.inj hrest).2).2
    obtain ⟨hkm, hrs⟩ := marks_inj hr hs (List.cons.inj hend).2
    rw [readWith, readWith, hkeys, hboth, hkm]
    exact ⟨rfl, hrs⟩
  | optional _ => exact absurd rfl (hcore _)
  | function _ _ =>
    rw [chars_map] at h
    exact absurd h.symm (function_ne _ _)

theorem convention_inj {native native' : Bool} {a b : List Char}
    (h : convention native ++ '(' :: a = convention native' ++ '(' :: b) :
    native = native' ∧ a = b := by
  cases native with
  | true =>
    cases native' with
    | true => exact ⟨rfl, (List.cons.inj (List.append_cancel_left h)).2⟩
    | false => exact absurd (List.cons.inj h).1 (by decide)
  | false =>
    cases native' with
    | true => exact absurd (List.cons.inj h).1 (by decide)
    | false => exact ⟨rfl, (List.cons.inj h).2⟩

theorem params_determined {ts us : List TypeRef} {r s : List Char}
    (hts : ∀ t ∈ ts, Determined t) (hus : ∀ u ∈ us, u.HasNames) (hts' : ∀ t ∈ ts, t.HasNames)
    (h : paramChars ts ++ ')' :: r = paramChars us ++ ')' :: s) :
    ts.map (readWith 0) = us.map (readWith 0) ∧ r = s := by
  cases ts with
  | nil =>
    cases us with
    | nil => exact ⟨rfl, (List.cons.inj h).2⟩
    | cons u us =>
      obtain ⟨c, cs, hcs, hc⟩ := exists_chars_cons (hus u List.mem_cons_self)
      rw [paramChars, paramChars, hcs] at h
      exact absurd ((List.cons.inj h).1 ▸ by decide) hc
  | cons t ts =>
    cases us with
    | nil =>
      obtain ⟨c, cs, hcs, hc⟩ := exists_chars_cons (hts' t List.mem_cons_self)
      rw [paramChars, paramChars, hcs] at h
      exact absurd ((List.cons.inj h).1 ▸ by decide) hc
    | cons u us =>
      rw [paramChars, paramChars, List.append_assoc, List.append_assoc] at h
      exact list_determined hts hus (by decide) (by decide) h

theorem determined_function {params : List TypeRef} {result : TypeRef} {native : Bool}
    (hnames : ∀ t ∈ params, t.HasNames) (hparams : ∀ t ∈ params, Determined t)
    (hresult : Determined result) : Determined (.function params result native) := by
  refine .of_core fun v k m r s hv hcore hr hs h => ?_
  cases hv with
  | named hname _ =>
    rw [chars_function] at h
    cases native with
    | true => exact absurd h.symm (named_ne (c := '@') hname (by decide) _ _)
    | false => exact absurd h.symm (named_ne (c := '(') hname (by decide) _ _)
  | array _ =>
    rw [chars_array] at h
    exact absurd h (function_ne _ _)
  | map _ _ =>
    rw [chars_map] at h
    exact absurd h (function_ne _ _)
  | optional _ => exact absurd rfl (hcore _)
  | @function params' result' native' hparams' hresult' =>
    simp only [chars_function, List.append_assoc, List.cons_append] at h
    obtain ⟨hnative, hrest⟩ := convention_inj h
    obtain ⟨hall, hback⟩ := params_determined hparams hparams' hnames hrest
    -- marks behind the whole text are marks of the result
    obtain ⟨hresults, hrs⟩ := hresult hresult' hr hs (List.append_cancel_left hback)
    rw [readWith, readWith, readAll_eq_map, readAll_eq_map, hall, hresults, hnative]
    exact ⟨rfl, hrs⟩

theorem determined {t : TypeRef} (ht : t.HasNames) : Determined t := by
  induction ht with
  | named hname _ ih => exact determined_named hname ih
  | array _ ih => exact determined_array ih
  | map _ _ ihkey ihvalue => exact determined_map ihkey ihvalue
  | optional _ ih =>
    intro u k l r s hu hr hs h
    rw [chars_optional, List.append_assoc] at h
    exact ih (k := k + 1) hu hr hs h
  | function hparams _ ihparams ihresult => exact determined_function hparams ihparams ihresult

/-! ### The text of a reading -/

theorem chars_marked (marks : Nat) (t : TypeRef) :
    chars (marked marks t) = chars t ++ List.replicate marks '?' := by
  induction marks with
  | zero => exact (List.append_nil _).symm
  | succ marks ih => rw [marked, chars_optional, ih, List.append_assoc, ← List.replicate_succ']

theorem furtherChars_map {ts : List TypeRef} {f : TypeRef → TypeRef}
    (h : ∀ t ∈ ts, chars (f t) = chars t) : furtherChars (ts.map f) = furtherChars ts := by
  rw [furtherChars, List.flatMap_map]
  exact List.flatMap_congr fun t ht => by rw [h t ht]

theorem argChars_map {ts : List TypeRef} {f : TypeRef → TypeRef}
    (h : ∀ t ∈ ts, chars (f t) = chars t) : argChars (ts.map f) = argChars ts := by
  cases ts with
  | nil => rfl
  | cons t ts =>
    rw [List.forall_mem_cons] at h
    rw [List.map_cons, argChars, argChars, h.1, furtherChars_map h.2]

theorem paramChars_map {ts : List TypeRef} {f : TypeRef → TypeRef}
    (h : ∀ t ∈ ts, chars (f t) = chars t) : paramChars (ts.map f) = paramChars ts := by
  cases ts with
  | nil => rfl
  | cons t ts =>
    rw [List.forall_mem_cons] at h
    rw [List.map_cons, paramChars, paramChars, h.1, furtherChars_map h.2]

theorem chars_readWith {t : TypeRef} (ht : t.HasNames) (marks : Nat) :
    chars (t.readWith marks) = chars t ++ List.replicate marks '?' := by
  induction ht generalizing marks with
  | named _ _ ih =>
    rw [readWith, readAll_eq_map, chars_marked, chars_named, chars_named,
      argChars_map fun t ht => (ih t ht 0).trans (List.append_nil _)]
  | array _ ih =>
    rw [readWith, chars_marked, chars_array, chars_array, ih 0, List.replicate_zero,
      List.append_nil]
  | map _ _ ihkey ihvalue =>
    rw [readWith, chars_marked, chars_map, chars_map, ihkey 0, ihvalue 0, List.replicate_zero,
      List.append_nil, List.append_nil]
  | optional _ ih =>
    rw [readWith, ih, chars_optional, List.append_assoc]
    rfl
  | function _ _ ihparams ihresult =>
    rw [readWith, readAll_eq_map, chars_function, chars_function, ihresult marks,
      paramChars_map fun t ht => (ihparams t ht 0).trans (List.append_nil _)]
    simp only [List.append_assoc, List.cons_append]

theorem typeText_reading {t : TypeRef} (ht : t.HasNames) : typeText t.reading = typeText t :=
  String.toList_inj.mp ((chars_readWith ht 0).trans (List.append_nil _))

theorem typeText_eq_iff {t u : TypeRef} (ht : t.HasNames) (hu : u.HasNames) :
    typeText t = typeText u ↔ t.reading = u.reading := by
  constructor
  · intro h
    have hend : Closing [] := fun c hc => by simp at hc
    have hchars : chars t ++ [] = chars u ++ [] := by rw [chars, chars, h]
    exact ((determined ht).whole hu hend hend hchars).1
  · intro h
    rw [← typeText_reading ht, h, typeText_reading hu]

/-- Two Swift types are written alike exactly if they are read alike. Types without an optional
function type are written alike exactly if they are equal up to their imports. -/
theorem typeText_determines {t u : TypeRef} (ht : t.HasNames) (hu : u.HasNames) :
    (typeText t = typeText u ↔ t.reading = u.reading) ∧
      (t.NoOptionalFunction → u.NoOptionalFunction →
        (typeText t = typeText u ↔ t.bare = u.bare)) := by
  refine ⟨typeText_eq_iff ht hu, fun htfree hufree => ?_⟩
  rw [typeText_eq_iff ht hu, reading, reading,
    readWith_of_noOptionalFunction ht htfree (Or.inl rfl),
    readWith_of_noOptionalFunction hu hufree (Or.inl rfl)]
  rfl

theorem typeText_determines_items :
    typeText (.map (.plain "String") (.optional (.imported "Item" "Wire"))) =
        typeText (.map (.plain "String") (.optional (.plain "Item"))) ∧
      typeText (.map (.plain "String") (.optional (.plain "Item"))) ≠
        typeText (.optional (.map (.plain "String") (.plain "Item"))) := by
  have hname (name : String) (h : Settings.isIdentifier name.toList = true)
      (provider : Option String) : (TypeRef.named name [] provider).HasNames :=
    .named (isTypeName_of_isIdentifier h) (by simp)
  have hstring := hname "String" (by decide) none
  have hplain := hname "Item" (by decide) none
  have himported := hname "Item" (by decide) (some "Wire")
  constructor
  · refine ((typeText_determines (.map hstring (.optional himported))
      (.map hstring (.optional hplain))).2 ?_ ?_).mpr rfl
    · simp [noOptionalFunction_map, noOptionalFunction_optional, noOptionalFunction_named,
        isFunction]
    · simp [noOptionalFunction_map, noOptionalFunction_optional, noOptionalFunction_named,
        isFunction]
  · intro h
    have hread := (typeText_determines (.map hstring (.optional hplain))
      (.optional (.map hstring hplain))).1.mp h
    simp [reading, readWith, readAll, marked] at hread

/-- An optional function type is written like a function type with an optional result. -/
theorem typeText_collides :
    (TypeRef.optional (.function [.plain "Int64"] (.plain "Void") true)).HasNames ∧
      (TypeRef.function [.plain "Int64"] (.optional (.plain "Void")) true).HasNames ∧
      typeText (.optional (.function [.plain "Int64"] (.plain "Void") true)) =
        typeText (.function [.plain "Int64"] (.optional (.plain "Void")) true) ∧
      (TypeRef.optional (.function [.plain "Int64"] (.plain "Void") true)).bare ≠
        (TypeRef.function [.plain "Int64"] (.optional (.plain "Void")) true).bare := by
  have hname (name : String) (h : Settings.isIdentifier name.toList = true) :
      (TypeRef.plain name).HasNames :=
    .named (isTypeName_of_isIdentifier h) (by simp)
  have hparams : ∀ t ∈ [TypeRef.plain "Int64"], t.HasNames := by
    simpa using hname "Int64" (by decide)
  have hresult := hname "Void" (by decide)
  refine ⟨.optional (.function hparams hresult), .function hparams (.optional hresult), ?_, ?_⟩
  · decide
  · simp [bare]

end Swift

end HostBindings
