import HostBindings.Proofs.Generate.Body

/-!
The locals of generated bodies. Locals of arguments begin with a mark and go on with a word in
camel case, so endings cannot make two of them equal, and the names that a body uses for its
receiver and results do not begin with the mark.
-/

namespace HostBindings.Generate

open HostBindings.Code

variable {lang : Lang} {ctx : Context} {p : CallPlan} {m : Method} {side : String}

/-! ### Locals of arguments -/

def argNames (lang : Lang) (side : String) (args : List ArgPlan) : List String :=
  args.flatMap fun a => (lang.endings a.crossing.conversion).map (argLocal side a.slot.name ++ ·)

theorem boundNames_argBlocks {args : List ArgPlan} {blocks : List (List Stmt)}
    (h : ArgBlocks lang ctx (fun a => argLocal side a.slot.name) args blocks) :
    boundNames blocks.flatten = argNames lang side args := by
  induction h with
  | nil => rfl
  | cons hb _ ih =>
    rw [List.flatten_cons, boundNames_append, ih, boundNames_convert hb, argNames, argNames,
      List.flatMap_cons]

def Marked (side n : String) : Prop :=
  (side ++ "_").toList <+: n.toList

instance : DecidablePred (Marked side) :=
  fun n => inferInstanceAs (Decidable ((side ++ "_").toList <+: n.toList))

theorem marked_argLocal (name ending : String) : Marked side (argLocal side name ++ ending) := by
  unfold Marked argLocal
  have hassoc : side ++ "_" ++ Naming.camelCase name ++ ending =
      side ++ "_" ++ (Naming.camelCase name ++ ending) := String.append_assoc
  exact ⟨_, by rw [hassoc, ← String.toList_append]⟩

theorem marked_of_mem_argNames {args : List ArgPlan} {n : String}
    (h : n ∈ argNames lang side args) : Marked side n := by
  obtain ⟨a, _, h⟩ := List.mem_flatMap.mp h
  obtain ⟨ending, _, rfl⟩ := List.mem_map.mp h
  exact marked_argLocal a.slot.name ending

theorem underscore_mem_argNames {args : List ArgPlan} {n : String}
    (h : n ∈ argNames lang side args) : '_' ∈ n.toList := by
  obtain ⟨a, _, h⟩ := List.mem_flatMap.mp h
  obtain ⟨ending, _, rfl⟩ := List.mem_map.mp h
  rw [String.toList_append]
  exact List.mem_append_left _ (underscore_mem_argLocal side a.slot.name)

/-- Arguments with different host names have no local in common. -/
theorem nodup_argNames {args : List ArgPlan}
    (h : (args.map fun a => lang.hostName a.slot.name).Nodup) :
    (argNames lang side args).Nodup := by
  unfold argNames
  rw [List.nodup_flatMap]
  constructor
  · -- the locals of one argument differ in their endings
    intro a _
    exact (lang.nodup_endings _).map fun s t hst => (String.append_right_inj _).mp hst
  · -- those of two arguments in what stands before the ending
    apply (List.pairwise_map.mp h).imp
    intro a b hab n ha hb
    obtain ⟨s, hs, rfl⟩ := List.mem_map.mp ha
    obtain ⟨t, ht, heq⟩ := List.mem_map.mp hb
    have hsplit := argLocal_append_inj (Lang.isEnding_of_mem_endings ht)
      (Lang.isEnding_of_mem_endings hs) heq
    exact hab (hostName_congr lang hsplit.1.symm)

/-! ### Locals of results -/

def resultNames (raw cooked : String) : List String :=
  raw :: Lang.allEndings.map (cooked ++ ·)

theorem cooked_mem_resultNames (raw cooked : String) : cooked ∈ resultNames raw cooked := by
  apply List.mem_cons_of_mem
  exact List.mem_map.mpr ⟨"", by decide, String.append_empty⟩

variable {result : Crossing} {call : Expr} {raw cooked : String} {rest : List Stmt}

theorem boundNames_finish (h : finish lang ctx result call raw cooked = .ok rest) :
    (boundNames rest).Sublist (resultNames raw cooked) := by
  rcases finish_eq_ok.mp h with ⟨_, rfl⟩ | ⟨_, b, hb, rfl⟩
  · exact List.nil_sublist _
  · rw [boundNames_cons, boundNames_append, boundNames_convert hb]
    simpa [Stmt.binds, resultNames] using (Lang.endings_sublist result.conversion).map (cooked ++ ·)

/-- The end of a body reads what its call reads and what it binds itself. -/
theorem boundBefore_finish {known : List String}
    (h : finish lang ctx result call raw cooked = .ok rest) (hcall : call.reads ⊆ known)
    (hconv : result.isVoid = false → result.conversion ≠ .none) : BoundBefore known rest := by
  rcases finish_eq_ok.mp h with ⟨_, rfl⟩ | ⟨hv, b, hb, rfl⟩
  · rw [boundBefore_cons]
    exact ⟨hcall, boundBefore_nil⟩
  · rw [boundBefore_cons, boundBefore_append, boundBefore_cons]
    refine ⟨hcall, (boundBefore_convert hb).mono ?_, ?_, boundBefore_nil⟩
    · exact List.subset_append_right _ _
    · intro x hx
      rw [List.mem_singleton.mp hx]
      exact List.mem_append_right _ (output_mem_boundNames hb (hconv hv))

theorem ret_mem_finish (h : finish lang ctx result call raw cooked = .ok rest) {x : String}
    (hx : .ret x ∈ rest) : x = cooked := by
  refine forall_finish (P := fun st => ∀ y, st = .ret y → y = cooked) h ?_ ?_ ?_ (.ret x) hx x rfl
  · exact ⟨fun y hy => (by cases hy), fun y hy => (by cases hy)⟩
  · rintro y ⟨⟩
    rfl
  · rintro b hb _ hst y rfl
    exact absurd hst (ret_notMem_convert hb y)

/-- The end of a body begins with the call. -/
theorem finish_head (h : finish lang ctx result call raw cooked = .ok rest) :
    ∃ s tail, s.value? = some call ∧ rest = s :: tail := by
  rcases finish_eq_ok.mp h with ⟨_, rfl⟩ | ⟨_, b, _, rfl⟩
  · exact ⟨_, _, rfl, rfl⟩
  · exact ⟨_, _, rfl, rfl⟩

/-! ### Blocks of arguments -/

theorem boundBefore_argBlocks {slotLocal : ArgPlan → String} {args : List ArgPlan}
    {blocks : List (List Stmt)} {known : List String} (h : ArgBlocks lang ctx slotLocal args blocks)
    (hknown : ∀ a ∈ args, lang.hostName a.slot.name ∈ known) :
    BoundBefore known blocks.flatten := by
  induction h generalizing known with
  | nil => exact boundBefore_nil
  | @cons a b args blocks hb _ ih =>
    rw [List.flatten_cons, boundBefore_append]
    constructor
    · apply (boundBefore_convert hb).mono
      intro x hx
      rw [List.mem_singleton.mp hx]
      exact hknown a List.mem_cons_self
    · -- what earlier arguments bind is known too, but not needed
      apply ih
      exact fun a' ha' => List.mem_append_left _ (hknown a' (List.mem_cons_of_mem a ha'))

theorem ret_notMem_argBlocks {slotLocal : ArgPlan → String} {args : List ArgPlan}
    {blocks : List (List Stmt)} (h : ArgBlocks lang ctx slotLocal args blocks) (x : String) :
    .ret x ∉ blocks.flatten := by
  intro hmem
  refine forall_argBlocks (P := (· ≠ .ret x)) h ?_ (.ret x) hmem rfl
  rintro q _ b hb _ hst rfl
  exact ret_notMem_convert hb x hst

/-! ### Whole bodies -/

/-- The locals of a body are distinct and hide no name in `known`; what the body reads is in `known`
or has been bound before, and what it returns has been bound. -/
structure WellScoped (known : List String) (body : List Stmt) : Prop where
  nodup : (boundNames body).Nodup
  fresh : ∀ x ∈ known, x ∉ boundNames body
  bound : BoundBefore known body
  returned : ∀ before x after, body = before ++ .ret x :: after → x ∈ boundNames before

/-- The names that a body uses besides the locals of arguments: they are distinct, and neither
parameters nor locals of arguments. -/
structure OwnNames (side : String) (own : List String) : Prop where
  nodup : own.Nodup
  underscored : ∀ n ∈ own, '_' ∈ n.toList
  not_marked : ∀ n ∈ own, ¬ Marked side n
  not_handle : ∀ n ∈ own, n ≠ callbackHandle ∧ n ≠ nativeHandle

theorem ownNames_native : OwnNames "w" (resultNames "native_ret" "host_ret") :=
  ⟨by decide, by decide, by decide, by decide⟩

theorem ownNames_trampoline :
    OwnNames "h" ("host_callback" :: resultNames "host_ret" "wire_ret") :=
  ⟨by decide, by decide, by decide, by decide⟩

def outerNames (lang : Lang) (m : Method) : List String :=
  callbackHandle :: nativeHandle :: (hostParams lang m).map (·.name)

/-- A name with an underscore that is not one of the handles. -/
theorem notMem_outerNames {n : String} (hu : '_' ∈ n.toList)
    (hn : n ≠ callbackHandle ∧ n ≠ nativeHandle) : n ∉ outerNames lang m := by
  rw [outerNames, List.mem_cons, List.mem_cons, hostParams_names]
  rintro (rfl | rfl | hmem)
  · exact hn.1 rfl
  · exact hn.2 rfl
  · obtain ⟨s, _, rfl⟩ := List.mem_map.mp hmem
    exact underscore_notMem_hostName lang s.name hu

theorem argNames_notMem_outerNames {args : List ArgPlan} {n : String}
    (hhandles : ¬ Marked side callbackHandle ∧ ¬ Marked side nativeHandle)
    (h : n ∈ argNames lang side args) : n ∉ outerNames lang m := by
  have hmark := marked_of_mem_argNames h
  apply notMem_outerNames (underscore_mem_argNames h)
  constructor
  · rintro rfl
    exact hhandles.1 hmark
  · rintro rfl
    exact hhandles.2 hmark

theorem OwnNames.notMem_outerNames {own : List String} {n : String} (hown : OwnNames side own)
    (h : n ∈ own) : n ∉ outerNames lang m :=
  Generate.notMem_outerNames (hown.underscored n h) (hown.not_handle n h)

theorem planned_args {o : Ownership} {a r : Position} {β : Type} (f : Slot → β)
    (hplan : Marshal.planMethod o a r m = .ok p) :
    (p.args.map fun q => f q.slot) = m.passed.map f := by
  rw [← Marshal.planMethod_slots hplan, List.map_map]
  rfl

section Body

variable (start : List Stmt) {blocks : List (List Stmt)} {known : List String} {a r : Position}
  (hplan : Marshal.planMethod lang.ownership a r m = .ok p)
  (hblocks : ArgBlocks lang ctx (fun a => argLocal side a.slot.name) p.args blocks)
  (hrest : finish lang ctx p.result call raw cooked = .ok rest)
  (hown : OwnNames side (boundNames start ++ resultNames raw cooked))

include hblocks hrest hown

/-- No name is bound twice. -/
theorem nodup_body (hnames : (p.args.map fun a => lang.hostName a.slot.name).Nodup) :
    (boundNames (start ++ (blocks.flatten ++ rest))).Nodup := by
  have hsub := (boundNames_finish hrest).append_left (boundNames start)
  -- the locals of arguments stand between the names of the body itself; put them first
  rw [boundNames_append, boundNames_append, boundNames_argBlocks hblocks,
    (List.perm_append_comm_assoc _ _ _).nodup_iff, List.nodup_append]
  refine ⟨nodup_argNames hnames, hsub.nodup hown.nodup, ?_⟩
  rintro n hn _ hn' rfl
  exact hown.not_marked n (hsub.mem hn') (marked_of_mem_argNames hn)

/-- No outer name is bound. -/
theorem outerNames_fresh
    (hhandles : ¬ Marked side callbackHandle ∧ ¬ Marked side nativeHandle) :
    ∀ x ∈ outerNames lang m, x ∉ boundNames (start ++ (blocks.flatten ++ rest)) := by
  have hsub := (boundNames_finish hrest).append_left (boundNames start)
  intro x hx hmem
  rw [boundNames_append, boundNames_append, boundNames_argBlocks hblocks,
    (List.perm_append_comm_assoc _ _ _).mem_iff, List.mem_append] at hmem
  rcases hmem with h | h
  · exact argNames_notMem_outerNames hhandles h hx
  · exact hown.notMem_outerNames (hsub.mem h) hx

include hplan

theorem wellScoped_body (hnames : (m.passed.map fun s => lang.hostName s.name).Nodup)
    (hhandles : ¬ Marked side callbackHandle ∧ ¬ Marked side nativeHandle)
    (hknown : known ⊆ outerNames lang m)
    (hparams : ∀ s ∈ m.passed, lang.hostName s.name ∈ known)
    (hstart : BoundBefore known start) (hret : ∀ x, .ret x ∉ start)
    (hcall : call.reads ⊆
      known ++ boundNames start ++ p.args.map fun a => argLocal side a.slot.name) :
    WellScoped known (start ++ (blocks.flatten ++ rest)) := by
  rw [← planned_args (fun s => lang.hostName s.name) hplan] at hnames
  have hfresh : ∀ x ∈ known, x ∉ boundNames (start ++ (blocks.flatten ++ rest)) :=
    fun x hx => outerNames_fresh start hblocks hrest hown hhandles x (hknown hx)
  have hbound : BoundBefore known (start ++ (blocks.flatten ++ rest)) := by
    rw [boundBefore_append, boundBefore_append]
    refine ⟨hstart, boundBefore_argBlocks hblocks ?_, boundBefore_finish hrest ?_
      (Marshal.planMethod_result_conversion hplan)⟩
    · intro q hq
      exact List.mem_append_left _ (hparams _ (Marshal.planMethod_arg hplan hq).1)
    · intro x hx
      rcases List.mem_append.mp (hcall hx) with h | h
      · exact List.mem_append_left _ h
      · obtain ⟨q, hq, rfl⟩ := List.mem_map.mp h
        obtain ⟨b, hb, hconv⟩ := forall₂_exists_right hblocks hq
        have hmem := output_mem_boundNames hconv (Marshal.planMethod_arg_conversion hplan hq)
        rw [boundNames_flatten]
        exact List.mem_append_right _ (List.mem_flatMap.mpr ⟨b, hb, hmem⟩)
  -- a value that is returned is bound, since it is read and no name from outside
  refine ⟨nodup_body start hblocks hrest hown hnames, hfresh, hbound, ?_⟩
  intro before x after heq
  apply (hbound before _ after heq x List.mem_cons_self).resolve_left
  have hmem : .ret x ∈ start ++ (blocks.flatten ++ rest) := by
    rw [heq]
    exact List.mem_append_right _ List.mem_cons_self
  have hx : x = cooked := by
    rw [List.mem_append, List.mem_append] at hmem
    exact ret_mem_finish hrest
      ((hmem.resolve_left (hret x)).resolve_left (ret_notMem_argBlocks hblocks x))
  rw [hx]
  exact fun hk => hown.notMem_outerNames (List.mem_append_right _ (cooked_mem_resultNames _ _))
    (hknown hk)

end Body

/-- After its start, the body has one block for each argument that is passed, in order, which binds
the argument's local to the argument, converted as planned. The call is next. -/
def PassesEach (lang : Lang) (ctx : Context) (m : Method) (side : String) (pos : Position)
    (start : List Stmt) (call : Expr) (body : List Stmt) : Prop :=
  ∃ blocks s tail,
    List.Forall₂
      (fun slot b => ∃ x, Marshal.plan lang.ownership slot.type pos = .ok x ∧
        lang.convert ctx x (lang.hostName slot.name) (argLocal side slot.name) = .ok b ∧
        argLocal side slot.name ∈ boundNames b)
      m.passed blocks ∧
    s.value? = some call ∧ body = start ++ (blocks.flatten ++ s :: tail)

theorem passesEach_body (start : List Stmt) {blocks : List (List Stmt)} {a r : Position}
    (hplan : Marshal.planMethod lang.ownership a r m = .ok p)
    (hblocks : ArgBlocks lang ctx (fun a => argLocal side a.slot.name) p.args blocks)
    (hrest : finish lang ctx p.result call raw cooked = .ok rest) :
    PassesEach lang ctx m side a start call (start ++ (blocks.flatten ++ rest)) := by
  obtain ⟨s, tail, hs, rfl⟩ := finish_head hrest
  refine ⟨blocks, s, tail, ?_, hs, rfl⟩
  rw [← Marshal.planMethod_slots hplan, List.forall₂_map_left_iff]
  have hargs : ∀ q ∈ p.args, Marshal.plan lang.ownership q.slot.type a = .ok q.crossing ∧
      q.crossing.conversion ≠ .none :=
    fun q hq => ⟨(Marshal.planMethod_arg hplan hq).2, Marshal.planMethod_arg_conversion hplan hq⟩
  apply ((List.forall₂_and_left _ _).mpr ⟨hargs, hblocks⟩).imp
  rintro q b ⟨⟨hq, hne⟩, hconv⟩
  exact ⟨q.crossing, hq, hconv, output_mem_boundNames hconv hne⟩

theorem hostParams_subset_outerNames (lang : Lang) (m : Method) :
    (hostParams lang m).map (·.name) ⊆ outerNames lang m :=
  fun _ hx => List.mem_cons_of_mem _ (List.mem_cons_of_mem _ hx)

/-- The body of a call into native code. -/
theorem nativeCallBody_wellScoped {symbol : Symbol} {leading : List String} {body : List Stmt}
    (hnames : (m.passed.map fun s => lang.hostName s.name).Nodup)
    (hleading : leading ⊆ [nativeHandle]) (hplan : Marshal.nativeCall lang.ownership m = .ok p)
    (hbody : nativeCallBody lang ctx p symbol leading = .ok body) :
    WellScoped (leading ++ (hostParams lang m).map (·.name)) body ∧
      (∀ x ∈ outerNames lang m, x ∉ boundNames body) ∧
      PassesEach lang ctx m "w" .argument []
        (.native ctx.scope symbol (leading ++ m.passed.map fun s => argLocal "w" s.name)) body := by
  obtain ⟨blocks, rest, hblocks, hrest, rfl⟩ := nativeCallBody_eq_ok.mp hbody
  have hown : OwnNames "w" (boundNames [] ++ resultNames "native_ret" "host_ret") := ownNames_native
  have hhandles : ¬ Marked "w" callbackHandle ∧ ¬ Marked "w" nativeHandle := by decide
  -- whatever is known at the start is among the names that the body may not hide
  have hknown : leading ++ (hostParams lang m).map (·.name) ⊆ outerNames lang m := by
    apply List.append_subset_of_subset_of_subset _ (hostParams_subset_outerNames lang m)
    intro x hx
    rw [List.mem_singleton.mp (hleading hx)]
    exact List.mem_cons_of_mem _ List.mem_cons_self
  have hparams : ∀ s ∈ m.passed,
      lang.hostName s.name ∈ leading ++ (hostParams lang m).map (·.name) := by
    intro s hs
    rw [hostParams_names]
    exact List.mem_append_right _ (List.mem_map_of_mem hs)
  refine ⟨wellScoped_body [] hplan hblocks hrest hown hnames hhandles hknown hparams
    boundBefore_nil (fun _ => List.not_mem_nil) ?_,
    outerNames_fresh [] hblocks hrest hown hhandles, ?_⟩
  · rw [boundNames_nil, List.append_nil]
    apply List.append_subset_of_subset_of_subset
    · exact fun x hx => List.mem_append_left _ (List.mem_append_left _ hx)
    · exact List.subset_append_right _ _
  · rw [← planned_args (fun s => argLocal "w" s.name) hplan]
    exact passesEach_body [] hplan hblocks hrest

/-- The body of a call of a registered callback. -/
theorem trampolineBody_wellScoped {callback : String} {body : List Stmt}
    (hnames : (m.passed.map fun s => lang.hostName s.name).Nodup)
    (hplan : Marshal.trampoline lang.ownership m = .ok p)
    (hbody : trampolineBody lang ctx p callback = .ok body) :
    WellScoped ((handleParam lang callbackHandle :: wireParams lang ctx p).map (·.name)) body ∧
      (∀ x ∈ outerNames lang m, x ∉ boundNames body) ∧
      PassesEach lang ctx m "h" .callbackArgument [lookupStmt callback]
        (.invoke "host_callback" (lang.hostName m.name)
          (m.passed.map fun s => (lang.hostName s.name, argLocal "h" s.name))) body := by
  obtain ⟨blocks, rest, hblocks, hrest, rfl⟩ := trampolineBody_eq_ok.mp hbody
  have hown : OwnNames "h"
      (boundNames [lookupStmt callback] ++ resultNames "host_ret" "wire_ret") :=
    ownNames_trampoline
  have hhandles : ¬ Marked "h" callbackHandle ∧ ¬ Marked "h" nativeHandle := by decide
  have hwire : (wireParams lang ctx p).map (·.name) = (hostParams lang m).map (·.name) := by
    rw [wireParams_names hplan, hostParams_names]
  rw [List.map_cons, hwire]
  have hknown : callbackHandle :: (hostParams lang m).map (·.name) ⊆ outerNames lang m := by
    apply List.cons_subset_cons
    exact fun x hx => List.mem_cons_of_mem _ hx
  have hparams : ∀ s ∈ m.passed,
      lang.hostName s.name ∈ callbackHandle :: (hostParams lang m).map (·.name) := by
    intro s hs
    rw [hostParams_names]
    exact List.mem_cons_of_mem _ (List.mem_map_of_mem hs)
  -- the host object is looked up before any argument is converted
  have hstart : BoundBefore (callbackHandle :: (hostParams lang m).map (·.name))
      [lookupStmt callback] := by
    rw [boundBefore_cons]
    refine ⟨?_, boundBefore_nil⟩
    intro x hx
    rw [List.mem_singleton.mp hx]
    exact List.mem_cons_self
  refine ⟨wellScoped_body [lookupStmt callback] hplan hblocks hrest hown hnames hhandles
    hknown hparams hstart (fun _ => by simp [lookupStmt]) ?_,
    outerNames_fresh [lookupStmt callback] hblocks hrest hown hhandles, ?_⟩
  · intro x hx
    rw [invokeExpr, Expr.reads, List.map_map, List.mem_cons] at hx
    rcases hx with rfl | hx
    · exact List.mem_append_left _ (List.mem_append_right _ List.mem_cons_self)
    · exact List.mem_append_right _ hx
  · have hcall : invokeExpr lang p = .invoke "host_callback" (lang.hostName m.name)
        (m.passed.map fun s => (lang.hostName s.name, argLocal "h" s.name)) := by
      rw [invokeExpr, Marshal.planMethod_method hplan,
        ← planned_args (fun s => (lang.hostName s.name, argLocal "h" s.name)) hplan]
      rfl
    rw [← hcall]
    exact passesEach_body [lookupStmt callback] hplan hblocks hrest

/-- The locals of every generated body are distinct, hide no parameter and no handle, and are bound
before they are used; the call gets the leading arguments and then one converted local for each
argument that is passed, in order. -/
theorem bodies_wellScoped (lang : Lang) (ctx : Context) (m : Method)
    (hnames : (m.passed.map fun s => lang.hostName s.name).Nodup) :
    (∀ p symbol leading body, leading = [] ∨ leading = [nativeHandle] →
      Marshal.nativeCall lang.ownership m = .ok p →
      nativeCallBody lang ctx p symbol leading = .ok body →
        WellScoped (leading ++ (hostParams lang m).map (·.name)) body ∧
        (∀ x ∈ outerNames lang m, x ∉ boundNames body) ∧
        PassesEach lang ctx m "w" .argument []
          (.native ctx.scope symbol (leading ++ m.passed.map fun s => argLocal "w" s.name))
          body) ∧
    (∀ p callback body, Marshal.trampoline lang.ownership m = .ok p →
      trampolineBody lang ctx p callback = .ok body →
        WellScoped ((handleParam lang callbackHandle :: wireParams lang ctx p).map (·.name)) body ∧
        (∀ x ∈ outerNames lang m, x ∉ boundNames body) ∧
        PassesEach lang ctx m "h" .callbackArgument [lookupStmt callback]
          (.invoke "host_callback" (lang.hostName m.name)
            (m.passed.map fun s => (lang.hostName s.name, argLocal "h" s.name)))
          body) := by
  constructor
  · intro p symbol leading body hleading hplan hbody
    apply nativeCallBody_wellScoped hnames _ hplan hbody
    rcases hleading with rfl | rfl
    · exact List.nil_subset _
    · exact List.Subset.refl _
  · intro p callback body hplan hbody
    exact trampolineBody_wellScoped hnames hplan hbody

/-- A service method with argument names that look like the locals of each other. -/
def lookalikeTaken : Method :=
  ⟨"call", .single .string, "String",
    [⟨"x", .callback "Cb", "Box<dyn Cb>"⟩, ⟨"x_handle", .single .string, "String"⟩,
     ⟨"data", .vec (.numeric .byte), "Vec<u8>"⟩, ⟨"data_buf", .single .string, "String"⟩,
     ⟨"native_ret", .single (.record "R"), "R"⟩, ⟨"in", .single .boolean, "bool"⟩]⟩

def lookalikeGiven : Method :=
  ⟨"give", .vec (.numeric .byte), "Vec<u8>",
    [⟨"callback", .single (.record "R"), "R"⟩, ⟨"callback_json", .single .string, "String"⟩]⟩

def lookalikeContext : Context :=
  .ofInterface ⟨[⟨"Cb", "lib", "lib", true, [lookalikeGiven]⟩], []⟩ (.forModule "Demo")
    ⟨"Service", "lib", "lib", false, [lookalikeTaken]⟩

theorem bodies_wellScoped_lookalike :
    (∃ p body, Marshal.nativeCall .nativeFreed lookalikeTaken = .ok p ∧
      nativeCallBody .swift lookalikeContext p (.method "call") [nativeHandle] = .ok body ∧
      (boundNames body).Nodup ∧ boundNames body =
        ["w_x_handle", "w_x", "w_xHandle", "w_data_buf", "w_data", "w_dataBuf", "w_nativeRet",
         "w_in", "native_ret", "host_ret"]) ∧
    ∃ p body, Marshal.trampoline .nativeFreed lookalikeGiven = .ok p ∧
      trampolineBody .swift lookalikeContext p "Cb" = .ok body ∧
      (boundNames body).Nodup ∧ boundNames body =
        ["host_callback", "h_callback_json", "h_callback", "h_callbackJson", "host_ret",
         "wire_ret_buf", "wire_ret"] := by
  have htaken := (bodies_wellScoped .swift lookalikeContext lookalikeTaken (by decide)).1
  have hgiven := (bodies_wellScoped .swift lookalikeContext lookalikeGiven (by decide)).2
  constructor
  · exact ⟨_, _, rfl, rfl, (htaken _ _ _ _ (Or.inr rfl) rfl rfl).1.nodup, by decide⟩
  · exact ⟨_, _, rfl, rfl, (hgiven _ _ _ rfl rfl).1.nodup, by decide⟩

end HostBindings.Generate
