import HostBindings.Proofs.Code.Contents
import HostBindings.Proofs.Naming

/-!
Conversions of single values. A conversion succeeds unless it registers a callback that is not
declared. What statements it can be is said once for each language, and the rest goes by these cases:
it binds its output, and before it at most one further local, whose name is the output with an
ending; it reads its input and these locals; it refers to the registry, the model or the proxy of
the callback that it converts, and to nothing else that is generated.
-/

namespace HostBindings

open HostBindings.Code

variable {lang : Lang} {ctx : Context} {x : Crossing} {input output : String} {b : List Stmt}

/-- A value that is there has a type on the boundary. -/
theorem Lang.exists_wireType (h : x.isVoid = false) : ∃ t, lang.wireType ctx x = some t := by
  unfold Crossing.isVoid at h
  cases lang <;> cases hw : x.wire <;> simp_all [Lang.wireType, Swift.wireType, Kotlin.wireType]

def Crossing.Declared (c : Catalog) (x : Crossing) : Prop :=
  ∀ name, x.conversion = .registerCallback name → ∃ j, c.callback? name = some j

theorem Lang.exists_convert (h : x.Declared ctx.catalog) :
    ∃ b, lang.convert ctx x input output = .ok b := by
  cases lang with
  | kotlin => exact ⟨_, rfl⟩
  | swift =>
    unfold Lang.convert Swift.convert
    cases hk : x.conversion with
    | cast =>
      -- a cast falls back to a plain name
      dsimp only
      split <;> exact ⟨_, rfl⟩
    | registerCallback callback =>
      -- the only failure: the interface of the model is looked up
      obtain ⟨j, hj⟩ := h callback hk
      dsimp only
      rw [hj]
      exact ⟨_, rfl⟩
    | _ => exact ⟨_, rfl⟩

/-- The statements that Swift has for a conversion. -/
inductive Swift.Converted (ctx : Context) (x : Crossing) (input output : String) :
    List Stmt → Prop where
  | none (hk : x.conversion = .none) : Converted ctx x input output []
  | passThrough (hk : x.conversion = .passThrough) :
      Converted ctx x input output [.bind output (owned x (.name input))]
  | cast (hk : x.conversion = .cast) (n : Numeric) :
      Converted ctx x input output [.bind output (.cast n input)]
  | kept (hk : x.conversion = .cast) : Converted ctx x input output [.bind output (.name input)]
  | boolToWire (hk : x.conversion = .boolToWire) :
      Converted ctx x input output [.bind output (.asInteger input)]
  | wireToBool (hk : x.conversion = .wireToBool) :
      Converted ctx x input output [.bind output (.asTruth input)]
  | jsonEncode (hk : x.conversion = .jsonEncode) :
      Converted ctx x input output [.bind output (owned x (.jsonEncode input))]
  | jsonDecode (hk : x.conversion = .jsonDecode) : Converted ctx x input output
      ([.bind (output ++ "_json") (.copyText input)] ++ release ctx x .releaseText input ++
        [.bind output (.jsonDecode x.type (output ++ "_json"))])
  | copyString (hk : x.conversion = .copyString) : Converted ctx x input output
      ([.bind output (.copyText input)] ++ release ctx x .releaseText input)
  /-- A buffer that native code takes over. -/
  | bytesGiven (hk : x.conversion = .bytesToWire) (ho : x.transfersOwnership = true) :
      Converted ctx x input output
        [.bind (output ++ "_buf") (.allocate input), .fill (output ++ "_buf") input,
          .bind output (.wireBytes (output ++ "_buf") input)]
  | bytesLent (hk : x.conversion = .bytesToWire) (ho : x.transfersOwnership = false) :
      Converted ctx x input output
        [.bind (output ++ "_buf") (.allocate input), .fill (output ++ "_buf") input,
          .deferRelease (output ++ "_buf"), .bind output (.wireBytes (output ++ "_buf") input)]
  | wireToBytes (hk : x.conversion = .wireToBytes) : Converted ctx x input output
      ([.bind output (.copyBytes input)] ++ release ctx x .releaseBytes input)
  | registerCallback {callback j} (hk : x.conversion = .registerCallback callback)
      (hj : ctx.catalog.callback? callback = some j) : Converted ctx x input output
        [.bind (output ++ "_handle") (.register callback input),
          .bind output
            (.model ctx.scope callback (j.methods.map (·.name)) (output ++ "_handle"))]
  | wrapProxy {callback} (hk : x.conversion = .wrapProxy callback) :
      Converted ctx x input output [.bind output (.proxy callback input)]

theorem Swift.convert_cases (h : convert ctx x input output = .ok b) :
    Converted ctx x input output b := by
  unfold convert at h
  cases hk : x.conversion with
  | cast =>
    -- a cast falls back to a plain name
    rw [hk] at h
    dsimp only at h
    split at h <;> cases h
    · exact .cast hk _
    · exact .kept hk
  | bytesToWire =>
    rw [hk] at h
    cases ho : x.transfersOwnership <;> rw [ho] at h <;> cases h
    · exact .bytesLent hk ho
    · exact .bytesGiven hk ho
  | registerCallback callback =>
    rw [hk] at h
    dsimp only at h
    split at h <;> cases h
    exact .registerCallback hk ‹_›
  | _ =>
    rw [hk] at h
    cases h
    constructor
    exact hk

/-- What Kotlin binds the output of a conversion to. -/
inductive Kotlin.Converted (x : Crossing) (input output : String) : List Stmt → Prop where
  | none (hk : x.conversion = .none) : Converted x input output []
  | passThrough (hk : x.conversion = .passThrough) :
      Converted x input output [.bind output (.name input)]
  | copyString (hk : x.conversion = .copyString) :
      Converted x input output [.bind output (.name input)]
  | bytesToWire (hk : x.conversion = .bytesToWire) :
      Converted x input output [.bind output (.name input)]
  | wireToBytes (hk : x.conversion = .wireToBytes) :
      Converted x input output [.bind output (.name input)]
  | cast (hk : x.conversion = .cast) (n : Numeric) :
      Converted x input output [.bind output (.cast n input)]
  | kept (hk : x.conversion = .cast) : Converted x input output [.bind output (.name input)]
  | boolToWire (hk : x.conversion = .boolToWire) :
      Converted x input output [.bind output (.asInteger input)]
  | wireToBool (hk : x.conversion = .wireToBool) :
      Converted x input output [.bind output (.asTruth input)]
  | jsonEncode (hk : x.conversion = .jsonEncode) :
      Converted x input output [.bind output (.jsonEncode input)]
  | jsonDecode (hk : x.conversion = .jsonDecode) :
      Converted x input output [.bind output (.jsonDecode x.type input)]
  | registerCallback {callback} (hk : x.conversion = .registerCallback callback) :
      Converted x input output [.bind output (.register callback input)]
  | wrapProxy {callback} (hk : x.conversion = .wrapProxy callback) :
      Converted x input output [.bind output (.proxy callback input)]

theorem Kotlin.convert_cases (h : convert x input output = b) : Converted x input output b := by
  subst h
  unfold convert converted
  cases hk : x.conversion with
  | cast =>
    dsimp only
    split
    · exact .cast hk _
    · exact .kept hk
  | passThrough => exact .passThrough hk
  | copyString => exact .copyString hk
  | bytesToWire => exact .bytesToWire hk
  | wireToBytes => exact .wireToBytes hk
  | _ =>
    constructor
    exact hk

def Lang.endings : Lang → Conversion → List String
  | _, .none => []
  | .swift, .jsonDecode => ["_json", ""]
  | .swift, .bytesToWire => ["_buf", ""]
  | .swift, .registerCallback _ => ["_handle", ""]
  | _, _ => [""]

namespace Lang

def allEndings : List String :=
  ["_json", "_buf", "_handle", ""]

theorem endings_sublist (k : Conversion) : (lang.endings k).Sublist allEndings := by
  cases lang <;> cases k <;> simp [endings, allEndings]

theorem nodup_endings (k : Conversion) : (lang.endings k).Nodup :=
  (endings_sublist k).nodup (by decide)

theorem isEnding_of_mem_endings {k : Conversion} {s : String} (h : s ∈ lang.endings k) :
    Naming.IsEnding s := by
  have hs := (endings_sublist k).mem h
  simp only [allEndings, List.mem_cons, List.not_mem_nil, or_false] at hs
  rcases hs with rfl | rfl | rfl | rfl
  · exact Or.inr ⟨_, rfl⟩
  · exact Or.inr ⟨_, rfl⟩
  · exact Or.inr ⟨_, rfl⟩
  · exact Or.inl rfl

theorem nil_mem_endings {k : Conversion} (h : k ≠ .none) : "" ∈ lang.endings k := by
  cases lang <;> cases k <;> simp_all [endings]

end Lang

theorem Swift.boundNames_release (symbol : Symbol) (y : String) :
    boundNames (Swift.release ctx x symbol y) = [] := by
  unfold Swift.release
  split <;> rfl

/-- A conversion binds its output with each of its endings. -/
theorem boundNames_convert (h : lang.convert ctx x input output = .ok b) :
    boundNames b = (lang.endings x.conversion).map (output ++ ·) := by
  cases lang with
  | kotlin =>
    cases Kotlin.convert_cases (Except.ok.inj h) <;> simp [*, Stmt.binds, Lang.endings]
  | swift =>
    cases Swift.convert_cases h <;> simp [*, Swift.boundNames_release, Stmt.binds, Lang.endings]

theorem output_mem_boundNames (h : lang.convert ctx x input output = .ok b)
    (hconv : x.conversion ≠ .none) : output ∈ boundNames b := by
  rw [boundNames_convert h]
  exact List.mem_map.mpr ⟨"", Lang.nil_mem_endings hconv, String.append_empty⟩

theorem Swift.boundBefore_release {known : List String} {symbol : Symbol} {y : String}
    (h : y ∈ known) : BoundBefore known (Swift.release ctx x symbol y) := by
  unfold Swift.release
  split
  · simpa [Stmt.reads, Expr.reads] using h
  · exact boundBefore_nil

theorem Swift.reads_owned (e : Expr) : (Swift.owned x e).reads = e.reads := by
  unfold Swift.owned
  split <;> rfl

/-- A conversion reads its input and the locals that it has bound. -/
theorem boundBefore_convert (h : lang.convert ctx x input output = .ok b) :
    BoundBefore [input] b := by
  -- each conversion names its input and then only what it has bound itself
  cases lang with
  | kotlin =>
    cases Kotlin.convert_cases (Except.ok.inj h) <;> simp [Stmt.reads, Expr.reads]
  | swift =>
    cases Swift.convert_cases h <;> simp [Stmt.reads, Expr.reads, Stmt.binds,
      Swift.boundNames_release, Swift.boundBefore_release, Swift.reads_owned]

theorem Swift.ret_notMem_release (symbol : Symbol) (y z : String) :
    .ret z ∉ Swift.release ctx x symbol y := by
  unfold Swift.release
  split <;> simp

/-- No conversion ends the function that it stands in. -/
theorem ret_notMem_convert (h : lang.convert ctx x input output = .ok b) (y : String) :
    .ret y ∉ b := by
  cases lang with
  | kotlin => cases Kotlin.convert_cases (Except.ok.inj h) <;> simp
  | swift => cases Swift.convert_cases h <;> simp [Swift.ret_notMem_release]

/-! ### References -/

inductive ConversionReference (lang : Lang) (ctx : Context) (x : Crossing) : Reference → Prop where
  | registry {callback} (h : x.conversion = .registerCallback callback) :
      ConversionReference lang ctx x (.registry callback)
  | model {callback j} (handle : String) (h : x.conversion = .registerCallback callback)
      (hj : ctx.catalog.callback? callback = some j) :
      ConversionReference lang ctx x
        (.model ctx.scope callback (j.methods.map (·.name)) handle)
  | proxy {callback} (h : x.conversion = .wrapProxy callback) :
      ConversionReference lang ctx x (.proxy callback)
  /-- Buffers are released by functions of the native library. -/
  | release (h : lang = .swift) (symbol : Symbol) :
      ConversionReference lang ctx x (.native ctx.scope symbol 1)

theorem Swift.references_owned (e : Expr) : (Swift.owned x e).references = e.references := by
  unfold Swift.owned
  split <;> rfl

theorem Swift.references_release {symbol : Symbol} {y : String} :
    RefersTo (ConversionReference .swift ctx x) (Swift.release ctx x symbol y) := by
  unfold Swift.release
  split
  · simpa [Expr.references] using .release rfl symbol
  · exact refersTo_nil

theorem references_convert (h : lang.convert ctx x input output = .ok b) :
    RefersTo (ConversionReference lang ctx x) b := by
  cases lang with
  | kotlin =>
    cases Kotlin.convert_cases (Except.ok.inj h) with
    | registerCallback hk => simpa [Expr.references] using .registry hk
    | wrapProxy hk => simpa [Expr.references] using .proxy hk
    | _ => simp [Expr.references]
  | swift =>
    cases Swift.convert_cases h with
    | registerCallback hk hj => simpa [Expr.references] using ⟨.registry hk, .model _ hk hj⟩
    | wrapProxy hk => simpa [Expr.references] using .proxy hk
    | jsonDecode | copyString | wireToBytes =>
      -- copies, after which a buffer may be released
      simpa [Expr.references] using Swift.references_release
    | _ => simp [Expr.references, Swift.references_owned]

end HostBindings
