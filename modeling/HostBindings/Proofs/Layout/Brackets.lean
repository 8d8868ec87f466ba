import HostBindings.Proofs.Layout.Depth
import HostBindings.Proofs.Target.Brackets

/-!
The brackets of laid out files. Neither indentation nor blank lines have brackets, so what an output
writes is balanced if the lines of its events are. By induction over the members, they are: a type,
a body or a block is written between the braces that its own lines open and close.
-/

namespace HostBindings.Layout

open HostBindings.Code HostBindings.Text

/-! ### Outputs -/

def Event.brackets : Event → List Char
  | .line text => Text.brackets text
  | _ => []

def eventBrackets (events : List Event) : List Char :=
  events.flatMap Event.brackets

theorem eventBrackets_append (a b : List Event) :
    eventBrackets (a ++ b) = eventBrackets a ++ eventBrackets b :=
  List.flatMap_append

theorem eventBrackets_lines {α : Type} (f : α → String) (as : List α) :
    eventBrackets (as.map fun a => .line (f a)) = as.flatMap fun a => brackets (f a) := by
  rw [eventBrackets, List.flatMap_map]
  rfl

theorem eventBrackets_separate (ps : List Piece) :
    eventBrackets (separate ps) = ps.flatMap fun p => eventBrackets p.events := by
  induction ps with
  | nil => rfl
  | cons p ps ih =>
    cases ps with
    | nil => simp [separate]
    | cons q ps =>
      have hgap : eventBrackets (if p.isOneLine && q.isOneLine then [] else [.blank]) = [] := by
        split <;> rfl
      rw [separate, eventBrackets_append, eventBrackets_append, hgap, List.append_nil, ih]
      rfl

namespace Output

structure Clean (o : Output) : Prop where
  unit : BracketFree o.unit
  stack : ∀ level ∈ o.stack, BracketFree level

theorem Clean.current {o : Output} (h : o.Clean) : BracketFree o.current := by
  unfold Output.current
  cases hstack : o.stack with
  | nil => rfl
  | cons level levels => exact h.stack level (hstack ▸ List.mem_cons_self)

theorem Clean.take {o : Output} (h : o.Clean) (e : Event) : (o.take e).Clean := by
  cases e with
  | line text => exact ⟨h.unit, h.stack⟩
  | blank =>
    show o.blank.Clean
    unfold Output.blank
    split
    · exact h
    · exact ⟨h.unit, h.stack⟩
  | push => exact ⟨h.unit, List.forall_mem_cons.mpr ⟨h.current.append h.unit, h.stack⟩⟩
  | pop =>
    show o.pop.Clean
    unfold Output.pop
    split
    · exact ⟨h.unit, fun level hlevel => h.stack level (List.mem_of_mem_tail hlevel)⟩
    · exact h

theorem brackets_take {o : Output} (h : o.Clean) (e : Event) :
    brackets (o.take e).text = brackets o.text ++ e.brackets := by
  have hfeed : brackets "\n" = [] := by decide
  cases e with
  | line text =>
    show brackets (o.text ++ o.current ++ text ++ "\n") = _
    rw [brackets_append, brackets_append, brackets_append, h.current, hfeed, List.append_nil,
      List.append_nil]
    rfl
  | blank =>
    show brackets o.blank.text = brackets o.text ++ []
    rw [List.append_nil, Output.blank]
    split
    · rfl
    · rw [brackets_append, hfeed, List.append_nil]
  | push => exact (List.append_nil _).symm
  | pop =>
    show brackets o.pop.text = brackets o.text ++ []
    rw [List.append_nil, Output.pop]
    split <;> rfl

theorem brackets_run {o : Output} (h : o.Clean) (events : List Event) :
    brackets (o.run events).text = brackets o.text ++ eventBrackets events := by
  induction events generalizing o with
  | nil => exact (List.append_nil _).symm
  | cons e events ih =>
    show brackets ((o.take e).run events).text = _
    rw [ih (h.take e), brackets_take h, List.append_assoc]
    rfl

theorem filter_dropBlankLines (cs : List Char) :
    (dropBlankLines cs).filter isBracket = cs.filter isBracket := by
  induction cs with
  | nil => rfl
  | cons c cs ih =>
    rw [dropBlankLines]
    split
    · rename_i hc
      obtain ⟨rfl, _⟩ : c = '\n' ∧ cs.head? = some '\n' := by simpa using hc
      rw [ih]
      rfl
    · rfl

theorem brackets_finish (o : Output) : brackets o.finish = brackets o.text := by
  rw [finish, brackets, String.toList_ofList, List.filter_reverse, filter_dropBlankLines,
    List.filter_reverse, List.reverse_reverse]
  rfl

theorem clean_empty (width : Nat) : (empty width).Clean where
  unit := by
    rw [bracketFree_iff]
    intro c hc
    rw [empty, String.toList_ofList] at hc
    rw [List.eq_of_mem_replicate hc]
    rfl
  stack := by
    intro level hlevel
    rw [List.mem_singleton.mp hlevel]
    rfl

end Output

/-! ### Pieces -/

variable {lang : Lang}

theorem balanced_lines {α : Type} {f : α → String} {as : List α}
    (h : ∀ a ∈ as, Balanced (brackets (f a))) :
    Balanced (eventBrackets (as.map fun a => .line (f a))) := by
  rw [eventBrackets_lines]
  exact Balanced.flatMap h

theorem balanced_line {text : String} (h : Balanced (brackets text)) :
    Balanced (eventBrackets [.line text]) := by
  have hone : eventBrackets [.line text] = brackets text := List.append_nil _
  rw [hone]
  exact h

/-- An opening that leaves a brace open, balanced lines and the closing brace. -/
theorem balanced_braces {opening body : List Event} {front : List Char}
    (hopening : eventBrackets opening = front ++ ['\x7b']) (hfront : Balanced front)
    (hbody : Balanced (eventBrackets body)) :
    Balanced (eventBrackets (opening ++ body ++ [.pop, .line "\x7d"])) := by
  have hclosing : eventBrackets [.pop, .line "\x7d"] = ['\x7d'] := by decide
  rw [eventBrackets_append, eventBrackets_append, hopening, hclosing, hbody.insert,
    List.append_assoc]
  exact hfront.append (by decide)

/-- The line that opens a block. -/
theorem eventBrackets_opening (text : String) :
    eventBrackets [.line (text ++ " \x7b"), .push] = brackets text ++ ['\x7b'] := by
  have hbrace : brackets " \x7b" = ['\x7b'] := by decide
  rw [← hbrace, ← brackets_append]
  exact List.append_nil _

theorem itemsEvents_eq_flatMap (items : List Item) :
    itemsEvents lang items = items.flatMap (itemEvents lang) :=
  eq_flatMap_of_cons rfl (fun _ _ => rfl) items

theorem balanced_itemEvents {item : Item} (h : item.WellBracketed) :
    Balanced (eventBrackets (itemEvents lang item)) := by
  induction h with
  | line h => exact balanced_line h
  | stmt h => exact balanced_line (lang.balanced_stmtText h)
  | blank => exact Balanced.nil
  | @block header imports items hheader himports hitems ih =>
    refine balanced_braces (eventBrackets_opening header) hheader ?_
    rw [itemsEvents_eq_flatMap, eventBrackets, List.flatMap_assoc]
    exact Balanced.flatMap ih

theorem balanced_itemsEvents {body : Block} (h : body.WellBracketed) :
    Balanced (eventBrackets (itemsEvents lang body.items)) := by
  rw [itemsEvents_eq_flatMap, eventBrackets, List.flatMap_assoc]
  exact Balanced.flatMap fun item hitem => balanced_itemEvents (h.items item hitem)

theorem balanced_docEvents {docs : List String} (h : ∀ line ∈ docs, Balanced (brackets line)) :
    Balanced (eventBrackets (docEvents lang docs)) :=
  balanced_lines (lang.balanced_docLines h)

theorem balanced_fieldPiece {f : Field} (h : f.WellBracketed) :
    Balanced (eventBrackets (fieldPiece lang f).events) := by
  have htext : Balanced (brackets (lang.fieldText f)) := lang.balanced_fieldText h
  unfold fieldPiece
  rw [eventBrackets_append]
  refine (balanced_docEvents h.docs).append ?_
  split
  · exact balanced_line htext
  · rename_i text hinit
    cases h.initializer _ hinit with
    | expr htail =>
      exact balanced_line (balanced_append (balanced_append htext (by decide)) htail)
  · rename_i params body hinit
    cases h.initializer _ hinit with
    | closure hparams hbody =>
      have hequals : BracketFree " = " := by decide
      have hopening : eventBrackets [.line (lang.fieldText f ++ " = " ++ lang.closureOpen params),
          .push] = brackets (lang.fieldText f) ++ ['\x7b'] := by
        rw [← lang.brackets_closureOpen hparams, ← List.append_nil (brackets (lang.fieldText f)),
          ← hequals, ← brackets_append, ← brackets_append]
        exact List.append_nil _
      exact balanced_braces hopening htext (balanced_itemsEvents hbody)

theorem balanced_funcPiece {f : Func} (h : f.WellBracketed) :
    Balanced (eventBrackets (funcPiece lang f).events) := by
  have htext : Balanced (brackets (lang.signature f)) := lang.balanced_signature h
  unfold funcPiece
  rw [eventBrackets_append, eventBrackets_append]
  refine ((balanced_docEvents h.docs).append (balanced_lines (lang.balanced_leadingLines h))).append
    ?_
  split
  · exact balanced_line htext
  · rename_i body hbody
    exact balanced_braces (eventBrackets_opening _) htext (balanced_itemsEvents (h.body body hbody))

theorem balanced_impliedPieces {head : TypeHead} (h : head.WellBracketed) :
    ∀ p ∈ impliedPieces lang head, Balanced (eventBrackets p.events) := by
  rw [impliedPieces, List.forall_mem_append, List.forall_mem_map, List.forall_mem_map]
  constructor
  · exact fun f hf => balanced_fieldPiece (lang.wellBracketed_impliedFields h f hf)
  · exact fun f hf =>
      balanced_funcPiece (lang.wellBracketed_impliedConstructor h f (Option.mem_toList.mp hf))

/-- The lines of a header, with its parameters in brackets if there are any. Only the text that ends
them may leave a bracket open. -/
theorem exists_headerBrackets {header : Target.TypeHeader}
    (hlead : Balanced (brackets header.lead)) (htail : Balanced (brackets header.tail))
    (hparams : ∀ p ∈ header.params, Balanced (brackets p)) :
    ∃ front, Balanced front ∧ ∀ brace,
      eventBrackets
        (if header.params.isEmpty then [.line (header.lead ++ header.tail ++ brace)]
        else
          [.line (header.lead ++ "("), .push] ++ header.params.map (fun p => .line (p ++ ",")) ++
            [.pop, .line (")" ++ header.tail ++ brace)]) = front ++ brackets brace := by
  -- without parameters there is one line; with them one for each, between two brackets
  split
  · refine ⟨_, balanced_append hlead htail, fun brace => ?_⟩
    rw [← brackets_append]
    exact List.append_nil _
  · have hlines : Balanced (eventBrackets (header.params.map fun p => .line (p ++ ","))) :=
      balanced_lines fun p hp => balanced_append (hparams p hp) (by decide)
    refine ⟨brackets (header.lead ++ "(") ++
      eventBrackets (header.params.map fun p => .line (p ++ ",")) ++ brackets (")" ++ header.tail),
      ?_, fun brace => ?_⟩
    · have hround : Balanced (brackets "(" ++ brackets ")") := by decide
      rw [hlines.insert, brackets_append, brackets_append, List.append_assoc,
        ← List.append_assoc (brackets "(")]
      exact hlead.append (hround.append htail)
    · have hopening : eventBrackets [.line (header.lead ++ "("), .push] =
          brackets (header.lead ++ "(") := List.append_nil _
      have hclosing : eventBrackets [.pop, .line (")" ++ header.tail ++ brace)] =
          brackets (")" ++ header.tail) ++ brackets brace := by
        rw [← brackets_append]
        exact List.append_nil _
      rw [eventBrackets_append, eventBrackets_append, hopening, hclosing, List.append_assoc,
        List.append_assoc, List.append_assoc]

theorem exists_headBrackets (lang : Lang) {head : TypeHead} (h : head.WellBracketed) :
    ∃ front, Balanced front ∧
      ∀ brace, eventBrackets (headEvents lang head brace) = front ++ brackets brace := by
  obtain ⟨front, hfront, heq⟩ := exists_headerBrackets (lang.balanced_lead h) (lang.balanced_tail h)
    (lang.balanced_headerParams h)
  have hannotations : Balanced
      (eventBrackets (head.annotations.map fun a => .line (lang.annotationText a))) :=
    balanced_lines fun t ht => lang.balanced_annotationText (h.annotations t ht)
  have hdocs : Balanced (eventBrackets (docEvents lang head.docs)) := balanced_docEvents h.docs
  refine ⟨_, (hdocs.append hannotations).append hfront, fun brace => ?_⟩
  rw [headEvents, eventBrackets_append, eventBrackets_append, heq, ← List.append_assoc]

theorem balanced_memberPiece {m : Member} (h : m.WellBracketed) :
    Balanced (eventBrackets (memberPiece lang m).events) := by
  induction h with
  | field h => exact balanced_fieldPiece h
  | func h => exact balanced_funcPiece h
  | @type head members hhead hmembers ih =>
    obtain ⟨front, hfront, heq⟩ := exists_headBrackets lang hhead
    have hbody : Balanced
        (eventBrackets (separate (impliedPieces lang head ++ memberPieces lang members))) := by
      rw [eventBrackets_separate, memberPieces_eq_map]
      refine Balanced.flatMap (List.forall_mem_append.mpr ⟨balanced_impliedPieces hhead, ?_⟩)
      exact List.forall_mem_map.mpr ih
    rw [memberPiece]
    dsimp only
    split
    · rw [heq ""]
      exact hfront.append (by decide)
    · refine balanced_braces ?_ hfront hbody
      rw [eventBrackets_append, heq " \x7b", List.append_assoc]
      rfl

/-! ### Files -/

theorem balanced_paragraph {lines : List String} (h : Balanced (lines.flatMap brackets)) :
    Balanced (eventBrackets (paragraph lines)) := by
  have hgap : eventBrackets [.blank] = [] := rfl
  rw [paragraph, eventBrackets_append, hgap, List.append_nil, eventBrackets, List.flatMap_map]
  exact h

theorem balanced_headerEvents {header : Option String}
    (h : ∀ text ∈ header, Balanced (brackets text)) :
    Balanced (eventBrackets (headerEvents header)) := by
  cases header with
  | none => exact Balanced.nil
  | some text =>
    have hcomment : brackets "// " = [] := by decide
    have hsame : ((Text.lines text).map Lang.commentLine).flatMap brackets = brackets text := by
      simp only [List.flatMap_map, Lang.commentLine, brackets_append, hcomment, List.nil_append]
      exact brackets_lines text
    refine balanced_paragraph ?_
    rw [hsame]
    exact h text rfl

theorem balanced_packageEvents {package : Option String} (h : ∀ p ∈ package, BracketFree p) :
    Balanced (eventBrackets (packageEvents lang package)) := by
  unfold packageEvents
  split
  · exact Balanced.nil
  · rename_i line hline
    obtain ⟨p, hp, hline⟩ := Option.bind_eq_some_iff.mp hline
    refine balanced_paragraph (Balanced.flatMap (List.forall_mem_singleton.mpr ?_))
    cases lang with
    | swift => cases hline
    | kotlin =>
      cases hline
      exact balanced_append (by decide) (h p hp).balanced

theorem balanced_importEvents {imports : List String} (h : ∀ i ∈ imports, BracketFree i) :
    Balanced (eventBrackets (importEvents imports)) := by
  unfold importEvents
  split
  · exact Balanced.nil
  · refine balanced_paragraph (Balanced.flatMap (List.forall_mem_map.mpr fun i hi => ?_))
    exact balanced_append (by decide) (h i hi).balanced

/-- A file without stray brackets is laid out as a balanced text. -/
theorem balanced_renderFile {width : Nat} {f : SourceFile} {text : String} (h : f.WellBracketed)
    (hrender : renderFile lang width f = .ok text) : Balanced text.toList := by
  have hmembers : Balanced (eventBrackets (separate (memberPieces lang f.members))) := by
    rw [eventBrackets_separate, memberPieces_eq_map]
    refine Balanced.flatMap (List.forall_mem_map.mpr fun m hm => ?_)
    exact balanced_memberPiece (h.members m hm)
  have hfile : Balanced (eventBrackets (fileEvents lang f)) := by
    rw [fileEvents, frontEvents, eventBrackets_append, eventBrackets_append, eventBrackets_append]
    exact (((balanced_headerEvents h.header).append (balanced_packageEvents h.package)).append
      (balanced_importEvents h.allImports)).append hmembers
  unfold renderFile at hrender
  split at hrender
  · cases hrender
  · rw [← Except.ok.inj hrender, ← balanced_filter]
    show Balanced (brackets _)
    rw [Output.brackets_finish, Output.brackets_run (Output.clean_empty width)]
    exact hfile

end HostBindings.Layout
