import GraphScript.Proofs.Emit.Place

/-!
# Proofs/Emit/Headers — which lines of a chunk open a function

Apart from script text that is taken over, a line below the first one opens a function only if it is
the header of one (`quiet_or_header`): what a body writes begins with a word or a mark that no
header begins with, or goes on differently.
-/

namespace GraphScript.Emit.Script

/-! ## Opening lines -/

/-- A line without the blanks in front. -/
def unindented (line : String) : List Char := line.toList.dropWhile (· = ' ')

/-- The line opens a local function. -/
def OpensLocal (line : String) : Prop := "local function ".toList <+: unindented line

/-- The line opens the entry of that name. -/
def OpensEntry (className name line : String) : Prop :=
  (className ++ "[" ++ Literal.string .script name ++ "] = function").toList <+: unindented line

/-- The line opens no function. -/
def Quiet (className line : String) : Prop :=
  ¬ OpensLocal line ∧ ∀ name, ¬ OpensEntry className name line

/-- Indentation is all that showing a line adds. -/
theorem unindented_shown (width : Nat) (l : Line) :
    unindented (l.shown width) = unindented l.text := by
  unfold Line.shown
  split
  · rename_i h
    rw [String.isEmpty_iff.mp h]
  · simp only [unindented, String.toList_append, String.toList_ofList]
    rw [List.dropWhile_append_of_pos]
    simp [List.mem_replicate]

/-- Indentation takes no part in whether a line is quiet. -/
theorem quiet_shown {className : String} {width : Nat} {l : Line} :
    Quiet className (l.shown width) ↔ Quiet className l.text := by
  simp only [Quiet, OpensLocal, OpensEntry, unindented_shown]

/-- A line that starts with no blank is what it is without indentation. -/
theorem unindented_of_head {line : String} {c : Char} (h : line.toList.head? = some c)
    (hc : c ≠ ' ') : unindented line = line.toList := by
  unfold unindented
  cases hl : line.toList with
  | nil => rfl
  | cons d r =>
    rw [hl] at h
    obtain rfl : d = c := Option.some.inj h
    rw [List.dropWhile_cons_of_neg (by simpa using hc)]

theorem head?_eq_of_isPrefix {a b : List Char} {c : Char} (ha : a.head? = some c) (h : a <+: b) :
    b.head? = some c := by
  obtain ⟨r, rfl⟩ := h
  rw [List.head?_append, ha]
  rfl

/-- A text begins with a character that no opening line begins with. -/
def startsQuiet (line : String) : Bool := line.toList.head?.any (· ∉ [' ', 'l', 'c'])

/-- Whether a line starts quietly is decided at its beginning. -/
theorem startsQuiet_append {a b : String} (h : startsQuiet a = true) :
    startsQuiet (a ++ b) = true := by
  unfold startsQuiet at h ⊢
  rw [String.toList_append, List.head?_append]
  cases ha : a.toList.head? with
  | none =>
    rw [ha] at h
    cases h
  | some c =>
    rw [ha] at h
    exact h

section Class

variable {className rest : String} (hclass : className = "cls_" ++ rest)

include hclass

theorem head?_entry (tail : String) : (className ++ tail).toList.head? = some 'c' := by
  rw [hclass, String.toList_append, String.toList_append]
  rfl

/-- Only a line that begins like the class opens an entry. -/
theorem not_opensEntry_of_head {name line : String} {c : Char} (h : line.toList.head? = some c)
    (hblank : c ≠ ' ') (hc : c ≠ 'c') : ¬ OpensEntry className name line := fun ho => by
  rw [OpensEntry, unindented_of_head h hblank, String.append_assoc, String.append_assoc] at ho
  have hhead := head?_eq_of_isPrefix (head?_entry hclass _) ho
  exact hc (Option.some.inj (h.symm.trans hhead))

theorem quiet_empty : Quiet className "" := by
  refine ⟨fun ho => absurd (List.prefix_nil.mp ho) (by decide), fun name ho => ?_⟩
  rw [OpensEntry, String.append_assoc, String.append_assoc] at ho
  have hhead := head?_entry hclass ("[" ++ (Literal.string .script name ++ "] = function"))
  rw [List.prefix_nil.mp ho] at hhead
  cases hhead

/-- A line that starts quietly opens no function. -/
theorem quiet_of_startsQuiet {line : String} (h : startsQuiet line = true) :
    Quiet className line := by
  unfold startsQuiet at h
  cases hhead : line.toList.head? with
  | none =>
    rw [hhead] at h
    cases h
  | some c =>
    rw [hhead] at h
    have hc : c ∉ [' ', 'l', 'c'] := of_decide_eq_true h
    simp only [List.mem_cons, List.not_mem_nil, or_false, not_or] at hc
    refine ⟨fun ho => ?_, fun name => not_opensEntry_of_head hclass hhead hc.1 hc.2.2⟩
    rw [OpensLocal, unindented_of_head hhead hc.1] at ho
    exact hc.2.1 (Option.some.inj (hhead.symm.trans (head?_eq_of_isPrefix rfl ho)))

/-- A text that begins with an `l` opens no function if it does not go on like a local one. -/
theorem quiet_of_head_l {line : String} (h : line.toList.head? = some 'l')
    (hlocal : ¬ "local function ".toList <+: line.toList) : Quiet className line := by
  refine ⟨fun ho => hlocal ?_, fun name => not_opensEntry_of_head hclass h (by decide) (by decide)⟩
  rwa [OpensLocal, unindented_of_head h (by decide)] at ho

/-- What begins with the mark of a local opens no function. -/
theorem quiet_mark_append (tail : String) : Quiet className ("l_" ++ tail) := by
  have hchars : ("l_" ++ tail).toList = 'l' :: '_' :: tail.toList := by
    rw [String.toList_append]
    rfl
  refine quiet_of_head_l hclass (by rw [hchars]; rfl) fun ho => ?_
  rw [hchars] at ho
  obtain ⟨r, hr⟩ := ho
  have hsecond : some 'o' = some '_' := congrArg (fun cs => cs[1]?) hr
  exact absurd hsecond (by decide)

/-- A declaration of something other than a function opens none. -/
theorem quiet_declaration {tail : String} (h : tail.toList.head? ≠ some 'f') :
    Quiet className ("local " ++ tail) := by
  have hchars : ("local " ++ tail).toList = "local ".toList ++ tail.toList :=
    String.toList_append
  refine quiet_of_head_l hclass (by rw [hchars]; rfl) fun ho => h ?_
  rw [hchars] at ho
  obtain ⟨r, hr⟩ := ho
  have hsplit : "local ".toList ++ ("function ".toList ++ r) = "local ".toList ++ tail.toList := hr
  rw [← List.append_cancel_left hsplit]
  rfl

/-- A line that begins with the class opens no local function. -/
theorem not_opensLocal_class (tail : String) : ¬ OpensLocal (className ++ tail) := fun ho => by
  have hhead := head?_entry hclass tail
  rw [OpensLocal, unindented_of_head hhead (by decide)] at ho
  have hl : some 'l' = some 'c' := (head?_eq_of_isPrefix rfl ho).symm.trans hhead
  exact absurd hl (by decide)

/-- A line that begins with the class opens an entry only with its name in brackets. -/
theorem opensEntry_class {name tail : String} (ho : OpensEntry className name (className ++ tail)) :
    ∃ r, tail = "[" ++ (Literal.string .script name ++ ("] = function" ++ r)) := by
  rw [OpensEntry, unindented_of_head (head?_entry hclass tail) (by decide)] at ho
  obtain ⟨r, hr⟩ := ho
  refine ⟨String.ofList r, (String.append_right_inj className).mp (String.toList_inj.mp ?_)⟩
  rw [← hr]
  simp only [String.toList_append, String.toList_ofList, List.append_assoc]

theorem quiet_class_append {tail : String} (h : tail.toList.head? ≠ some '[') :
    Quiet className (className ++ tail) := by
  refine ⟨not_opensLocal_class hclass tail, fun name ho => h ?_⟩
  obtain ⟨r, hr⟩ := opensEntry_class hclass ho
  rw [hr, String.toList_append]
  rfl

/-- **An entry that is called is not opened**: after its name the call goes on differently. -/
theorem quiet_entryCall (name tail : String) :
    Quiet className
      (className ++ ("[" ++ (Literal.string .script name ++ ("]" ++ ("(" ++ tail))))) := by
  refine ⟨not_opensLocal_class hclass _, fun other ho => ?_⟩
  obtain ⟨r, hr⟩ := opensEntry_class hclass ho
  obtain ⟨_, htail⟩ := Literal.string_append_inj .script ((String.append_right_inj "[").mp hr)
  have hchars : ']' :: '(' :: tail.toList = ']' :: ' ' :: ("= function".toList ++ r.toList) := by
    have htoList := congrArg String.toList htail
    rwa [String.toList_append, String.toList_append, String.toList_append] at htoList
  exact absurd (List.cons.inj (List.cons.inj hchars).2).1 (by decide)

end Class

/-! ## Bodies -/

/-- The lines, counted from one, on which script text stands that was taken over; `n` is the first
line of the statement. -/
def verbatimLines (n : Nat) : StatementKind → List Nat
  | .script source =>
    (List.range (Text.lines source).length).map fun i =>
      n + (if (Text.trim source).isEmpty then 1 else 0) + i
  | _ => []

/-- The lines on which a statement takes script text over. -/
def Site.verbatim (s : Site) : List Nat := verbatimLines s.line s.statement.kind

/-- Of texts numbered from `n` on, those with other numbers than `but` open no function. -/
def QuietBut (className : String) (but : List Nat) (n : Nat) (texts : List String) : Prop :=
  ∀ e ∈ texts.zipIdx n, e.2 ∈ but ∨ Quiet className e.1

section QuietBut

variable {className : String} {but : List Nat} {n : Nat} {t : String} {texts more : List String}

theorem quietBut_nil : QuietBut className but n [] := List.forall_mem_nil _

/-- Lines are quiet but for some if both their parts are. -/
theorem quietBut_append : QuietBut className but n (texts ++ more) ↔
    QuietBut className but n texts ∧ QuietBut className but (n + texts.length) more := by
  rw [QuietBut, List.zipIdx_append]
  exact List.forall_mem_append

theorem quietBut_cons (ht : Quiet className t) (h : QuietBut className but (n + 1) texts) :
    QuietBut className but n (t :: texts) := by
  rw [QuietBut, List.zipIdx_cons]
  exact List.forall_mem_cons.mpr ⟨Or.inr ht, h⟩

/-- A line that is excepted may be anything. -/
theorem quietBut_cons_of_mem (hn : n ∈ but) (h : QuietBut className but (n + 1) texts) :
    QuietBut className but n (t :: texts) := by
  rw [QuietBut, List.zipIdx_cons]
  exact List.forall_mem_cons.mpr ⟨Or.inl hn, h⟩

theorem quietBut_singleton (ht : Quiet className t) : QuietBut className but n [t] :=
  quietBut_cons ht quietBut_nil

/-- Exceptions may be added. -/
theorem QuietBut.mono {but' : List Nat} (h : QuietBut className but n texts)
    (hsub : ∀ x ∈ but, x ∈ but') : QuietBut className but' n texts := fun e he =>
  (h e he).imp_left (hsub e.2)

/-- Quiet lines are quiet as they are shown. -/
theorem quietBut_shown {width : Nat} {ls : List Line} :
    QuietBut className but n (ls.map (·.text)) ↔
      QuietBut className but n (ls.map (Line.shown width)) := by
  simp only [QuietBut, List.zipIdx_map, List.forall_mem_map, Prod.map_fst, Prod.map_snd,
    quiet_shown]

/-- Lines that are all quiet are quiet but for any. -/
theorem quietBut_of_forall (h : ∀ t ∈ texts, Quiet className t) :
    QuietBut className but n texts := fun e he => Or.inr (h e.1 (List.fst_mem_of_mem_zipIdx he))

end QuietBut

/-- The identifiers that a body can use carry their marks. -/
structure Context.Marked (c : Context) : Prop where
  className : ∃ r, c.names.className = "cls_" ++ r
  localName : ∀ i, localName c.locals i = "_" ∨ ∃ r, localName c.locals i = "l_" ++ r
  function : ∀ id own, c.names.function? id = some own → startsQuiet own.name = true

section Bodies

variable {c : Context} (hc : c.Marked)

include hc

/-- In a chunk, what starts quietly is quiet for its class. -/
theorem Context.Marked.quiet {line : String} (h : startsQuiet line = true) :
    Quiet c.names.className line := by
  obtain ⟨r, hr⟩ := hc.className
  exact quiet_of_startsQuiet hr h

/-- What begins with a local variable is quiet. -/
theorem quiet_localName_append (i : UInt16) (tail : String) :
    Quiet c.names.className (localName c.locals i ++ tail) := by
  obtain ⟨r, hr⟩ := hc.className
  rcases hc.localName i with hi | ⟨x, hx⟩
  · rw [hi]
    exact hc.quiet (startsQuiet_append (by decide))
  · rw [hx, String.append_assoc]
    exact quiet_mark_append hr _

theorem quiet_calleeCall (id : FunctionId) (tail : String) :
    Quiet c.names.className (callee c.model c.names id ++ "(" ++ tail) := by
  obtain ⟨r, hr⟩ := hc.className
  have hinternal :
      startsQuiet (((c.names.function? id).map (·.name)).getD "fn_unknown") = true := by
    cases h : c.names.function? id with
    | none => decide
    | some own => exact hc.function id own h
  have hquiet : Quiet c.names.className
      (((c.names.function? id).map (·.name)).getD "fn_unknown" ++ "(" ++ tail) :=
    hc.quiet (startsQuiet_append (startsQuiet_append hinternal))
  cases hf : c.model.functionAt? id with
  | none =>
    simp only [callee, hf]
    exact hquiet
  | some f =>
    cases hkind : f.kind with
    | internal =>
      simp only [callee, hf, hkind]
      exact hquiet
    | entry =>
      simp only [callee, hf, hkind, String.append_assoc]
      exact quiet_entryCall hr f.name tail

omit hc in
/-- A list begins with its first item. -/
theorem exists_commaList_cons (s : String) : ∀ items : List String,
    ∃ r, commaList (s :: items) = s ++ r
  | [] => ⟨"", by simp [commaList]⟩
  | t :: items => ⟨", " ++ ", ".intercalate (t :: items), by
      rw [commaList, String.intercalate_cons_cons, String.append_assoc]⟩

/-- Assigning is quiet if what is assigned is. -/
theorem quiet_assign (results : List UInt16) {call : String} (h : Quiet c.names.className call) :
    Quiet c.names.className (assign c.locals results call) := by
  cases results with
  | nil => exact h
  | cons i results =>
    obtain ⟨r, hr⟩ :=
      exists_commaList_cons (localName c.locals i) (results.map (localName c.locals))
    simp only [assign, List.isEmpty_cons, Bool.false_eq_true, if_false, List.map_cons, hr,
      String.append_assoc]
    exact quiet_localName_append hc i _

theorem quiet_call (id : FunctionId) (args : List Expr) (results : List UInt16) :
    Quiet c.names.className (assign c.locals results (callee c.model c.names id ++ "(" ++
      commaList ("self" :: args.map (expr c.names c.locals)) ++ ")")) := by
  refine quiet_assign hc results ?_
  rw [String.append_assoc]
  exact quiet_calleeCall hc id _

/-- Firings are quiet. -/
theorem quiet_fire (out : String) (args : List Expr) (results : List UInt16) :
    Quiet c.names.className (assign c.locals results ("__sc_execution_out(" ++
      commaList ("self.executionState" :: Literal.string .script out ::
        args.map (expr c.names c.locals)) ++ ")")) :=
  quiet_assign hc results (hc.quiet (startsQuiet_append (startsQuiet_append (by decide))))

theorem quiet_ret (isLast : Bool) (values : List Expr) :
    Quiet c.names.className
      (let text := match values with
        | [] => "return"
        | values => "return " ++ commaList (values.map (expr c.names c.locals))
      if isLast then text else "do " ++ text ++ " end") := by
  refine hc.quiet ?_
  dsimp only
  split
  · split
    · decide
    · exact startsQuiet_append (by decide)
  · exact startsQuiet_append (startsQuiet_append (by decide))

end Bodies

/-- Script text is not quiet, and its lines are excepted. -/
theorem quietBut_script (c : Context) (hc : c.Marked) (n level : Nat) (isLast : Bool)
    (symbol : DebugSymbol) (source : String) :
    QuietBut c.names.className (verbatimLines n (.script source)) n
      ((kindLines c level isLast symbol (.script source)).map (·.text)) := by
  have hsource : ∀ k, QuietBut c.names.className
      ((List.range (Text.lines source).length).map fun i => k + i) k
      (((Text.lines source).map fun l => (⟨level, l, some symbol⟩ : Line)).map (·.text)) := by
    intro k e he
    obtain ⟨hle, hlt, _⟩ := List.mem_zipIdx he
    simp only [List.length_map] at hlt
    exact Or.inl (List.mem_map.mpr ⟨e.2 - k, List.mem_range.mpr (by omega), by omega⟩)
  rw [kindLines, verbatimLines, List.map_append]
  cases hblank : (Text.trim source).isEmpty with
  | true =>
    have hcomment : startsQuiet "-- empty script block" = true := by decide
    exact quietBut_cons (hc.quiet hcomment) (hsource (n + 1))
  | false => exact hsource n

mutual

/-- **The lines of a statement are quiet but for script text** inside. -/
theorem quietBut_statement {c : Context} (hc : c.Marked) (n level : Nat) (isLast : Bool) :
    ∀ s : Statement, QuietBut c.names.className
      ((sites c.nodeComments n level isLast s).flatMap Site.verbatim) n
      ((statement c level isLast s).map (·.text))
  | .mk origin slot kind => by
      have hkind := quietBut_kindLines hc (n + c.nodeComments.toNat) level isLast
        ⟨origin, slot, c.function⟩ kind
      rw [statement, List.map_append, Line.map_text_mark, sites, List.flatMap_cons]
      refine quietBut_append.mpr ⟨?_, ?_⟩
      · cases c.nodeComments with
        | false => exact quietBut_nil
        | true => exact quietBut_singleton (hc.quiet (startsQuiet_append (by decide)))
      · have hlen : ((if c.nodeComments then [(⟨level, s!"-- node {origin}", none⟩ : Line)]
            else []).map (·.text)).length = c.nodeComments.toNat := by
          cases c.nodeComments
          · rfl
          · rfl
        rw [hlen]
        exact hkind

theorem quietBut_kindLines {c : Context} (hc : c.Marked) (n level : Nat) (isLast : Bool)
    (symbol : DebugSymbol) : ∀ k : StatementKind, QuietBut c.names.className
      (verbatimLines n k ++ (innerSites c.nodeComments n level k).flatMap Site.verbatim) n
      ((kindLines c level isLast symbol k).map (·.text))
  | .setMember v e => quietBut_singleton
      (hc.quiet (startsQuiet_append (startsQuiet_append (startsQuiet_append (by decide)))))
  | .setLocal i e => quietBut_singleton (by
      rw [String.append_assoc]
      exact quiet_localName_append hc i _)
  | .cond e t [] => by
      simp only [kindLines, List.map_append, List.map_cons, List.cons_append]
      refine quietBut_cons (hc.quiet (startsQuiet_append (startsQuiet_append (by decide)))) ?_
      exact quietBut_append.mpr ⟨quietBut_block hc (n + 1) (level + 1) t,
        quietBut_singleton (hc.quiet (by decide))⟩
  | .cond e t (s :: r) => by
      have hthen := quietBut_block hc (n + 1) (level + 1) t
      have helse :=
        quietBut_block hc (n + 1 + blockHeight c.nodeComments t + 1) (level + 1) (s :: r)
      simp only [kindLines, innerSites, List.map_append, List.map_cons, List.cons_append,
        List.flatMap_append]
      refine quietBut_cons (hc.quiet (startsQuiet_append (startsQuiet_append (by decide)))) ?_
      refine quietBut_append.mpr ⟨quietBut_append.mpr ⟨?_, quietBut_cons (hc.quiet (by decide)) ?_⟩,
        quietBut_singleton (hc.quiet (by decide))⟩
      · exact hthen.mono fun _ h => List.mem_append_right _ (List.mem_append_left _ h)
      · rw [List.length_map, length_block]
        exact helse.mono fun _ h => List.mem_append_right _ (List.mem_append_right _ h)
  | .loop e b => by
      simp only [kindLines, List.map_append, List.map_cons, List.cons_append]
      refine quietBut_cons (hc.quiet (startsQuiet_append (startsQuiet_append (by decide)))) ?_
      exact quietBut_append.mpr ⟨quietBut_block hc (n + 1) (level + 1) b,
        quietBut_singleton (hc.quiet (by decide))⟩
  | .call id args results => quietBut_singleton (quiet_call hc id args results)
  | .fire out args results => quietBut_singleton (quiet_fire hc out args results)
  | .log e => quietBut_singleton (hc.quiet (startsQuiet_append (startsQuiet_append (by decide))))
  | .ret values => quietBut_singleton (quiet_ret hc isLast values)
  | .script source => (quietBut_script c hc n level isLast symbol source).mono fun _ h =>
      List.mem_append_left _ h

/-- **A block opens no function**, apart from script text that it takes over. -/
theorem quietBut_block {c : Context} (hc : c.Marked) (n level : Nat) :
    ∀ body : List Statement, QuietBut c.names.className
      ((blockSites c.nodeComments n level body).flatMap Site.verbatim) n
      ((block c level body).map (·.text))
  | [] => quietBut_nil
  | s :: r => by
      have hrest := quietBut_block hc (n + height c.nodeComments s) level r
      rw [block, List.map_append, blockSites, List.flatMap_append]
      refine quietBut_append.mpr ⟨(quietBut_statement hc n level r.isEmpty s).mono fun _ h =>
        List.mem_append_left _ h, ?_⟩
      rw [List.length_map, length_statement]
      exact hrest.mono fun _ h => List.mem_append_right _ h

end

/-! ## Chunks -/

/-- A function that the model has is written with the marks of its kind. -/
theorem marked_of_function? {m : Model} {id : FunctionId} {own : Names.Function}
    (h : (Names.ofModel m).function? id = some own) (comments : Bool) (function : String) :
    Context.Marked ⟨m, Names.ofModel m, comments, function, own⟩ where
  className := Names.exists_className m
  localName i := by
    obtain ⟨f, _, _, heq, _⟩ := Names.exists_of_function? h
    rw [localName, List.getD_eq_getElem?_getD]
    cases hi : own.locals[i.toNat]? with
    | none => exact Or.inl rfl
    | some l => exact Or.inr (Names.exists_of_mem_locals (heq ▸ List.mem_of_getElem? hi))
  function id own h := by
    obtain ⟨k, r, hr⟩ := Names.exists_functionName h
    rw [hr]
    cases k
    · exact startsQuiet_append (by decide)
    · exact startsQuiet_append (by decide)

/-- The lines on which functions take script text over. -/
def verbatim (comments : Bool) (ps : List Place) : List Nat :=
  ps.flatMap fun p => (p.sites comments).flatMap Site.verbatim

/-- **The lines of a function are quiet but for its header** and script text. -/
theorem quietBut_function {m : Model} {o : Options} {f : FunctionDef}
    (hf : Known (Names.ofModel m) f) (n : Nat) :
    QuietBut (Names.ofModel m).className
      (n :: (Place.sites o.nodeComments ⟨n, f⟩).flatMap Site.verbatim) n
      ((function m (Names.ofModel m) o f).map (·.text)) := by
  obtain ⟨own, hown, hlen⟩ := hf
  obtain ⟨r, hr⟩ := Names.exists_className m
  have hc := marked_of_function? hown o.nodeComments f.name
  have hlocals : ∀ t ∈ ((f.locals.zip own.locals).map fun e =>
      (⟨1, "local " ++ e.2 ++ " = " ++ initial e.1.dataType, none⟩ : Line)).map (·.text),
      Quiet (Names.ofModel m).className t := by
    obtain ⟨g, _, _, heq, _⟩ := Names.exists_of_function? hown
    rw [List.map_map]
    refine List.forall_mem_map.mpr fun e he => ?_
    obtain ⟨x, hx⟩ := Names.exists_of_mem_locals (heq ▸ (List.of_mem_zip he).2)
    simp only [Function.comp_apply, hx, String.append_assoc]
    refine quiet_declaration hr ?_
    rw [String.toList_append]
    exact fun h => absurd (Option.some.inj h) (by decide)
  have hbody := quietBut_block hc (n + 1 + f.locals.length) 1 f.body
  have hend : ∀ t ∈ ["end", ""], Quiet (Names.ofModel m).className t :=
    List.forall_mem_cons.mpr ⟨hc.quiet (by decide), List.forall_mem_singleton.mpr (quiet_empty hr)⟩
  simp only [function, hown, List.map_append, List.map_cons, List.cons_append]
  refine quietBut_cons_of_mem List.mem_cons_self ?_
  refine quietBut_append.mpr ⟨quietBut_append.mpr ⟨quietBut_of_forall hlocals, ?_⟩,
    quietBut_of_forall hend⟩
  rw [List.length_map, List.length_map, List.length_zip, hlen, Nat.min_self]
  exact hbody.mono fun _ h => List.mem_cons_of_mem _ h

/-- The lines of functions in turn are quiet but for headers and script text. -/
theorem quietBut_stack {m : Model} {o : Options} : ∀ {fs : List FunctionDef} (n : Nat),
    (∀ f ∈ fs, Known (Names.ofModel m) f) →
      QuietBut (Names.ofModel m).className
        ((stack o.nodeComments n fs).map (·.line) ++
          verbatim o.nodeComments (stack o.nodeComments n fs)) n
        ((fs.flatMap (function m (Names.ofModel m) o)).map (·.text))
  | [], _, _ => quietBut_nil
  | f :: fs, n, h => by
      have hf := h f List.mem_cons_self
      have hrest := quietBut_stack (o := o) (n + functionHeight o.nodeComments f) fun x hx =>
        h x (List.mem_cons_of_mem _ hx)
      rw [List.flatMap_cons, List.map_append, stack, verbatim, List.flatMap_cons, List.map_cons]
      refine quietBut_append.mpr ⟨(quietBut_function hf n).mono fun x hx => ?_, ?_⟩
      · rcases List.mem_cons.mp hx with rfl | hx
        · exact List.mem_cons_self
        · exact List.mem_append_right _ (List.mem_append_left _ hx)
      · rw [List.length_map, length_function hf]
        refine hrest.mono fun x hx => ?_
        rcases List.mem_append.mp hx with hx | hx
        · exact List.mem_append_left _ (List.mem_cons_of_mem _ hx)
        · exact List.mem_append_right _ (List.mem_append_right _ hx)

/-- The constructor is quiet. -/
theorem quiet_constructor (m : Model) : ∀ t ∈ (constructor m (Names.ofModel m)).map (·.text),
    Quiet (Names.ofModel m).className t := by
  obtain ⟨r, hr⟩ := Names.exists_className m
  have hquiet : ∀ {t : String}, startsQuiet t = true → Quiet (Names.ofModel m).className t :=
    quiet_of_startsQuiet hr
  have hself : Quiet (Names.ofModel m).className
      ("local self = setmetatable(\x7b\x7d, " ++ (Names.ofModel m).className ++ ")") := by
    have hwords : "local self = setmetatable(\x7b\x7d, " =
        "local " ++ "self = setmetatable(\x7b\x7d, " := by decide
    rw [hwords, String.append_assoc, String.append_assoc]
    refine quiet_declaration hr ?_
    rw [String.toList_append]
    exact fun h => absurd (Option.some.inj h) (by decide)
  have hmember : ∀ t ∈ (m.members.map (memberLine (Names.ofModel m))).map (·.text),
      Quiet (Names.ofModel m).className t := by
    rw [List.map_map]
    exact List.forall_mem_map.mpr fun v _ => hquiet (startsQuiet_append
      (startsQuiet_append (startsQuiet_append (startsQuiet_append (by decide)))))
  rw [constructor, List.map_append, List.map_append]
  refine List.forall_mem_append.mpr ⟨List.forall_mem_append.mpr ⟨?_, hmember⟩, ?_⟩
  · exact List.forall_mem_cons.mpr ⟨hquiet (startsQuiet_append (startsQuiet_append (by decide))),
      List.forall_mem_cons.mpr ⟨hself, List.forall_mem_singleton.mpr (hquiet (by decide))⟩⟩
  · exact List.forall_mem_cons.mpr ⟨hquiet (by decide), List.forall_mem_cons.mpr
      ⟨hquiet (by decide), List.forall_mem_singleton.mpr (quiet_empty hr)⟩⟩

/-- The lines that open the chunk are quiet. -/
theorem quiet_opening (m : Model) : ∀ t ∈ (opening m (Names.ofModel m)).tail.map (·.text),
    Quiet (Names.ofModel m).className t := by
  obtain ⟨r, hr⟩ := Names.exists_className m
  have hhead : ∀ tail, ((Names.ofModel m).className ++ tail).toList.head? = some 'c' :=
    head?_entry hr
  refine List.forall_mem_cons.mpr ⟨?_, List.forall_mem_cons.mpr
    ⟨?_, List.forall_mem_singleton.mpr (quiet_empty hr)⟩⟩
  · rw [String.append_assoc]
    exact quiet_declaration hr fun h =>
      absurd (Option.some.inj ((hhead _).symm.trans h)) (by decide)
  · rw [String.append_assoc]
    refine quiet_class_append hr ?_
    rw [String.toList_append]
    exact fun h => absurd (Option.some.inj h) (by decide)

/-- **Below the first line of a chunk only headers open a function**, apart from script text that is
taken over. -/
theorem quietBut_rest {m : Model} {o : Options} {order : List FunctionId}
    (hi : ∀ f ∈ internals m order, Known (Names.ofModel m) f)
    (he : ∀ f ∈ entries m, Known (Names.ofModel m) f) (n : Nat) :
    QuietBut (Names.ofModel m).className
      ((places o.nodeComments m order (n + 3)).map (·.line) ++
        verbatim o.nodeComments (places o.nodeComments m order (n + 3))) n
      ((rest m o order).map (·.text)) := by
  obtain ⟨r, hr⟩ := Names.exists_className m
  have hreturn : Quiet (Names.ofModel m).className ("return " ++ (Names.ofModel m).className) :=
    quiet_of_startsQuiet hr (startsQuiet_append (by decide))
  have hinternals := quietBut_stack (o := o) (n + 3) hi
  have hentries := quietBut_stack (o := o)
    (n + 3 + stackHeight o.nodeComments (internals m order) + (m.members.length + 6)) he
  rw [rest, List.map_append, List.map_append, places, List.map_append, verbatim,
    List.flatMap_append]
  refine quietBut_append.mpr ⟨quietBut_append.mpr ⟨?_, ?_⟩, quietBut_singleton hreturn⟩
  · rw [List.map_append, List.map_append]
    refine quietBut_append.mpr ⟨quietBut_append.mpr ⟨quietBut_of_forall (quiet_opening m), ?_⟩,
      quietBut_of_forall (quiet_constructor m)⟩
    refine hinternals.mono fun x hx => ?_
    rcases List.mem_append.mp hx with hx | hx
    · exact List.mem_append_left _ (List.mem_append_left _ hx)
    · exact List.mem_append_right _ (List.mem_append_left _ hx)
  · rw [List.length_map, add_length_above_entries hi]
    refine hentries.mono fun x hx => ?_
    rcases List.mem_append.mp hx with hx | hx
    · exact List.mem_append_left _ (List.mem_append_right _ hx)
    · exact List.mem_append_right _ (List.mem_append_right _ hx)

/-! ## Headers -/

/-- A header opens a local function exactly if the function is no entry. -/
theorem opensLocal_header {names : Names} {r : String} (hr : names.className = "cls_" ++ r)
    (f : FunctionDef) (own : Names.Function) :
    OpensLocal (header names f own) ↔ f.kind = .internal := by
  cases hkind : f.kind with
  | internal =>
    have hchars : (header names f own).toList = "local function ".toList ++
        (own.name ++ "(" ++ commaList ("self" :: own.params) ++ ")").toList := by
      simp only [header, hkind, String.toList_append, List.append_assoc]
    have hhead : (header names f own).toList.head? = some 'l' := by
      rw [hchars]
      rfl
    rw [OpensLocal, unindented_of_head hhead (by decide), hchars]
    exact ⟨fun _ => rfl, fun _ => List.prefix_append _ _⟩
  | entry =>
    simp only [header, hkind, String.append_assoc, reduceCtorEq, iff_false]
    exact not_opensLocal_class hr _

/-- A header opens an entry exactly if it is that of the entry. -/
theorem opensEntry_header {names : Names} {r : String} (hr : names.className = "cls_" ++ r)
    (f : FunctionDef) (own : Names.Function) (name : String) :
    OpensEntry names.className name (header names f own) ↔ f.kind = .entry ∧ f.name = name := by
  cases hkind : f.kind with
  | internal =>
    simp only [header, hkind, String.append_assoc, reduceCtorEq, false_and, iff_false]
    refine not_opensEntry_of_head hr ?_ (by decide) (by decide : 'l' ≠ 'c')
    rw [String.toList_append]
    rfl
  | entry =>
    have htext : header names f own = names.className ++ ("[" ++ (Literal.string .script f.name ++
        ("] = function" ++ ("(" ++ (commaList ("self" :: own.params) ++ ")"))))) := by
      have hwords : "] = function(" = "] = function" ++ "(" := by decide
      simp only [header, hkind, hwords, String.append_assoc]
    rw [htext]
    constructor
    · intro ho
      obtain ⟨x, hx⟩ := opensEntry_class hr ho
      exact ⟨rfl, (Literal.string_append_inj .script ((String.append_right_inj "[").mp hx)).1⟩
    · rintro ⟨_, rfl⟩
      rw [OpensEntry, unindented_of_head (head?_entry hr _) (by decide)]
      refine ⟨("(" ++ (commaList ("self" :: own.params) ++ ")")).toList, ?_⟩
      simp only [String.toList_append, List.append_assoc]

end GraphScript.Emit.Script
