import GraphScript.Proofs.Emit.SourceLines
import GraphScript.Proofs.WellFormed

/-!
# Proofs/Emit/Results — where results go in native source

A body calls a function or the handler of an out-event, and may assign the results to locals: to one
by its name, to several as a tuple.  What is called declares its results in the same three ways, as
`void`, as a type or as a tuple of types.  `Assignment.ofLine?` and `Shape.ofType` read both off the
text, and each has the shape of the count it was written for (`exists_line`, `shape_returnType`).

A valid model may assign fewer results than there are.  The assignment then has another shape than
what it is assigned from, and the two agree exactly if all results are assigned
(`results_fit_iff`).
-/

namespace GraphScript

/-! ## Invocations -/

/-- A call of a function, or of whoever handles an out-event. -/
structure Invocation where
  target : Reference
  args : List Expr
  results : List UInt16

/-- The invocation that a statement is. -/
def StatementKind.invocation? : StatementKind → Option Invocation
  | .call id args results => some ⟨.function id, args, results⟩
  | .fire out args results => some ⟨.out out, args, results⟩
  | .setMember _ _ | .setLocal _ _ | .cond _ _ _ | .loop _ _ | .log _ | .ret _ | .script _ => none

/-- The two kinds of invocations. -/
theorem StatementKind.invocation?_cases {k : StatementKind} {i : Invocation}
    (h : k.invocation? = some i) :
    (∃ id, k = .call id i.args i.results ∧ i.target = .function id) ∨
      ∃ out, k = .fire out i.args i.results ∧ i.target = .out out := by
  cases k with
  | call id args results =>
    obtain rfl := Option.some.inj h
    exact .inl ⟨id, rfl, rfl⟩
  | fire out args results =>
    obtain rfl := Option.some.inj h
    exact .inr ⟨out, rfl, rfl⟩
  | setMember | setLocal | cond | loop | log | ret | script => cases h

/-- An invocation makes the demands of a call. -/
theorem StatementKind.demands_of_invocation? {k : StatementKind} {i : Invocation}
    (h : k.invocation? = some i) : k.demands = callDemands i.target i.args i.results := by
  obtain ⟨id, rfl, htarget⟩ | ⟨out, rfl, htarget⟩ := invocation?_cases h
  · rw [htarget, demands]
  · rw [htarget, demands]

/-- **In a valid model an invocation has a signature**, and assigns no more results than it has. -/
theorem Model.Valid.exists_signature {m : Model} (hv : m.Valid) {f : FunctionDef}
    (hf : f ∈ m.functions) {s : Statement} (hs : s.Within f.body) {i : Invocation}
    (hi : s.kind.invocation? = some i) :
    ∃ g, m.signature? i.target = some g ∧ i.results.length ≤ g.returns.length := by
  have hmet := statementProblems_eq_nil.mp (hv.statements f hf s hs.mem_walkAll)
  rw [StatementKind.demands_of_invocation? hi] at hmet
  have hdeclared : i.target.Declared m f :=
    hmet (.declared i.target) (List.mem_append_right _ List.mem_cons_self)
  have hcount : ∀ g ∈ m.signature? i.target, i.results.length ≤ g.returns.length :=
    hmet (.results i.target i.results.length) (List.mem_append_right _ (by
      simp [StatementKind.targetDemands]))
  have hsome : ∃ g, m.signature? i.target = some g := by
    obtain ⟨id, -, htarget⟩ | ⟨out, -, htarget⟩ := StatementKind.invocation?_cases hi
    · rw [htarget] at hdeclared ⊢
      obtain ⟨g, hg⟩ := Option.isSome_iff_exists.mp hdeclared
      exact ⟨_, congrArg (Option.map _) hg⟩
    · rw [htarget] at hdeclared ⊢
      obtain ⟨d, hd⟩ := Option.isSome_iff_exists.mp hdeclared
      exact ⟨_, congrArg (Option.map _) hd⟩
  obtain ⟨g, hg⟩ := hsome
  exact ⟨g, hg, hcount g hg⟩

namespace Emit.Native

open Header (inWord inWord_of_mem notMem_type bare_returnType)
open Source (Context kindLines block assign expr inner_kindLines
  tidy_of_function? plain_methodName exists_body)
open Text (OneLine oneLine_append)

/-! ## Shapes -/

/-- What is handed over: nothing, one value, or a tuple of so many. -/
inductive Shape where
  | nothing
  | single
  | tuple (count : Nat)
  deriving DecidableEq

namespace Shape

/-- The shape of so many values. -/
def ofCount : Nat → Shape
  | 0 => .nothing
  | 1 => .single
  | n + 2 => .tuple (n + 2)

/-- Shapes tell numbers of results apart. -/
theorem ofCount_inj {k n : Nat} : ofCount k = ofCount n ↔ k = n := by
  refine ⟨fun h => ?_, congrArg ofCount⟩
  unfold ofCount at h
  split at h <;> split at h <;> simp_all

/-- The shape of the values of a type: a comma stands between the types of a tuple. -/
def ofType (type : String) : Shape :=
  if type = "void" then .nothing
  else if "std::tuple<".toList.isPrefixOf type.toList then .tuple (type.toList.count ',' + 1)
  else .single

/-- The shape of what a callback of this type gives, which stands before its parameters. -/
def ofCallback (type : String) : Shape :=
  ofType (String.ofList ((type.toList.drop "std::function<".length).takeWhile (· ≠ '(')))

end Shape

/-- Commas separate items that have none. -/
theorem count_commaList : ∀ {items : List String}, (∀ s ∈ items, ',' ∉ s.toList) → items ≠ [] →
    (", ".intercalate items).toList.count ',' + 1 = items.length
  | [], _, hne => absurd rfl hne
  | [s], h, _ => by
      have hs : s.toList.count ',' = 0 := List.count_eq_zero.mpr (h s List.mem_cons_self)
      simpa using hs
  | s :: t :: items, h, _ => by
      have hs : s.toList.count ',' = 0 := List.count_eq_zero.mpr (h s List.mem_cons_self)
      have hsep : ", ".toList.count ',' = 1 := by decide
      have ih := count_commaList (fun x hx => h x (List.mem_cons_of_mem _ hx))
        (List.cons_ne_nil t items)
      rw [String.intercalate_cons_cons, String.toList_append, String.toList_append,
        List.count_append, List.count_append, hs, hsep, List.length_cons, ← ih]
      omega

/-- A list of types has one comma less than types. -/
theorem count_types {ps : List Param} (hne : ps ≠ []) :
    (types ps).toList.count ',' + 1 = ps.length := by
  have hnone : ∀ s ∈ ps.map fun p => type p.dataType, ',' ∉ s.toList := by
    intro s hs
    obtain ⟨p, _, rfl⟩ := List.mem_map.mp hs
    exact notMem_type rfl p.dataType
  have hcount := count_commaList hnone (mt List.map_eq_nil_iff.mp hne)
  rwa [List.length_map, ← types] at hcount

namespace Shape

/-- What begins like a class of the runtime is neither `void` nor a tuple. -/
theorem ofType_of_begins {type : String} (h : Begins (· = 'c') type) : ofType type = .single := by
  obtain ⟨_, rest, hchars, rfl⟩ := h
  have hvoid : type ≠ "void" := fun heq => by
    rw [heq] at hchars
    exact absurd (List.cons.inj hchars).1 (by decide)
  have htuple : "std::tuple<".toList.isPrefixOf type.toList = false := by
    rw [hchars]
    rfl
  rw [ofType, if_neg hvoid, htuple]
  rfl

/-- The type of a datum is single. -/
theorem ofType_type : ∀ t : DataType, ofType (type t) = .single
  | .boolean | .number | .string | .entityId => by decide
  | .object className => by
      have hhandle : Begins (· = 'c') "canvasc::ObjectHandle /* " :=
        ⟨'c', "anvasc::ObjectHandle /* ".toList, rfl, rfl⟩
      exact ofType_of_begins ((hhandle.append (cleanName className)).append " */")

/-- A tuple has as many parts as types between its commas. -/
theorem ofType_tuple (types : String) :
    ofType ("std::tuple<" ++ types ++ ">") = .tuple (types.toList.count ',' + 1) := by
  have htext : ("std::tuple<" ++ types ++ ">").toList =
      "std::tuple<".toList ++ (types.toList ++ ">".toList) := by simp
  have hvoid : "std::tuple<" ++ types ++ ">" ≠ "void" := fun h => by
    rw [h] at htext
    exact absurd (List.cons.inj htext).1 (by decide)
  have htuple : "std::tuple<".toList.isPrefixOf ("std::tuple<" ++ types ++ ">").toList = true := by
    rw [htext, List.isPrefixOf_iff_prefix]
    exact List.prefix_append _ _
  have hfront : "std::tuple<".toList.count ',' = 0 := by decide
  have hback : ">".toList.count ',' = 0 := by decide
  rw [ofType, if_neg hvoid, if_pos htuple, htext, List.count_append, List.count_append, hfront,
    hback, Nat.zero_add, Nat.add_zero]

end Shape

/-- **The type of results has their shape.** -/
theorem shape_returnType : ∀ ps : List Param,
    Shape.ofType (returnType ps) = Shape.ofCount ps.length
  | [] => by decide
  | [p] => Shape.ofType_type p.dataType
  | p :: q :: ps => by
      have htuple := Shape.ofType_tuple (types (p :: q :: ps))
      rw [count_types (List.cons_ne_nil _ _)] at htuple
      exact htuple

/-- The type of a callback has the shape of its results. -/
theorem shape_outType (params returns : List Param) :
    Shape.ofCallback (outType params returns) = Shape.ofCount returns.length := by
  have htext : (outType params returns).toList = "std::function<".toList ++
      ((returnType returns).toList ++ '(' :: ((types params).toList ++ ")>".toList)) := by
    have houtType : outType params returns =
        "std::function<" ++ returnType returns ++ "(" ++ types params ++ ")>" := rfl
    simp [houtType]
  rw [Shape.ofCallback, htext, ← String.length_toList, List.drop_left,
    (Text.takeWhile_mark (bare_returnType returns).2 _).1, String.ofList_toList]
  exact shape_returnType returns

/-! ## Reading an assignment -/

/-- The word that a text begins with. -/
def firstWord (cs : List Char) : String := String.ofList (cs.takeWhile inWord)

/-- What a line assigns to, and what it calls for that. -/
structure Assignment where
  targets : Shape
  callee : String
  deriving DecidableEq

namespace Assignment

/-- Reads a call, with no target, with one or with a tuple of them. -/
def read? (cs : List Char) : Option Assignment :=
  match cs.dropWhile inWord with
  | '(' :: _ => some ⟨.nothing, firstWord cs⟩
  | ' ' :: '=' :: ' ' :: call => some ⟨.single, firstWord call⟩
  | ':' :: ':' :: 't' :: 'i' :: 'e' :: '(' :: targets =>
    some ⟨.tuple ((targets.takeWhile (· ≠ ')')).count ',' + 1),
      firstWord ((targets.dropWhile (· ≠ ')')).drop ") = ".length)⟩
  | _ => none

/-- Reads a call that may stand behind the question whether there is a handler. -/
def readGuarded? (cs : List Char) : Option Assignment :=
  match cs.dropWhile inWord with
  | ' ' :: '(' :: rest => read? ((rest.dropWhile inWord).drop ") \x7b ".length)
  | _ => read? cs

/-- Reads a line. -/
def ofLine? (line : String) : Option Assignment := readGuarded? (line.toList.dropWhile (· = ' '))

example : ofLine? "    std::tie(l_a, l_b) = fn_Pair(m_x, 1.0);" = some ⟨.tuple 2, "fn_Pair"⟩ := by
  decide

example : ofLine? "  if (out_Ask) \x7b l_a = out_Ask(); \x7d" = some ⟨.single, "out_Ask"⟩ := by
  decide

end Assignment

section Word

variable {name : String} (h : Names.Plain name) {c : Char} (hc : inWord c = false)
  (rest : List Char)
include h hc

theorem dropWhile_word : (name.toList ++ c :: rest).dropWhile inWord = c :: rest := by
  rw [List.dropWhile_append_of_pos (inWord_of_mem h), List.dropWhile_cons_of_neg (by simp [hc])]

/-- The first word ends where something in no word begins. -/
theorem firstWord_append : firstWord (name.toList ++ c :: rest) = name := by
  rw [firstWord, List.takeWhile_append_of_pos (inWord_of_mem h),
    List.takeWhile_cons_of_neg (by simp [hc]), List.append_nil, String.ofList_toList]

end Word

/-- A text that an identifier can be: plain, and with a beginning. -/
structure Word (s : String) : Prop where
  plain : Names.Plain s
  flush : Flush s

theorem word_methodName (m : Model) (f : FunctionDef) :
    Word (methodName (Names.ofModel m) f) := by
  have hin : Flush "in_" := ⟨'i', "n_".toList, rfl, by decide⟩
  have hfn : Flush "fn_" := ⟨'f', "n_".toList, rfl, by decide⟩
  refine ⟨plain_methodName m f, ?_⟩
  unfold methodName
  cases h : (Names.ofModel m).function? f.id with
  | none => exact hfn.append _
  | some own =>
    obtain ⟨k, r, hname⟩ := Names.exists_functionName h
    rw [Option.map_some, Option.getD_some, hname]
    cases k with
    | entry => exact hin.append r
    | internal => exact hfn.append r

/-- A local variable is written as a word. -/
theorem word_localName {m : Model} {id : FunctionId} {own : Names.Function}
    (h : (Names.ofModel m).function? id = some own) (i : UInt16) : Word (localName own i) := by
  have hplaceholder : Word "_" := ⟨by decide, '_', [], rfl, by decide⟩
  have hmark : Flush "l_" := ⟨'l', "_".toList, rfl, by decide⟩
  unfold localName
  rw [List.getD_eq_getElem?_getD]
  cases hl : own.locals[i.toNat]? with
  | none => exact hplaceholder
  | some l =>
    have hmem := List.mem_of_getElem? hl
    refine ⟨(Names.plain_of_function? h).2.2 l hmem, ?_⟩
    obtain ⟨f, _, _, heq, _⟩ := Names.exists_of_function? h
    rw [heq] at hmem
    obtain ⟨r, rfl⟩ := Names.exists_of_mem_locals hmem
    exact hmark.append r

section Read

variable {name : String} (hname : Names.Plain name) (after : List Char)
include hname

/-- A call assigns nothing. -/
theorem read?_call : Assignment.read? (name.toList ++ '(' :: after) = some ⟨.nothing, name⟩ := by
  have hopen : inWord '(' = false := rfl
  unfold Assignment.read?
  rw [dropWhile_word hname hopen, firstWord_append hname hopen]
  rfl

/-- A call may assign its one result. -/
theorem read?_single {target : String} (h : Names.Plain target) :
    Assignment.read? (target.toList ++ (" = ".toList ++ (name.toList ++ '(' :: after))) =
      some ⟨.single, name⟩ := by
  have hdrop : (target.toList ++ (" = ".toList ++ (name.toList ++ '(' :: after))).dropWhile inWord =
      ' ' :: '=' :: ' ' :: (name.toList ++ '(' :: after) := dropWhile_word h rfl _
  unfold Assignment.read?
  rw [hdrop]
  exact congrArg (fun w => some (Assignment.mk .single w)) (firstWord_append hname rfl after)

/-- A call ties as many results as there are between the commas. -/
theorem read?_tie {targets : String} (h : ')' ∉ targets.toList) :
    Assignment.read? ("std::tie(".toList ++ (targets.toList ++
        (") = ".toList ++ (name.toList ++ '(' :: after)))) =
      some ⟨.tuple (targets.toList.count ',' + 1), name⟩ := by
  generalize hcall : name.toList ++ '(' :: after = call
  -- the first word is that of the namespace, and the targets stand behind the parenthesis
  have hread (rest : List Char) : Assignment.read? ("std::tie(".toList ++ rest) =
      some ⟨.tuple ((rest.takeWhile (· ≠ ')')).count ',' + 1),
        firstWord ((rest.dropWhile (· ≠ ')')).drop ") = ".length)⟩ := rfl
  have hrest : targets.toList ++ (") = ".toList ++ call) =
      targets.toList ++ ')' :: (" = ".toList ++ call) := rfl
  obtain ⟨htake, hdrop⟩ := Text.takeWhile_mark h (" = ".toList ++ call)
  rw [hread, hrest, htake, hdrop, ← hcall]
  exact congrArg (fun w => some (Assignment.mk _ w)) (firstWord_append hname rfl after)

/-- **An assignment is read back**, whatever the arguments of its call and what stands behind. -/
theorem read?_assign {own : Names.Function} (hown : ∀ i, Word (localName own i))
    (results : List UInt16) (args : String) (rest : List Char) :
    Assignment.read? ((assign own results (name ++ "(" ++ args ++ ")")).toList ++ rest) =
      some ⟨Shape.ofCount results.length, name⟩ := by
  obtain ⟨after, hcall⟩ : ∃ after, (name ++ "(" ++ args ++ ")").toList ++ rest =
      name.toList ++ '(' :: after := ⟨args.toList ++ ')' :: rest, by simp⟩
  generalize name ++ "(" ++ args ++ ")" = call at hcall ⊢
  cases results with
  | nil =>
    rw [assign, hcall]
    exact read?_call hname after
  | cons r results =>
    cases results with
    | nil =>
      rw [assign, String.toList_append, String.toList_append, List.append_assoc, List.append_assoc,
        hcall]
      exact read?_single hname after (hown r).plain
    | cons q results =>
      have hlocals : ∀ s ∈ (r :: q :: results).map (localName own), Names.Plain s :=
        List.forall_mem_map.mpr fun i _ => (hown i).plain
      have hclose : ')' ∉ (commaList ((r :: q :: results).map (localName own))).toList :=
        Text.notMem_intercalate (by decide) fun s hs hm => absurd (hlocals s hs _ hm) (by decide)
      have hcount := count_commaList
        (fun s hs hm => absurd (hlocals s hs _ hm) (by decide)) (List.cons_ne_nil _ _)
      have htext : assign own (r :: q :: results) call = "std::tie(" ++
          commaList ((r :: q :: results).map (localName own)) ++ ") = " ++ call := rfl
      rw [htext, String.toList_append, String.toList_append, String.toList_append,
        List.append_assoc, List.append_assoc, List.append_assoc, hcall,
        read?_tie hname after hclose, commaList, hcount, List.length_map]
      rfl

end Read

/-! ## The line of an invocation -/

/-- The identifier that a body calls its target by. -/
def calleeName (m : Model) (names : Names) : Reference → String
  | .function id => ((m.functionAt? id).map (methodName names)).getD "fn_unknown"
  | .out name => names.out name
  | .member _ | .param _ | .localVar _ => ""

/-- The identifiers that an invocation is made of are words. -/
structure Worded (c : Context) : Prop where
  tidy : c.Tidy
  method : ∀ f, Word (methodName c.names f)
  out : ∀ name, Names.Plain (c.names.out name)
  localName : ∀ i, Word (localName c.locals i)

/-- The names of a function are words. -/
theorem worded_of_function? {m : Model} {id : FunctionId} {own : Names.Function}
    (h : (Names.ofModel m).function? id = some own) (comments : Bool) :
    Worded ⟨m, Names.ofModel m, comments, own⟩ where
  tidy := tidy_of_function? h comments
  method := word_methodName m
  out := Names.plain_out m
  localName := word_localName h

/-- Assigning begins with no blank. -/
theorem flush_assign {own : Names.Function} (hown : ∀ i, Word (localName own i)) {call : String}
    (hcall : Flush call) : ∀ results : List UInt16, Flush (assign own results call)
  | [] => hcall
  | [r] => ((hown r).flush.append " = ").append call
  | r :: q :: results => by
      have htie : Flush "std::tie(" := ⟨'s', "td::tie(".toList, rfl, by decide⟩
      exact ((htie.append _).append ") = ").append call

/-- A line that does not ask first reads as what its text does. -/
theorem ofLine?_of_read? {l : Line} (hflush : Flush l.text) {a : Assignment}
    (h : Assignment.read? l.text.toList = some a) (width : Nat) :
    Assignment.ofLine? (l.shown width) = some a := by
  rw [Assignment.ofLine?, dropWhile_shown hflush]
  unfold Assignment.readGuarded?
  split
  · rename_i hdrop
    unfold Assignment.read? at h
    rw [hdrop] at h
    cases h
  · exact h

/-- A line that asks first reads as what stands in braces. -/
theorem ofLine?_of_guarded {l : Line} {member : String} (hmember : Names.Plain member)
    {inside : List Char} (htext : l.text.toList =
      "if (".toList ++ (member.toList ++ (") \x7b ".toList ++ inside))) (width : Nat) :
    Assignment.ofLine? (l.shown width) = Assignment.read? inside := by
  have hflush : Flush l.text := ⟨'i', _, htext, by decide⟩
  have hif : ("if (".toList ++ (member.toList ++ (") \x7b ".toList ++ inside))).dropWhile inWord =
      ' ' :: '(' :: (member.toList ++ (") \x7b ".toList ++ inside)) := rfl
  have hdrop : (member.toList ++ (") \x7b ".toList ++ inside)).dropWhile inWord =
      ") \x7b ".toList ++ inside := dropWhile_word hmember rfl _
  rw [Assignment.ofLine?, dropWhile_shown hflush, htext]
  unfold Assignment.readGuarded?
  rw [hif]
  simp only [hdrop]
  rfl

/-- **An invocation is one line**, which assigns to targets of the shape of their count. -/
theorem exists_line {c : Context} (hc : Worded c) {k : StatementKind} {i : Invocation}
    (h : k.invocation? = some i) (level : Nat) :
    ∃ l, kindLines c level k = [l] ∧ OneLine l.text ∧ ∀ width,
      Assignment.ofLine? (l.shown width) =
        some ⟨Shape.ofCount i.results.length, calleeName c.model c.names i.target⟩ := by
  have hone : ∀ l, kindLines c level k = [l] → OneLine l.text := fun l hl =>
    (inner_kindLines hc.tidy level k l (hl ▸ List.mem_singleton_self l)).oneLine
  obtain ⟨id, rfl, htarget⟩ | ⟨out, rfl, htarget⟩ := StatementKind.invocation?_cases h
  · have hunknown : Word "fn_unknown" := ⟨by decide, 'f', "n_unknown".toList, rfl, by decide⟩
    have hcallee :
        Word (((c.model.functionAt? id).map (methodName c.names)).getD "fn_unknown") := by
      cases c.model.functionAt? id with
      | none => exact hunknown
      | some f => exact hc.method f
    refine ⟨_, rfl, hone _ rfl, fun width => ?_⟩
    rw [htarget]
    refine ofLine?_of_read? ?_ ?_ width
    · exact (flush_assign hc.localName (((hcallee.flush.append _).append _).append _) _).append ";"
    · rw [String.toList_append]
      exact read?_assign hcallee.plain hc.localName _ _ _
  · refine ⟨_, rfl, hone _ rfl, fun width => ?_⟩
    rw [htarget]
    have hread := read?_assign (hc.out out) hc.localName i.results
      (commaList (i.args.map (expr c.names c.locals))) "; \x7d".toList
    refine (ofLine?_of_guarded (hc.out out) ?_ width).trans hread
    simp only [String.toList_append, List.append_assoc]

/-! ## Lines at whatever depth -/

section Depth

variable {c : Context} {l : Line}

/-- A line of a statement is a line of the block that has it. -/
theorem mem_block {level : Nat} {s : Statement} (hl : l ∈ kindLines c level s.kind) :
    ∀ {body : List Statement}, s ∈ body → l ∈ block c level body
  | x :: body, hs => by
      rw [block, List.mem_append]
      rcases List.mem_cons.mp hs with rfl | hs
      · left
        cases s
        exact List.mem_append_right _ hl
      · exact .inr (mem_block hl hs)

theorem mem_then {level : Nat} {t : List Statement} (h : l ∈ block c (level + 1) t) (e : Expr)
    (otherwise : List Statement) : l ∈ kindLines c level (.cond e t otherwise) := by
  cases otherwise with
  | nil =>
    rw [kindLines]
    exact List.mem_append_left _ (List.mem_cons_of_mem _ h)
  | cons s r =>
    rw [kindLines]
    exact List.mem_append_left _ (List.mem_append_left _ (List.mem_cons_of_mem _ h))

theorem mem_else {level : Nat} {otherwise : List Statement}
    (h : l ∈ block c (level + 1) otherwise) (e : Expr) (t : List Statement) :
    l ∈ kindLines c level (.cond e t otherwise) := by
  cases otherwise with
  | nil => exact absurd h List.not_mem_nil
  | cons s r =>
    rw [kindLines]
    exact List.mem_append_left _ (List.mem_append_right _ (List.mem_cons_of_mem _ h))

theorem mem_loop {level : Nat} {b : List Statement} (h : l ∈ block c (level + 1) b) (e : Expr) :
    l ∈ kindLines c level (.loop e b) := by
  rw [kindLines]
  exact List.mem_append_left _ (List.mem_cons_of_mem _ h)

/-- The lines of a statement stand among those of any body around it, at some level. -/
theorem exists_level {s : Statement} {body : List Statement} (h : s.Within body) (level : Nat) :
    ∃ inner, ∀ l ∈ kindLines c inner s.kind, l ∈ block c level body := by
  induction h generalizing level with
  | here h => exact ⟨level, fun l hl => mem_block hl h⟩
  | inThen h _ ih =>
    obtain ⟨inner, hinner⟩ := ih (level + 1)
    exact ⟨inner, fun l hl => mem_block (mem_then (hinner l hl) _ _) h⟩
  | inElse h _ ih =>
    obtain ⟨inner, hinner⟩ := ih (level + 1)
    exact ⟨inner, fun l hl => mem_block (mem_else (hinner l hl) _ _) h⟩
  | inLoop h _ ih =>
    obtain ⟨inner, hinner⟩ := ih (level + 1)
    exact ⟨inner, fun l hl => mem_block (mem_loop (hinner l hl) _) h⟩

end Depth

section Texts

variable {m : Model} {o : Options} {f : FunctionDef} (hf : f ∈ m.functions)
include hf

/-- A line of a function is a line of the source. -/
theorem mem_lines_of_function {l : Line} (hl : l ∈ Source.function m (Names.ofModel m) o f) :
    l ∈ Source.lines m o := by
  rw [lines_source]
  refine List.mem_append_right _ (List.mem_cons_of_mem _ (List.mem_append_right _ ?_))
  exact List.mem_append_left _ (List.mem_flatMap.mpr ⟨f, hf, hl⟩)

/-- A line of a body is a line of the source. -/
theorem mem_lines_of_block {own : Names.Function}
    (hown : (Names.ofModel m).function? f.id = some own) {l : Line}
    (hl : l ∈ block ⟨m, Names.ofModel m, o.nodeComments, own⟩ 1 f.body) :
    l ∈ Source.lines m o := by
  refine mem_lines_of_function hf ?_
  rw [Source.function, hown]
  exact List.mem_append_left _ (List.mem_append_right _ hl)

/-- The definition of a function can be read in the source. -/
theorem definition_mem_split :
    (definition m f).text ∈ Text.split '\n' (Code.text o.indentWidth (Source.lines m o)) := by
  obtain ⟨body, _, hlines⟩ := exists_body hf o
  rw [(signature_eq hf).2] at hlines
  have hmem : (⟨0, (definition m f).text, none⟩ : Line) ∈ Source.lines m o :=
    mem_lines_of_function hf (hlines ▸ List.mem_cons_self)
  have hshown := Code.shown_mem_split o.indentWidth hmem (oneLine_definition f)
  rwa [Line.shown_of_level o.indentWidth rfl] at hshown

end Texts

/-- The callback of an out-event can be read in the header. -/
theorem outField_mem_split {m : Model} (o : Options) {d : OutEventDef} (hd : d ∈ m.outEvents) :
    Line.shown o.indentWidth ⟨1, (outField m d).text ++ ";", none⟩ ∈
      Text.split '\n' (Code.text o.indentWidth (Header.lines m o)) := by
  have houts : (⟨1, (outField m d).text ++ ";", none⟩ : Line) ∈
      Header.outs m (Names.ofModel m) := by
    unfold Header.outs
    split
    · rename_i hempty
      rw [List.isEmpty_iff.mp hempty] at hd
      exact absurd hd List.not_mem_nil
    · exact List.mem_cons_of_mem _ (List.mem_map_of_mem hd)
  have hlines : (⟨1, (outField m d).text ++ ";", none⟩ : Line) ∈ Header.lines m o := by
    simp only [Header.lines, List.mem_append]
    simp only [houts, or_true, true_or]
  refine Code.shown_mem_split o.indentWidth hlines ?_
  have hname := (Names.plain_out m d.name).oneLine
  have htext : (outField m d).text = outType d.params d.returns ++ " " ++
      (Names.ofModel m).out d.name := rfl
  simp only [htext, oneLine_append]
  exact ⟨⟨⟨Header.oneLine_outType d.params d.returns, by decide⟩, hname⟩, by decide⟩

/-! ## Results that fit -/

/-- In the source, the statement in the body of `f` is one line, which reads as that assignment. -/
def Assigns (m : Model) (o : Options) (source : String) (f : FunctionDef) (s : Statement)
    (a : Assignment) : Prop :=
  ∃ own level line, (Names.ofModel m).function? f.id = some own ∧
    kindLines ⟨m, Names.ofModel m, o.nodeComments, own⟩ level s.kind = [line] ∧
    line.shown o.indentWidth ∈ Text.split '\n' source ∧
    Assignment.ofLine? (line.shown o.indentWidth) = some a

/-- The class knows the target by that name and gives results of that shape: for a function by the
definition of its method in the source, for an out-event by its field in the header. -/
inductive Known (m : Model) (source header : String) : Reference → String → Shape → Prop
  | method {id : FunctionId} {g : FunctionDef} {line : String} (hg : m.functionAt? id = some g)
      (hline : line ∈ Text.split '\n' source)
      (hread : Signature.read? line = some (definition m g)) :
      Known m source header (.function id) (definition m g).name
        (Shape.ofType (definition m g).result)
  | callback {name : String} {d : OutEventDef} {line : String} (hd : m.outEvent? name = some d)
      (hline : line ∈ Text.split '\n' header)
      (hread : (declaration? line).bind Field.read? = some (outField m d)) :
      Known m source header (.out name) (outField m d).name (Shape.ofCallback (outField m d).type)

/-- Every invocation has a line that assigns as many results as it asks for. -/
theorem exists_assigns {m : Model} {o : Options} {f : FunctionDef} (hf : f ∈ m.functions)
    {s : Statement} (hs : s.Within f.body) {i : Invocation} (hi : s.kind.invocation? = some i) :
    Assigns m o (Code.text o.indentWidth (Source.lines m o)) f s
      ⟨Shape.ofCount i.results.length, calleeName m (Names.ofModel m) i.target⟩ := by
  obtain ⟨own, hown⟩ := Option.isSome_iff_exists.mp
    (Names.isSome_function?.mpr (List.mem_map_of_mem (f := (·.id)) hf))
  obtain ⟨level, hlevel⟩ := exists_level
    (c := ⟨m, Names.ofModel m, o.nodeComments, own⟩) hs 1
  obtain ⟨line, hline, hone, hread⟩ :=
    exists_line (worded_of_function? hown o.nodeComments) hi level
  have hmem := mem_lines_of_block hf hown (hlevel line (hline ▸ List.mem_singleton_self line))
  exact ⟨own, level, line, hown, hline, Code.shown_mem_split o.indentWidth hmem hone,
    hread o.indentWidth⟩

/-- What is invoked is known with as many results as it gives. -/
theorem exists_known {m : Model} (o : Options) {i : Invocation} {g : GraphScript.Signature}
    (hg : m.signature? i.target = some g) :
    Known m (Code.text o.indentWidth (Source.lines m o))
      (Code.text o.indentWidth (Header.lines m o)) i.target
      (calleeName m (Names.ofModel m) i.target) (Shape.ofCount g.returns.length) := by
  cases htarget : i.target with
  | function id =>
    rw [htarget] at hg
    obtain ⟨f, hf, rfl⟩ := Option.map_eq_some_iff.mp hg
    have hcallee : calleeName m (Names.ofModel m) (.function id) = (definition m f).name := by
      rw [calleeName, hf]
      rfl
    have hshape : Shape.ofCount f.returns.length = Shape.ofType (definition m f).result :=
      (shape_returnType f.returns).symm
    rw [hcallee, hshape]
    exact .method (g := f) hf (definition_mem_split (Model.mem_functions hf)) (read?_definition f)
  | out name =>
    rw [htarget] at hg
    obtain ⟨d, hd, rfl⟩ := Option.map_eq_some_iff.mp hg
    have hname : d.name = name := by simpa using List.find?_some hd
    have hcallee : calleeName m (Names.ofModel m) (.out name) = (outField m d).name := by
      rw [calleeName, ← hname]
      rfl
    have hshape : Shape.ofCount d.returns.length = Shape.ofCallback (outField m d).type :=
      (shape_outType d.params d.returns).symm
    rw [hcallee, hshape]
    refine .callback (d := d) hd (outField_mem_split o (List.mem_of_find?_eq_some hd)) ?_
    have hflush : Flush (outField m d).text :=
      Field.flush_text (f := outField m d) (flush_of_typed (typed_outType d.params d.returns))
    rw [declaration?_shown hflush, Option.bind_some]
    exact Field.read?_text (Names.plain_out m d.name)
  | member | param | localVar =>
    rw [htarget] at hg
    cases hg

/-- **Results fit exactly if all of them are assigned.**  In a valid model with a native source each
invocation, at whatever depth, assigns to no more locals than there are results.  Its line assigns
to nothing, to one local or to a tuple by the count of locals, what it calls gives nothing, one
value or a tuple by the count of results, and the shapes are the same exactly if the counts are. -/
theorem results_fit_iff (m : Model) (o : Options) {source : Emission} (hv : m.isValid = true)
    (hsource : Source.emit m o = .ok source) {f : FunctionDef} (hf : f ∈ m.functions)
    {s : Statement} (hs : s.Within f.body) {i : Invocation} (hi : s.kind.invocation? = some i) :
    ∃ (g : GraphScript.Signature) (header : Emission) (a : Assignment) (given : Shape),
      m.signature? i.target = some g ∧ Header.emit m o = .ok header ∧
      Assigns m o source.text f s a ∧ Known m source.text header.text i.target a.callee given ∧
      i.results.length ≤ g.returns.length ∧
      a.targets = Shape.ofCount i.results.length ∧ given = Shape.ofCount g.returns.length ∧
      (a.targets = given ↔ i.results.length = g.returns.length) := by
  obtain ⟨g, hg, hcount⟩ := (Model.isValid_iff.mp hv).exists_signature hf hs hi
  obtain ⟨-, inputs, hinputs, hemission⟩ := Source.emit_eq_ok_iff.mp hsource
  have hdefined : source.text = Code.text o.indentWidth (Source.lines m o) := by rw [hemission]
  obtain ⟨header, hdeclaration⟩ : ∃ header : Emission, header =
      { text := Code.text o.indentWidth (Header.lines m o), runtimeInputs := inputs } := ⟨_, rfl⟩
  have hheader := Header.emit_eq_ok_iff.mpr ⟨inputs, hinputs, hdeclaration⟩
  have hdeclared : header.text = Code.text o.indentWidth (Header.lines m o) := by rw [hdeclaration]
  have hassigns := exists_assigns (o := o) hf hs hi
  have hknown := exists_known o hg
  rw [← hdefined] at hassigns
  rw [← hdefined, ← hdeclared] at hknown
  exact ⟨g, header, _, _, hg, hheader, hassigns, hknown, hcount, rfl, rfl, Shape.ofCount_inj⟩

/-- Weighs, and keeps the weight but not whether it is steady. -/
def glance : Statement := .mk ⟨21⟩ none (.call ⟨0⟩ [] [0])

/-- Asks for a limit and for whether it is strict, and keeps both. -/
def consult : Statement := .mk ⟨22⟩ none (.fire "Limit" [] [0, 1])

/-- Glances at the weight while the weight is nothing, and then asks for the limit. -/
def stepOn : FunctionDef where
  id := ⟨1⟩
  name := "StepOn"
  kind := .entry
  params := []
  returns := []
  locals := [⟨"weight", .number⟩, ⟨"steady", .boolean⟩]
  body := [
    .mk ⟨23⟩ none (.loop (.binary .eq (.localVar 0) (.literal (.number 0))) [glance]), consult]
  origin := ⟨20⟩

/-- A scale, which tells a weight and whether it is steady. -/
def scale : Model where
  name := "Scale"
  functionEntries := [
    (⟨0⟩, {
      id := ⟨0⟩, name := "Weigh", kind := .internal, params := []
      returns := [⟨"weight", .number⟩, ⟨"steady", .boolean⟩], origin := ⟨10⟩
      body := [.mk ⟨11⟩ none (.ret [.literal (.number 1), .literal (.boolean true)])] }),
    (⟨1⟩, stepOn)]
  outEvents := [⟨"Limit", [], [⟨"limit", .number⟩, ⟨"strict", .boolean⟩], ⟨30⟩⟩]

/-- The scale is valid, though its source assigns a tuple to the one local of the glance. -/
theorem scale_results_fit : scale.isValid = true ∧ ∃ source header,
    Source.emit scale {} = .ok source ∧ Header.emit scale {} = .ok header ∧
      (∃ a, Assigns scale {} source.text stepOn glance a ∧ a.targets = .single ∧
        Known scale source.text header.text (.function ⟨0⟩) a.callee (.tuple 2)) ∧
      ∃ a, Assigns scale {} source.text stepOn consult a ∧ a.targets = .tuple 2 ∧
        Known scale source.text header.text (.out "Limit") a.callee (.tuple 2) := by
  have hvalid : scale.isValid = true := by decide
  obtain ⟨source, hsource⟩ : ∃ e, Source.emit scale {} = .ok e := ⟨_, rfl⟩
  have hstep : stepOn ∈ scale.functions := List.mem_cons_of_mem _ List.mem_cons_self
  have hglance : glance.Within stepOn.body :=
    .inLoop List.mem_cons_self (.here List.mem_cons_self)
  have hconsult : consult.Within stepOn.body := .here (List.mem_cons_of_mem _ List.mem_cons_self)
  obtain ⟨g, header, a, _, hg, hheader, ha, hgiven, -, htargets, rfl, -⟩ :=
    results_fit_iff scale {} hvalid hsource hstep hglance rfl
  obtain ⟨g', header', a', _, hg', hheader', ha', hgiven', -, htargets', rfl, -⟩ :=
    results_fit_iff scale {} hvalid hsource hstep hconsult rfl
  obtain rfl := Option.some.inj hg
  obtain rfl := Option.some.inj hg'
  obtain rfl := Except.ok.inj (hheader.symm.trans hheader')
  exact ⟨hvalid, source, header, hsource, hheader, ⟨a, ha, htargets, hgiven⟩,
    a', ha', htargets', hgiven'⟩

end Emit.Native

end GraphScript
