import GraphScript.Emit.Script
import GraphScript.Proofs.Code
import GraphScript.Proofs.Literal
import GraphScript.Proofs.Names.Lookup

/-!
# Proofs/Emit/Breaks — where an emitted chunk breaks

Only the first line of a chunk holds free text, the name of the graph.  Every other line stands on
one line, whatever the model holds (`oneLine_rest`): names are cleaned, texts are escaped, and
script text is taken over line by line.
-/

namespace GraphScript

/-- A name of plain characters breaks no line. -/
theorem Names.Plain.oneLine {s : String} (h : Names.Plain s) : Text.OneLine s := fun hm =>
  absurd (h _ hm) (by decide)

/-- A list breaks no line if its items break none. -/
theorem Emit.oneLine_commaList {items : List String} (h : ∀ s ∈ items, Text.OneLine s) :
    Text.OneLine (commaList items) := Text.oneLine_intercalate (by decide) h

namespace Emit.Script

open Text (OneLine oneLine_append)

/-! ## Pieces of a line -/

theorem oneLine_entity (e : EntityId) : OneLine s!"__sc_entity(\"{e.val.toNat}\")" :=
  oneLine_append.mpr ⟨oneLine_append.mpr
    ⟨by decide, (Names.plain_repr e.val.toNat).oneLine⟩, by decide⟩

/-- Data break no line: what breaks one in a text is escaped. -/
theorem oneLine_datum (d : Datum) : OneLine (datum d) := by
  cases d with
  | boolean b => cases b <;> decide
  | number x => exact Literal.oneLine_number .script x
  | string s => exact Literal.oneLine_string .script s
  | entityId e =>
    rw [datum]
    split
    · decide
    · exact oneLine_entity e
  | object o => exact (by decide : OneLine "nil")

theorem oneLine_initial (t : DataType) : OneLine (initial t) := by
  unfold initial
  cases Datum.default? t with
  | none => decide
  | some d => exact oneLine_datum d

theorem oneLine_operator (op : BinaryOp) : OneLine (operator op) := by
  cases op <;> decide

/-- The identifiers that a body can use stand on one line. -/
structure Context.Tidy (c : Context) : Prop where
  member : ∀ v, OneLine (c.names.member v)
  callee : ∀ id, OneLine (callee c.model c.names id)
  param : ∀ i, OneLine (c.locals.params.getD i "nil")
  localName : ∀ i, OneLine (localName c.locals i)

/-- **Expressions break no line.** -/
theorem oneLine_expr {c : Context} (hc : c.Tidy) : ∀ e : Expr, OneLine (expr c.names c.locals e)
  | .literal d => oneLine_datum d
  | .member v => oneLine_append.mpr ⟨by decide, hc.member v⟩
  | .param i => hc.param i.toNat
  | .localVar i => hc.localName i
  | .binary op l r => by
      simp only [expr, oneLine_append]
      exact ⟨⟨⟨⟨⟨⟨by decide, oneLine_expr hc l⟩, by decide⟩, oneLine_operator op⟩, by decide⟩,
        oneLine_expr hc r⟩, by decide⟩
  | .not e | .negate e => by
      simp only [expr, oneLine_append]
      exact ⟨⟨by decide, oneLine_expr hc e⟩, by decide⟩

theorem oneLine_exprs {c : Context} (hc : c.Tidy) (es : List Expr) :
    ∀ s ∈ es.map (expr c.names c.locals), OneLine s :=
  List.forall_mem_map.mpr fun e _ => oneLine_expr hc e

/-- Assignments break no line if what is assigned breaks none. -/
theorem oneLine_assign {c : Context} (hc : c.Tidy) (results : List UInt16) {call : String}
    (h : OneLine call) :
    OneLine (assign c.locals results call) := by
  unfold assign
  split
  · exact h
  · simp only [oneLine_append]
    exact ⟨⟨oneLine_commaList (List.forall_mem_map.mpr fun i _ => hc.localName i), by decide⟩, h⟩

/-! ## Bodies -/

mutual

/-- **Lines of a statement are lines**, but for script text, which was split before. -/
theorem oneLine_statement {c : Context} (hc : c.Tidy) (level : Nat) (isLast : Bool) :
    ∀ s : Statement, ∀ l ∈ statement c level isLast s, OneLine l.text
  | .mk origin slot kind => by
      have hmark : ∀ t ∈ (kindLines c level isLast ⟨origin, slot, c.function⟩ kind).map (·.text),
          OneLine t := List.forall_mem_map.mpr (oneLine_kindLines hc level isLast _ kind)
      unfold statement
      refine List.forall_mem_append.mpr ⟨?_, ?_⟩
      · split
        · exact List.forall_mem_singleton.mpr
            (oneLine_append.mpr ⟨by decide, (Names.plain_repr origin.val.toNat).oneLine⟩)
        · exact List.forall_mem_nil _
      · rw [← Line.map_text_mark ⟨origin, slot, c.function⟩] at hmark
        exact List.forall_mem_map.mp hmark

theorem oneLine_kindLines {c : Context} (hc : c.Tidy) (level : Nat) (isLast : Bool)
    (symbol : DebugSymbol) :
    ∀ k : StatementKind, ∀ l ∈ kindLines c level isLast symbol k, OneLine l.text
  | .setMember v e => List.forall_mem_singleton.mpr (by
      simp only [oneLine_append]
      exact ⟨⟨⟨by decide, hc.member v⟩, by decide⟩, oneLine_expr hc e⟩)
  | .setLocal i e => List.forall_mem_singleton.mpr (by
      simp only [oneLine_append]
      exact ⟨⟨hc.localName i, by decide⟩, oneLine_expr hc e⟩)
  | .cond e t [] => by
      unfold kindLines
      refine List.forall_mem_append.mpr ⟨List.forall_mem_cons.mpr ⟨?_, oneLine_block hc _ t⟩,
        List.forall_mem_singleton.mpr (by decide : OneLine "end")⟩
      exact oneLine_append.mpr ⟨oneLine_append.mpr ⟨by decide, oneLine_expr hc e⟩, by decide⟩
  | .cond e t (s :: r) => by
      unfold kindLines
      refine List.forall_mem_append.mpr ⟨List.forall_mem_append.mpr
        ⟨List.forall_mem_cons.mpr ⟨?_, oneLine_block hc _ t⟩,
          List.forall_mem_cons.mpr ⟨(by decide : OneLine "else"), oneLine_block hc _ (s :: r)⟩⟩,
        List.forall_mem_singleton.mpr (by decide : OneLine "end")⟩
      exact oneLine_append.mpr ⟨oneLine_append.mpr ⟨by decide, oneLine_expr hc e⟩, by decide⟩
  | .loop e b => by
      unfold kindLines
      refine List.forall_mem_append.mpr ⟨List.forall_mem_cons.mpr ⟨?_, oneLine_block hc _ b⟩,
        List.forall_mem_singleton.mpr (by decide : OneLine "end")⟩
      exact oneLine_append.mpr ⟨oneLine_append.mpr ⟨by decide, oneLine_expr hc e⟩, by decide⟩
  | .call id args results => List.forall_mem_singleton.mpr (by
      have hargs := oneLine_commaList
        (List.forall_mem_cons.mpr ⟨by decide, oneLine_exprs hc args⟩ : ∀ s ∈ "self" :: _, OneLine s)
      refine oneLine_assign hc results ?_
      simp only [oneLine_append]
      exact ⟨⟨⟨hc.callee id, by decide⟩, hargs⟩, by decide⟩)
  | .fire out args results => List.forall_mem_singleton.mpr (by
      have hargs := oneLine_commaList
        (List.forall_mem_cons.mpr ⟨by decide, List.forall_mem_cons.mpr
          ⟨Literal.oneLine_string .script out, oneLine_exprs hc args⟩⟩ :
          ∀ s ∈ "self.executionState" :: _, OneLine s)
      refine oneLine_assign hc results ?_
      simp only [oneLine_append]
      exact ⟨⟨by decide, hargs⟩, by decide⟩)
  | .log e => List.forall_mem_singleton.mpr
      (oneLine_append.mpr ⟨oneLine_append.mpr ⟨by decide, oneLine_expr hc e⟩, by decide⟩)
  | .ret values => List.forall_mem_singleton.mpr (by
      have htext : OneLine (match values with
          | [] => "return"
          | values => "return " ++ commaList (values.map (expr c.names c.locals))) := by
        split
        · decide
        · exact oneLine_append.mpr ⟨by decide, oneLine_commaList (oneLine_exprs hc _)⟩
      dsimp only
      split
      · exact htext
      · exact oneLine_append.mpr ⟨oneLine_append.mpr ⟨by decide, htext⟩, by decide⟩)
  | .script source => by
      unfold kindLines
      refine List.forall_mem_append.mpr ⟨?_, ?_⟩
      · split
        · exact List.forall_mem_singleton.mpr (by decide : OneLine "-- empty script block")
        · exact List.forall_mem_nil _
      · exact List.forall_mem_map.mpr fun l hl => Text.oneLine_of_mem_lines hl

/-- Lines of a block are lines. -/
theorem oneLine_block {c : Context} (hc : c.Tidy) (level : Nat) :
    ∀ body : List Statement, ∀ l ∈ block c level body, OneLine l.text
  | [] => List.forall_mem_nil _
  | s :: r => List.forall_mem_append.mpr
      ⟨oneLine_statement hc level r.isEmpty s, oneLine_block hc level r⟩

end

/-! ## Chunks -/

/-- How a function is called breaks no line. -/
theorem oneLine_callee (m : Model) (id : FunctionId) :
    OneLine (callee m (Names.ofModel m) id) := by
  have hinternal : OneLine ((((Names.ofModel m).function? id).map (·.name)).getD "fn_unknown") := by
    cases h : (Names.ofModel m).function? id with
    | none => decide
    | some own => exact (Names.plain_of_function? h).1.oneLine
  unfold callee
  dsimp only
  split
  · split
    · simp only [oneLine_append]
      exact ⟨⟨⟨(Names.plain_className m).oneLine, by decide⟩, Literal.oneLine_string _ _⟩,
        by decide⟩
    · exact hinternal
  · exact hinternal

/-- An item of a list breaks no line, nor does what stands for a missing one. -/
theorem oneLine_getD {items : List String} (h : ∀ s ∈ items, Names.Plain s) {other : String}
    (ho : OneLine other) (i : Nat) : OneLine (items.getD i other) := by
  rw [List.getD_eq_getElem?_getD]
  cases hi : items[i]? with
  | none => exact ho
  | some s => exact (h s (List.mem_of_getElem? hi)).oneLine

/-- The names of a function that the model has are plain. -/
theorem tidy_of_function? {m : Model} {id : FunctionId} {own : Names.Function}
    (h : (Names.ofModel m).function? id = some own) (comments : Bool) (function : String) :
    Context.Tidy ⟨m, Names.ofModel m, comments, function, own⟩ where
  member v := (Names.plain_member m v).oneLine
  callee := oneLine_callee m
  param := oneLine_getD (Names.plain_of_function? h).2.1 (by decide)
  localName i := oneLine_getD (Names.plain_of_function? h).2.2 (by decide) i.toNat

/-- The header of a function breaks no line. -/
theorem oneLine_header {m : Model} {f : FunctionDef} {own : Names.Function}
    (h : (Names.ofModel m).function? f.id = some own) :
    OneLine (header (Names.ofModel m) f own) := by
  obtain ⟨hname, hparams, _⟩ := Names.plain_of_function? h
  have hlist : OneLine (commaList ("self" :: own.params)) := oneLine_commaList
    (List.forall_mem_cons.mpr ⟨by decide, fun p hp => (hparams p hp).oneLine⟩)
  unfold header
  dsimp only
  split
  · simp only [oneLine_append]
    exact ⟨⟨⟨⟨⟨(Names.plain_className m).oneLine, by decide⟩, Literal.oneLine_string _ _⟩,
      by decide⟩, hlist⟩, by decide⟩
  · simp only [oneLine_append]
    exact ⟨⟨⟨⟨by decide, hname.oneLine⟩, by decide⟩, hlist⟩, by decide⟩

/-- Every line of a function stands on one line. -/
theorem oneLine_function (m : Model) (o : Options) (f : FunctionDef) :
    ∀ l ∈ function m (Names.ofModel m) o f, OneLine l.text := by
  unfold function
  cases h : (Names.ofModel m).function? f.id with
  | none => exact List.forall_mem_nil _
  | some own =>
    have hlocals : ∀ e ∈ f.locals.zip own.locals,
        OneLine ("local " ++ e.2 ++ " = " ++ initial e.1.dataType) := fun e he => by
      simp only [oneLine_append]
      exact ⟨⟨⟨by decide, ((Names.plain_of_function? h).2.2 _ (List.of_mem_zip he).2).oneLine⟩,
        by decide⟩, oneLine_initial _⟩
    refine List.forall_mem_append.mpr ⟨List.forall_mem_append.mpr
      ⟨List.forall_mem_cons.mpr ⟨oneLine_header h, ?_⟩, ?_⟩, by decide⟩
    · exact List.forall_mem_map.mpr hlocals
    · exact oneLine_block (tidy_of_function? h _ _) 1 f.body

/-- Nor does any line of the constructor. -/
theorem oneLine_constructor (m : Model) :
    ∀ l ∈ constructor m (Names.ofModel m), OneLine l.text := by
  have hclass := (Names.plain_className m).oneLine
  have hmember : ∀ v ∈ m.members, OneLine (memberLine (Names.ofModel m) v).text := fun v _ => by
    simp only [memberLine, oneLine_append]
    exact ⟨⟨⟨⟨by decide, (Names.plain_member m v.id).oneLine⟩, by decide⟩,
      Literal.oneLine_string _ _⟩, by decide⟩
  have hfirst : OneLine ("function " ++ (Names.ofModel m).className ++
      ".new(executionState, inputs)") := by
    simp only [oneLine_append]
    exact ⟨⟨by decide, hclass⟩, by decide⟩
  have hsecond : OneLine ("local self = setmetatable(\x7b\x7d, " ++ (Names.ofModel m).className ++
      ")") := by
    simp only [oneLine_append]
    exact ⟨⟨by decide, hclass⟩, by decide⟩
  unfold constructor
  refine List.forall_mem_append.mpr ⟨List.forall_mem_append.mpr ⟨?_, ?_⟩, by decide⟩
  · exact List.forall_mem_cons.mpr ⟨hfirst, List.forall_mem_cons.mpr ⟨hsecond,
      List.forall_mem_singleton.mpr (by decide)⟩⟩
  · exact List.forall_mem_map.mpr hmember

/-- The chunk without its first line. -/
def rest (m : Model) (o : Options) (order : List FunctionId) : List Line :=
  (opening m (Names.ofModel m)).tail ++
    (internals m order).flatMap (function m (Names.ofModel m) o) ++
    constructor m (Names.ofModel m) ++ (entries m).flatMap (function m (Names.ofModel m) o) ++
    [⟨0, "return " ++ (Names.ofModel m).className, none⟩]

/-- The first line of a chunk. -/
def banner (m : Model) : Line := ⟨0, "-- " ++ m.name ++ ": generated by canvasc, do not edit", none⟩

/-- The banner is the first line, and the others follow. -/
theorem lines_eq (m : Model) (o : Options) (order : List FunctionId) :
    lines m o order = banner m :: rest m o order := by
  simp [lines, rest, opening, banner]

/-- **Below the first line of a chunk, every line stands on one line.** -/
theorem oneLine_rest (m : Model) (o : Options) (order : List FunctionId) :
    ∀ l ∈ rest m o order, OneLine l.text := by
  have hclass := (Names.plain_className m).oneLine
  have hfunctions : ∀ fs : List FunctionDef,
      ∀ l ∈ fs.flatMap (function m (Names.ofModel m) o), OneLine l.text := fun fs l hl => by
    obtain ⟨f, _, hf⟩ := List.mem_flatMap.mp hl
    exact oneLine_function m o f l hf
  have hopening : ∀ l ∈ (opening m (Names.ofModel m)).tail, OneLine l.text := by
    refine List.forall_mem_cons.mpr ⟨?_, List.forall_mem_cons.mpr ⟨?_,
      List.forall_mem_singleton.mpr (by decide : OneLine "")⟩⟩
    · exact oneLine_append.mpr ⟨oneLine_append.mpr ⟨by decide, hclass⟩, by decide⟩
    · exact oneLine_append.mpr ⟨oneLine_append.mpr ⟨hclass, by decide⟩, hclass⟩
  unfold rest
  exact List.forall_mem_append.mpr ⟨List.forall_mem_append.mpr ⟨List.forall_mem_append.mpr
    ⟨List.forall_mem_append.mpr ⟨hopening, hfunctions _⟩, oneLine_constructor m⟩, hfunctions _⟩,
    List.forall_mem_singleton.mpr (oneLine_append.mpr ⟨by decide, hclass⟩)⟩

end Emit.Script

end GraphScript
