import GraphScript.Proofs.Emit.Breaks
import GraphScript.Proofs.Emit.Declared

/-!
# Proofs/Emit/Bodies — the bodies of native methods

In the native source a brace on a line of its own opens a constructor or a method, and nothing else.
Blocks inside a method open on the line of their condition, so no line of a body is such a brace,
and every line of it stands on one line (`inner_function`).
-/

namespace GraphScript.Emit.Source

open Native
open Text (OneLine oneLine_append oneLine_intercalate)

/-! ## Lines inside a body -/

/-- The text stands on one line and is more than an opening brace. -/
structure Inner (text : String) : Prop where
  oneLine : OneLine text
  ne_brace : text ≠ "\x7b"

instance (text : String) : Decidable (Inner text) :=
  decidable_of_iff (OneLine text ∧ text ≠ "\x7b") ⟨fun h => ⟨h.1, h.2⟩, fun h => ⟨h.1, h.2⟩⟩

/-- What ends a statement is inside a body. -/
theorem inner_of_end {s : String} (h : OneLine s) : Inner (s ++ ";") where
  oneLine := oneLine_append.mpr ⟨h, by decide⟩
  ne_brace heq := by
    have hlast : (s ++ ";").toList.getLast? = some ';' := by simp
    rw [heq] at hlast
    exact absurd hlast (by decide)

/-- What begins with more than a brace is inside a body. -/
theorem inner_of_begin {s t : String} (hs : OneLine s ∧ 1 < s.length) (ht : OneLine t) :
    Inner (s ++ t) where
  oneLine := oneLine_append.mpr ⟨hs.1, ht⟩
  ne_brace heq := by
    have hlength := congrArg String.length heq
    rw [String.length_append] at hlength
    have hbrace : "\x7b".length = 1 := rfl
    omega

theorem inner_close : Inner "\x7d" := by decide

theorem inner_else : Inner "\x7d else \x7b" := by decide

theorem inner_blank : Inner Line.blank.text := by decide

/-- A line inside a body is not shown like the opening of one. -/
theorem Inner.shown_ne {l : Line} (h : Inner l.text) (width : Nat) :
    l.shown width ≠ "\x7b" := by
  unfold Line.shown
  split
  · decide
  · -- either nothing stands before the text or a blank does
    cases hn : l.level * width with
    | zero =>
      rw [List.replicate_zero]
      intro heq
      exact h.ne_brace (by simpa using heq)
    | succ n =>
      intro heq
      have hhead := congrArg (fun s : String => s.toList.head?) heq
      rw [List.replicate_succ] at hhead
      simp at hhead

/-! ## Pieces of a line -/

/-- Data break no line: what breaks one in a text is escaped. -/
theorem oneLine_datum (d : Datum) : OneLine (datum d) := by
  cases d with
  | boolean b => cases b <;> decide
  | number x => exact Literal.oneLine_number .native x
  | string s =>
    exact oneLine_append.mpr ⟨oneLine_append.mpr ⟨by decide, Literal.oneLine_string .native s⟩,
      by decide⟩
  | entityId e =>
    rw [datum]
    split
    · decide
    · exact oneLine_append.mpr ⟨oneLine_append.mpr
        ⟨by decide, (Names.plain_repr e.val.toNat).oneLine⟩, by decide⟩
  | object o => exact (by decide : OneLine "canvasc::ObjectHandle\x7b\x7d")

theorem oneLine_operation (op : BinaryOp) {l r : String} (hl : OneLine l) (hr : OneLine r) :
    OneLine (operation op l r) := by
  have hop : OneLine (operator op) := by cases op <;> decide
  unfold operation
  split
  · simp only [oneLine_append]
    exact ⟨⟨⟨⟨by decide, hl⟩, by decide⟩, hr⟩, by decide⟩
  · simp only [oneLine_append]
    exact ⟨⟨⟨⟨⟨⟨by decide, hl⟩, by decide⟩, hop⟩, by decide⟩, hr⟩, by decide⟩

/-- The identifiers that a body can use stand on one line. -/
structure Context.Tidy (c : Context) : Prop where
  member : ∀ v, OneLine (c.names.member v)
  out : ∀ name, OneLine (c.names.out name)
  method : ∀ f, OneLine (methodName c.names f)
  param : ∀ i, OneLine (c.locals.params.getD i "\x7b\x7d")
  localName : ∀ i, OneLine (localName c.locals i)

section Body

variable {c : Context} (hc : c.Tidy)
include hc

/-- **Expressions break no line.** -/
theorem oneLine_expr : ∀ e : Expr, OneLine (expr c.names c.locals e)
  | .literal d => oneLine_datum d
  | .member v => hc.member v
  | .param i => hc.param i.toNat
  | .localVar i => hc.localName i
  | .binary op l r => oneLine_operation op (oneLine_expr l) (oneLine_expr r)
  | .not e | .negate e =>
      oneLine_append.mpr ⟨oneLine_append.mpr ⟨by decide, oneLine_expr e⟩, by decide⟩

/-- A name applied to arguments. -/
theorem oneLine_call {name : String} (h : OneLine name) (args : List Expr) :
    OneLine (name ++ "(" ++ commaList (args.map (expr c.names c.locals)) ++ ")") := by
  simp only [oneLine_append]
  exact ⟨⟨⟨h, by decide⟩,
    oneLine_commaList (List.forall_mem_map.mpr fun e _ => oneLine_expr hc e)⟩, by decide⟩

/-- Assignments break no line if what is assigned breaks none. -/
theorem oneLine_assign (results : List UInt16) {call : String} (h : OneLine call) :
    OneLine (assign c.locals results call) := by
  unfold assign
  split
  · exact h
  · simp only [oneLine_append]
    exact ⟨⟨hc.localName _, by decide⟩, h⟩
  · simp only [oneLine_append]
    exact ⟨⟨⟨by decide, oneLine_commaList (List.forall_mem_map.mpr fun i _ => hc.localName i)⟩,
      by decide⟩, h⟩

/-- A condition opens its block at the end of its line. -/
theorem inner_condition {word : String} (hword : OneLine word ∧ 1 < word.length) (e : Expr) :
    Inner (word ++ expr c.names c.locals e ++ ") \x7b") := by
  rw [String.append_assoc]
  exact inner_of_begin hword (oneLine_append.mpr ⟨oneLine_expr hc e, by decide⟩)

end Body

mutual

/-- **What a statement emits is inside the body.** -/
theorem inner_statement {c : Context} (hc : c.Tidy) (level : Nat) :
    ∀ s : Statement, ∀ l ∈ statement c level s, Inner l.text
  | .mk origin slot kind => by
      unfold statement
      refine List.forall_mem_append.mpr ⟨?_, inner_kindLines hc level kind⟩
      split
      · exact List.forall_mem_singleton.mpr
          (inner_of_begin (s := "// node ") (by decide) (Names.plain_repr origin.val.toNat).oneLine)
      · exact List.forall_mem_nil _

theorem inner_kindLines {c : Context} (hc : c.Tidy) (level : Nat) :
    ∀ k : StatementKind, ∀ l ∈ kindLines c level k, Inner l.text
  | .setMember v e => List.forall_mem_singleton.mpr (inner_of_end (by
      simp only [oneLine_append]
      exact ⟨⟨hc.member v, by decide⟩, oneLine_expr hc e⟩))
  | .setLocal i e => List.forall_mem_singleton.mpr (inner_of_end (by
      simp only [oneLine_append]
      exact ⟨⟨hc.localName i, by decide⟩, oneLine_expr hc e⟩))
  | .cond e t [] => by
      unfold kindLines
      exact List.forall_mem_append.mpr ⟨List.forall_mem_cons.mpr
        ⟨inner_condition hc (by decide) e, inner_block hc _ t⟩,
        List.forall_mem_singleton.mpr inner_close⟩
  | .cond e t (s :: r) => by
      unfold kindLines
      exact List.forall_mem_append.mpr ⟨List.forall_mem_append.mpr
        ⟨List.forall_mem_cons.mpr ⟨inner_condition hc (by decide) e, inner_block hc _ t⟩,
          List.forall_mem_cons.mpr ⟨inner_else, inner_block hc _ (s :: r)⟩⟩,
        List.forall_mem_singleton.mpr inner_close⟩
  | .loop e b => by
      unfold kindLines
      exact List.forall_mem_append.mpr ⟨List.forall_mem_cons.mpr
        ⟨inner_condition hc (by decide) e, inner_block hc _ b⟩,
        List.forall_mem_singleton.mpr inner_close⟩
  | .call id args results => List.forall_mem_singleton.mpr (by
      have hname : OneLine (((c.model.functionAt? id).map (methodName c.names)).getD
          "fn_unknown") := by
        cases c.model.functionAt? id with
        | none => exact (by decide : OneLine "fn_unknown")
        | some f => exact hc.method f
      exact inner_of_end (oneLine_assign hc results (oneLine_call hc hname args)))
  | .fire out args results => List.forall_mem_singleton.mpr (by
      simp only [String.append_assoc]
      refine inner_of_begin (s := "if (") (by decide) ?_
      have hcall := oneLine_assign hc results (oneLine_call hc (hc.out out) args)
      simp only [String.append_assoc] at hcall
      simp only [oneLine_append, hcall, hc.out out]
      decide)
  | .log e => List.forall_mem_singleton.mpr (by
      rw [String.append_assoc]
      exact inner_of_begin (by decide) (oneLine_append.mpr ⟨oneLine_expr hc e, by decide⟩))
  | .ret [] => List.forall_mem_singleton.mpr (inner_of_end (s := "return") (by decide))
  | .ret [v] => List.forall_mem_singleton.mpr
      (inner_of_end (oneLine_append.mpr ⟨by decide, oneLine_expr hc v⟩))
  | .ret (v :: w :: vs) => List.forall_mem_singleton.mpr (by
      rw [String.append_assoc]
      exact inner_of_begin (by decide) (oneLine_append.mpr ⟨oneLine_commaList
        (List.forall_mem_map.mpr fun e _ => oneLine_expr hc e), by decide⟩))
  | .script source => List.forall_mem_nil _

/-- What a block emits is inside the body. -/
theorem inner_block {c : Context} (hc : c.Tidy) (level : Nat) :
    ∀ body : List Statement, ∀ l ∈ block c level body, Inner l.text
  | [] => List.forall_mem_nil _
  | s :: r => List.forall_mem_append.mpr ⟨inner_statement hc level s, inner_block hc level r⟩

end

/-! ## Methods -/

/-- Methods have plain names. -/
theorem plain_methodName (m : Model) (f : FunctionDef) :
    Names.Plain (methodName (Names.ofModel m) f) := by
  unfold methodName
  cases h : (Names.ofModel m).function? f.id with
  | none => exact Names.plain_append.mpr ⟨by decide, Names.plain_cleanName f.name⟩
  | some own => exact (Names.plain_of_function? h).1

/-- The names of a function that the model has are plain. -/
theorem tidy_of_function? {m : Model} {id : FunctionId} {own : Names.Function}
    (h : (Names.ofModel m).function? id = some own) (comments : Bool) :
    Context.Tidy ⟨m, Names.ofModel m, comments, own⟩ where
  member v := (Names.plain_member m v).oneLine
  out name := (Names.plain_out m name).oneLine
  method f := (plain_methodName m f).oneLine
  param := Script.oneLine_getD (Names.plain_of_function? h).2.1 (by decide)
  localName i := Script.oneLine_getD (Names.plain_of_function? h).2.2 (by decide) i.toNat

theorem inner_localLine (l : Param) {name : String} (h : Names.Plain name) :
    Inner (localLine l name).text := by
  have hbefore : OneLine (type l.dataType ++ " " ++ name) := oneLine_append.mpr
    ⟨oneLine_append.mpr ⟨(Header.bare_type l.dataType).1, by decide⟩, h.oneLine⟩
  unfold localLine
  cases Datum.default? l.dataType with
  | none => exact inner_of_end (oneLine_append.mpr ⟨hbefore, by decide⟩)
  | some d =>
    exact inner_of_end (oneLine_append.mpr
      ⟨hbefore, oneLine_append.mpr ⟨by decide, oneLine_datum d⟩⟩)

/-- **A method is its signature, a brace, and lines inside its body.** -/
theorem exists_body {m : Model} {f : FunctionDef} (hf : f ∈ m.functions) (o : Options) :
    ∃ body : List Line, (∀ l ∈ body, Inner l.text) ∧ function m (Names.ofModel m) o f =
      ⟨0, signature (Names.ofModel m) ((Names.ofModel m).className ++ "::") f, none⟩ ::
        ⟨0, "\x7b", none⟩ :: body := by
  obtain ⟨own, hown⟩ := Option.isSome_iff_exists.mp
    (Names.isSome_function?.mpr (List.mem_map_of_mem (f := (·.id)) hf))
  -- all that follows the brace: locals, statements, and the end of the method
  have hlocals : ∀ l ∈ (f.locals.zip own.locals).map fun e => localLine e.1 e.2,
      Inner l.text := List.forall_mem_map.mpr fun e he =>
    inner_localLine e.1 ((Names.plain_of_function? hown).2.2 _ (List.of_mem_zip he).2)
  have hblock := inner_block (tidy_of_function? hown o.nodeComments) 1 f.body
  have hend : ∀ l ∈ [⟨0, "\x7d", none⟩, Line.blank], Inner l.text :=
    List.forall_mem_cons.mpr ⟨inner_close, List.forall_mem_singleton.mpr inner_blank⟩
  refine ⟨_, List.forall_mem_append.mpr ⟨List.forall_mem_append.mpr ⟨hlocals, hblock⟩, hend⟩, ?_⟩
  rw [function, hown]
  rfl

/-- Native source was emitted where nothing is unsupported, from collected inputs. -/
theorem emit_eq_ok_iff {m : Model} {o : Options} {e : Emission} :
    emit m o = .ok e ↔ unsupported m = [] ∧ ∃ inputs,
      RuntimeInputs.ofModel m .compiled = .ok inputs ∧
      e = { text := Code.text o.indentWidth (lines m o), runtimeInputs := inputs } := by
  unfold emit Emission.inputs
  cases unsupported m with
  | cons error errors => simp [throw, throwThe, MonadExceptOf.throw]
  | nil =>
    cases RuntimeInputs.ofModel m .compiled with
    | error => simp [bind, Except.bind]
    | ok inputs => simp [bind, Except.bind, pure, Except.pure, eq_comm]

end GraphScript.Emit.Source
