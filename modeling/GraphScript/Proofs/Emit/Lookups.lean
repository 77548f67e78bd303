import GraphScript.Emit.Script
import GraphScript.Emit.Source
import GraphScript.Proofs.References

/-!
# Proofs/Emit/Lookups — what emission looks up

Emission turns the references of a body into identifiers by looking them up, and writes a
placeholder for what it does not find.  `Context.Finds` says that a reference is found, for the
interpreted target and for the native source.  Where all references of a body are found, its text is
the same for every larger table of identifiers (`Script.block_eq`, `Source.block_eq`): no
placeholder stands in it, since a larger table could fill its place.
-/

namespace GraphScript

/-! ## Larger tables -/

namespace Names

/-- Every identifier of the one table is in the other. -/
structure Extends (n n' : Names) : Prop where
  className : n'.className = n.className
  member? : ∀ v name, n.member? v = some name → n'.member? v = some name
  out? : ∀ out name, n.out? out = some name → n'.out? out = some name
  function? : ∀ id own, n.function? id = some own → n'.function? id = some own

/-- The other function has the same parameters and locals, and may have more after them. -/
structure Function.Extends (f f' : Function) : Prop where
  params : f.params <+: f'.params
  locals : f.locals <+: f'.locals

variable {n n' : Names} (h : n.Extends n')

include h

/-- A larger table gives a member the name that it had. -/
theorem Extends.member_eq {v : VariableId} (hv : (n.member? v).isSome) :
    n'.member v = n.member v := by
  obtain ⟨name, hname⟩ := Option.isSome_iff_exists.mp hv
  rw [member, member, hname, h.member? v name hname]

theorem Extends.out_eq {out : String} (hout : (n.out? out).isSome) : n'.out out = n.out out := by
  obtain ⟨name, hname⟩ := Option.isSome_iff_exists.mp hout
  rw [Names.out, Names.out, hname, h.out? out name hname]

theorem Extends.function?_eq {id : FunctionId} (hid : (n.function? id).isSome) :
    n'.function? id = n.function? id := by
  obtain ⟨own, hown⟩ := Option.isSome_iff_exists.mp hid
  rw [hown, h.function? id own hown]

end Names

/-- A longer list has the items of the shorter one. -/
theorem getD_of_isPrefix {l l' : List String} (h : l <+: l') {i : Nat} (hi : i < l.length)
    (d : String) : l'.getD i d = l.getD i d := by
  obtain ⟨r, rfl⟩ := h
  rw [List.getD_eq_getElem?_getD, List.getElem?_append_left hi, ← List.getD_eq_getElem?_getD]

namespace Emit

/-- A local that a function has is called the same in one with more locals. -/
theorem localName_eq {own own' : Names.Function} (h : own.Extends own') {i : UInt16}
    (hi : i.toNat < own.locals.length) : localName own' i = localName own i :=
  getD_of_isPrefix h.locals hi _

/-- Whether a reference is found, given what it takes to find a function and an out-event. -/
def Found (names : Names) (own : Names.Function) (function : FunctionId → Prop)
    (out : String → Prop) : Reference → Prop
  | .member v => (names.member? v).isSome
  | .param i => i.toNat < own.params.length
  | .localVar i => i.toNat < own.locals.length
  | .function id => function id
  | .out name => out name

/-! ## The interpreted target -/

namespace Script

/-- Entries are called by name, and out-events are fired by name. -/
def Context.Finds (c : Context) : Reference → Prop :=
  Found c.names c.locals
    (fun id => (∃ f, c.model.functionAt? id = some f ∧ f.kind = .entry) ∨
      (c.names.function? id).isSome)
    fun _ => True

/-- The other context has larger tables and is the same otherwise. -/
structure Context.Extends (c c' : Context) : Prop where
  model : c'.model = c.model
  nodeComments : c'.nodeComments = c.nodeComments
  function : c'.function = c.function
  names : c.names.Extends c'.names
  locals : c.locals.Extends c'.locals

section Values

variable {c c' : Context} (hc : c.Extends c')

include hc

/-- Assignments are the same with a larger table. -/
theorem assign_eq {results : List UInt16} (h : ∀ r ∈ results.map Reference.localVar, c.Finds r)
    (call : String) : assign c'.locals results call = assign c.locals results call := by
  have hmap : results.map (localName c'.locals) = results.map (localName c.locals) :=
    List.map_congr_left fun _ hi => localName_eq hc.locals (List.forall_mem_map.mp h _ hi)
  rw [assign, assign, hmap]

theorem expr_eq : ∀ {e : Expr}, (∀ r ∈ e.references, c.Finds r) →
    expr c'.names c'.locals e = expr c.names c.locals e
  | .literal _, _ => rfl
  | .member v, h => by rw [expr, expr, hc.names.member_eq (h (.member v) List.mem_cons_self)]
  | .param i, h => getD_of_isPrefix hc.locals.params (h (.param i) List.mem_cons_self) _
  | .localVar i, h => localName_eq hc.locals (h (.localVar i) List.mem_cons_self)
  | .binary _ l r, h => by
      obtain ⟨hl, hr⟩ := List.forall_mem_append.mp h
      rw [expr, expr, expr_eq hl, expr_eq hr]
  | .not e, h => by rw [expr, expr, expr_eq (e := e) h]
  | .negate e, h => by rw [expr, expr, expr_eq (e := e) h]

theorem expr_eq_of_mem {s : Statement} (h : ∀ r ∈ s.references, c.Finds r) :
    ∀ e ∈ s.expressions, expr c'.names c'.locals e = expr c.names c.locals e := fun _ he =>
  expr_eq hc fun r hr => h r (Statement.mem_references he hr)

theorem callee_eq {id : FunctionId} (h : c.Finds (.function id)) :
    callee c'.model c'.names id = callee c.model c.names id := by
  rcases h with ⟨f, hat, hentry⟩ | hid
  · simp only [callee, hc.model, hat, hentry, hc.names.className]
  · simp only [callee, hc.model, hc.names.className, hc.names.function?_eq hid]

end Values

mutual

/-- **A statement that finds all its names emits the same with a larger table.** -/
theorem statement_eq {c c' : Context} (hc : c.Extends c') (level : Nat) (isLast : Bool) :
    ∀ s : Statement, (∀ t ∈ s.walk, ∀ r ∈ t.references, c.Finds r) →
      statement c' level isLast s = statement c level isLast s
  | .mk origin slot kind, h => by
      obtain ⟨hown, hnested⟩ := List.forall_mem_cons.mp h
      rw [statement, statement, hc.nodeComments, hc.function,
        kindLines_eq hc level isLast _ kind origin slot hown hnested]

theorem kindLines_eq {c c' : Context} (hc : c.Extends c') (level : Nat) (isLast : Bool)
    (symbol : DebugSymbol) :
    ∀ (k : StatementKind) (origin : NodeId) (slot : Option SlotId),
      (∀ r ∈ (Statement.mk origin slot k).references, c.Finds r) →
      (∀ t ∈ Statement.walkKind k, ∀ r ∈ t.references, c.Finds r) →
      kindLines c' level isLast symbol k = kindLines c level isLast symbol k
  | .setMember v e, _, _ => fun hown _ => by
      have he := expr_eq_of_mem hc hown e List.mem_cons_self
      have hv : c.Finds (.member v) := hown _ (List.mem_append_right _ List.mem_cons_self)
      rw [kindLines, kindLines, he, hc.names.member_eq hv]
  | .setLocal i e, _, _ => fun hown _ => by
      have he := expr_eq_of_mem hc hown e List.mem_cons_self
      have hi : c.Finds (.localVar i) := hown _ (List.mem_append_right _ List.mem_cons_self)
      rw [kindLines, kindLines, he, localName_eq hc.locals hi]
  | .cond e t [], _, _ => fun hown hnested => by
      have he := expr_eq_of_mem hc hown e List.mem_cons_self
      have ht := block_eq hc (level + 1) t (List.forall_mem_append.mp hnested).1
      rw [kindLines, kindLines, he, ht]
  | .cond e t (s :: r), _, _ => fun hown hnested => by
      obtain ⟨ht, hr⟩ := List.forall_mem_append.mp hnested
      have he := expr_eq_of_mem hc hown e List.mem_cons_self
      rw [kindLines, kindLines, he, block_eq hc (level + 1) t ht,
        block_eq hc (level + 1) (s :: r) hr]
  | .loop e b, _, _ => fun hown hnested => by
      have he := expr_eq_of_mem hc hown e List.mem_cons_self
      rw [kindLines, kindLines, he, block_eq hc (level + 1) b hnested]
  | .call id args results, _, _ => fun hown _ => by
      have hargs : args.map (expr c'.names c'.locals) = args.map (expr c.names c.locals) :=
        List.map_congr_left (expr_eq_of_mem hc hown)
      obtain ⟨hid, hresults⟩ := List.forall_mem_cons.mp (List.forall_mem_append.mp hown).2
      rw [kindLines, kindLines, hargs, callee_eq hc hid, assign_eq hc hresults]
  | .fire out args results, _, _ => fun hown _ => by
      have hargs : args.map (expr c'.names c'.locals) = args.map (expr c.names c.locals) :=
        List.map_congr_left (expr_eq_of_mem hc hown)
      have hresults := (List.forall_mem_cons.mp (List.forall_mem_append.mp hown).2).2
      rw [kindLines, kindLines, hargs, assign_eq hc hresults]
  | .log e, _, _ => fun hown _ => by
      rw [kindLines, kindLines, expr_eq_of_mem hc hown e List.mem_cons_self]
  | .ret [], _, _ => fun _ _ => rfl
  | .ret (v :: vs), _, _ => fun hown _ => by
      have hvalues : (v :: vs).map (expr c'.names c'.locals) =
          (v :: vs).map (expr c.names c.locals) :=
        List.map_congr_left (expr_eq_of_mem hc hown)
      simp only [kindLines, hvalues]
  | .script _, _, _ => fun _ _ => rfl

/-- A block that finds all its names emits the same with a larger table. -/
theorem block_eq {c c' : Context} (hc : c.Extends c') (level : Nat) :
    ∀ body : List Statement, (∀ t ∈ Statement.walkAll body, ∀ r ∈ t.references, c.Finds r) →
      block c' level body = block c level body
  | [], _ => rfl
  | s :: body, h => by
      obtain ⟨hs, hbody⟩ := List.forall_mem_append.mp h
      rw [block, block, statement_eq hc level _ s hs, block_eq hc level body hbody]

end

end Script

/-! ## The native source -/

namespace Source

open Native (methodName)

/-- Functions are called by the identifier of what stands under the key. -/
def Context.Finds (c : Context) : Reference → Prop :=
  Found c.names c.locals
    (fun id => ∃ f, c.model.functionAt? id = some f ∧ (c.names.function? f.id).isSome)
    fun name => (c.names.out? name).isSome

/-- The other context has larger tables and is the same otherwise. -/
structure Context.Extends (c c' : Context) : Prop where
  model : c'.model = c.model
  nodeComments : c'.nodeComments = c.nodeComments
  names : c.names.Extends c'.names
  locals : c.locals.Extends c'.locals

section Values

variable {c c' : Context} (hc : c.Extends c')

include hc

/-- Assignments are the same with a larger table. -/
theorem assign_eq {results : List UInt16} (h : ∀ r ∈ results.map Reference.localVar, c.Finds r)
    (call : String) : assign c'.locals results call = assign c.locals results call := by
  have hlocal : ∀ i ∈ results, localName c'.locals i = localName c.locals i :=
    fun i hi => localName_eq hc.locals (List.forall_mem_map.mp h i hi)
  unfold assign
  split
  · rfl
  · rw [hlocal _ List.mem_cons_self]
  · rw [List.map_congr_left hlocal]

theorem expr_eq : ∀ {e : Expr}, (∀ r ∈ e.references, c.Finds r) →
    expr c'.names c'.locals e = expr c.names c.locals e
  | .literal _, _ => rfl
  | .member v, h => hc.names.member_eq (h (.member v) List.mem_cons_self)
  | .param i, h => getD_of_isPrefix hc.locals.params (h (.param i) List.mem_cons_self) _
  | .localVar i, h => localName_eq hc.locals (h (.localVar i) List.mem_cons_self)
  | .binary _ l r, h => by
      obtain ⟨hl, hr⟩ := List.forall_mem_append.mp h
      rw [expr, expr, expr_eq hl, expr_eq hr]
  | .not e, h => by rw [expr, expr, expr_eq (e := e) h]
  | .negate e, h => by rw [expr, expr, expr_eq (e := e) h]

theorem expr_eq_of_mem {s : Statement} (h : ∀ r ∈ s.references, c.Finds r) :
    ∀ e ∈ s.expressions, expr c'.names c'.locals e = expr c.names c.locals e := fun _ he =>
  expr_eq hc fun r hr => h r (Statement.mem_references he hr)

theorem callee_eq {id : FunctionId} (h : c.Finds (.function id)) :
    (c'.model.functionAt? id).map (methodName c'.names) =
      (c.model.functionAt? id).map (methodName c.names) := by
  obtain ⟨f, hat, hid⟩ := h
  rw [hc.model, hat, Option.map_some, Option.map_some, methodName, methodName,
    hc.names.function?_eq hid]

end Values

mutual

/-- **A statement that finds all its names emits the same with a larger table.** -/
theorem statement_eq {c c' : Context} (hc : c.Extends c') (level : Nat) :
    ∀ s : Statement, (∀ t ∈ s.walk, ∀ r ∈ t.references, c.Finds r) →
      statement c' level s = statement c level s
  | .mk origin slot kind, h => by
      obtain ⟨hown, hnested⟩ := List.forall_mem_cons.mp h
      rw [statement, statement, hc.nodeComments,
        kindLines_eq hc level kind origin slot hown hnested]

theorem kindLines_eq {c c' : Context} (hc : c.Extends c') (level : Nat) :
    ∀ (k : StatementKind) (origin : NodeId) (slot : Option SlotId),
      (∀ r ∈ (Statement.mk origin slot k).references, c.Finds r) →
      (∀ t ∈ Statement.walkKind k, ∀ r ∈ t.references, c.Finds r) →
      kindLines c' level k = kindLines c level k
  | .setMember v e, _, _ => fun hown _ => by
      have he := expr_eq_of_mem hc hown e List.mem_cons_self
      have hv : c.Finds (.member v) := hown _ (List.mem_append_right _ List.mem_cons_self)
      rw [kindLines, kindLines, he, hc.names.member_eq hv]
  | .setLocal i e, _, _ => fun hown _ => by
      have he := expr_eq_of_mem hc hown e List.mem_cons_self
      have hi : c.Finds (.localVar i) := hown _ (List.mem_append_right _ List.mem_cons_self)
      rw [kindLines, kindLines, he, localName_eq hc.locals hi]
  | .cond e t [], _, _ => fun hown hnested => by
      have he := expr_eq_of_mem hc hown e List.mem_cons_self
      have ht := block_eq hc (level + 1) t (List.forall_mem_append.mp hnested).1
      rw [kindLines, kindLines, he, ht]
  | .cond e t (s :: r), _, _ => fun hown hnested => by
      obtain ⟨ht, hr⟩ := List.forall_mem_append.mp hnested
      have he := expr_eq_of_mem hc hown e List.mem_cons_self
      rw [kindLines, kindLines, he, block_eq hc (level + 1) t ht,
        block_eq hc (level + 1) (s :: r) hr]
  | .loop e b, _, _ => fun hown hnested => by
      have he := expr_eq_of_mem hc hown e List.mem_cons_self
      rw [kindLines, kindLines, he, block_eq hc (level + 1) b hnested]
  | .call id args results, _, _ => fun hown _ => by
      have hargs : args.map (expr c'.names c'.locals) = args.map (expr c.names c.locals) :=
        List.map_congr_left (expr_eq_of_mem hc hown)
      obtain ⟨hid, hresults⟩ := List.forall_mem_cons.mp (List.forall_mem_append.mp hown).2
      rw [kindLines, kindLines, hargs, callee_eq hc hid, assign_eq hc hresults]
  | .fire out args results, _, _ => fun hown _ => by
      have hargs : args.map (expr c'.names c'.locals) = args.map (expr c.names c.locals) :=
        List.map_congr_left (expr_eq_of_mem hc hown)
      obtain ⟨hout, hresults⟩ := List.forall_mem_cons.mp (List.forall_mem_append.mp hown).2
      rw [kindLines, kindLines, hargs, hc.names.out_eq hout, assign_eq hc hresults]
  | .log e, _, _ => fun hown _ => by
      rw [kindLines, kindLines, expr_eq_of_mem hc hown e List.mem_cons_self]
  | .ret [], _, _ => fun _ _ => rfl
  | .ret [v], _, _ => fun hown _ => by
      rw [kindLines, kindLines, expr_eq_of_mem hc hown v List.mem_cons_self]
  | .ret (v :: w :: vs), _, _ => fun hown _ => by
      have hvalues : (v :: w :: vs).map (expr c'.names c'.locals) =
          (v :: w :: vs).map (expr c.names c.locals) :=
        List.map_congr_left (expr_eq_of_mem hc hown)
      simp only [kindLines, hvalues]
  | .script _, _, _ => fun _ _ => rfl

/-- A block that finds all its names emits the same with a larger table. -/
theorem block_eq {c c' : Context} (hc : c.Extends c') (level : Nat) :
    ∀ body : List Statement, (∀ t ∈ Statement.walkAll body, ∀ r ∈ t.references, c.Finds r) →
      block c' level body = block c level body
  | [], _ => rfl
  | s :: body, h => by
      obtain ⟨hs, hbody⟩ := List.forall_mem_append.mp h
      rw [block, block, statement_eq hc level s hs, block_eq hc level body hbody]

end

end Source

end Emit

end GraphScript
