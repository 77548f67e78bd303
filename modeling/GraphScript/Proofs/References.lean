import GraphScript.Proofs.Validity

/-!
# Proofs/References — what bodies refer to

A statement refers to member variables and functions by key, to out-events by name, and to the
parameters and locals of its function by position.  In a valid model each of them is declared, at
whatever depth the statement is nested (`Valid.declared`).
-/

namespace GraphScript

/-- What a part of a body refers to. -/
inductive Reference where
  | member (id : VariableId)
  | param (index : UInt16)
  | localVar (index : UInt16)
  | function (id : FunctionId)
  | out (name : String)

/-- What an expression refers to. -/
def Expr.references : Expr → List Reference
  | .literal _ => []
  | .member v => [.member v]
  | .param i => [.param i]
  | .localVar i => [.localVar i]
  | .binary _ l r => l.references ++ r.references
  | .not e => e.references
  | .negate e => e.references

/-- What a statement itself refers to, without what nested statements do. -/
def Statement.references (s : Statement) : List Reference :=
  s.expressions.flatMap Expr.references ++
    match s.kind with
    | .setMember v _ => [.member v]
    | .setLocal i _ => [.localVar i]
    | .call id _ results => .function id :: results.map .localVar
    | .fire out _ results => .out out :: results.map .localVar
    | .cond _ _ _ | .loop _ _ | .log _ | .ret _ | .script _ => []

theorem Statement.mem_references {s : Statement} {e : Expr} {r : Reference}
    (he : e ∈ s.expressions) (hr : r ∈ e.references) : r ∈ s.references :=
  List.mem_append_left _ (List.mem_flatMap.mpr ⟨e, he, hr⟩)

/-- There is such a declaration for the body of `f`. -/
def Reference.Declared (m : Model) (f : FunctionDef) : Reference → Prop
  | .member v => (m.variableAt? v).isSome
  | .param i => i.toNat < f.params.length
  | .localVar i => i.toNat < f.locals.length
  | .function id => (m.functionAt? id).isSome
  | .out name => (m.outEvent? name).isSome

namespace Model

variable {m : Model} {f : FunctionDef} {node : NodeId}

theorem memberProblems_eq_nil {v : VariableId} :
    m.memberProblems node v = [] ↔ (m.variableAt? v).isSome := by
  unfold memberProblems
  split <;> simp_all

theorem localProblems_eq_nil {i : UInt16} :
    localProblems f node i = [] ↔ i.toNat < f.locals.length := by
  unfold localProblems
  split <;> simp_all

/-- In an expression without problems, all that is referred to is declared. -/
theorem declared_of_expr : ∀ {e : Expr}, (∀ part ∈ e.walk, m.exprProblems f node part = []) →
    ∀ r ∈ e.references, r.Declared m f
  | .literal _, _ => nofun
  | .member v, h => List.forall_mem_singleton.mpr
      (memberProblems_eq_nil.mp (h (.member v) List.mem_cons_self))
  | .param i, h => by
      have hi := h (.param i) List.mem_cons_self
      rw [exprProblems] at hi
      split at hi
      · exact List.forall_mem_singleton.mpr ‹_›
      · cases hi
  | .localVar i, h => List.forall_mem_singleton.mpr
      (localProblems_eq_nil.mp (h (.localVar i) List.mem_cons_self))
  | .binary _ l r, h => by
      obtain ⟨hl, hr⟩ := List.forall_mem_append.mp
        (List.forall_mem_cons.mp (by rwa [Expr.walk, List.cons_append] at h)).2
      exact List.forall_mem_append.mpr ⟨declared_of_expr hl, declared_of_expr hr⟩
  | .not e, h => declared_of_expr (e := e) (List.forall_mem_cons.mp h).2
  | .negate e, h => declared_of_expr (e := e) (List.forall_mem_cons.mp h).2

theorem declared_of_results {results : List UInt16}
    (h : results.flatMap (localProblems f node) = []) :
    ∀ r ∈ results.map Reference.localVar, r.Declared m f := by
  refine List.forall_mem_map.mpr fun i hi => ?_
  exact localProblems_eq_nil.mp (List.flatMap_eq_nil_iff.mp h i hi)

/-- In a statement without problems, all that is referred to is declared. -/
theorem declared_of_statement {s : Statement} (h : m.statementProblems f s = []) :
    ∀ r ∈ s.references, r.Declared m f := by
  rw [statementProblems, List.append_eq_nil_iff, List.flatMap_eq_nil_iff] at h
  obtain ⟨hexprs, hkind⟩ := h
  refine List.forall_mem_append.mpr ⟨fun r hr => ?_, ?_⟩
  · obtain ⟨e, he, hr⟩ := List.mem_flatMap.mp hr
    exact declared_of_expr
      (fun part hpart => hexprs part (List.mem_flatMap.mpr ⟨e, he, hpart⟩)) r hr
  · split
    · rename_i hk
      rw [hk] at hkind
      exact List.forall_mem_singleton.mpr (memberProblems_eq_nil.mp hkind)
    · rename_i hk
      rw [hk] at hkind
      exact List.forall_mem_singleton.mpr (localProblems_eq_nil.mp hkind)
    · rename_i id _ _ hk
      rw [hk] at hkind
      obtain ⟨hresults, hcallee⟩ := List.append_eq_nil_iff.mp hkind
      refine List.forall_mem_cons.mpr ⟨?_, declared_of_results hresults⟩
      cases hat : m.functionAt? id with
      | some callee => exact Option.isSome_iff_exists.mpr ⟨callee, hat⟩
      | none => rw [hat] at hcallee; cases hcallee
    · rename_i out _ _ hk
      rw [hk] at hkind
      obtain ⟨hresults, hout⟩ := List.append_eq_nil_iff.mp hkind
      refine List.forall_mem_cons.mpr ⟨?_, declared_of_results hresults⟩
      cases hat : m.outEvent? out with
      | some event => exact Option.isSome_iff_exists.mpr ⟨event, hat⟩
      | none => rw [hat] at hout; cases hout
    all_goals exact List.forall_mem_nil _

/-- **In a valid model everything that is referred to is declared.** -/
theorem Valid.declared (hv : m.Valid) (hf : f ∈ m.functions) {s : Statement}
    (hs : s ∈ Statement.walkAll f.body) : ∀ r ∈ s.references, r.Declared m f :=
  declared_of_statement (hv.statements f hf s hs)

/-- In particular, a call goes to a function. -/
theorem Valid.exists_callee (hv : m.Valid) (hf : f ∈ m.functions) {s : Statement}
    (hs : s ∈ Statement.walkAll f.body) {id : FunctionId} {args : List Expr}
    {results : List UInt16} (hk : s.kind = .call id args results) :
    ∃ callee, m.functionAt? id = some callee := by
  have href : .function id ∈ s.references := by
    rw [Statement.references, hk]
    exact List.mem_append_right _ List.mem_cons_self
  exact Option.isSome_iff_exists.mp (hv.declared hf hs _ href)

end Model

end GraphScript
