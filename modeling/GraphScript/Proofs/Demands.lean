import GraphScript.Model.Interface
import GraphScript.Proofs.Nesting
import GraphScript.Proofs.References
import Mathlib.Data.List.Forall2

/-!
# Proofs/Demands — what bodies ask of a model

A statement makes demands on the model and on the function it stands in: what it refers to is
declared, counts fit the signature they go with, and no literal is a host object.  `Expr.demands` and
`StatementKind.demands` read them off the trees, `Model.occurrences` lists them for every body at
every depth, each with the node of its statement.

The problems that name a node are those of the demands that are not met, one for each and in the
order of the text (`Model.accounted_problems`), so that no demand hides another.
-/

namespace GraphScript

/-- Whether a value is a host object. -/
def Datum.isObject : Datum → Bool
  | .object _ => true
  | .boolean _ | .number _ | .string _ | .entityId _ => false

/-- Something that a part of a body asks for. -/
inductive Demand where
  /-- What is referred to is declared. -/
  | declared (r : Reference)
  /-- A literal is not a host object. -/
  | literal (d : Datum)
  /-- What is called takes so many arguments. -/
  | arguments (r : Reference) (count : Nat)
  /-- What is called gives at least so many results. -/
  | results (r : Reference) (count : Nat)
  /-- The function gives so many results. -/
  | returns (count : Nat)

/-- What an expression and its parts ask for. -/
def Expr.demands : Expr → List Demand
  | .literal d => [.literal d]
  | .member v => [.declared (.member v)]
  | .param i => [.declared (.param i)]
  | .localVar i => [.declared (.localVar i)]
  | .binary _ l r => l.demands ++ r.demands
  | .not e => e.demands
  | .negate e => e.demands

namespace StatementKind

/-- What a call asks of its target. -/
def targetDemands (r : Reference) (args : List Expr) (results : List UInt16) : List Demand :=
  [.declared r, .arguments r args.length, .results r results.length]

/-- What a call of `r` asks for, whether of a function or of whoever handles an out-event. -/
def callDemands (r : Reference) (args : List Expr) (results : List UInt16) : List Demand :=
  args.flatMap Expr.demands ++ results.map (fun i => .declared (.localVar i)) ++
    targetDemands r args results

/-- What a statement itself asks for, without what nested statements do. -/
def demands : StatementKind → List Demand
  | .setMember v e => e.demands ++ [.declared (.member v)]
  | .setLocal i e => e.demands ++ [.declared (.localVar i)]
  | .cond c _ _ => c.demands
  | .loop c _ => c.demands
  | .call id args results => callDemands (.function id) args results
  | .fire out args results => callDemands (.out out) args results
  | .log e => e.demands
  | .ret values => values.flatMap Expr.demands ++ [.returns values.length]
  | .script _ => []

end StatementKind

/-- A demand, the node of the statement that makes it and the function that this stands in. -/
structure Occurrence where
  function : FunctionDef
  node : NodeId
  demand : Demand

mutual

/-- The demands of a statement and of those nested in it. -/
def Statement.occurrences (f : FunctionDef) : Statement → List Occurrence
  | .mk origin _ kind => kind.demands.map (.mk f origin) ++ StatementKind.inside f kind

/-- The demands of the statements nested in one of that kind. -/
def StatementKind.inside (f : FunctionDef) : StatementKind → List Occurrence
  | .cond _ t e => Statement.allOccurrences f t ++ Statement.allOccurrences f e
  | .loop _ b => Statement.allOccurrences f b
  | .setMember _ _ | .setLocal _ _ | .call _ _ _ | .fire _ _ _ | .log _ | .ret _ | .script _ => []

/-- The demands of a body. -/
def Statement.allOccurrences (f : FunctionDef) : List Statement → List Occurrence
  | [] => []
  | s :: rest => s.occurrences f ++ Statement.allOccurrences f rest

end

/-- The demands of all bodies, in the order of the text. -/
def Model.occurrences (m : Model) : List Occurrence :=
  m.functions.flatMap fun f => Statement.allOccurrences f f.body

/-! ## What it takes to meet a demand -/

/-- The signature of what a reference calls. -/
def Model.signature? (m : Model) : Reference → Option Signature
  | .function id => (m.functionAt? id).map fun f => ⟨f.name, f.params, f.returns⟩
  | .out name => (m.outEvent? name).map fun d => ⟨d.name, d.params, d.returns⟩
  | .member _ | .param _ | .localVar _ => none

instance Reference.decidableDeclared (m : Model) (f : FunctionDef) :
    (r : Reference) → Decidable (r.Declared m f)
  | .member v => inferInstanceAs (Decidable ((m.variableAt? v).isSome = true))
  | .param i => inferInstanceAs (Decidable (i.toNat < f.params.length))
  | .localVar i => inferInstanceAs (Decidable (i.toNat < f.locals.length))
  | .function id => inferInstanceAs (Decidable ((m.functionAt? id).isSome = true))
  | .out name => inferInstanceAs (Decidable ((m.outEvent? name).isSome = true))

/-- The demand is met in the body of `f`.  Counts can only fail to fit a signature that there is. -/
def Demand.Met (m : Model) (f : FunctionDef) : Demand → Prop
  | .declared r => r.Declared m f
  | .literal d => d.isObject = false
  | .arguments r count => ∀ g ∈ m.signature? r, count = g.params.length
  | .results r count => ∀ g ∈ m.signature? r, count ≤ g.returns.length
  | .returns count => count = f.returns.length

instance Demand.decidableMet (m : Model) (f : FunctionDef) : (d : Demand) → Decidable (d.Met m f)
  | .declared r => inferInstanceAs (Decidable (r.Declared m f))
  | .literal d => inferInstanceAs (Decidable (d.isObject = false))
  | .arguments r count =>
    inferInstanceAs (Decidable (∀ g ∈ m.signature? r, count = g.params.length))
  | .results r count =>
    inferInstanceAs (Decidable (∀ g ∈ m.signature? r, count ≤ g.returns.length))
  | .returns count => inferInstanceAs (Decidable (count = f.returns.length))

/-- The demands among these that are not met. -/
def Model.unmet (m : Model) (os : List Occurrence) : List Occurrence :=
  os.filter fun o => ¬ o.demand.Met m o.function

/-- The problem says which demand is not met, and at which node. -/
inductive Reported (m : Model) : Occurrence → Problem → Prop
  | member {f : FunctionDef} {node : NodeId} (v : VariableId) :
      Reported m ⟨f, node, .declared (.member v)⟩ (.unknownMember node v)
  | param {f : FunctionDef} {node : NodeId} (i : UInt16) :
      Reported m ⟨f, node, .declared (.param i)⟩ (.unknownParam node f.name i)
  | localVar {f : FunctionDef} {node : NodeId} (i : UInt16) :
      Reported m ⟨f, node, .declared (.localVar i)⟩ (.unknownLocal node f.name i)
  | function {f : FunctionDef} {node : NodeId} (id : FunctionId) :
      Reported m ⟨f, node, .declared (.function id)⟩ (.unknownFunction node id)
  | out {f : FunctionDef} {node : NodeId} (name : String) :
      Reported m ⟨f, node, .declared (.out name)⟩ (.unknownOut node name)
  | literal {f : FunctionDef} {node : NodeId} (d : Datum) :
      Reported m ⟨f, node, .literal d⟩ (.objectLiteral node)
  | arguments {f : FunctionDef} {node : NodeId} {r : Reference} {g : Signature} (count : Nat)
      (hg : m.signature? r = some g) :
      Reported m ⟨f, node, .arguments r count⟩ (.arity node g.name .arguments g.params.length count)
  | results {f : FunctionDef} {node : NodeId} {r : Reference} {g : Signature} (count : Nat)
      (hg : m.signature? r = some g) :
      Reported m ⟨f, node, .results r count⟩ (.arity node g.name .results g.returns.length count)
  | returns {f : FunctionDef} {node : NodeId} (count : Nat) :
      Reported m ⟨f, node, .returns count⟩ (.arity node f.name .returnValues f.returns.length count)

/-- The node that a problem was found at. -/
def Problem.node? : Problem → Option NodeId
  | .unknownMember node _ | .unknownParam node _ _ | .unknownLocal node _ _
  | .unknownFunction node _ | .unknownOut node _ | .arity node _ _ _ _ | .objectLiteral node =>
    some node
  | .initializerType _ _ _ | .nodeableNotObject _ _ | .duplicateFunctionName _
  | .recursiveCall _ => none

/-- A report names the node of the statement. -/
theorem Reported.node?_eq {m : Model} {o : Occurrence} {p : Problem} (h : Reported m o p) :
    p.node? = some o.node := by
  cases h <;> rfl

/-! ## One problem for each demand that is not met -/

/-- The problems are those of the demands that are not met, one for each. -/
def Accounted (m : Model) (os : List Occurrence) (ps : List Problem) : Prop :=
  List.Forall₂ (Reported m) (m.unmet os) ps

namespace Accounted

variable {m : Model} {o : Occurrence} {os os' : List Occurrence} {p : Problem} {ps ps' : List Problem}

theorem nil : Accounted m [] [] := List.Forall₂.nil

/-- A demand that is met needs no problem. -/
theorem cons_met (h : o.demand.Met m o.function) (hs : Accounted m os ps) :
    Accounted m (o :: os) ps := by
  rwa [Accounted, Model.unmet, List.filter_cons_of_neg (by simpa using h)]

/-- A demand that is not met needs a problem. -/
theorem cons_unmet (h : ¬ o.demand.Met m o.function) (hp : Reported m o p)
    (hs : Accounted m os ps) : Accounted m (o :: os) (p :: ps) := by
  rw [Accounted, Model.unmet, List.filter_cons_of_pos (by simpa using h)]
  exact List.Forall₂.cons hp hs

/-- Problems of two lists of demands are accounted for one list after the other. -/
theorem append (h : Accounted m os ps) (h' : Accounted m os' ps') :
    Accounted m (os ++ os') (ps ++ ps') := by
  rw [Accounted, Model.unmet, List.filter_append]
  exact List.rel_append h h'

theorem append_map {f : FunctionDef} {node : NodeId} {ds ds' : List Demand}
    (h : Accounted m (ds.map (.mk f node)) ps) (h' : Accounted m (ds'.map (.mk f node)) ps') :
    Accounted m ((ds ++ ds').map (.mk f node)) (ps ++ ps') := by
  rw [List.map_append]
  exact h.append h'

/-- Problems of any number of lists of demands are accounted for in turn. -/
theorem flatMap {α : Type} {g : α → List Occurrence} {q : α → List Problem} {as : List α}
    (h : ∀ a ∈ as, Accounted m (g a) (q a)) : Accounted m (as.flatMap g) (as.flatMap q) := by
  induction as with
  | nil => exact nil
  | cons a as ih =>
    obtain ⟨ha, has⟩ := List.forall_mem_cons.mp h
    exact ha.append (ih has)

/-- A check that asks for what the demand does. -/
theorem ite {c : Prop} [Decidable c] (hc : c ↔ o.demand.Met m o.function) (hp : Reported m o p) :
    Accounted m [o] (if c then [] else [p]) := by
  by_cases h : c
  · rw [if_pos h]
    exact cons_met (hc.mp h) nil
  · rw [if_neg h]
    exact cons_unmet (mt hc.mpr h) hp nil

/-- There is no problem exactly if all demands are met. -/
theorem eq_nil_iff (h : Accounted m os ps) :
    ps = [] ↔ ∀ o ∈ os, o.demand.Met m o.function := by
  rw [← List.length_eq_zero_iff, ← h.length_eq, List.length_eq_zero_iff, Model.unmet,
    List.filter_eq_nil_iff]
  simp

/-- Problems come in the order of the demands and at their nodes. -/
theorem map_node? (h : Accounted m os ps) :
    (m.unmet os).map (fun o => some o.node) = ps.map Problem.node? := by
  rw [← List.forall₂_eq_eq_eq, List.forall₂_map_left_iff, List.forall₂_map_right_iff]
  exact h.imp fun _ _ hp => hp.node?_eq.symm

theorem exists_node (h : Accounted m os ps) (hp : p ∈ ps) : ∃ node, p.node? = some node := by
  have hmem : p.node? ∈ ps.map Problem.node? := List.mem_map_of_mem hp
  rw [← h.map_node?] at hmem
  obtain ⟨o, _, ho⟩ := List.mem_map.mp hmem
  exact ⟨o.node, ho.symm⟩

end Accounted

namespace Model

variable {m : Model} (f : FunctionDef) (node : NodeId)

/-- A member that is read or written has to be declared. -/
theorem accounted_member (v : VariableId) :
    Accounted m [⟨f, node, .declared (.member v)⟩] (m.memberProblems node v) :=
  .ite Iff.rfl (.member v)

theorem accounted_local (i : UInt16) :
    Accounted m [⟨f, node, .declared (.localVar i)⟩] (localProblems f node i) :=
  .ite Iff.rfl (.localVar i)

/-- The problems of an expression are those of the demands that its parts make. -/
theorem accounted_expr : ∀ e : Expr,
    Accounted m (e.demands.map (.mk f node)) (e.walk.flatMap (m.exprProblems f node))
  | .literal d => by
      cases d with
      | object o => exact .cons_unmet (by simp [Demand.Met, Datum.isObject]) (.literal _) .nil
      | boolean | number | string | entityId => exact .cons_met rfl .nil
  | .member v => (accounted_member f node v).append .nil
  | .param i => (Accounted.ite Iff.rfl (.param i)).append .nil
  | .localVar i => (accounted_local f node i).append .nil
  | .binary op l r => by
      rw [Expr.demands, List.map_append, Expr.walk, List.flatMap_append]
      exact (accounted_expr l).append (accounted_expr r)
  | .not e => accounted_expr e
  | .negate e => accounted_expr e

theorem accounted_exprs (es : List Expr) :
    Accounted m ((es.flatMap Expr.demands).map (.mk f node))
      ((es.flatMap Expr.walk).flatMap (m.exprProblems f node)) := by
  rw [List.map_flatMap, List.flatMap_assoc]
  exact .flatMap fun e _ => accounted_expr f node e

/-- Results have to go to declared local variables. -/
theorem accounted_results (results : List UInt16) :
    Accounted m ((results.map fun i => Demand.declared (.localVar i)).map (.mk f node))
      (results.flatMap (localProblems f node)) := by
  rw [List.map_map, List.map_eq_flatMap]
  exact .flatMap fun i _ => accounted_local f node i

/-- A target that is not there answers for itself; there are no counts to fit. -/
theorem accounted_missing {r : Reference} {p : Problem} (hr : ¬ r.Declared m f)
    (hg : m.signature? r = none) (hp : Reported m ⟨f, node, .declared r⟩ p) (args : List Expr)
    (results : List UInt16) :
    Accounted m ((StatementKind.targetDemands r args results).map (.mk f node)) [p] := by
  refine .cons_unmet hr hp (.cons_met ?_ (.cons_met ?_ .nil))
  · simp [Demand.Met, hg]
  · simp [Demand.Met, hg]

/-- The signature of a target that is there answers for the counts. -/
theorem accounted_found {r : Reference} {g : Signature} (hr : r.Declared m f)
    (hg : m.signature? r = some g) (args : List Expr) (results : List UInt16) :
    Accounted m ((StatementKind.targetDemands r args results).map (.mk f node))
      (callProblems node g.name g.params g.returns args results) := by
  have hargs : g.params.length = args.length ↔ (Demand.arguments r args.length).Met m f := by
    simp [Demand.Met, hg, eq_comm]
  have hresults : results.length ≤ g.returns.length ↔
      (Demand.results r results.length).Met m f := by
    simp [Demand.Met, hg]
  refine .cons_met hr ((Accounted.ite hargs (.arguments _ hg)).append ?_)
  by_cases h : results.length ≤ g.returns.length
  · rw [if_neg (Nat.not_lt.mpr h)]
    exact .cons_met (hresults.mp h) .nil
  · rw [if_pos (Nat.not_le.mp h), arityProblems, if_neg (Nat.ne_of_lt (Nat.not_le.mp h))]
    exact .cons_unmet (mt hresults.mpr h) (.results _ hg) .nil

/-- A call makes the demands of its arguments, then those of its results, then its own. -/
theorem accounted_call {r : Reference} {args : List Expr} {results : List UInt16}
    {ps : List Problem}
    (h : Accounted m ((StatementKind.targetDemands r args results).map (.mk f node)) ps) :
    Accounted m ((StatementKind.callDemands r args results).map (.mk f node))
      ((args.flatMap Expr.walk).flatMap (m.exprProblems f node) ++
        (results.flatMap (localProblems f node) ++ ps)) := by
  rw [StatementKind.callDemands, List.append_assoc]
  exact (accounted_exprs f node args).append_map ((accounted_results f node results).append_map h)

/-- A statement answers for its own demands. -/
theorem accounted_statement (s : Statement) :
    Accounted m (s.kind.demands.map (.mk f s.origin)) (m.statementProblems f s) := by
  obtain ⟨node, slot, kind⟩ := s
  have hexpr (e : Expr) : Accounted m (e.demands.map (.mk f node))
      (([e].flatMap Expr.walk).flatMap (m.exprProblems f node)) := by
    rw [List.flatMap_singleton]
    exact accounted_expr f node e
  have halone (e : Expr) : Accounted m (e.demands.map (.mk f node))
      (([e].flatMap Expr.walk).flatMap (m.exprProblems f node) ++ []) := by
    rw [List.append_nil]
    exact hexpr e
  cases kind with
  | setMember v e => exact (hexpr e).append_map (accounted_member f node v)
  | setLocal i e => exact (hexpr e).append_map (accounted_local f node i)
  | cond c t e => exact halone c
  | loop c b => exact halone c
  | call id args results =>
    refine accounted_call f node ?_
    cases hat : m.functionAt? id with
    | none =>
      exact accounted_missing f node (by simp [Reference.Declared, hat]) (by simp [signature?, hat])
        (.function id) args results
    | some g =>
      exact accounted_found (g := ⟨g.name, g.params, g.returns⟩) f node
        (by simp [Reference.Declared, hat]) (by simp [signature?, hat]) args results
  | fire out args results =>
    refine accounted_call f node ?_
    cases hat : m.outEvent? out with
    | none =>
      exact accounted_missing f node (by simp [Reference.Declared, hat]) (by simp [signature?, hat])
        (.out out) args results
    | some d =>
      exact accounted_found (g := ⟨d.name, d.params, d.returns⟩) f node
        (by simp [Reference.Declared, hat]) (by simp [signature?, hat]) args results
  | log e => exact halone e
  | ret values => exact (accounted_exprs f node values).append_map (.ite eq_comm (.returns _))
  | script source => exact .nil

mutual

/-- A statement occurs with its demands before those of the statements inside. -/
theorem occurrences_eq : ∀ s : Statement,
    s.occurrences f = s.walk.flatMap fun x => x.kind.demands.map (.mk f x.origin)
  | .mk origin slot kind => by
      rw [Statement.occurrences, Statement.walk, List.flatMap_cons, inside_eq kind]
      rfl

theorem inside_eq : ∀ k : StatementKind,
    k.inside f = (Statement.walkKind k).flatMap fun x => x.kind.demands.map (.mk f x.origin)
  | .cond _ t e => by
      rw [StatementKind.inside, Statement.walkKind, List.flatMap_append, allOccurrences_eq t,
        allOccurrences_eq e]
  | .loop _ b => allOccurrences_eq b
  | .setMember .. | .setLocal .. | .call .. | .fire .. | .log _ | .ret _ | .script _ => rfl

/-- The demands of a body are those of the statements that a walk meets. -/
theorem allOccurrences_eq : ∀ body : List Statement, Statement.allOccurrences f body =
    (Statement.walkAll body).flatMap fun x => x.kind.demands.map (.mk f x.origin)
  | [] => rfl
  | s :: rest => by
      rw [Statement.allOccurrences, Statement.walkAll, List.flatMap_append, occurrences_eq s,
        allOccurrences_eq rest]

end

/-- The problems of a body are those of the demands that its statements make, at whatever depth. -/
theorem accounted_body (body : List Statement) :
    Accounted m (Statement.allOccurrences f body)
      ((Statement.walkAll body).flatMap (m.statementProblems f)) := by
  rw [allOccurrences_eq]
  exact .flatMap fun s _ => accounted_statement f s

/-! ## The problems of a model -/

/-- What is wrong with a variable has no node. -/
theorem filter_variableProblems (v : VariableDef) :
    (variableProblems v).filter (·.node?.isSome) = [] := by
  unfold variableProblems
  split
  · split <;> rfl
  all_goals rfl

/-- What is wrong with functions and has a node is in their bodies. -/
theorem filter_functionProblems : ∀ (fs : List FunctionDef) (seen : List String),
    (m.functionProblems seen fs).filter (·.node?.isSome) =
      fs.flatMap fun f => (Statement.walkAll f.body).flatMap (m.statementProblems f)
  | [], _ => rfl
  | f :: fs, seen => by
      have hname : (if f.name ∈ seen then [Problem.duplicateFunctionName f.name] else []).filter
          (·.node?.isSome) = [] := by
        split <;> rfl
      have hbody : ((Statement.walkAll f.body).flatMap (m.statementProblems f)).filter
          (·.node?.isSome) = (Statement.walkAll f.body).flatMap (m.statementProblems f) := by
        refine List.filter_eq_self.mpr fun p hp => ?_
        exact Option.isSome_iff_exists.mpr ((accounted_body f f.body).exists_node hp)
      rw [functionProblems, List.filter_append, List.filter_append, hname, hbody,
        filter_functionProblems fs, List.nil_append, List.flatMap_cons]

/-- **Each demand that is not met has a problem of its own**, and no other problem names a node. -/
theorem accounted_problems (m : Model) :
    Accounted m m.occurrences (m.problems.filter (·.node?.isSome)) := by
  have hmembers : (m.members.flatMap variableProblems).filter (·.node?.isSome) = [] := by
    rw [List.filter_flatMap]
    simp [filter_variableProblems]
  have hrecursion : m.recursionProblems.filter (·.node?.isSome) = [] := by
    unfold recursionProblems
    split <;> rfl
  rw [problems, List.filter_append, List.filter_append, hmembers, hrecursion,
    filter_functionProblems, List.nil_append, List.append_nil]
  exact .flatMap fun f _ => accounted_body f f.body

end Model

end GraphScript
