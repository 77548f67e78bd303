import GraphScript.Statement

/-!
# Proofs/Nesting — statements at whatever depth of a body

`Statement.Within` says that a statement stands in a body or, at any depth, in the branches and
loops of its statements.  The walk through a body meets exactly those (`mem_walkAll`).
-/

namespace GraphScript.Statement

/-- The statement stands somewhere in the body, at whatever depth. -/
inductive Within : Statement → List Statement → Prop
  | here {s : Statement} {body : List Statement} (h : s ∈ body) : Within s body
  | inThen {s : Statement} {body : List Statement} {o : NodeId} {slot : Option SlotId} {c : Expr}
      {t e : List Statement} (h : mk o slot (.cond c t e) ∈ body) (hs : Within s t) : Within s body
  | inElse {s : Statement} {body : List Statement} {o : NodeId} {slot : Option SlotId} {c : Expr}
      {t e : List Statement} (h : mk o slot (.cond c t e) ∈ body) (hs : Within s e) : Within s body
  | inLoop {s : Statement} {body : List Statement} {o : NodeId} {slot : Option SlotId} {c : Expr}
      {b : List Statement} (h : mk o slot (.loop c b) ∈ body) (hs : Within s b) : Within s body

/-- A larger body holds all that a smaller one does. -/
theorem Within.mono {s : Statement} {body body' : List Statement} (hsub : ∀ x ∈ body, x ∈ body')
    (h : Within s body) : Within s body' := by
  cases h with
  | here h => exact .here (hsub _ h)
  | inThen h hs => exact .inThen (hsub _ h) hs
  | inElse h hs => exact .inElse (hsub _ h) hs
  | inLoop h hs => exact .inLoop (hsub _ h) hs

theorem mem_walk_self (s : Statement) : s ∈ s.walk := by
  cases s
  exact List.mem_cons_self

/-- What a statement of a body contains, the body contains. -/
theorem mem_walkAll_of_mem {s x : Statement} :
    ∀ {body : List Statement}, x ∈ body → s ∈ x.walk → s ∈ walkAll body
  | y :: body, hx, hs => by
      rw [walkAll, List.mem_append]
      rcases List.mem_cons.mp hx with rfl | hx
      · exact Or.inl hs
      · exact Or.inr (mem_walkAll_of_mem hx hs)

/-- What is nested in a body is met by the walk. -/
theorem Within.mem_walkAll {s : Statement} {body : List Statement} (h : Within s body) :
    s ∈ walkAll body := by
  induction h with
  | here h => exact mem_walkAll_of_mem h (mem_walk_self _)
  | inThen h _ ih =>
    exact mem_walkAll_of_mem h (List.mem_cons_of_mem _ (List.mem_append_left _ ih))
  | inElse h _ ih =>
    exact mem_walkAll_of_mem h (List.mem_cons_of_mem _ (List.mem_append_right _ ih))
  | inLoop h _ ih => exact mem_walkAll_of_mem h (List.mem_cons_of_mem _ ih)

mutual

theorem within_of_mem_walk {s : Statement} : ∀ {x : Statement}, s ∈ x.walk → Within s [x]
  | .mk o slot k, h => by
      rcases List.mem_cons.mp h with rfl | h
      · exact .here List.mem_cons_self
      · exact within_of_mem_walkKind h

theorem within_of_mem_walkKind {s : Statement} {o : NodeId} {slot : Option SlotId} :
    ∀ {k : StatementKind}, s ∈ walkKind k → Within s [mk o slot k]
  | .cond c t e, h => by
      rcases List.mem_append.mp h with h | h
      · exact .inThen List.mem_cons_self (within_of_mem_walkAll h)
      · exact .inElse List.mem_cons_self (within_of_mem_walkAll h)
  | .loop c b, h => .inLoop List.mem_cons_self (within_of_mem_walkAll h)
  | .setMember .., h | .setLocal .., h | .call .., h | .fire .., h | .log _, h | .ret _, h
  | .script _, h => absurd h List.not_mem_nil

/-- What the walk meets in a body is nested in it. -/
theorem within_of_mem_walkAll {s : Statement} : ∀ {body : List Statement},
    s ∈ walkAll body → Within s body
  | [], h => absurd h List.not_mem_nil
  | x :: body, h => by
      rcases List.mem_append.mp h with h | h
      · exact (within_of_mem_walk h).mono fun y hy => List.mem_singleton.mp hy ▸ List.mem_cons_self
      · exact (within_of_mem_walkAll h).mono fun y hy => List.mem_cons_of_mem _ hy

end

/-- **The walk meets exactly the statements of a body, at whatever depth.** -/
theorem mem_walkAll {s : Statement} {body : List Statement} : s ∈ walkAll body ↔ Within s body :=
  ⟨within_of_mem_walkAll, Within.mem_walkAll⟩

end GraphScript.Statement
