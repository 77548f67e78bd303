import GraphScript.Model.Problem
import Mathlib.Data.List.Nodup

/-!
# Proofs/Validity — what it takes to be valid

A model is valid if each part of it is (`isValid_iff`): its variables, the names of its functions,
its statements at whatever depth, and the order of its calls.
-/

namespace GraphScript.Model

/-- Each part of the model is without problems. -/
structure Valid (m : Model) : Prop where
  members : ∀ v ∈ m.members, variableProblems v = []
  names : (m.functions.map (·.name)).Nodup
  statements : ∀ f ∈ m.functions, ∀ s ∈ Statement.walkAll f.body, m.statementProblems f s = []
  order : ∃ order, m.callOrder = .ok order

/-- Nothing is wrong with functions if they have different names and their statements are in order.
-/
theorem functionProblems_eq_nil {m : Model} : ∀ {fs : List FunctionDef} {seen : List String},
    m.functionProblems seen fs = [] ↔ (fs.map (·.name)).Nodup ∧ (∀ f ∈ fs, f.name ∉ seen) ∧
      ∀ f ∈ fs, ∀ s ∈ Statement.walkAll f.body, m.statementProblems f s = []
  | [], seen => by simp [functionProblems]
  | f :: fs, seen => by
      have ih : m.functionProblems (f.name :: seen) fs = [] ↔ _ := functionProblems_eq_nil
      rw [functionProblems, List.append_eq_nil_iff, List.append_eq_nil_iff, ih,
        List.flatMap_eq_nil_iff, List.map_cons, List.nodup_cons, List.forall_mem_cons,
        List.forall_mem_cons]
      constructor
      · rintro ⟨⟨hseen, hbody⟩, hnd, hfresh, hrest⟩
        have hf : f.name ∉ seen := fun hm => by simp [hm] at hseen
        refine ⟨⟨fun hm => ?_, hnd⟩, ⟨hf, fun g hg hm => hfresh g hg (List.mem_cons_of_mem _ hm)⟩,
          hbody, hrest⟩
        obtain ⟨g, hg, hname⟩ := List.mem_map.mp hm
        exact hfresh g hg (hname ▸ List.mem_cons_self)
      · rintro ⟨⟨hf, hnd⟩, ⟨hseen, hfresh⟩, hbody, hrest⟩
        refine ⟨⟨if_neg hseen, hbody⟩, hnd, fun g hg hm => ?_, hrest⟩
        rcases List.mem_cons.mp hm with hname | hm
        · exact hf (hname ▸ List.mem_map_of_mem (f := (·.name)) hg)
        · exact hfresh g hg hm

/-- Nothing is wrong with calls that have an order. -/
theorem recursionProblems_eq_nil {m : Model} :
    m.recursionProblems = [] ↔ ∃ order, m.callOrder = .ok order := by
  unfold recursionProblems
  cases m.callOrder with
  | ok order => exact ⟨fun _ => ⟨order, rfl⟩, fun _ => rfl⟩
  | error id => exact ⟨fun h => absurd h (List.cons_ne_nil _ _), fun ⟨_, h⟩ => by cases h⟩

/-- **A model is valid if each part of it is.** -/
theorem isValid_iff {m : Model} : m.isValid = true ↔ m.Valid := by
  rw [isValid, List.isEmpty_iff, problems, List.append_eq_nil_iff, List.append_eq_nil_iff,
    List.flatMap_eq_nil_iff, functionProblems_eq_nil, recursionProblems_eq_nil]
  constructor
  · rintro ⟨⟨hmembers, hnames, _, hstatements⟩, horder⟩
    exact ⟨hmembers, hnames, hstatements, horder⟩
  · rintro ⟨hmembers, hnames, hstatements, horder⟩
    exact ⟨⟨hmembers, hnames, fun _ _ => List.not_mem_nil, hstatements⟩, horder⟩

end GraphScript.Model
