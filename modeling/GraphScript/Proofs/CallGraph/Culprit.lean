import GraphScript.Proofs.CallGraph.Order
import GraphScript.Proofs.Demands
import GraphScript.Proofs.Keys

/-!
# Proofs/CallGraph/Culprit — whom a recursion is blamed on

The two searches report the position of a function that a chain of calls comes back to
(`callOrder_error`).  What is shown of it is a name, which is looked up by key.  If functions are
stored under their own identifiers, that is the name of a function on a cycle, and neither of one
that only calls into a cycle nor of one that a cycle only calls (`recursion_blames_cycle`).
-/

namespace GraphScript.Model

variable {m : Model} {f : FunctionDef}

/-! ## Functions on a cycle -/

/-- The function can reach itself by one or more calls. -/
def OnCycle (m : Model) (f : FunctionDef) : Prop := Relation.TransGen m.Calls f.id f.id

/-- A function that nobody calls is on no cycle. -/
theorem OnCycle.called (h : m.OnCycle f) : ∃ g ∈ m.functions, f.id ∈ CallGraph.callees g := by
  obtain ⟨_, hcalls, _⟩ := Relation.TransGen.head'_iff.mp h
  obtain ⟨_, g, hg, _, hcall⟩ := hcalls
  exact ⟨g, hg, CallGraph.mem_callees.mpr hcall⟩

/-- A function that calls nobody is on no cycle. -/
theorem OnCycle.calls (h : m.OnCycle f) :
    ∃ g ∈ m.functions, g.id = f.id ∧ ∃ callee, callee ∈ CallGraph.callees g := by
  obtain ⟨callee, _, hcalls⟩ := Relation.TransGen.tail'_iff.mp h
  obtain ⟨_, g, hg, hid, hcall⟩ := hcalls
  exact ⟨g, hg, hid, callee, CallGraph.mem_callees.mpr hcall⟩

/-! ## The name in the report -/

/-- Under its identifier stands a function that has it. -/
theorem exists_functionAt? (hkeys : ∀ e ∈ m.functionEntries, e.2.id = e.1) (hf : f ∈ m.functions) :
    ∃ g, m.functionAt? f.id = some g ∧ g.id = f.id := by
  obtain ⟨⟨k, f⟩, hentry, rfl⟩ := List.mem_map.mp hf
  have hid : f.id = k := hkeys _ hentry
  have hkey : k ∈ m.functionEntries.map (·.1) := List.mem_map_of_mem (f := (·.1)) hentry
  obtain ⟨g, hg⟩ := Option.isSome_iff_exists.mp (Entries.isSome_get?.mpr (hid ▸ hkey))
  exact ⟨g, hg, hkeys _ (mem_functionEntries hg)⟩

/-- **The function whose name is shown is on a cycle.** -/
theorem exists_culprit (hkeys : ∀ e ∈ m.functionEntries, e.2.id = e.1) {id : FunctionId}
    (h : m.callOrder = .error id) :
    ∃ f ∈ m.functions, f.id = id ∧ f.name = m.functionTitle id ∧ m.OnCycle f := by
  have hcycle := callOrder_error h
  obtain ⟨callee, _, _, g, hg, rfl, _⟩ := Relation.TransGen.tail'_iff.mp hcycle
  obtain ⟨f, hf, hid⟩ := exists_functionAt? hkeys hg
  refine ⟨f, mem_functions hf, hid, ?_, ?_⟩
  · rw [functionTitle, hf]
  · rwa [OnCycle, hid]

theorem recursiveCall_notMem_variableProblems (name : String) (v : VariableDef) :
    .recursiveCall name ∉ variableProblems v := by
  unfold variableProblems
  split
  · split <;> simp
  all_goals simp

theorem recursiveCall_notMem_functionProblems (name : String) :
    ∀ (fs : List FunctionDef) (seen : List String), .recursiveCall name ∉ m.functionProblems seen fs
  | [], _ => List.not_mem_nil
  | f :: fs, seen => by
      have hname : .recursiveCall name ∉
          (if f.name ∈ seen then [Problem.duplicateFunctionName f.name] else []) := by
        split <;> simp
      -- the problems of a body name a node
      have hbody : .recursiveCall name ∉
          (Statement.walkAll f.body).flatMap (m.statementProblems f) := fun hmem => by
        obtain ⟨node, hnode⟩ := (accounted_body f f.body).exists_node hmem
        cases hnode
      rw [functionProblems, List.mem_append, List.mem_append]
      exact not_or.mpr ⟨not_or.mpr ⟨hname, hbody⟩,
        recursiveCall_notMem_functionProblems name fs (f.name :: seen)⟩

/-- Only the order of calls reports a recursion. -/
theorem recursiveCall_mem_problems {name : String} : .recursiveCall name ∈ m.problems ↔
    ∃ id, m.callOrder = .error id ∧ name = m.functionTitle id := by
  have hmembers : .recursiveCall name ∉ m.members.flatMap variableProblems := fun hmem => by
    obtain ⟨v, _, hv⟩ := List.mem_flatMap.mp hmem
    exact recursiveCall_notMem_variableProblems name v hv
  rw [problems, List.mem_append, List.mem_append, or_iff_right hmembers,
    or_iff_right (recursiveCall_notMem_functionProblems name m.functions []), recursionProblems]
  cases m.callOrder with
  | ok order => simp
  | error id => simp

/-- **A recursion is blamed on a function that lies on a cycle of calls.** -/
theorem recursion_blames_cycle (m : Model) (hkeys : ∀ e ∈ m.functionEntries, e.2.id = e.1) :
    (∀ id, m.callOrder = .error id →
      ∃ f ∈ m.functions, f.id = id ∧ f.name = m.functionTitle id ∧ m.OnCycle f) ∧
    ∀ name, .recursiveCall name ∈ m.problems → ∃ f ∈ m.functions, f.name = name ∧ m.OnCycle f := by
  refine ⟨fun id h => exists_culprit hkeys h, fun name h => ?_⟩
  obtain ⟨id, horder, rfl⟩ := recursiveCall_mem_problems.mp h
  obtain ⟨f, hf, _, hname, hcycle⟩ := exists_culprit hkeys horder
  exact ⟨f, hf, hname, hcycle⟩

/-- A rumour: who starts it never hears it, who tells it hears it back, and who writes it down tells
nobody. -/
def rumour : Model where
  name := "Rumour"
  functionEntries := [
    (⟨0⟩, {
      id := ⟨0⟩, name := "Start", kind := .entry, params := [], returns := [], origin := ⟨10⟩
      body := [.mk ⟨11⟩ none (.call ⟨1⟩ [] [])] }),
    (⟨1⟩, {
      id := ⟨1⟩, name := "Tell", kind := .internal, params := [], returns := [], origin := ⟨20⟩
      body := [.mk ⟨21⟩ none (.loop (.literal (.boolean true)) [
        .mk ⟨22⟩ none (.call ⟨2⟩ [] [])])] }),
    (⟨2⟩, {
      id := ⟨2⟩, name := "Hear", kind := .internal, params := [], returns := [], origin := ⟨30⟩
      body := [.mk ⟨31⟩ none (.cond (.literal (.boolean true)) [.mk ⟨32⟩ none (.call ⟨3⟩ [] [])]
        [.mk ⟨33⟩ none (.call ⟨1⟩ [] [])])] }),
    (⟨3⟩, {
      id := ⟨3⟩, name := "Write", kind := .internal, params := [], returns := [], origin := ⟨40⟩
      body := [] })]

/-- The one who hears is blamed, and on a cycle; who starts and who writes are not. -/
theorem rumour_blames_cycle : (∀ e ∈ rumour.functionEntries, e.2.id = e.1) ∧
    rumour.problems = [.recursiveCall "Hear"] ∧
    (∃ f ∈ rumour.functions, f.name = "Hear" ∧ rumour.OnCycle f) ∧
    ∀ f ∈ rumour.functions, f.name = "Start" ∨ f.name = "Write" → ¬ rumour.OnCycle f := by
  have hkeys : ∀ e ∈ rumour.functionEntries, e.2.id = e.1 := by decide
  have hproblems : rumour.problems = [.recursiveCall "Hear"] := by decide
  have hstart : ∀ f ∈ rumour.functions, f.name = "Start" →
      ∀ g ∈ rumour.functions, f.id ∉ CallGraph.callees g := by decide
  have hwrite : ∀ f ∈ rumour.functions, f.name = "Write" →
      ∀ g ∈ rumour.functions, g.id = f.id → CallGraph.callees g = [] := by decide
  refine ⟨hkeys, hproblems, ?_, ?_⟩
  · exact (recursion_blames_cycle rumour hkeys).2 "Hear" (hproblems ▸ List.mem_cons_self)
  · rintro f hf (hname | hname) hcycle
    · obtain ⟨g, hg, hcalled⟩ := hcycle.called
      exact hstart f hf hname g hg hcalled
    · obtain ⟨g, hg, hid, callee, hcallee⟩ := hcycle.calls
      rw [hwrite f hf hname g hg hid] at hcallee
      exact absurd hcallee List.not_mem_nil

end GraphScript.Model
