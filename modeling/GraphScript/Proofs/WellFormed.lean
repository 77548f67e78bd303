import GraphScript.Proofs.CallGraph.Order
import GraphScript.Proofs.Demands

/-!
# Proofs/WellFormed — which models are valid

`Model.WellFormed` says what a model has to be like: first values suit their types, no two functions
share a name, the demands of every statement at whatever depth are met, and no chain of calls comes
back to where it started.  Those are the valid models (`isValid_iff_wellFormed`), and what is wrong
inside the bodies of the others is reported in full.
-/

namespace GraphScript

/-- The first value suits the type of the variable; a static value suits any. -/
def VariableDef.Suited (v : VariableDef) : Prop :=
  match v.initializer with
  | .value d => d.isA v.dataType = true
  | .static _ => True
  | .nodeable => ∃ className, v.dataType = .object className

namespace Model

/-- The model has all that its parts ask for. -/
structure WellFormed (m : Model) : Prop where
  members : ∀ v ∈ m.members, v.Suited
  names : (m.functions.map (·.name)).Nodup
  bodies : ∀ f ∈ m.functions, ∀ s : Statement, s.Within f.body → ∀ d ∈ s.kind.demands, d.Met m f
  calls : ∀ id, ¬ Relation.TransGen m.Calls id id

variable {m : Model}

/-- Nothing is wrong with a variable if its first value suits it. -/
theorem variableProblems_eq_nil {v : VariableDef} : variableProblems v = [] ↔ v.Suited := by
  obtain ⟨id, name, type, init, exposure⟩ := v
  cases init with
  | value d => simp [variableProblems, VariableDef.Suited]
  | static s => simp [variableProblems, VariableDef.Suited]
  | nodeable => cases type <;> simp [variableProblems, VariableDef.Suited]

/-- Nothing is wrong with a statement whose demands are met. -/
theorem statementProblems_eq_nil {f : FunctionDef} {s : Statement} :
    m.statementProblems f s = [] ↔ ∀ d ∈ s.kind.demands, d.Met m f := by
  rw [(accounted_statement f s).eq_nil_iff]
  simp

/-- **A model is valid exactly if it is well-formed.** -/
theorem valid_iff_wellFormed (hnd : (m.functions.map (·.id)).Nodup) : m.Valid ↔ m.WellFormed := by
  constructor
  · rintro ⟨hmembers, hnames, hstatements, horder⟩
    refine ⟨fun v hv => variableProblems_eq_nil.mp (hmembers v hv), hnames, fun f hf s hs => ?_,
      (exists_callOrder_iff hnd).mp horder⟩
    exact statementProblems_eq_nil.mp (hstatements f hf s hs.mem_walkAll)
  · rintro ⟨hmembers, hnames, hbodies, hcalls⟩
    refine ⟨fun v hv => variableProblems_eq_nil.mpr (hmembers v hv), hnames, fun f hf s hs => ?_,
      (exists_callOrder_iff hnd).mpr hcalls⟩
    exact statementProblems_eq_nil.mpr (hbodies f hf s (Statement.mem_walkAll.mp hs))

/-- **The valid models are the well-formed ones, and no violation masks another.**  Each demand that
a body does not meet has a problem of its own, in the order of the text and with the node of the
statement that makes the demand. -/
theorem isValid_iff_wellFormed (m : Model) (hnd : (m.functions.map (·.id)).Nodup) :
    (m.isValid = true ↔ m.WellFormed) ∧
      List.Forall₂ (Reported m) (m.unmet m.occurrences) (m.problems.filter (·.node?.isSome)) ∧
      (m.unmet m.occurrences).map (fun o => some o.node) =
        (m.problems.filter (·.node?.isSome)).map Problem.node? :=
  ⟨isValid_iff.trans (valid_iff_wellFormed hnd), accounted_problems m,
    (accounted_problems m).map_node?⟩

/-- A wheel that turns while something unknown holds, with something wrong at every depth. -/
def wheel : Model where
  name := "Wheel"
  functionEntries := [(⟨0⟩, {
    id := ⟨0⟩, name := "Turn", kind := .entry, params := [], returns := [], origin := ⟨10⟩
    body := [.mk ⟨11⟩ none (.loop (.member (.ofNat 7)) [
      .mk ⟨12⟩ none (.call ⟨5⟩ [.not (.literal (.object ⟨"Axle", 1⟩))] [3]),
      .mk ⟨13⟩ none (.cond (.negate (.param 4)) [] [
        .mk ⟨14⟩ none (.ret [.literal (.boolean true)])])])] })]

/-- The door is well-formed; what the wheel asks for in vain is reported in full. -/
theorem wheel_isValid_iff_wellFormed :
    (door.functions.map (·.id)).Nodup ∧ door.WellFormed ∧
      (wheel.functions.map (·.id)).Nodup ∧ ¬ wheel.WellFormed ∧
      List.Forall₂ (Reported wheel) (wheel.unmet wheel.occurrences) [
        .unknownMember ⟨11⟩ (.ofNat 7), .objectLiteral ⟨12⟩, .unknownLocal ⟨12⟩ "Turn" 3,
        .unknownFunction ⟨12⟩ ⟨5⟩, .unknownParam ⟨13⟩ "Turn" 4,
        .arity ⟨14⟩ "Turn" .returnValues 0 1] := by
  have hdoor : (door.functions.map (·.id)).Nodup := by decide
  have hwheel : (wheel.functions.map (·.id)).Nodup := by decide
  refine ⟨hdoor, (isValid_iff_wellFormed door hdoor).1.mp (by decide), hwheel, fun h => ?_,
    (isValid_iff_wellFormed wheel hwheel).2.1⟩
  exact absurd ((isValid_iff_wellFormed wheel hwheel).1.mpr h) (by decide)

end Model

end GraphScript
