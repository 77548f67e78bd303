import GraphScript.Proofs.Emit.Bodies
import GraphScript.Proofs.Emit.Chunk
import GraphScript.Proofs.Emit.Declared
import GraphScript.Proofs.Nesting
import GraphScript.Proofs.Outcomes

/-!
# Proofs/Reach — which targets a valid model reaches

Script and header can be emitted for every valid model whose declarations are stored under their own
identifiers.  The native source has no form for script text: it is refused exactly if such text
stands somewhere in a body (`Source.exists_emit_iff`), with one reason for each statement that is
script text (`Source.unsupported_eq`).  Through the compiler this decides what becomes of a request
(`targets_reached`).
-/

namespace GraphScript

/-- Whether a statement is script text. -/
def Statement.isScript (s : Statement) : Bool :=
  match s.kind with
  | .script _ => true
  | _ => false

/-- The script text of a model: function by function, in the order of the walk. -/
def Model.scripts (m : Model) : List Statement :=
  m.functions.flatMap fun f => (Statement.walkAll f.body).filter Statement.isScript

/-- There is script text in a model if there is some in a body, at whatever depth. -/
theorem Model.scripts_ne_nil {m : Model} :
    m.scripts ≠ [] ↔ ∃ f ∈ m.functions, ∃ s : Statement, s.Within f.body ∧ s.isScript = true := by
  simp only [scripts, ne_eq, List.flatMap_eq_nil_iff, List.filter_eq_nil_iff,
    Statement.mem_walkAll]
  push Not
  rfl

namespace Emit

namespace Source

/-- **Each statement that is script text is a reason of its own.** -/
theorem unsupported_eq (m : Model) :
    unsupported m = m.scripts.map fun s => .unsupported "script block" s.origin := by
  rw [Model.scripts, ← List.filter_flatMap, ← List.filterMap_eq_map, List.filterMap_filter]
  refine congrArg (List.filterMap · _) (funext fun s => ?_)
  obtain ⟨origin, slot, kind⟩ := s
  cases kind <;> rfl

variable {m : Model} {o : Options}

/-- The source of a model with script text is refused for each such statement. -/
theorem emit_of_scripts (h : m.scripts ≠ []) : emit m o =
    .error (m.scripts.map fun s => .unsupported "script block" s.origin) := by
  have hne : unsupported m ≠ [] := by
    rw [unsupported_eq]
    exact mt List.map_eq_nil_iff.mp h
  rw [← unsupported_eq]
  unfold emit
  cases hu : unsupported m with
  | nil => exact absurd hu hne
  | cons e es => rfl

/-- **A valid model has a native source exactly if it has no script text.** -/
theorem exists_emit_iff (hk : m.OwnKeys) (hv : m.Valid) :
    (∃ e, emit m o = .ok e) ↔ m.scripts = [] := by
  constructor
  · rintro ⟨e, he⟩
    by_contra hne
    rw [emit_of_scripts hne] at he
    cases he
  · intro hnil
    obtain ⟨inputs, hok⟩ := RuntimeInputs.exists_ofModel hv.members hk.variable_ids_nodup .compiled
    have hnone : unsupported m = [] := by rw [unsupported_eq, hnil, List.map_nil]
    exact ⟨_, emit_eq_ok_iff.mpr ⟨hnone, inputs, hok, rfl⟩⟩

end Source

/-- A valid model has a native header. -/
theorem Header.exists_emit {m : Model} (hk : m.OwnKeys) (hv : m.Valid) (o : Options) :
    ∃ e, Header.emit m o = .ok e := by
  obtain ⟨inputs, hok⟩ := RuntimeInputs.exists_ofModel hv.members hk.variable_ids_nodup .compiled
  exact ⟨_, Header.emit_eq_ok_iff.mpr ⟨inputs, hok, rfl⟩⟩

end Emit

namespace Emitter

variable {t : Target} {f : Model → Options → Except (List EmitError) Emission} {m : Model}
  {o : Options}

theorem outcome_ofExcept_ok {e : Emission} (h : f m o = .ok e) (i : Interface) :
    ((ofExcept t f).outcome m i o).toOption.isSome = true := by
  simp only [outcome, ofExcept, h]
  rfl

theorem outcome_ofExcept_error {reasons : List EmitError} (h : f m o = .error reasons)
    (i : Interface) :
    (ofExcept t f).outcome m i o = .error (reasons.map EmitError.message) := by
  simp only [outcome, ofExcept, h]

end Emitter

namespace Compiler

section Emitted

variable {m : Model} (hk : m.OwnKeys) (hv : m.Valid) (i : Interface) (o : Options)

include hk hv

theorem emit_lua : (standard.emit m i o .lua).toOption.isSome = true := by
  obtain ⟨e, he⟩ := Emit.Script.exists_emit hk hv o
  exact Emitter.outcome_ofExcept_ok he i

theorem emit_hpp : (standard.emit m i o .hpp).toOption.isSome = true := by
  obtain ⟨e, he⟩ := Emit.Header.exists_emit hk hv o
  exact Emitter.outcome_ofExcept_ok he i

theorem emit_cpp (h : m.scripts = []) : (standard.emit m i o .cpp).toOption.isSome = true := by
  obtain ⟨e, he⟩ := (Emit.Source.exists_emit_iff (o := o) hk hv).mpr h
  exact Emitter.outcome_ofExcept_ok he i

end Emitted

theorem emit_cpp_of_scripts {m : Model} (h : m.scripts ≠ []) (i : Interface) (o : Options) :
    standard.emit m i o .cpp = .error
      (m.scripts.map fun s => s!"unsupported construct: script block at node {s.origin}") := by
  have herror := Emitter.outcome_ofExcept_error (t := .cpp)
    (Emit.Source.emit_of_scripts (o := o) h) i
  rw [List.map_map] at herror
  exact herror

/-- Native source is refused exactly if there is script text. -/
theorem isNone_emit_cpp_iff {m : Model} (hk : m.OwnKeys) (hv : m.Valid) (i : Interface)
    (o : Options) : (standard.emit m i o .cpp).toOption.isNone = true ↔ m.scripts ≠ [] := by
  constructor
  · intro hnone hnil
    rw [← Option.not_isSome, emit_cpp hk hv i o hnil] at hnone
    cases hnone
  · intro hne
    rw [emit_cpp_of_scripts hne]
    rfl

/-- **Which targets a valid model reaches.**  Where every declaration is stored under its own
identifier, script and header are among the outputs whenever they are requested.  Native source is
among the errors exactly if there is script text in a body, at whatever depth, and otherwise among
the outputs; its messages are then one for each statement that is script text, function by function
and in the order of the walk. -/
theorem targets_reached (m : Model) (hvalid : m.isValid = true) (hk : m.OwnKeys)
    (schedule : List Target) (targets : TargetSet) (o : Options) (r : Compilation)
    (hr : r = standard.compileUnder schedule (some m) targets o) :
    (∀ t ∈ [Target.lua, .hpp], targets.contains t = true →
      t ∈ r.outputs.map (·.1) ∧ t ∉ r.errors.map (·.1)) ∧
    (targets.contains .cpp = true →
      (.cpp ∈ r.errors.map (·.1) ↔
        ∃ f ∈ m.functions, ∃ s : Statement, s.Within f.body ∧ s.isScript = true) ∧
      (.cpp ∈ r.outputs.map (·.1) ↔ .cpp ∉ r.errors.map (·.1))) ∧
    ∀ messages, Entries.get? r.errors .cpp = some messages → messages ≠ [] ∧
      messages = (m.functions.flatMap fun f => (Statement.walkAll f.body).filter (·.isScript)).map
        fun s => s!"unsupported construct: script block at node {s.origin}" := by
  subst hr
  have hv : m.Valid := Model.isValid_iff.mp hvalid
  have houtputs (t : Target) := mem_outputs_iff hvalid standard schedule targets o (t := t)
  have herrors (t : Target) := mem_errors_iff hvalid standard schedule targets o (t := t)
  have hcpp := isNone_emit_cpp_iff hk hv (Interface.ofModel m) o
  refine ⟨fun t ht hrequested => ?_, fun hrequested => ⟨?_, ?_⟩, fun messages hmessages => ?_⟩
  · have hsome : (standard.emit m (Interface.ofModel m) o t).toOption.isSome = true := by
      rcases List.mem_pair.mp ht with rfl | rfl
      · exact emit_lua hk hv _ o
      · exact emit_hpp hk hv _ o
    refine ⟨(houtputs t).mpr ⟨hrequested, hsome⟩, fun herror => ?_⟩
    have hnone := ((herrors t).mp herror).2
    rw [← Option.not_isSome, hsome] at hnone
    cases hnone
  · rw [herrors, and_iff_right hrequested, hcpp, Model.scripts_ne_nil]
  · rw [houtputs, herrors, and_iff_right hrequested, and_iff_right hrequested, Bool.not_eq_true,
      Option.isNone_eq_false_iff]
  · have herror : Target.cpp ∈ _ :=
      Entries.isSome_get?.mp (Option.isSome_iff_exists.mpr ⟨messages, hmessages⟩)
    obtain ⟨hrequested, hnone⟩ := (herrors .cpp).mp herror
    have hne := hcpp.mp hnone
    rw [compileUnder_eq hvalid, Compilation.errors_ofOutcomes,
      if_pos (TargetSet.mem_toList.mpr hrequested), emit_cpp_of_scripts hne] at hmessages
    obtain rfl := Option.some.inj hmessages
    exact ⟨mt List.map_eq_nil_iff.mp hne, rfl⟩

/-- A kiosk with script text in a loop, in a branch and at the end of a body. -/
def kiosk : Model where
  name := "Kiosk"
  functionEntries := [
    (⟨0⟩, {
      id := ⟨0⟩, name := "Serve", kind := .entry, params := [⟨"open", .boolean⟩], returns := []
      origin := ⟨1⟩
      body := [
        .mk ⟨2⟩ none (.loop (.param 0) [
          .mk ⟨3⟩ none (.cond (.param 0) [.mk ⟨4⟩ none (.call ⟨1⟩ [] [])] [
            .mk ⟨5⟩ none (.script "pause()")]),
          .mk ⟨6⟩ none (.script "")])] }),
    (⟨1⟩, {
      id := ⟨1⟩, name := "Greet", kind := .internal, params := [], returns := [], origin := ⟨7⟩
      body := [.mk ⟨8⟩ none (.script "wave()\nbow()")] })]

theorem kiosk_targets_reached : kiosk.isValid = true ∧ kiosk.OwnKeys ∧ ∃ r,
    r = standard.compileUnder [.hpp] (some kiosk) .all { parallel := true } ∧
    Target.lua ∈ r.outputs.map (·.1) ∧ Target.hpp ∈ r.outputs.map (·.1) ∧
    Entries.get? r.errors .cpp = some [
      "unsupported construct: script block at node 5",
      "unsupported construct: script block at node 6",
      "unsupported construct: script block at node 8"] := by
  have hvalid : kiosk.isValid = true := by decide
  have hk : kiosk.OwnKeys := by decide
  obtain ⟨houtputs, hcpp, hmessages⟩ :=
    targets_reached kiosk hvalid hk [.hpp] .all { parallel := true } _ rfl
  refine ⟨hvalid, hk, _, rfl, (houtputs .lua (by decide) (by decide)).1,
    (houtputs .hpp (by decide) (by decide)).1, ?_⟩
  have hscript : Statement.Within (.mk ⟨8⟩ none (.script "wave()\nbow()"))
      (kiosk.functions.getLast (by decide)).body := .here List.mem_cons_self
  have herror := (hcpp (by decide)).1.mpr ⟨_, List.getLast_mem _, _, hscript, rfl⟩
  obtain ⟨messages, hget⟩ := Option.isSome_iff_exists.mp (Entries.isSome_get?.mpr herror)
  rw [hget, (hmessages messages hget).2]
  decide

end Compiler

end GraphScript
