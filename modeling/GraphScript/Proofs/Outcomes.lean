import GraphScript.Compiler
import GraphScript.Proofs.CallGraph.Order
import GraphScript.Proofs.Sorted

/-!
# Proofs/Outcomes — what becomes of each target of a request

Workers that emit targets side by side hold nothing or what came of their own target, in whatever
order they finish (`Done.finish`), so waiting for them gives what emitting one target after the other
gives (`sideBySide_eq`).  Entering outcomes one by one changes what is stored for a target with the
outcome of that target alone (`foldl_enter`), and so a compilation stores for a target what its own
emitter makes of the model, whatever else was requested (`outcome?_compileUnder`).
-/

namespace GraphScript

/-- Targets are in the order of their bits. -/
instance : IsStrictTotalOrder Target (LT.lt : Target → Target → Prop) where
  trichotomous := by
    intro a b
    cases a <;> cases b <;> decide
  irrefl a := by cases a <;> decide
  trans a b c := by cases a <;> cases b <;> cases c <;> decide

theorem TargetSet.mem_toList {s : TargetSet} {t : Target} : t ∈ s.toList ↔ s.contains t = true := by
  have hall : t ∈ Target.all := by cases t <;> decide
  rw [toList, List.mem_filter, and_iff_right hall]

/-! ## Workers -/

namespace Worker

variable {run : Target → Except (List String) Output}

/-- The worker holds nothing yet, or what came of its target. -/
def Done (run : Target → Except (List String) Output) (w : Worker) : Prop :=
  w.result = none ∨ w.result = some (run w.target)

theorem target_finish (t : Target) (w : Worker) : (finish run t w).target = w.target := by
  unfold finish
  split
  · rfl
  · rfl

/-- **Whichever worker finishes, each holds nothing or what came of its own target.** -/
theorem Done.finish {w : Worker} (h : Done run w) (t : Target) : Done run (finish run t w) := by
  unfold Worker.finish
  split
  · rename_i ht
    exact .inr (congrArg (fun t => some (run t)) ht.symm)
  · exact h

/-- A worker that is done is joined with its outcome. -/
theorem Done.join {w : Worker} (h : Done run w) : join run w = (w.target, run w.target) := by
  unfold Worker.join
  rcases h with h | h
  · rw [h, Option.getD_none]
  · rw [h, Option.getD_some]

/-- Whatever the order in which workers finish, all that did are done. -/
theorem foldl_finish (schedule : List Target) {ws : List Worker} (h : ∀ w ∈ ws, Done run w) :
    (∀ w ∈ schedule.foldl (fun ws t => ws.map (finish run t)) ws, Done run w) ∧
      (schedule.foldl (fun ws t => ws.map (finish run t)) ws).map (·.target) =
        ws.map (·.target) := by
  induction schedule generalizing ws with
  | nil => exact ⟨h, rfl⟩
  | cons t schedule ih =>
    obtain ⟨hdone, htargets⟩ := ih (List.forall_mem_map.mpr fun w hw => (h w hw).finish t)
    refine ⟨hdone, htargets.trans ?_⟩
    rw [List.map_map]
    exact List.map_congr_left fun w _ => target_finish t w

/-- **Emitting side by side gives what emitting in turn gives**, whatever the schedule. -/
theorem sideBySide_eq (schedule ts : List Target) :
    sideBySide run schedule ts = ts.map fun t => (t, run t) := by
  have hstart : ∀ w ∈ ts.map start, Done run w := List.forall_mem_map.mpr fun _ _ => .inl rfl
  obtain ⟨hdone, htargets⟩ := foldl_finish schedule hstart
  rw [List.map_map] at htargets
  calc sideBySide run schedule ts
      = (schedule.foldl (fun ws t => ws.map (finish run t)) (ts.map start)).map
          (fun w => (w.target, run w.target)) := List.map_congr_left fun w hw => (hdone w hw).join
    _ = ((schedule.foldl (fun ws t => ws.map (finish run t)) (ts.map start)).map
          (·.target)).map fun t => (t, run t) := by rw [List.map_map]; rfl
    _ = ts.map fun t => (t, run t) := by rw [htargets, List.map_map]; rfl

end Worker

/-! ## Entering outcomes -/

namespace Compilation

/-- The messages of a target that has no output. -/
def messages? : Except (List String) Output → Option (List String)
  | .ok _ => none
  | .error messages => some messages

theorem isSome_messages? (x : Except (List String) Output) :
    (messages? x).isSome = x.toOption.isNone := by
  cases x with
  | ok output => rfl
  | error messages => rfl

/-- An outcome is entered for its target, and others keep theirs. -/
theorem get?_outputs_enter (r : Compilation) (s t : Target) (x : Except (List String) Output) :
    Entries.get? (r.enter s x).outputs t =
      if t = s then x.toOption.or (Entries.get? r.outputs t) else Entries.get? r.outputs t := by
  cases x with
  | ok output =>
    rw [enter, Entries.get?_insert]
    rfl
  | error messages => exact (ite_self _).symm

theorem get?_errors_enter (r : Compilation) (s t : Target) (x : Except (List String) Output) :
    Entries.get? (r.enter s x).errors t =
      if t = s then (messages? x).or (Entries.get? r.errors t) else Entries.get? r.errors t := by
  cases x with
  | ok output => exact (ite_self _).symm
  | error messages =>
    rw [enter, Entries.get?_insert]
    rfl

/-- Entering outcomes one by one: what a part of the record says about a target changes with the
outcome of that target alone. -/
theorem foldl_enter {β : Type} {t : Target} (field : Compilation → Option β)
    (part : Except (List String) Output → Option β)
    (hstep : ∀ r s x, field (r.enter s x) = if t = s then (part x).or (field r) else field r)
    (run : Target → Except (List String) Output) (ts : List Target) (r : Compilation) :
    field ((ts.map fun t => (t, run t)).foldl (fun r e => r.enter e.1 e.2) r) =
      if t ∈ ts then (part (run t)).or (field r) else field r := by
  induction ts generalizing r with
  | nil => rfl
  | cons s ts ih =>
    rw [List.map_cons, List.foldl_cons, ih, hstep]
    by_cases hs : t = s
    · subst hs
      rw [if_pos rfl, if_pos List.mem_cons_self, ← Option.or_assoc, Option.or_self, ite_self]
    · simp only [List.mem_cons, hs, false_or, if_false]

/-- What a compilation stores for a target. -/
def outcome? (r : Compilation) (t : Target) : Option (Except (List String) Output) :=
  match r.output? t with
  | some output => some (.ok output)
  | none => (Entries.get? r.errors t).map .error

section Entered

variable (m : Model) (run : Target → Except (List String) Output) (ts : List Target) (t : Target)

/-- An output is there for each target that was emitted. -/
theorem output?_ofOutcomes : (ofOutcomes m (ts.map fun t => (t, run t))).output? t =
    if t ∈ ts then (run t).toOption else none := by
  have hfold := foldl_enter (·.output? t) (·.toOption) (get?_outputs_enter · · t ·) run ts
    (unrequested m)
  have hnone : (unrequested m).output? t = none := rfl
  rw [hnone, Option.or_none] at hfold
  exact hfold

/-- There are messages for each target that was not emitted. -/
theorem errors_ofOutcomes : Entries.get? (ofOutcomes m (ts.map fun t => (t, run t))).errors t =
    if t ∈ ts then messages? (run t) else none := by
  have hfold := foldl_enter (Entries.get? ·.errors t) messages? (get?_errors_enter · · t ·) run ts
    (unrequested m)
  have hnone : Entries.get? (unrequested m).errors t = none := rfl
  rw [hnone, Option.or_none] at hfold
  exact hfold

/-- **Every target that was emitted is stored with its outcome.** -/
theorem outcome?_ofOutcomes : (ofOutcomes m (ts.map fun t => (t, run t))).outcome? t =
    if t ∈ ts then some (run t) else none := by
  rw [outcome?, output?_ofOutcomes, errors_ofOutcomes]
  by_cases ht : t ∈ ts
  · rw [if_pos ht, if_pos ht, if_pos ht]
    cases run t with
    | ok output => rfl
    | error messages => rfl
  · rw [if_neg ht, if_neg ht, if_neg ht]
    rfl

end Entered

theorem invalidSource_foldl_enter (outcomes : List (Target × Except (List String) Output))
    (r : Compilation) :
    (outcomes.foldl (fun r e => r.enter e.1 e.2) r).invalidSource = r.invalidSource := by
  induction outcomes generalizing r with
  | nil => rfl
  | cons e outcomes ih =>
    rw [List.foldl_cons, ih]
    cases e.2 with
    | ok output => rfl
    | error messages => rfl

/-- An output was there before or is what one of the targets came to. -/
theorem mem_outputs_foldl_enter {outcomes : List (Target × Except (List String) Output)}
    {r : Compilation} {e : Target × Output}
    (h : e ∈ (outcomes.foldl (fun r e => r.enter e.1 e.2) r).outputs) :
    e ∈ r.outputs ∨ (e.1, .ok e.2) ∈ outcomes := by
  induction outcomes generalizing r with
  | nil => exact .inl h
  | cons x outcomes ih =>
    rcases ih h with hmem | hmem
    · obtain ⟨t, outcome⟩ := x
      cases outcome with
      | ok output =>
        rcases Entries.mem_insert hmem with rfl | hmem
        · exact .inr List.mem_cons_self
        · exact .inl hmem
      | error messages => exact .inl hmem
    · exact .inr (List.mem_cons_of_mem _ hmem)

end Compilation

/-! ## Compilations -/

/-- The emitter takes no notice of whether targets may be emitted side by side. -/
def Emitter.IgnoresParallel (e : Emitter) : Prop :=
  ∀ m i o parallel, e.run m i { o with parallel } = e.run m i o

namespace Compiler

/-- The outcome of a target is what its emitter makes of the model, however the work was scheduled.
-/
theorem outcomes_eq (c : Compiler) (schedule : List Target) (m : Model) (o : Options)
    (ts : List Target) : c.outcomes schedule m o ts =
      ts.map fun t => (t, c.emit m (Interface.ofModel m) o t) := by
  unfold outcomes
  split
  · exact Worker.sideBySide_eq schedule ts
  · rfl

theorem interface_emit {c : Compiler} {m : Model} {i : Interface} {o : Options} {t : Target}
    {output : Output} (h : c.emit m i o t = .ok output) : output.interface = i := by
  unfold emit Emitter.outcome at h
  split at h
  · cases h
  · split at h
    · rw [← Except.ok.inj h]
    · cases h
    · cases h

/-- What becomes of a target depends on its own emitter. -/
theorem emit_congr {c c' : Compiler} {t : Target}
    (h : Entries.get? c'.emitters t = Entries.get? c.emitters t) (m : Model) (i : Interface)
    (o : Options) : c'.emit m i o t = c.emit m i o t := by
  unfold emit
  rw [h]

theorem emit_parallel {c : Compiler} {t : Target}
    (h : ∀ e ∈ Entries.get? c.emitters t, e.IgnoresParallel) (m : Model) (i : Interface)
    (o : Options) (parallel : Bool) : c.emit m i { o with parallel } t = c.emit m i o t := by
  unfold emit
  cases he : Entries.get? c.emitters t with
  | none => rfl
  | some e =>
    have hrun := h e he m i o parallel
    simp only [Emitter.outcome, hrun]

section Valid

variable {m : Model} (hvalid : m.isValid = true) (c : Compiler) (schedule : List Target)
  (targets : TargetSet) (o : Options)

include hvalid

/-- So is what was compiled. -/
theorem compileUnder_eq : c.compileUnder schedule (some m) targets o =
    .ofOutcomes m (targets.toList.map fun t => (t, c.emit m (Interface.ofModel m) o t)) := by
  have hproblems : m.problems = [] := List.isEmpty_iff.mp hvalid
  unfold compileUnder compileValid
  simp only [hproblems, outcomes_eq]

/-- **What is stored for a requested target is what its emitter makes of the model.** -/
theorem outcome?_compileUnder {t : Target} (ht : targets.contains t = true) :
    (c.compileUnder schedule (some m) targets o).outcome? t =
      some (c.emit m (Interface.ofModel m) o t) := by
  rw [compileUnder_eq hvalid, Compilation.outcome?_ofOutcomes,
    if_pos (TargetSet.mem_toList.mpr ht)]

theorem mem_outputs_iff {t : Target} :
    t ∈ (c.compileUnder schedule (some m) targets o).outputs.map (·.1) ↔
      targets.contains t = true ∧
        (c.emit m (Interface.ofModel m) o t).toOption.isSome = true := by
  have hget := Compilation.output?_ofOutcomes m (c.emit m (Interface.ofModel m) o) targets.toList t
  rw [Compilation.output?] at hget
  rw [← Entries.isSome_get?, compileUnder_eq hvalid, hget, ← TargetSet.mem_toList]
  split
  · rename_i ht
    exact (and_iff_right ht).symm
  · rename_i ht
    exact ⟨fun h => absurd h (by decide), fun h => absurd h.1 ht⟩

theorem mem_errors_iff {t : Target} :
    t ∈ (c.compileUnder schedule (some m) targets o).errors.map (·.1) ↔
      targets.contains t = true ∧
        (c.emit m (Interface.ofModel m) o t).toOption.isNone = true := by
  have hget := Compilation.errors_ofOutcomes m (c.emit m (Interface.ofModel m) o) targets.toList t
  rw [← Entries.isSome_get?, compileUnder_eq hvalid, hget, ← TargetSet.mem_toList]
  split
  · rename_i ht
    rw [Compilation.isSome_messages?]
    exact (and_iff_right ht).symm
  · rename_i ht
    exact ⟨fun h => absurd h (by decide), fun h => absurd h.1 ht⟩

theorem invalidSource_compileUnder :
    (c.compileUnder schedule (some m) targets o).invalidSource = none := by
  rw [compileUnder_eq hvalid]
  exact Compilation.invalidSource_foldl_enter _ _

/-- All outputs carry the interface of the model. -/
theorem interface_of_mem_outputs {e : Target × Output}
    (h : e ∈ (c.compileUnder schedule (some m) targets o).outputs) :
    e.2.interface = Interface.ofModel m := by
  rw [compileUnder_eq hvalid] at h
  rcases Compilation.mem_outputs_foldl_enter h with hmem | hmem
  · cases hmem
  · obtain ⟨t, _, heq⟩ := List.mem_map.mp hmem
    exact interface_emit (congrArg Prod.snd heq)

end Valid

/-- A model that is not valid compiles to nothing. -/
theorem compileUnder_invalid {m? : Option Model} (h : ¬ ∃ m, m? = some m ∧ m.isValid = true)
    (c : Compiler) (schedule : List Target) (targets : TargetSet) (o : Options) :
    ∃ reason, c.compileUnder schedule m? targets o = .invalid reason 0 := by
  cases m? with
  | none => exact ⟨_, rfl⟩
  | some m =>
    cases hproblems : m.problems with
    | nil => exact absurd ⟨m, rfl, List.isEmpty_iff.mpr hproblems⟩ h
    | cons p ps =>
      refine ⟨Model.problemText (p :: ps), ?_⟩
      unfold compileUnder
      simp only [hproblems]

/-- **Every requested target has one outcome, its own.**  Without a valid model there is only a
reason.  Otherwise the targets among the outputs and those among the errors are different and
together are the requested ones, and all outputs carry the interface of the model.  What is stored
for a requested target is what its emitter makes of the model, be it an output, reasons or a
breakdown, or that there is none.  So it is the same in every request that contains the target, by
every compiler with the same emitter for it, whatever the other emitters do and in whatever order
workers finish, and it is the same with emission side by side allowed or not, if the emitter takes no
notice of that. -/
theorem outcomes_partition (c : Compiler) (schedule : List Target) (m? : Option Model)
    (targets : TargetSet) (o : Options) (r : Compilation)
    (hr : r = c.compileUnder schedule m? targets o) :
    ((¬ ∃ m, m? = some m ∧ m.isValid = true) →
      r.invalidSource.isSome = true ∧ r.outputs = [] ∧ r.errors = []) ∧
    ∀ m, m? = some m → m.isValid = true →
      r.invalidSource = none ∧
      (∀ t ∈ r.outputs.map (·.1), t ∉ r.errors.map (·.1)) ∧
      (∀ t, t ∈ r.outputs.map (·.1) ∨ t ∈ r.errors.map (·.1) ↔ targets.contains t = true) ∧
      (∀ e ∈ r.outputs, e.2.interface = Interface.ofModel m) ∧
      ∀ t, targets.contains t = true →
        r.outcome? t = some (c.emit m (Interface.ofModel m) o t) ∧
        ∀ (c' : Compiler) (schedule' : List Target) (targets' : TargetSet),
          Entries.get? c'.emitters t = Entries.get? c.emitters t → targets'.contains t = true →
          (c'.compileUnder schedule' m? targets' o).outcome? t = r.outcome? t ∧
          ((∀ e ∈ Entries.get? c.emitters t, e.IgnoresParallel) → ∀ parallel,
            (c'.compileUnder schedule' m? targets' { o with parallel }).outcome? t =
              r.outcome? t) := by
  subst hr
  refine ⟨fun hnone => ?_, ?_⟩
  · obtain ⟨reason, hreason⟩ := compileUnder_invalid hnone c schedule targets o
    rw [hreason]
    exact ⟨rfl, rfl, rfl⟩
  rintro m rfl hvalid
  refine ⟨invalidSource_compileUnder hvalid c schedule targets o, fun t hout herr => ?_,
    fun t => ?_, fun e he => interface_of_mem_outputs hvalid c schedule targets o he,
    fun t ht => ⟨outcome?_compileUnder hvalid c schedule targets o ht, ?_⟩⟩
  · have hsome := ((mem_outputs_iff hvalid c schedule targets o).mp hout).2
    have hnone := ((mem_errors_iff hvalid c schedule targets o).mp herr).2
    rw [← Option.not_isSome, hsome] at hnone
    cases hnone
  · rw [mem_outputs_iff hvalid, mem_errors_iff hvalid, ← and_or_left, ← Option.not_isSome,
      Bool.not_eq_true']
    exact and_iff_left (Bool.eq_false_or_eq_true _)
  · intro c' schedule' targets' hsame ht'
    rw [outcome?_compileUnder hvalid c schedule targets o ht,
      outcome?_compileUnder hvalid c' schedule' targets' o ht', emit_congr hsame]
    refine ⟨rfl, fun hignores parallel => ?_⟩
    rw [outcome?_compileUnder hvalid c' schedule' targets' _ ht', emit_congr hsame,
      emit_parallel hignores]

/-- A compiler whose emitter of native source breaks down and that knows no header. -/
def fragile : Compiler :=
  (empty.register .script).register ⟨.cpp, fun _ _ _ => .crashed none⟩

theorem ignoresParallel_script : Emitter.script.IgnoresParallel := by
  intro m i o parallel
  rfl

theorem fragile_outcomes_partition : Model.door.isValid = true ∧ ∃ r,
    r = fragile.compileUnder [.hpp, .cpp] (some Model.door) .all { parallel := true } ∧
    r.invalidSource = none ∧ (∀ t ∈ r.outputs.map (·.1), t ∉ r.errors.map (·.1)) ∧
    (∀ t, t ∈ r.outputs.map (·.1) ∨ t ∈ r.errors.map (·.1)) ∧
    r.outcome? .cpp = some (.error ["translator panicked: non-text panic payload"]) ∧
    r.outcome? .hpp = some (.error ["no translator registered for target 'hpp'"]) ∧
    (standard.compileUnder [] (some Model.door) (.only .lua) {}).outcome? .lua =
      r.outcome? .lua := by
  have hvalid : Model.door.isValid = true := by decide
  obtain ⟨_, hread⟩ :=
    outcomes_partition fragile [.hpp, .cpp] (some Model.door) .all { parallel := true } _ rfl
  obtain ⟨hsource, hdisjoint, hunion, _, hstored⟩ := hread Model.door rfl hvalid
  have hall : ∀ t, TargetSet.all.contains t = true := by
    intro t
    cases t <;> decide
  refine ⟨hvalid, _, rfl, hsource, hdisjoint, fun t => (hunion t).mpr (hall t),
    (hstored .cpp (hall _)).1, (hstored .hpp (hall _)).1, ?_⟩
  have hlua := ((hstored .lua (hall _)).2 standard [] (.only .lua) rfl (by decide)).2
  refine hlua (fun e he => ?_) false
  obtain rfl : Emitter.script = e := Option.some.inj he
  exact ignoresParallel_script

end Compiler

end GraphScript
