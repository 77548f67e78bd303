import GraphScript.Host.Instance
import GraphScript.Proofs.Machine.Evolution

/-!
# Proofs/Host/Operation — operations of the host, step by step

An operation goes on with what a step answered, in the machine that the step left, or it ends with
the step's refusal.  What has to hold however an operation ends is shown for a refusal of its first
step and for what follows an answer (`Op.bind_cases`).

An operation that only runs scripts changes nothing but the machine, and that only as a script can
(`Op.Runs`); loading a script and looking something up in a table are of this kind.
-/

namespace GraphScript

open Machine (Outcome Run)

namespace Op

variable {α β : Type} {x : Op α} {f : α → Op β} {vm vm' : Vm}

/-- An operation that succeeds goes on with what it left. -/
theorem run_bind_ok {a : α} (h : x.run.run vm = (.ok a, vm')) :
    (x >>= f).run.run vm = (f a).run.run vm' := by
  rw [ExceptT.run_bind, StateT.run_bind, h]
  rfl

/-- An operation that fails is the end. -/
theorem run_bind_error {e : HostError} (h : x.run.run vm = (.error e, vm')) :
    (x >>= f).run.run vm = (.error e, vm') := by
  rw [ExceptT.run_bind, StateT.run_bind, h]
  rfl

/-- What holds if the first step refuses, and of whatever follows its answer, holds of the whole. -/
theorem bind_cases {Q : Except HostError β × Vm → Prop}
    (herror : ∀ e vm', x.run.run vm = (.error e, vm') → Q (.error e, vm'))
    (hok : ∀ a vm', x.run.run vm = (.ok a, vm') → Q ((f a).run.run vm')) :
    Q ((x >>= f).run.run vm) := by
  rcases hx : x.run.run vm with ⟨answer, vm'⟩
  cases answer with
  | error e => exact run_bind_error hx ▸ herror e vm' hx
  | ok a => exact run_bind_ok hx ▸ hok a vm' hx

section Catching

variable {handle : HostError → Op α}

/-- What succeeds is not handled. -/
theorem run_tryCatch_ok {a : α} (h : x.run.run vm = (.ok a, vm')) :
    (tryCatch x handle).run.run vm = (.ok a, vm') := by
  have hx : StateT.run x vm = (.ok a, vm') := h
  simp only [tryCatch, tryCatchThe, MonadExceptOf.tryCatch, ExceptT.tryCatch, ExceptT.run_mk,
    StateT.run_bind, hx]
  rfl

theorem run_tryCatch_error {e : HostError} (h : x.run.run vm = (.error e, vm')) :
    (tryCatch x handle).run.run vm = (handle e).run.run vm' := by
  have hx : StateT.run x vm = (.error e, vm') := h
  simp only [tryCatch, tryCatchThe, MonadExceptOf.tryCatch, ExceptT.tryCatch, ExceptT.run_mk,
    StateT.run_bind, hx]
  rfl

/-- What is observed of an operation is its answer or its refusal. -/
theorem run_observing {answer : Except HostError α} (h : x.run.run vm = (answer, vm')) :
    (observing x).run.run vm = (.ok answer, vm') := by
  cases answer with
  | ok a => exact run_tryCatch_ok (run_bind_ok h)
  | error e => exact run_tryCatch_error (run_bind_error h)

end Catching

end Op

namespace Vm

section Run

variable {α : Type} {onFailure : String → HostError} {r : Run α} {vm : Vm} {m : Machine}

/-- A run that is done answers. -/
theorem run_of_done {a : α} (h : r vm.machine = .done a m) :
    (Vm.run onFailure r).run.run vm = (.ok a, { vm with machine := m }) := by
  have hget : (get : Op Vm).run.run vm = (.ok vm, vm) := rfl
  rw [Vm.run, Op.run_bind_ok hget, h]
  rfl

/-- A run that failed is reported. -/
theorem run_of_failed {e : Machine.Failure} (h : r vm.machine = .failed e m) :
    (Vm.run onFailure r).run.run vm =
      (.error (onFailure (vm.failureText e)), { vm with machine := m }) := by
  have hget : (get : Op Vm).run.run vm = (.ok vm, vm) := rfl
  rw [Vm.run, Op.run_bind_ok hget, h]
  rfl

theorem run_of_exhausted (h : r vm.machine = .exhausted m) :
    (Vm.run onFailure r).run.run vm = (.error .unfinished, { vm with machine := m }) := by
  have hget : (get : Op Vm).run.run vm = (.ok vm, vm) := rfl
  rw [Vm.run, Op.run_bind_ok hget, h]
  rfl

end Run

/-- Only the machine has changed, and as a script can change it. -/
def Ran (vm vm' : Vm) : Prop := ∃ m, vm.machine.Evolves m ∧ vm' = { vm with machine := m }

theorem Ran.refl (vm : Vm) : Ran vm vm := ⟨vm.machine, .refl _, rfl⟩

theorem Ran.trans {vm₁ vm₂ vm₃ : Vm} (h : Ran vm₁ vm₂) (h' : Ran vm₂ vm₃) : Ran vm₁ vm₃ := by
  obtain ⟨m, hm, rfl⟩ := h
  obtain ⟨m', hm', rfl⟩ := h'
  exact ⟨m', hm.trans hm', rfl⟩

/-- Scripts leave the stack alone. -/
theorem Ran.stack_eq {vm vm' : Vm} (h : Ran vm vm') : vm'.stack = vm.stack := by
  obtain ⟨m, -, rfl⟩ := h
  rfl

end Vm

namespace Op

variable {α β : Type}

/-- However it ends, it only runs scripts. -/
def Runs (x : Op α) : Prop := ∀ vm, Vm.Ran vm (x.run.run vm).2

theorem Runs.ran {x : Op α} {answer : Except HostError α} {vm vm' : Vm} (hx : Runs x)
    (h : x.run.run vm = (answer, vm')) : Vm.Ran vm vm' := by
  have hran := hx vm
  rw [h] at hran
  exact hran

theorem runs_pure (a : α) : Runs (pure a) := fun vm => .refl vm

theorem runs_throw (e : HostError) : Runs (throw e : Op α) := fun vm => .refl vm

theorem runs_get : Runs (get : Op Vm) := fun vm => .refl vm

/-- Operations that run scripts, run scripts in turn. -/
theorem runs_bind {x : Op α} {f : α → Op β} (hx : Runs x) (hf : ∀ a, Runs (f a)) :
    Runs (x >>= f) := by
  intro vm
  refine bind_cases (Q := fun r => Vm.Ran vm r.2) (fun e vm' h => ?_) (fun a vm' h => ?_)
  · exact hx.ran h
  · exact (hx.ran h).trans (hf a vm')

theorem runs_run {r : Run α} (hr : r.Evolving) (onFailure : String → HostError) :
    Runs (Vm.run onFailure r) := by
  intro vm
  have hevolves := hr vm.machine
  cases h : r vm.machine with
  | done a m =>
    rw [h] at hevolves
    exact ⟨m, hevolves, congrArg Prod.snd (Vm.run_of_done h)⟩
  | failed e m =>
    rw [h] at hevolves
    exact ⟨m, hevolves, congrArg Prod.snd (Vm.run_of_failed h)⟩
  | exhausted m =>
    rw [h] at hevolves
    exact ⟨m, hevolves, congrArg Prod.snd (Vm.run_of_exhausted h)⟩

/-- Evaluating a chunk runs scripts. -/
theorem runs_evalChunk (name source : String) : Runs (Vm.evalChunk name source) := by
  unfold Vm.evalChunk
  split
  · exact runs_throw _
  · split
    · exact runs_throw _
    · refine runs_bind runs_get fun vm => runs_bind (runs_run ?_ _) fun _ => runs_pure _
      exact Run.evolving_bind (Run.evolving_newClosure _) fun _ => (Run.evolvingAt _).call _ _ _ _

theorem runs_entryOf (t : Script.Value) (name : String) : Runs (Instance.entryOf t name) :=
  runs_bind runs_get fun _ => runs_run ((Run.evolvingAt _).index _ _ _ _) _

end Op

namespace Instance

/-- An operation is allowed in its states, and refused in others. -/
theorem run_require {vm : Vm} {number : Nat} {i : Instance} (operation : String)
    (allowed : List InstanceState) (hi : get? vm number = some i) :
    (require number operation allowed).run.run vm =
      (if i.state ∈ allowed then .ok i else .error (.lifecycle operation i.state), vm) := by
  have hget : (get : Op Vm).run.run vm = (.ok vm, vm) := rfl
  rw [require, Op.run_bind_ok hget]
  simp only [hi]
  split
  · rfl
  · rfl

/-- An operation on an instance that does not exist is refused. -/
theorem run_require_none {vm : Vm} {number : Nat} (operation : String)
    (allowed : List InstanceState) (hi : get? vm number = none) :
    (require number operation allowed).run.run vm =
      (.error (.lifecycle operation .unloaded), vm) := by
  have hget : (get : Op Vm).run.run vm = (.ok vm, vm) := rfl
  rw [require, Op.run_bind_ok hget]
  simp only [hi]
  rfl

/-- An operation that is not allowed in the state of its instance is refused and changes nothing. -/
theorem run_require_cases (vm : Vm) (number : Nat) (operation : String)
    (allowed : List InstanceState) :
    (∃ s, (require number operation allowed).run.run vm = (.error (.lifecycle operation s), vm)) ∨
    ∃ i, get? vm number = some i ∧ i.state ∈ allowed ∧
      (require number operation allowed).run.run vm = (.ok i, vm) := by
  cases hi : get? vm number with
  | none => exact .inl ⟨_, run_require_none operation allowed hi⟩
  | some i =>
    have hrequire := run_require operation allowed hi
    by_cases hs : i.state ∈ allowed
    · rw [if_pos hs] at hrequire
      exact .inr ⟨i, rfl, hs, hrequire⟩
    · rw [if_neg hs] at hrequire
      exact .inl ⟨i.state, hrequire⟩

/-- The host objects that an instance is activated with: as many as are expected, each of the
expected class. -/
def Accepts (i : Instance) (objects : List ObjectRef) : Prop :=
  objects.length = i.inputs.nodeables.length ∧ nodeableFault? 1 i.inputs.nodeables objects = none

/-- **Activation with other host objects is refused**, and changes nothing. -/
theorem activate_refused {vm : Vm} {number : Nat} {i : Instance} {objects : List ObjectRef}
    (hi : get? vm number = some i) (h : ¬ i.Accepts objects) :
    ∃ e, (activate number objects).run.run vm = (.error e, vm) := by
  have hrequire := run_require "activate" [.uninitialized] hi
  by_cases hs : i.state ∈ [InstanceState.uninitialized]
  · rw [if_pos hs] at hrequire
    rw [activate, Op.run_bind_ok hrequire]
    by_cases hlen : objects.length = i.inputs.nodeables.length
    · cases hf : nodeableFault? 1 i.inputs.nodeables objects with
      | none => exact absurd ⟨hlen, hf⟩ h
      | some e =>
        refine ⟨e, ?_⟩
        simp only [hf, hlen, ne_eq, not_true, if_false]
        rfl
    · refine ⟨.nodeableCount i.inputs.nodeables.length objects.length, ?_⟩
      simp only [hlen, ne_eq, not_false_iff, if_true]
      rfl
  · rw [if_neg hs] at hrequire
    exact ⟨.lifecycle "activate" i.state, Op.run_bind_error hrequire⟩

end Instance

end GraphScript
