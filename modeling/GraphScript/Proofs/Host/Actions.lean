import GraphScript.Proofs.Host.Balance
import Mathlib.Logic.Relation

/-!
# Proofs/Host/Actions — what operations of the host do to a machine

An operation of the host lets scripts run, adds an instance or a function of the host, changes the
settings, or moves one instance on: it is loaded, constructed, given a handler or unloaded.  `Step`
says this once, and every operation is some of these steps in turn (`HostAction.steps_perform`).
-/

namespace GraphScript

open Machine (Run)
open Script (Value)

/-- A change is made to one instance. -/
theorem Vm.get?_changed {vm : Vm} {number n : Nat} {f : Instance → Instance} :
    Instance.get? (Instance.changed number f vm) n =
      if number = n then (Instance.get? vm n).map f else Instance.get? vm n :=
  Machine.getElem?_changeInstance _ _ _ _

namespace Op

variable {α β : Type}

/-- However it ends, it changes the machine as a script can. -/
def Evolving (x : Op α) : Prop := ∀ vm : Vm, vm.machine.Evolves (x.run.run vm).2.machine

theorem Runs.evolving {x : Op α} (h : Runs x) : Evolving x := fun vm => (h vm).balanced.evolves

theorem Evolving.evolves {x : Op α} {answer : Except HostError α} {vm vm' : Vm} (hx : Evolving x)
    (h : x.run.run vm = (answer, vm')) : vm.machine.Evolves vm'.machine := by
  have hevolves := hx vm
  rw [h] at hevolves
  exact hevolves

/-- Operations in turn leave what scripts leave in turn. -/
theorem evolving_bind {x : Op α} {f : α → Op β} (hx : Evolving x) (hf : ∀ a, Evolving (f a)) :
    Evolving (x >>= f) := by
  intro vm
  refine bind_cases (Q := fun r => vm.machine.Evolves r.2.machine)
    (fun e vm' h => hx.evolves h) (fun a vm' h => (hx.evolves h).trans (hf a vm'))

theorem evolving_pushValue (v : Value) : Evolving (Vm.pushValue v) :=
  fun vm => .refl vm.machine

theorem evolving_push (d : Datum) : Evolving (Vm.push d) := fun _ => .memory rfl rfl rfl

theorem evolving_read (index : Int) (t : DataType) : Evolving (Vm.read index t) := by
  intro vm
  obtain ⟨answer, hread⟩ := Vm.exists_read vm index t
  rw [hread]
  exact .refl vm.machine

theorem evolving_take (count : Nat) : Evolving (Vm.take count) := by
  intro vm
  by_cases h : vm.stack.length < count
  · rw [Vm.take_of_lt h]
    exact .refl vm.machine
  · obtain ⟨top, hstack, rfl⟩ := Vm.exists_top (Nat.le_of_not_lt h)
    rw [Vm.take_eq hstack]
    exact .refl vm.machine

/-- A call leaves instances to scripts. -/
theorem evolving_safeCall (argCount returnCount : Nat) :
    Evolving (Vm.safeCall argCount returnCount) := by
  refine evolving_bind (evolving_take _) fun values => ?_
  extract_lets callee go
  split
  · exact fun vm => .refl vm.machine
  · exact evolving_bind (fun _ => .memory rfl rfl rfl) fun _ =>
      evolving_bind runs_get.evolving fun _ =>
        evolving_bind (runs_run ((Run.evolvingAt _).call _ _ _ _) _).evolving fun _ =>
          fun vm => .refl vm.machine

theorem evolving_annotatedCall (i : Instance) (argCount returnCount : Nat) :
    Evolving (Instance.annotatedCall i argCount returnCount) := by
  intro vm
  have hevolves := evolving_safeCall argCount returnCount vm
  rcases hcall : (Vm.safeCall argCount returnCount).run.run vm with ⟨answer, vm'⟩
  rw [hcall] at hevolves
  cases answer with
  | error e =>
    obtain ⟨e', he'⟩ := Instance.annotatedCall_of_error i hcall
    rw [he']
    exact hevolves
  | ok u =>
    rw [Instance.annotatedCall, run_tryCatch_ok hcall]
    exact hevolves

theorem evolving_evalChunk_bind {name source : String} {f : Value → Op β}
    (hf : ∀ v, Evolving (f v)) : Evolving (Vm.evalChunk name source >>= f) :=
  evolving_bind (runs_evalChunk name source).evolving hf

/-- Operations on the stack leave instances to scripts. -/
theorem evolving_perform (a : Vm.Action) : Evolving a.perform := by
  cases a with
  | push d => exact evolving_push d
  | pushCallable c => exact evolving_pushValue c.function
  | loadChunk name source => exact evolving_evalChunk_bind evolving_pushValue
  | read index t => exact evolving_bind (evolving_read index t) fun _ => (runs_pure ()).evolving
  | pop count => exact evolving_bind (evolving_take count) fun _ => (runs_pure ()).evolving
  | safeCall argCount returnCount => exact evolving_safeCall argCount returnCount

end Op

/-! ## Operations -/

/-- An operation of the host on a machine and its instances. -/
inductive HostAction where
  | prepare (o : Output) (owner : EntityId)
  | instantiate (o : Output) (owner : EntityId) (nodeables : List ObjectRef)
  | activate (number : Nat) (nodeables : List ObjectRef)
  | bindOut (number : Nat) (key : String) (mode : OutMode) (c : Callable)
  | callIn (number : Nat) (name : String) (args : List Datum)
  | push (number : Nat) (d : Datum)
  | read (number : Nat) (index : Int) (t : DataType)
  | safeCall (number argCount returnCount : Nat)
  | unload (number : Nat)
  | onStack (a : Vm.Action)
  | createCallable (f : HostFunction)
  | loadCallable (name source : String)
  | setBuild (b : Build)
  | setLimit (limit : Option UInt64)
  | offerServices

namespace HostAction

/-- Does it, and drops what it answers. -/
def perform : HostAction → Op Unit
  | .prepare o owner => do
    let _ ← Instance.prepare o owner
  | .instantiate o owner nodeables => do
    let _ ← Instance.instantiate o owner nodeables
  | .activate number nodeables => Instance.activate number nodeables
  | .bindOut number key mode c => Instance.bindOut number key mode c
  | .callIn number name args => do
    let _ ← Instance.callIn number name args
  | .push number d => Instance.push number d
  | .read number index t => do
    let _ ← Instance.read number index t
  | .safeCall number argCount returnCount => Instance.safeCall number argCount returnCount
  | .unload number => Instance.unload number
  | .onStack a => a.perform
  | .createCallable f => do
    let _ ← Vm.createCallable f
  | .loadCallable name source => do
    let _ ← Vm.loadCallable name source
  | .setBuild b => modify fun vm => vm.setBuild b
  | .setLimit limit => modify fun vm => vm.setLimit limit
  | .offerServices => modify fun vm => vm.activate.2

/-- The instance that it is an operation on. -/
def target? : HostAction → Option Nat
  | .activate number _ => some number
  | .bindOut number _ _ _ => some number
  | .callIn number _ _ => some number
  | .push number _ => some number
  | .read number _ _ => some number
  | .safeCall number _ _ => some number
  | .unload number => some number
  | _ => none

/-- The machine after some operations. -/
def after : List HostAction → Vm → Vm
  | [], vm => vm
  | a :: actions, vm => after actions (a.perform.run.run vm).2

end HostAction

/-! ## Steps -/

namespace Vm

/-- A machine with one more instance. -/
def holding (vm : Vm) (i : Instance) : Vm :=
  { vm with machine := { vm.machine with instances := vm.machine.instances.push i } }

/-- One more instance has the next number. -/
theorem get?_holding {vm : Vm} {i : Instance} {n : Nat} : Instance.get? (vm.holding i) n =
    if n = vm.machine.instances.size then some i else Instance.get? vm n :=
  Array.getElem?_push

/-- Instances keep their numbers when one is added. -/
theorem get?_holding_of_eq_some {vm : Vm} {j : Instance} {n : Nat}
    (hj : Instance.get? vm n = some j) (i : Instance) :
    Instance.get? (vm.holding i) n = some j := by
  have hlt : n < vm.machine.instances.size := (Array.getElem?_eq_some_iff.mp hj).1
  rw [get?_holding, if_neg (Nat.ne_of_lt hlt), hj]

/-- A machine with one more function of the host. -/
def offering (vm : Vm) (g : HostFunction) : Vm :=
  { vm with machine := { vm.machine with callables := vm.machine.callables.push g } }

/-- A function of the host is made callable under the next number. -/
theorem run_createCallable (vm : Vm) (g : HostFunction) : (createCallable g).run.run vm =
    (.ok ⟨.callable vm.machine.callables.size⟩, vm.offering g) := rfl

end Vm

namespace Instance

/-- An instance with a handler for an out-event. -/
def bound (key : String) (b : Binding) (i : Instance) : Instance :=
  { i with bindings := Entries.put i.bindings key b }

/-- An instance at the end of its life. -/
def ended (i : Instance) : Instance :=
  { i with classTable := none, object := none, bindings := [], state := .unloaded }

variable {vm : Vm} {number : Nat} {i : Instance} {key : String}

/-- Out-events that an instance declares can be bound, before it is unloaded and while it does not
wait for a handler. -/
theorem run_bindOut (hi : get? vm number = some i)
    (hs : i.state ∈ [.uninitialized, .activated, .running])
    (hout : (i.interface.findOut? key).isSome) (mode : OutMode) (c : Callable) :
    (bindOut number key mode c).run.run vm =
      (.ok (), changed number (bound key ⟨mode, c.function⟩) vm) := by
  have hrequire := run_require "bind an out-event" [.uninitialized, .activated, .running] hi
  rw [if_pos hs] at hrequire
  rw [bindOut, Op.run_bind_ok hrequire, Option.isNone_eq_false_iff.mpr hout]
  rfl

/-- Any other binding is refused, and changes nothing. -/
theorem bindOut_cases (vm : Vm) (number : Nat) (key : String) (mode : OutMode) (c : Callable) :
    (∃ e, (bindOut number key mode c).run.run vm = (.error e, vm)) ∨
    ∃ i, get? vm number = some i ∧ i.state ∈ [.uninitialized, .activated, .running] ∧
      (i.interface.findOut? key).isSome := by
  obtain ⟨s, hrequire⟩ | ⟨i, hi, hs, hrequire⟩ := run_require_cases vm number "bind an out-event"
    [.uninitialized, .activated, .running]
  · exact .inl ⟨_, Op.run_bind_error hrequire⟩
  · cases hout : i.interface.findOut? key with
    | none =>
      refine .inl ⟨.unknownOut key, ?_⟩
      rw [bindOut, Op.run_bind_ok hrequire, hout]
      rfl
    | some signature => exact .inr ⟨i, hi, hs, by rw [hout]; rfl⟩

end Instance

namespace HostAction

open Instance (get? changed)

/-- A step in what an operation does to a machine.  Only a binding gives an instance a handler, and
only an unloading ends its life. -/
inductive Step (a : HostAction) : Vm → Vm → Prop
  | ran {vm vm' : Vm} (h : vm.machine.Evolves vm'.machine) : Step a vm vm'
  | configured {vm vm' : Vm} (hinstances : vm'.machine.instances = vm.machine.instances)
      (hcallables : vm'.machine.callables = vm.machine.callables) : Step a vm vm'
  | offered (vm : Vm) (g : HostFunction) : Step a vm (vm.offering g)
  | prepared (vm : Vm) {i : Instance} (hs : i.state = .uninitialized) : Step a vm (vm.holding i)
  | loaded {vm : Vm} {number : Nat} {i : Instance} (classTable : Value)
      (hi : get? vm number = some i) (hs : i.state = .uninitialized) :
      Step a vm (changed number (Instance.loaded classTable) vm)
  | constructed {vm : Vm} {number : Nat} {i : Instance} (object : Value)
      (hi : get? vm number = some i) (hs : i.state = .activated) :
      Step a vm (changed number (Instance.constructed object) vm)
  | bound {vm : Vm} {number : Nat} {i : Instance} {key : String} {mode : OutMode} {c : Callable}
      (ha : a = .bindOut number key mode c) (hi : get? vm number = some i)
      (hs : i.state ∈ [.uninitialized, .activated, .running]) :
      Step a vm (changed number (Instance.bound key ⟨mode, c.function⟩) vm)
  | unloaded {vm : Vm} {number : Nat} {i : Instance} (ha : a = .unload number)
      (hi : get? vm number = some i)
      (hs : i.state ∈ [.uninitialized, .activated, .running, .suspended]) :
      Step a vm (changed number Instance.ended vm)

/-- Steps in turn. -/
abbrev Steps (a : HostAction) : Vm → Vm → Prop := Relation.ReflTransGen a.Step

/-- However the operation ends, it did some steps. -/
def Takes {α : Type} (a : HostAction) (x : Op α) : Prop := ∀ vm, a.Steps vm (x.run.run vm).2

variable {a : HostAction} {α β : Type}

theorem takes_evolving {x : Op α} (h : Op.Evolving x) : a.Takes x := fun vm => .single (.ran (h vm))

/-- What operations do in turn is steps in turn. -/
theorem takes_bind {x : Op α} {f : α → Op β} (hx : a.Takes x) (hf : ∀ b, a.Takes (f b)) :
    a.Takes (x >>= f) := by
  intro vm
  have hsteps := hx vm
  refine Op.bind_cases (Q := fun r => a.Steps vm r.2) (fun e vm' h => ?_) (fun b vm' h => ?_)
  · rw [h] at hsteps
    exact hsteps
  · rw [h] at hsteps
    exact hsteps.trans (hf b vm')

theorem takes_drop {x : Op α} (hx : a.Takes x) : a.Takes (x >>= fun _ => pure ()) :=
  takes_bind hx fun _ => takes_evolving (Op.runs_pure ()).evolving

/-- An operation that its instance allows, and that leaves the instances to scripts. -/
theorem takes_require_bind (number : Nat) (operation : String) (allowed : List InstanceState)
    {f : Instance → Op α} (hf : ∀ i, Op.Evolving (f i)) :
    a.Takes (Instance.require number operation allowed >>= f) := by
  intro vm
  obtain ⟨s, hrequire⟩ | ⟨i, -, -, hrequire⟩ :=
    Instance.run_require_cases vm number operation allowed
  · rw [Op.run_bind_error hrequire]
  · rw [Op.run_bind_ok hrequire]
    exact takes_evolving (hf i) vm

/-- Preparing adds an instance or is refused. -/
theorem takes_prepare (o : Output) (owner : EntityId) : a.Takes (Instance.prepare o owner) := by
  intro vm
  rw [Instance.prepare]
  by_cases htarget : o.target = .lua
  · by_cases hmode : o.runtimeInputs.executionMode = .interpreted
    · simp only [htarget, hmode, ne_eq, not_true, if_false]
      exact .single (.prepared vm rfl)
    · simp only [htarget, hmode, ne_eq, not_true, not_false_iff, if_false, if_true]
      exact .refl
  · simp only [htarget, ne_eq, not_false_iff, if_true]
    exact .refl

/-- **Activating loads an instance, and then constructs it**, with scripts run before and between.
-/
theorem takes_activate (number : Nat) (nodeables : List ObjectRef) :
    a.Takes (Instance.activate number nodeables) := by
  intro vm
  have hactivation := Instance.activation vm number nodeables
  generalize (Instance.activate number nodeables).run.run vm = r at hactivation
  -- scripts run before an instance is loaded and before it is constructed, and leave it its state
  have hstate : ∀ {vm vm' : Vm} {i : Instance}, vm.machine.Evolves vm'.machine →
      get? vm number = some i → ∃ j, get? vm' number = some j ∧ j.state = i.state := by
    intro vm vm' i h hi
    obtain ⟨j, hj, _, _, rfl, -⟩ := h.grown hi
    exact ⟨_, hj, rfl⟩
  have hload : ∀ {i vm₁} (classTable : Value), get? vm number = some i → i.state = .uninitialized →
      vm.Balanced vm₁ → a.Steps vm (changed number (Instance.loaded classTable) vm₁) := by
    intro i vm₁ classTable hi hs h₁
    obtain ⟨j, hj, hjs⟩ := hstate h₁.evolves hi
    exact .tail (.single (.ran h₁.evolves)) (.loaded classTable hj (hjs.trans hs))
  cases hactivation with
  | refused h => exact .single (.ran h.evolves)
  | stopped hi hs h₁ h₂ => exact .tail (hload _ hi hs h₁) (.ran h₂.evolves)
  | @completed i classTable object vm₁ vm₂ hi hs h₁ h₂ =>
    obtain ⟨j, hj, -⟩ := hstate h₁.evolves hi
    obtain ⟨k, hk, hks⟩ := hstate (i := j.loaded classTable) h₂.evolves
      (by rw [Vm.get?_changed, if_pos rfl, hj, Option.map_some])
    exact .tail (.tail (hload classTable hi hs h₁) (.ran h₂.evolves)) (.constructed object hk hks)

/-- **Operations of the host are made of these steps.** -/
theorem steps_perform (a : HostAction) (vm : Vm) : a.Steps vm (a.perform.run.run vm).2 := by
  cases a with
  | prepare o owner => exact takes_drop (takes_prepare o owner) vm
  | instantiate o owner nodeables =>
    exact takes_drop (takes_bind (takes_prepare o owner) fun number =>
      takes_bind (takes_activate number nodeables) fun _ =>
        takes_evolving (Op.runs_pure number).evolving) vm
  | activate number nodeables => exact takes_activate number nodeables vm
  | bindOut number key mode c =>
    obtain ⟨e, hrefused⟩ | ⟨i, hi, hs, hout⟩ := Instance.bindOut_cases vm number key mode c
    · rw [perform, hrefused]
    · rw [perform, Instance.run_bindOut hi hs hout]
      exact .single (.bound rfl hi hs)
  | callIn number name args =>
    exact takes_drop (takes_evolving (Instance.runs_callIn number name args).evolving) vm
  | push number d => exact takes_require_bind _ _ _ (fun _ => Op.evolving_push d) vm
  | read number index t =>
    exact takes_drop (takes_require_bind _ _ _ fun _ => Op.evolving_read index t) vm
  | safeCall number argCount returnCount =>
    exact takes_require_bind _ _ _ (fun i => Op.evolving_annotatedCall i argCount returnCount) vm
  | unload number =>
    obtain ⟨s, hrequire⟩ | ⟨i, hi, hs, hrequire⟩ := Instance.run_require_cases vm number
      "unload" [.uninitialized, .activated, .running, .suspended]
    · rw [perform, Instance.unload, Op.run_bind_error hrequire]
    · rw [perform, Instance.unload, Op.run_bind_ok hrequire]
      exact .single (.unloaded rfl hi hs)
  | onStack a => exact takes_evolving (Op.evolving_perform a) vm
  | createCallable g => exact .single (.offered vm g)
  | loadCallable name source =>
    refine takes_drop (takes_evolving (Op.evolving_evalChunk_bind fun v => ?_)) vm
    split
    · exact (Op.runs_pure _).evolving
    · exact (Op.runs_throw _).evolving
  | setBuild b => exact .single (.configured rfl rfl)
  | setLimit limit => exact .single (.configured rfl rfl)
  | offerServices => exact .single (.ran vm.balanced_activate.evolves)

end HostAction

end GraphScript
