import GraphScript.Proofs.Host.Actions
import GraphScript.Proofs.Machine.Metering

/-!
# Proofs/Host/Regime — the limit that the meter enforces

The host sets a limit and a build, and from both follows what the meter enforces
(`Vm.enforcedLimit`).  Nothing but these two operations changes how the meter works: all others keep
its limit and its interval (`Op.Keeps`).  So after any operations the meter of a new machine
enforces the limit that is set, and looks at it in intervals of at least one instruction
(`HostAction.regulated_after`).
-/

namespace GraphScript

open Machine (Run)
open Script (Value)

namespace Vm

/-- What decides how the meter works. -/
def regime (vm : Vm) : Option Nat × Nat × Build × Option UInt64 :=
  (vm.machine.meter.limit, vm.machine.meter.interval, vm.build, vm.limit)

/-- The meter enforces the limit that is set, and looks at it now and then. -/
structure Regulated (vm : Vm) : Prop where
  limit_eq : vm.machine.meter.limit = vm.enforcedLimit
  interval_pos : 0 < vm.machine.meter.interval

/-- A machine is regulated by its regime. -/
theorem Regulated.of_regime_eq {vm vm' : Vm} (h : vm.Regulated) (heq : vm'.regime = vm.regime) :
    vm'.Regulated := by
  obtain ⟨hlimit, hinterval, hbuild, hset⟩ :
      vm'.machine.meter.limit = vm.machine.meter.limit ∧
        vm'.machine.meter.interval = vm.machine.meter.interval ∧ vm'.build = vm.build ∧
        vm'.limit = vm.limit := by
    simpa only [regime, Prod.mk.injEq] using heq
  refine ⟨?_, hinterval ▸ h.interval_pos⟩
  rw [hlimit, h.limit_eq, enforcedLimit, enforcedLimit, hbuild, hset]

/-- Installing the limit regulates a machine. -/
theorem regulated_installLimit {vm : Vm} (h : 0 < vm.machine.meter.interval) :
    vm.installLimit.Regulated := ⟨rfl, h⟩

theorem regulated_new (hookInterval : UInt32) : (Vm.new hookInterval).Regulated :=
  ⟨rfl, Nat.lt_of_lt_of_le Nat.zero_lt_one (Nat.le_max_right _ _)⟩

end Vm

namespace Op

variable {α β : Type}

/-- However it ends, it leaves alone what decides how the meter works. -/
def Keeps (x : Op α) : Prop := ∀ vm, (x.run.run vm).2.regime = vm.regime

theorem Keeps.regime_eq {x : Op α} {answer : Except HostError α} {vm vm' : Vm} (hx : Keeps x)
    (h : x.run.run vm = (answer, vm')) : vm'.regime = vm.regime := by
  have hregime := hx vm
  rw [h] at hregime
  exact hregime

theorem keeps_pure (a : α) : Keeps (pure a) := fun _ => rfl

theorem keeps_throw (e : HostError) : Keeps (throw e : Op α) := fun _ => rfl

theorem keeps_get : Keeps (get : Op Vm) := fun _ => rfl

theorem keeps_modify {f : Vm → Vm} (h : ∀ vm, (f vm).regime = vm.regime) :
    Keeps (modify f : Op Unit) := h

/-- Operations that keep the regime keep it in turn. -/
theorem keeps_bind {x : Op α} {f : α → Op β} (hx : Keeps x) (hf : ∀ a, Keeps (f a)) :
    Keeps (x >>= f) := by
  intro vm
  refine bind_cases (Q := fun r => r.2.regime = vm.regime) (fun e vm' h => hx.regime_eq h)
    fun a vm' h => ?_
  exact (hf a vm').trans (hx.regime_eq h)

theorem keeps_drop {x : Op α} (hx : Keeps x) : Keeps (x >>= fun _ => pure ()) :=
  keeps_bind hx fun _ => keeps_pure ()

theorem keeps_tryCatch {x : Op α} {handle : HostError → Op α} (hx : Keeps x)
    (hhandle : ∀ e, Keeps (handle e)) : Keeps (tryCatch x handle) := by
  intro vm
  rcases h : x.run.run vm with ⟨answer, vm'⟩
  cases answer with
  | ok a =>
    rw [run_tryCatch_ok h]
    exact hx.regime_eq h
  | error e =>
    rw [run_tryCatch_error h]
    exact (hhandle e vm').trans (hx.regime_eq h)

theorem keeps_observing {x : Op α} (hx : Keeps x) : Keeps (observing x) := by
  intro vm
  rw [run_observing (Prod.mk.eta (p := x.run.run vm)).symm]
  exact hx vm

/-- Scripts cannot change how the meter works. -/
theorem keeps_run {r : Run α} (hr : r.Metered) (hevolving : r.Evolving)
    (onFailure : String → HostError) : Keeps (Vm.run onFailure r) := by
  intro vm
  have hmeters := hr.meters vm.machine
  have hbuild := (hevolving vm.machine).host_eq.2
  have hregime : ((r vm.machine).machine.meter.limit, (r vm.machine).machine.meter.interval,
      (r vm.machine).machine.build, vm.limit) = vm.regime := by
    rw [hmeters.limit, hmeters.interval, hbuild]
    rfl
  cases h : r vm.machine with
  | done a m => rw [Vm.run_of_done h, ← hregime, h]; rfl
  | failed e m => rw [Vm.run_of_failed h, ← hregime, h]; rfl
  | exhausted m => rw [Vm.run_of_exhausted h, ← hregime, h]; rfl

/-! ## The stack -/

theorem keeps_pushValue (v : Value) : Keeps (Vm.pushValue v) := fun _ => rfl

theorem keeps_push (d : Datum) : Keeps (Vm.push d) := fun _ => rfl

theorem keeps_readValue (index : Int) : Keeps (Vm.readValue index) := by
  refine keeps_bind keeps_get fun vm => ?_
  dsimp only
  split
  · exact keeps_pure _
  · exact keeps_throw _

theorem keeps_read (index : Int) (t : DataType) : Keeps (Vm.read index t) := by
  refine keeps_bind (keeps_readValue index) fun v => ?_
  split
  · exact keeps_pure _
  · exact keeps_throw _

theorem keeps_take (count : Nat) : Keeps (Vm.take count) := by
  intro vm
  by_cases h : vm.stack.length < count
  · rw [Vm.take_of_lt h]
  · obtain ⟨top, hstack, rfl⟩ := Vm.exists_top (Nat.le_of_not_lt h)
    rw [Vm.take_eq hstack]
    rfl

theorem keeps_pop (count : Nat) : Keeps (Vm.pop count) := keeps_drop (keeps_take count)

/-- A call keeps the regime: it counts anew, but under the same limit. -/
theorem keeps_safeCall (argCount returnCount : Nat) : Keeps (Vm.safeCall argCount returnCount) := by
  refine keeps_bind (keeps_take _) fun values => ?_
  extract_lets callee go
  split
  · exact keeps_throw _
  · exact keeps_bind (keeps_modify fun _ => rfl) fun _ => keeps_bind keeps_get fun vm =>
      keeps_bind (keeps_run ((Run.meteredAt _).call _ _ _ _) ((Run.evolvingAt _).call _ _ _ _) _)
        fun _ => keeps_modify fun _ => rfl

/-- Evaluating a chunk keeps it. -/
theorem keeps_evalChunk (name source : String) : Keeps (Vm.evalChunk name source) := by
  unfold Vm.evalChunk
  split
  · exact keeps_throw _
  · split
    · exact keeps_throw _
    · refine keeps_bind keeps_get fun vm => keeps_bind (keeps_run ?_ ?_ _) fun _ => keeps_pure _
      · exact Run.metered_bind (Run.closed_metered.newClosure _) fun _ =>
          (Run.meteredAt _).call _ _ _ _
      · exact Run.evolving_bind (Run.evolving_newClosure _) fun _ =>
          (Run.evolvingAt _).call _ _ _ _

/-- Operations on the stack keep the regime. -/
theorem keeps_perform (a : Vm.Action) : Keeps a.perform := by
  cases a with
  | push d => exact keeps_push d
  | pushCallable c => exact keeps_pushValue c.function
  | loadChunk name source => exact keeps_bind (keeps_evalChunk name source) keeps_pushValue
  | read index t => exact keeps_drop (keeps_read index t)
  | pop count => exact keeps_pop count
  | safeCall argCount returnCount => exact keeps_safeCall argCount returnCount

/-! ## Instances -/

theorem keeps_require (number : Nat) (operation : String) (allowed : List InstanceState) :
    Keeps (Instance.require number operation allowed) := by
  refine keeps_bind keeps_get fun vm => ?_
  split
  · exact keeps_throw _
  · split
    · exact keeps_pure _
    · exact keeps_throw _

theorem keeps_change (number : Nat) (f : Instance → Instance) : Keeps (Instance.change number f) :=
  keeps_modify fun _ => rfl

theorem keeps_annotatedCall (i : Instance) (argCount returnCount : Nat) :
    Keeps (Instance.annotatedCall i argCount returnCount) := by
  refine keeps_tryCatch (keeps_safeCall argCount returnCount) fun e => ?_
  split
  · exact keeps_bind keeps_get fun _ => keeps_throw _
  · exact keeps_throw _

theorem keeps_entryOf (t : Value) (name : String) : Keeps (Instance.entryOf t name) :=
  keeps_bind keeps_get fun _ =>
    keeps_run ((Run.meteredAt _).index _ _ _ _) ((Run.evolvingAt _).index _ _ _ _) _

theorem keeps_prepare (o : Output) (owner : EntityId) : Keeps (Instance.prepare o owner) := by
  intro vm
  rw [Instance.prepare]
  by_cases htarget : o.target = .lua
  · by_cases hmode : o.runtimeInputs.executionMode = .interpreted
    · simp only [htarget, hmode, ne_eq, not_true, if_false]
      rfl
    · simp only [htarget, hmode, ne_eq, not_true, not_false_iff, if_false, if_true]
      rfl
  · simp only [htarget, ne_eq, not_false_iff, if_true]
    rfl

theorem meter_enter {embed : Machine → α → Value × Machine}
    (hembed : ∀ m a, (embed m a).2.meter = m.meter) (m : Machine) (t : Script.Table)
    (entries : List (VariableId × α)) : (Instance.enter embed m t entries).2.meter = m.meter := by
  induction entries generalizing m t with
  | nil => rfl
  | cons e rest ih => exact (ih _ _).trans (hembed m e.2)

theorem meter_supplied (number : Nat) (i : Instance) (nodeables : List ObjectRef)
    (constructor : Value) (vm : Vm) :
    (Instance.supplied number i nodeables constructor vm).machine.meter = vm.machine.meter := by
  have hstatic : ∀ (m : Machine) (s : StaticValue), (m.embedStatic s).2.meter = m.meter := by
    intro m s
    cases s with
    | number | text | numberList | textList | lookup => rfl
  exact (meter_enter hstatic _ _ _).trans (meter_enter (fun _ _ => rfl) _ _ _)

/-- Being supplied changes no regime. -/
theorem regime_supplied (number : Nat) (i : Instance) (nodeables : List ObjectRef)
    (constructor : Value) (vm : Vm) :
    (Instance.supplied number i nodeables constructor vm).regime = vm.regime := by
  have hbuild := (Instance.evolves_supplied number i nodeables constructor vm).host_eq.2
  rw [Vm.regime, Vm.build, meter_supplied, hbuild]
  rfl

theorem keeps_construct (number : Nat) (i : Instance) : Keeps (Instance.construct number i) := by
  refine keeps_bind (keeps_annotatedCall i 2 1) fun _ =>
    keeps_bind (keeps_readValue _) fun object => keeps_bind (keeps_pop 1) fun _ => ?_
  extract_lets go
  split
  · exact keeps_throw _
  · exact keeps_change _ _

theorem regime_activate (vm : Vm) : vm.activate.2.regime = vm.regime := by
  unfold Vm.activate
  split
  · rfl
  · rfl

/-- Activating keeps the regime. -/
theorem keeps_activate (number : Nat) (nodeables : List ObjectRef) :
    Keeps (Instance.activate number nodeables) := by
  intro vm
  obtain ⟨s, hrequire⟩ | ⟨i, hi, hs, hrequire⟩ :=
    Instance.run_require_cases vm number "activate" [.uninitialized]
  · rw [Instance.activate, run_bind_error hrequire]
  · by_cases haccepts : i.Accepts nodeables
    · rw [Instance.activate_eq hi (List.mem_singleton.mp hs) haccepts, ← regime_activate vm]
      refine keeps_bind (keeps_evalChunk _ _) (fun classTable => ?_) vm.activate.2
      split
      · exact keeps_throw _
      · exact keeps_bind (keeps_entryOf _ _) fun constructor =>
          keeps_bind (keeps_modify fun vm => regime_supplied number i nodeables constructor _)
            fun _ => keeps_construct number i
    · obtain ⟨e, hrefused⟩ := Instance.activate_refused hi haccepts
      rw [hrefused]

theorem keeps_readResults (returns : List Param) : Keeps (Instance.readResults returns) := by
  induction returns with
  | nil => exact keeps_pure _
  | cons p ps ih =>
    exact keeps_bind (keeps_read _ _) fun d => keeps_bind ih fun ds => keeps_pure _

theorem keeps_collect (i : Instance) (argCount : Nat) (returns : List Param) :
    Keeps (Instance.collect i argCount returns) := by
  refine keeps_bind (keeps_annotatedCall i _ _) fun _ =>
    keeps_bind (keeps_observing (keeps_readResults returns)) fun results =>
      keeps_bind (keeps_pop _) fun _ => ?_
  cases results with
  | ok ds => exact keeps_pure ds
  | error e => exact keeps_throw e

theorem keeps_forM_push (ds : List Datum) : Keeps (ds.forM Vm.push) := by
  induction ds with
  | nil => exact keeps_pure ()
  | cons d ds ih => exact keeps_bind (keeps_push d) fun _ => ih

theorem keeps_callIn (number : Nat) (name : String) (args : List Datum) :
    Keeps (Instance.callIn number name args) := by
  intro vm
  obtain ⟨e, hrefused⟩ | ⟨i, signature, classTable, object, -, hcall⟩ :=
    Instance.callIn_cases vm number name args
  · rw [hrefused]
  · rw [hcall]
    exact keeps_bind (keeps_entryOf _ _) (fun entry => keeps_bind (keeps_pushValue _) fun _ =>
      keeps_bind (keeps_pushValue _) fun _ => keeps_bind (keeps_forM_push args) fun _ =>
        keeps_collect i _ _) vm

theorem keeps_bindOut (number : Nat) (key : String) (mode : OutMode) (c : Callable) :
    Keeps (Instance.bindOut number key mode c) := by
  intro vm
  obtain ⟨e, hrefused⟩ | ⟨i, hi, hs, hout⟩ := Instance.bindOut_cases vm number key mode c
  · rw [hrefused]
  · rw [Instance.run_bindOut hi hs hout]
    rfl

theorem keeps_loadCallable (name source : String) : Keeps (Vm.loadCallable name source) := by
  refine keeps_bind (keeps_evalChunk name source) fun v => ?_
  split
  · exact keeps_pure _
  · exact keeps_throw _

end Op

namespace HostAction

open Op

/-- Every operation leaves a regulated machine regulated. -/
theorem regulated_perform (a : HostAction) {vm : Vm} (h : vm.Regulated) :
    (a.perform.run.run vm).2.Regulated := by
  have hkeeps : ∀ {x : Op Unit}, Keeps x → (x.run.run vm).2.Regulated := fun hx =>
    h.of_regime_eq (hx vm)
  cases a with
  | prepare o owner => exact hkeeps (keeps_drop (keeps_prepare o owner))
  | instantiate o owner nodeables =>
    exact hkeeps (keeps_drop (keeps_bind (keeps_prepare o owner) fun number =>
      keeps_bind (keeps_activate number nodeables) fun _ => keeps_pure _))
  | activate number nodeables => exact hkeeps (keeps_activate number nodeables)
  | bindOut number key mode c => exact hkeeps (keeps_bindOut number key mode c)
  | callIn number name args => exact hkeeps (keeps_drop (keeps_callIn number name args))
  | push number d => exact hkeeps (keeps_bind (keeps_require _ _ _) fun _ => keeps_push d)
  | read number index t =>
    exact hkeeps (keeps_drop (keeps_bind (keeps_require _ _ _) fun _ => keeps_read index t))
  | safeCall number argCount returnCount =>
    exact hkeeps (keeps_bind (keeps_require _ _ _) fun i => keeps_annotatedCall i _ _)
  | unload number => exact hkeeps (keeps_bind (keeps_require _ _ _) fun _ => keeps_change _ _)
  | onStack a => exact hkeeps (keeps_perform a)
  | createCallable g => exact hkeeps fun _ => rfl
  | loadCallable name source => exact hkeeps (keeps_drop (keeps_loadCallable name source))
  | setBuild b => exact Vm.regulated_installLimit h.interval_pos
  | setLimit limit => exact Vm.regulated_installLimit h.interval_pos
  | offerServices => exact h.of_regime_eq (regime_activate vm)

/-- **The meter enforces the limit that is set**, whatever the host did before. -/
theorem regulated_after (actions : List HostAction) {vm : Vm} (h : vm.Regulated) :
    (after actions vm).Regulated := by
  induction actions generalizing vm with
  | nil => exact h
  | cons a actions ih => exact ih (a.regulated_perform h)

end HostAction

end GraphScript
