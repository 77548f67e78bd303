import GraphScript.Proofs.Host.Actions

/-!
# Proofs/Host/Lifecycle — the life of instances under any operations of the host

An instance is activated, starts to run and is unloaded, in this order, and it may be unloaded at
any time (`InstanceState.Next`).  Scripts leave its state alone (`Machine.Evolves.grown`), and each
step of an operation of the host moves it along this course only (`HostAction.Step.ages`); so does
every sequence of operations.

An unloaded instance has no handlers, so nothing is recorded for it any more, and operations on it
are refused (`HostAction.refused_of_unloaded`).
-/

namespace GraphScript

/-! ## States -/

namespace InstanceState

/-- A step in the life of an instance. -/
inductive Next : InstanceState → InstanceState → Prop where
  | load : Next .uninitialized .activated
  | start : Next .activated .running
  | unload {s : InstanceState} (h : s ∈ [.uninitialized, .activated, .running]) : Next s .unloaded

/-- Nothing comes after the end. -/
theorem Next.ne_unloaded {s s' : InstanceState} (h : Next s s') : s ≠ .unloaded := by
  cases h with
  | load | start => exact InstanceState.noConfusion
  | unload hs =>
    rintro rfl
    simp at hs

/-- A course of life. -/
abbrev Leads : InstanceState → InstanceState → Prop := Relation.ReflTransGen Next

/-- Nothing follows the end. -/
theorem Leads.eq_unloaded {s : InstanceState} (h : Leads .unloaded s) : s = .unloaded := by
  obtain rfl | ⟨s', hnext, -⟩ := h.cases_head
  · rfl
  · exact absurd rfl hnext.ne_unloaded

/-- No course of life stops while a handler runs. -/
theorem Leads.ne_suspended {s : InstanceState} (h : Leads .uninitialized s) : s ≠ .suspended := by
  rintro rfl
  obtain h | ⟨s', -, hnext⟩ := h.cases_tail
  · cases h
  · cases hnext

end InstanceState

open InstanceState (Next Leads)

/-! ## Instances -/

namespace Instance

/-- An instance as it is between operations. -/
structure Settled (i : Instance) : Prop where
  leads : Leads .uninitialized i.state
  bindings_eq_nil : i.state = .unloaded → i.bindings = []

/-- An instance later in its life. -/
structure Aged (i i' : Instance) : Prop where
  settled : i'.Settled
  leads : Leads i.state i'.state
  records_eq : i.state = .unloaded → i'.records = i.records

theorem Aged.refl {i : Instance} (h : i.Settled) : i.Aged i := ⟨h, .refl, fun _ => rfl⟩

/-- What ages, and ages again, ages. -/
theorem Aged.trans {i₁ i₂ i₃ : Instance} (h : i₁.Aged i₂) (h' : i₂.Aged i₃) : i₁.Aged i₃ where
  settled := h'.settled
  leads := h.leads.trans h'.leads
  records_eq hs := by
    have hunloaded : i₂.state = .unloaded := Leads.eq_unloaded (hs ▸ h.leads)
    exact (h'.records_eq hunloaded).trans (h.records_eq hs)

/-- A step of life, after which handlers are kept unless it is the last. -/
theorem Settled.aged_of_next {i i' : Instance} (h : i.Settled) (hnext : Next i.state i'.state)
    (hbindings : i'.state = .unloaded → i'.bindings = []) : i.Aged i' where
  settled := ⟨h.leads.tail hnext, hbindings⟩
  leads := .single hnext
  records_eq hs := absurd hs hnext.ne_unloaded

/-- An instance that scripts leave with records and logs has aged. -/
theorem Settled.aged_of_grown {i i' : Instance} (h : i.Settled) (hgrown : i.Grown i') :
    i.Aged i' := by
  obtain ⟨records, logs, rfl, hnone⟩ := hgrown
  refine ⟨⟨h.leads, h.bindings_eq_nil⟩, .refl, fun hs => ?_⟩
  simp only [hnone (h.bindings_eq_nil hs), List.append_nil]

end Instance

/-! ## Machines -/

namespace Vm

open Instance (get? changed)

/-- All instances are as they are between operations. -/
def Settled (vm : Vm) : Prop := ∀ number i, get? vm number = some i → i.Settled

/-- A machine later in its life. -/
def Ages (vm vm' : Vm) : Prop :=
  vm.Settled → vm'.Settled ∧
    ∀ number i, get? vm number = some i → ∃ i', get? vm' number = some i' ∧ i.Aged i'

theorem Ages.refl (vm : Vm) : Ages vm vm :=
  fun h => ⟨h, fun number i hi => ⟨i, hi, .refl (h number i hi)⟩⟩

/-- So it is for machines. -/
theorem Ages.trans {vm₁ vm₂ vm₃ : Vm} (h : Ages vm₁ vm₂) (h' : Ages vm₂ vm₃) : Ages vm₁ vm₃ := by
  intro hsettled
  obtain ⟨hsettled₂, haged⟩ := h hsettled
  obtain ⟨hsettled₃, haged'⟩ := h' hsettled₂
  refine ⟨hsettled₃, fun number i hi => ?_⟩
  obtain ⟨i', hi', hage⟩ := haged number i hi
  obtain ⟨i'', hi'', hage'⟩ := haged' number i' hi'
  exact ⟨i'', hi'', hage.trans hage'⟩

/-- A machine with as many instances, each later in its life. -/
theorem ages_of_forall {vm vm' : Vm}
    (hsize : vm'.machine.instances.size = vm.machine.instances.size)
    (h : ∀ number i, get? vm number = some i → i.Settled →
      ∃ i', get? vm' number = some i' ∧ i.Aged i') : Ages vm vm' := by
  intro hsettled
  refine ⟨fun number i' hi' => ?_, fun number i hi => h number i hi (hsettled number i hi)⟩
  obtain ⟨hlt, -⟩ := Array.getElem?_eq_some_iff.mp hi'
  obtain ⟨i, hi⟩ : ∃ i, get? vm number = some i := ⟨_, Array.getElem?_eq_getElem (hsize ▸ hlt)⟩
  obtain ⟨i'', hi'', haged⟩ := h number i hi (hsettled number i hi)
  obtain rfl : i'' = i' := Option.some.inj (hi''.symm.trans hi')
  exact haged.settled

/-- **Scripts move no instance on.** -/
theorem ages_of_evolves {vm vm' : Vm} (h : vm.machine.Evolves vm'.machine) : Ages vm vm' :=
  ages_of_forall h.size_eq fun _ _ hi hsettled =>
    (h.grown hi).imp fun _ h => ⟨h.1, hsettled.aged_of_grown h.2⟩

theorem ages_of_instances_eq {vm vm' : Vm} (h : vm'.machine.instances = vm.machine.instances) :
    Ages vm vm' :=
  ages_of_forall (by rw [h]) fun _ i hi hsettled => ⟨i, by rw [get?, h]; exact hi, .refl hsettled⟩

/-- A change that lets one instance age lets the machine age. -/
theorem ages_changed {vm : Vm} {number : Nat} {f : Instance → Instance}
    (h : ∀ i, get? vm number = some i → i.Settled → i.Aged (f i)) :
    Ages vm (changed number f vm) := by
  refine ages_of_forall Array.size_modify fun n i hi hsettled => ?_
  rw [get?_changed, hi]
  split
  · rename_i hn
    exact ⟨f i, rfl, h i (hn ▸ hi) hsettled⟩
  · exact ⟨i, rfl, .refl hsettled⟩

/-- An instance moves on by one step of its life. -/
theorem ages_next {vm : Vm} {number : Nat} {i : Instance} {f : Instance → Instance}
    (hi : get? vm number = some i) (hnext : i.Settled → Next i.state (f i).state)
    (hlast : (f i).state = .unloaded → (f i).bindings = []) : Ages vm (changed number f vm) := by
  refine ages_changed fun j hj hsettled => ?_
  obtain rfl : j = i := Option.some.inj (hj.symm.trans hi)
  exact hsettled.aged_of_next (hnext hsettled) hlast

/-- A new instance is at the start of its life. -/
theorem ages_push {vm : Vm} {i : Instance} (hstate : i.state = .uninitialized) :
    Ages vm (vm.holding i) := by
  have hnew : i.Settled := ⟨hstate ▸ .refl, fun hs => by rw [hstate] at hs; cases hs⟩
  intro hsettled
  refine ⟨fun number j hj => ?_, fun number j hj =>
    ⟨j, get?_holding_of_eq_some hj i, .refl (hsettled number j hj)⟩⟩
  rw [get?_holding] at hj
  split at hj
  · exact Option.some.inj hj ▸ hnew
  · exact hsettled number j hj

end Vm

/-! ## Operations -/

namespace HostAction

open Instance (get? changed)

/-- **A step of the host only lets instances get on in their lives.** -/
theorem Step.ages {a : HostAction} {vm vm' : Vm} (h : a.Step vm vm') : Vm.Ages vm vm' := by
  cases h with
  | ran h => exact Vm.ages_of_evolves h
  | configured hinstances _ => exact Vm.ages_of_instances_eq hinstances
  | offered => exact Vm.ages_of_instances_eq rfl
  | prepared hs => exact Vm.ages_push hs
  | loaded classTable hi hs =>
    exact Vm.ages_next hi (fun _ => hs ▸ .load) (fun h => by cases h)
  | constructed object hi hs =>
    exact Vm.ages_next hi (fun _ => hs ▸ .start) (fun h => by cases h)
  | bound _ hi hs =>
    refine Vm.ages_changed fun j hj hsettled => ⟨⟨hsettled.leads, fun hunloaded => ?_⟩, .refl,
      fun _ => rfl⟩
    obtain rfl := Option.some.inj (hj.symm.trans hi)
    have hstate : j.state = .unloaded := hunloaded
    rw [hstate] at hs
    simp at hs
  | unloaded _ hi hs =>
    refine Vm.ages_next hi (fun hsettled => .unload ?_) fun _ => rfl
    have hsuspended := hsettled.leads.ne_suspended
    simp only [List.mem_cons, List.not_mem_nil, or_false] at hs ⊢
    tauto

/-- **Whatever an operation does lets machines age.** -/
theorem ages_of_steps {a : HostAction} {vm vm' : Vm} (h : a.Steps vm vm') : Vm.Ages vm vm' := by
  induction h with
  | refl => exact .refl vm
  | tail _ hstep ih => exact ih.trans hstep.ages

theorem ages_perform (a : HostAction) (vm : Vm) : Vm.Ages vm (a.perform.run.run vm).2 :=
  ages_of_steps (a.steps_perform vm)

/-- **Every operation on an unloaded instance is refused**, and changes nothing. -/
theorem refused_of_unloaded {a : HostAction} {vm : Vm} {number : Nat} {i : Instance}
    (ha : a.target? = some number) (hi : get? vm number = some i) (hs : i.state = .unloaded) :
    ∃ operation, a.perform.run.run vm = (.error (.lifecycle operation .unloaded), vm) := by
  have hrequire : ∀ operation (allowed : List InstanceState), .unloaded ∉ allowed →
      (Instance.require number operation allowed).run.run vm =
        (.error (.lifecycle operation .unloaded), vm) := by
    intro operation allowed hnot
    rw [Instance.run_require operation allowed hi, hs, if_neg hnot]
  cases a with
  | activate n nodeables =>
    obtain rfl := Option.some.inj ha
    exact ⟨_, Op.run_bind_error (hrequire _ _ (by decide))⟩
  | bindOut n key mode c =>
    obtain rfl := Option.some.inj ha
    exact ⟨_, Op.run_bind_error (hrequire _ _ (by decide))⟩
  | callIn n name args =>
    obtain rfl := Option.some.inj ha
    exact ⟨_, Op.run_bind_error (Op.run_bind_error (hrequire _ _ (by decide)))⟩
  | push n d =>
    obtain rfl := Option.some.inj ha
    exact ⟨_, Op.run_bind_error (hrequire _ _ (by decide))⟩
  | read n index t =>
    obtain rfl := Option.some.inj ha
    exact ⟨_, Op.run_bind_error (Op.run_bind_error (hrequire _ _ (by decide)))⟩
  | safeCall n argCount returnCount =>
    obtain rfl := Option.some.inj ha
    exact ⟨_, Op.run_bind_error (hrequire _ _ (by decide))⟩
  | unload n =>
    obtain rfl := Option.some.inj ha
    exact ⟨_, Op.run_bind_error (hrequire _ _ (by decide))⟩
  | prepare | instantiate | onStack | createCallable | loadCallable | setBuild | setLimit
  | offerServices => cases ha

/-! ## Many operations -/

/-- **Any number of operations lets machines age.** -/
theorem ages_after (actions : List HostAction) (vm : Vm) : Vm.Ages vm (after actions vm) := by
  induction actions generalizing vm with
  | nil => exact .refl vm
  | cons a actions ih => exact (ages_perform a vm).trans (ih _)

theorem settled_new (hookInterval : UInt32) : (Vm.new hookInterval).Settled := by
  intro number i hi
  cases hi

/-- **The life of an instance.**  Whatever the host does in a new machine, and whatever scripts and
handlers do meanwhile: an instance has come along the course of life from its start and is not left
suspended, it goes on along that course, and once unloaded it stays so, has no new records, and
refuses every operation. -/
theorem instance_lifecycle (hookInterval : UInt32) (before later : List HostAction) (number : Nat)
    (i : Instance) (hi : get? (after before (Vm.new hookInterval)) number = some i) :
    Leads .uninitialized i.state ∧ i.state ≠ .suspended ∧
    ∃ i', get? (after later (after before (Vm.new hookInterval))) number = some i' ∧
      Leads i.state i'.state ∧
      (i.state = .unloaded → i'.state = .unloaded ∧ i'.records = i.records ∧
        ∀ a : HostAction, a.target? = some number → ∃ operation,
          a.perform.run.run (after later (after before (Vm.new hookInterval))) =
            (.error (.lifecycle operation .unloaded),
              after later (after before (Vm.new hookInterval)))) := by
  obtain ⟨hsettled, -⟩ := ages_after before _ (settled_new hookInterval)
  obtain ⟨-, hages⟩ := ages_after later _ hsettled
  have hleads := (hsettled number i hi).leads
  obtain ⟨i', hi', haged⟩ := hages number i hi
  refine ⟨hleads, hleads.ne_suspended, i', hi', haged.leads, fun hs => ?_⟩
  have hunloaded : i'.state = .unloaded := Leads.eq_unloaded (hs ▸ haged.leads)
  exact ⟨hunloaded, haged.records_eq hs, fun a ha => refused_of_unloaded ha hi' hunloaded⟩

/-- A lamp whose constructor keeps its state where every script finds it. -/
def lamp : Output where
  target := .lua
  text := "return {new=function(s) handle=s return {} end}"
  interface := { name := "Lamp", outs := [⟨"Lit", [], []⟩] }

/-- A script that fires the out-event of the lamp through the state that was kept. -/
def fireLit : HostAction := .onStack (.loadChunk "lit" "__sc_execution_out(handle, 'Lit')")

/-- The lamp runs, is fired once and is unloaded. -/
def lampUnloaded : List HostAction :=
  [.instantiate lamp ⟨1⟩ [], .bindOut 0 "Lit" .userSubgraph ⟨.builtin .type⟩, fireLit, .unload 0]

/-- An out-event that is fired through the state of an unloaded lamp is not recorded. -/
theorem lamp_instance_lifecycle : ∃ i i',
    get? (after lampUnloaded (Vm.new 1)) 0 = some i ∧ i.state = .unloaded ∧ i.records.length = 1 ∧
    get? (after [fireLit, .activate 0 []] (after lampUnloaded (Vm.new 1))) 0 = some i' ∧
    i'.state = .unloaded ∧ i'.records = i.records := by
  have hlamp : (get? (after lampUnloaded (Vm.new 1)) 0).map (fun i => (i.state, i.records.length)) =
    some (.unloaded, 1) := by decide +kernel
  obtain ⟨i, hi, hlamp⟩ := Option.map_eq_some_iff.mp hlamp
  obtain ⟨hstate, hcount⟩ := Prod.mk.inj hlamp
  obtain ⟨-, -, i', hi', -, hunloaded⟩ :=
    instance_lifecycle 1 lampUnloaded [fireLit, .activate 0 []] 0 i hi
  obtain ⟨hstate', hrecords, -⟩ := hunloaded hstate
  exact ⟨i, i', hi, hstate, hcount, hi', hstate', hrecords⟩

end HostAction

end GraphScript
