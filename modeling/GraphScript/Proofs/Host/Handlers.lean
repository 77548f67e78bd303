import GraphScript.Proofs.Host.Actions
import GraphScript.Proofs.Machine.Consulting

/-!
# Proofs/Host/Handlers — functions that the host binds to out-events

A function that the host made callable stays callable, and once bound to an out-event it is the
handler until another is bound to the same event of the instance, or the instance is unloaded
(`HostAction.Step.keeps`).  So it is asked once by each firing that passes the check, unless it was
bound with the instance before the arguments: then it is never asked (`bound_function_consulted`).
-/

namespace GraphScript

open Machine Dispatch

namespace Instance

variable {vm : Vm} {number : Nat} {i : Instance} {key : String}

theorem get?_changed_bound (hi : get? vm number = some i) (b : Binding) :
    get? (changed number (bound key b) vm) number = some (i.bound key b) := by
  rw [Vm.get?_changed, if_pos rfl, hi, Option.map_some]

/-- The out-event has the handler that was bound to it. -/
theorem handles_changed_bound {n : Nat} {g : HostFunction} (hi : get? vm number = some i)
    (hn : vm.machine.callables[n]? = some g) (mode : OutMode) :
    (changed number (bound key ⟨mode, .callable n⟩) vm).machine.Handles number key mode g := by
  refine ⟨i.bound key ⟨mode, .callable n⟩, n, get?_changed_bound hi _, ?_, hn⟩
  rw [bound, Entries.get?_put, if_pos rfl]

/-- Other out-events, and other instances, keep theirs. -/
theorem keeps_changed_bound {n : Nat} {key' : String} (h : n = number → key' ≠ key) (b : Binding)
    (vm : Vm) : Keeps number key vm.machine (changed n (bound key' b) vm).machine := by
  refine keeps_changeInstance vm.machine n _ fun hn i => ⟨rfl, ?_⟩
  rw [bound, Entries.get?_put, if_neg (h hn)]

end Instance

/-- Making another function callable keeps what is bound. -/
theorem Vm.keeps_offering (vm : Vm) (g : HostFunction) (number : Nat) (key : String) :
    Keeps number key vm.machine (vm.offering g).machine := by
  refine ⟨fun n g' hn => ?_, fun hi => ⟨_, hi, rfl, rfl⟩⟩
  have hlt : n < vm.machine.callables.size := (Array.getElem?_eq_some_iff.mp hn).1
  exact (Array.getElem?_push.trans (if_neg (Nat.ne_of_lt hlt))).trans hn

namespace HostAction

open Instance (get? changed)

/-- It takes the handler of an out-event away, or puts another in its place. -/
def Unbinds (a : HostAction) (number : Nat) (key : String) : Prop :=
  a = .unload number ∨ ∃ mode c, a = .bindOut number key mode c

variable {a : HostAction} {vm vm' : Vm} {number : Nat} {key : String}

/-- **What the host made callable stays callable.** -/
theorem Step.offers (h : a.Step vm vm') : Offers vm.machine vm'.machine := by
  cases h with
  | ran h => exact h.offers
  | configured _ hcallables => exact fun _ _ hn => hcallables ▸ hn
  | offered g => exact (vm.keeps_offering g 0 "").offers
  | prepared | loaded | constructed | bound | unloaded => exact .refl vm.machine

/-- **What is bound stays bound**, but for operations that unbind it. -/
theorem Step.keeps (h : a.Step vm vm') (ha : ¬ a.Unbinds number key) :
    Keeps number key vm.machine vm'.machine := by
  have hoffers := h.offers
  cases h with
  | ran h => exact h.keeps number key
  | configured hinstances _ => exact ⟨hoffers, fun hi => ⟨_, hinstances ▸ hi, rfl, rfl⟩⟩
  | offered g => exact vm.keeps_offering g number key
  | @prepared i =>
    exact ⟨hoffers, fun hj => ⟨_, Vm.get?_holding_of_eq_some hj i, rfl, rfl⟩⟩
  | loaded | constructed => exact keeps_changeInstance _ _ _ fun _ _ => ⟨rfl, rfl⟩
  | @bound n _ key' mode c ha' =>
    have hkey : n = number → key' ≠ key := by
      rintro rfl rfl
      exact ha (.inr ⟨mode, c, ha'⟩)
    exact Instance.keeps_changed_bound hkey _ vm
  | unloaded ha' =>
    exact keeps_changeInstance _ _ _ fun hnumber => absurd (.inl (hnumber ▸ ha')) ha

theorem offers_of_steps (h : a.Steps vm vm') : Offers vm.machine vm'.machine := by
  induction h with
  | refl => exact .refl vm.machine
  | tail _ hstep ih => exact ih.trans hstep.offers

theorem keeps_of_steps (h : a.Steps vm vm') (ha : ¬ a.Unbinds number key) :
    Keeps number key vm.machine vm'.machine := by
  induction h with
  | refl => exact .refl vm.machine
  | tail _ hstep ih => exact ih.trans (hstep.keeps ha)

theorem offers_after (actions : List HostAction) (vm : Vm) :
    Offers vm.machine (after actions vm).machine := by
  induction actions generalizing vm with
  | nil => exact .refl vm.machine
  | cons a actions ih => exact (offers_of_steps (a.steps_perform vm)).trans (ih _)

/-- What is bound stays bound through operations that do not unbind it. -/
theorem keeps_after (actions : List HostAction) (h : ∀ a ∈ actions, ¬ a.Unbinds number key)
    (vm : Vm) : Keeps number key vm.machine (after actions vm).machine := by
  induction actions generalizing vm with
  | nil => exact .refl vm.machine
  | cons a actions ih =>
    rw [List.forall_mem_cons] at h
    exact (keeps_of_steps (a.steps_perform vm) h.1).trans (ih h.2 _)

/-- **Functions of the host are consulted by what fires them**, in every mode but one.  Let the host
make a function callable, bind it to an out-event, and neither unbind it nor unload the instance.
Whatever else it does, and whatever scripts do meanwhile: let the event be fired with arguments that
pass the check.  These carry data, and the function is asked once with the data of exactly these
arguments; but where the instance stands before the arguments, the function is never asked and the
firing fails.  This holds however calls of the function ask it, and so it does for the machine
itself. -/
theorem bound_function_consulted (vm vm₁ vm₂ : Vm) (g : HostFunction) (c : Callable)
    (hcreated : (Vm.createCallable g).run.run vm = (.ok c, vm₁)) (between : List HostAction)
    (number : Nat) (key : String) (mode : OutMode)
    (hbound : (Instance.bindOut number key mode c).run.run (after between vm₁) = (.ok (), vm₂))
    (later : List HostAction) (hlater : ∀ a ∈ later, ¬ a.Unbinds number key) (m : Machine)
    (hm : Amid (after later vm₂).machine m) (i : Instance) (hi : m.instances[number]? = some i)
    (f : Firing) (hkey : keyText? f.key = some key) (signature : Signature)
    (hout : i.interface.findOut? key = some signature) (hargs : argFault? signature f.args = none) :
    ∃ n data, Consulting m f number i key signature mode g n data := by
  obtain ⟨rfl, rfl⟩ : ⟨.callable vm.machine.callables.size⟩ = c ∧ vm.offering g = vm₁ := by
    rw [Vm.run_createCallable] at hcreated
    exact ⟨Except.ok.inj (congrArg Prod.fst hcreated), congrArg Prod.snd hcreated⟩
  have hcallable := offers_after between (vm.offering g) _ g Array.getElem?_push_size
  obtain ⟨e, hrefused⟩ | ⟨j, hj, hs, hdeclared⟩ := Instance.bindOut_cases (after between _) number
    key mode ⟨.callable vm.machine.callables.size⟩
  · rw [hrefused] at hbound
    cases hbound
  · rw [Instance.run_bindOut hj hs hdeclared] at hbound
    obtain rfl : _ = vm₂ := congrArg Prod.snd hbound
    have hhandles := (keeps_after later hlater _).handles
      (Instance.handles_changed_bound hj hcallable mode)
    exact ((hm.keeps number key).handles hhandles).consulting hi hkey hout hargs

/-- What a doorbell fires. -/
def ring : Signature := ⟨"Ring", [⟨"urgent", .boolean⟩], [⟨"answered", .boolean⟩]⟩

/-- A doorbell that asks whether someone is in. -/
def doorbell : Output where
  target := .lua
  text := "return {new=function(s) handle=s return {} end}"
  interface := { name := "Doorbell", outs := [ring] }

/-- A machine in which someone answers what is urgent. -/
def house : Vm := after [.prepare doorbell ⟨1⟩] ((Vm.new 1).offering fun ds => .values ds)

/-- The first of two doorbells is wired. -/
def wired (mode : OutMode) : Vm :=
  after [.prepare doorbell ⟨2⟩] (changed 0 (Instance.bound "Ring" ⟨mode, .callable 0⟩) house)

/-- Someone rings. -/
def rung : Firing := ⟨[], .ofText "Ring", [.boolean true]⟩

/-- Wired for its answer the host is asked; wired as a subgraph it is not, and the firing fails. -/
theorem doorbell_consulted :
    (∃ i, Consults (wired .result).machine rung 0 i "Ring" ring 0 [.boolean true] [.host]
      (fun ds => pure (.values ds)) .result
      (Run.call 2 [] 0 (.builtin .fire) (rung.values 0 0) (wired .result).machine)) ∧
    ∃ reason, Run.call 2 [] 0 (.builtin .fire) (rung.values 0 0) (wired .userSubgraph).machine =
      .failed reason (wired .userSubgraph).machine := by
  have hlater : ∀ a ∈ [HostAction.prepare doorbell ⟨2⟩], ¬ a.Unbinds 0 "Ring" := by
    simp [Unbinds]
  have hconsulted (mode : OutMode) := bound_function_consulted (Vm.new 1) _ _ _ _ rfl
    [.prepare doorbell ⟨1⟩] 0 "Ring" mode (Instance.run_bindOut rfl (by decide) rfl mode _)
    [.prepare doorbell ⟨2⟩] hlater (wired mode).machine (.start _) _ rfl rung rfl ring rfl rfl
  constructor
  · obtain ⟨n, data, hconsulting⟩ := hconsulted .result
    have hbound : some (Binding.mk .result (.callable 0)) = some ⟨.result, .callable n⟩ :=
      hconsulting.bound
    obtain rfl : 0 = n :=
      Script.Value.callable.inj (congrArg Binding.handler (Option.some.inj hbound))
    obtain rfl : [.boolean true] = data :=
      List.map_injective_iff.mpr (Option.some_injective Datum) hconsulting.carried
    exact ⟨_, hconsulting.called 0 0 0 (by decide)⟩
  · obtain ⟨n, data, hconsulting⟩ := hconsulted .userSubgraph
    have hrefused := hconsulting.called 0 0 0 (by decide)
    generalize hout : Run.call _ _ _ _ _ _ = out at hrefused
    cases hrefused with
    | asked hmode => exact absurd rfl hmode
    | refused => exact ⟨_, hout⟩

end HostAction

end GraphScript
