import GraphScript.Proofs.Keys
import GraphScript.Proofs.Machine.Handling
import GraphScript.Proofs.Machine.Marshal

/-!
# Proofs/Machine/Consulting — functions of the host as handlers

A function of the host is called with the data that its arguments carry.  What it does when it is
asked is a parameter here (`askHost`): a call of it asks once, if all arguments carry data, and not
at all otherwise.  Arguments that pass the check of a firing carry data
(`exists_data_of_argFault?`); the state of an instance, which stands before them in one of the
modes, carries none.

So a firing that passes the check asks the function of the host that is its handler once, or never
(`Handles.consulting`).  What functions the host offers and which of them are handlers does not
change while scripts run (`Amid.keeps`).
-/

namespace GraphScript.Machine

open Script (Value)

/-- An instance that was suspended and has its state put back is as it was. -/
theorem setInstanceState_back {m : Machine} {number : Nat} {i : Instance}
    (hi : m.instances[number]? = some i) (s : InstanceState) :
    (m.setInstanceState number s).setInstanceState number i.state = m := by
  have hinstances :
      ((m.setInstanceState number s).setInstanceState number i.state).instances = m.instances := by
    refine Array.ext_getElem? fun n => ?_
    simp only [setInstanceState, getElem?_changeInstance]
    by_cases hn : number = n
    · subst hn
      simp [hi]
    · simp [hn]
  calc (m.setInstanceState number s).setInstanceState number i.state
    _ = { m with instances :=
          ((m.setInstanceState number s).setInstanceState number i.state).instances } := rfl
    _ = m := by rw [hinstances]

namespace Dispatch

open Run

/-! ## Asking -/

/-- Takes over what a function of the host answers. -/
def reply (frames : List Frame) : HostReply → Run (List Value)
  | .values results => fun m => .done (m.embedAll results).1 (m.embedAll results).2
  | .failure text => .complain frames text
  | .crash reason => .fail (.crashed reason)

/-- Calls a function of the host, which may do anything when it is asked. -/
def askHost (frames : List Frame) (ask : List Datum → Run HostReply) (args : List Value) :
    Run (List Value) :=
  match argData 1 args with
  | .error reason => .complain frames reason
  | .ok ds => ask ds >>= reply frames

/-- The functions that a host supplies only answer. -/
theorem callHost_eq_askHost (frames : List Frame) (g : HostFunction) (args : List Value) :
    callHost frames g args = askHost frames (fun ds => pure (g ds)) args := by
  unfold callHost askHost
  cases argData 1 args with
  | error reason => rfl
  | ok ds =>
    funext m
    simp only [bind, pure]
    cases g ds with
    | values | failure | crash => rfl

/-- Calls of the function under that number ask it in this way, in machines with those functions of
the host. -/
def Asks (callables : Array HostFunction) (n : Nat) (frames : List Frame)
    (ask : List Datum → Run HostReply) (invoke : Value → List Value → Run (List Value)) : Prop :=
  ∀ args m, m.callables = callables → invoke (.callable n) args m = askHost frames ask args m

/-- Scripts call the functions of the host, where the calls are not too deep. -/
theorem asks_called {callables : Array HostFunction} {n : Nat} {g : HostFunction}
    (hn : callables[n]? = some g) (fuel : Nat) {depth : Nat}
    (hdepth : depth + handlerDepth < depthLimit) (frames : List Frame) :
    Asks callables n (.host :: frames) (fun ds => pure (g ds))
      (called (fuel + 1) depth frames) := by
  intro args m hm
  have hg : m.callables[n]? = some g := hm ▸ hn
  rw [← callHost_eq_askHost, called, Run.call, if_neg (Nat.not_le.mpr hdepth)]
  simp only [bind, Run.read, hg]

/-- Functions of the host are called as they are, in machines with those: they only answer. -/
def AsksHost (callables : Array HostFunction) (frames : List Frame)
    (invoke : Value → List Value → Run (List Value)) : Prop :=
  ∀ n g, callables[n]? = some g → Asks callables n frames (fun ds => pure (g ds)) invoke

/-- The machine itself asks the host, where depth allows it. -/
theorem asksHost_called (callables : Array HostFunction) (fuel : Nat) {depth : Nat}
    (hdepth : depth + handlerDepth < depthLimit) (frames : List Frame) :
    AsksHost callables (.host :: frames) (called (fuel + 1) depth frames) :=
  fun _ _ hn => asks_called hn fuel hdepth frames

/-- A call for which there is no fuel, or which goes too deep, is given up. -/
theorem called_of_spent {fuel depth : Nat} (h : fuel = 0 ∨ depthLimit ≤ depth + handlerDepth)
    (frames : List Frame) (v : Value) (args : List Value) (m : Machine) :
    called fuel depth frames v args m = .exhausted m := by
  cases fuel with
  | zero => rfl
  | succ fuel =>
    unfold called Run.call
    rw [if_pos (h.resolve_left (Nat.succ_ne_zero fuel))]
    rfl

/-! ## Arguments -/

/-- Arguments that carry data give these data. -/
theorem argData_of_map_eq {args : List Value} {data : List Datum}
    (h : args.map Value.datum? = data.map some) (number : Nat) :
    argData number args = .ok data := by
  induction args generalizing data number with
  | nil =>
    rw [List.map_nil, eq_comm, List.map_eq_nil_iff] at h
    rw [h]
    rfl
  | cons v vs ih =>
    cases data with
    | nil => cases h
    | cons d ds =>
      obtain ⟨hv, hvs⟩ := List.cons.inj h
      simp only [argData, hv, ih hvs]

/-- **Arguments that pass the check of a firing carry data.** -/
theorem exists_data_of_argFault? {signature : Signature} {args : List Value}
    (h : argFault? signature args = none) :
    ∃ data : List Datum, args.map Value.datum? = data.map some := by
  unfold argFault? at h
  split at h
  · cases h
  rename_i hlength
  have hzip : (signature.params.zip args).map Prod.snd = args :=
    List.map_snd_zip (not_not.mp hlength).le
  have hsome : ∀ v ∈ args, v.datum?.isSome := by
    intro v hv
    rw [← hzip, List.mem_map] at hv
    obtain ⟨e, he, rfl⟩ := hv
    have hread := List.findSome?_eq_none_iff.mp h e he
    cases hd : e.2.toDatum e.1.dataType with
    | error found => simp [hd] at hread
    | ok d => rw [(Value.toDatum_eq_ok_iff.mp hd).1, Option.isSome_some]
  refine ⟨args.attach.map fun v => v.1.datum?.get (hsome v.1 v.2), ?_⟩
  simp

variable {m : Machine} {f : Firing} {number n : Nat} {i : Instance} {key : String}
  {signature : Signature} {mode : OutMode} {ask : List Datum → Run HostReply}
  {invoke : Value → List Value → Run (List Value)} {frames : List Frame}

/-- With data for all arguments the function is asked once. -/
theorem handled_of_data (hasks : Asks m.callables n frames ask invoke)
    (hmode : mode ≠ .userSubgraph) {data : List Datum}
    (hdata : f.args.map Value.datum? = data.map some) (address : Nat) :
    f.handled number address ⟨mode, .callable n⟩ invoke m =
      (ask data >>= reply frames) (m.setInstanceState number .suspended) := by
  have hpassed : passed ⟨mode, .callable n⟩ (.host address (.state number)) f.args = f.args :=
    if_neg hmode
  calc f.handled number address ⟨mode, .callable n⟩ invoke m
    _ = invoke (.callable n) f.args (m.setInstanceState number .suspended) := by
      rw [Firing.handled, hpassed]
    _ = askHost frames ask f.args (m.setInstanceState number .suspended) := hasks _ _ rfl
    _ = (ask data >>= reply frames) (m.setInstanceState number .suspended) := by
      rw [askHost, argData_of_map_eq hdata]

/-- With the instance before the arguments it is not asked. -/
theorem handled_of_userSubgraph (hasks : Asks m.callables n frames ask invoke) (address : Nat) :
    f.handled number address ⟨.userSubgraph, .callable n⟩ invoke m =
      .failed (complaint frames "argument 1 has unsupported type userdata")
        (m.setInstanceState number .suspended) :=
  hasks (.host address (.state number) :: f.args) (m.setInstanceState number .suspended) rfl

/-- A firing whose handler is given up is given up, with the state of the instance put back. -/
theorem fire_of_spent {b : Binding} (h : Ready m f number i key signature b)
    (hinvoke : ∀ v args m, invoke v args m = .exhausted m) (address : Nat) :
    fire invoke f.frames (f.values number address) m = .exhausted m := by
  have hstate : m.instanceState number = i.state := by rw [instanceState, h.found]
  rw [fire_eq_handle h, handle]
  simp only [hinvoke, hstate, setInstanceState_back h.found]

/-- How a firing consults a function of the host that is bound under a number in a mode: it is asked
once, with the data of the arguments, and this settles the firing; or it is not asked, the firing
fails, and the machine is as it was. -/
inductive Consults (m : Machine) (f : Firing) (number : Nat) (i : Instance) (key : String)
    (signature : Signature) (n : Nat) (data : List Datum) (frames : List Frame)
    (ask : List Datum → Run HostReply) : OutMode → Outcome (List Value) → Prop
  | asked {mode : OutMode} {own : List OutRecord} {out : Outcome (List Value)}
      (hmode : mode ≠ .userSubgraph)
      (h : Settles f number i key signature ⟨mode, .callable n⟩
        ((ask data >>= reply frames) (m.setInstanceState number .suspended)) own out) :
      Consults m f number i key signature n data frames ask mode out
  | refused {reason : Failure}
      (h : reason = complaint frames "argument 1 has unsupported type userdata") :
      Consults m f number i key signature n data frames ask .userSubgraph
        (.failed (complaint f.frames s!"out '{key}' handler failed: {reason.text}") m)

/-- **A firing consults the function of the host that is bound to it.** -/
theorem consults_fire (h : Ready m f number i key signature ⟨mode, .callable n⟩)
    {data : List Datum} (hdata : f.args.map Value.datum? = data.map some)
    (hasks : Asks m.callables n frames ask invoke) (address : Nat) :
    Consults m f number i key signature n data frames ask mode
      (fire invoke f.frames (f.values number address) m) := by
  have hfired : ∃ own, Settles f number i key signature ⟨mode, .callable n⟩
      (f.handled number address ⟨mode, .callable n⟩ invoke m) own
      (fire invoke f.frames (f.values number address) m) := by
    rw [fire_eq_handle h]
    exact settles_handle h.found address invoke
  generalize fire invoke f.frames (f.values number address) m = out at hfired ⊢
  obtain ⟨own, hsettles⟩ := hfired
  by_cases hmode : mode = .userSubgraph
  · subst hmode
    rw [handled_of_userSubgraph hasks] at hsettles
    cases hsettles with
    | failed =>
      rw [setInstanceState_back h.found]
      exact .refused rfl
  · rw [handled_of_data hasks hmode hdata] at hsettles
    exact .asked hmode hsettles

/-- How a firing consults that function of the host: its arguments carry these data, and however the
function is asked, as the machine does in particular, this is what becomes of the firing. -/
structure Consulting (m : Machine) (f : Firing) (number : Nat) (i : Instance) (key : String)
    (signature : Signature) (mode : OutMode) (g : HostFunction) (n : Nat) (data : List Datum) :
    Prop where
  bound : Entries.get? i.bindings key = some ⟨mode, .callable n⟩
  offered : m.callables[n]? = some g
  carried : f.args.map Value.datum? = data.map some
  fired (frames : List Frame) (ask : List Datum → Run HostReply)
    (invoke : Value → List Value → Run (List Value)) (address : Nat)
    (hasks : Asks m.callables n frames ask invoke) :
    Consults m f number i key signature n data frames ask mode
      (fire invoke f.frames (f.values number address) m)
  called (fuel depth address : Nat) (hdepth : depth + handlerDepth < depthLimit) :
    Consults m f number i key signature n data (.host :: f.frames) (fun ds => pure (g ds)) mode
      (Run.call (fuel + 2) f.frames depth (.builtin .fire) (f.values number address) m)

end Dispatch

/-! ## Handlers -/

open Dispatch

/-- The handler of that out-event is a function of the host. -/
def Handles (m : Machine) (number : Nat) (key : String) (mode : OutMode) (g : HostFunction) :
    Prop :=
  ∃ i n, m.instances[number]? = some i ∧
    Entries.get? i.bindings key = some ⟨mode, .callable n⟩ ∧ m.callables[n]? = some g

/-- **A firing that passes the check consults its handler.** -/
theorem Handles.consulting {m : Machine} {number : Nat} {key : String} {mode : OutMode}
    {g : HostFunction} (h : m.Handles number key mode g) {i : Instance}
    (hi : m.instances[number]? = some i) {f : Firing} (hkey : keyText? f.key = some key)
    {signature : Signature} (hout : i.interface.findOut? key = some signature)
    (hargs : argFault? signature f.args = none) :
    ∃ n data, Consulting m f number i key signature mode g n data := by
  obtain ⟨j, n, hj, hbound, hn⟩ := h
  obtain rfl : j = i := Option.some.inj (hj.symm.trans hi)
  have hready : Ready m f number j key signature ⟨mode, .callable n⟩ :=
    ⟨hi, hkey, hout, hbound, fun _ => hargs⟩
  obtain ⟨data, hdata⟩ := exists_data_of_argFault? hargs
  refine ⟨n, data, hbound, hn, hdata, fun frames ask invoke address hasks =>
    consults_fire hready hdata hasks address, fun fuel depth address hdepth => ?_⟩
  rw [call_fire_eq (Nat.lt_of_le_of_lt (Nat.le_add_right depth handlerDepth) hdepth)]
  exact consults_fire hready hdata (asks_called hn fuel hdepth f.frames) address

/-! ## What stays -/

/-- All functions that the host offered are offered still. -/
def Offers (m m' : Machine) : Prop :=
  ∀ (n : Nat) (g : HostFunction), m.callables[n]? = some g → m'.callables[n]? = some g

theorem Offers.refl (m : Machine) : Offers m m := fun _ _ h => h

theorem Offers.trans {m₁ m₂ m₃ : Machine} (h : Offers m₁ m₂) (h' : Offers m₂ m₃) : Offers m₁ m₃ :=
  fun n g hn => h' n g (h n g hn)

/-- Scripts take no function of the host away. -/
theorem Evolves.offers {m m' : Machine} (h : Evolves m m') : Offers m m' :=
  fun _ _ hn => h.host_eq.1 ▸ hn

/-- The functions of the host are offered still, and the instance under that number still declares
what it did and has the handler that it had for that key. -/
structure Keeps (number : Nat) (key : String) (m m' : Machine) : Prop where
  offers : Offers m m'
  found {i : Instance} (hi : m.instances[number]? = some i) : ∃ j, m'.instances[number]? = some j ∧
    j.interface = i.interface ∧ Entries.get? j.bindings key = Entries.get? i.bindings key

namespace Keeps

variable {m m₁ m₂ m' : Machine} {number : Nat} {key : String}

theorem refl (m : Machine) : Keeps number key m m := ⟨.refl m, fun hi => ⟨_, hi, rfl, rfl⟩⟩

theorem trans (h : Keeps number key m m₁) (h' : Keeps number key m₁ m₂) :
    Keeps number key m m₂ := by
  refine ⟨h.offers.trans h'.offers, fun hi => ?_⟩
  obtain ⟨j, hj, hinterface, hbound⟩ := h.found hi
  obtain ⟨k, hk, hinterface', hbound'⟩ := h'.found hj
  exact ⟨k, hk, hinterface'.trans hinterface, hbound'.trans hbound⟩

/-- What handles an out-event goes on handling it. -/
theorem handles {mode : OutMode} {g : HostFunction} (h : Keeps number key m m')
    (hm : m.Handles number key mode g) : m'.Handles number key mode g := by
  obtain ⟨i, n, hi, hbound, hn⟩ := hm
  obtain ⟨j, hj, -, hkept⟩ := h.found hi
  exact ⟨j, n, hj, hkept.trans hbound, h.offers n g hn⟩

end Keeps

/-- A change to instances that touches neither interface nor handler keeps both. -/
theorem keeps_changeInstance {number : Nat} {key : String} (m : Machine) (n : Nat)
    (f : Instance → Instance) (h : n = number → ∀ i, (f i).interface = i.interface ∧
      Entries.get? (f i).bindings key = Entries.get? i.bindings key) :
    Keeps number key m (m.changeInstance n f) := by
  refine ⟨.refl m, fun {i} hi => ?_⟩
  rw [getElem?_changeInstance, hi]
  split
  · rename_i hn
    exact ⟨f i, rfl, h hn i⟩
  · exact ⟨i, rfl, rfl, rfl⟩

/-- Scripts give no handlers and take none away. -/
theorem Evolves.keeps {m m' : Machine} (h : Evolves m m') (number : Nat) (key : String) :
    Keeps number key m m' := by
  refine ⟨h.offers, fun hi => ?_⟩
  obtain ⟨_, hj, _, _, rfl, -⟩ := h.grown hi
  exact ⟨_, hj, rfl, rfl⟩

/-- The second machine is one that scripts may be in, which were started in the first: they ran for
a while, and handlers may be under way, each with its instance suspended. -/
inductive Amid : Machine → Machine → Prop where
  | start (m : Machine) : Amid m m
  | ran {m m₁ m₂ : Machine} (h : Amid m m₁) (hrun : Evolves m₁ m₂) : Amid m m₂
  | entered {m m₁ : Machine} (h : Amid m m₁) (number : Nat) :
    Amid m (m₁.setInstanceState number .suspended)

/-- **Handlers stay while scripts run**, also within handlers. -/
theorem Amid.keeps {m m' : Machine} (h : Amid m m') (number : Nat) (key : String) :
    Keeps number key m m' := by
  induction h with
  | start => exact .refl m
  | ran _ hrun ih => exact ih.trans (hrun.keeps number key)
  | @entered m₁ _ n ih =>
    exact ih.trans (keeps_changeInstance m₁ n _ fun _ _ => ⟨rfl, rfl⟩)

/-- Scripts do not change the build. -/
theorem Amid.build_eq {m m' : Machine} (h : Amid m m') : m'.build = m.build := by
  induction h with
  | start => rfl
  | ran _ hrun ih => exact hrun.host_eq.2.trans ih
  | entered _ _ ih => exact ih

end GraphScript.Machine
