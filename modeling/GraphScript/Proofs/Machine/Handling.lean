import GraphScript.Proofs.Machine.Firing
import GraphScript.Proofs.Machine.Marshal

/-!
# Proofs/Machine/Handling — one firing, one call of its handler

A firing of a declared out-event that has a handler is the one run of that handler, in a machine in
which the instance is suspended, and what `Settles` makes of it: the state is put back, and either
there is an error and no record, or there is one record and the values for the script
(`settles_handle`).  This holds whatever the handler does, since how it is called is a parameter.

The machine calls handlers as it calls all functions, so what a handler fires itself is settled
before it comes back: those records stand before the one of the firing around them
(`dispatched_once`).
-/

namespace GraphScript.Machine

open Script

namespace Dispatch

/-! ## Results -/

/-- So many values: what was returned, and `nil` for what is missing. -/
structure Padded (count : Nat) (returned values : List Value) : Prop where
  length : values.length = count
  value : ∀ n < count, values[n]? = some (returned.getD n .nil)

theorem padded_fit (count : Nat) (returned : List Value) :
    Padded count returned (Value.fit count returned) where
  length := Value.length_fit count returned
  value _ := Value.getElem?_fit returned

/-- The values are of their declared types, and these are their data. -/
def Converted (es : List (Param × Value)) (results : List Datum) : Prop :=
  List.Forall₂ (fun e d => e.2.toDatum e.1.dataType = .ok d) es results

/-- A value is not of its declared type, and the first such value is the reason. -/
def Misfit (key : String) (es : List (Param × Value)) (reason : String) : Prop :=
  ∃ before p v found after, es = before ++ (p, v) :: after ∧
    (∀ e ∈ before, ∃ d, e.2.toDatum e.1.dataType = .ok d) ∧ v.toDatum p.dataType = .error found ∧
    reason = s!"out '{key}' returned {found} for '{p.name}' ({p.dataType})"

theorem converted_of_resultData {key : String} : ∀ {es : List (Param × Value)} {ds : List Datum},
    resultData key es = .ok ds → Converted es ds
  | [], ds, h => by
      obtain rfl := Except.ok.inj h
      exact .nil
  | (p, v) :: es, ds, h => by
      rw [resultData] at h
      cases hv : v.toDatum p.dataType with
      | error found => simp [hv] at h
      | ok d =>
        cases hrest : resultData key es with
        | error reason => simp [hv, hrest] at h
        | ok rest =>
          simp only [hv, hrest, Except.ok.injEq] at h
          obtain rfl := h
          exact .cons hv (converted_of_resultData hrest)

theorem misfit_of_resultData {key reason : String} : ∀ {es : List (Param × Value)},
    resultData key es = .error reason → Misfit key es reason
  | [], h => by cases h
  | (p, v) :: es, h => by
      rw [resultData] at h
      cases hv : v.toDatum p.dataType with
      | error found =>
        simp only [hv, Except.error.injEq] at h
        exact ⟨[], p, v, found, es, rfl, List.forall_mem_nil _, hv, h.symm⟩
      | ok d =>
        cases hrest : resultData key es with
        | ok rest => simp [hv, hrest] at h
        | error reason' =>
          simp only [hv, hrest, Except.error.injEq] at h
          obtain ⟨before, q, w, found, after, rfl, hbefore, hw, hreason⟩ :=
            misfit_of_resultData hrest
          exact ⟨(p, v) :: before, q, w, found, after, rfl,
            List.forall_mem_cons.mpr ⟨⟨d, hv⟩, hbefore⟩, hw, h ▸ hreason⟩

/-! ## How a firing is settled -/

/-- An error that the host reports from a service. -/
def complaint (frames : List Frame) (reason : String) : Failure :=
  .reported (Failure.runtimeText reason) (Frame.traceback (.host :: frames))

/-- The firing, of the instance `i` under that number, is declared, has a handler, and passes the
check of its arguments where that is made. -/
structure Ready (m : Machine) (f : Firing) (number : Nat) (i : Instance) (key : String)
    (signature : Signature) (b : Binding) : Prop where
  found : m.instances[number]? = some i
  named : keyText? f.key = some key
  declared : i.interface.findOut? key = some signature
  bound : Entries.get? i.bindings key = some b
  checked : m.build.policy.checksOutArgs = true → argFault? signature f.args = none

/-- How the run of its handler settles a firing, and what the firing records. -/
inductive Settles (f : Firing) (number : Nat) (i : Instance) (key : String)
    (signature : Signature) (b : Binding) :
    Outcome (List Value) → List OutRecord → Outcome (List Value) → Prop
  | failed (e : Failure) (m : Machine) :
      Settles f number i key signature b (.failed e m) []
        (.failed (complaint f.frames s!"out '{key}' handler failed: {e.text}")
          (m.setInstanceState number i.state))
  | exhausted (m : Machine) :
      Settles f number i key signature b (.exhausted m) []
        (.exhausted (m.setInstanceState number i.state))
  | refused {returned values : List Value} {reason : String} (m : Machine)
      (hmode : b.mode ≠ .immediate) (hvalues : Padded signature.returns.length returned values)
      (hmisfit : Misfit key (signature.returns.zip values) reason) :
      Settles f number i key signature b (.done returned m) []
        (.failed (complaint f.frames reason) (m.setInstanceState number i.state))
  | dropped (returned : List Value) (m : Machine) {r : OutRecord} (hmode : b.mode = .immediate)
      (hr : r = ⟨key, .immediate, f.args.map Value.datum?, []⟩) :
      Settles f number i key signature b (.done returned m) [r]
        (.done [] ((m.setInstanceState number i.state).changeInstance number
          fun i => { i with records := i.records ++ [r] }))
  | taken {returned values : List Value} {results : List Datum} (m : Machine) {r : OutRecord}
      (hmode : b.mode ≠ .immediate) (hvalues : Padded signature.returns.length returned values)
      (hresults : Converted (signature.returns.zip values) results)
      (hr : r = ⟨key, b.mode, f.args.map Value.datum?, results⟩) :
      Settles f number i key signature b (.done returned m) [r]
        (.done values ((m.setInstanceState number i.state).changeInstance number
          fun i => { i with records := i.records ++ [r] }))

end Dispatch

namespace Firing

open Dispatch

/-- What a script passes to fire. -/
def values (f : Firing) (number address : Nat) : List Value :=
  .host address (.state number) :: f.key :: f.args

/-- The run of the handler, which is called that way, with the instance suspended. -/
def handled (f : Firing) (number address : Nat) (b : Binding)
    (invoke : Value → List Value → Run (List Value)) (m : Machine) : Outcome (List Value) :=
  invoke b.handler (passed b (.host address (.state number)) f.args)
    (m.setInstanceState number .suspended)

end Firing

namespace Dispatch

variable {m : Machine} {f : Firing} {number : Nat} {i : Instance} {key : String}
  {signature : Signature} {b : Binding}

/-- What a handler returned is taken over or refused. -/
theorem settles_accept (returned : List Value) (m : Machine) :
    ∃ own, Settles f number i key signature b (.done returned m) own
      (accept f.frames number signature key b.mode f.args returned
        (m.setInstanceState number i.state)) := by
  have hvalues := padded_fit signature.returns.length returned
  cases hmode : b.mode with
  | immediate => exact ⟨_, .dropped returned m hmode rfl⟩
  | result | userSubgraph =>
    have hne : b.mode ≠ .immediate := by simp [hmode]
    simp only [accept]
    cases hresults : resultData key
        (signature.returns.zip (Value.fit signature.returns.length returned)) with
    | error reason => exact ⟨[], .refused m hne hvalues (misfit_of_resultData hresults)⟩
    | ok results =>
      exact ⟨_, .taken m hne hvalues (converted_of_resultData hresults) (by rw [hmode])⟩

/-- **A firing that reaches its handler is settled by the one run of it.** -/
theorem settles_handle (hi : m.instances[number]? = some i) (address : Nat)
    (invoke : Value → List Value → Run (List Value)) :
    ∃ own, Settles f number i key signature b (f.handled number address b invoke m) own
      (handle invoke f.frames number signature key b (.host address (.state number)) f.args m) := by
  have hprevious : m.instanceState number = i.state := by rw [instanceState, hi]
  have hhandled : f.handled number address b invoke m = invoke b.handler
      (if b.mode = .userSubgraph then .host address (.state number) :: f.args else f.args)
      (m.setInstanceState number .suspended) := rfl
  simp only [handle, hprevious, ← hhandled]
  cases f.handled number address b invoke m with
  | done returned m' => exact settles_accept returned m'
  | failed e m' => exact ⟨[], .failed e m'⟩
  | exhausted m' => exact ⟨[], .exhausted m'⟩

theorem fire_eq_handle (h : Ready m f number i key signature b) (address : Nat)
    (invoke : Value → List Value → Run (List Value)) :
    fire invoke f.frames (f.values number address) m =
      handle invoke f.frames number signature key b (.host address (.state number)) f.args m := by
  have hkey : keyOf f.frames f.key m = .done key m := keyOf_done_iff.mpr ⟨h.named, rfl⟩
  have hfault : (if m.build.policy.checksOutArgs = true then argFault? signature f.args
      else none) = none := by
    split
    · rename_i hchecks
      exact h.checked hchecks
    · rfl
  simp only [fire, Firing.values, bind, hkey, instanceOf, pure, Run.read, h.found, h.declared,
    hfault, h.bound]

/-- The firing leaves its instance as the handler did, with the state put back and the record of
its own added. -/
theorem Settles.getElem?_instances {ran out : Outcome (List Value)} {own : List OutRecord}
    (h : Settles f number i key signature b ran own out) {nested : List OutRecord}
    {logs : List String} (hran : ran.machine.instances[number]? = some { i with
      state := .suspended, records := i.records ++ nested, logs := i.logs ++ logs }) :
    out.machine.instances[number]? = some { i with
      records := i.records ++ nested ++ own, logs := i.logs ++ logs } := by
  cases h with
  | failed | exhausted | refused =>
    simp only [Outcome.machine] at hran ⊢
    simp [setInstanceState, getElem?_changeInstance, hran]
  | dropped | taken =>
    simp only [Outcome.machine] at hran ⊢
    simp [setInstanceState, getElem?_changeInstance, hran]

/-- A handler leaves the instance suspended and otherwise as it was, but for records and logs. -/
theorem exists_handled_instance (hi : m.instances[number]? = some i) (address fuel depth : Nat) :
    ∃ nested logs,
      (f.handled number address b (called fuel depth f.frames) m).machine.instances[number]? =
        some { i with
          state := .suspended, records := i.records ++ nested, logs := i.logs ++ logs } := by
  have hevolves := (Run.evolvingAt fuel).call (.host :: f.frames) (depth + handlerDepth) b.handler
    (passed b (.host address (.state number)) f.args) (m.setInstanceState number .suspended)
  have hsuspended : (m.setInstanceState number .suspended).instances[number]? =
      some { i with state := .suspended } := by
    simp [setInstanceState, getElem?_changeInstance, hi]
  obtain ⟨_, hran, nested, logs, rfl, -⟩ := hevolves.grown hsuspended
  exact ⟨nested, logs, hran⟩

/-- Scripts fire by calling a function of the machine. -/
theorem call_fire_eq {fuel depth : Nat} (hdepth : depth < depthLimit) (frames : List Frame)
    (vs : List Value) (m : Machine) :
    Run.call (fuel + 1) frames depth (.builtin .fire) vs m =
      fire (called fuel depth frames) frames vs m := by
  rw [Run.call, if_neg (Nat.not_le.mpr hdepth)]
  rfl

/-- **Out-events are dispatched once and recorded faithfully.**  Let a firing be declared, have a
handler, and pass the check of its arguments where that is made.  However handlers are called, the
firing is settled by the one run of its handler.  In the machine itself that run leaves the instance
suspended with the records of nested firings, and the firing adds its own behind them, if it has
one, and puts the state back. -/
theorem dispatched_once (m : Machine) (f : Firing) (number address : Nat) (i : Instance)
    (key : String) (signature : Signature) (b : Binding)
    (h : Ready m f number i key signature b) :
    (∀ invoke, ∃ own, Settles f number i key signature b
      (f.handled number address b invoke m) own
      (fire invoke f.frames (f.values number address) m)) ∧
    ∀ fuel depth, depth < depthLimit → ∃ nested logs own,
      Settles f number i key signature b
        (f.handled number address b (called fuel depth f.frames) m) own
        (Run.call (fuel + 1) f.frames depth (.builtin .fire) (f.values number address) m) ∧
      (f.handled number address b (called fuel depth f.frames) m).machine.instances[number]? =
        some { i with
          state := .suspended, records := i.records ++ nested, logs := i.logs ++ logs } ∧
      (Run.call (fuel + 1) f.frames depth (.builtin .fire)
        (f.values number address) m).machine.instances[number]? =
        some { i with records := i.records ++ nested ++ own, logs := i.logs ++ logs } := by
  have hsettles (invoke : Value → List Value → Run (List Value)) :
      ∃ own, Settles f number i key signature b (f.handled number address b invoke m) own
        (fire invoke f.frames (f.values number address) m) := by
    rw [fire_eq_handle h]
    exact settles_handle h.found address invoke
  refine ⟨hsettles, fun fuel depth hdepth => ?_⟩
  rw [call_fire_eq hdepth]
  obtain ⟨own, hown⟩ := hsettles (called fuel depth f.frames)
  obtain ⟨nested, logs, hran⟩ :=
    exists_handled_instance (f := f) (b := b) h.found address fuel depth
  exact ⟨nested, logs, own, hown, hran, hown.getElem?_instances hran⟩

/-- What a switchboard is asked for: to connect a caller to another of its out-events. -/
def connect : Signature where
  name := "connect"
  params := [⟨"line", .string⟩, ⟨"urgent", .boolean⟩]
  returns := [⟨"answered", .boolean⟩]

/-- A switchboard whose handler for connecting fires in turn, and one that rings. -/
def switchboard : Instance where
  owner := ⟨1⟩
  interface := { outs := [connect, ⟨"ring", [⟨"urgent", .boolean⟩], [⟨"answered", .boolean⟩]⟩] }
  chunk := "switchboard"
  text := ""
  inputs := {}
  debugMap := default
  state := .running
  bindings := [("connect", ⟨.userSubgraph, .builtin .fire⟩), ("ring", ⟨.result, .callable 0⟩)]

/-- A machine with the switchboard and a host that answers too much. -/
def office : Machine where
  tables := #[]
  callables := #[fun _ => .values [.boolean true, .boolean false]]
  instances := #[switchboard]

/-- A call that is put through. -/
def incoming : Firing := ⟨[], .ofText "connect", [.ofText "ring", .boolean false]⟩

/-- The call is answered with the one declared result, the ringing is recorded before the
connecting, and the switchboard goes on running. -/
theorem office_dispatched_once :
    Ready office incoming 0 switchboard "connect" connect ⟨.userSubgraph, .builtin .fire⟩ ∧
    ∃ m', Run.call 3 [] 0 (.builtin .fire) (incoming.values 0 0) office =
        .done [.boolean true] m' ∧
      m'.instances[0]? = some { switchboard with records := [
        ⟨"ring", .result, [some (.boolean false)], [.boolean true]⟩,
        ⟨"connect", .userSubgraph, [some (.string "ring"), some (.boolean false)],
          [.boolean true]⟩] } := by
  have hready : Ready office incoming 0 switchboard "connect" connect
      ⟨.userSubgraph, .builtin .fire⟩ := ⟨rfl, rfl, rfl, rfl, fun _ => rfl⟩
  obtain ⟨nested, logs, own, hsettles, hran, hfinal⟩ :=
    (dispatched_once office incoming 0 0 switchboard "connect" connect _ hready).2 2 0 (by decide)
  have hrun : ∃ m', Run.call 3 [] 0 (.builtin .fire) (incoming.values 0 0) office =
      .done [.boolean true] m' := ⟨_, rfl⟩
  obtain ⟨m', hm'⟩ := hrun
  have hnested : nested = [⟨"ring", .result, [some (.boolean false)], [.boolean true]⟩] :=
    (congrArg Instance.records (Option.some.inj hran)).symm
  have hlogs : logs = [] := (congrArg Instance.logs (Option.some.inj hran)).symm
  have hframes : incoming.frames = [] := rfl
  rw [hframes, hm'] at hsettles hfinal
  have hown : own = [⟨"connect", .userSubgraph, [some (.string "ring"), some (.boolean false)],
      [.boolean true]⟩] := by
    generalize incoming.handled 0 0 _ _ office = ran at hsettles
    cases hsettles with
    | taken m _ _ hresults hr =>
      cases hresults with
      | cons hdatum hrest =>
        obtain rfl := Except.ok.inj hdatum
        cases hrest
        rw [hr]
        rfl
  refine ⟨hready, m', hm', hfinal.trans ?_⟩
  rw [hnested, hlogs, hown]
  rfl

end Dispatch

end GraphScript.Machine
