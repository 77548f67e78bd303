import GraphScript.Command.CallJob
import GraphScript.Proofs.Host.Handlers

/-!
# Proofs/Command/Connect — the usual handlers

A call from the command line gives every out-event a handler that answers with the usual values of
its results.  Handlers are bound in turn, and since names differ, none takes the place of another
(`connect_run`).  The usual value of a type is of that type, so what these handlers answer is never
refused, and a firing fails only if its arguments do not pass the check
(`connected_firing_answered`).
-/

namespace GraphScript

open Script (Value)

namespace Datum

/-- The usual value of a type is of that type. -/
theorem isA_of_default? {t : DataType} {d : Datum} (h : default? t = some d) : d.isA t = true := by
  cases t with
  | boolean | number | string | entityId =>
    obtain rfl := Option.some.inj h
    rfl
  | object className => cases h

/-- Exactly the types of objects have no usual value. -/
theorem default?_eq_none_iff {t : DataType} :
    default? t = none ↔ ∃ className, t = .object className := by
  cases t with
  | boolean | number | string | entityId => simp [default?]
  | object className => simp [default?]

end Datum

/-- Where names differ, an out-event is found by its own. -/
theorem Interface.findOut?_of_mem {i : Interface} (hnodup : (i.outs.map (·.name)).Nodup)
    {s : Signature} (h : s ∈ i.outs) : i.findOut? s.name = some s := by
  rw [findOut?]
  cases hfind : i.outs.find? (·.name == s.name) with
  | none => exact absurd BEq.rfl (List.find?_eq_none.mp hfind s h)
  | some t =>
    have hname := List.find?_some hfind
    rw [List.inj_on_of_nodup_map hnodup (List.mem_of_find?_eq_some hfind) h (beq_iff_eq.mp hname)]

namespace Machine.Dispatch

variable {m : Machine} {f : Firing} {number : Nat} {i : Instance} {key : String}
  {signature : Signature}

/-- Where there are as many values as results, all are taken as they are. -/
theorem Padded.eq_of_length {count : Nat} {returned values : List Value}
    (h : Padded count returned values) (hlength : returned.length = count) : values = returned := by
  refine List.ext_getElem? fun n => ?_
  by_cases hn : n < count
  · rw [h.value n hn, List.getD_eq_getElem?_getD, List.getElem?_eq_getElem (hlength ▸ hn),
      Option.getD_some]
  · rw [List.getElem?_eq_none (h.length ▸ Nat.not_lt.mp hn),
      List.getElem?_eq_none (hlength ▸ Nat.not_lt.mp hn)]

/-- A firing that does not pass the check fails, and the machine is as it was. -/
theorem fire_of_argFault? (hi : m.instances[number]? = some i) (hkey : keyText? f.key = some key)
    (hout : i.interface.findOut? key = some signature) (hbuild : m.build = .debug)
    {reason : String} (hfault : argFault? signature f.args = some reason) (address : Nat)
    (invoke : Value → List Value → Run (List Value)) :
    fire invoke f.frames (f.values number address) m = .failed (complaint f.frames reason) m := by
  have hkeyOf : keyOf f.frames f.key m = .done key m := keyOf_done_iff.mpr ⟨hkey, rfl⟩
  have hchecks : m.build.policy.checksOutArgs = true := by
    rw [hbuild]
    rfl
  simp only [fire, Firing.values, bind, hkeyOf, instanceOf, pure, Run.read, hi, hout, hchecks,
    if_true, hfault]
  rfl

end Machine.Dispatch

namespace Command.CallJob

open Machine Dispatch

/-! ## The usual answer -/

/-- What a handler answers. -/
def answer (s : Signature) : List Datum := (replies s.returns).getD []

/-- The mode in which a handler is bound. -/
def mode (s : Signature) : OutMode := if (answer s).isEmpty then .immediate else .result

/-- The value is read as the usual one of its type. -/
def IsUsual (p : Param) (v : Value) : Prop :=
  ∃ d, Datum.default? p.dataType = some d ∧ v.toDatum p.dataType = .ok d

/-- What a script is answered: one value for each result, the usual one of its type, or nothing
if a result is an object. -/
inductive Usual (returns : List Param) : List Value → Prop
  | each {values : List Value} (h : List.Forall₂ IsUsual returns values) : Usual returns values
  | nothing {p : Param} {className : String} (hp : p ∈ returns)
      (htype : p.dataType = .object className) : Usual returns []

theorem replies_cons (p : Param) (ps : List Param) :
    replies (p :: ps) = (Datum.default? p.dataType).bind fun d => (replies ps).map (d :: ·) := by
  rw [replies, List.mapM_cons]
  simp only [Option.map_eq_bind]
  rfl

/-- An answer has the usual value of each result. -/
theorem forall₂_of_replies {returns : List Param} {ds : List Datum}
    (h : replies returns = some ds) :
    List.Forall₂ (fun p d => Datum.default? p.dataType = some d) returns ds := by
  induction returns generalizing ds with
  | nil =>
    obtain rfl := Option.some.inj h
    exact .nil
  | cons p ps ih =>
    rw [replies_cons] at h
    obtain ⟨d, hd, h⟩ := Option.bind_eq_some_iff.mp h
    obtain ⟨rest, hrest, rfl⟩ := Option.map_eq_some_iff.mp h
    exact .cons hd (ih hrest)

/-- There is no answer only if some result is an object. -/
theorem exists_object_of_replies {returns : List Param} (h : replies returns = none) :
    ∃ p ∈ returns, ∃ className, p.dataType = .object className := by
  induction returns with
  | nil => cases h
  | cons p ps ih =>
    cases hd : Datum.default? p.dataType with
    | none => exact ⟨p, List.mem_cons_self, Datum.default?_eq_none_iff.mp hd⟩
    | some d =>
      rw [replies_cons, hd, Option.bind_some, Option.map_eq_none_iff] at h
      obtain ⟨q, hq, hobject⟩ := ih h
      exact ⟨q, List.mem_cons_of_mem p hq, hobject⟩

/-- Handlers that only are told have nothing to answer. -/
theorem usual_nil_of_mode {s : Signature} (h : mode s = .immediate) : Usual s.returns [] := by
  cases hreplies : replies s.returns with
  | none =>
    obtain ⟨p, hp, className, htype⟩ := exists_object_of_replies hreplies
    exact .nothing hp htype
  | some ds =>
    have hempty : ds = [] := by
      simpa [mode, answer, hreplies] using h
    have hnone := forall₂_of_replies hreplies
    rw [hempty, List.forall₂_nil_right_iff] at hnone
    rw [hnone]
    exact .each .nil

/-- The usual values are read back by the types that they are for. -/
theorem forall₂_embedAll {returns : List Param} {ds : List Datum}
    (h : List.Forall₂ (fun p d => Datum.default? p.dataType = some d) returns ds) (m : Machine) :
    List.Forall₂ IsUsual returns (m.embedAll ds).1 := by
  induction h generalizing m with
  | nil => exact .nil
  | cons hd _ ih =>
    exact .cons ⟨_, hd, Value.toDatum_ofDatum_iff.mpr (Datum.isA_of_default? hd)⟩ (ih _)

/-- Handlers that are asked answer one value for each result, the usual one. -/
theorem forall₂_of_padded {s : Signature} (hmode : mode s ≠ .immediate) {m : Machine}
    {values : List Value} (h : Padded s.returns.length (m.embedAll (answer s)).1 values) :
    List.Forall₂ IsUsual s.returns values := by
  cases hreplies : replies s.returns with
  | none => exact absurd (by simp [mode, answer, hreplies]) hmode
  | some ds =>
    have hvalues := forall₂_embedAll (forall₂_of_replies hreplies) m
    rw [answer, hreplies, Option.getD_some] at h
    rwa [h.eq_of_length hvalues.length_eq.symm]

/-- **The usual answer is taken**, whatever the types of the results. -/
theorem usual_of_settles {f : Firing} {number n : Nat} {i : Instance} {s : Signature}
    {m m' : Machine} {own : List OutRecord} {out : Outcome (List Value)}
    (h : Settles f number i s.name s ⟨mode s, .callable n⟩ (.done (m.embedAll (answer s)).1 m') own
      out) : ∃ values m', out = .done values m' ∧ Usual s.returns values := by
  cases h with
  | refused _ hmode hvalues hmisfit =>
    obtain ⟨before, p, v, found, after, hzip, -, hv, -⟩ := hmisfit
    have hmem : (p, v) ∈ s.returns.zip _ := hzip ▸ List.mem_append_right before List.mem_cons_self
    obtain ⟨d, -, hd⟩ := (List.forall₂_iff_zip.mp (forall₂_of_padded hmode hvalues)).2 hmem
    rw [hd] at hv
    cases hv
  | dropped _ _ hmode => exact ⟨[], _, rfl, usual_nil_of_mode hmode⟩
  | taken _ hmode hvalues => exact ⟨_, _, rfl, .each (forall₂_of_padded hmode hvalues)⟩

/-- A firing that consults the handler with the usual answer is answered with it. -/
theorem usual_of_consults {m : Machine} {f : Firing} {number n : Nat} {i : Instance} {s : Signature}
    {data : List Datum} {frames : List Frame} {out : Outcome (List Value)}
    (h : Consults m f number i s.name s n data frames (fun _ => pure (.values (answer s))) (mode s)
      out) : ∃ values m', out = .done values m' ∧ Usual s.returns values := by
  generalize hmode : mode s = b at h
  cases h with
  | asked _ hsettles =>
    subst hmode
    exact usual_of_settles hsettles
  | refused =>
    unfold mode at hmode
    split at hmode
    · cases hmode
    · cases hmode

/-! ## Connecting -/

/-- The handler of an out-event is the one with the usual answer. -/
def Connected (m : Machine) (number : Nat) (s : Signature) : Prop :=
  m.Handles number s.name (mode s) fun _ => .values (answer s)

/-- A machine in which one more out-event is connected. -/
def connectedTo (number : Nat) (s : Signature) (vm : Vm) : Vm :=
  Instance.changed number (Instance.bound s.name ⟨mode s, .callable vm.machine.callables.size⟩)
    (vm.offering fun _ => .values (answer s))

section Step

variable {vm : Vm} {number : Nat} {i : Instance} {s : Signature}

theorem run_connect_cons (hi : Instance.get? vm number = some i)
    (hs : i.state ∈ [.uninitialized, .activated, .running])
    (hdeclared : (i.interface.findOut? s.name).isSome) (outs : List Signature) :
    (connect number (s :: outs)).run.run vm =
      (connect number outs).run.run (connectedTo number s vm) := by
  have hoffered : Instance.get? (vm.offering fun _ => .values (answer s)) number = some i := hi
  rw [connect]
  exact (Op.run_bind_ok (vm.run_createCallable _)).trans
    (Op.run_bind_ok (Instance.run_bindOut hoffered hs hdeclared (mode s) _))

/-- The out-event gets its handler. -/
theorem connected_connectedTo (hi : Instance.get? vm number = some i) :
    Connected (connectedTo number s vm).machine number s := by
  have hoffered : Instance.get? (vm.offering fun _ => .values (answer s)) number = some i := hi
  exact Instance.handles_changed_bound hoffered Array.getElem?_push_size (mode s)

/-- Out-events with other names keep theirs. -/
theorem keeps_connectedTo {key : String} (hne : s.name ≠ key) :
    Keeps number key vm.machine (connectedTo number s vm).machine :=
  (vm.keeps_offering _ number key).trans (Instance.keeps_changed_bound (fun _ => hne) _ _)

end Step

/-- **Out-events are connected in turn**: each gets the handler with the usual answer, and those
with other names keep theirs. -/
theorem connect_run {number : Nat} {i : Instance} (outs : List Signature) {vm : Vm}
    (hi : Instance.get? vm number = some i)
    (hs : i.state ∈ [.uninitialized, .activated, .running])
    (hdeclared : ∀ s ∈ outs, (i.interface.findOut? s.name).isSome)
    (hnodup : (outs.map (·.name)).Nodup) :
    ∃ vm', (connect number outs).run.run vm = (.ok (), vm') ∧
      (∀ s ∈ outs, Connected vm'.machine number s) ∧
      (∃ j, Instance.get? vm' number = some j ∧ j.interface = i.interface) ∧ vm'.build = vm.build ∧
      ∀ key ∉ outs.map (·.name), Keeps number key vm.machine vm'.machine := by
  induction outs generalizing vm i with
  | nil => exact ⟨vm, rfl, List.forall_mem_nil _, ⟨i, hi, rfl⟩, rfl, fun _ _ => .refl vm.machine⟩
  | cons s outs ih =>
    rw [List.forall_mem_cons] at hdeclared
    rw [List.map_cons, List.nodup_cons] at hnodup
    have hbound : Instance.get? (connectedTo number s vm) number =
        some (i.bound s.name ⟨mode s, .callable vm.machine.callables.size⟩) :=
      Instance.get?_changed_bound hi _
    obtain ⟨vm', hrun, hconnected, hinterface, hbuild, hkeeps⟩ := ih hbound hs hdeclared.2 hnodup.2
    refine ⟨vm', (run_connect_cons hi hs hdeclared.1 outs).trans hrun, ?_, hinterface, hbuild,
      fun key hkey => ?_⟩
    · have hs : Connected vm'.machine number s :=
        (hkeeps s.name hnodup.1).handles (connected_connectedTo hi)
      exact List.forall_mem_cons.mpr ⟨hs, hconnected⟩
    · rw [List.map_cons, List.mem_cons, not_or] at hkey
      exact (keeps_connectedTo (Ne.symm hkey.1)).trans (hkeeps key hkey.2)

/-! ## Firing -/

/-- What becomes of a firing of that out-event: it does not pass the check, which leaves the machine
as it was, or the script is answered with the usual values. -/
inductive Answered (m : Machine) (f : Firing) (s : Signature) : Outcome (List Value) → Prop
  | rejected {reason : String} (h : argFault? s f.args = some reason) :
    Answered m f s (.failed (complaint f.frames reason) m)
  | answered {values : List Value} {m' : Machine} (hpassed : argFault? s f.args = none)
    (h : Usual s.returns values) : Answered m f s (.done values m')

section Firing

variable {m : Machine} {number : Nat} {s : Signature} (h : Connected m number s) {i : Instance}
  (hi : m.instances[number]? = some i) (hbuild : m.build = .debug)
  (hout : i.interface.findOut? s.name = some s) {f : Firing} (hkey : keyText? f.key = some s.name)
  (address : Nat)

include h hi hbuild hout hkey

/-- **However functions of the host are called**, a firing of a connected out-event does not pass
the check or is answered. -/
theorem Connected.answered_fire {frames : List Frame}
    {invoke : Value → List Value → Run (List Value)}
    (hinvoke : AsksHost m.callables frames invoke) :
    Answered m f s (fire invoke f.frames (f.values number address) m) := by
  cases hfault : argFault? s f.args with
  | some reason =>
    rw [fire_of_argFault? hi hkey hout hbuild hfault address invoke]
    exact .rejected hfault
  | none =>
    obtain ⟨n, data, hconsulting⟩ := h.consulting hi hkey hout hfault
    have hasks := hinvoke n _ hconsulting.offered
    obtain ⟨values, m', hdone, husual⟩ :=
      usual_of_consults (hconsulting.fired frames _ invoke address hasks)
    rw [hdone]
    exact .answered hfault husual

/-- **The machine calls them so**, unless it gives up for want of fuel or for the depth. -/
theorem Connected.answered_call (fuel depth : Nat) :
    Answered m f s (Run.call fuel f.frames depth (.builtin .fire) (f.values number address) m) ∨
      (fuel < 2 ∨ depthLimit ≤ depth + handlerDepth) ∧
        Run.call fuel f.frames depth (.builtin .fire) (f.values number address) m =
          .exhausted m := by
  cases fuel with
  | zero => exact .inr ⟨.inl Nat.zero_lt_two, rfl⟩
  | succ fuel =>
    by_cases hdepth : depth < depthLimit
    · rw [call_fire_eq hdepth]
      by_cases hspent : fuel = 0 ∨ depthLimit ≤ depth + handlerDepth
      · have hgiven := called_of_spent hspent f.frames
        cases hfault : argFault? s f.args with
        | some reason =>
          rw [fire_of_argFault? hi hkey hout hbuild hfault address _]
          exact .inl (.rejected hfault)
        | none =>
          obtain ⟨j, n, hj, hbound, -⟩ := h
          obtain rfl : j = i := Option.some.inj (hj.symm.trans hi)
          have hready : Ready m f number j s.name s ⟨mode s, .callable n⟩ :=
            ⟨hi, hkey, hout, hbound, fun _ => hfault⟩
          have hfew : fuel + 1 < 2 ∨ depthLimit ≤ depth + handlerDepth := by omega
          exact .inr ⟨hfew, fire_of_spent hready hgiven address⟩
      · obtain ⟨hfuel, hlimit⟩ := not_or.mp hspent
        obtain ⟨fuel, rfl⟩ := Nat.exists_eq_succ_of_ne_zero hfuel
        have hasks := asksHost_called m.callables fuel (Nat.not_le.mp hlimit) f.frames
        exact .inl (h.answered_fire hi hbuild hout hkey address hasks)
    · have hlimit : depthLimit ≤ depth := Nat.not_lt.mp hdepth
      refine .inr ⟨.inr (Nat.le_add_right_of_le hlimit), ?_⟩
      rw [Run.call, if_pos hlimit]
      rfl

end Firing

/-- **The usual handlers never fail a firing that passes the check.**  Let the out-events of an
instance have different names, and give them handlers as a call from the command line does.  This
succeeds.  While scripts run in the debug build, every firing of a declared out-event either does not
pass the check, or is answered: with one usual value for each declared result, or with nothing if
one of them is an object, which has no usual value.  This holds however functions of the host are
called, and so it does in the machine itself, as far as the fuel and the depth that it is given
reach. -/
theorem connected_firing_answered (vm : Vm) (hdebug : vm.build = .debug) (number : Nat)
    (i : Instance) (hi : Instance.get? vm number = some i)
    (hs : i.state ∈ [.uninitialized, .activated, .running])
    (hnodup : (i.interface.outs.map (·.name)).Nodup) :
    ∃ vm', (connect number i.interface.outs).run.run vm = (.ok (), vm') ∧
      ∀ m, Amid vm'.machine m → ∀ s ∈ i.interface.outs, ∀ f : Firing,
        keyText? f.key = some s.name → ∀ address,
          (∀ frames invoke, AsksHost m.callables frames invoke →
            Answered m f s (fire invoke f.frames (f.values number address) m)) ∧
          ∀ fuel depth, Answered m f s
              (Run.call fuel f.frames depth (.builtin .fire) (f.values number address) m) ∨
            (fuel < 2 ∨ depthLimit ≤ depth + handlerDepth) ∧
              Run.call fuel f.frames depth (.builtin .fire) (f.values number address) m =
                .exhausted m := by
  have hfind {s : Signature} (h : s ∈ i.interface.outs) : i.interface.findOut? s.name = some s :=
    Interface.findOut?_of_mem hnodup h
  obtain ⟨vm', hrun, hconnected, ⟨j, hj, hinterface⟩, hbuild, -⟩ := connect_run i.interface.outs hi
    hs (fun s h => by rw [hfind h]; rfl) hnodup
  refine ⟨vm', hrun, fun m hm s h f hkey address => ?_⟩
  have hkeeps := hm.keeps number s.name
  obtain ⟨k, hk, hkinterface, -⟩ := hkeeps.found hj
  have hm' : Connected m number s := hkeeps.handles (hconnected s h)
  have hdebug' : m.build = .debug := hm.build_eq.trans (hbuild.trans hdebug)
  have hout : k.interface.findOut? s.name = some s := by rw [hkinterface, hinterface, hfind h]
  exact ⟨fun _ _ hinvoke => hm'.answered_fire hk hdebug' hout hkey address hinvoke,
    fun fuel depth => hm'.answered_call hk hdebug' hout hkey address fuel depth⟩

/-- A press tells what it made, and asks whether to go on and with what. -/
def made : Signature := ⟨"made", [⟨"whole", .boolean⟩], [⟨"on", .boolean⟩, ⟨"job", .string⟩]⟩

/-- It asks for its operator. -/
def operator : Signature := ⟨"operator", [], [⟨"worker", .object "Worker"⟩]⟩

def press : Instance where
  owner := ⟨1⟩
  interface := { outs := [made, operator] }
  chunk := "press"
  text := ""
  inputs := {}
  debugMap := default
  state := .running

/-- The machine of the press. -/
def shop : Vm where
  machine := { tables := #[], instances := #[press] }

/-- The press is answered for what it made, gets nothing for its operator, and may not tell of what
is no truth value. -/
theorem press_answered : ∃ vm', (connect 0 press.interface.outs).run.run shop = (.ok (), vm') ∧
    (∃ values m', Run.call 2 [] 0 (.builtin .fire)
        (Firing.values ⟨[], .ofText "made", [.boolean true]⟩ 0 0) vm'.machine = .done values m' ∧
      Usual made.returns values) ∧
    (∃ values m', Run.call 2 [] 0 (.builtin .fire)
        (Firing.values ⟨[], .ofText "operator", []⟩ 0 0) vm'.machine = .done values m' ∧
      Usual operator.returns values) ∧
    ∃ e, Run.call 2 [] 0 (.builtin .fire)
      (Firing.values ⟨[], .ofText "made", [.nil]⟩ 0 0) vm'.machine = .failed e vm'.machine := by
  obtain ⟨vm', hrun, hanswered⟩ :=
    connected_firing_answered shop rfl 0 press rfl (by decide) (by decide)
  have hfired (s : Signature) (hs : s ∈ press.interface.outs) (f : Firing)
      (hkey : keyText? f.key = some s.name) :=
    ((hanswered vm'.machine (.start _) s hs f hkey 0).2 2 0).resolve_right fun h =>
      absurd h.1 (by decide)
  have hmade : made ∈ press.interface.outs := by simp [press]
  have hoperator : operator ∈ press.interface.outs := by simp [press]
  refine ⟨vm', hrun, ?_, ?_, ?_⟩
  · generalize hout : Run.call 2 [] 0 (.builtin .fire) _ vm'.machine = out
    cases hout ▸ hfired made hmade ⟨[], .ofText "made", [.boolean true]⟩ rfl with
    | rejected hfault => cases hfault
    | answered _ husual => exact ⟨_, _, rfl, husual⟩
  · generalize hout : Run.call 2 [] 0 (.builtin .fire) _ vm'.machine = out
    cases hout ▸ hfired operator hoperator ⟨[], .ofText "operator", []⟩ rfl with
    | rejected hfault => cases hfault
    | answered _ husual => exact ⟨_, _, rfl, husual⟩
  · generalize hout : Run.call 2 [] 0 (.builtin .fire) _ vm'.machine = out
    cases hout ▸ hfired made hmade ⟨[], .ofText "made", [.nil]⟩ rfl with
    | rejected => exact ⟨_, rfl⟩
    | answered hpassed => cases hpassed

end Command.CallJob

end GraphScript
