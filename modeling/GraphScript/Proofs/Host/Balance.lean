import GraphScript.Proofs.Host.Stack

/-!
# Proofs/Host/Balance — activation and entry calls leave the stack alone

Activation and the call of an entry push a function with its arguments, call it and take its results
off again, so the host finds the stack as it was, however they end (`activation`, `called`).  An
entry is called with arguments of the declared types only, and what it answers has the declared
types (`host_calls_balanced`).
-/

namespace GraphScript

open Machine (Run)
open Script (Value)

/-- The stack is as it was, and the machine has changed as a script can change it. -/
structure Vm.Balanced (vm vm' : Vm) : Prop where
  stack_eq : vm'.stack = vm.stack
  evolves : vm.machine.Evolves vm'.machine

theorem Vm.Balanced.trans {vm₁ vm₂ vm₃ : Vm} (h : Balanced vm₁ vm₂) (h' : Balanced vm₂ vm₃) :
    Balanced vm₁ vm₃ :=
  ⟨h'.stack_eq.trans h.stack_eq, h.evolves.trans h'.evolves⟩

theorem Vm.Ran.balanced {vm vm' : Vm} (h : Ran vm vm') : Balanced vm vm' := by
  obtain ⟨m, hm, rfl⟩ := h
  exact ⟨rfl, hm⟩

theorem Vm.balanced_activate (vm : Vm) : Balanced vm vm.activate.2 := by
  unfold Vm.activate
  split
  · exact (Ran.refl vm).balanced
  · exact ⟨rfl, .memory rfl rfl rfl⟩

/-- A call makes of the machine what a script can. -/
theorem Vm.evolves_calling (vm : Vm) (callee : Value) (args : List Value) :
    vm.machine.Evolves (vm.calling callee args).machine := by
  have hreset : vm.machine.Evolves
      { vm.machine with meter := { vm.machine.meter with used := 0 } } := .memory rfl rfl rfl
  exact hreset.trans ((Run.evolvingAt vm.budget).call [] 0 callee args _)

namespace Instance

variable {vm vm' : Vm}

/-! ## Calls on behalf of an instance -/

/-- A call that fails, fails for the instance too, perhaps with more to say. -/
theorem annotatedCall_of_error {argCount returnCount : Nat} {e : HostError} (i : Instance)
    (h : (Vm.safeCall argCount returnCount).run.run vm = (.error e, vm')) :
    ∃ e', (annotatedCall i argCount returnCount).run.run vm = (.error e', vm') := by
  rw [annotatedCall, Op.run_tryCatch_error h]
  cases e with
  | runtime message => exact ⟨_, rfl⟩
  | _ => exact ⟨_, rfl⟩

/-- A call takes the function and its arguments off; the results of one that succeeds take their
place. -/
theorem annotatedCall_cases {base args : List Value} {callee : Value} (i : Instance)
    (hstack : vm.stack = base ++ callee :: args) (returnCount : Nat) :
    (∃ e m, (annotatedCall i args.length returnCount).run.run vm =
      (.error e, { vm with stack := base, machine := m }) ∧ vm.machine.Evolves m) ∨
    ∃ returned m, (annotatedCall i args.length returnCount).run.run vm =
        (.ok (), { vm with stack := base ++ Value.fit returnCount returned, machine := m }) ∧
      callee.isFunction = true ∧ vm.calling callee args = .done returned m ∧
      vm.machine.Evolves m := by
  cases hcallee : callee.isFunction with
  | false =>
    obtain ⟨e, he⟩ := annotatedCall_of_error i
      (Vm.safeCall_of_not_function hstack returnCount hcallee)
    exact .inl ⟨e, vm.machine, he, .refl _⟩
  | true =>
    have hevolves := vm.evolves_calling callee args
    cases h : vm.calling callee args with
    | done returned m =>
      rw [h] at hevolves
      exact .inr ⟨returned, m,
        Op.run_tryCatch_ok (Vm.safeCall_of_done hstack returnCount hcallee h), rfl, rfl, hevolves⟩
    | failed f m =>
      rw [h] at hevolves
      obtain ⟨e, he⟩ := annotatedCall_of_error i
        (Vm.safeCall_of_failed hstack returnCount hcallee h)
      exact .inl ⟨e, m, he, hevolves⟩
    | exhausted m =>
      rw [h] at hevolves
      obtain ⟨e, he⟩ := annotatedCall_of_error i
        (Vm.safeCall_of_exhausted hstack returnCount hcallee h)
      exact .inl ⟨e, m, he, hevolves⟩

/-! ## Activation -/

/-- A machine with an instance changed. -/
def changed (number : Nat) (f : Instance → Instance) (vm : Vm) : Vm :=
  { vm with machine := vm.machine.changeInstance number f }

/-- An instance whose script gave a class table. -/
def loaded (classTable : Value) (i : Instance) : Instance :=
  { i with classTable := some classTable, state := .activated }

/-- An instance whose constructor gave an object. -/
def constructed (object : Value) (i : Instance) : Instance :=
  { i with object := some object, state := .running }

/-- What follows in an activation once the constructor lies on the stack with its arguments. -/
def construct (number : Nat) (i : Instance) : Op Unit := do
  annotatedCall i 2 1
  let object ← Vm.readValue (-1)
  Vm.pop 1
  if !isTable object then throw (.load i.chunk s!"constructor returned {object.hostType}")
  change number (constructed object)

/-- A machine with a constructor and its arguments on the stack. -/
def supplied (number : Nat) (i : Instance) (nodeables : List ObjectRef) (constructor : Value)
    (vm : Vm) : Vm :=
  let (t, machine) := i.inputsTable nodeables vm.machine
  let inputs : Value := .table machine.tables.size
  let (state, machine) := { machine with tables := machine.tables.push t }.embedState number
  { vm with machine, stack := vm.stack ++ [constructor] ++ [state] ++ [inputs] }

/-- An activation that is accepted loads, supplies and constructs. -/
theorem activate_eq {number : Nat} {i : Instance} {nodeables : List ObjectRef}
    (hi : get? vm number = some i) (hs : i.state = .uninitialized) (h : i.Accepts nodeables) :
    (activate number nodeables).run.run vm = (do
      let classTable ← Vm.evalChunk i.chunk i.text
      if !isTable classTable then
        throw (.load i.chunk s!"chunk returned {classTable.hostType}, not a class table")
      let constructor ← entryOf classTable "new"
      modify fun vm =>
        supplied number i nodeables constructor (changed number (loaded classTable) vm)
      construct number i : Op Unit).run.run vm.activate.2 := by
  have hrequire := run_require "activate" [.uninitialized] hi
  rw [if_pos (by rw [hs]; decide)] at hrequire
  rw [activate, Op.run_bind_ok hrequire]
  simp only [h.1, h.2, ne_eq, not_true, if_false]
  rfl

/-- Entering variables changes no instance. -/
theorem evolves_enter {α : Type} {embed : Machine → α → Value × Machine}
    (hembed : ∀ (m : Machine) (a : α), m.Evolves (embed m a).2) (m : Machine) (t : Script.Table)
    (entries : List (VariableId × α)) : m.Evolves (enter embed m t entries).2 := by
  induction entries generalizing m t with
  | nil => exact .refl m
  | cons e rest ih => exact (hembed m e.2).trans (ih _ _)

theorem evolves_embedStatic (m : Machine) (s : StaticValue) : m.Evolves (m.embedStatic s).2 := by
  cases s with
  | number | text | numberList | textList | lookup => exact .memory rfl rfl rfl

/-- Making the table of inputs changes no instance. -/
theorem evolves_inputsTable (i : Instance) (nodeables : List ObjectRef) (m : Machine) :
    m.Evolves (i.inputsTable nodeables m).2 :=
  (evolves_enter (fun _ _ => .memory rfl rfl rfl) _ _ _).trans
    (evolves_enter evolves_embedStatic _ _ _)

/-- The constructor is called with two arguments. -/
theorem stack_supplied (number : Nat) (i : Instance) (nodeables : List ObjectRef)
    (constructor : Value) (vm : Vm) : ∃ args, args.length = 2 ∧
      (supplied number i nodeables constructor vm).stack = vm.stack ++ constructor :: args := by
  simp only [supplied, List.append_assoc]
  exact ⟨[_, _], rfl, rfl⟩

theorem evolves_supplied (number : Nat) (i : Instance) (nodeables : List ObjectRef)
    (constructor : Value) (vm : Vm) :
    vm.machine.Evolves (supplied number i nodeables constructor vm).machine :=
  (evolves_inputsTable i nodeables vm.machine).trans (.memory rfl rfl rfl)

/-- The constructor runs and is taken off the stack; with an object the instance starts to run. -/
theorem construct_cases {base args : List Value} {constructor : Value} (number : Nat) (i : Instance)
    (hstack : vm.stack = base ++ constructor :: args) (hargs : args.length = 2) :
    ∃ m, vm.machine.Evolves m ∧
      ((∃ e, (construct number i).run.run vm =
          (.error e, { vm with stack := base, machine := m })) ∨
        ∃ object, (construct number i).run.run vm =
          (.ok (), changed number (constructed object)
            { vm with stack := base, machine := m })) := by
  obtain ⟨e, m, hcall, hm⟩ | ⟨returned, m, hcall, -, -, hm⟩ := annotatedCall_cases i hstack 1
  · rw [hargs] at hcall
    exact ⟨m, hm, .inl ⟨e, Op.run_bind_error hcall⟩⟩
  · rw [hargs] at hcall
    obtain ⟨object, hfit⟩ := List.length_eq_one_iff.mp (Value.length_fit 1 returned)
    rw [hfit] at hcall
    have hobject : ({ vm with stack := base ++ [object], machine := m } : Vm).stack =
      base ++ [object] := rfl
    have hread : (Vm.readValue (-1)).run.run _ = (.ok object, _) :=
      Vm.readValue_eq hobject (.inr rfl)
    have hpop : (Vm.pop 1).run.run _ = (.ok (), _) := Vm.pop_eq hobject
    rw [construct, Op.run_bind_ok hcall, Op.run_bind_ok hread, Op.run_bind_ok hpop]
    refine ⟨m, hm, ?_⟩
    split
    · exact .inl ⟨_, rfl⟩
    · exact .inr ⟨object, rfl⟩

/-- How an activation can end. -/
inductive Activation (vm : Vm) (number : Nat) : Except HostError Unit × Vm → Prop where
  /-- It was refused, or the script was not loaded. -/
  | refused {e : HostError} {vm' : Vm} (h : vm.Balanced vm') : Activation vm number (.error e, vm')
  /-- The script was loaded, but there was no object. -/
  | stopped {i : Instance} {classTable : Value} {e : HostError} {vm₁ vm₂ : Vm}
    (hi : get? vm number = some i) (hs : i.state = .uninitialized) (h₁ : vm.Balanced vm₁)
    (h₂ : (changed number (loaded classTable) vm₁).Balanced vm₂) :
    Activation vm number (.error e, vm₂)
  | completed {i : Instance} {classTable object : Value} {vm₁ vm₂ : Vm}
    (hi : get? vm number = some i) (hs : i.state = .uninitialized) (h₁ : vm.Balanced vm₁)
    (h₂ : (changed number (loaded classTable) vm₁).Balanced vm₂) :
    Activation vm number (.ok (), changed number (constructed object) vm₂)

/-- An activation that is not refused ends in one of these ways. -/
theorem activation_of_accepts {number : Nat} {i : Instance} {nodeables : List ObjectRef}
    (hi : get? vm number = some i) (hs : i.state = .uninitialized) (h : i.Accepts nodeables) :
    Activation vm number ((activate number nodeables).run.run vm) := by
  rw [activate_eq hi hs h]
  have hoffered := vm.balanced_activate
  refine Op.bind_cases (fun e vm₁ heval => ?_) (fun classTable vm₁ heval => ?_)
  · exact .refused (hoffered.trans ((Op.runs_evalChunk _ _).ran heval).balanced)
  have hevaluated := hoffered.trans ((Op.runs_evalChunk _ _).ran heval).balanced
  split
  · exact .refused hevaluated
  refine Op.bind_cases (fun e vm₂ hentry => ?_) (fun constructor vm₂ hentry => ?_)
  · exact .refused (hevaluated.trans ((Op.runs_entryOf _ _).ran hentry).balanced)
  have hfound := hevaluated.trans ((Op.runs_entryOf _ _).ran hentry).balanced
  obtain ⟨args, hargs, hstack⟩ := stack_supplied number i nodeables constructor
    (changed number (loaded classTable) vm₂)
  have hsupplied := evolves_supplied number i nodeables constructor
    (changed number (loaded classTable) vm₂)
  obtain ⟨m, hm, ⟨e, hstopped⟩ | ⟨object, hcompleted⟩⟩ := construct_cases number i hstack hargs
  · refine Eq.subst (motive := Activation vm number) hstopped.symm ?_
    exact .stopped hi hs hfound ⟨rfl, hsupplied.trans hm⟩
  · refine Eq.subst (motive := Activation vm number) hcompleted.symm ?_
    exact .completed hi hs hfound ⟨rfl, hsupplied.trans hm⟩

/-- **Every activation ends in one of these ways.** -/
theorem activation (vm : Vm) (number : Nat) (nodeables : List ObjectRef) :
    Activation vm number ((activate number nodeables).run.run vm) := by
  have hunchanged := (Vm.Ran.refl vm).balanced
  obtain ⟨s, hrequire⟩ | ⟨i, hi, hs, -⟩ :=
    run_require_cases vm number "activate" [.uninitialized]
  · rw [activate, Op.run_bind_error hrequire]
    exact .refused hunchanged
  · by_cases haccepts : i.Accepts nodeables
    · exact activation_of_accepts hi (List.mem_singleton.mp hs) haccepts
    · obtain ⟨e, hrefused⟩ := activate_refused hi haccepts
      rw [hrefused]
      exact .refused hunchanged

/-- **An activation leaves the stack as it was.** -/
theorem Activation.stack_eq {number : Nat} {r : Except HostError Unit × Vm}
    (h : Activation vm number r) : r.2.stack = vm.stack := by
  cases h with
  | refused h => exact h.stack_eq
  | stopped _ _ h₁ h₂ => exact h₂.stack_eq.trans h₁.stack_eq
  | completed _ _ h₁ h₂ => exact h₂.stack_eq.trans h₁.stack_eq

/-! ## Entry calls -/

theorem run_forM_push (vm : Vm) (ds : List Datum) : (ds.forM Vm.push).run.run vm =
    (.ok (), { vm with
      stack := vm.stack ++ (vm.machine.embedAll ds).1
      machine := (vm.machine.embedAll ds).2 }) := by
  induction ds generalizing vm with
  | nil =>
    simp only [Machine.embedAll, List.append_nil]
    rfl
  | cons d ds ih =>
    have hpush : (Vm.push d).run.run vm = (.ok (), { vm with
      stack := vm.stack ++ [(vm.machine.embed d).1]
      machine := (vm.machine.embed d).2 }) := rfl
    refine (Op.run_bind_ok hpush).trans ((ih _).trans ?_)
    simp only [Machine.embedAll, List.append_assoc, List.singleton_append]

/-- One datum for each parameter, of the declared type. -/
def Typed : List Param → List Datum → Prop :=
  List.Forall₂ fun p d => d.isA p.dataType = true

/-- Arguments without a fault have their types. -/
theorem typed_of_argFault? {number : Nat} {params : List Param} {args : List Datum}
    (hlength : args.length = params.length) (h : argFault? number params args = none) :
    Typed params args := by
  induction params generalizing number args with
  | nil =>
    rw [List.eq_nil_of_length_eq_zero hlength]
    exact .nil
  | cons p params ih =>
    obtain ⟨d, args, rfl⟩ := List.exists_cons_of_length_eq_add_one hlength
    rw [argFault?] at h
    split at h
    · rename_i hisA
      exact .cons hisA (ih (Nat.succ.inj hlength) h)
    · cases h

/-- Results are the data of the topmost values, each by its declared type. -/
theorem readResults_cases {base values : List Value} {returns : List Param}
    (hstack : vm.stack = base ++ values) (hlength : values.length = returns.length) :
    ∃ answer, (readResults returns).run.run vm = (answer, vm) ∧ ∀ results, answer = .ok results →
      List.zipWith (fun p v => v.toDatum p.dataType) returns values = results.map .ok := by
  induction returns generalizing base values with
  | nil =>
    refine ⟨.ok [], rfl, fun results h => ?_⟩
    obtain rfl := Except.ok.inj h
    rfl
  | cons p returns ih =>
    obtain ⟨v, values, rfl⟩ := List.exists_cons_of_length_eq_add_one hlength
    have hindex : (-(returns.length + 1 : Nat) : Int) = -(values.length + 1) := by
      rw [Nat.succ.inj hlength]
      rfl
    have hread := Vm.read_eq p.dataType hstack (.inr hindex)
    have habove : vm.stack = (base ++ [v]) ++ values := by
      rw [hstack, List.append_assoc]
      rfl
    obtain ⟨answer, hrest, hanswer⟩ := ih habove (Nat.succ.inj hlength)
    cases hd : v.toDatum p.dataType with
    | error found =>
      rw [hd] at hread
      exact ⟨_, Op.run_bind_error hread, fun _ h => by cases h⟩
    | ok d =>
      rw [hd] at hread
      cases answer with
      | error e =>
        refine ⟨.error e, ?_, fun _ h => by cases h⟩
        rw [readResults, Op.run_bind_ok hread, Op.run_bind_error hrest]
      | ok ds =>
        refine ⟨.ok (d :: ds), ?_, fun results h => ?_⟩
        · rw [readResults, Op.run_bind_ok hread, Op.run_bind_ok hrest]
          rfl
        · obtain rfl := Except.ok.inj h
          rw [List.zipWith_cons_cons, hd, hanswer ds rfl, List.map_cons]

/-- Calls what lies below the arguments, and takes its results off. -/
def collect (i : Instance) (argCount : Nat) (returns : List Param) : Op (List Datum) := do
  annotatedCall i argCount returns.length
  let results ← observing (readResults returns)
  Vm.pop returns.length
  match results with
  | .ok ds => return ds
  | .error e => throw e

/-- The data of what was returned, each by its declared type. -/
def Collected (returns : List Param) (returned : List Value) (results : List Datum) : Prop :=
  List.zipWith (fun p v => v.toDatum p.dataType) returns (Value.fit returns.length returned) =
    results.map .ok

/-- A call on behalf of an instance takes off what it was given, and its results if there are any.
-/
theorem collect_cases {base args : List Value} {callee : Value} {argCount : Nat} (i : Instance)
    (returns : List Param) (hstack : vm.stack = base ++ callee :: args)
    (hargs : args.length = argCount) :
    ∃ m, vm.machine.Evolves m ∧
      ((∃ e, (collect i argCount returns).run.run vm =
          (.error e, { vm with stack := base, machine := m })) ∨
        ∃ results returned, (collect i argCount returns).run.run vm =
            (.ok results, { vm with stack := base, machine := m }) ∧
          vm.calling callee args = .done returned m ∧ Collected returns returned results) := by
  subst hargs
  obtain ⟨e, m, hcall, hm⟩ | ⟨returned, m, hcall, -, hdone, hm⟩ :=
    annotatedCall_cases i hstack returns.length
  · exact ⟨m, hm, .inl ⟨e, Op.run_bind_error hcall⟩⟩
  have hfit := Value.length_fit returns.length returned
  have hfitted : ({ vm with
      stack := base ++ Value.fit returns.length returned
      machine := m } : Vm).stack = base ++ Value.fit returns.length returned := rfl
  obtain ⟨answer, hread, hanswer⟩ := readResults_cases hfitted hfit
  have hpop := Vm.pop_eq hfitted
  rw [hfit] at hpop
  rw [collect, Op.run_bind_ok hcall, Op.run_bind_ok (Op.run_observing hread), Op.run_bind_ok hpop]
  cases answer with
  | error e => exact ⟨m, hm, .inl ⟨e, rfl⟩⟩
  | ok results => exact ⟨m, hm, .inr ⟨results, returned, rfl, hdone, hanswer results rfl⟩⟩

/-- What follows in the call of an entry once the call is allowed. -/
def enterCall (i : Instance) (signature : Signature) (classTable object : Value) (name : String)
    (args : List Datum) : Op (List Datum) := do
  Vm.pushValue (← entryOf classTable name)
  Vm.pushValue object
  args.forM Vm.push
  collect i (args.length + 1) signature.returns

/-- What has to hold for an entry to be called. -/
structure Allowed (vm : Vm) (number : Nat) (name : String) (args : List Datum) (i : Instance)
    (signature : Signature) (classTable object : Value) : Prop where
  instance_eq : get? vm number = some i
  running : i.state = .running
  declared : i.interface.findIn? name = some signature
  typed : Typed signature.params args
  classTable_eq : i.classTable = some classTable
  object_eq : i.object = some object

/-- An entry is called if that is allowed; else the call is refused and changes nothing. -/
theorem callIn_cases (vm : Vm) (number : Nat) (name : String) (args : List Datum) :
    (∃ e, (callIn number name args).run.run vm = (.error e, vm)) ∨
    ∃ i signature classTable object, Allowed vm number name args i signature classTable object ∧
      (callIn number name args).run.run vm =
        (enterCall i signature classTable object name args).run.run vm := by
  obtain ⟨s, hrequire⟩ | ⟨i, hi, hs, hrequire⟩ :=
    run_require_cases vm number "call an In function" [.running]
  · exact .inl ⟨_, Op.run_bind_error hrequire⟩
  rw [callIn, Op.run_bind_ok hrequire]
  cases hsignature : i.interface.findIn? name with
  | none => exact .inl ⟨_, rfl⟩
  | some signature =>
    by_cases hlength : args.length = signature.params.length
    · have hcount : ¬ args.length ≠ signature.params.length := not_not.mpr hlength
      cases hfault : argFault? 1 signature.params args with
      | some e =>
        refine .inl ⟨e, ?_⟩
        simp only [hcount, hfault, if_false]
        rfl
      | none =>
        simp only [hcount, hfault, if_false]
        cases hclass : i.classTable with
        | none => exact .inl ⟨_, rfl⟩
        | some classTable =>
          cases hobject : i.object with
          | none => exact .inl ⟨_, rfl⟩
          | some object =>
            exact .inr ⟨i, signature, classTable, object, ⟨hi, List.mem_singleton.mp hs, hsignature,
              typed_of_argFault? hlength hfault, hclass, hobject⟩, rfl⟩
    · refine .inl ⟨.argumentCount name signature.params.length args.length, ?_⟩
      simp only [hlength, ne_eq, not_false_iff, if_true]
      rfl

theorem length_embedAll (m : Machine) (ds : List Datum) : (m.embedAll ds).1.length = ds.length := by
  induction ds generalizing m with
  | nil => rfl
  | cons d ds ih => exact congrArg (· + 1) (ih _)

/-- An entry was found and called with the object and the arguments, and the results are the data of
what it returned. -/
def Answers (vm : Vm) (signature : Signature) (classTable object : Value) (name : String)
    (args results : List Datum) (vm' : Vm) : Prop :=
  ∃ entry vm₁ returned, (entryOf classTable name).run.run vm = (.ok entry, vm₁) ∧
    { vm₁ with machine := (vm₁.machine.embedAll args).2 }.calling entry
      (object :: (vm₁.machine.embedAll args).1) = .done returned vm'.machine ∧
    Collected signature.returns returned results

/-- The entry and its arguments are taken off the stack, and so are its results. -/
theorem enterCall_cases (vm : Vm) (i : Instance) (signature : Signature) (classTable object : Value)
    (name : String) (args : List Datum) :
    ∃ vm', Vm.Ran vm vm' ∧
      ((∃ e, (enterCall i signature classTable object name args).run.run vm = (.error e, vm')) ∨
        ∃ results, (enterCall i signature classTable object name args).run.run vm =
            (.ok results, vm') ∧
          Answers vm signature classTable object name args results vm') := by
  rcases hentry : (entryOf classTable name).run.run vm with ⟨answer, vm₁⟩
  have hran := (Op.runs_entryOf classTable name).ran hentry
  cases answer with
  | error e => exact ⟨vm₁, hran, .inl ⟨e, Op.run_bind_error hentry⟩⟩
  | ok entry =>
    obtain ⟨m, hm, rfl⟩ := hran
    have hembedded : vm.machine.Evolves (m.embedAll args).2 :=
      hm.trans (Machine.Dispatch.evolves_embedAll m args)
    have henter : (enterCall i signature classTable object name args).run.run vm =
        (collect i (args.length + 1) signature.returns).run.run { vm with
          machine := (m.embedAll args).2
          stack := vm.stack ++ [entry] ++ [object] ++ (m.embedAll args).1 } :=
      (Op.run_bind_ok hentry).trans (Op.run_bind_ok (run_forM_push
        { vm with machine := m, stack := vm.stack ++ [entry] ++ [object] } args))
    have hstack : ({ vm with
        machine := (m.embedAll args).2
        stack := vm.stack ++ [entry] ++ [object] ++ (m.embedAll args).1 } : Vm).stack =
        vm.stack ++ entry :: object :: (m.embedAll args).1 := by
      simp only [List.append_assoc]
      rfl
    obtain ⟨m', hm', ⟨e, he⟩ | ⟨results, returned, hresults, hcall, hcollected⟩⟩ := collect_cases i
      signature.returns hstack (congrArg (· + 1) (length_embedAll m args))
    · exact ⟨_, ⟨m', hembedded.trans hm', rfl⟩, .inl ⟨e, henter.trans he⟩⟩
    · exact ⟨_, ⟨m', hembedded.trans hm', rfl⟩, .inr ⟨results, henter.trans hresults,
        entry, _, returned, hentry, hcall, hcollected⟩⟩

/-- The call of an entry only runs scripts; what it answers is what the entry returned. -/
theorem callIn_spec (vm : Vm) (number : Nat) (name : String) (args : List Datum) :
    ∃ vm', Vm.Ran vm vm' ∧
      ((∃ e, (callIn number name args).run.run vm = (.error e, vm')) ∨
        ∃ results i signature classTable object,
          (callIn number name args).run.run vm = (.ok results, vm') ∧
          Allowed vm number name args i signature classTable object ∧
          Answers vm signature classTable object name args results vm') := by
  obtain ⟨e, hrefused⟩ | ⟨i, signature, classTable, object, hallowed, hcall⟩ :=
    callIn_cases vm number name args
  · exact ⟨vm, .refl vm, .inl ⟨e, hrefused⟩⟩
  · obtain ⟨vm', hran, ⟨e, he⟩ | ⟨results, hresults, hanswers⟩⟩ :=
      enterCall_cases vm i signature classTable object name args
    · exact ⟨vm', hran, .inl ⟨e, hcall.trans he⟩⟩
    · exact ⟨vm', hran, .inr ⟨results, i, signature, classTable, object, hcall.trans hresults,
        hallowed, hanswers⟩⟩

/-- **Entry calls run scripts and leave the stack.** -/
theorem runs_callIn (number : Nat) (name : String) (args : List Datum) :
    Op.Runs (callIn number name args) := by
  intro vm
  obtain ⟨vm', hran, ⟨e, hcall⟩ | ⟨results, i, signature, classTable, object, hcall, -, -⟩⟩ :=
    callIn_spec vm number name args
  · rw [hcall]
    exact hran
  · rw [hcall]
    exact hran

/-- Results that were read have their types. -/
theorem typed_of_zipWith {params : List Param} {values : List Value} {ds : List Datum}
    (hlength : values.length = params.length)
    (h : List.zipWith (fun p v => v.toDatum p.dataType) params values = ds.map .ok) :
    Typed params ds := by
  induction params generalizing values ds with
  | nil =>
    rw [List.zipWith_nil_left] at h
    rw [List.map_eq_nil_iff.mp h.symm]
    exact .nil
  | cons p params ih =>
    obtain ⟨v, values, rfl⟩ := List.exists_cons_of_length_eq_add_one hlength
    rw [List.zipWith_cons_cons] at h
    obtain ⟨d, ds, rfl, hd, hds⟩ := List.map_eq_cons_iff.mp h.symm
    exact .cons (Value.isA_of_toDatum hd.symm) (ih (Nat.succ.inj hlength) hds.symm)

/-- What an entry answers has the declared types. -/
theorem Answers.typed {signature : Signature} {classTable object : Value} {name : String}
    {args results : List Datum}
    (h : Answers vm signature classTable object name args results vm') :
    Typed signature.returns results := by
  obtain ⟨_, _, returned, -, -, hcollected⟩ := h
  exact typed_of_zipWith (Value.length_fit _ _) hcollected

/-- **Activation and the call of an entry leave the stack as it was**, however they end.  An answer
of an entry has one datum of the declared type for each declared result, the one that the entry
returned there, and is given only to arguments of the declared types. -/
theorem host_calls_balanced (vm : Vm) (number : Nat) :
    (∀ nodeables, ((activate number nodeables).run.run vm).2.stack = vm.stack) ∧
    ∀ name args, ((callIn number name args).run.run vm).2.stack = vm.stack ∧
      ∀ results vm', (callIn number name args).run.run vm = (.ok results, vm') →
        ∃ i signature classTable object,
          Allowed vm number name args i signature classTable object ∧
          Answers vm signature classTable object name args results vm' ∧
          Typed signature.returns results := by
  refine ⟨fun nodeables => (activation vm number nodeables).stack_eq, fun name args =>
    ⟨(runs_callIn number name args vm).stack_eq, fun results vm' h => ?_⟩⟩
  obtain ⟨vm₁, -, ⟨e, hcall⟩ | ⟨ds, i, signature, classTable, object, hcall, hallowed, hanswers⟩⟩ :=
    callIn_spec vm number name args
  · rw [hcall] at h
    cases h
  · rw [hcall] at h
    cases h
    exact ⟨i, signature, classTable, object, hallowed, hanswers, hanswers.typed⟩

/-- A machine with a value on the stack and a running instance, whose class table is that of the
globals. -/
def probed : Vm where
  machine := { Machine.fresh 1 with instances := #[{
    owner := ⟨0⟩
    interface := { name := "Probe", ins := [⟨"type", [⟨"x", .number⟩], [⟨"name", .string⟩]⟩] }
    chunk := "probe"
    text := ""
    inputs := {}
    debugMap := {}
    state := .running
    classTable := some (.table 0)
    object := some (.table 1) }] }
  stack := [.boolean true]

/-- The type of the object is answered, and the value on the stack stays. -/
theorem probed_host_calls_balanced :
    ((callIn 0 "type" [.number 1.5]).run.run probed).1 = .ok [.string "table"] ∧
    ((callIn 0 "type" [.number 1.5]).run.run probed).2.stack = [.boolean true] ∧
    ∃ i signature classTable object,
      Allowed probed 0 "type" [.number 1.5] i signature classTable object ∧
      Typed signature.returns [.string "table"] := by
  obtain ⟨hstack, hanswer⟩ := (host_calls_balanced probed 0).2 "type" [.number 1.5]
  have hcall : (callIn 0 "type" [.number 1.5]).run.run probed =
    (.ok [.string "table"], ((callIn 0 "type" [.number 1.5]).run.run probed).2) := by rfl
  obtain ⟨i, signature, classTable, object, hallowed, -, htyped⟩ := hanswer _ _ hcall
  exact ⟨congrArg Prod.fst hcall, hstack, i, signature, classTable, object, hallowed, htyped⟩

end Instance

end GraphScript
