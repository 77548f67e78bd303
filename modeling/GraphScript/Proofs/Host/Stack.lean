import GraphScript.Proofs.Host.Operation
import GraphScript.Proofs.Machine.Marshal

/-!
# Proofs/Host/Stack — the stack of a machine is a list

Each operation on the stack is one of lists (`stack_acts_as_list`): a push appends, a read looks, a
pop drops from the end, and a call drops the function with its arguments, however it ends, and
appends its results if it succeeds.  So an operation leaves what lies below the values it takes
(`exists_perform`), and a datum stays where it was pushed until its place is taken off
(`getElem?_after`).
-/

namespace GraphScript.Vm

open Machine (Outcome Run)
open Script (Value)

/-! ## Places -/

/-- There is no place for zero, nor beyond the stack. -/
theorem slot?_eq_none {length : Nat} {index : Int} :
    slot? length index = none ↔ index = 0 ∨ length < index.natAbs := by
  unfold slot?
  grind

/-- A value is found by its number from the bottom and by its number from the top. -/
theorem slot?_eq_some {below above : Nat} {index : Int}
    (h : index = below + 1 ∨ index = -(above + 1)) :
    slot? (below + 1 + above) index = some below := by
  unfold slot?
  grind

/-! ## Reading -/

section Reading

variable {vm : Vm} {index : Int}

theorem read_of_invalid (t : DataType) (h : index = 0 ∨ vm.stack.length < index.natAbs) :
    (read index t).run.run vm = (.error (.invalidIndex index vm.stack.length), vm) := by
  have hvalue : (readValue index).run.run vm =
      (.error (.invalidIndex index vm.stack.length), vm) := by
    have hget : (get : Op Vm).run.run vm = (.ok vm, vm) := rfl
    rw [readValue, Op.run_bind_ok hget]
    simp only [slot?_eq_none.mpr h]
    rfl
  exact Op.run_bind_error hvalue

variable {below above : List Value} {v : Value}

/-- A value is read from its place, counted either way. -/
theorem readValue_eq (hstack : vm.stack = below ++ v :: above)
    (h : index = below.length + 1 ∨ index = -(above.length + 1)) :
    (readValue index).run.run vm = (.ok v, vm) := by
  have hget : (get : Op Vm).run.run vm = (.ok vm, vm) := rfl
  have hlength : vm.stack.length = below.length + 1 + above.length := by
    rw [hstack, List.length_append, List.length_cons]
    omega
  have hvalue : vm.stack.getD below.length .nil = v := by
    rw [hstack, List.getD_append_right _ _ _ _ (Nat.le_refl _), Nat.sub_self, List.getD_cons_zero]
  rw [readValue, Op.run_bind_ok hget]
  simp only [hlength, slot?_eq_some h, hvalue]
  rfl

/-- A value is read as a datum of a type if it is one. -/
theorem read_eq (t : DataType) (hstack : vm.stack = below ++ v :: above)
    (h : index = below.length + 1 ∨ index = -(above.length + 1)) :
    (read index t).run.run vm =
      ((v.toDatum t).mapError (.typeMismatch index (toString t)), vm) := by
  rw [read, Op.run_bind_ok (readValue_eq hstack h)]
  cases v.toDatum t with
  | ok d => rfl
  | error found => rfl

end Reading

/-- A place of a stack splits it into what lies below and above. -/
theorem exists_split {stack : List Value} {slot : Nat} (h : slot < stack.length) :
    ∃ below v above, stack = below ++ v :: above ∧ below.length = slot ∧
      above.length + 1 + slot = stack.length := by
  refine ⟨stack.take slot, stack[slot], stack.drop (slot + 1), ?_, ?_, ?_⟩
  · rw [List.getElem_cons_drop, List.take_append_drop]
  · exact List.length_take_of_le (Nat.le_of_lt h)
  · rw [List.length_drop]
    omega

/-- Every other index than zero and those beyond the stack has a place. -/
theorem exists_place {stack : List Value} {index : Int}
    (h : ¬ (index = 0 ∨ stack.length < index.natAbs)) :
    ∃ below v above, stack = below ++ v :: above ∧
      (index = below.length + 1 ∨ index = -(above.length + 1)) := by
  have hslot : (if 0 < index then index.natAbs - 1 else stack.length - index.natAbs) <
      stack.length := by split <;> omega
  obtain ⟨below, v, above, hstack, hbelow, habove⟩ := exists_split hslot
  rw [← hbelow] at habove
  refine ⟨below, v, above, hstack, ?_⟩
  split at hbelow <;> omega

/-- Whatever is asked for, reading changes nothing. -/
theorem exists_read (vm : Vm) (index : Int) (t : DataType) :
    ∃ answer, (read index t).run.run vm = (answer, vm) := by
  by_cases h : index = 0 ∨ vm.stack.length < index.natAbs
  · exact ⟨_, read_of_invalid t h⟩
  · obtain ⟨below, v, above, hstack, hindex⟩ := exists_place h
    exact ⟨_, read_eq t hstack hindex⟩

/-! ## Taking values off -/

section Taking

variable {vm : Vm}

/-- Not more is taken off than there is. -/
theorem take_of_lt {count : Nat} (h : vm.stack.length < count) :
    (take count).run.run vm = (.error (.stackUnderflow count vm.stack.length), vm) := by
  have hget : (get : Op Vm).run.run vm = (.ok vm, vm) := rfl
  rw [take, Op.run_bind_ok hget]
  simp only [h, if_true]
  rfl

/-- The top of a stack is taken off if there are as many values. -/
theorem take_eq {base top : List Value} (hstack : vm.stack = base ++ top) :
    (take top.length).run.run vm = (.ok top, { vm with stack := base }) := by
  have hget : (get : Op Vm).run.run vm = (.ok vm, vm) := rfl
  have hlength : vm.stack.length = base.length + top.length := by rw [hstack, List.length_append]
  have hle : ¬ base.length + top.length < top.length := by omega
  have htake : vm.stack.take base.length = base := by rw [hstack, List.take_left]
  have hdrop : vm.stack.drop base.length = top := by rw [hstack, List.drop_left]
  rw [take, Op.run_bind_ok hget]
  simp only [hlength, hle, if_false, Nat.add_sub_cancel, htake, hdrop]
  rfl

theorem pop_of_lt {count : Nat} (h : vm.stack.length < count) :
    (pop count).run.run vm = (.error (.stackUnderflow count vm.stack.length), vm) :=
  Op.run_bind_error (take_of_lt h)

theorem pop_eq {base top : List Value} (hstack : vm.stack = base ++ top) :
    (pop top.length).run.run vm = (.ok (), { vm with stack := base }) :=
  Op.run_bind_ok (take_eq hstack)

end Taking

/-! ## Calls -/

/-- What calling a value comes to in a machine that counts its instructions anew. -/
def calling (vm : Vm) (callee : Value) (args : List Value) : Outcome (List Value) :=
  Run.call vm.budget [] 0 callee args
    { vm.machine with meter := { vm.machine.meter with used := 0 } }

section Calling

variable {vm : Vm}

theorem safeCall_of_lt {argCount : Nat} (returnCount : Nat)
    (h : vm.stack.length < argCount + 1) :
    (safeCall argCount returnCount).run.run vm =
      (.error (.stackUnderflow (argCount + 1) vm.stack.length), vm) :=
  Op.run_bind_error (take_of_lt h)

variable {base args : List Value} {callee : Value} (hstack : vm.stack = base ++ callee :: args)
  (returnCount : Nat)

include hstack

/-- What is no function cannot be called, and is taken off. -/
theorem safeCall_of_not_function (hcallee : callee.isFunction = false) :
    (safeCall args.length returnCount).run.run vm =
      (.error (.notCallable callee.hostType), { vm with stack := base }) := by
  have htake : (take (args.length + 1)).run.run vm =
    (.ok (callee :: args), { vm with stack := base }) := take_eq hstack
  rw [safeCall, Op.run_bind_ok htake]
  simp only [List.headD_cons, hcallee, Bool.not_false, if_true]
  rfl

/-- A call of a function goes on in the machine without the function and its arguments. -/
theorem safeCall_eq (hcallee : callee.isFunction = true) :
    (safeCall args.length returnCount).run.run vm =
      (do
        let results ← Vm.run .runtime (Run.call vm.budget [] 0 callee args)
        modify fun vm => { vm with stack := vm.stack ++ Value.fit returnCount results } : Op Unit).run.run
        { vm with
          stack := base
          machine := { vm.machine with meter := { vm.machine.meter with used := 0 } } } := by
  have htake : (take (args.length + 1)).run.run vm =
    (.ok (callee :: args), { vm with stack := base }) := take_eq hstack
  rw [safeCall, Op.run_bind_ok htake]
  simp only [List.headD_cons, hcallee, Bool.not_true, Bool.false_eq_true, if_false]
  rfl

variable (hcallee : callee.isFunction = true) {m : Machine}

include hcallee

/-- A call that is done leaves as many results as asked for. -/
theorem safeCall_of_done {results : List Value} (h : vm.calling callee args = .done results m) :
    (safeCall args.length returnCount).run.run vm =
      (.ok (), { vm with stack := base ++ Value.fit returnCount results, machine := m }) := by
  rw [safeCall_eq hstack returnCount hcallee]
  exact Op.run_bind_ok (run_of_done h)

/-- A call that failed leaves no results. -/
theorem safeCall_of_failed {e : Machine.Failure} (h : vm.calling callee args = .failed e m) :
    (safeCall args.length returnCount).run.run vm =
      (.error (.runtime (vm.failureText e)), { vm with stack := base, machine := m }) := by
  rw [safeCall_eq hstack returnCount hcallee]
  exact Op.run_bind_error (run_of_failed h)

theorem safeCall_of_exhausted (h : vm.calling callee args = .exhausted m) :
    (safeCall args.length returnCount).run.run vm =
      (.error .unfinished, { vm with stack := base, machine := m }) := by
  rw [safeCall_eq hstack returnCount hcallee]
  exact Op.run_bind_error (run_of_exhausted h)

end Calling

/-! ## Actions -/

/-- An operation on the stack. -/
inductive Action where
  | push (d : Datum)
  | pushCallable (c : Callable)
  | loadChunk (name source : String)
  | read (index : Int) (t : DataType)
  | pop (count : Nat)
  | safeCall (argCount returnCount : Nat)

namespace Action

/-- Does it, and drops what it answers. -/
def perform : Action → Op Unit
  | .push d => Vm.push d
  | .pushCallable c => Vm.pushCallable c
  | .loadChunk name source => Vm.loadChunk name source
  | .read index t => do
    let _ ← Vm.read index t
  | .pop count => Vm.pop count
  | .safeCall argCount returnCount => Vm.safeCall argCount returnCount

/-- How many of so many values it leaves where they are, from the bottom on. -/
def kept (length : Nat) : Action → Nat
  | .pop count => if count ≤ length then length - count else length
  | .safeCall argCount _ => if argCount + 1 ≤ length then length - (argCount + 1) else length
  | _ => length

end Action

/-- The machine after some actions. -/
def after : List Action → Vm → Vm
  | [], vm => vm
  | a :: actions, vm => after actions (a.perform.run.run vm).2

/-- None of the actions takes the value in that place off. -/
def Spares (slot : Nat) : List Action → Vm → Prop
  | [], _ => True
  | a :: actions, vm =>
    slot < a.kept vm.stack.length ∧ Spares slot actions (a.perform.run.run vm).2

instance decidableSpares (slot : Nat) :
    ∀ (actions : List Action) (vm : Vm), Decidable (Spares slot actions vm)
  | [], _ => inferInstanceAs (Decidable True)
  | a :: actions, vm =>
    have := decidableSpares slot actions (a.perform.run.run vm).2
    inferInstanceAs (Decidable (slot < a.kept vm.stack.length ∧
      Spares slot actions (a.perform.run.run vm).2))

theorem Action.kept_le (length : Nat) (a : Action) : a.kept length ≤ length := by
  cases a with
  | pop count =>
    simp only [kept]
    split <;> omega
  | safeCall argCount returnCount =>
    simp only [kept]
    split <;> omega
  | push | pushCallable | loadChunk | read => exact Nat.le_refl _

/-- The top so many values of a stack that holds them. -/
theorem exists_top {stack : List Value} {count : Nat} (h : count ≤ stack.length) :
    ∃ top, stack = stack.take (stack.length - count) ++ top ∧ top.length = count := by
  refine ⟨stack.drop (stack.length - count), (List.take_append_drop _ _).symm, ?_⟩
  rw [List.length_drop]
  omega

/-- A call leaves the function and its arguments off the stack, however it ends. -/
theorem exists_safeCall {vm : Vm} {base args : List Value} {callee : Value}
    (hstack : vm.stack = base ++ callee :: args) (returnCount : Nat) :
    ∃ top, ((safeCall args.length returnCount).run.run vm).2.stack = base ++ top := by
  cases hcallee : callee.isFunction with
  | false =>
    rw [safeCall_of_not_function hstack returnCount hcallee]
    exact ⟨[], (List.append_nil _).symm⟩
  | true =>
    cases h : vm.calling callee args with
    | done results m =>
      rw [safeCall_of_done hstack returnCount hcallee h]
      exact ⟨_, rfl⟩
    | failed e m =>
      rw [safeCall_of_failed hstack returnCount hcallee h]
      exact ⟨[], (List.append_nil _).symm⟩
    | exhausted m =>
      rw [safeCall_of_exhausted hstack returnCount hcallee h]
      exact ⟨[], (List.append_nil _).symm⟩

/-- **An action leaves what lies below the values it takes.** -/
theorem exists_perform (a : Action) (vm : Vm) :
    ∃ top, (a.perform.run.run vm).2.stack = vm.stack.take (a.kept vm.stack.length) ++ top := by
  have hwhole : ∀ top, vm.stack ++ top = vm.stack.take vm.stack.length ++ top := fun top => by
    rw [List.take_length]
  cases a with
  | push d => exact ⟨_, hwhole _⟩
  | pushCallable c => exact ⟨_, hwhole _⟩
  | read index t =>
    refine ⟨[], Eq.trans ?_ ((List.append_nil _).symm.trans (hwhole []))⟩
    obtain ⟨answer, hread⟩ := exists_read vm index t
    rw [Action.perform]
    cases answer with
    | ok d =>
      rw [Op.run_bind_ok hread]
      rfl
    | error e => rw [Op.run_bind_error hread]
  | loadChunk name source =>
    refine Op.bind_cases (Q := fun r => ∃ top, r.2.stack =
      vm.stack.take vm.stack.length ++ top) (fun e vm' h => ?_) (fun v vm' h => ?_)
    · have hstack := (Op.runs_evalChunk name source vm).stack_eq
      rw [h] at hstack
      exact ⟨[], hstack.trans ((List.append_nil _).symm.trans (hwhole []))⟩
    · have hstack := (Op.runs_evalChunk name source vm).stack_eq
      rw [h] at hstack
      exact ⟨[v], (congrArg (· ++ [v]) hstack).trans (hwhole [v])⟩
  | pop count =>
    rw [Action.perform, Action.kept]
    by_cases hle : count ≤ vm.stack.length
    · obtain ⟨top, hstack, rfl⟩ := exists_top hle
      rw [pop_eq hstack, if_pos hle]
      exact ⟨[], (List.append_nil _).symm⟩
    · rw [pop_of_lt (Nat.lt_of_not_le hle), if_neg hle]
      exact ⟨[], (List.append_nil _).symm.trans (hwhole [])⟩
  | safeCall argCount returnCount =>
    rw [Action.perform, Action.kept]
    by_cases hle : argCount + 1 ≤ vm.stack.length
    · obtain ⟨top, hstack, hlength⟩ := exists_top hle
      obtain ⟨callee, args, rfl⟩ := List.exists_cons_of_length_eq_add_one hlength
      obtain rfl : args.length = argCount := Nat.succ.inj hlength
      rw [if_pos hle]
      exact exists_safeCall hstack returnCount
    · rw [safeCall_of_lt returnCount (Nat.lt_of_not_le hle), if_neg hle]
      exact ⟨[], (List.append_nil _).symm.trans (hwhole [])⟩

/-- A value stays in its place as long as no action takes it off. -/
theorem getElem?_after {slot : Nat} {actions : List Action} {vm : Vm}
    (h : Spares slot actions vm) : (after actions vm).stack[slot]? = vm.stack[slot]? := by
  induction actions generalizing vm with
  | nil => rfl
  | cons a actions ih =>
    obtain ⟨hkept, hrest⟩ := h
    obtain ⟨top, hstack⟩ := exists_perform a vm
    have hlength := List.length_take_of_le (Action.kept_le vm.stack.length a)
    have hfirst : (a.perform.run.run vm).2.stack[slot]? = vm.stack[slot]? := by
      rw [hstack, List.getElem?_append_left (by rw [hlength]; exact hkept),
        List.getElem?_take_of_lt hkept]
    exact (ih hrest).trans hfirst

/-- The datum in a place is read there by its own type, counted from the bottom and from the top. -/
def ReadsBack (vm : Vm) (slot : Nat) (d : Datum) : Prop :=
  slot < vm.stack.length ∧
    (read (slot + 1) d.dataType).run.run vm = (.ok d, vm) ∧
    (read (slot - vm.stack.length) d.dataType).run.run vm = (.ok d, vm)

/-- What is in a place and has a datum is read back there. -/
theorem readsBack_of_getElem? {vm : Vm} {slot : Nat} {v : Value} {d : Datum}
    (hv : vm.stack[slot]? = some v) (hd : v.toDatum d.dataType = .ok d) : ReadsBack vm slot d := by
  have hslot : slot < vm.stack.length := (List.getElem?_eq_some_iff.mp hv).1
  obtain ⟨below, v', above, hstack, rfl, habove⟩ := exists_split hslot
  obtain rfl : v' = v := by
    rw [hstack, List.getElem?_append_right (Nat.le_refl _), Nat.sub_self] at hv
    exact Option.some.inj hv
  have hread : ∀ {index : Int}, index = below.length + 1 ∨ index = -(above.length + 1) →
      (read index d.dataType).run.run vm = (.ok d, vm) := fun hindex => by
    rw [read_eq d.dataType hstack hindex, hd]
    rfl
  exact ⟨hslot, hread (.inl rfl), hread (.inr (by omega))⟩

/-! ## The laws of the stack -/

/-- What each operation makes of the stack of a machine, as a list. -/
structure ActsAsList (vm : Vm) : Prop where
  /-- A datum is appended, and is read back until its place is taken off. -/
  push (d : Datum) : ∃ v vm', (Vm.push d).run.run vm = (.ok (), vm') ∧
    vm'.stack = vm.stack ++ [v] ∧
    ∀ actions, Spares vm.stack.length actions vm' →
      ReadsBack (after actions vm') vm.stack.length d
  pushCallable (c : Callable) : ∃ vm', (Vm.pushCallable c).run.run vm = (.ok (), vm') ∧
    vm'.stack = vm.stack ++ [c.function]
  /-- A script that was loaded appends one value, one that was not appends none. -/
  loadChunk (name source : String) :
    (∃ v vm', (Vm.loadChunk name source).run.run vm = (.ok (), vm') ∧
      vm'.stack = vm.stack ++ [v]) ∨
    ∃ e vm', (Vm.loadChunk name source).run.run vm = (.error e, vm') ∧ vm'.stack = vm.stack
  read_unchanged (index : Int) (t : DataType) : ∃ answer, (read index t).run.run vm = (answer, vm)
  /-- No place has the index zero or one beyond the stack, and all other indices have one. -/
  read_invalid (index : Int) (t : DataType) :
    (∃ j n, ((read index t).run.run vm).1 = .error (.invalidIndex j n)) ↔
      index = 0 ∨ vm.stack.length < index.natAbs
  /-- A place is counted from the bottom or from the top. -/
  read_valid (i : Nat) (t : DataType) (hpos : 1 ≤ i) (hle : i ≤ vm.stack.length) :
    ∃ v, vm.stack[i - 1]? = some v ∧ ∀ index : Int, index = i ∨ index = i - vm.stack.length - 1 →
      (read index t).run.run vm = ((v.toDatum t).mapError (.typeMismatch index (toString t)), vm)
  pop_underflow (count : Nat) (h : vm.stack.length < count) :
    (pop count).run.run vm = (.error (.stackUnderflow count vm.stack.length), vm)
  pop (base top : List Value) (h : vm.stack = base ++ top) :
    (pop top.length).run.run vm = (.ok (), { vm with stack := base })
  call_underflow (argCount returnCount : Nat) (h : vm.stack.length < argCount + 1) :
    (safeCall argCount returnCount).run.run vm =
      (.error (.stackUnderflow (argCount + 1) vm.stack.length), vm)
  /-- The function and its arguments are taken off if there is no function… -/
  call_not_function (base args : List Value) (callee : Value) (returnCount : Nat)
    (h : vm.stack = base ++ callee :: args) (hcallee : callee.isFunction = false) :
    ∃ vm', (safeCall args.length returnCount).run.run vm =
      (.error (.notCallable callee.hostType), vm') ∧ vm'.stack = base
  /-- …if the call fails, by an error of a script or the breakdown of a host function… -/
  call_failed (base args : List Value) (callee : Value) (returnCount : Nat)
    (h : vm.stack = base ++ callee :: args) (hcallee : callee.isFunction = true)
    (e : Machine.Failure) (m : Machine) (hcall : vm.calling callee args = .failed e m) :
    ∃ vm', (safeCall args.length returnCount).run.run vm =
      (.error (.runtime (vm.failureText e)), vm') ∧ vm'.stack = base
  /-- …or does not finish… -/
  call_exhausted (base args : List Value) (callee : Value) (returnCount : Nat)
    (h : vm.stack = base ++ callee :: args) (hcallee : callee.isFunction = true)
    (m : Machine) (hcall : vm.calling callee args = .exhausted m) :
    ∃ vm', (safeCall args.length returnCount).run.run vm = (.error .unfinished, vm') ∧
      vm'.stack = base
  /-- …and if it succeeds, as many results as asked for are appended, in order. -/
  call_done (base args : List Value) (callee : Value) (returnCount : Nat)
    (h : vm.stack = base ++ callee :: args) (hcallee : callee.isFunction = true)
    (results : List Value) (m : Machine) (hcall : vm.calling callee args = .done results m) :
    ∃ pushed vm', (safeCall args.length returnCount).run.run vm = (.ok (), vm') ∧
      vm'.stack = base ++ pushed ∧ pushed.length = returnCount ∧
      ∀ j < returnCount, pushed[j]? = some (results.getD j .nil)

theorem invalidIndex_iff (vm : Vm) (index : Int) (t : DataType) :
    (∃ j n, ((read index t).run.run vm).1 = .error (.invalidIndex j n)) ↔
      index = 0 ∨ vm.stack.length < index.natAbs := by
  refine ⟨?_, fun h => ⟨index, vm.stack.length, by rw [read_of_invalid t h]⟩⟩
  rintro ⟨j, n, hread⟩
  by_contra h
  obtain ⟨below, v, above, hstack, hindex⟩ := exists_place h
  rw [read_eq t hstack hindex] at hread
  cases hd : v.toDatum t with
  | ok d =>
    rw [hd] at hread
    cases hread
  | error found =>
    rw [hd] at hread
    cases hread

/-- Loading pushes one value, or fails and leaves the stack. -/
theorem loadChunk_cases (vm : Vm) (name source : String) :
    (∃ v vm', (loadChunk name source).run.run vm = (.ok (), vm') ∧
      vm'.stack = vm.stack ++ [v]) ∨
    ∃ e vm', (loadChunk name source).run.run vm = (.error e, vm') ∧ vm'.stack = vm.stack := by
  have hstack := (Op.runs_evalChunk name source vm).stack_eq
  rcases heval : (evalChunk name source).run.run vm with ⟨answer, vm'⟩
  rw [heval] at hstack
  cases answer with
  | ok v =>
    exact .inl ⟨v, _, Op.run_bind_ok heval, congrArg (· ++ [v]) hstack⟩
  | error e => exact .inr ⟨e, vm', Op.run_bind_error heval, hstack⟩

/-- **The stack of a machine acts as a list**, whatever operations came before. -/
theorem stack_acts_as_list (vm : Vm) : ActsAsList vm where
  push d := by
    refine ⟨.ofDatum vm.machine.nextHost d, _, rfl, rfl, fun actions hspares => ?_⟩
    refine readsBack_of_getElem? ((getElem?_after hspares).trans ?_)
      (Value.toDatum_ofDatum vm.machine.nextHost d)
    exact List.getElem?_concat_length
  pushCallable c := ⟨_, rfl, rfl⟩
  loadChunk := loadChunk_cases vm
  read_unchanged := exists_read vm
  read_invalid := invalidIndex_iff vm
  read_valid i t hpos hle := by
    obtain ⟨below, v, above, hstack, hbelow, habove⟩ :=
      exists_split (show i - 1 < vm.stack.length by omega)
    refine ⟨v, ?_, fun index hindex => read_eq t hstack (by omega)⟩
    rw [hstack, ← hbelow, List.getElem?_append_right (Nat.le_refl _), Nat.sub_self,
      List.getElem?_cons_zero]
  pop_underflow _ h := pop_of_lt h
  pop _ _ h := pop_eq h
  call_underflow _ returnCount h := safeCall_of_lt returnCount h
  call_not_function _ _ _ returnCount h hcallee :=
    ⟨_, safeCall_of_not_function h returnCount hcallee, rfl⟩
  call_failed _ _ _ returnCount h hcallee _ _ hcall :=
    ⟨_, safeCall_of_failed h returnCount hcallee hcall, rfl⟩
  call_exhausted _ _ _ returnCount h hcallee _ hcall :=
    ⟨_, safeCall_of_exhausted h returnCount hcallee hcall, rfl⟩
  call_done _ _ _ returnCount h hcallee results _ hcall :=
    ⟨_, _, safeCall_of_done h returnCount hcallee hcall, rfl, Value.length_fit returnCount results,
      fun _ => Value.getElem?_fit results⟩

/-- A number keeps its place below a call that gives one result where two are asked for, below a
read of no place and below a pop of more values than there are. -/
theorem fresh_stack_acts_as_list : ∃ vm', (push (.number 1.5)).run.run (Vm.new 1) = (.ok (), vm') ∧
    ReadsBack (after [.push (.string "lamp"), .pushCallable ⟨.builtin .type⟩, .push (.boolean true),
      .safeCall 1 2, .read 0 .number, .pop 9, .pop 2] vm') 0 (.number 1.5) := by
  obtain ⟨v, vm', hpush, -, hback⟩ := (stack_acts_as_list (Vm.new 1)).push (.number 1.5)
  obtain rfl := congrArg Prod.snd hpush
  refine ⟨_, hpush, hback _ ?_⟩
  decide

end GraphScript.Vm
