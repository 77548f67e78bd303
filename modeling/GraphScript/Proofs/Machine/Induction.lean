import GraphScript.Machine.Run

/-!
# Proofs/Machine/Induction — what all that scripts do has in common

Whatever a script does is put together from few kinds of steps: it fails, it works on its memory, it
counts an instruction, it logs a line or it fires an out-event.  A property of runs that such steps
have and that goes through from one step to the next is `Closed`, and everything that scripts are
made of has it, with any fuel (`Closed.holdsAt`).
-/

namespace GraphScript

namespace Machine

open Script

/-- Reads and writes memory only: the instances, the functions of the host and the build stay as
they are, and the meter is neither read nor changed. -/
structure Quiet {α : Type} (f : Machine → α × Machine) : Prop where
  instances (m : Machine) : (f m).2.instances = m.instances
  callables (m : Machine) : (f m).2.callables = m.callables
  build (m : Machine) : (f m).2.build = m.build
  meter (m : Machine) (t : Meter) : f { m with meter := t } = ((f m).1, { (f m).2 with meter := t })

namespace Run

/-- A step that always succeeds. -/
def step {α : Type} (f : Machine → α × Machine) : Run α := fun m => .done (f m).1 (f m).2

theorem quiet_embedAll (ds : List Datum) : Quiet fun m => m.embedAll ds := by
  induction ds with
  | nil => exact ⟨fun _ => rfl, fun _ => rfl, fun _ => rfl, fun _ _ => rfl⟩
  | cons d ds ih =>
    refine ⟨fun m => ih.instances (m.embed d).2, fun m => ih.callables (m.embed d).2,
      fun m => ih.build (m.embed d).2, fun m t => ?_⟩
    exact congrArg (fun r => (Value.ofDatum m.nextHost d :: r.1, r.2)) (ih.meter (m.embed d).2 t)

/-- The property holds of single steps of scripts, and of runs one after the other. -/
structure Stepwise (P : ∀ ⦃α : Type⦄, Run α → Prop) : Prop where
  fail {α : Type} (e : Failure) : P (fail e : Run α)
  exhaust {α : Type} : P (exhaust : Run α)
  bind {α β : Type} {r : Run α} {f : α → Run β} (hr : P r) (hf : ∀ a, P (f a)) : P (r >>= f)
  quiet {α : Type} {f : Machine → α × Machine} (hf : Quiet f) : P (step f)
  tick (frames : List Frame) : P (tick frames)
  log (number : Nat) (line : String) :
    P (change fun m => m.changeInstance number fun i => { i with logs := i.logs ++ [line] })

/-- The property holds of single steps, and of firing an out-event if it holds of what runs the
handler. -/
structure Closed (P : ∀ ⦃α : Type⦄, Run α → Prop) : Prop extends Stepwise P where
  fire {invoke : Value → List Value → Run (List Value)} (hinvoke : ∀ f args, P (invoke f args))
    (frames : List Frame) (args : List Value) : P (Dispatch.fire invoke frames args)

namespace Stepwise

variable {P : ∀ ⦃α : Type⦄, Run α → Prop} (hP : Stepwise P) {α : Type}

include hP

/-! ## Single steps -/

theorem pure (a : α) : P (Pure.pure a : Run α) :=
  hP.quiet (f := fun m => (a, m)) ⟨fun _ => rfl, fun _ => rfl, fun _ => rfl, fun _ _ => rfl⟩

theorem read {f : Machine → α} (hf : ∀ m t, f { m with meter := t } = f m) : P (Run.read f) :=
  hP.quiet (f := fun m => (f m, m))
    ⟨fun _ => rfl, fun _ => rfl, fun _ => rfl, fun m t => congrArg (Prod.mk · _) (hf m t)⟩

theorem raise (frames : List Frame) (reason : String) : P (Run.raise frames reason : Run α) :=
  hP.fail _

theorem report (frames : List Frame) (cause : String) : P (Run.report frames cause : Run α) :=
  hP.fail _

theorem complain (frames : List Frame) (reason : String) : P (Run.complain frames reason : Run α) :=
  hP.fail _

theorem newTable (t : Table) : P (Run.newTable t) :=
  hP.quiet (f := fun m => (Value.table m.tables.size, { m with tables := m.tables.push t }))
    ⟨fun _ => rfl, fun _ => rfl, fun _ => rfl, fun _ _ => rfl⟩

theorem changeTable (address : Nat) (g : Table → Table) : P (Run.changeTable address g) :=
  hP.quiet (f := fun m => ((), { m with tables := m.tables.modify address g }))
    ⟨fun _ => rfl, fun _ => rfl, fun _ => rfl, fun _ _ => rfl⟩

theorem newClosure (c : Closure) : P (Run.newClosure c) :=
  hP.quiet (f := fun m =>
      (Value.closure m.closures.size, { m with closures := m.closures.push c }))
    ⟨fun _ => rfl, fun _ => rfl, fun _ => rfl, fun _ _ => rfl⟩

theorem newCell (v : Value) : P (Run.newCell v) :=
  hP.quiet (f := fun m => (m.cells.size, { m with cells := m.cells.push v }))
    ⟨fun _ => rfl, fun _ => rfl, fun _ => rfl, fun _ _ => rfl⟩

theorem setCell (address : Nat) (v : Value) : P (Run.setCell address v) :=
  hP.quiet (f := fun m => ((), { m with cells := m.cells.setIfInBounds address v }))
    ⟨fun _ => rfl, fun _ => rfl, fun _ => rfl, fun _ _ => rfl⟩

/-! ## Services -/

theorem instanceOf (frames : List Frame) (v : Value) : P (Dispatch.instanceOf frames v) := by
  unfold Dispatch.instanceOf
  split
  · exact hP.pure _
  · exact hP.complain _ _
  · exact hP.complain _ _

theorem keyOf (frames : List Frame) (v : Value) : P (Dispatch.keyOf frames v) := by
  unfold Dispatch.keyOf
  split
  · split
    · exact hP.pure _
    · exact hP.report _ _
  · exact hP.complain _ _

theorem logLine (frames : List Frame) (args : List Value) : P (Dispatch.log frames args) :=
  hP.bind (hP.instanceOf frames _) fun number =>
    hP.bind (hP.log number _) fun _ => hP.pure _

theorem embedded (d : Datum) : P (Dispatch.embedded d) :=
  hP.quiet (f := fun m => m.embed d)
    ⟨fun _ => rfl, fun _ => rfl, fun _ => rfl, fun _ _ => rfl⟩

theorem textArg (frames : List Frame) (v : Value) : P (Dispatch.textArg frames v) := by
  unfold Dispatch.textArg
  split
  · split
    · exact hP.pure _
    · exact hP.report _ _
  · exact hP.pure _
  · exact hP.report _ _

theorem entity (frames : List Frame) (args : List Value) : P (Dispatch.entity frames args) := by
  refine hP.bind (hP.textArg frames _) fun s => ?_
  split
  · exact hP.bind (hP.embedded _) fun _ => hP.pure _
  · exact hP.complain _ _

theorem owner (frames : List Frame) (args : List Value) : P (Dispatch.owner frames args) :=
  hP.bind (hP.instanceOf frames _) fun _ =>
    hP.bind (hP.read fun _ _ => rfl) fun _ => hP.bind (hP.embedded _) fun _ => hP.pure _

theorem callHost (frames : List Frame) (f : HostFunction) (args : List Value) :
    P (Dispatch.callHost frames f args) := by
  unfold Dispatch.callHost
  split
  · exact hP.complain _ _
  · split
    · exact hP.quiet (quiet_embedAll _)
    · exact hP.complain _ _
    · exact hP.fail _

/-! ## Functions of every machine -/

theorem global (name : String) : P (Run.global name) :=
  hP.bind (hP.read fun _ _ => rfl) fun _ => hP.pure _

theorem bindNames (names : List String) (vs : List Value) (scope : Scope) :
    P (Run.bindNames names vs scope) := by
  induction names generalizing vs scope with
  | nil => exact hP.pure _
  | cons n ns ih => exact hP.bind (hP.newCell _) fun _ => ih _ _

theorem lookup (scope : Scope) (name : String) : P (Run.lookup scope name) := by
  unfold Run.lookup
  split
  · exact hP.read fun _ _ => rfl
  · exact hP.global name

theorem ofExcept (frames : List Frame) (r : Except String Value) :
    P (Run.ofExcept frames r) := by
  cases r with
  | ok v => exact hP.pure v
  | error reason => exact hP.raise _ _

theorem store (frames : List Frame) (object key v : Value) :
    P (Run.store frames object key v) := by
  unfold Run.store
  split
  · split
    · exact hP.changeTable _ _
    · split
      · exact hP.raise _ _
      · exact hP.raise _ _
  · exact hP.raise _ _

theorem assign (c : Context) (v : Value) (p : Place) : P (Run.assign c v p) := by
  cases p with
  | cell address => exact hP.setCell _ _
  | global name => exact hP.changeTable _ _
  | entry line object key => exact hP.store _ _ _ _

theorem assignAll (c : Context) (ps : List Place) (vs : List Value) :
    P (Run.assignAll c ps vs) := by
  induction ps generalizing vs with
  | nil => exact hP.pure _
  | cons p ps ih => exact hP.bind (ih _) fun _ => hP.assign _ _ _

theorem storeItems (frames : List Frame) (t : Value) (n : Nat) (vs : List Value) :
    P (Run.storeItems frames t n vs) := by
  induction vs generalizing n with
  | nil =>
    unfold Run.storeItems
    split
    · exact hP.changeTable _ _
    · exact hP.pure _
  | cons v vs ih => exact hP.bind (hP.store _ _ _ _) fun _ => ih _

theorem length (frames : List Frame) (v : Value) : P (Run.length frames v) := by
  unfold Run.length
  split
  · exact hP.pure _
  · exact hP.bind (hP.read fun _ _ => rfl) fun _ => hP.pure _
  · exact hP.raise _ _

theorem assertTruthy (frames : List Frame) (args : List Value) :
    P (Run.assertTruthy frames args) := by
  unfold Run.assertTruthy
  split
  · exact hP.raise _ _
  · split
    · exact hP.pure _
    · exact hP.fail _

theorem setMetatable (frames : List Frame) (args : List Value) :
    P (Run.setMetatable frames args) := by
  unfold Run.setMetatable
  split
  · exact hP.bind (hP.changeTable _ _) fun _ => hP.pure _
  · exact hP.bind (hP.changeTable _ _) fun _ => hP.pure _
  · exact hP.raise _ _
  · exact hP.raise _ _
  · exact hP.raise _ _

end Stepwise

/-! ## Expressions, statements and calls

The functions call each other with one less of fuel, so one induction on it goes through them
all. -/

/-- The property holds of all that scripts are made of, with so much fuel. -/
structure HoldsAt (P : ∀ ⦃α : Type⦄, Run α → Prop) (fuel : Nat) : Prop where
  index (c : Context) (line : Nat) (key object : Value) : P (Run.index c line key fuel object)
  value (c : Context) (scope : Scope) (e : Term) : P (Run.value c scope fuel e)
  fill (c : Context) (scope : Scope) (line : Nat) (t : Value) (items : List Value)
    (fields : List Field) : P (Run.fill c scope line t fuel items fields)
  values (c : Context) (scope : Scope) (e : Term) : P (Run.values c scope fuel e)
  valueList (c : Context) (scope : Scope) (es : List Term) : P (Run.valueList c scope fuel es)
  call (frames : List Frame) (depth : Nat) (f : Value) (args : List Value) :
    P (Run.call fuel frames depth f args)
  returned (c : Context) (scope : Scope) (line : Nat) (es : List Term) :
    P (Run.returned c scope line fuel es)
  place (c : Context) (scope : Scope) (e : Term) : P (Run.place c scope fuel e)
  places (c : Context) (scope : Scope) (es : List Term) : P (Run.places c scope fuel es)
  block (c : Context) (scope : Scope) (stats : List Stat) : P (Run.block c scope fuel stats)
  statement (c : Context) (scope : Scope) (s : Stat) : P (Run.statement c scope fuel s)
  loop (c : Context) (scope : Scope) (line : Nat) (condition : Term) (body : List Stat) :
    P (Run.loop c scope line condition body fuel)

namespace Closed

variable {P : ∀ ⦃α : Type⦄, Run α → Prop} (hP : Closed P)

include hP

theorem builtin {invoke : Value → List Value → Run (List Value)}
    (hinvoke : ∀ f args, P (invoke f args)) (frames : List Frame) (args : List Value)
    (b : Builtin) : P (Run.builtin invoke frames args b) := by
  cases b with
  | error => exact hP.fail _
  | assert => exact hP.assertTruthy frames args
  | print => exact hP.pure _
  | type | tostring =>
    cases args with
    | nil => exact hP.raise _ _
    | cons v vs => exact hP.pure _
  | setmetatable => exact hP.setMetatable frames args
  | fire => exact hP.fire hinvoke frames args
  | log => exact hP.logLine frames args
  | entity => exact hP.entity frames args
  | owner => exact hP.owner frames args

theorem holdsAt_zero : HoldsAt P 0 where
  index _ _ _ _ := hP.exhaust
  value _ _ _ := hP.exhaust
  fill _ _ _ _ _ _ := hP.exhaust
  values _ _ _ := hP.exhaust
  valueList _ _ _ := hP.exhaust
  call _ _ _ _ := hP.exhaust
  returned _ _ _ _ := hP.exhaust
  place _ _ _ := hP.exhaust
  places _ _ _ := hP.exhaust
  block _ _ _ := hP.exhaust
  statement _ _ _ := hP.exhaust
  loop _ _ _ _ _ := hP.exhaust

section Succ

variable {fuel : Nat} (h : HoldsAt P fuel)

include h

theorem index_succ (c : Context) (line : Nat) (key object : Value) :
    P (Run.index c line key (fuel + 1) object) := by
  unfold Run.index
  split
  · refine hP.bind (hP.read fun _ _ => rfl) fun t => ?_
    extract_lets v
    split
    · exact hP.pure _
    · split
      · exact hP.pure _
      · refine hP.bind (hP.read fun _ _ => rfl) fun t => ?_
        extract_lets next
        split
        · exact hP.pure _
        · split
          · exact hP.bind (h.call _ _ _ _) fun _ => hP.pure _
          · exact h.index _ _ _ _
  · exact hP.pure _
  · exact hP.raise _ _

theorem value_succ (c : Context) (scope : Scope) (e : Term) :
    P (Run.value c scope (fuel + 1) e) := by
  unfold Run.value
  split
  · exact hP.pure _
  · exact hP.pure _
  · exact hP.pure _
  · exact hP.pure _
  · exact hP.pure _
  · exact hP.lookup _ _
  · exact hP.bind (h.value _ _ _) fun _ => hP.bind (h.value _ _ _) fun _ => h.index _ _ _ _
  · exact hP.bind (h.values _ _ _) fun _ => hP.pure _
  · exact hP.bind (h.values _ _ _) fun _ => hP.pure _
  · exact hP.newClosure _
  · exact hP.bind (h.value _ _ _) fun _ => hP.bind (h.value _ _ _) fun _ =>
      hP.bind (hP.tick _) fun _ => hP.ofExcept _ _
  · refine hP.bind (h.value _ _ _) fun _ => ?_
    split
    · exact hP.pure _
    · exact hP.ofExcept _ _
    · exact hP.length _ _
  · refine hP.bind (h.value _ _ _) fun _ => ?_
    split
    · exact h.value _ _ _
    · exact hP.pure _
  · refine hP.bind (h.value _ _ _) fun _ => ?_
    split
    · exact hP.pure _
    · exact h.value _ _ _
  · exact h.value _ _ _
  · exact hP.bind (hP.newTable _) fun _ => hP.bind (h.fill _ _ _ _ _ _) fun _ => hP.pure _

theorem fill_succ (c : Context) (scope : Scope) (line : Nat) (t : Value) (items : List Value)
    (fields : List Field) : P (Run.fill c scope line t (fuel + 1) items fields) := by
  cases fields with
  | nil => exact hP.storeItems _ _ _ _
  | cons field rest =>
    cases field with
    | entry k e =>
      exact hP.bind (h.value _ _ _) fun _ => hP.bind (h.value _ _ _) fun _ =>
        hP.bind (hP.store _ _ _ _) fun _ => h.fill _ _ _ _ _ _
    | item e =>
      cases rest with
      | nil => exact hP.bind (h.values _ _ _) fun _ => hP.storeItems _ _ _ _
      | cons next rest => exact hP.bind (h.value _ _ _) fun _ => h.fill _ _ _ _ _ _

theorem values_succ (c : Context) (scope : Scope) (e : Term) :
    P (Run.values c scope (fuel + 1) e) := by
  unfold Run.values
  split
  · exact hP.pure _
  · exact hP.bind (h.value _ _ _) fun _ => hP.bind (h.valueList _ _ _) fun _ =>
      hP.bind (hP.tick _) fun _ => h.call _ _ _ _
  · exact hP.bind (h.value _ _ _) fun _ => hP.bind (h.index _ _ _ _) fun _ =>
      hP.bind (h.valueList _ _ _) fun _ => hP.bind (hP.tick _) fun _ => h.call _ _ _ _
  · exact hP.bind (h.value _ _ _) fun _ => hP.pure _

theorem valueList_succ (c : Context) (scope : Scope) (es : List Term) :
    P (Run.valueList c scope (fuel + 1) es) := by
  cases es with
  | nil => exact hP.pure _
  | cons e es =>
    cases es with
    | nil => exact h.values _ _ _
    | cons next es =>
      exact hP.bind (h.value _ _ _) fun _ => hP.bind (h.valueList _ _ _) fun _ => hP.pure _

theorem call_succ (frames : List Frame) (depth : Nat) (f : Value) (args : List Value) :
    P (Run.call (fuel + 1) frames depth f args) := by
  unfold Run.call
  extract_lets jp
  have hjp : ∀ u, P (jp u) := by
    intro u
    simp only [jp]
    split
    · refine hP.bind (hP.read fun _ _ => rfl) fun closure => ?_
      split
      refine hP.bind (hP.bindNames _ _ _) fun scope => ?_
      refine hP.bind (h.block _ _ _) fun flow => ?_
      cases flow with
      | ret vs => exact hP.pure _
      | next | leave => exact hP.pure _
    · exact hP.builtin (fun _ _ => h.call _ _ _ _) _ _ _
    · refine hP.bind (hP.read fun _ _ => rfl) fun g? => ?_
      cases g? with
      | some g => exact hP.callHost _ _ _
      | none => exact hP.pure _
    · exact hP.raise _ _
  split
  · exact hP.bind hP.exhaust hjp
  · exact hjp ()

theorem returned_succ (c : Context) (scope : Scope) (line : Nat) (es : List Term) :
    P (Run.returned c scope line (fuel + 1) es) := by
  unfold Run.returned
  split
  · refine hP.bind (h.value _ _ _) fun f => hP.bind (h.valueList _ _ _) fun args =>
      hP.bind (hP.tick _) fun _ => ?_
    split
    · exact h.call _ _ _ _
    · exact h.call _ _ _ _
  · exact hP.bind (h.valueList _ _ _) fun _ => hP.bind (hP.tick _) fun _ => hP.pure _

theorem place_succ (c : Context) (scope : Scope) (e : Term) :
    P (Run.place c scope (fuel + 1) e) := by
  unfold Run.place
  split
  · split
    · exact hP.pure _
    · exact hP.pure _
  · exact hP.bind (h.value _ _ _) fun _ => hP.bind (h.value _ _ _) fun _ => hP.pure _
  · exact hP.pure _

theorem places_succ (c : Context) (scope : Scope) (es : List Term) :
    P (Run.places c scope (fuel + 1) es) := by
  cases es with
  | nil => exact hP.pure _
  | cons e es =>
    exact hP.bind (h.place _ _ _) fun _ => hP.bind (h.places _ _ _) fun _ => hP.pure _

theorem block_succ (c : Context) (scope : Scope) (stats : List Stat) :
    P (Run.block c scope (fuel + 1) stats) := by
  unfold Run.block
  split
  · exact hP.pure _
  · exact hP.bind (h.valueList _ _ _) fun _ => hP.bind (hP.tick _) fun _ =>
      hP.bind (hP.bindNames _ _ _) fun _ => h.block _ _ _
  · exact hP.bind (hP.newCell _) fun _ => hP.bind (hP.newClosure _) fun _ =>
      hP.bind (hP.setCell _ _) fun _ => h.block _ _ _
  · refine hP.bind (h.statement _ _ _) fun flow => ?_
    cases flow with
    | next => exact h.block _ _ _
    | leave | ret vs => exact hP.pure _

theorem statement_succ (c : Context) (scope : Scope) (s : Stat) :
    P (Run.statement c scope (fuel + 1) s) := by
  unfold Run.statement
  split
  · exact hP.bind (h.places _ _ _) fun _ => hP.bind (h.valueList _ _ _) fun _ =>
      hP.bind (hP.tick _) fun _ => hP.bind (hP.assignAll _ _ _) fun _ => hP.pure _
  · exact hP.bind (h.values _ _ _) fun _ => hP.pure _
  · exact hP.bind (hP.tick _) fun _ => hP.bind (h.value _ _ _) fun _ => h.block _ _ _
  · exact h.loop _ _ _ _ _
  · exact h.block _ _ _
  · exact hP.pure _
  · exact hP.bind (h.returned _ _ _ _) fun _ => hP.pure _
  · exact hP.pure _
  · exact hP.pure _

theorem loop_succ (c : Context) (scope : Scope) (line : Nat) (condition : Term)
    (body : List Stat) : P (Run.loop c scope line condition body (fuel + 1)) := by
  unfold Run.loop
  refine hP.bind (hP.tick _) fun _ => hP.bind (h.value _ _ _) fun v => ?_
  split
  · refine hP.bind (h.block _ _ _) fun flow => ?_
    cases flow with
    | next => exact h.loop _ _ _ _ _
    | leave | ret vs => exact hP.pure _
  · exact hP.pure _

end Succ

/-- **What holds of single steps holds of all that scripts do.** -/
theorem holdsAt (fuel : Nat) : HoldsAt P fuel := by
  induction fuel with
  | zero => exact hP.holdsAt_zero
  | succ fuel ih =>
    exact {
      index := hP.index_succ ih
      value := hP.value_succ ih
      fill := hP.fill_succ ih
      values := hP.values_succ ih
      valueList := hP.valueList_succ ih
      call := hP.call_succ ih
      returned := hP.returned_succ ih
      place := hP.place_succ ih
      places := hP.places_succ ih
      block := hP.block_succ ih
      statement := hP.statement_succ ih
      loop := hP.loop_succ ih }

end Closed

end Run

end Machine

end GraphScript
