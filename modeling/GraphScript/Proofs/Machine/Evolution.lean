import GraphScript.Proofs.Machine.Induction

/-!
# Proofs/Machine/Evolution — what a script can do to the instances

Of all that a script does, three things reach the instances of graphs: it logs a line, and a handler
that it fires runs while its instance is suspended, after which the state is put back and at most
one record is added.  `Evolves` has these as its cases; every run is of that form
(`Run.evolvingAt`), whatever the script does and however it ends.

So an instance comes out of a run as it went in, but for records and logs that were added, and
without handlers no record is added (`Evolves.grown`).  The functions that the host offers and the
build are out of a script's reach (`Evolves.host_eq`).
-/

namespace GraphScript

namespace Machine

open Script

/-- The machine after a run. -/
def Outcome.machine {α : Type} : Outcome α → Machine
  | .done _ m => m
  | .failed _ m => m
  | .exhausted m => m

/-- What running something can make of a machine, as far as its instances and its host go. -/
inductive Evolves : Machine → Machine → Prop where
  | refl (m : Machine) : Evolves m m
  | trans {m₁ m₂ m₃ : Machine} : Evolves m₁ m₂ → Evolves m₂ m₃ → Evolves m₁ m₃
  /-- All but the instances, the functions of the host and the build may change. -/
  | memory {m m' : Machine} (h : m'.instances = m.instances)
    (hcallables : m'.callables = m.callables) (hbuild : m'.build = m.build) : Evolves m m'
  | log (m : Machine) (number : Nat) (line : String) :
    Evolves m (m.changeInstance number fun i => { i with logs := i.logs ++ [line] })
  /-- A handler ran while its instance was suspended. -/
  | handled {m m' : Machine} {number : Nat} {i : Instance} {key : String} {b : Binding}
    (hi : m.instances[number]? = some i) (hb : Entries.get? i.bindings key = some b)
    (h : Evolves (m.setInstanceState number .suspended) m') :
    Evolves m (m'.setInstanceState number i.state)
  /-- A handler ran, and what came of it was recorded. -/
  | recorded {m m' : Machine} {number : Nat} {i : Instance} {key : String} {b : Binding}
    (hi : m.instances[number]? = some i) (hb : Entries.get? i.bindings key = some b)
    (h : Evolves (m.setInstanceState number .suspended) m') (r : OutRecord) :
    Evolves m ((m'.setInstanceState number i.state).changeInstance number
      fun i => { i with records := i.records ++ [r] })

namespace Run

variable {α β : Type}

/-- Whatever machine it runs in, it makes of it what a script can. -/
def Evolving (r : Run α) : Prop := ∀ m, Evolves m (r m).machine

/-! ## Single steps -/

/-- What runs leave in turn, they leave together. -/
theorem evolving_bind {r : Run α} {f : α → Run β} (hr : Evolving r) (hf : ∀ a, Evolving (f a)) :
    Evolving (r >>= f) := by
  intro m
  have hfirst := hr m
  simp only [bind]
  cases hm : r m with
  | done a m' =>
    rw [hm] at hfirst
    exact hfirst.trans (hf a m')
  | failed e m' =>
    rw [hm] at hfirst
    exact hfirst
  | exhausted m' =>
    rw [hm] at hfirst
    exact hfirst

/-- What is read is known to hold of the machine that the run goes on in. -/
theorem evolves_read_bind {f : Machine → α} {k : α → Run β} {m : Machine}
    (h : Evolves m (k (f m) m).machine) : Evolves m ((read f >>= k) m).machine := h

theorem evolving_tick (frames : List Frame) : Evolving (tick frames) := by
  intro m
  unfold tick
  split
  · exact .refl m
  · dsimp only
    split
    · exact .memory rfl rfl rfl
    · exact .memory rfl rfl rfl

theorem stepwise_evolving : Stepwise @Evolving where
  fail _ m := .refl m
  exhaust m := .refl m
  bind := evolving_bind
  quiet hf m := .memory (hf.instances m) (hf.callables m) (hf.build m)
  tick := evolving_tick
  log number line m := .log m number line

end Run

/-! ## Handlers -/

namespace Dispatch

open Run

/-- What a handler returned is recorded, or it is refused. -/
theorem accept_cases (frames : List Frame) (number : Nat) (signature : Signature) (key : String)
    (mode : OutMode) (args returned : List Value) (m : Machine) :
    (accept frames number signature key mode args returned m).machine = m ∨
      ∃ r, (accept frames number signature key mode args returned m).machine =
        m.changeInstance number fun i => { i with records := i.records ++ [r] } := by
  cases mode with
  | immediate => exact .inr ⟨_, rfl⟩
  | result | userSubgraph =>
    simp only [accept]
    cases resultData key (signature.returns.zip (Value.fit signature.returns.length returned)) with
    | error reason => exact .inl rfl
    | ok results => exact .inr ⟨_, rfl⟩

section Handlers

variable {invoke : Value → List Value → Run (List Value)}
  (hinvoke : ∀ f args, Evolving (invoke f args))

include hinvoke

/-- A handler runs with its instance suspended, and the firing records at most once. -/
theorem evolves_handle (frames : List Frame) {m : Machine} {number : Nat} {i : Instance}
    (signature : Signature) {key : String} {b : Binding} (hi : m.instances[number]? = some i)
    (hb : Entries.get? i.bindings key = some b) (state : Value) (args : List Value) :
    Evolves m (handle invoke frames number signature key b state args m).machine := by
  have hprevious : m.instanceState number = i.state := by rw [instanceState, hi]
  have hrun := hinvoke b.handler (if b.mode = .userSubgraph then state :: args else args)
    (m.setInstanceState number .suspended)
  simp only [handle, hprevious]
  cases hm : invoke b.handler (if b.mode = .userSubgraph then state :: args else args)
      (m.setInstanceState number .suspended) with
  | failed e m' =>
    rw [hm] at hrun
    exact .handled hi hb hrun
  | exhausted m' =>
    rw [hm] at hrun
    exact .handled hi hb hrun
  | done returned m' =>
    rw [hm] at hrun
    rcases accept_cases frames number signature key b.mode args returned
      (m'.setInstanceState number i.state) with heq | ⟨r, heq⟩
    · exact heq ▸ .handled hi hb hrun
    · exact heq ▸ .recorded hi hb hrun r

/-- **Firing leaves instances but for records and logs.** -/
theorem evolving_fire (frames : List Frame) (args : List Value) :
    Evolving (fire invoke frames args) := by
  unfold fire
  split
  · rename_i state key args
    refine evolving_bind (stepwise_evolving.keyOf frames key) fun key => ?_
    refine evolving_bind (stepwise_evolving.instanceOf frames state) fun number m => ?_
    -- The handler is run for the instance that is read here, in the same machine.
    refine evolves_read_bind ?_
    cases hi : m.instances[number]? with
    | none => exact .refl m
    | some i =>
      dsimp only
      cases hout : i.interface.findOut? key with
      | none => exact .refl m
      | some signature =>
        refine evolves_read_bind ?_
        generalize
          (if m.build.policy.checksOutArgs then argFault? signature args else none) = fault?
        cases fault? with
        | some reason => exact .refl m
        | none =>
          cases hb : Entries.get? i.bindings key with
          | none => exact .refl m
          | some b => exact evolves_handle hinvoke frames signature hi hb state args
  · exact stepwise_evolving.complain _ _

end Handlers

/-- Data of the host change no instance. -/
theorem evolves_embedAll (m : Machine) (ds : List Datum) : Evolves m (m.embedAll ds).2 :=
  .memory ((quiet_embedAll ds).instances m) ((quiet_embedAll ds).callables m)
    ((quiet_embedAll ds).build m)

end Dispatch

namespace Run

/-- Whatever a script does, it makes of a machine what a script can. -/
theorem closed_evolving : Closed @Evolving where
  toStepwise := stepwise_evolving
  fire := Dispatch.evolving_fire

theorem evolving_newClosure (c : Closure) : Evolving (newClosure c) := closed_evolving.newClosure c

/-- **Every run leaves instances but for records and logs.** -/
theorem evolvingAt (fuel : Nat) : HoldsAt @Evolving fuel := closed_evolving.holdsAt fuel

end Run

/-! ## Instances -/

/-- A change is made to one instance. -/
theorem getElem?_changeInstance (m : Machine) (number n : Nat) (f : Instance → Instance) :
    (m.changeInstance number f).instances[n]? =
      if number = n then (m.instances[n]?).map f else m.instances[n]? :=
  Array.getElem?_modify

end Machine

/-- An instance as a script may leave it: records and logs may have been added, records only if
there are handlers. -/
def Instance.Grown (i i' : Instance) : Prop :=
  ∃ records logs, i' = { i with records := i.records ++ records, logs := i.logs ++ logs } ∧
    (i.bindings = [] → records = [])

namespace Instance.Grown

theorem refl (i : Instance) : i.Grown i :=
  ⟨[], [], by rw [List.append_nil, List.append_nil], fun _ => rfl⟩

theorem trans {i₁ i₂ i₃ : Instance} (h : i₁.Grown i₂) (h' : i₂.Grown i₃) : i₁.Grown i₃ := by
  obtain ⟨records, logs, rfl, hnone⟩ := h
  obtain ⟨records', logs', rfl, hnone'⟩ := h'
  refine ⟨records ++ records', logs ++ logs', by simp only [List.append_assoc], fun hb => ?_⟩
  rw [hnone hb, hnone' hb, List.append_nil]

theorem log (i : Instance) (line : String) : i.Grown { i with logs := i.logs ++ [line] } :=
  ⟨[], [line], by rw [List.append_nil], fun _ => rfl⟩

/-- The state that was left is entered again. -/
theorem handled {i i' : Instance} (h : Grown { i with state := .suspended } i') :
    i.Grown { i' with state := i.state } := by
  obtain ⟨records, logs, rfl, hnone⟩ := h
  exact ⟨records, logs, rfl, hnone⟩

/-- A record is added only where something is bound. -/
theorem recorded {i i' : Instance} (h : i.Grown i') (hb : i.bindings ≠ []) (r : OutRecord) :
    i.Grown { i' with records := i'.records ++ [r] } := by
  obtain ⟨records, logs, rfl, -⟩ := h
  exact ⟨records ++ [r], logs, by simp only [List.append_assoc], fun hnil => absurd hnil hb⟩

end Instance.Grown

namespace Machine

theorem bindings_ne_nil {bindings : List (String × Binding)} {key : String} {b : Binding}
    (h : Entries.get? bindings key = some b) : bindings ≠ [] := by
  rintro rfl
  cases h

/-- An instance that was suspended while something ran comes out with its state put back. -/
theorem exists_handled {m m' : Machine} {number n : Nat} {j i : Instance}
    (hj : m.instances[number]? = some j) (hi : m.instances[n]? = some i)
    (h : ∀ i₁, (m.setInstanceState number .suspended).instances[n]? = some i₁ →
      ∃ i₂, m'.instances[n]? = some i₂ ∧ i₁.Grown i₂) :
    ∃ i', (m'.setInstanceState number j.state).instances[n]? = some i' ∧ i.Grown i' := by
  simp only [setInstanceState, getElem?_changeInstance] at h ⊢
  by_cases hn : number = n
  · subst hn
    obtain rfl : j = i := Option.some.inj (hj.symm.trans hi)
    rw [if_pos rfl, hi] at h
    obtain ⟨i₂, hi₂, hgrown⟩ := h _ rfl
    exact ⟨_, by rw [if_pos rfl, hi₂, Option.map_some], hgrown.handled⟩
  · rw [if_neg hn] at h ⊢
    exact h i hi

/-- **A script leaves every instance as it was**, but for records and logs. -/
theorem Evolves.grown {m m' : Machine} (h : Evolves m m') {n : Nat} {i : Instance}
    (hi : m.instances[n]? = some i) : ∃ i', m'.instances[n]? = some i' ∧ i.Grown i' := by
  -- A handler runs in a machine with the instance suspended, so the instance is left open.
  induction h generalizing i with
  | refl m => exact ⟨i, hi, .refl i⟩
  | trans _ _ ih ih' =>
    obtain ⟨i', hi', hgrown⟩ := ih hi
    obtain ⟨i'', hi'', hgrown'⟩ := ih' hi'
    exact ⟨i'', hi'', hgrown.trans hgrown'⟩
  | memory hsame _ _ => exact ⟨i, hsame ▸ hi, .refl i⟩
  | log m number line =>
    rw [getElem?_changeInstance, hi]
    split
    · exact ⟨_, rfl, .log i line⟩
    · exact ⟨i, rfl, .refl i⟩
  | handled hj hb _ ih => exact exists_handled hj hi fun _ => ih
  | @recorded m m' number j key b hj hb _ r ih =>
    obtain ⟨i', hi', hgrown⟩ := exists_handled hj hi fun _ => ih
    rw [getElem?_changeInstance, hi']
    split
    · rename_i hn
      obtain rfl : j = i := Option.some.inj (hj.symm.trans (hn ▸ hi))
      exact ⟨_, rfl, hgrown.recorded (bindings_ne_nil hb) r⟩
    · exact ⟨i', rfl, hgrown⟩

/-- The functions of the host and the build are left alone. -/
theorem Evolves.host_eq {m m' : Machine} (h : Evolves m m') :
    m'.callables = m.callables ∧ m'.build = m.build := by
  induction h with
  | refl | log => exact ⟨rfl, rfl⟩
  | trans _ _ ih ih' => exact ⟨ih'.1.trans ih.1, ih'.2.trans ih.2⟩
  | memory _ hcallables hbuild => exact ⟨hcallables, hbuild⟩
  | handled _ _ _ ih => exact ih
  | recorded _ _ _ _ ih => exact ih

/-- No instance comes or goes. -/
theorem Evolves.size_eq {m m' : Machine} (h : Evolves m m') :
    m'.instances.size = m.instances.size := by
  induction h with
  | refl m => rfl
  | trans _ _ ih ih' => exact ih'.trans ih
  | memory hsame _ _ => rw [hsame]
  | log m number line => exact Array.size_modify
  | handled _ _ _ ih => exact Array.size_modify.trans (ih.trans Array.size_modify)
  | recorded _ _ _ _ ih =>
    exact Array.size_modify.trans (Array.size_modify.trans (ih.trans Array.size_modify))

end Machine

end GraphScript
