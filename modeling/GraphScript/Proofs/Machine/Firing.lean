import GraphScript.Host.Vm
import GraphScript.Proofs.Keys
import GraphScript.Proofs.Machine.Evolution

/-!
# Proofs/Machine/Firing — out-events under different builds

A firing that finishes found its signature, passed the check of its arguments if there was one, and
then either had no handler or called it once (`fire_done_iff`, `handle_done_iff`).  Of these only
the check depends on the build, and debug makes it: so whatever finishes there finishes in the same
way under every build (`fire_under`), as long as handlers are fixed functions in the machines that
they are called in (`Fixed`, `Reached`).

The functions that a host makes callable are fixed (`Fixed.callable`), and so are functions of
scripts that only compute (`Fixed.echo`).  A handler may write its calls down, which tells which
calls were made (`fire_effect`).
-/

namespace GraphScript

namespace Machine

open Script

/-- The machine in another build and with another meter. -/
def under (m : Machine) (b : Build) (t : Meter) : Machine := { m with build := b, meter := t }

/-- The machine after something was written down. -/
def jot (m : Machine) (vs : List Value) : Machine := { m with cells := m.cells ++ vs.toArray }

namespace Run

variable {α β : Type}

/-- **What finishes, finishes step by step.** -/
theorem bind_done_iff {r : Run α} {f : α → Run β} {m m' : Machine} {b : β} :
    (r >>= f) m = .done b m' ↔ ∃ a m₁, r m = .done a m₁ ∧ f a m₁ = .done b m' := by
  simp only [bind]
  cases hr : r m with
  | done a m₁ =>
    constructor
    · intro h
      exact ⟨a, m₁, rfl, h⟩
    · rintro ⟨a', m₁', heq, h⟩
      cases heq
      exact h
  | failed e m₁ => simp
  | exhausted m₁ => simp

theorem pure_done_iff {a b : α} {m m' : Machine} :
    (pure a : Run α) m = .done b m' ↔ b = a ∧ m' = m := by
  simp only [pure, Outcome.done.injEq, eq_comm]

theorem read_done_iff {f : Machine → α} {a : α} {m m' : Machine} :
    Run.read f m = .done a m' ↔ a = f m ∧ m' = m := by
  simp only [Run.read, Outcome.done.injEq, eq_comm]

@[simp] theorem complain_ne_done {frames : List Frame} {reason : String} {a : α}
    {m m' : Machine} : (complain frames reason : Run α) m ≠ .done a m' := by
  simp [complain, report, fail]

end Run

/-! ## Handlers -/

/-- A call of a handler. -/
structure HandlerCall where
  handler : Value
  args : List Value

/-- What an answer makes of a machine: references in it took addresses. -/
def answered (m : Machine) : Except Failure (List Value × Nat) → Outcome (List Value)
  | .ok (vs, next) => .done vs { m with nextHost := next }
  | .error e => .failed e m

theorem answered_done_iff {m m' : Machine} {answer : Except Failure (List Value × Nat)}
    {values : List Value} : m.answered answer = .done values m' ↔
      ∃ next, answer = .ok (values, next) ∧ m' = { m with nextHost := next } := by
  cases answer with
  | error e => simp [answered]
  | ok a =>
    constructor
    · intro h
      cases h
      exact ⟨a.2, rfl, rfl⟩
    · rintro ⟨next, heq, rfl⟩
      cases heq
      rfl

/-- A handler is a fixed function in these machines: its arguments, with the address of the next
reference, decide what it answers or how it fails.  All that it does besides is to write `note`
down. -/
def Fixed (machines : Machine → Prop) (note : List Value → List Value)
    (handler : List Value → Run (List Value)) : Prop :=
  ∃ answer : Nat → List Value → Except Failure (List Value × Nat), ∀ args m, machines m →
    handler args m = (m.jot (note args)).answered (answer m.nextHost args)

namespace Fixed

variable {machines : Machine → Prop} {note : List Value → List Value}
  {handler : List Value → Run (List Value)} {args values : List Value} {m m' : Machine}
  (h : Fixed machines note handler) (hm : machines m) (hrun : handler args m = .done values m')

include h hm hrun

/-- A handler that answers notes its arguments, and makes as many objects as its answer has. -/
theorem effect : ∃ next, m' = { m.jot (note args) with nextHost := next } := by
  obtain ⟨answer, hanswer⟩ := h
  obtain ⟨next, -, hm'⟩ := answered_done_iff.mp ((hanswer args m hm).symm.trans hrun)
  exact ⟨next, hm'⟩

/-- **The build does not matter to a fixed function.** -/
theorem under {b : Build} {t : Meter} (hunder : machines (m.under b t)) :
    handler args (m.under b t) = .done values (m'.under b t) := by
  obtain ⟨answer, hanswer⟩ := h
  obtain ⟨next, hok, rfl⟩ := answered_done_iff.mp ((hanswer args m hm).symm.trans hrun)
  exact (hanswer args (m.under b t) hunder).trans (answered_done_iff.mpr ⟨next, hok, rfl⟩)

end Fixed

namespace Dispatch

open Run

/-! ## One firing -/

/-- The name that a key is. -/
def keyText? : Value → Option String
  | .str bytes => Value.textOf? bytes
  | _ => none

/-- What a handler is called with. -/
def passed (b : Binding) (state : Value) (args : List Value) : List Value :=
  if b.mode = .userSubgraph then state :: args else args

/-- What is given to the script and what is recorded of what a handler returned, if it is fit. -/
def accepted? (signature : Signature) (key : String) (mode : OutMode) (returned : List Value) :
    Option (List Value × List Datum) :=
  let values := Value.fit signature.returns.length returned
  if mode = .immediate then some ([], [])
  else (resultData key (signature.returns.zip values)).toOption.map fun results => (values, results)

variable {invoke : Value → List Value → Run (List Value)} {frames : List Frame}
  {m m' : Machine} {number address : Nat} {i : Instance} {signature : Signature} {key : String}
  {mode : OutMode} {b : Binding} {state k : Value} {args returned values : List Value}

theorem keyOf_done_iff : keyOf frames k m = .done key m' ↔ keyText? k = some key ∧ m' = m := by
  cases k with
  | str bytes =>
    simp only [keyOf, keyText?]
    cases Value.textOf? bytes with
    | none => simp [report, fail]
    | some s => simp only [pure_done_iff, Option.some.injEq, eq_comm]
  | _ => simp [keyOf, keyText?]

/-- A firing takes over what it accepts, and records it. -/
theorem accept_done_iff :
    accept frames number signature key mode args returned m = .done values m' ↔
    ∃ results, accepted? signature key mode returned = some (values, results) ∧
      m' = m.changeInstance number fun i =>
        { i with records := i.records ++ [⟨key, mode, args.map Value.datum?, results⟩] } := by
  cases mode with
  | immediate =>
    simp only [accept, bind_done_iff, pure_done_iff, record, change, accepted?]
    constructor
    · rintro ⟨⟨⟩, m₁, heq, rfl, rfl⟩
      cases heq
      exact ⟨[], rfl, rfl⟩
    · rintro ⟨results, heq, rfl⟩
      cases heq
      exact ⟨(), _, rfl, rfl, rfl⟩
  | result | userSubgraph =>
    simp only [accept, accepted?]
    cases resultData key (signature.returns.zip (Value.fit signature.returns.length returned)) with
    | error reason => simp [Except.toOption]
    | ok results =>
      simp only [bind_done_iff, pure_done_iff, record, change]
      constructor
      · rintro ⟨⟨⟩, m₁, heq, rfl, rfl⟩
        cases heq
        exact ⟨results, rfl, rfl⟩
      · rintro ⟨results', heq, rfl⟩
        cases heq
        exact ⟨(), _, rfl, rfl, rfl⟩

/-- **A handler that finishes** was called once, with the instance suspended; what it returned is
fit, and recorded. -/
theorem handle_done_iff :
    handle invoke frames number signature key b state args m = .done values m' ↔
      ∃ returned m₁ results,
        invoke b.handler (passed b state args) (m.setInstanceState number .suspended) =
          .done returned m₁ ∧
        accepted? signature key b.mode returned = some (values, results) ∧
        m' = (m₁.setInstanceState number (m.instanceState number)).changeInstance number fun i =>
          { i with records := i.records ++ [⟨key, b.mode, args.map Value.datum?, results⟩] } := by
  simp only [handle, passed]
  cases hm : invoke b.handler (if b.mode = .userSubgraph then state :: args else args)
      (m.setInstanceState number .suspended) with
  | failed e m₁ => simp
  | exhausted m₁ => simp
  | done returned m₁ =>
    simp only [accept_done_iff]
    constructor
    · rintro ⟨results, hfit, rfl⟩
      exact ⟨returned, m₁, results, rfl, hfit, rfl⟩
    · rintro ⟨_, _, results, heq, hfit, rfl⟩
      cases heq
      exact ⟨results, hfit, rfl⟩

/-- **A firing that finishes** is declared, fits its declaration if that is checked, and has no
handler or one that finishes. -/
theorem fire_done_iff (hi : m.instances[number]? = some i) :
    fire invoke frames (.host address (.state number) :: k :: args) m = .done values m' ↔
      ∃ key signature, keyText? k = some key ∧ i.interface.findOut? key = some signature ∧
        (m.build.policy.checksOutArgs = true → argFault? signature args = none) ∧
        ((Entries.get? i.bindings key = none ∧ values = [] ∧ m' = m) ∨
          ∃ b, Entries.get? i.bindings key = some b ∧
            handle invoke frames number signature key b (.host address (.state number)) args m =
              .done values m') := by
  simp only [fire, bind_done_iff, keyOf_done_iff, instanceOf, pure_done_iff, read_done_iff,
    and_assoc, exists_and_left, exists_eq_left, hi]
  refine exists_congr fun key => and_congr_right fun _ => ?_
  cases i.interface.findOut? key with
  | none => simp
  | some signature =>
    simp only [bind_done_iff, read_done_iff, and_assoc, exists_and_left, exists_eq_left,
      Option.some.injEq, exists_eq_left']
    have hcheck : (m.build.policy.checksOutArgs = true → argFault? signature args = none) ↔
        (if m.build.policy.checksOutArgs = true then argFault? signature args else none) =
          none := by
      split
      · rename_i hchecks
        simp only [hchecks, forall_const]
      · rename_i hchecks
        simp [hchecks]
    rw [hcheck]
    cases (if m.build.policy.checksOutArgs = true then argFault? signature args else none) with
    | some reason => simp
    | none =>
      cases Entries.get? i.bindings key with
      | none => simp [pure_done_iff]
      | some b => simp

/-- **Under another build a firing finishes in the same way** as under debug. -/
theorem fire_under {machines : Machine → Prop} {note : HandlerCall → List Value}
    (hi : m.instances[number]? = some i) (hdebug : m.build = .debug)
    (hfixed : ∀ key b, Entries.get? i.bindings key = some b →
      Fixed machines (fun args => note ⟨b.handler, args⟩) (invoke b.handler))
    (hm : machines (m.setInstanceState number .suspended)) {b : Build} {t : Meter}
    (hunder : machines ((m.under b t).setInstanceState number .suspended))
    (h : fire invoke frames (.host address (.state number) :: k :: args) m = .done values m') :
    fire invoke frames (.host address (.state number) :: k :: args) (m.under b t) =
      .done values (m'.under b t) := by
  obtain ⟨key, signature, hkey, hout, hcheck, hrest⟩ := (fire_done_iff hi).mp h
  have hfault : argFault? signature args = none := hcheck (by rw [hdebug]; rfl)
  refine (fire_done_iff (m := m.under b t) hi).mpr
    ⟨key, signature, hkey, hout, fun _ => hfault, ?_⟩
  rcases hrest with ⟨hunbound, hvalues, rfl⟩ | ⟨bound, hbound, hhandle⟩
  · exact .inl ⟨hunbound, hvalues, rfl⟩
  · obtain ⟨returned, m₁, results, hinvoke, hfit, rfl⟩ := handle_done_iff.mp hhandle
    have hrun := (hfixed key bound hbound).under hm hinvoke hunder
    exact .inr ⟨bound, hbound, handle_done_iff.mpr ⟨returned, _, results, hrun, hfit, rfl⟩⟩

end Dispatch

/-! ## Firings in turn -/

/-- An out-event that a script fires. -/
structure Firing where
  frames : List Frame
  key : Value
  args : List Value

namespace Firing

open Dispatch

/-- The handler that is bound for a firing, with its key. -/
def bound? (i : Instance) (f : Firing) : Option (String × Binding) :=
  (keyText? f.key).bind fun key => (Entries.get? i.bindings key).map fun b => (key, b)

/-- The call that a firing leads to. -/
def call? (i : Instance) (state : Value) (f : Firing) : Option HandlerCall :=
  (f.bound? i).map fun e => ⟨e.2.handler, passed e.2 state f.args⟩

/-- What a record says of a firing that was handled, the results apart. -/
def heading? (i : Instance) (f : Firing) : Option (String × OutMode × List (Option Datum)) :=
  (f.bound? i).map fun e => (e.1, e.2.mode, f.args.map Value.datum?)

end Firing

namespace Dispatch

/-- Fires out-events in turn, up to the first that fails. -/
def fireAll (invoke : List Frame → Value → List Value → Run (List Value)) (state : Value) :
    List Firing → Run (List (List Value))
  | [] => pure []
  | f :: fs => do
    let values ← fire (invoke f.frames) f.frames (state :: f.key :: f.args)
    return values :: (← fireAll invoke state fs)

end Dispatch

/-- What firings make of a machine, as far as the build does not matter: handlers wrote `notes`
down, and the instance got `records`. -/
structure Fired (number : Nat) (i : Instance) (notes : List Value) (records : List OutRecord)
    (m m' : Machine) : Prop where
  tables : m'.tables = m.tables
  closures : m'.closures = m.closures
  cells : m'.cells = m.cells ++ notes.toArray
  callables : m'.callables = m.callables
  build : m'.build = m.build
  meter : m'.meter = m.meter
  fired : m'.instances[number]? = some { i with records := i.records ++ records }
  others : ∀ n, n ≠ number → m'.instances[n]? = m.instances[n]?

namespace Fired

variable {number : Nat} {i : Instance} {notes notes' : List Value}
  {records records' : List OutRecord} {m m₁ m₂ : Machine}

theorem refl (h : m.instances[number]? = some i) : Fired number i [] [] m m where
  tables := rfl
  closures := rfl
  cells := by simp
  callables := rfl
  build := rfl
  meter := rfl
  fired := by simpa using h
  others _ _ := rfl

theorem trans (h : Fired number i notes records m m₁)
    (h' : Fired number { i with records := i.records ++ records } notes' records' m₁ m₂) :
    Fired number i (notes ++ notes') (records ++ records') m m₂ where
  tables := h'.tables.trans h.tables
  closures := h'.closures.trans h.closures
  cells := by simp [h'.cells, h.cells]
  callables := h'.callables.trans h.callables
  build := h'.build.trans h.build
  meter := h'.meter.trans h.meter
  fired := by simp [h'.fired]
  others n hn := (h'.others n hn).trans (h.others n hn)

/-- A firing is the same under another build and with another meter. -/
theorem under (h : Fired number i notes records m m₁) (b : Build) (t : Meter) :
    Fired number i notes records (m.under b t) (m₁.under b t) :=
  { h with build := rfl, meter := rfl }

end Fired

/-- The machines that handlers are called in while firings go on in turn: such firings left one, and
the instance is suspended in it. -/
def Reached (number : Nat) (i : Instance) (m m' : Machine) : Prop :=
  ∃ notes records m₁, Fired number i notes records m m₁ ∧
    m' = m₁.setInstanceState number .suspended

namespace Reached

variable {number : Nat} {i : Instance} {m m₁ m₂ : Machine}

theorem start (h : m.instances[number]? = some i) :
    Reached number i m (m.setInstanceState number .suspended) :=
  ⟨[], [], m, .refl h, rfl⟩

/-- What is reached after firings is reached. -/
theorem after {notes : List Value} {records : List OutRecord}
    (h : Reached number { i with records := i.records ++ records } m₁ m₂)
    (hfired : Fired number i notes records m m₁) : Reached number i m m₂ := by
  obtain ⟨_, _, m₃, hfired', rfl⟩ := h
  exact ⟨_, _, m₃, hfired.trans hfired', rfl⟩

theorem jot (h : Reached number i m m₁) (vs : List Value) : Reached number i m (m₁.jot vs) := by
  obtain ⟨notes, records, m₂, hfired, rfl⟩ := h
  refine ⟨notes ++ vs, records, m₂.jot vs, { hfired with cells := ?_ }, rfl⟩
  simp [Machine.jot, hfired.cells]

theorem closures (h : Reached number i m m₁) : m₁.closures = m.closures := by
  obtain ⟨_, _, _, hfired, rfl⟩ := h
  exact hfired.closures

theorem callables (h : Reached number i m m₁) : m₁.callables = m.callables := by
  obtain ⟨_, _, _, hfired, rfl⟩ := h
  exact hfired.callables

theorem meter (h : Reached number i m m₁) : m₁.meter = m.meter := by
  obtain ⟨_, _, _, hfired, rfl⟩ := h
  exact hfired.meter

end Reached

namespace Dispatch

open Run

/-- **What a firing that finishes makes of a machine.** -/
theorem fire_effect {invoke : Value → List Value → Run (List Value)} {machines : Machine → Prop}
    {note : HandlerCall → List Value} {m m' : Machine} {number address : Nat} {i : Instance}
    {f : Firing} {values : List Value} (hi : m.instances[number]? = some i)
    (hfixed : ∀ key b, Entries.get? i.bindings key = some b →
      Fixed machines (fun args => note ⟨b.handler, args⟩) (invoke b.handler))
    (hm : machines (m.setInstanceState number .suspended))
    (h : fire invoke f.frames (.host address (.state number) :: f.key :: f.args) m =
      .done values m') :
    ∃ records : List OutRecord,
      records.map (fun r => (r.key, r.mode, r.args)) = [f].filterMap (Firing.heading? i) ∧
      Fired number i
        (([f].filterMap (Firing.call? i (.host address (.state number)))).flatMap note)
        records m m' := by
  obtain ⟨key, signature, hkey, -, -, hrest⟩ := (fire_done_iff hi).mp h
  rcases hrest with ⟨hunbound, -, rfl⟩ | ⟨b, hbound, hhandle⟩
  · have hnone : f.bound? i = none := by simp [Firing.bound?, hkey, hunbound]
    refine ⟨[], ?_, ?_⟩
    · simp [Firing.heading?, hnone]
    · simpa [Firing.call?, hnone] using Fired.refl hi
  · have hsome : f.bound? i = some (key, b) := by simp [Firing.bound?, hkey, hbound]
    obtain ⟨returned, m₁, results, hinvoke, -, rfl⟩ := handle_done_iff.mp hhandle
    obtain ⟨next, rfl⟩ := (hfixed key b hbound).effect hm hinvoke
    have hstate : m.instanceState number = i.state := by rw [instanceState, hi]
    refine ⟨[⟨key, b.mode, f.args.map Value.datum?, results⟩], ?_, ?_⟩
    · simp [Firing.heading?, hsome]
    · rw [hstate]
      constructor
      · rfl
      · rfl
      · simp [Firing.call?, hsome, jot, setInstanceState, changeInstance]
      · rfl
      · rfl
      · rfl
      · simp [getElem?_changeInstance, setInstanceState, jot, hi]
      · intro n hn
        simp [getElem?_changeInstance, setInstanceState, jot, Ne.symm hn]

/-- Firings succeed in turn if the first does and then the others. -/
theorem fireAll_cons_done_iff {invoke : List Frame → Value → List Value → Run (List Value)}
    {state : Value} {f : Firing} {fs : List Firing} {m m' : Machine} {answers : List (List Value)} :
    fireAll invoke state (f :: fs) m = .done answers m' ↔ ∃ values m₁ rest,
      fire (invoke f.frames) f.frames (state :: f.key :: f.args) m = .done values m₁ ∧
        fireAll invoke state fs m₁ = .done rest m' ∧ answers = values :: rest := by
  simp only [fireAll, bind_done_iff, pure_done_iff]
  constructor
  · rintro ⟨values, m₁, hfire, rest, _, hrest, rfl, rfl⟩
    exact ⟨values, m₁, rest, hfire, hrest, rfl⟩
  · rintro ⟨values, m₁, rest, hfire, hrest, rfl⟩
    exact ⟨values, m₁, hfire, rest, m', hrest, rfl, rfl⟩

section Handlers

variable {invoke : List Frame → Value → List Value → Run (List Value)}
  {machines : Machine → Prop} {note : HandlerCall → List Value} {number address : Nat}

/-- **What firings in turn make of a machine.** -/
theorem fireAll_effect {fs : List Firing} {m m' : Machine} {i : Instance}
    {answers : List (List Value)} (hi : m.instances[number]? = some i)
    (hfixed : ∀ key b, Entries.get? i.bindings key = some b → ∀ frames,
      Fixed machines (fun args => note ⟨b.handler, args⟩) (invoke frames b.handler))
    (hm : ∀ {m₁}, Reached number i m m₁ → machines m₁)
    (h : fireAll invoke (.host address (.state number)) fs m = .done answers m') :
    ∃ records : List OutRecord,
      records.map (fun r => (r.key, r.mode, r.args)) = fs.filterMap (Firing.heading? i) ∧
      Fired number i ((fs.filterMap (Firing.call? i (.host address (.state number)))).flatMap note)
        records m m' := by
  induction fs generalizing m i answers with
  | nil =>
    obtain ⟨-, rfl⟩ := pure_done_iff.mp h
    exact ⟨[], rfl, .refl hi⟩
  | cons f fs ih =>
    obtain ⟨values, m₁, rest, hfire, hrest, -⟩ := fireAll_cons_done_iff.mp h
    obtain ⟨records, hheading, hfired⟩ :=
      fire_effect hi (fun key b hb => hfixed key b hb f.frames) (hm (.start hi)) hfire
    obtain ⟨records', hheadings, hfired'⟩ :=
      ih hfired.fired hfixed (fun hreached => hm (hreached.after hfired)) hrest
    refine ⟨records ++ records', ?_, ?_⟩
    · rw [List.map_append, hheading, hheadings]
      exact (List.filterMap_append (l := [f])).symm
    · rw [← List.singleton_append, List.filterMap_append, List.flatMap_append]
      exact hfired.trans hfired'

/-- **Under another build firings finish in the same way** as under debug. -/
theorem fireAll_under {fs : List Firing} {m m' : Machine} {i : Instance}
    {answers : List (List Value)} (hi : m.instances[number]? = some i) (hdebug : m.build = .debug)
    (hfixed : ∀ key b, Entries.get? i.bindings key = some b → ∀ frames,
      Fixed machines (fun args => note ⟨b.handler, args⟩) (invoke frames b.handler))
    {b : Build} {t : Meter} (hm : ∀ {m₁}, Reached number i m m₁ → machines m₁)
    (hunder : ∀ {m₁}, Reached number i (m.under b t) m₁ → machines m₁)
    (h : fireAll invoke (.host address (.state number)) fs m = .done answers m') :
    fireAll invoke (.host address (.state number)) fs (m.under b t) =
      .done answers (m'.under b t) := by
  induction fs generalizing m i answers with
  | nil =>
    obtain ⟨rfl, rfl⟩ := pure_done_iff.mp h
    rfl
  | cons f fs ih =>
    obtain ⟨values, m₁, rest, hfire, hrest, rfl⟩ := fireAll_cons_done_iff.mp h
    have hstep := fun key b hb => hfixed key b hb f.frames
    obtain ⟨records, -, hfired⟩ := fire_effect hi hstep (hm (.start hi)) hfire
    have hfire' := fire_under hi hdebug hstep (hm (.start hi)) (hunder (.start hi)) hfire
    have hrest' := ih hfired.fired (hfired.build.trans hdebug) hfixed
      (fun hreached => hm (hreached.after hfired))
      (fun hreached => hunder (hreached.after (hfired.under b t))) hrest
    exact fireAll_cons_done_iff.mpr ⟨values, _, rest, hfire', hrest', rfl⟩

end Handlers

end Dispatch

/-! ## Functions of the host -/

/-- Data are embedded one after the other. -/
theorem embedAll_eq (m : Machine) (ds : List Datum) : m.embedAll ds =
    ((ds.zipIdx m.nextHost).map fun e => Value.ofDatum e.2 e.1,
      { m with nextHost := m.nextHost + ds.length }) := by
  induction ds generalizing m with
  | nil => rfl
  | cons d ds ih =>
    simp only [embedAll, embed, ih, List.zipIdx_cons, List.map_cons, List.length_cons]
    rw [Nat.add_assoc, Nat.add_comm 1]

namespace Dispatch

/-- What a function of the host answers to a call. -/
def hostAnswer (frames : List Frame) (g : HostFunction) (next : Nat) (args : List Value) :
    Except Failure (List Value × Nat) :=
  match argData 1 args with
  | .error reason =>
    .error (.reported (Failure.runtimeText reason) (Frame.traceback (.host :: frames)))
  | .ok ds =>
    match g ds with
    | .values rs => .ok ((rs.zipIdx next).map fun e => .ofDatum e.2 e.1, next + rs.length)
    | .failure text =>
      .error (.reported (Failure.runtimeText text) (Frame.traceback (.host :: frames)))
    | .crash reason => .error (.crashed reason)

/-- A function of the host answers what its arguments and the next address determine. -/
theorem callHost_eq (frames : List Frame) (g : HostFunction) (args : List Value) (m : Machine) :
    callHost frames g args m = m.answered (hostAnswer frames g m.nextHost args) := by
  unfold callHost hostAnswer
  cases argData 1 args with
  | error reason => rfl
  | ok ds =>
    dsimp only
    cases g ds with
    | values rs =>
      dsimp only
      rw [embedAll_eq]
      rfl
    | failure text => rfl
    | crash reason => rfl

/-- How a handler is called by a script at that depth. -/
def called (fuel depth : Nat) (frames : List Frame) : Value → List Value → Run (List Value) :=
  Run.call fuel (.host :: frames) (depth + handlerDepth)

/-- A handler that writes its calls down first. -/
def journaled (note : HandlerCall → List Value)
    (invoke : List Frame → Value → List Value → Run (List Value)) (frames : List Frame) (v : Value)
    (args : List Value) : Run (List Value) := fun m => invoke frames v args (m.jot (note ⟨v, args⟩))

end Dispatch

/-- A function of a script that returns its arguments. -/
def echoing (line : Nat) : Function := .mk line [] true [.ret line [.varargs]]

namespace Fixed

open Dispatch

variable {machines : Machine → Prop} {n : Nat}

/-- **Functions of the host are fixed**, where the calls are not too deep. -/
theorem callable {g : HostFunction} (hn : ∀ m, machines m → m.callables[n]? = some g) (fuel : Nat)
    {depth : Nat} (hdepth : depth + handlerDepth < depthLimit) (frames : List Frame) :
    Fixed machines (fun _ => []) (called (fuel + 1) depth frames (.callable n)) := by
  refine ⟨hostAnswer (.host :: frames) g, fun args m hm => ?_⟩
  have hjot : m.jot [] = m := by simp [jot]
  rw [hjot, ← callHost_eq, called, Run.call, if_neg (Nat.not_le.mpr hdepth)]
  simp only [bind, Run.read, hn m hm]

/-- **A function of a script that returns its arguments is fixed**, where no limit is enforced. -/
theorem echo {line : Nat} {scope : Scope} {source : String}
    (hn : ∀ m, machines m → m.closures[n]? = some ⟨echoing line, scope, source⟩)
    (hlimit : ∀ m, machines m → m.meter.limit = none) (fuel : Nat) {depth : Nat}
    (hdepth : depth + handlerDepth < depthLimit) (frames : List Frame) :
    Fixed machines (fun _ => []) (called (fuel + 6) depth frames (.closure n)) := by
  refine ⟨fun next args => .ok (args, next), fun args m hm => ?_⟩
  have hjot : m.jot [] = m := by simp [jot]
  have htick (frames : List Frame) : Run.tick frames m = .done () m := by
    simp only [Run.tick, hlimit m hm]
  rw [hjot, called, Run.call, if_neg (Nat.not_le.mpr hdepth)]
  simp only [bind, Run.read, hn m hm, Option.getD_some, echoing, Run.bindNames, pure, Run.block,
    Run.statement, Run.returned, Run.valueList, Run.values, htick]
  rfl

theorem journaled {note : HandlerCall → List Value}
    {invoke : List Frame → Value → List Value → Run (List Value)} {frames : List Frame} {v : Value}
    (h : Fixed machines (fun _ => []) (invoke frames v))
    (hnotes : ∀ m vs, machines m → machines (m.jot vs)) :
    Fixed machines (fun args => note ⟨v, args⟩) (journaled note invoke frames v) := by
  obtain ⟨answer, hanswer⟩ := h
  refine ⟨answer, fun args m hm => ?_⟩
  have hjot (vs : List Value) : (m.jot vs).jot [] = m.jot vs := by simp [jot]
  rw [Dispatch.journaled, hanswer args (m.jot (note ⟨v, args⟩)) (hnotes m _ hm), hjot]
  rfl

end Fixed

namespace Dispatch

/-- **Switching the build changes checks and reports only.**  Let firings of an instance finish in
turn under debug, and let its handlers be fixed functions in the machines that they are called in,
there and under another build with any meter.  In the same machine under the other build the firings
finish with the same answers, and leave the same machine.  Handlers were called for the bound keys in
turn, each with what was passed (`Firing.call?`); each call is recorded after the records that were
there; and the instance is in the state in which it was. -/
theorem builds_agree (invoke : List Frame → Value → List Value → Run (List Value))
    (note : HandlerCall → List Value) (m m' : Machine) (number address : Nat) (i : Instance)
    (fs : List Firing) (answers : List (List Value)) (hi : m.instances[number]? = some i)
    (b : Build) (t : Meter)
    (hfixed : ∀ key bound, Entries.get? i.bindings key = some bound → ∀ frames,
      Fixed (fun m₁ => Reached number i m m₁ ∨ Reached number i (m.under b t) m₁)
        (fun args => note ⟨bound.handler, args⟩) (invoke frames bound.handler))
    (hdebug : m.build = .debug)
    (h : fireAll invoke (.host address (.state number)) fs m = .done answers m') :
    fireAll invoke (.host address (.state number)) fs (m.under b t) =
      .done answers (m'.under b t) ∧
    ∃ records : List OutRecord,
      records.map (fun r => (r.key, r.mode, r.args)) = fs.filterMap (Firing.heading? i) ∧
      Fired number i ((fs.filterMap (Firing.call? i (.host address (.state number)))).flatMap note)
        records m m' :=
  ⟨fireAll_under hi hdebug hfixed .inl .inr h, fireAll_effect hi hfixed .inl h⟩

/-- A stall with a handler of the host that thanks for sales, one of a script for audits, and none
for its closing. -/
def stall : Instance where
  owner := ⟨1⟩
  interface := { outs := [⟨"sold", [⟨"paid", .boolean⟩], [⟨"thanked", .boolean⟩]⟩,
    ⟨"audit", [], []⟩, ⟨"closed", [], []⟩] }
  chunk := "stall"
  text := ""
  inputs := {}
  debugMap := default
  state := .running
  bindings := [("sold", ⟨.result, .callable 0⟩), ("audit", ⟨.immediate, .closure 0⟩)]

/-- A machine with the stall, a function of its host and one of a script. -/
def market : Machine where
  tables := #[]
  closures := #[⟨echoing 1, [], "audit"⟩]
  callables := #[fun _ => .values [.boolean true, .boolean false]]
  instances := #[stall]

/-- A sale, the closing, and an audit. -/
def sales : List Firing :=
  [⟨[], .ofText "sold", [.boolean false]⟩, ⟨[], .ofText "closed", []⟩, ⟨[], .ofText "audit", []⟩]

/-- Handlers that are called by scripts and write down all of each call. -/
def watched : List Frame → Value → List Value → Run (List Value) :=
  journaled (fun c => c.handler :: c.args) (called 6 0)

/-- Both handlers are fixed, in every build and with every meter that enforces no limit. -/
theorem stall_fixed {b : Build} {t : Meter} (ht : t.limit = none) (key : String) (bound : Binding)
    (h : Entries.get? stall.bindings key = some bound) (frames : List Frame) :
    Fixed (fun m₁ => Reached 0 stall market m₁ ∨ Reached 0 stall (market.under b t) m₁)
      (fun args => bound.handler :: args) (watched frames bound.handler) := by
  have hmem : bound = ⟨.result, .callable 0⟩ ∨ bound = ⟨.immediate, .closure 0⟩ := by
    simpa [stall, or_comm] using List.mem_map_of_mem (f := Prod.snd) (Entries.mem_of_get? h)
  have hnotes : ∀ m vs, Reached 0 stall market m ∨ Reached 0 stall (market.under b t) m →
      Reached 0 stall market (m.jot vs) ∨ Reached 0 stall (market.under b t) (m.jot vs) :=
    fun _ vs hm => hm.imp (·.jot vs) (·.jot vs)
  rcases hmem with rfl | rfl
  · have hoffered : ∀ m, Reached 0 stall market m ∨ Reached 0 stall (market.under b t) m →
        m.callables[0]? = some fun _ => .values [.boolean true, .boolean false] := by
      intro m hm
      have hcallables : m.callables = market.callables := hm.elim (·.callables) (·.callables)
      rw [hcallables]
      rfl
    exact .journaled (.callable hoffered 5 (by decide) frames) hnotes
  · have hmade : ∀ m, Reached 0 stall market m ∨ Reached 0 stall (market.under b t) m →
        m.closures[0]? = some ⟨echoing 1, [], "audit"⟩ := by
      intro m hm
      have hclosures : m.closures = market.closures := hm.elim (·.closures) (·.closures)
      rw [hclosures]
      rfl
    have hlimit : ∀ m, Reached 0 stall market m ∨ Reached 0 stall (market.under b t) m →
        m.meter.limit = none := by
      rintro m (hm | hm)
      · rw [hm.meter]
        rfl
      · rw [hm.meter]
        exact ht
    exact .journaled (.echo hmade hlimit 0 (by decide) frames) hnotes

/-- Whatever build the market is switched to, the sale is answered with the one declared result, the
two handlers are called, and the stall goes on running. -/
theorem market_builds_agree : ∃ m',
    fireAll watched (.host 0 (.state 0)) sales market = .done [[.boolean true], [], []] m' ∧
      (∀ b : Build, fireAll watched (.host 0 (.state 0)) sales
          (({ machine := market } : Vm).setBuild b).machine =
        .done [[.boolean true], [], []] (({ machine := m' } : Vm).setBuild b).machine) ∧
      m'.cells = #[.callable 0, .boolean false, .closure 0] ∧
      m'.instances[0]?.map (·.state) = some .running := by
  have hrun : ∃ m', fireAll watched (.host 0 (.state 0)) sales market =
      .done [[.boolean true], [], []] m' := ⟨_, rfl⟩
  obtain ⟨m', hm'⟩ := hrun
  have hagree (b : Build) (t : Meter) (ht : t.limit = none) := builds_agree watched
    (fun c => c.handler :: c.args) market m' 0 0 stall sales [[.boolean true], [], []] rfl b t
    (stall_fixed ht) rfl hm'
  obtain ⟨-, records, -, hfired⟩ := hagree .debug {} rfl
  refine ⟨m', hm', fun b => ?_, ?_, ?_⟩
  · have hmeter : m'.meter = market.meter := hfired.meter
    have hlimit : (({ machine := market } : Vm).setBuild b).machine.meter.limit = none := by
      cases b <;> rfl
    simp only [Vm.setBuild, Vm.installLimit, hmeter]
    exact (hagree b _ hlimit).1
  · rw [hfired.cells]
    rfl
  · rw [hfired.fired]
    rfl

end Dispatch

end Machine

end GraphScript
