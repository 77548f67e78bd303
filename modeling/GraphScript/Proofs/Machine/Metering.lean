import GraphScript.Proofs.Machine.Evolution

/-!
# Proofs/Machine/Metering — instructions that were used before

A script cannot read the meter.  It can only be ended by it, at a look that finds more instructions
used than the limit allows; nothing in a script goes on after that.  So take a run in a machine, and
the same run where `d` more instructions have been used before: they go in step, up to a look that
ends the second (`Metered.charged_cases`).

Which of the two it is can be told from the first run alone: the second is ended by the meter
exactly if the first has a look and, with `d` more, ends beyond the limit
(`Metered.stopped_charged_iff`).
-/

namespace GraphScript

namespace Machine

open Script

/-- The machine after `d` more instructions. -/
def charged (d : Nat) (m : Machine) : Machine :=
  { m with meter := { m.meter with used := m.meter.used + d } }

namespace Outcome

variable {α : Type}

/-- The same outcome, in a machine after `d` more instructions. -/
def charged (d : Nat) : Outcome α → Outcome α
  | .done a m => .done a (m.charged d)
  | .failed e m => .failed e (m.charged d)
  | .exhausted m => .exhausted (m.charged d)

/-- The run failed. -/
def IsFailed : Outcome α → Prop
  | .failed _ _ => True
  | _ => False

theorem IsFailed.exists {o : Outcome α} (h : o.IsFailed) : ∃ e m, o = .failed e m := by
  cases o with
  | failed e m => exact ⟨e, m, rfl⟩
  | done | exhausted => exact h.elim

@[simp] theorem machine_charged (d : Nat) (o : Outcome α) :
    (o.charged d).machine = o.machine.charged d := by
  cases o <;> rfl

/-- A run from a machine was ended by the meter: it failed, and the instructions used have grown
beyond the limit. -/
structure Stopped (m : Machine) (limit : Nat) (o : Outcome α) : Prop where
  failed : o.IsFailed
  beyond : limit < o.machine.meter.used
  grown : m.meter.used < o.machine.meter.used

end Outcome

/-- What a run can do to the meter: it counts an interval at each look, and goes on only within the
limit. -/
structure Meters {α : Type} (m : Machine) (o : Outcome α) : Prop where
  limit : o.machine.meter.limit = m.meter.limit
  interval : o.machine.meter.interval = m.meter.interval
  looks : ∃ n, o.machine.meter.used = m.meter.used + n * m.meter.interval
  within {limit : Nat} (hlimit : m.meter.limit = some limit)
    (hgrown : m.meter.used < o.machine.meter.used) : o.machine.meter.used ≤ limit ∨ o.IsFailed

theorem Meters.le {α : Type} {m : Machine} {o : Outcome α} (h : Meters m o) :
    m.meter.used ≤ o.machine.meter.used := by
  obtain ⟨n, hn⟩ := h.looks
  rw [hn]
  exact Nat.le_add_right _ _

/-- What is metered in turn is metered together. -/
theorem Meters.trans {α β : Type} {m m₁ : Machine} {a : α} {o : Outcome β}
    (h : Meters m (.done a m₁)) (h' : Meters m₁ o) : Meters m o where
  limit := h'.limit.trans h.limit
  interval := h'.interval.trans h.interval
  looks := by
    have hinterval : m₁.meter.interval = m.meter.interval := h.interval
    obtain ⟨n, hn : m₁.meter.used = _⟩ := h.looks
    obtain ⟨n', hn'⟩ := h'.looks
    exact ⟨n + n', by rw [hn', hn, hinterval, Nat.add_mul, Nat.add_assoc]⟩
  within hlimit hgrown := by
    obtain heq | hlt := Nat.eq_or_lt_of_le h'.le
    · rw [← heq] at hgrown ⊢
      exact .inl ((h.within hlimit hgrown).resolve_right id)
    · exact h'.within (h.limit.trans hlimit) hlt

/-- Of a machine only the meter matters, and of an outcome the meter and whether it is a failure. -/
theorem Meters.congr {α β : Type} {m m' : Machine} {o : Outcome α} {o' : Outcome β}
    (h : Meters m o) (hm : m'.meter = m.meter) (ho : o'.machine.meter = o.machine.meter)
    (hfailed : o.IsFailed → o'.IsFailed) : Meters m' o' where
  limit := by rw [ho, hm, h.limit]
  interval := by rw [ho, hm, h.interval]
  looks := by
    rw [ho, hm]
    exact h.looks
  within hlimit hgrown := by
    rw [hm] at hlimit
    rw [hm, ho] at hgrown
    rw [ho]
    exact (h.within hlimit hgrown).imp_right hfailed

namespace Run

variable {α β : Type}

/-- What a run does to the meter, and what instructions used before do to the run: they make no
difference, or the run is ended by the meter, and it has a look where it would be without them. -/
structure Metered (r : Run α) : Prop where
  meters (m : Machine) : Meters m (r m)
  charged_cases {m : Machine} {limit : Nat} (hlimit : m.meter.limit = some limit)
    (hinterval : 0 < m.meter.interval) (d : Nat) :
      r (m.charged d) = (r m).charged d ∨
        (r (m.charged d)).Stopped (m.charged d) limit ∧
          m.meter.used < (r m).machine.meter.used ∧ limit < (r m).machine.meter.used + d

/-! ## One run after the other -/

section Bind

variable {r : Run α} {f : α → Run β} {m m₁ : Machine}

theorem bind_of_done {a : α} (h : r m = .done a m₁) : (r >>= f) m = f a m₁ := by
  simp only [bind, h]

theorem bind_of_failed {e : Failure} (h : r m = .failed e m₁) : (r >>= f) m = .failed e m₁ := by
  simp only [bind, h]

theorem bind_of_exhausted (h : r m = .exhausted m₁) : (r >>= f) m = .exhausted m₁ := by
  simp only [bind, h]

theorem meters_bind (hr : Meters m (r m)) (hf : ∀ a m, Meters m (f a m)) :
    Meters m ((r >>= f) m) ∧ (r m).machine.meter.used ≤ ((r >>= f) m).machine.meter.used := by
  cases hm : r m with
  | done a m₁ =>
    rw [hm] at hr
    rw [bind_of_done hm]
    exact ⟨hr.trans (hf a m₁), (hf a m₁).le⟩
  | failed e m₁ =>
    rw [hm] at hr
    rw [bind_of_failed hm]
    exact ⟨hr.congr rfl rfl id, Nat.le_refl _⟩
  | exhausted m₁ =>
    rw [hm] at hr
    rw [bind_of_exhausted hm]
    exact ⟨hr.congr rfl rfl id, Nat.le_refl _⟩

/-- Runs in turn are metered if each of them is. -/
theorem metered_bind (hr : Metered r) (hf : ∀ a, Metered (f a)) : Metered (r >>= f) where
  meters m := (meters_bind (hr.meters m) fun a => (hf a).meters).1
  charged_cases {m limit} hlimit hinterval d := by
    have hfirst := hr.meters m
    obtain heq | ⟨hstopped, hgrown, hover⟩ := hr.charged_cases hlimit hinterval d
    · cases hm : r m with
      | done a m₁ =>
        rw [hm] at heq hfirst
        rw [bind_of_done hm, bind_of_done heq]
        obtain heq' | ⟨hstopped, hgrown, hover⟩ := (hf a).charged_cases
          (hfirst.limit.trans hlimit) (Nat.lt_of_lt_of_eq hinterval hfirst.interval.symm) d
        · exact .inl heq'
        · exact .inr ⟨⟨hstopped.failed, hstopped.beyond,
            Nat.lt_of_le_of_lt (Nat.add_le_add_right hfirst.le d) hstopped.grown⟩,
            Nat.lt_of_le_of_lt hfirst.le hgrown, hover⟩
      | failed e m₁ =>
        rw [hm] at heq
        rw [bind_of_failed hm, bind_of_failed heq]
        exact .inl rfl
      | exhausted m₁ =>
        rw [hm] at heq
        rw [bind_of_exhausted hm, bind_of_exhausted heq]
        exact .inl rfl
    · have hle := (meters_bind hfirst fun a => (hf a).meters).2
      obtain ⟨e, m₁, hm⟩ := hstopped.failed.exists
      rw [hm] at hstopped
      rw [bind_of_failed hm]
      exact .inr ⟨⟨trivial, hstopped.beyond, hstopped.grown⟩, Nat.lt_of_lt_of_le hgrown hle,
        Nat.lt_of_lt_of_le hover (Nat.add_le_add_right hle d)⟩

end Bind

/-! ## Steps -/

/-- A run that leaves the meter alone, and that the meter does not matter to. -/
theorem metered_of_blind {r : Run α} (hmeter : ∀ m, (r m).machine.meter = m.meter)
    (hcharged : ∀ m d, r (m.charged d) = (r m).charged d) : Metered r where
  meters m := by
    have hused : ¬ m.meter.used < (r m).machine.meter.used := by
      rw [hmeter]
      exact Nat.lt_irrefl _
    exact ⟨by rw [hmeter], by rw [hmeter], ⟨0, by rw [hmeter, Nat.zero_mul, Nat.add_zero]⟩,
      fun _ hgrown => absurd hgrown hused⟩
  charged_cases _ _ d := .inl (hcharged _ d)

theorem metered_quiet {f : Machine → α × Machine} (hf : Quiet f) : Metered (step f) := by
  have hkept : ∀ m, (f m).2.meter = m.meter := fun m =>
    congrArg (fun r => r.2.meter) (hf.meter m m.meter)
  refine metered_of_blind hkept fun m d => ?_
  have hcharged : f (m.charged d) = ((f m).1, (f m).2.charged d) := by
    rw [charged, charged, hkept m]
    exact hf.meter m _
  simp only [step, hcharged]
  rfl

section Tick

variable {frames : List Frame} {m : Machine} {limit : Nat}

/-- The machine after a look at the limit. -/
def looked (m : Machine) : Machine :=
  { m with meter := { m.meter with
    countdown := m.meter.interval
    used := m.meter.used + m.meter.interval } }

/-- The failure of a run that the meter ends. -/
def excess (frames : List Frame) (limit : Nat) : Failure :=
  .reported (Failure.runtimeText s!"instruction limit of {limit} exceeded") (Frame.traceback frames)

theorem tick_of_none (h : m.meter.limit = none) : tick frames m = .done () m := by
  simp only [tick, h]

theorem tick_of_counting (h : m.meter.limit = some limit) (hcount : ¬ m.meter.countdown ≤ 1) :
    tick frames m = .done () { m with meter := { m.meter with
      countdown := m.meter.countdown - 1 } } := by
  simp only [tick, Meter.tick, h, hcount, if_false, if_true]

/-- At the end of an interval the meter looks at the limit. -/
theorem tick_of_looking (h : m.meter.limit = some limit) (hcount : m.meter.countdown ≤ 1) :
    tick frames m = if m.meter.used + m.meter.interval ≤ limit then .done () (looked m)
      else .failed (excess frames limit) (looked m) := by
  simp only [tick, Meter.tick, h, hcount, if_true, decide_eq_true_eq, looked, excess]

end Tick

/-- An instruction is metered. -/
theorem metered_tick (frames : List Frame) : Metered (tick frames) where
  meters m := by
    cases hlimit : m.meter.limit with
    | none =>
      rw [tick_of_none hlimit]
      exact ⟨rfl, rfl, ⟨0, by rw [Nat.zero_mul]; rfl⟩, fun _ h => absurd h (Nat.lt_irrefl _)⟩
    | some limit =>
      by_cases hcount : m.meter.countdown ≤ 1
      · rw [tick_of_looking hlimit hcount]
        have hlook : (looked m).meter.used = m.meter.used + 1 * m.meter.interval := by
          rw [Nat.one_mul]
          rfl
        split
        · rename_i hfine
          refine ⟨rfl, rfl, ⟨1, hlook⟩, fun hlimit' _ => .inl ?_⟩
          obtain rfl := Option.some.inj (hlimit.symm.trans hlimit')
          exact hfine
        · exact ⟨rfl, rfl, ⟨1, hlook⟩, fun _ _ => .inr trivial⟩
      · rw [tick_of_counting hlimit hcount]
        exact ⟨rfl, rfl, ⟨0, by rw [Nat.zero_mul]; rfl⟩, fun _ h => absurd h (Nat.lt_irrefl _)⟩
  charged_cases {m limit} hlimit hinterval d := by
    have hlimit' : (m.charged d).meter.limit = some limit := hlimit
    by_cases hcount : m.meter.countdown ≤ 1
    · have hcount' : (m.charged d).meter.countdown ≤ 1 := hcount
      have hlooked : looked (m.charged d) = (looked m).charged d := by
        simp only [looked, charged, Nat.add_right_comm]
      have hused : (m.charged d).meter.used + (m.charged d).meter.interval =
          m.meter.used + m.meter.interval + d := Nat.add_right_comm _ _ _
      rw [tick_of_looking hlimit hcount, tick_of_looking hlimit' hcount', hlooked, hused]
      by_cases hfine : m.meter.used + m.meter.interval + d ≤ limit
      · rw [if_pos hfine, if_pos (Nat.le_trans (Nat.le_add_right _ _) hfine)]
        exact .inl rfl
      · rw [if_neg hfine]
        by_cases hfirst : m.meter.used + m.meter.interval ≤ limit
        · rw [if_pos hfirst]
          have hgrown : m.meter.used < (looked m).meter.used := Nat.lt_add_of_pos_right hinterval
          exact .inr ⟨⟨trivial, Nat.lt_of_not_le hfine, Nat.add_lt_add_right hgrown d⟩, hgrown,
            Nat.lt_of_not_le hfine⟩
        · rw [if_neg hfirst]
          exact .inl rfl
    · have hcount' : ¬ (m.charged d).meter.countdown ≤ 1 := hcount
      rw [tick_of_counting hlimit hcount, tick_of_counting hlimit' hcount']
      exact .inl rfl

/-- Every step is metered. -/
theorem stepwise_metered : Stepwise @Metered where
  fail _ := metered_of_blind (fun _ => rfl) fun _ _ => rfl
  exhaust := metered_of_blind (fun _ => rfl) fun _ _ => rfl
  bind := metered_bind
  quiet := metered_quiet
  tick := metered_tick
  log _ _ := metered_of_blind (fun _ => rfl) fun _ _ => rfl

end Run

/-! ## Handlers -/

namespace Dispatch

open Run

theorem metered_accept (frames : List Frame) (number : Nat) (signature : Signature) (key : String)
    (mode : OutMode) (args returned : List Value) :
    Metered (accept frames number signature key mode args returned) := by
  have hrecord : ∀ r, Metered (record number r) := fun r =>
    metered_of_blind (fun _ => rfl) fun _ _ => rfl
  cases mode with
  | immediate => exact metered_bind (hrecord _) fun _ => stepwise_metered.pure _
  | result | userSubgraph =>
    simp only [accept]
    cases resultData key (signature.returns.zip (Value.fit signature.returns.length returned)) with
    | error reason => exact stepwise_metered.complain _ _
    | ok results => exact metered_bind (hrecord _) fun _ => stepwise_metered.pure _

/-- A run while an instance is suspended; its failure is told in other words. -/
def suspending {α : Type} (number : Nat) (tell : Failure → Failure) (r : Run α) : Run α := fun m =>
  match r (m.setInstanceState number .suspended) with
  | .done a m' => .done a (m'.setInstanceState number (m.instanceState number))
  | .failed e m' => .failed (tell e) (m'.setInstanceState number (m.instanceState number))
  | .exhausted m' => .exhausted (m'.setInstanceState number (m.instanceState number))

/-- What a handler returned is taken over after it ran. -/
theorem handle_eq (invoke : Value → List Value → Run (List Value)) (frames : List Frame)
    (number : Nat) (signature : Signature) (key : String) (b : Binding) (state : Value)
    (args : List Value) : handle invoke frames number signature key b state args =
      suspending number (fun e => .reported (Failure.runtimeText
          s!"out '{key}' handler failed: {e.text}") (Frame.traceback (.host :: frames)))
        (invoke b.handler (if b.mode = .userSubgraph then state :: args else args)) >>=
      accept frames number signature key b.mode args := by
  funext m
  simp only [handle, bind, suspending]
  cases invoke b.handler (if b.mode = .userSubgraph then state :: args else args)
    (m.setInstanceState number .suspended) with
  | done | failed | exhausted => rfl

section Suspending

variable {α : Type} (number : Nat) (tell : Failure → Failure) (r : Run α) (m : Machine)

theorem meter_suspending : (suspending number tell r m).machine.meter =
    (r (m.setInstanceState number .suspended)).machine.meter := by
  rw [suspending]
  cases r (m.setInstanceState number .suspended) with
  | done | failed | exhausted => rfl

theorem isFailed_suspending (h : (r (m.setInstanceState number .suspended)).IsFailed) :
    (suspending number tell r m).IsFailed := by
  obtain ⟨e, m', hm⟩ := h.exists
  rw [suspending, hm]
  trivial

variable {r}

theorem metered_suspending (hr : Metered r) : Metered (suspending number tell r) where
  meters m := (hr.meters (m.setInstanceState number .suspended)).congr rfl
    (meter_suspending number tell r m) (isFailed_suspending number tell r m)
  charged_cases {m limit} hlimit hinterval d := by
    have hcharged : (m.charged d).setInstanceState number .suspended =
      (m.setInstanceState number .suspended).charged d := rfl
    rw [meter_suspending]
    obtain heq | ⟨hstopped, hlook⟩ :=
      hr.charged_cases (m := m.setInstanceState number .suspended) hlimit hinterval d
    · refine .inl ?_
      simp only [suspending, hcharged, heq]
      cases r (m.setInstanceState number .suspended) with
      | done | failed | exhausted => rfl
    · rw [← hcharged] at hstopped
      have hmeter := meter_suspending number tell r (m.charged d)
      refine .inr ⟨⟨isFailed_suspending number tell r _ hstopped.failed, ?_, ?_⟩, hlook⟩
      · rw [hmeter]
        exact hstopped.beyond
      · rw [hmeter]
        exact hstopped.grown

end Suspending

section Handlers

variable {invoke : Value → List Value → Run (List Value)}
  (hinvoke : ∀ f args, Metered (invoke f args))

include hinvoke

theorem metered_handle (frames : List Frame) (number : Nat) (signature : Signature) (key : String)
    (b : Binding) (state : Value) (args : List Value) :
    Metered (handle invoke frames number signature key b state args) := by
  rw [handle_eq]
  exact metered_bind (metered_suspending _ _ (hinvoke _ _)) fun _ => metered_accept _ _ _ _ _ _ _

/-- A firing is metered if its handler is. -/
theorem metered_fire (frames : List Frame) (args : List Value) :
    Metered (fire invoke frames args) := by
  unfold fire
  split
  · refine metered_bind (stepwise_metered.keyOf frames _) fun key => ?_
    refine metered_bind (stepwise_metered.instanceOf frames _) fun number => ?_
    refine metered_bind (stepwise_metered.read fun _ _ => rfl) fun i? => ?_
    cases i? with
    | none => exact stepwise_metered.complain _ _
    | some i =>
      dsimp only
      split
      · exact stepwise_metered.complain _ _
      · refine metered_bind (stepwise_metered.read fun _ _ => rfl) fun build => ?_
        extract_lets
        split
        · exact stepwise_metered.complain _ _
        · split
          · exact stepwise_metered.pure _
          · exact metered_handle hinvoke _ _ _ _ _ _ _
  · exact stepwise_metered.complain _ _

end Handlers

end Dispatch

namespace Run

variable {α : Type}

/-- **Every run is metered.** -/
theorem closed_metered : Closed @Metered where
  toStepwise := stepwise_metered
  fire := Dispatch.metered_fire

/-- All that scripts do is metered. -/
theorem meteredAt (fuel : Nat) : HoldsAt @Metered fuel := closed_metered.holdsAt fuel

namespace Metered

variable {r : Run α} (hr : Metered r) {m : Machine} {limit : Nat}
  (hlimit : m.meter.limit = some limit)

include hr hlimit

/-- A run is ended by the meter exactly if it has a look and ends beyond the limit. -/
theorem stopped_iff : (r m).Stopped m limit ↔
    m.meter.used < (r m).machine.meter.used ∧ limit < (r m).machine.meter.used := by
  constructor
  · exact fun h => ⟨h.grown, h.beyond⟩
  · rintro ⟨hgrown, hover⟩
    exact ⟨((hr.meters m).within hlimit hgrown).resolve_left (Nat.not_le_of_lt hover), hover,
      hgrown⟩

variable (hinterval : 0 < m.meter.interval) (d : Nat)

include hinterval

/-- **Instructions used before count**: the meter ends a run exactly if it has a look without them,
and ends beyond the limit with them. -/
theorem stopped_charged_iff : (r (m.charged d)).Stopped (m.charged d) limit ↔
    m.meter.used < (r m).machine.meter.used ∧ limit < (r m).machine.meter.used + d := by
  obtain heq | ⟨hstopped, hlook⟩ := hr.charged_cases hlimit hinterval d
  · have hiff := hr.stopped_iff (m := m.charged d) hlimit
    rw [heq, Outcome.machine_charged] at hiff
    rw [heq, hiff]
    exact and_congr_left fun _ => Nat.add_lt_add_iff_right
  · exact iff_of_true hstopped hlook

/-- Where the meter does not end a run, instructions spent before make no difference. -/
theorem eq_charged_of_not_stopped (h : ¬ (r (m.charged d)).Stopped (m.charged d) limit) :
    r (m.charged d) = (r m).charged d :=
  (hr.charged_cases hlimit hinterval d).resolve_right fun hstopped => h hstopped.1

end Metered

end Run

end Machine

end GraphScript
