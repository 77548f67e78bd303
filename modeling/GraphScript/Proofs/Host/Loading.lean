import GraphScript.Proofs.Host.Regime

/-!
# Proofs/Host/Loading — chunks under a limit

A call starts with the meter at zero, but a chunk is evaluated with the meter as it stands.  With
the meter at zero it would use so many instructions (`Vm.spent`); what was used before changes
nothing in what comes of it, unless the meter ends it.  And that it does if what was used before and
what the chunk uses by itself are together beyond the limit and there is a look at all.  So a chunk
that is within the limit by itself is ended after other runs, and after a call that was ended no
chunk with a look can be loaded (`Vm.independent_iff`).
-/

namespace GraphScript

open Machine (Failure Outcome Run)
open Script (Value)

namespace Vm

/-! ## Evaluating a chunk -/

/-- The instructions used since the meter was at zero. -/
def used (vm : Vm) : Nat := vm.machine.meter.used

/-- The machine after `d` more instructions. -/
def charged (d : Nat) (vm : Vm) : Vm := { vm with machine := vm.machine.charged d }

/-- The machine with the meter at zero. -/
def rested (vm : Vm) : Vm :=
  { vm with machine := { vm.machine with meter := { vm.machine.meter with used := 0 } } }

/-- A machine is what it is when rested, charged with what it used. -/
theorem charged_rested (vm : Vm) : vm.rested.charged vm.used = vm := by
  simp only [charged, rested, Machine.charged, used, Nat.zero_add]

/-- What becomes of a chunk that came to an outcome. -/
def evaluated (vm : Vm) (name : String) : Outcome (List Value) → Except HostError Value × Vm
  | .done vs m => (.ok (vs.headD .nil), { vm with machine := m })
  | .failed e m => (.error (.load name (vm.failureText e)), { vm with machine := m })
  | .exhausted m => (.error .unfinished, { vm with machine := m })

theorem used_evaluated (vm : Vm) (name : String) (o : Outcome (List Value)) :
    (vm.evaluated name o).2.used = o.machine.meter.used := by
  cases o <;> rfl

/-- What was used before is carried through an evaluation. -/
theorem evaluated_charged (vm : Vm) (name : String) (o : Outcome (List Value)) (d : Nat) :
    (vm.charged d).evaluated name (o.charged d) =
      ((vm.evaluated name o).1, (vm.evaluated name o).2.charged d) := by
  cases o <;> rfl

/-- An evaluation gives the first value of what ran. -/
theorem run_evaluated (name : String) (r : Run (List Value)) (vm : Vm) :
    (do return (← Vm.run (.load name) r).headD .nil : Op Value).run.run vm =
      vm.evaluated name (r vm.machine) := by
  cases h : r vm.machine with
  | done vs m =>
    rw [Op.run_bind_ok (run_of_done h)]
    rfl
  | failed e m =>
    rw [Op.run_bind_error (run_of_failed h)]
    rfl
  | exhausted m =>
    rw [Op.run_bind_error (run_of_exhausted h)]
    rfl

/-- A chunk is refused before it runs, in every machine alike, or it runs. -/
theorem evalChunk_cases (name source : String) :
    (∃ e, ∀ vm, (evalChunk name source).run.run vm = (.error e, vm)) ∨
    ∃ r : Nat → Run (List Value), (∀ budget, (r budget).Metered) ∧
      ∀ vm, (evalChunk name source).run.run vm = vm.evaluated name (r vm.budget vm.machine) := by
  unfold evalChunk
  split
  · exact .inl ⟨_, fun _ => rfl⟩
  · split
    · exact .inl ⟨_, fun _ => rfl⟩
    · rename_i body _
      refine .inr ⟨fun budget => Run.newClosure ⟨.mk 0 [] true body, [],
          Script.Chunk.shownName name⟩ >>= fun main => Run.call budget [] 0 main [],
        fun budget => Run.metered_bind (Run.closed_metered.newClosure _) fun _ =>
          (Run.meteredAt _).call _ _ _ _, fun vm => ?_⟩
      have hget : (get : Op Vm).run.run vm = (.ok vm, vm) := rfl
      rw [Op.run_bind_ok hget]
      exact run_evaluated name _ vm

/-- What the meter shows after a chunk was evaluated. -/
def reading (vm : Vm) (name source : String) : Nat := ((evalChunk name source).run.run vm).2.used

/-- The instructions that a chunk uses by itself, as far as the meter has looked. -/
def spent (vm : Vm) (name source : String) : Nat := vm.rested.reading name source

end Vm

/-! ## Operations that the meter ends -/

namespace Op

variable {α β : Type}

/-- The operation was ended by the meter: it was refused, and the instructions used have grown
beyond the limit. -/
structure Stopped (vm : Vm) (limit : Nat) (x : Op α) : Prop where
  refused : ∃ e, (x.run.run vm).1 = .error e
  beyond : limit < (x.run.run vm).2.used
  grown : vm.used < (x.run.run vm).2.used

variable {vm vm' : Vm} {limit : Nat} {name source : String}

/-- An operation that failed was stopped if it passed the limit by itself. -/
theorem stopped_iff_of_error {x : Op α} {e : HostError} (h : x.run.run vm = (.error e, vm')) :
    Stopped vm limit x ↔ limit < vm'.used ∧ vm.used < vm'.used := by
  constructor
  · rintro ⟨-, hbeyond, hgrown⟩
    rw [h] at hbeyond hgrown
    exact ⟨hbeyond, hgrown⟩
  · rintro ⟨hbeyond, hgrown⟩
    exact ⟨⟨e, by rw [h]⟩, by rw [h]; exact hbeyond, by rw [h]; exact hgrown⟩

theorem not_stopped_of_ok {x : Op α} {a : α} (h : x.run.run vm = (.ok a, vm')) :
    ¬ Stopped vm limit x := by
  rintro ⟨⟨e, he⟩, -, -⟩
  rw [h] at he
  cases he

/-- An evaluation is stopped exactly if its run is. -/
theorem stopped_evaluated_iff {r : Run (List Value)} (hr : r.Metered)
    (heval : (Vm.evalChunk name source).run.run vm = vm.evaluated name (r vm.machine))
    (hlimit : vm.machine.meter.limit = some limit) :
    Stopped vm limit (Vm.evalChunk name source) ↔ (r vm.machine).Stopped vm.machine limit := by
  have hused : ((Vm.evalChunk name source).run.run vm).2.used =
      (r vm.machine).machine.meter.used := by rw [heval, Vm.used_evaluated]
  constructor
  · rintro ⟨-, hbeyond, hgrown⟩
    rw [hused] at hbeyond hgrown
    exact (hr.stopped_iff hlimit).mpr ⟨hgrown, hbeyond⟩
  · rintro ⟨hfailed, hbeyond, hgrown⟩
    rw [← hused] at hbeyond hgrown
    refine ⟨?_, hbeyond, hgrown⟩
    obtain ⟨e, m, hm⟩ := hfailed.exists
    rw [heval, hm]
    exact ⟨_, rfl⟩

variable (vm name source)

/-- The meter looks at whole intervals. -/
theorem looks_evalChunk :
    ∃ n, vm.reading name source = vm.used + n * vm.machine.meter.interval := by
  obtain ⟨e, hrefused⟩ | ⟨r, hr, heval⟩ := Vm.evalChunk_cases name source
  · refine ⟨0, ?_⟩
    rw [Vm.reading, hrefused, Nat.zero_mul, Nat.add_zero]
  · obtain ⟨n, hn⟩ := ((hr vm.budget).meters vm.machine).looks
    refine ⟨n, ?_⟩
    rw [Vm.reading, heval, Vm.used_evaluated, hn]
    rfl

variable (hlimit : vm.machine.meter.limit = some limit)

include hlimit

/-- The evaluation of a chunk is ended by the meter exactly if there is a look and the meter ends
beyond the limit. -/
theorem stopped_evalChunk_iff : Stopped vm limit (Vm.evalChunk name source) ↔
    vm.used < vm.reading name source ∧ limit < vm.reading name source := by
  obtain ⟨e, hrefused⟩ | ⟨r, hr, heval⟩ := Vm.evalChunk_cases name source
  · rw [stopped_iff_of_error (hrefused vm), Vm.reading, hrefused, and_comm]
  · rw [stopped_evaluated_iff (hr _) (heval vm) hlimit, (hr _).stopped_iff hlimit, Vm.reading,
      heval, Vm.used_evaluated]
    rfl

/-- What follows an evaluation and leaves the machine alone is not ended by the meter. -/
theorem stopped_bind_iff {f : Value → Op β}
    (hf : ∀ v vm, ((f v).run.run vm).2.machine = vm.machine) :
    Stopped vm limit (Vm.evalChunk name source >>= f) ↔
      Stopped vm limit (Vm.evalChunk name source) := by
  rcases heval : (Vm.evalChunk name source).run.run vm with ⟨answer, vm'⟩
  cases answer with
  | error e => rw [stopped_iff_of_error (run_bind_error heval), stopped_iff_of_error heval]
  | ok v =>
    have hok : ¬ Stopped vm limit (Vm.evalChunk name source) := not_stopped_of_ok heval
    refine iff_of_false (fun h => hok ?_) hok
    have hused : ((Vm.evalChunk name source >>= f).run.run vm).2.used = vm.reading name source := by
      rw [run_bind_ok heval, Vm.reading, heval, Vm.used, hf]
      rfl
    exact (stopped_evalChunk_iff vm name source hlimit).mpr ⟨hused ▸ h.grown, hused ▸ h.beyond⟩

variable (hinterval : 0 < vm.machine.meter.interval) (d : Nat)

include hinterval

/-- **Instructions used before count against a chunk.** -/
theorem stopped_charged_iff : Stopped (vm.charged d) limit (Vm.evalChunk name source) ↔
    vm.used < vm.reading name source ∧ limit < vm.reading name source + d := by
  obtain ⟨e, hrefused⟩ | ⟨r, hr, heval⟩ := Vm.evalChunk_cases name source
  · rw [stopped_evalChunk_iff (vm.charged d) name source hlimit, Vm.reading, Vm.reading, hrefused,
      hrefused]
    exact iff_of_false (fun h => Nat.lt_irrefl _ h.1) fun h => Nat.lt_irrefl _ h.1
  · rw [stopped_evaluated_iff (hr _) (heval (vm.charged d)) hlimit, Vm.reading, heval,
      Vm.used_evaluated]
    exact (hr _).stopped_charged_iff hlimit hinterval d

/-- Where the meter does not end an operation, instructions spent before make no difference. -/
theorem run_charged_of_not_stopped
    (h : ¬ Stopped (vm.charged d) limit (Vm.evalChunk name source)) :
    (Vm.evalChunk name source).run.run (vm.charged d) =
      (((Vm.evalChunk name source).run.run vm).1,
        ((Vm.evalChunk name source).run.run vm).2.charged d) := by
  obtain ⟨e, hrefused⟩ | ⟨r, hr, heval⟩ := Vm.evalChunk_cases name source
  · rw [hrefused, hrefused]
  · rw [stopped_evaluated_iff (hr _) (heval (vm.charged d)) hlimit] at h
    have heq := (hr vm.budget).eq_charged_of_not_stopped hlimit hinterval d h
    rw [heval, heval, ← Vm.evaluated_charged]
    exact congrArg ((vm.charged d).evaluated name) heq

end Op

/-! ## Loading under a limit -/

namespace Vm

open Op (Stopped)

/-- What the meter does to chunks in a machine. -/
structure Loading (vm : Vm) (limit : Nat) (name source : String) : Prop where
  /-- A chunk uses an interval at each look. -/
  looks : ∃ n, vm.spent name source = n * vm.machine.meter.interval
  /-- With the meter at zero, a chunk is ended if it uses more than the limit by itself. -/
  rested_iff : Stopped vm.rested limit (evalChunk name source) ↔ limit < vm.spent name source
  /-- As the meter stands, what was used before counts too, if there is a look. -/
  stopped_iff : Stopped vm limit (evalChunk name source) ↔
    0 < vm.spent name source ∧ limit < vm.used + vm.spent name source
  /-- A chunk that is not ended comes to what it comes to with the meter at zero. -/
  same_answer (h : ¬ Stopped vm limit (evalChunk name source)) :
    (evalChunk name source).run.run vm = (((evalChunk name source).run.run vm.rested).1,
      ((evalChunk name source).run.run vm.rested).2.charged vm.used)
  loadChunk_iff : Stopped vm limit (loadChunk name source) ↔
    Stopped vm limit (evalChunk name source)
  loadCallable_iff : Stopped vm limit (loadCallable name source) ↔
    Stopped vm limit (evalChunk name source)
  /-- An instance whose chunk is ended is not activated. -/
  activate_refused {vm₀ : Vm} (hvm : vm₀.activate.2 = vm) {number : Nat} {i : Instance}
    {nodeables : List ObjectRef} (hi : Instance.get? vm₀ number = some i)
    (hs : i.state = .uninitialized) (haccepts : i.Accepts nodeables) (hname : i.chunk = name)
    (hsource : i.text = source) (h : Stopped vm limit (evalChunk name source)) :
      ∃ e, (Instance.activate number nodeables).run.run vm₀ =
        (.error e, ((evalChunk name source).run.run vm).2)

/-- **Loading under a limit**, for a machine whose meter is in order. -/
theorem Regulated.loading {vm : Vm} (h : vm.Regulated) {limit : Nat}
    (hlimit : vm.enforcedLimit = some limit) (name source : String) :
    vm.Loading limit name source := by
  have hmeter : vm.machine.meter.limit = some limit := h.limit_eq.trans hlimit
  have hrested := Op.stopped_evalChunk_iff vm.rested name source hmeter
  have hcharged := Op.stopped_charged_iff vm.rested name source hmeter h.interval_pos vm.used
  have hsame := Op.run_charged_of_not_stopped vm.rested name source hmeter h.interval_pos vm.used
  rw [charged_rested] at hcharged hsame
  refine ⟨?_, ?_, ?_, hsame, Op.stopped_bind_iff vm name source hmeter fun _ _ => rfl,
    Op.stopped_bind_iff vm name source hmeter fun v vm => ?_, ?_⟩
  · obtain ⟨n, hn⟩ := Op.looks_evalChunk vm.rested name source
    exact ⟨n, hn.trans (Nat.zero_add _)⟩
  · rw [hrested]
    exact ⟨fun h => h.2, fun h => ⟨Nat.lt_of_le_of_lt (Nat.zero_le _) h, h⟩⟩
  · rw [hcharged, Nat.add_comm vm.used]
    rfl
  · split
    · rfl
    · rfl
  · rintro vm₀ rfl number i nodeables hi hs haccepts rfl rfl hstopped
    obtain ⟨e, he⟩ := hstopped.refused
    refine ⟨e, ?_⟩
    rw [Instance.activate_eq hi hs haccepts]
    exact Op.run_bind_error (Prod.ext he rfl)

/-- **What was used before decides about chunks.**  Take a machine after any operations of the host,
and a limit that it enforces.  A chunk is ended by the meter exactly if it has a look and what was
used before and what it uses by itself are together beyond the limit.  That is the same as with the
meter at zero, unless what the chunk uses by itself is within the limit and what was used before
brings it beyond. -/
theorem independent_iff (hookInterval : UInt32) (history : List HostAction) {vm : Vm}
    (hvm : vm = HostAction.after history (Vm.new hookInterval)) {limit : Nat}
    (hlimit : vm.enforcedLimit = some limit) (name source : String) :
    vm.Loading limit name source ∧
      ((Stopped vm limit (evalChunk name source) ↔ limit < vm.spent name source) ↔
        ¬ (0 < vm.spent name source ∧ vm.spent name source ≤ limit ∧
          limit < vm.used + vm.spent name source)) := by
  have hregulated : vm.Regulated := hvm ▸ HostAction.regulated_after history
    (regulated_new hookInterval)
  have hloading := hregulated.loading hlimit name source
  refine ⟨hloading, ?_⟩
  rw [hloading.stopped_iff]
  omega

/-- A function without an end is loaded, and called under a limit. -/
def spinning : List HostAction :=
  [.onStack (.loadChunk "=spin" "return function() while true do end end"), .setLimit (some 3),
    .onStack (.safeCall 0 0)]

/-- After the call was ended, not even a chunk of one instruction can be loaded. -/
theorem spinning_independent_iff : ∃ vm, vm = HostAction.after spinning (Vm.new 1) ∧
    vm.enforcedLimit = some 3 ∧ vm.used = 4 ∧ vm.spent "=c" "return true" = 1 ∧
    Stopped vm 3 (loadChunk "=c" "return true") ∧
    ¬ Stopped vm.rested 3 (evalChunk "=c" "return true") := by
  have hlimit : (HostAction.after spinning (Vm.new 1)).enforcedLimit = some 3 := by decide +kernel
  have hused : (HostAction.after spinning (Vm.new 1)).used = 4 := by decide +kernel
  have hspent : (HostAction.after spinning (Vm.new 1)).spent "=c" "return true" = 1 := by
    decide +kernel
  obtain ⟨hloading, -⟩ := independent_iff 1 spinning rfl hlimit "=c" "return true"
  refine ⟨_, rfl, hlimit, hused, hspent, ?_, ?_⟩
  · rw [hloading.loadChunk_iff, hloading.stopped_iff, hused, hspent]
    decide
  · rw [hloading.rested_iff, hspent]
    decide

end Vm

end GraphScript
