import GraphScript.Proofs.RuntimeInputs
import Mathlib.Data.Set.Card

/-!
# Proofs/Inputs/Buckets — every variable in one bucket

Additions, refused ones among them, keep variables in one bucket each and buckets in order
(`Tidy.addAll`), and what they leave behind is known by which were accepted (`perm_values_addAll`,
`nodeables_addAll`), not by the order in which they came.  How the graph runs takes no part in
collecting the inputs of a model (`ofModel_mode`).
-/

namespace GraphScript

namespace RuntimeInputs

/-- What is there after an attempt to add something. -/
def attempt (r : RuntimeInputs) (a : Addition) : RuntimeInputs :=
  match r.add a with
  | .ok r' => r'
  | .error _ => r

/-- What is there after attempts to add one thing after the other. -/
def addAll (r : RuntimeInputs) (as : List Addition) : RuntimeInputs := as.foldl attempt r

/-- The additions that are not refused, in their order. -/
def accepted : RuntimeInputs → List Addition → List Addition
  | _, [] => []
  | r, a :: as =>
    match r.add a with
    | .ok r' => a :: accepted r' as
    | .error _ => accepted r as

/-! ## One attempt -/

section Attempt

variable {r : RuntimeInputs} {a : Addition}

theorem attempt_refused (h : a.id ∈ r.ids) : r.attempt a = r := by
  rw [attempt, add_refused h]

theorem attempt_placed (h : a.id ∉ r.ids) : r.attempt a = r.place a := by
  rw [attempt, add_placed h]

end Attempt

/-- Every variable is in one bucket at most, and the buckets are in order. -/
structure Tidy (r : RuntimeInputs) : Prop where
  ids_nodup : r.ids.Nodup
  values_sorted : Entries.Sorted r.values
  entityIds_sorted : Entries.Sorted r.entityIds
  statics_sorted : Entries.Sorted r.statics

/-- Adding keeps a bucket in order. -/
theorem sorted_enter {α : Type} {es : List (VariableId × α)} (h : Entries.Sorted es)
    (e? : Option (VariableId × α)) : Entries.Sorted (enter es e?) := by
  cases e? with
  | none => exact h
  | some e => exact h.insert e.1 e.2

/-- **An attempt to add something keeps the inputs tidy.** -/
theorem Tidy.attempt {r : RuntimeInputs} (h : r.Tidy) (a : Addition) : (r.attempt a).Tidy := by
  by_cases hm : a.id ∈ r.ids
  · rw [attempt_refused hm]
    exact h
  · rw [attempt_placed hm]
    exact {
      ids_nodup := (perm_ids_place hm).nodup_iff.mpr (List.nodup_cons.mpr ⟨hm, h.ids_nodup⟩)
      values_sorted := sorted_enter h.values_sorted _
      entityIds_sorted := sorted_enter h.entityIds_sorted _
      statics_sorted := sorted_enter h.statics_sorted _ }

/-! ## Many additions -/

section Run

variable {r : RuntimeInputs} {a : Addition} {as : List Addition}

theorem addAll_cons : r.addAll (a :: as) = (r.attempt a).addAll as := rfl

/-- **Additions keep inputs tidy.** -/
theorem Tidy.addAll (h : r.Tidy) (as : List Addition) : (r.addAll as).Tidy := by
  induction as generalizing r with
  | nil => exact h
  | cons a as ih => exact ih (h.attempt a)

/-- An addition that is refused is not among the accepted. -/
theorem accepted_cons_refused (h : a.id ∈ r.ids) : r.accepted (a :: as) = r.accepted as := by
  rw [accepted, add_refused h]

/-- An addition that is placed is the first of the accepted. -/
theorem accepted_cons_placed (h : a.id ∉ r.ids) :
    r.accepted (a :: as) = a :: (r.place a).accepted as := by
  rw [accepted, add_placed h]

/-- What holds of what is placed, addition after addition, holds of all that are accepted. -/
theorem addAll_induction {motive : RuntimeInputs → List Addition → RuntimeInputs → Prop}
    (nil : ∀ r, motive r [] r)
    (cons : ∀ r a as r', a.id ∉ r.ids → motive (r.place a) as r' → motive r (a :: as) r')
    (r : RuntimeInputs) (as : List Addition) : motive r (r.accepted as) (r.addAll as) := by
  induction as generalizing r with
  | nil => exact nil r
  | cons a as ih =>
    by_cases hm : a.id ∈ r.ids
    · rw [addAll_cons, attempt_refused hm, accepted_cons_refused hm]
      exact ih r
    · rw [addAll_cons, attempt_placed hm, accepted_cons_placed hm]
      exact cons r a _ _ hm (ih (r.place a))

theorem filterMap_cons_eq {α : Type} (f : Addition → Option α) (a : Addition)
    (as : List Addition) : (a :: as).filterMap f = (f a).toList ++ as.filterMap f := by
  cases hf : f a with
  | none => rw [List.filterMap_cons_none hf, Option.toList_none, List.nil_append]
  | some b => rw [List.filterMap_cons_some hf, Option.toList_some, List.singleton_append]

/-- What one addition adds to a bucket, and then the others, all of them add. -/
theorem perm_filterMap_cons {α : Type} {f : Addition → Option α} {es fs gs : List α}
    (h : fs.Perm ((f a).toList ++ es)) (hrest : gs.Perm (fs ++ as.filterMap f)) :
    gs.Perm (es ++ (a :: as).filterMap f) := by
  rw [filterMap_cons_eq, ← List.append_assoc]
  exact hrest.trans ((h.trans List.perm_append_comm).append_right _)

/-- **The bucket for values after many additions.** -/
theorem perm_values_addAll (r : RuntimeInputs) (as : List Addition) :
    (r.addAll as).values.Perm (r.values ++ (r.accepted as).filterMap Addition.value?) :=
  addAll_induction (motive := fun r as r' => r'.values.Perm (r.values ++ as.filterMap _))
    (fun _ => by rw [List.filterMap_nil, List.append_nil])
    (fun _ _ _ _ hm ih => perm_filterMap_cons (perm_values_place hm) ih) r as

theorem perm_entityIds_addAll (r : RuntimeInputs) (as : List Addition) :
    (r.addAll as).entityIds.Perm (r.entityIds ++ (r.accepted as).filterMap Addition.entity?) :=
  addAll_induction (motive := fun r as r' => r'.entityIds.Perm (r.entityIds ++ as.filterMap _))
    (fun _ => by rw [List.filterMap_nil, List.append_nil])
    (fun _ _ _ _ hm ih => perm_filterMap_cons (perm_entityIds_place hm) ih) r as

theorem perm_statics_addAll (r : RuntimeInputs) (as : List Addition) :
    (r.addAll as).statics.Perm (r.statics ++ (r.accepted as).filterMap Addition.static?) :=
  addAll_induction (motive := fun r as r' => r'.statics.Perm (r.statics ++ as.filterMap _))
    (fun _ => by rw [List.filterMap_nil, List.append_nil])
    (fun _ _ _ _ hm ih => perm_filterMap_cons (perm_statics_place hm) ih) r as

/-- **Host objects are listed in the order in which they were added.** -/
theorem nodeables_addAll (r : RuntimeInputs) (as : List Addition) :
    (r.addAll as).nodeables = r.nodeables ++ (r.accepted as).filterMap Addition.nodeable? := by
  refine addAll_induction (motive := fun r as r' => r'.nodeables = r.nodeables ++ as.filterMap _)
    (fun _ => by rw [List.filterMap_nil, List.append_nil]) (fun r a as r' _ ih => ?_) r as
  rw [ih, place, list_eq, List.append_assoc, filterMap_cons_eq]

/-- The size counts the variables in all buckets. -/
theorem parameterSize_eq (r : RuntimeInputs) : r.parameterSize = r.ids.length := by
  simp only [parameterSize, ids, List.length_append, List.length_map]
  omega

/-- **The size counts the additions that were accepted.** -/
theorem parameterSize_addAll (r : RuntimeInputs) (as : List Addition) :
    (r.addAll as).parameterSize = r.parameterSize + (r.accepted as).length := by
  refine addAll_induction
    (motive := fun r as r' => r'.parameterSize = r.parameterSize + as.length)
    (fun _ => rfl) (fun r a as r' hm ih => ?_) r as
  have hlen := (perm_ids_place hm).length_eq
  rw [ih, parameterSize_eq, parameterSize_eq, hlen, List.length_cons, List.length_cons]
  omega

/-- The size counts each variable once. -/
theorem Tidy.ncard_contains (h : r.Tidy) : {id | r.contains id = true}.ncard = r.parameterSize := by
  have hset : {id | r.contains id = true} = (r.ids.toFinset : Set VariableId) := by
    ext id
    rw [Set.mem_ofPred_eq, contains_iff, Finset.mem_coe, List.mem_toFinset]
  rw [hset, Set.ncard_coe_finset, List.toFinset_card_of_nodup h.ids_nodup, parameterSize_eq]

/-- Among additions for different variables, those are accepted whose variable was in no bucket. -/
theorem accepted_eq_filter (h : (as.map (·.id)).Nodup) :
    r.accepted as = as.filter fun a => a.id ∉ r.ids := by
  induction as generalizing r with
  | nil => rfl
  | cons a as ih =>
    obtain ⟨hfresh, hrest⟩ := List.nodup_cons.mp h
    by_cases hm : a.id ∈ r.ids
    · rw [accepted_cons_refused hm, ih hrest, List.filter_cons_of_neg (by simpa using hm)]
    · rw [accepted_cons_placed hm, ih hrest, List.filter_cons_of_pos (by simpa using hm)]
      -- the variable just placed is none of those that follow
      refine congrArg (a :: ·) (List.filter_congr fun b hb => decide_eq_decide.mpr ?_)
      have hne : b.id ≠ a.id := fun heq => hfresh (List.mem_map.mpr ⟨b, hb, heq⟩)
      rw [(perm_ids_place hm).mem_iff, List.mem_cons, or_iff_right hne]

end Run

/-- Two inputs agree in the buckets for values, entities and static values. -/
def SameMaps (r s : RuntimeInputs) : Prop :=
  r.values = s.values ∧ r.entityIds = s.entityIds ∧ r.statics = s.statics

/-- **Additions for different variables can be reordered.** -/
theorem Tidy.sameMaps {r : RuntimeInputs} (h : r.Tidy) {as bs : List Addition}
    (hperm : as.Perm bs) (hnd : (as.map (·.id)).Nodup) : (r.addAll as).SameMaps (r.addAll bs) := by
  have haccepted : (r.accepted as).Perm (r.accepted bs) := by
    rw [accepted_eq_filter hnd, accepted_eq_filter ((hperm.map _).nodup_iff.mp hnd)]
    exact hperm.filter _
  have has := h.addAll as
  have hbs := h.addAll bs
  refine ⟨has.values_sorted.eq_of_perm hbs.values_sorted ?_,
    has.entityIds_sorted.eq_of_perm hbs.entityIds_sorted ?_,
    has.statics_sorted.eq_of_perm hbs.statics_sorted ?_⟩
  · exact (perm_values_addAll r as).trans
      (((haccepted.filterMap _).append_left _).trans (perm_values_addAll r bs).symm)
  · exact (perm_entityIds_addAll r as).trans
      (((haccepted.filterMap _).append_left _).trans (perm_entityIds_addAll r bs).symm)
  · exact (perm_statics_addAll r as).trans
      (((haccepted.filterMap _).append_left _).trans (perm_statics_addAll r bs).symm)

/-! ## The inputs of a model -/

/-- Inputs before anything was added. -/
def start (mode : ExecutionMode) (characteristics : Characteristics) : RuntimeInputs :=
  { executionMode := mode, characteristics }

theorem tidy_start (mode : ExecutionMode) (characteristics : Characteristics) :
    (start mode characteristics).Tidy :=
  ⟨List.nodup_nil, List.Pairwise.nil, List.Pairwise.nil, List.Pairwise.nil⟩

/-- The same inputs for another way to run. -/
def withMode (mode : ExecutionMode) (r : RuntimeInputs) : RuntimeInputs :=
  { r with executionMode := mode }

/-- A variable is added in the same way for either way to run. -/
theorem insertDef_withMode (mode : ExecutionMode) (r : RuntimeInputs) (v : VariableDef) :
    (r.withMode mode).insertDef v = (r.insertDef v).map (withMode mode) := by
  rw [insertDef_eq, insertDef_eq]
  cases addition? v with
  | none => rfl
  | some a =>
    rw [Option.elim_some, Option.elim_some]
    by_cases hm : a.id ∈ r.ids
    · rw [add_refused hm, add_refused (r := r.withMode mode) hm]
      rfl
    · rw [add_placed hm, add_placed (r := r.withMode mode) hm]
      rfl

theorem foldlM_insertDef_withMode (mode : ExecutionMode) (vs : List VariableDef)
    (r : RuntimeInputs) :
    vs.foldlM insertDef (r.withMode mode) = (vs.foldlM insertDef r).map (withMode mode) := by
  induction vs generalizing r with
  | nil => rfl
  | cons v vs ih =>
    rw [List.foldlM_cons, List.foldlM_cons, insertDef_withMode]
    cases r.insertDef v with
    | error e => rfl
    | ok r' => exact ih r'

/-- **How a graph runs takes no part in collecting its inputs.** -/
theorem ofModel_mode (m : Model) (mode mode' : ExecutionMode) :
    ofModel m mode' = (ofModel m mode).map (withMode mode') :=
  foldlM_insertDef_withMode mode' m.members (start mode m.characteristics)

/-- **Runtime inputs keep every variable in one bucket.**  This is so after any additions, refused
ones among them.  A further addition is refused exactly if its variable is in a bucket, and then
changes nothing.  The size is the number of additions that were accepted, and of the variables that
there are.  Additions for different variables leave the same values, entities and static values in
whatever order they come, and host objects in the order in which they came.  Inputs collected from a
model for either way to run differ in that alone. -/
theorem buckets_disjoint (mode : ExecutionMode) (characteristics : Characteristics)
    (as : List Addition) (r : RuntimeInputs) (hr : r = (start mode characteristics).addAll as) :
    r.ids.Nodup ∧
      (∀ a, ((∃ e, r.add a = .error e) ↔ r.contains a.id = true) ∧
        ∀ e, r.add a = .error e → e = .duplicate a.id ∧ r.attempt a = r) ∧
      r.parameterSize = ((start mode characteristics).accepted as).length ∧
      r.parameterSize = {id | r.contains id = true}.ncard ∧
      (∀ bs cs, bs.Perm cs → (bs.map (·.id)).Nodup → (r.addAll bs).SameMaps (r.addAll cs) ∧
        (r.addAll bs).nodeables =
          r.nodeables ++ (bs.filter fun b => b.id ∉ r.ids).filterMap Addition.nodeable?) ∧
      ∀ m, ofModel m .compiled = (ofModel m .interpreted).map (withMode .compiled) := by
  have htidy : r.Tidy := hr ▸ (tidy_start mode characteristics).addAll as
  refine ⟨htidy.ids_nodup, fun a => ?_, ?_, htidy.ncard_contains.symm, ?_, fun m => ?_⟩
  · by_cases hm : a.id ∈ r.ids
    · refine ⟨⟨fun _ => contains_iff.mpr hm, fun _ => ⟨_, add_refused hm⟩⟩, fun e he => ?_⟩
      rw [add_refused hm] at he
      exact ⟨(Except.error.inj he).symm, attempt_refused hm⟩
    · have hplaced : ¬ ∃ e, r.add a = .error e := by
        rintro ⟨e, he⟩
        rw [add_placed hm] at he
        cases he
      exact ⟨⟨fun h => absurd h hplaced, fun h => absurd (contains_iff.mp h) hm⟩,
        fun e he => absurd ⟨e, he⟩ hplaced⟩
  · rw [hr, parameterSize_addAll]
    exact Nat.zero_add _
  · intro bs cs hperm hnd
    exact ⟨htidy.sameMaps hperm hnd, by rw [nodeables_addAll, accepted_eq_filter hnd]⟩
  · exact ofModel_mode m .interpreted .compiled

/-- Additions for a timer of the owner, the second of which is refused. -/
def timerAdditions : List Addition :=
  [.static (.ofNat 1) (.text "tick"), .value (.ofNat 1) (.boolean true),
    .value (.ofNat 2) (.entityId .graphOwner), .nodeable (.ofNat 3) "Timer"]

/-- A timer's additions, one of them refused. -/
theorem timer_buckets_disjoint : ∃ r, r = (start .interpreted .shared).addAll timerAdditions ∧
    r.ids.Nodup ∧ r.parameterSize = 3 ∧ {id | r.contains id = true}.ncard = 3 ∧
    r.add (.nodeable (.ofNat 2) "Timer") = .error (.duplicate (.ofNat 2)) ∧
    r.attempt (.nodeable (.ofNat 2) "Timer") = r ∧
    (r.addAll [.value (.ofNat 5) (.boolean true), .value (.ofNat 4) (.boolean false)]).SameMaps
      (r.addAll [.value (.ofNat 4) (.boolean false), .value (.ofNat 5) (.boolean true)]) := by
  obtain ⟨hnodup, hadd, hsize, hcard, hperm, _⟩ :=
    buckets_disjoint .interpreted .shared timerAdditions _ rfl
  have hthree : ((start .interpreted .shared).accepted timerAdditions).length = 3 := rfl
  obtain ⟨hrefused, hunchanged⟩ := hadd (.nodeable (.ofNat 2) "Timer")
  obtain ⟨e, he⟩ := hrefused.mpr rfl
  obtain ⟨rfl, hsame⟩ := hunchanged e he
  refine ⟨_, rfl, hnodup, hsize.trans hthree, hcard.symm.trans (hsize.trans hthree), he, hsame, ?_⟩
  exact (hperm _ _ (.swap _ _ _) (by decide)).1

end RuntimeInputs

end GraphScript
