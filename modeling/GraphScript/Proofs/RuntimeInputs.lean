import GraphScript.Proofs.Sorted
import GraphScript.Proofs.Validity
import GraphScript.RuntimeInputs

/-!
# Proofs/RuntimeInputs — collecting what an instance is built from

An `Addition` is one use of the four operations that add to runtime inputs.  Whatever it adds, it is
refused exactly if its variable is in a bucket, and otherwise is placed in the one bucket that is
meant for it (`add_eq`, `perm_ids_place`).  Collecting the inputs of a model is adding what its
variables start from (`insertDef_eq`).  So inputs can be collected from a valid model exactly if its
variables have pairwise different identifiers (`exists_ofModel_iff`).
-/

namespace GraphScript

/-- Identifiers are in the order of their numbers. -/
instance : IsStrictTotalOrder VariableId (LT.lt : VariableId → VariableId → Prop) where
  trichotomous := by
    rintro ⟨a⟩ ⟨b⟩ hab hba
    have hnat : a.toNat = b.toNat := Nat.le_antisymm (Nat.le_of_not_lt hba) (Nat.le_of_not_lt hab)
    rw [BitVec.eq_of_toNat_eq hnat]
  irrefl a := Nat.lt_irrefl a.toNat
  trans _ _ _ := Nat.lt_trans

theorem Entries.contains_iff {κ α : Type} [DecidableEq κ] {es : List (κ × α)} {k : κ} :
    contains es k = true ↔ k ∈ es.map (·.1) := by
  rw [contains, List.any_eq_true, List.mem_map]
  simp

/-- Something added to runtime inputs. -/
inductive Addition where
  | value (id : VariableId) (d : Datum)
  | entity (id : VariableId) (e : EntityId)
  | static (id : VariableId) (s : StaticValue)
  | nodeable (id : VariableId) (className : String)

namespace Addition

/-- The variable that something is added for. -/
def id : Addition → VariableId
  | .value id _ => id
  | .entity id _ => id
  | .static id _ => id
  | .nodeable id _ => id

/-- What goes to the bucket for values. -/
def value? : Addition → Option (VariableId × Datum)
  | .value _ (.entityId _) => none
  | .value id d => some (id, d)
  | _ => none

/-- What goes to the bucket for entities, to which a value that is one is sent on. -/
def entity? : Addition → Option (VariableId × EntityId)
  | .value id (.entityId e) => some (id, e)
  | .entity id e => some (id, e)
  | _ => none

/-- What goes to the bucket for static values. -/
def static? : Addition → Option (VariableId × StaticValue)
  | .static id s => some (id, s)
  | _ => none

/-- What goes to the host objects. -/
def nodeable? : Addition → Option NodeableInput
  | .nodeable id className => some ⟨id, className⟩
  | _ => none

/-- Something added goes to one bucket, under its variable. -/
theorem keys_eq (a : Addition) :
    (a.value?.map (·.1)).toList ++ (a.entity?.map (·.1)).toList ++ (a.static?.map (·.1)).toList ++
      (a.nodeable?.map (·.id)).toList = [a.id] := by
  cases a with
  | value id d => cases d <;> rfl
  | entity id e => rfl
  | static id s => rfl
  | nodeable id className => rfl

end Addition

namespace RuntimeInputs

/-- The variables in all buckets. -/
def ids (r : RuntimeInputs) : List VariableId :=
  r.values.map (·.1) ++ r.entityIds.map (·.1) ++ r.statics.map (·.1) ++ r.nodeables.map (·.id)

theorem mem_ids {r : RuntimeInputs} {id : VariableId} : id ∈ r.ids ↔
    ((id ∈ r.values.map (·.1) ∨ id ∈ r.entityIds.map (·.1)) ∨ id ∈ r.statics.map (·.1)) ∨
      id ∈ r.nodeables.map (·.id) := by
  simp only [ids, List.mem_append]

/-- A variable is in some bucket exactly if it is among those in all. -/
theorem contains_iff {r : RuntimeInputs} {id : VariableId} : r.contains id = true ↔ id ∈ r.ids := by
  simp only [mem_ids, contains, Bool.or_eq_true, Entries.contains_iff, List.any_eq_true,
    decide_eq_true_eq, ← List.mem_map]

/-! ## One addition -/

/-- Adds something. -/
def add (r : RuntimeInputs) : Addition → Except Error RuntimeInputs
  | .value id d => r.insertVariable id d
  | .entity id e => r.insertEntity id e
  | .static id s => r.insertStatic id s
  | .nodeable id className => r.pushNodeable id className

/-- A bucket after something may have been added to it. -/
def enter {α : Type} (es : List (VariableId × α)) : Option (VariableId × α) →
    List (VariableId × α)
  | none => es
  | some e => Entries.insert es e.1 e.2

/-- The host objects after one may have been listed. -/
def list (ns : List NodeableInput) : Option NodeableInput → List NodeableInput
  | none => ns
  | some n => ns ++ [n]

/-- The inputs with something put into its bucket. -/
def place (r : RuntimeInputs) (a : Addition) : RuntimeInputs :=
  { r with
    nodeables := list r.nodeables a.nodeable?
    values := enter r.values a.value?
    entityIds := enter r.entityIds a.entity?
    statics := enter r.statics a.static? }

/-- **What an addition does**: it is refused exactly if its variable is in a bucket. -/
theorem add_eq (r : RuntimeInputs) (a : Addition) : r.add a =
    if r.contains a.id then .error (.duplicate a.id) else .ok (r.place a) := by
  cases a with
  | value id d => cases d <;> rfl
  | entity id e => rfl
  | static id s => rfl
  | nodeable id className => rfl

section Step

variable {r : RuntimeInputs} {a : Addition}

/-- An addition for a variable that is there is refused. -/
theorem add_refused (h : a.id ∈ r.ids) : r.add a = .error (.duplicate a.id) := by
  rw [add_eq, if_pos (contains_iff.mpr h)]

/-- An addition for a new variable is placed. -/
theorem add_placed (h : a.id ∉ r.ids) : r.add a = .ok (r.place a) := by
  rw [add_eq, if_neg (mt contains_iff.mp h)]

theorem list_eq (ns : List NodeableInput) (n? : Option NodeableInput) :
    list ns n? = ns ++ n?.toList := by
  cases n? with
  | none => exact (List.append_nil ns).symm
  | some n => rfl

/-- A bucket has what was added, and what was there. -/
theorem perm_enter {α : Type} {es : List (VariableId × α)} {e? : Option (VariableId × α)}
    (h : ∀ e ∈ e?, e.1 ∉ es.map (·.1)) : (enter es e?).Perm (e?.toList ++ es) := by
  cases e? with
  | none => exact .refl _
  | some e => exact Entries.perm_insert e.2 (h e rfl)

/-- What goes to a bucket is filed under the variable of the addition. -/
theorem bucket_key : (∀ e ∈ a.value?, e.1 = a.id) ∧ (∀ e ∈ a.entity?, e.1 = a.id) ∧
    (∀ e ∈ a.static?, e.1 = a.id) ∧ ∀ n ∈ a.nodeable?, n.id = a.id := by
  have hkeys := Addition.keys_eq a
  have hmem : ∀ x ∈ (a.value?.map (·.1)).toList ++ (a.entity?.map (·.1)).toList ++
      (a.static?.map (·.1)).toList ++ (a.nodeable?.map (·.id)).toList, x = a.id := by
    rw [hkeys]
    exact List.forall_mem_singleton.mpr rfl
  simp only [List.forall_mem_append, Option.mem_toList] at hmem
  obtain ⟨⟨⟨hvalue, hentity⟩, hstatic⟩, hnodeable⟩ := hmem
  exact ⟨fun e he => hvalue e.1 (Option.mem_map_of_mem _ he),
    fun e he => hentity e.1 (Option.mem_map_of_mem _ he),
    fun e he => hstatic e.1 (Option.mem_map_of_mem _ he),
    fun n hn => hnodeable n.id (Option.mem_map_of_mem _ hn)⟩

theorem perm_values_place (h : a.id ∉ r.ids) :
    (r.place a).values.Perm (a.value?.toList ++ r.values) :=
  perm_enter fun e he hm =>
    h (mem_ids.mpr (by rw [← bucket_key.1 e he]; exact .inl (.inl (.inl hm))))

theorem perm_entityIds_place (h : a.id ∉ r.ids) :
    (r.place a).entityIds.Perm (a.entity?.toList ++ r.entityIds) :=
  perm_enter fun e he hm =>
    h (mem_ids.mpr (by rw [← bucket_key.2.1 e he]; exact .inl (.inl (.inr hm))))

theorem perm_statics_place (h : a.id ∉ r.ids) :
    (r.place a).statics.Perm (a.static?.toList ++ r.statics) :=
  perm_enter fun e he hm => h (mem_ids.mpr (by rw [← bucket_key.2.2.1 e he]; exact .inl (.inr hm)))

/-- What is placed adds its variable, once. -/
theorem perm_ids_place (h : a.id ∉ r.ids) : (r.place a).ids.Perm (a.id :: r.ids) := by
  have hvalues := (perm_values_place h).map (·.1)
  have hentityIds := (perm_entityIds_place h).map (·.1)
  have hstatics := (perm_statics_place h).map (·.1)
  refine List.perm_iff_count.mpr fun x => ?_
  have hkeys := congrArg (List.count x) (Addition.keys_eq a)
  have hv := hvalues.count_eq x
  have he := hentityIds.count_eq x
  have hs := hstatics.count_eq x
  have hn : (r.place a).nodeables.map (·.id) =
      r.nodeables.map (·.id) ++ (a.nodeable?.map (·.id)).toList := by
    rw [place, list_eq, List.map_append, Option.toList_map]
  simp only [List.map_append, ← Option.toList_map, List.count_append] at hv he hs hkeys
  rw [← List.singleton_append, List.count_append, ← hkeys]
  simp only [ids, List.count_append, hv, he, hs, hn]
  omega

end Step

/-! ## What a variable adds -/

/-- What a variable adds; one that expects a host object has to say of which class. -/
def addition? (v : VariableDef) : Option Addition :=
  match v.initializer, v.dataType with
  | .value d, _ => some (.value v.id d)
  | .static s, _ => some (.static v.id s)
  | .nodeable, .object className => some (.nodeable v.id className)
  | .nodeable, _ => none

/-- Adding a variable is adding what it starts from, if there is something. -/
theorem insertDef_eq (r : RuntimeInputs) (v : VariableDef) : r.insertDef v =
    (addition? v).elim (.error (.notAnObject v.name v.dataType)) r.add := by
  obtain ⟨id, name, dataType, initializer, visibility⟩ := v
  cases initializer with
  | value d => rfl
  | static s => rfl
  | nodeable => cases dataType <;> rfl

theorem addition?_id {v : VariableDef} {a : Addition} (h : addition? v = some a) :
    a.id = v.id := by
  unfold addition? at h
  split at h
  · cases h
    rfl
  · cases h
    rfl
  · cases h
    rfl
  · cases h

/-- A variable in which nothing is wrong adds something. -/
theorem exists_addition? {v : VariableDef} (hv : Model.variableProblems v = []) :
    ∃ a, addition? v = some a := by
  cases hinit : v.initializer with
  | value d => exact ⟨.value v.id d, by rw [addition?, hinit]⟩
  | static s => exact ⟨.static v.id s, by rw [addition?, hinit]⟩
  | nodeable =>
    cases htype : v.dataType with
    | object className => exact ⟨.nodeable v.id className, by rw [addition?, hinit, htype]⟩
    | boolean | number | string | entityId => simp [Model.variableProblems, hinit, htype] at hv

/-- **A variable that is in no bucket can be added**, and is then in one. -/
theorem insertDef_ok {r : RuntimeInputs} {v : VariableDef} (hv : Model.variableProblems v = [])
    (h : v.id ∉ r.ids) :
    ∃ r', r.insertDef v = .ok r' ∧ ∀ x, x ∈ r'.ids ↔ x = v.id ∨ x ∈ r.ids := by
  obtain ⟨a, ha⟩ := exists_addition? hv
  rw [← addition?_id ha] at h ⊢
  refine ⟨r.place a, ?_, fun x => ?_⟩
  · rw [insertDef_eq, ha, Option.elim_some, add_placed h]
  · rw [(perm_ids_place h).mem_iff, List.mem_cons]

/-- A variable that is in a bucket cannot be added again. -/
theorem insertDef_error {r : RuntimeInputs} {v : VariableDef} (h : v.id ∈ r.ids) :
    ∃ e, r.insertDef v = .error e := by
  rw [insertDef_eq]
  cases ha : addition? v with
  | none => exact ⟨_, rfl⟩
  | some a => exact ⟨_, add_refused (addition?_id ha ▸ h)⟩

/-- Variables with identifiers of their own can be added in turn. -/
theorem exists_foldlM_insertDef : ∀ {vs : List VariableDef} {r : RuntimeInputs},
    (∀ v ∈ vs, Model.variableProblems v = []) → (vs.map (·.id)).Nodup →
      (∀ v ∈ vs, v.id ∉ r.ids) → ∃ r', vs.foldlM insertDef r = .ok r'
  | [], r, _, _, _ => ⟨r, rfl⟩
  | v :: vs, r, hv, hnd, hfresh => by
      obtain ⟨r', hr', hids⟩ := insertDef_ok (hv v List.mem_cons_self) (hfresh v List.mem_cons_self)
      rw [List.map_cons, List.nodup_cons] at hnd
      have hfresh' : ∀ w ∈ vs, w.id ∉ r'.ids := fun w hw hm => by
        rcases (hids w.id).mp hm with heq | hm
        · exact hnd.1 (heq ▸ List.mem_map_of_mem (f := (·.id)) hw)
        · exact hfresh w (List.mem_cons_of_mem _ hw) hm
      obtain ⟨r'', hr''⟩ :=
        exists_foldlM_insertDef (fun w hw => hv w (List.mem_cons_of_mem _ hw)) hnd.2 hfresh'
      exact ⟨r'', by rw [List.foldlM_cons, hr']; exact hr''⟩

/-- **Inputs can be collected** where variables are valid and have identifiers of their own. -/
theorem exists_ofModel {m : Model} (hv : ∀ v ∈ m.members, Model.variableProblems v = [])
    (hnd : (m.members.map (·.id)).Nodup) (mode : ExecutionMode) :
    ∃ r, ofModel m mode = .ok r :=
  exists_foldlM_insertDef hv hnd fun _ _ => List.not_mem_nil

/-- Variables that were added in turn have identifiers of their own. -/
theorem nodup_of_foldlM_insertDef : ∀ {vs : List VariableDef} {r r' : RuntimeInputs},
    (∀ v ∈ vs, Model.variableProblems v = []) → vs.foldlM insertDef r = .ok r' →
      (vs.map (·.id)).Nodup ∧ ∀ v ∈ vs, v.id ∉ r.ids
  | [], _, _, _, _ => ⟨List.nodup_nil, nofun⟩
  | v :: vs, r, r', hv, h => by
      have hfresh : v.id ∉ r.ids := fun hm => by
        obtain ⟨e, he⟩ := insertDef_error hm
        rw [List.foldlM_cons, he] at h
        cases h
      obtain ⟨r₁, hr₁, hids⟩ := insertDef_ok (hv v List.mem_cons_self) hfresh
      rw [List.foldlM_cons, hr₁] at h
      obtain ⟨hnd, hrest⟩ :=
        nodup_of_foldlM_insertDef (fun w hw => hv w (List.mem_cons_of_mem _ hw)) h
      refine ⟨List.nodup_cons.mpr ⟨fun hm => ?_, hnd⟩, List.forall_mem_cons.mpr
        ⟨hfresh, fun w hw hm => hrest w hw ((hids w.id).mpr (Or.inr hm))⟩⟩
      obtain ⟨w, hw, hid⟩ := List.mem_map.mp hm
      exact hrest w hw ((hids w.id).mpr (Or.inl hid))

/-- Inputs cannot be collected where two variables share an identifier. -/
theorem exists_ofModel_iff {m : Model} (hv : ∀ v ∈ m.members, Model.variableProblems v = [])
    (mode : ExecutionMode) :
    (∃ r, ofModel m mode = .ok r) ↔ (m.members.map (·.id)).Nodup :=
  ⟨fun ⟨_, h⟩ => (nodup_of_foldlM_insertDef hv h).1, fun hnd => exists_ofModel hv hnd mode⟩

end RuntimeInputs

end GraphScript
