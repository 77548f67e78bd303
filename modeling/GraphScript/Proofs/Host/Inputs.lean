import GraphScript.Host.Instance
import GraphScript.Proofs.Id.Token
import GraphScript.Proofs.Inputs.Buckets
import GraphScript.Proofs.Keys
import GraphScript.Proofs.Script.Table

/-!
# Proofs/Host/Inputs — what the constructor of an instance is given

The inputs collected from a model hold what every variable starts from in its bucket
(`collected_of_ofModel`).  Entering a bucket into a table adds one row for each variable, under its
token, whatever the kind of the bucket (`exists_rows`), so the table that a constructor is given has
one key for each variable and holds what the variable starts with (`given_inputsTable`).
-/

namespace GraphScript

open Script (Key Table Value)

/-! ## The collected inputs -/

/-- Whether a variable starts with a host object. -/
def VariableDef.isNodeable (v : VariableDef) : Bool :=
  match v.initializer with
  | .nodeable => true
  | _ => false

namespace RuntimeInputs

/-- What a variable adds, by what it starts from. -/
theorem addition?_cases {v : VariableDef} {a : Addition} (h : addition? v = some a) :
    (∃ d, v.initializer = .value d ∧ a = .value v.id d) ∨
      (∃ s, v.initializer = .static s ∧ a = .static v.id s) ∨
      ∃ c, v.initializer = .nodeable ∧ v.dataType = .object c ∧ a = .nodeable v.id c := by
  unfold addition? at h
  split at h
  · rename_i d hinit
    exact .inl ⟨d, hinit, (Option.some.inj h).symm⟩
  · rename_i s hinit
    exact .inr (.inl ⟨s, hinit, (Option.some.inj h).symm⟩)
  · rename_i c hinit htype
    exact .inr (.inr ⟨c, hinit, htype, (Option.some.inj h).symm⟩)
  · cases h

/-- What variables add. -/
def additions (vs : List VariableDef) : List Addition := vs.filterMap addition?

/-- A variable that was added was new, and is placed. -/
theorem insertDef_cases {r r' : RuntimeInputs} {v : VariableDef} (h : r.insertDef v = .ok r') :
    ∃ a, addition? v = some a ∧ a.id ∉ r.ids ∧ r' = r.place a := by
  rw [insertDef_eq] at h
  cases ha : addition? v with
  | none =>
    rw [ha] at h
    cases h
  | some a =>
    rw [ha, Option.elim_some] at h
    by_cases hm : a.id ∈ r.ids
    · rw [add_refused hm] at h
      cases h
    · rw [add_placed hm] at h
      exact ⟨a, rfl, hm, (Except.ok.inj h).symm⟩

/-- Inputs are collected by adding what each variable starts from, and nothing is refused. -/
theorem foldlM_insertDef_ok {vs : List VariableDef} {r r' : RuntimeInputs}
    (h : vs.foldlM insertDef r = .ok r') :
    (∀ v ∈ vs, ∃ a, addition? v = some a) ∧ r.accepted (additions vs) = additions vs ∧
      r' = r.addAll (additions vs) := by
  induction vs generalizing r with
  | nil => exact ⟨List.forall_mem_nil _, rfl, (Except.ok.inj h).symm⟩
  | cons v vs ih =>
    rw [List.foldlM_cons] at h
    cases hv : r.insertDef v with
    | error e =>
      rw [hv] at h
      cases h
    | ok r₁ =>
      rw [hv] at h
      obtain ⟨a, ha, hm, rfl⟩ := insertDef_cases hv
      obtain ⟨hsome, haccepted, hr'⟩ := ih h
      have hcons : additions (v :: vs) = a :: additions vs := List.filterMap_cons_some ha
      rw [hcons, accepted_cons_placed hm, addAll_cons, attempt_placed hm]
      exact ⟨List.forall_mem_cons.mpr ⟨⟨a, ha⟩, hsome⟩, congrArg (a :: ·) haccepted, hr'⟩

/-- Each variable adds something for itself. -/
theorem map_id_additions {vs : List VariableDef} (h : ∀ v ∈ vs, ∃ a, addition? v = some a) :
    (additions vs).map (·.id) = vs.map (·.id) := by
  induction vs with
  | nil => rfl
  | cons v vs ih =>
    obtain ⟨⟨a, ha⟩, hrest⟩ := List.forall_mem_cons.mp h
    have hcons : additions (v :: vs) = a :: additions vs := List.filterMap_cons_some ha
    rw [hcons, List.map_cons, List.map_cons, addition?_id ha, ih hrest]

/-- Additions add the variables of those that are accepted. -/
theorem perm_ids_addAll (r : RuntimeInputs) (as : List Addition) :
    (r.addAll as).ids.Perm (r.ids ++ (r.accepted as).map (·.id)) := by
  refine addAll_induction (motive := fun r as r' => r'.ids.Perm (r.ids ++ as.map (·.id)))
    (fun r => by rw [List.map_nil, List.append_nil]) (fun r a as r' hm ih => ?_) r as
  exact ih.trans (((perm_ids_place hm).append_right _).trans List.perm_middle.symm)

/-- A host object is expected for the variable, of the class that the variable declares. -/
def Expects (v : VariableDef) (n : NodeableInput) : Prop :=
  n.id = v.id ∧ v.dataType = .object n.className

/-- Host objects are expected in the order of declaration. -/
theorem forall₂_expects {vs : List VariableDef} (h : ∀ v ∈ vs, ∃ a, addition? v = some a) :
    List.Forall₂ Expects (vs.filter (·.isNodeable))
      ((additions vs).filterMap Addition.nodeable?) := by
  induction vs with
  | nil => exact .nil
  | cons v vs ih =>
    obtain ⟨⟨a, ha⟩, hrest⟩ := List.forall_mem_cons.mp h
    have hcons : additions (v :: vs) = a :: additions vs := List.filterMap_cons_some ha
    rw [hcons]
    rcases addition?_cases ha with ⟨d, hinit, rfl⟩ | ⟨s, hinit, rfl⟩ | ⟨c, hinit, htype, rfl⟩
    · rw [List.filter_cons_of_neg (by simp [VariableDef.isNodeable, hinit])]
      exact ih hrest
    · rw [List.filter_cons_of_neg (by simp [VariableDef.isNodeable, hinit])]
      exact ih hrest
    · rw [List.filter_cons_of_pos (by simp [VariableDef.isNodeable, hinit])]
      exact .cons ⟨rfl, htype⟩ (ih hrest)

/-- Each variable is in one bucket, with what it starts from. -/
structure Collected (vs : List VariableDef) (r : RuntimeInputs) : Prop where
  ids : r.ids.Perm (vs.map (·.id))
  entity : ∀ v ∈ vs, ∀ e, v.initializer = .value (.entityId e) → (v.id, e) ∈ r.entityIds
  value : ∀ v ∈ vs, ∀ d, v.initializer = .value d → (∀ e, d ≠ .entityId e) →
    (v.id, d) ∈ r.values
  static : ∀ v ∈ vs, ∀ s, v.initializer = .static s → (v.id, s) ∈ r.statics
  nodeable : List.Forall₂ Expects (vs.filter (·.isNodeable)) r.nodeables

/-- **The inputs of a model hold what its variables start from.** -/
theorem collected_of_ofModel {m : Model} {mode : ExecutionMode} {r : RuntimeInputs}
    (h : ofModel m mode = .ok r) : Collected m.members r := by
  obtain ⟨hsome, haccepted, hr⟩ := foldlM_insertDef_ok h
  have hmem : ∀ v ∈ m.members, ∀ a, addition? v = some a → a ∈ additions m.members :=
    fun v hv a ha => List.mem_filterMap.mpr ⟨v, hv, ha⟩
  have hids := perm_ids_addAll (start mode m.characteristics) (additions m.members)
  have hvalues := perm_values_addAll (start mode m.characteristics) (additions m.members)
  have hentities := perm_entityIds_addAll (start mode m.characteristics) (additions m.members)
  have hstatics := perm_statics_addAll (start mode m.characteristics) (additions m.members)
  have hnodeables := nodeables_addAll (start mode m.characteristics) (additions m.members)
  have hstart : (start mode m.characteristics).accepted (additions m.members) =
    additions m.members := haccepted
  rw [hstart] at hids hvalues hentities hstatics hnodeables
  have hr' : r = (start mode m.characteristics).addAll (additions m.members) := hr
  rw [hr']
  refine ⟨?_, ?_, ?_, ?_, ?_⟩
  · rw [← map_id_additions hsome]
    exact hids
  · intro v hv e hinit
    have ha : addition? v = some (.value v.id (.entityId e)) := by rw [addition?, hinit]
    exact hentities.mem_iff.mpr (List.mem_filterMap.mpr ⟨_, hmem v hv _ ha, rfl⟩)
  · intro v hv d hinit hne
    have ha : addition? v = some (.value v.id d) := by rw [addition?, hinit]
    refine hvalues.mem_iff.mpr (List.mem_filterMap.mpr ⟨_, hmem v hv _ ha, ?_⟩)
    cases d with
    | entityId e => exact absurd rfl (hne e)
    | boolean b => rfl
    | number x => rfl
    | string s => rfl
    | object o => rfl
  · intro v hv s hinit
    have ha : addition? v = some (.static v.id s) := by rw [addition?, hinit]
    exact hstatics.mem_iff.mpr (List.mem_filterMap.mpr ⟨_, hmem v hv _ ha, rfl⟩)
  · rw [hnodeables]
    exact forall₂_expects hsome

end RuntimeInputs

/-! ## Values of the machine -/

namespace Machine

variable {m : Machine} {v : Value} {s : StaticValue}

/-- The machine has the table at the address that the value is. -/
def HasTable (m : Machine) (v : Value) (t : Table) : Prop :=
  ∃ a, v = .table a ∧ m.tables[a]? = some t

/-- A table of items lists them, as far as 64 bits can number them. -/
theorem lists_itemTable {items : List Value} (hnil : ∀ v ∈ items, v.isNil = false)
    (hfew : items.length + 1 < Int64.size) : (itemTable items).Lists items := by
  have hfold : itemTable items =
      (Table.numbered items).foldl (fun (t : Table) e => t.set e.1 e.2) {} := by
    rw [Table.numbered, List.foldl_map]
    rfl
  exact hfold ▸ Table.lists_numbered hnil hfew

/-- A table of named values has each under its name. -/
theorem dictionary_namedTable {entries : List (String × Value)}
    (hnil : ∀ e ∈ entries, e.2.isNil = false) : (namedTable entries).Dictionary entries :=
  Table.dictionary_named hnil

/-- A static value is shown as that value.  Lists and lookups are tables of the machine: one that
lists the items under their numbers, if these have 64 bits, or one that has the numbers under their
names. -/
def Shows (m : Machine) : StaticValue → Value → Prop
  | .number x, v => v = .number (.ofFloat x)
  | .text s, v => v = .ofText s
  | .numberList xs, v => ∃ t, m.HasTable v t ∧
      (xs.length + 1 < Int64.size → t.Lists (xs.map fun x => .number (.ofFloat x)))
  | .textList ss, v => ∃ t, m.HasTable v t ∧
      (ss.length + 1 < Int64.size → t.Lists (ss.map .ofText))
  | .lookup entries, v => ∃ t, m.HasTable v t ∧
      t.Dictionary (entries.map fun e => (e.1, .number (.ofFloat e.2)))

/-- Embedding a static value may add a table. -/
theorem exists_embedStatic (m : Machine) (s : StaticValue) :
    (m.embedStatic s).2 = m ∨ ∃ t, (m.embedStatic s).2 = { m with tables := m.tables.push t } := by
  cases s with
  | number x => exact .inl rfl
  | text s => exact .inl rfl
  | numberList xs => exact .inr ⟨_, rfl⟩
  | textList ss => exact .inr ⟨_, rfl⟩
  | lookup entries => exact .inr ⟨_, rfl⟩

/-- A further static value leaves tables as they are. -/
theorem HasTable.embedStatic {t : Table} (h : m.HasTable v t) (s : StaticValue) :
    (m.embedStatic s).2.HasTable v t := by
  obtain ⟨a, hv, ha⟩ := h
  refine ⟨a, hv, ?_⟩
  rcases exists_embedStatic m s with hm | ⟨t', hm⟩
  · rw [hm, ha]
  · have hlt : a < m.tables.size := (Array.getElem?_eq_some_iff.mp ha).1
    rw [hm, Array.getElem?_push_lt hlt, ← Array.getElem?_eq_getElem hlt, ha]

theorem Shows.embedStatic (h : m.Shows s v) (s' : StaticValue) :
    (m.embedStatic s').2.Shows s v := by
  cases s with
  | number x => exact h
  | text s => exact h
  | numberList xs | textList ss | lookup entries =>
    obtain ⟨t, ht, hholds⟩ := h
    exact ⟨t, ht.embedStatic s', hholds⟩

theorem hasTable_push (m : Machine) (t : Table) :
    HasTable { m with tables := m.tables.push t } (.table m.tables.size) t :=
  ⟨_, rfl, Array.getElem?_push_size⟩

/-- **A static value is shown as what it is embedded as.** -/
theorem shows_embedStatic (m : Machine) (s : StaticValue) :
    (m.embedStatic s).2.Shows s (m.embedStatic s).1 := by
  cases s with
  | number x => rfl
  | text s => rfl
  | numberList xs =>
    refine ⟨_, hasTable_push m _, fun hfew => lists_itemTable ?_ ?_⟩
    · exact List.forall_mem_map.mpr fun _ _ => rfl
    · rwa [List.length_map]
  | textList ss =>
    refine ⟨_, hasTable_push m _, fun hfew => lists_itemTable ?_ ?_⟩
    · exact List.forall_mem_map.mpr fun _ _ => rfl
    · rwa [List.length_map]
  | lookup entries =>
    refine ⟨_, hasTable_push m _, dictionary_namedTable ?_⟩
    exact List.forall_mem_map.mpr fun _ _ => rfl

end Machine

/-! ## Entering a bucket -/

namespace Instance

/-- The key under which a constructor finds what a variable starts with. -/
def tokenKey (id : VariableId) : Key := .str id.token.toUTF8

theorem tokenKey_injective : Function.Injective tokenKey := fun _ _ h =>
  VariableId.token_injective (String.toByteArray_inj.mp (Key.str.inj h))

/-- A way to turn something into values, by which what was turned before stays as it was. -/
structure Embeds {α : Type} (embed : Machine → α → Value × Machine)
    (Shown : Machine → α → Value → Prop) : Prop where
  isNil : ∀ m a, (embed m a).1.isNil = false
  shown : ∀ m a, Shown (embed m a).2 a (embed m a).1
  kept : ∀ m a b v, Shown m b v → Shown (embed m a).2 b v

/-- The value carries the datum. -/
def Carries (_ : Machine) (d : Datum) (v : Value) : Prop := ∃ a, v = .ofDatum a d

theorem embeds_data : Embeds Machine.embed Carries where
  isNil m d := by cases d <;> rfl
  shown m d := ⟨m.nextHost, rfl⟩
  kept _ _ _ _ h := h

theorem embeds_statics : Embeds Machine.embedStatic Machine.Shows where
  isNil m s := by cases s <;> rfl
  shown := Machine.shows_embedStatic
  kept _ s' _ _ h := h.embedStatic s'

/-- The row of a table for a variable, under its token. -/
def Row {α : Type} (Held : α → Value → Prop) (e : VariableId × α) (row : Key × Value) : Prop :=
  row.1 = tokenKey e.1 ∧ Held e.2 row.2

section Enter

variable {α : Type} {embed : Machine → α → Value × Machine} {Shown : Machine → α → Value → Prop}
  (he : Embeds embed Shown) {m : Machine} {t : Table}

include he

/-- Entering more leaves what was entered. -/
theorem Embeds.enter {a : α} {v : Value} (h : Shown m a v) (es : List (VariableId × α)) :
    Shown (enter embed m t es).2 a v := by
  induction es generalizing m t with
  | nil => exact h
  | cons e es ih => exact ih (he.kept m e.2 a v h)

/-- **Entering a bucket adds one row for each variable**, if the table has none for it yet. -/
theorem Embeds.exists_rows {es : List (VariableId × α)} (hnd : (es.map (·.1)).Nodup)
    (hfresh : ∀ id ∈ es.map (·.1), tokenKey id ∉ t.entries.map (·.1)) :
    ∃ rows, (Instance.enter embed m t es).1.entries = t.entries ++ rows ∧
      List.Forall₂ (Row (Shown (Instance.enter embed m t es).2)) es rows := by
  induction es generalizing m t with
  | nil => exact ⟨[], (List.append_nil _).symm, .nil⟩
  | cons e es ih =>
    obtain ⟨hnotMem, hrest⟩ := List.nodup_cons.mp hnd
    obtain ⟨hkey, hkeys⟩ := List.forall_mem_cons.mp hfresh
    have hset : (t.set (tokenKey e.1) (embed m e.2).1).entries =
        t.entries ++ [(tokenKey e.1, (embed m e.2).1)] :=
      Table.entries_set hkey (he.isNil m e.2)
    have hfresh' : ∀ id ∈ es.map (·.1),
        tokenKey id ∉ (t.set (tokenKey e.1) (embed m e.2).1).entries.map (·.1) := by
      intro id hid hm
      rw [hset, List.map_append, List.mem_append] at hm
      rcases hm with hm | hm
      · exact hkeys id hid hm
      · have heq : id = e.1 := tokenKey_injective (List.mem_singleton.mp hm)
        rw [heq] at hid
        exact hnotMem hid
    obtain ⟨rows, hrows, hall⟩ := ih (m := (embed m e.2).2) hrest hfresh'
    refine ⟨(tokenKey e.1, (embed m e.2).1) :: rows, ?_, .cons ⟨rfl, ?_⟩ hall⟩
    · rw [hset, List.append_assoc] at hrows
      exact hrows
    · exact he.enter (he.shown m e.2) es

end Enter

/-- The rows of a bucket stand under the tokens of its variables. -/
theorem map_fst_rows {α : Type} {es : List (VariableId × α)} {rows : List (Key × Value)}
    {Held : α → Value → Prop} (h : List.Forall₂ (Row Held) es rows) :
    rows.map (·.1) = (es.map (·.1)).map tokenKey := by
  induction h with
  | nil => rfl
  | cons hrow _ ih => rw [List.map_cons, List.map_cons, List.map_cons, hrow.1, ih]

theorem exists_of_mem_left {α β : Type} {R : α → β → Prop} {as : List α} {bs : List β}
    (h : List.Forall₂ R as bs) {a : α} (ha : a ∈ as) : ∃ b ∈ bs, R a b := by
  induction h with
  | nil => cases ha
  | @cons a' b as bs hab _ ih =>
    rcases List.mem_cons.mp ha with rfl | hmem
    · exact ⟨b, List.mem_cons_self, hab⟩
    · obtain ⟨b', hb', hab'⟩ := ih hmem
      exact ⟨b', List.mem_cons_of_mem _ hb', hab'⟩

/-- Every entry of a bucket has a row. -/
theorem exists_row_of_mem {α : Type} {es : List (VariableId × α)} {rows : List (Key × Value)}
    {Held : α → Value → Prop} (h : List.Forall₂ (Row Held) es rows) {e : VariableId × α}
    (he : e ∈ es) : ∃ v, (tokenKey e.1, v) ∈ rows ∧ Held e.2 v := by
  obtain ⟨row, hmem, hkey, hheld⟩ := exists_of_mem_left h he
  exact ⟨row.2, hkey ▸ hmem, hheld⟩

/-! ## The table of inputs -/

section Inputs

variable {i : Instance} {objects : List ObjectRef}

/-- The variables of the data and of the static values are those of the inputs. -/
theorem perm_keys (hlen : objects.length = i.inputs.nodeables.length) :
    ((i.inputData objects).map (·.1) ++ i.inputs.statics.map (·.1)).Perm i.inputs.ids := by
  have hzip : (i.inputs.nodeables.zip objects).map (·.1.id) = i.inputs.nodeables.map (·.id) := by
    have hfst := List.map_fst_zip (Nat.le_of_eq hlen.symm)
    calc (i.inputs.nodeables.zip objects).map (·.1.id)
        = ((i.inputs.nodeables.zip objects).map Prod.fst).map (·.id) := List.map_map.symm
      _ = i.inputs.nodeables.map (·.id) := by rw [hfst]
  have hdata : (i.inputData objects).map (·.1) = i.inputs.values.map (·.1) ++
      i.inputs.entityIds.map (·.1) ++ i.inputs.nodeables.map (·.id) := by
    rw [inputData, List.map_append, List.map_append, List.map_map, List.map_map, ← hzip]
    rfl
  rw [hdata, RuntimeInputs.ids, List.append_assoc, List.append_assoc (_ ++ _)]
  exact List.perm_append_comm.append_left _

/-- **The table of inputs has one key for each variable, and holds what was entered for it.** -/
theorem inputsTable_spec (hlen : objects.length = i.inputs.nodeables.length)
    (hnd : i.inputs.ids.Nodup) (m : Machine) :
    ((i.inputsTable objects m).1.entries.map (·.1)).Perm (i.inputs.ids.map tokenKey) ∧
      (∀ e ∈ i.inputData objects, ∃ a,
        (i.inputsTable objects m).1.get (tokenKey e.1) = .ofDatum a e.2) ∧
      ∀ e ∈ i.inputs.statics, (i.inputsTable objects m).2.Shows e.2
        ((i.inputsTable objects m).1.get (tokenKey e.1)) := by
  obtain ⟨hdata, hstatics, hdisjoint⟩ :=
    List.nodup_append.mp ((perm_keys hlen).nodup_iff.mpr hnd)
  obtain ⟨rows, hrows, hshown⟩ := embeds_data.exists_rows (m := m) (t := {}) hdata
    fun _ _ => List.not_mem_nil
  have hfirst : (enter Machine.embed m {} (i.inputData objects)).1.entries.map (·.1) =
      ((i.inputData objects).map (·.1)).map tokenKey := by
    rw [hrows, ← map_fst_rows hshown]
    rfl
  have hfresh : ∀ id ∈ i.inputs.statics.map (·.1),
      tokenKey id ∉ (enter Machine.embed m {} (i.inputData objects)).1.entries.map (·.1) := by
    intro id hid hm
    rw [hfirst] at hm
    obtain ⟨id', hid', heq⟩ := List.mem_map.mp hm
    exact hdisjoint id' hid' id hid (tokenKey_injective heq)
  obtain ⟨rows', hrows', hshown'⟩ := embeds_statics.exists_rows
    (m := (enter Machine.embed m {} (i.inputData objects)).2) hstatics hfresh
  have hkeys : (i.inputsTable objects m).1.entries.map (·.1) =
      ((i.inputData objects).map (·.1) ++ i.inputs.statics.map (·.1)).map tokenKey := by
    have hboth := congrArg (List.map (·.1)) hrows'
    rw [List.map_append, hfirst, map_fst_rows hshown', ← List.map_append] at hboth
    exact hboth
  have hperm : ((i.inputsTable objects m).1.entries.map (·.1)).Perm
      (i.inputs.ids.map tokenKey) := hkeys ▸ (perm_keys hlen).map tokenKey
  have hunique := hperm.nodup_iff.mpr (hnd.map tokenKey_injective)
  refine ⟨hperm, fun e he => ?_, fun e he => ?_⟩
  · obtain ⟨v, hv, a, hva⟩ := exists_row_of_mem hshown he
    refine ⟨a, (Table.get_of_mem hunique ?_).trans hva⟩
    have hmem : (tokenKey e.1, v) ∈ (enter Machine.embed m {} (i.inputData objects)).1.entries := by
      rw [hrows]
      exact hv
    exact hrows'.symm ▸ List.mem_append_left _ hmem
  · obtain ⟨v, hv, hshows⟩ := exists_row_of_mem hshown' he
    have hmem : (tokenKey e.1, v) ∈ (i.inputsTable objects m).1.entries :=
      hrows'.symm ▸ List.mem_append_right _ hv
    rw [Table.get_of_mem hunique hmem]
    exact hshows

end Inputs

end Instance

end GraphScript
