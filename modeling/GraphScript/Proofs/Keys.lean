import GraphScript.Model
import Mathlib.Data.List.Induction
import Mathlib.Data.List.Nodup

/-!
# Proofs/Keys — tables and their keys

A table gives a key one value: `put` keeps its keys pairwise different, as those of a model that was
read are (`Model.Keyed`).  A model that was built keeps every declaration under the identifier that
the declaration itself carries, `Model.OwnKeys`; there, looking a function up by key and finding it
by its identifier are the same (`OwnKeys.functionAt?_eq_some`).
-/

namespace GraphScript

namespace Entries

variable {κ α : Type} [DecidableEq κ]

/-- What is looked up is there. -/
theorem mem_of_get? {es : List (κ × α)} {k : κ} {a : α} (h : get? es k = some a) : (k, a) ∈ es := by
  obtain ⟨⟨k', a'⟩, hfind, rfl⟩ := Option.map_eq_some_iff.mp h
  have hk : k' = k := by simpa using List.find?_some hfind
  exact hk ▸ List.mem_of_find?_eq_some hfind

/-- A key is found if it is there. -/
theorem isSome_get? {es : List (κ × α)} {k : κ} : (get? es k).isSome ↔ k ∈ es.map (·.1) := by
  rw [get?, Option.isSome_map, List.find?_isSome, List.mem_map]
  simp

/-- An entry is found by its key, if no other has that key. -/
theorem get?_of_mem {es : List (κ × α)} (hnd : (es.map (·.1)).Nodup) {k : κ} {a : α}
    (h : (k, a) ∈ es) : get? es k = some a := by
  obtain ⟨b, hb⟩ := Option.isSome_iff_exists.mp (isSome_get?.mpr (List.mem_map_of_mem h))
  obtain rfl : b = a :=
    congrArg Prod.snd (List.inj_on_of_nodup_map hnd (mem_of_get? hb) h rfl)
  exact hb

/-- A table goes before those behind it. -/
theorem get?_append {es fs : List (κ × α)} {k : κ} :
    get? (es ++ fs) k = (get? es k).or (get? fs k) := by
  rw [get?, List.find?_append, Option.map_or]
  rfl

/-- Putting a key leaves the keys in place, and adds it behind them if it is new. -/
theorem map_fst_put {k : κ} {a : α} : ∀ es : List (κ × α),
    (put es k a).map (·.1) = if k ∈ es.map (·.1) then es.map (·.1) else es.map (·.1) ++ [k]
  | [] => by simp [put]
  | e :: es => by
      by_cases h : e.1 = k
      · simp [put, h]
      · have hk : k ≠ e.1 := fun he => h he.symm
        rw [put, if_neg h, List.map_cons, map_fst_put es]
        by_cases hm : k ∈ es.map (·.1)
        · simp [hm]
        · rw [if_neg hm, List.map_cons, if_neg (by simpa [hk] using hm), List.cons_append]

/-- **A table keeps its keys pairwise different.** -/
theorem nodup_put {es : List (κ × α)} (h : (es.map (·.1)).Nodup) (k : κ) (a : α) :
    ((put es k a).map (·.1)).Nodup := by
  rw [map_fst_put]
  split
  · exact h
  · rename_i hk
    exact List.nodup_append.mpr ⟨h, List.nodup_singleton k, fun x hx y hy hxy =>
      hk (List.mem_singleton.mp hy ▸ hxy ▸ hx)⟩

/-- A list that is put together from its items in turn. -/
theorem foldl_eq_self {β : Type} {f : List β → β → List β} {es : List β}
    (h : ∀ before e after, es = before ++ e :: after → f before e = before ++ [e]) :
    es.foldl f [] = es := by
  induction es using List.reverseRecOn with
  | nil => rfl
  | append_singleton es e ih =>
    have hes : es.foldl f [] = es := ih fun before d after hsplit =>
      h before d (after ++ [e]) (by rw [hsplit, List.append_assoc, List.cons_append])
    rw [List.foldl_append, hes]
    exact h es e [] rfl

/-- A new key goes to the end. -/
theorem put_of_notMem {es : List (κ × α)} {k : κ} (h : k ∉ es.map (·.1)) (a : α) :
    put es k a = es ++ [(k, a)] := by
  induction es with
  | nil => rfl
  | cons e es ih =>
    rw [List.map_cons, List.mem_cons, not_or] at h
    rw [put, if_neg (Ne.symm h.1), ih h.2, List.cons_append]

/-- A key has what it was last given, and every other key what it had. -/
theorem get?_put (es : List (κ × α)) (k j : κ) (a : α) :
    get? (put es k a) j = if k = j then some a else get? es j := by
  induction es with
  | nil => by_cases hj : k = j <;> simp [put, get?, hj]
  | cons e es ih =>
    have hcons (f : κ × α) (fs : List (κ × α)) :
        get? (f :: fs) j = if f.1 = j then some f.2 else get? fs j := by
      by_cases hf : f.1 = j <;> simp [get?, hf]
    rw [put, hcons]
    split
    · rename_i he
      subst he
      rw [hcons]
      by_cases hj : e.1 = j <;> simp [hj]
    · rename_i he
      rw [hcons, ih]
      by_cases hj : e.1 = j
      · rw [if_pos hj, if_pos hj, if_neg fun hk => he (hj.trans hk.symm)]
      · rw [if_neg hj, if_neg hj]

/-- A table with pairwise different keys is the one that its entries make in turn. -/
theorem foldl_put_eq_self {es : List (κ × α)} (h : (es.map (·.1)).Nodup) :
    es.foldl (fun es e => put es e.1 e.2) [] = es := by
  refine foldl_eq_self fun before e after hsplit => put_of_notMem (fun hmem => ?_) e.2
  rw [hsplit, List.map_append, List.map_cons] at h
  exact List.disjoint_of_nodup_append h hmem List.mem_cons_self

end Entries

namespace Model

theorem mem_functionEntries {m : Model} {id : FunctionId} {f : FunctionDef}
    (h : m.functionAt? id = some f) : (id, f) ∈ m.functionEntries := Entries.mem_of_get? h

/-- Functions that are looked up are functions of the model. -/
theorem mem_functions {m : Model} {id : FunctionId} {f : FunctionDef}
    (h : m.functionAt? id = some f) : f ∈ m.functions :=
  List.mem_map.mpr ⟨(id, f), mem_functionEntries h, rfl⟩

/-- The tables have pairwise different keys. -/
def Keyed (m : Model) : Prop :=
  (m.variableEntries.map (·.1)).Nodup ∧ (m.functionEntries.map (·.1)).Nodup

/-- Every declaration is stored once, under its own identifier. -/
structure OwnKeys (m : Model) : Prop where
  variables_nodup : (m.variableEntries.map (·.1)).Nodup
  functions_nodup : (m.functionEntries.map (·.1)).Nodup
  variable_id : ∀ e ∈ m.variableEntries, e.2.id = e.1
  function_id : ∀ e ∈ m.functionEntries, e.2.id = e.1

namespace OwnKeys

variable {m : Model} (hk : m.OwnKeys)

include hk

/-- Variables are identified by their keys. -/
theorem map_variable_id : m.members.map (·.id) = m.variableEntries.map (·.1) := by
  rw [members, List.map_map]
  exact List.map_congr_left hk.variable_id

theorem map_function_id : m.functions.map (·.id) = m.functionEntries.map (·.1) := by
  rw [functions, List.map_map]
  exact List.map_congr_left hk.function_id

/-- Identifiers of variables are distinct. -/
theorem variable_ids_nodup : (m.members.map (·.id)).Nodup := hk.map_variable_id ▸ hk.variables_nodup

theorem function_ids_nodup : (m.functions.map (·.id)).Nodup :=
  hk.map_function_id ▸ hk.functions_nodup

/-- **The function under a key is the function with that identifier.** -/
theorem functionAt?_eq_some {id : FunctionId} {f : FunctionDef} :
    m.functionAt? id = some f ↔ f ∈ m.functions ∧ f.id = id := by
  constructor
  · intro h
    exact ⟨mem_functions h, hk.function_id _ (mem_functionEntries h)⟩
  · rintro ⟨hf, rfl⟩
    obtain ⟨⟨k, f⟩, hmem, rfl⟩ := List.mem_map.mp hf
    have hid : f.id = k := hk.function_id _ hmem
    exact Entries.get?_of_mem hk.functions_nodup (hid ▸ hmem)

/-- A function that is looked up is the first with its identifier. -/
theorem functionAt?_eq_find? (id : FunctionId) :
    m.functionAt? id = m.functions.find? (·.id = id) := by
  cases hfind : m.functions.find? (·.id = id) with
  | none =>
    refine Option.eq_none_iff_forall_ne_some.mpr fun f hf => ?_
    obtain ⟨hmem, hid⟩ := hk.functionAt?_eq_some.mp hf
    exact List.find?_eq_none.mp hfind f hmem (decide_eq_true hid)
  | some f =>
    have hid : f.id = id := by simpa using List.find?_some hfind
    exact hk.functionAt?_eq_some.mpr ⟨List.mem_of_find?_eq_some hfind, hid⟩

/-- A function is found by its identifier. -/
theorem functionAt?_id {f : FunctionDef} (hf : f ∈ m.functions) : m.functionAt? f.id = some f :=
  hk.functionAt?_eq_some.mpr ⟨hf, rfl⟩

end OwnKeys

instance (m : Model) : Decidable m.OwnKeys :=
  decidable_of_iff
    ((m.variableEntries.map (·.1)).Nodup ∧ (m.functionEntries.map (·.1)).Nodup ∧
      (∀ e ∈ m.variableEntries, e.2.id = e.1) ∧ ∀ e ∈ m.functionEntries, e.2.id = e.1)
    ⟨fun ⟨h₁, h₂, h₃, h₄⟩ => ⟨h₁, h₂, h₃, h₄⟩, fun ⟨h₁, h₂, h₃, h₄⟩ => ⟨h₁, h₂, h₃, h₄⟩⟩

end Model

end GraphScript
