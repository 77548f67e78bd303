import GraphScript.Proofs.Keys
import Mathlib.Data.List.Sort

/-!
# Proofs/Sorted — tables in the order of their keys

`insert` keeps the keys of a table ascending (`Sorted.insert`).  A new key adds one entry
(`perm_insert`), so a table is known by which entries it has, in whatever order they came
(`Sorted.eq_of_perm`), and looking a key up gives what it was last given (`get?_insert`).
-/

namespace GraphScript.Entries

variable {κ α : Type} [LT κ]

/-- The keys ascend. -/
def Sorted (es : List (κ × α)) : Prop := es.Pairwise fun d e => d.1 < e.1

section Order

variable [IsStrictTotalOrder κ (LT.lt : κ → κ → Prop)]

/-- Keys that are not in order either way are the same. -/
theorem eq_of_not_lt {j k : κ} (h : ¬ j < k) (h' : ¬ k < j) : j = k :=
  Std.Trichotomous.trichotomous j k h h'

theorem ne_of_lt_key {j k : κ} (h : j < k) : j ≠ k := by
  rintro rfl
  exact irrefl j h

/-- **A table in the order of its keys is known by its entries.** -/
theorem Sorted.eq_of_perm {es fs : List (κ × α)} (hes : Sorted es) (hfs : Sorted fs)
    (h : es.Perm fs) : es = fs :=
  h.eq_of_pairwise (fun _ _ _ _ hde hed => absurd hed (asymm hde)) hes hfs

theorem Sorted.nodup {es : List (κ × α)} (h : Sorted es) : (es.map (·.1)).Nodup :=
  List.pairwise_map.mpr (h.imp ne_of_lt_key)

end Order

variable [DecidableRel (LT.lt : κ → κ → Prop)]

/-- An entry of a table that was given a key is the new one or was there before. -/
theorem mem_insert {k : κ} {a : α} {x : κ × α} {es : List (κ × α)} (h : x ∈ insert es k a) :
    x = (k, a) ∨ x ∈ es := by
  induction es with
  | nil => exact Or.inl (List.mem_singleton.mp h)
  | cons e es ih =>
    rw [insert] at h
    split at h
    · exact List.mem_cons.mp h
    · split at h
      · rcases List.mem_cons.mp h with rfl | h
        · exact Or.inr List.mem_cons_self
        · exact (ih h).imp_right (List.mem_cons_of_mem _)
      · exact (List.mem_cons.mp h).imp_right (List.mem_cons_of_mem _)

/-- A key after all others goes to the end. -/
theorem insert_of_forall_lt [Std.Asymm (LT.lt : κ → κ → Prop)] {es : List (κ × α)} {k : κ}
    (h : ∀ e ∈ es, e.1 < k) (a : α) : insert es k a = es ++ [(k, a)] := by
  induction es with
  | nil => rfl
  | cons e es ih =>
    obtain ⟨hlt, hes⟩ := List.forall_mem_cons.mp h
    rw [insert, if_neg (asymm hlt), if_pos hlt, ih hes, List.cons_append]

/-- Entries whose keys ascend are in the order of their keys. -/
theorem Sorted.sorted_eq [Std.Asymm (LT.lt : κ → κ → Prop)] {es : List (κ × α)} (h : Sorted es) :
    sorted es = es := by
  refine foldl_eq_self fun before e after hsplit => insert_of_forall_lt (fun d hd => ?_) e.2
  rw [hsplit, Sorted, List.pairwise_append] at h
  exact h.2.2 d hd e List.mem_cons_self

variable [IsStrictTotalOrder κ (LT.lt : κ → κ → Prop)]

/-- A new key adds one entry. -/
theorem perm_insert {k : κ} (a : α) {es : List (κ × α)} (h : k ∉ es.map (·.1)) :
    (insert es k a).Perm ((k, a) :: es) := by
  induction es with
  | nil => exact .refl _
  | cons e es ih =>
    rw [List.map_cons, List.mem_cons, not_or] at h
    obtain ⟨hne, hrest⟩ := h
    by_cases hlt : k < e.1
    · rw [insert, if_pos hlt]
    · have hgt : e.1 < k := by
        by_contra hgt
        exact hne (eq_of_not_lt hlt hgt)
      rw [insert, if_neg hlt, if_pos hgt]
      exact ((ih hrest).cons e).trans (.swap _ _ _)

/-- **Giving a key a value keeps the keys ascending.** -/
theorem Sorted.insert {es : List (κ × α)} (h : Sorted es) (k : κ) (a : α) :
    Sorted (Entries.insert es k a) := by
  induction es with
  | nil => exact List.pairwise_singleton _ _
  | cons e es ih =>
    obtain ⟨hfirst, hrest⟩ := List.pairwise_cons.mp h
    rw [Entries.insert]
    split
    · rename_i hlt
      refine List.pairwise_cons.mpr ⟨fun x hx => ?_, h⟩
      rcases List.mem_cons.mp hx with rfl | hx
      · exact hlt
      · exact IsTrans.trans _ _ _ hlt (hfirst x hx)
    · split
      · rename_i hgt
        refine List.pairwise_cons.mpr ⟨fun x hx => ?_, ih hrest⟩
        rcases mem_insert hx with rfl | hx
        · exact hgt
        · exact hfirst x hx
      · rename_i hlt hgt
        have hk : e.1 = k := eq_of_not_lt hgt hlt
        exact List.pairwise_cons.mpr ⟨fun x hx => hk ▸ hfirst x hx, hrest⟩

/-- A key has what it was last given, and every other key what it had. -/
theorem get?_insert [DecidableEq κ] (es : List (κ × α)) (k j : κ) (a : α) :
    get? (insert es k a) j = if j = k then some a else get? es j := by
  induction es with
  | nil =>
    by_cases hj : j = k
    · simp [insert, get?, hj]
    · simp [insert, get?, hj, Ne.symm hj]
  | cons e es ih =>
    have hcons (f : κ × α) (fs : List (κ × α)) :
        get? (f :: fs) j = if f.1 = j then some f.2 else get? fs j := by
      by_cases hf : f.1 = j
      · simp [get?, hf]
      · simp [get?, hf]
    rw [insert]
    split
    · simp only [hcons, eq_comm]
    · split
      · rename_i hgt
        rw [hcons, hcons, ih]
        by_cases hj : j = k
        · rw [if_pos hj, if_pos hj, if_neg (hj ▸ ne_of_lt_key hgt)]
        · rw [if_neg hj, if_neg hj]
      · rename_i hlt hgt
        have hk : e.1 = k := eq_of_not_lt hgt hlt
        rw [hcons, hcons, hk]
        by_cases hj : j = k
        · rw [if_pos hj, if_pos hj.symm]
        · rw [if_neg hj, if_neg (Ne.symm hj), if_neg (Ne.symm hj)]

end GraphScript.Entries
