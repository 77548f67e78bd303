import GraphScript.Names
import Mathlib.Data.List.Forall2
import Mathlib.Data.List.Nodup
import Mathlib.Data.List.Perm.Basic

/-!
# Proofs/Names/Reserve — the first free spelling

The spellings of an identifier are pairwise different, so among one more than there are taken one is
free: `reserve_spec` says that `reserve` gives the first of them.  Identifiers that are reserved one
after the other are therefore pairwise different (`nodup_reserveAll`), and each is a spelling of its
own base (`made_reserveAll`).
-/

namespace GraphScript.Names

/-! ## Spellings -/

theorem candidate_succ (base : String) (n : Nat) :
    candidate base (n + 1) = base ++ "_" ++ (n + 2).repr := by
  rw [candidate]
  rfl

/-- Spellings with different numbers differ. -/
theorem candidate_injective (base : String) : Function.Injective (candidate base)
  | 0, 0, _ => rfl
  | 0, n + 1, h => by
      rw [candidate_succ, candidate] at h
      have := congrArg (fun s => s.toList.length) h
      simp at this
  | n + 1, 0, h => by
      rw [candidate_succ, candidate] at h
      have := congrArg (fun s => s.toList.length) h
      simp at this
  | n + 1, k + 1, h => by
      rw [candidate_succ, candidate_succ, String.append_right_inj] at h
      have hdigits := congrArg (fun s => Nat.ofDigitChars 10 s.toList 0) h
      simpa [Nat.toList_repr] using hdigits

/-- Not every spelling is taken. -/
theorem exists_candidate_notMem (used : List String) (base : String) :
    ∃ k ≤ used.length, candidate base k ∉ used := by
  by_contra hall
  have hsub : (List.range (used.length + 1)).map (candidate base) ⊆ used := fun s hs => by
    obtain ⟨k, hk, rfl⟩ := List.mem_map.mp hs
    by_contra hfree
    exact hall ⟨k, Nat.le_of_lt_succ (List.mem_range.mp hk), hfree⟩
  have hnodup := List.Nodup.map (candidate_injective base)
    (List.nodup_range (n := used.length + 1))
  have hle := hnodup.length_le_of_subset hsub
  rw [List.length_map, List.length_range] at hle
  omega

/-- The spelling with this number is the first that is not taken. -/
structure FirstFree (used : List String) (base : String) (k : Nat) : Prop where
  free : candidate base k ∉ used
  taken : ∀ j < k, candidate base j ∈ used

/-- **A reserved identifier is the first spelling that is not taken.** -/
theorem reserve_spec (used : List String) (base : String) :
    ∃ k, reserve used base = candidate base k ∧ FirstFree used base k := by
  rw [reserve, List.find?_map]
  cases hfind : (List.range (used.length + 1)).find? ((fun s => decide (s ∉ used)) ∘ candidate base)
    with
  | none =>
    obtain ⟨k, hk, hfree⟩ := exists_candidate_notMem used base
    have htaken := List.find?_eq_none.mp hfind k (List.mem_range.mpr (Nat.lt_succ_of_le hk))
    exact absurd (decide_eq_true hfree) htaken
  | some k =>
    obtain ⟨hfree, _, hfirst⟩ := List.find?_range_eq_some.mp hfind
    refine ⟨k, rfl, of_decide_eq_true hfree, fun j hj => ?_⟩
    simpa using hfirst j hj

namespace FirstFree

variable {used : List String} {base : String} {k : Nat}

theorem unique {k' : Nat} (h : FirstFree used base k) (h' : FirstFree used base k') : k = k' := by
  obtain hlt | heq | hlt := Nat.lt_trichotomy k k'
  · exact absurd (h'.taken k hlt) h.free
  · exact heq
  · exact absurd (h.taken k' hlt) h'.free

/-- The first free spelling is what is reserved. -/
theorem reserve_eq (h : FirstFree used base k) : reserve used base = candidate base k := by
  obtain ⟨k', hk', h'⟩ := reserve_spec used base
  rw [hk', h'.unique h]

/-- At most as many spellings are passed over as there are taken names. -/
theorem le_length (h : FirstFree used base k) : k ≤ used.length := by
  obtain ⟨k', hle, hfree⟩ := exists_candidate_notMem used base
  refine Nat.le_trans (Nat.le_of_not_lt fun hlt => ?_) hle
  exact hfree (h.taken k' hlt)

end FirstFree

/-- What is reserved was free. -/
theorem reserve_notMem (used : List String) (base : String) : reserve used base ∉ used := by
  obtain ⟨k, hk, hfree, _⟩ := reserve_spec used base
  exact hk ▸ hfree

/-! ## One after the other -/

/-- The identifier is a spelling of the base. -/
def Made (base name : String) : Prop := ∃ k, name = candidate base k

/-- Every base is given a spelling of its own. -/
theorem made_reserveAll : ∀ (used bases : List String),
    List.Forall₂ Made bases (reserveAll used bases)
  | _, [] => .nil
  | used, base :: bases => by
      obtain ⟨k, hk, _⟩ := reserve_spec used base
      exact .cons ⟨k, hk⟩ (made_reserveAll _ bases)

@[simp] theorem length_reserveAll (used bases : List String) :
    (reserveAll used bases).length = bases.length := (made_reserveAll used bases).length_eq.symm

/-- **Identifiers reserved one after the other are pairwise different**, and none was taken. -/
theorem nodup_reserveAll : ∀ (used bases : List String),
    (reserveAll used bases).Nodup ∧ ∀ name ∈ reserveAll used bases, name ∉ used
  | _, [] => ⟨List.nodup_nil, fun _ h => absurd h List.not_mem_nil⟩
  | used, base :: bases => by
      obtain ⟨hnd, hfree⟩ := nodup_reserveAll (reserve used base :: used) bases
      refine ⟨List.nodup_cons.mpr ⟨fun hm => hfree _ hm List.mem_cons_self, hnd⟩, fun name h => ?_⟩
      rcases List.mem_cons.mp h with rfl | h
      · exact reserve_notMem used base
      · exact fun hm => hfree name h (List.mem_cons_of_mem _ hm)

/-- A base that is not taken at first is among the identifiers: whoever asks for it first gets it. -/
theorem mem_reserveAll_of_mem {base : String} : ∀ {used bases : List String},
    base ∈ bases → base ∈ used ∨ base ∈ reserveAll used bases
  | used, b :: bases, h => by
      rcases List.mem_cons.mp h with rfl | h
      · obtain ⟨k, hk, _, hfirst⟩ := reserve_spec used base
        cases k with
        | zero =>
          rw [reserveAll, hk]
          exact Or.inr List.mem_cons_self
        | succ k => exact Or.inl (hfirst 0 (Nat.succ_pos k))
      · have hrest : base ∈ reserve used b :: used ∨
            base ∈ reserveAll (reserve used b :: used) bases := mem_reserveAll_of_mem h
        rcases hrest with hm | hm
        · rcases List.mem_cons.mp hm with rfl | hm
          · exact Or.inr List.mem_cons_self
          · exact Or.inl hm
        · exact Or.inr (List.mem_cons_of_mem _ hm)

/-- A spelling begins with its base. -/
theorem Made.exists_append {base name : String} (h : Made base name) :
    ∃ rest, name = base ++ rest := by
  obtain ⟨k, rfl⟩ := h
  cases k with
  | zero => exact ⟨"", by simp [candidate]⟩
  | succ k => exact ⟨"_" ++ (k + 2).repr, by rw [candidate_succ, String.append_assoc]⟩

/-! ## Characters -/

/-- A text of letters, digits and underscores. -/
def Plain (s : String) : Prop := ∀ c ∈ s.toList, c.isAlphanum = true ∨ c = '_'

instance (s : String) : Decidable (Plain s) := List.decidableBAll _ s.toList

theorem plain_append {s t : String} : Plain (s ++ t) ↔ Plain s ∧ Plain t := by
  simp only [Plain, String.toList_append, List.mem_append]
  exact ⟨fun h => ⟨fun c hc => h c (Or.inl hc), fun c hc => h c (Or.inr hc)⟩,
    fun h c hc => hc.elim (h.1 c) (h.2 c)⟩

theorem plain_repr (n : Nat) : Plain n.repr := fun c hc => by
  rw [Nat.toList_repr] at hc
  have hdigit := Nat.isDigit_of_mem_toDigits (by decide) (by decide) hc
  exact Or.inl (by simp [Char.isAlphanum, hdigit])

theorem plain_cleanName (name : String) : Plain (cleanName name) := by
  unfold cleanName
  split
  · decide
  · intro c hc
    rw [String.toList_map] at hc
    obtain ⟨d, _, rfl⟩ := List.mem_map.mp hc
    by_cases hd : d.isAlphanum || d == '_'
    · rw [if_pos hd]
      simpa using hd
    · rw [if_neg hd]
      exact Or.inr rfl

/-- A spelling of a plain base is plain. -/
theorem Made.plain {base name : String} (h : Made base name) (hb : Plain base) : Plain name := by
  obtain ⟨k, rfl⟩ := h
  cases k with
  | zero => exact hb
  | succ k =>
    rw [candidate_succ]
    exact plain_append.mpr ⟨plain_append.mpr ⟨hb, by decide⟩, plain_repr _⟩

end GraphScript.Names
