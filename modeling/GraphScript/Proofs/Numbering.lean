import GraphScript.Proofs.Building

/-!
# Proofs/Numbering — the number of the next function

A function that is declared gets the greatest of the numbers that follow a key.  Numbers have 32
bits, and none follows the last: if that is a key, the declaration stops.  Else the number is greater
than all keys (`toNat_lt_wrappedNext`), whatever keys a model that was read has, so the function goes
to the end and leaves all others where and as they are (`addFunction_undisturbed`).
-/

namespace GraphScript

/-- The function of the number before the greatest. -/
def FunctionId.secondLast : FunctionId := ⟨0xfffffffe⟩

theorem FunctionId.eq_of_toNat_eq {a b : FunctionId} (h : a.val.toNat = b.val.toNat) : a = b :=
  congrArg FunctionId.mk (UInt32.toNat_inj.mp h)

namespace Model

/-! ## The greatest of the numbers that follow -/

theorem toNat_max (a b : UInt32) : (max a b).toNat = max a.toNat b.toNat := by
  have hmax : max a b = if a ≤ b then b else a := rfl
  rw [hmax]
  split
  · rename_i h
    exact (Nat.max_eq_right (UInt32.le_iff_toNat_le.mp h)).symm
  · rename_i h
    exact (Nat.max_eq_left (Nat.le_of_not_le (mt UInt32.le_iff_toNat_le.mpr h))).symm

/-- The greatest is at least what it was taken from. -/
theorem le_toNat_foldl_max (es : List (FunctionId × FunctionDef)) (n : UInt32) :
    n.toNat ≤ (es.foldl (fun n e => max n (e.1.val + 1)) n).toNat ∧
      ∀ e ∈ es, (e.1.val + 1).toNat ≤ (es.foldl (fun n e => max n (e.1.val + 1)) n).toNat := by
  induction es generalizing n with
  | nil => exact ⟨Nat.le_refl _, fun _ h => absurd h List.not_mem_nil⟩
  | cons e es ih =>
    obtain ⟨hinit, hrest⟩ := ih (max n (e.1.val + 1))
    rw [toNat_max, Nat.max_le] at hinit
    exact ⟨hinit.1, List.forall_mem_cons.mpr ⟨hinit.2, hrest⟩⟩

/-- The greatest is one of what it was taken from. -/
theorem foldl_max_eq (es : List (FunctionId × FunctionDef)) (n : UInt32) :
    es.foldl (fun n e => max n (e.1.val + 1)) n = n ∨
      ∃ e ∈ es, es.foldl (fun n e => max n (e.1.val + 1)) n = e.1.val + 1 := by
  induction es generalizing n with
  | nil => exact .inl rfl
  | cons e es ih =>
    rw [List.foldl_cons]
    obtain heq | ⟨e', he', heq⟩ := ih (max n (e.1.val + 1))
    · rw [heq]
      by_cases hle : n ≤ e.1.val + 1
      · exact .inr ⟨e, List.mem_cons_self, if_pos hle⟩
      · exact .inl (if_neg hle)
    · exact .inr ⟨e', List.mem_cons_of_mem e he', heq⟩

variable {m : Model}

/-- A key is at most as great as the number that follows all, unless it is the last. -/
theorem toNat_lt_wrappedNext {id : FunctionId} (hid : id ∈ m.functionEntries.map (·.1))
    (hlast : id ≠ .last) : id.val.toNat < m.wrappedNext.toNat := by
  obtain ⟨e, he, rfl⟩ := List.mem_map.mp hid
  have hle : (e.1.val + 1).toNat ≤ m.wrappedNext.toNat :=
    (le_toNat_foldl_max m.functionEntries 0).2 e he
  have hlt : e.1.val.toNat < 4294967296 := e.1.val.toNat_lt
  have hne : e.1.val.toNat ≠ 4294967295 := fun heq => hlast (FunctionId.eq_of_toNat_eq heq)
  rw [UInt32.toNat_add] at hle
  have hone : (1 : UInt32).toNat = 1 := rfl
  omega

/-- **Counted on from zero, the next number is taken exactly if the last two are.** -/
theorem wrappedNext_mem_iff : ⟨m.wrappedNext⟩ ∈ m.functionEntries.map (·.1) ↔
    .secondLast ∈ m.functionEntries.map (·.1) ∧ .last ∈ m.functionEntries.map (·.1) := by
  constructor
  · intro hmem
    have hlast : ⟨m.wrappedNext⟩ = FunctionId.last := by
      by_contra hne
      exact Nat.lt_irrefl _ (toNat_lt_wrappedNext hmem hne)
    refine ⟨?_, hlast ▸ hmem⟩
    have hnext : m.wrappedNext = 0xffffffff := congrArg FunctionId.val hlast
    obtain hzero | ⟨e, he, heq⟩ := foldl_max_eq m.functionEntries 0
    · exact absurd (hzero.symm.trans hnext) (by decide)
    · have hbefore : e.1 = .secondLast := by
        have hsucc : e.1.val + 1 = 0xfffffffe + 1 := heq.symm.trans hnext
        exact congrArg FunctionId.mk ((UInt32.add_left_inj 1).mp hsucc)
      exact List.mem_map.mpr ⟨e, he, hbefore⟩
  · rintro ⟨hsecond, hlast⟩
    have hlt := toNat_lt_wrappedNext hsecond (by decide)
    have hmax : m.wrappedNext.toNat < 4294967296 := m.wrappedNext.toNat_lt
    have hsecondVal : FunctionId.secondLast.val.toNat = 4294967294 := rfl
    have hnext : (⟨m.wrappedNext⟩ : FunctionId) = .last :=
      FunctionId.eq_of_toNat_eq (show m.wrappedNext.toNat = 4294967295 by omega)
    rwa [hnext]

/-! ## Declaring a function -/

section Declaring

variable (m : Model) (name : String) (kind : FunctionKind) (params returns locals : List Param)
  (body : List Statement) (origin : NodeId)

/-- **What comes of declaring a function.**  It is refused for its name, or stops for want of a
number, or goes to the end under the next number. -/
theorem addFunction_eq : m.addFunction name kind params returns locals body origin =
    if name ∈ m.functions.map (·.name) then .error (.duplicateFunction name)
    else if .last ∈ m.functionEntries.map (·.1) then .error .overflow
    else .ok (⟨m.wrappedNext⟩, { m with functionEntries := m.functionEntries ++
      [(⟨m.wrappedNext⟩,
        { id := ⟨m.wrappedNext⟩, name, kind, params, returns, locals, body, origin })] }) := by
  rw [addFunction, nextFunctionId?_eq]
  by_cases hname : name ∈ m.functions.map (·.name)
  · rw [if_pos hname, if_pos (functionNamed?_isSome.mpr hname)]
  · rw [if_neg hname, if_neg (mt functionNamed?_isSome.mp hname)]
    by_cases hlast : .last ∈ m.functionEntries.map (·.1)
    · rw [if_pos hlast, if_pos hlast]
    · have hfresh := mt wrappedNext_mem_iff.mp fun htaken => hlast htaken.2
      rw [if_neg hlast, if_neg hlast]
      simp only [Entries.put_of_notMem hfresh]

variable {m name kind params returns locals body origin} in
/-- A function that was declared has a new name and stands at the end, under a new key. -/
theorem addFunction_ok {id : FunctionId} {m' : Model}
    (h : m.addFunction name kind params returns locals body origin = .ok (id, m')) :
    (name ∉ m.functions.map (·.name) ∧ .last ∉ m.functionEntries.map (·.1)) ∧
      id ∉ m.functionEntries.map (·.1) ∧ id.val = m.wrappedNext ∧
      m' = { m with functionEntries := m.functionEntries ++
        [(id, { id, name, kind, params, returns, locals, body, origin })] } := by
  rw [addFunction_eq] at h
  split at h
  · cases h
  · split at h
    · cases h
    · rename_i hname hlast
      obtain ⟨rfl, rfl⟩ := Prod.mk.inj (Except.ok.inj h)
      exact ⟨⟨hname, hlast⟩, mt wrappedNext_mem_iff.mp fun htaken => hlast htaken.2, rfl, rfl⟩

end Declaring

end Model

end GraphScript
