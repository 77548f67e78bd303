import GraphScript.Proofs.Names.Lookup
import GraphScript.Script.Value

/-!
# Proofs/Script/Table — what a table holds after assignments

A key holds what it was last assigned (`get_foldl_set`), and different keys that a table did not have
are its new entries (`entries_foldl_set`).  So a table of items has each under its number, and a
script counts as many as there are (`Lists`); a table of named values has each under its name
(`Dictionary`).  Neither has anything else.
-/

namespace GraphScript.Script.Table

variable {k : Key} {v : Value}

theorem get_set_self (t : Table) (hv : v.isNil = false) : (t.set k v).get k = v := by
  have hothers : (t.entries.filter fun e => e.1 ≠ k).find? (fun e => e.1 = k) = none := by
    simp [List.find?_eq_none]
  simp only [get, set, hv, Bool.false_eq_true, if_false]
  rw [List.find?_append, hothers]
  simp

theorem get_set_of_ne (t : Table) {j : Key} (hj : j ≠ k) : (t.set k v).get j = t.get j := by
  have hothers : (t.entries.filter fun e => e.1 ≠ k).find? (fun e => e.1 = j) =
      t.entries.find? fun e => e.1 = j := by
    rw [List.find?_filter]
    refine congrArg (t.entries.find? ·) (funext fun e => ?_)
    by_cases he : e.1 = j
    · simp [he, hj]
    · simp [he]
  simp only [get, set]
  split
  · rw [hothers]
  · rw [List.find?_append, hothers]
    simp [Ne.symm hj]

/-- **A key holds what it was last assigned.** -/
theorem get_foldl_set (k : Key) : ∀ {assigned : List (Key × Value)} (t : Table),
    (∀ e ∈ assigned, e.2.isNil = false) →
      (assigned.foldl (fun t e => t.set e.1 e.2) t).get k =
        (Names.last? assigned k).getD (t.get k)
  | [], _, _ => rfl
  | e :: assigned, t, h => by
      obtain ⟨he, hrest⟩ := List.forall_mem_cons.mp h
      have hfirst : (t.set e.1 e.2).get k = (Names.last? [e] k).getD (t.get k) := by
        by_cases hk : e.1 = k
        · rw [← hk, get_set_self t he]
          simp [Names.last?, Entries.get?]
        · rw [get_set_of_ne t (Ne.symm hk)]
          simp [Names.last?, Entries.get?, hk]
      have hsplit : Names.last? (e :: assigned) k =
          (Names.last? assigned k).or (Names.last? [e] k) := by
        rw [← List.singleton_append (x := e), Names.last?_append]
      rw [List.foldl_cons, get_foldl_set k _ hrest, hfirst, hsplit, Option.getD_or]

theorem entries_set {t : Table} (hk : k ∉ t.entries.map (·.1)) (hv : v.isNil = false) :
    (t.set k v).entries = t.entries ++ [(k, v)] := by
  have hothers : t.entries.filter (fun e => e.1 ≠ k) = t.entries := by
    refine List.filter_eq_self.mpr fun e he => decide_eq_true fun heq => ?_
    exact hk (heq ▸ List.mem_map_of_mem he)
  simp only [set, hv, hothers, Bool.false_eq_true, if_false]

/-- **Assignments to different new keys are the new entries.** -/
theorem entries_foldl_set {assigned : List (Key × Value)} {t : Table}
    (hnil : ∀ e ∈ assigned, e.2.isNil = false)
    (hnd : ((t.entries ++ assigned).map (·.1)).Nodup) :
    (assigned.foldl (fun t e => t.set e.1 e.2) t).entries = t.entries ++ assigned := by
  induction assigned generalizing t with
  | nil => exact (List.append_nil _).symm
  | cons e assigned ih =>
    obtain ⟨he, hrest⟩ := List.forall_mem_cons.mp hnil
    have hnew : e.1 ∉ t.entries.map (·.1) := by
      rw [List.map_append] at hnd
      exact fun hmem => (List.nodup_append.mp hnd).2.2 _ hmem _ List.mem_cons_self rfl
    have hset : (t.set e.1 e.2).entries = t.entries ++ [e] := entries_set hnew he
    rw [List.foldl_cons, ih hrest (by rwa [hset, List.append_assoc]), hset, List.append_assoc]
    rfl

theorem metatable_foldl_set (assigned : List (Key × Value)) (t : Table) :
    (assigned.foldl (fun t e => t.set e.1 e.2) t).metatable = t.metatable := by
  induction assigned generalizing t with
  | nil => rfl
  | cons e assigned ih => exact ih (t.set e.1 e.2)

theorem listed_foldl_set (assigned : List (Key × Value)) (t : Table) :
    (assigned.foldl (fun t e => t.set e.1 e.2) t).listed = t.listed := by
  induction assigned generalizing t with
  | nil => rfl
  | cons e assigned ih => exact ih (t.set e.1 e.2)

/-- An entry is found by its key. -/
theorem get_of_mem {t : Table} (hnd : (t.entries.map (·.1)).Nodup) (h : (k, v) ∈ t.entries) :
    t.get k = v := by
  have hget : Entries.get? t.entries k = some v := Entries.get?_of_mem hnd h
  rw [get, ← Entries.get?, hget]
  rfl

/-- A key without an entry holds nothing. -/
theorem get_of_notMem {t : Table} (h : k ∉ t.entries.map (·.1)) : t.get k = .nil := by
  have hget : Entries.get? t.entries k = none :=
    Option.not_isSome_iff_eq_none.mp (mt Entries.isSome_get?.mp h)
  rw [get, ← Entries.get?, hget]
  rfl

/-! ## Items -/

/-- The key of an item. -/
def itemKey (n : Nat) : Key := .int (Int64.ofNat n)

/-- Numbers of 64 bits are told apart. -/
theorem itemKey_inj {a b : Nat} (ha : a < Int64.size) (hb : b < Int64.size)
    (h : itemKey a = itemKey b) : a = b := by
  have hnat : (UInt64.ofNat a).toNat = (UInt64.ofNat b).toNat :=
    congrArg (fun i : Int64 => i.toUInt64.toNat) (Key.int.inj h)
  rwa [UInt64.toNat_ofNat_of_lt' ha, UInt64.toNat_ofNat_of_lt' hb] at hnat

/-- The table has the items under the numbers from one on, and nothing else.  Their number is what a
script counts. -/
structure Lists (t : Table) (items : List Value) : Prop where
  item {n : Nat} {v : Value} (h : items[n]? = some v) : t.get (itemKey (n + 1)) = v
  other {k : Key} (h : ∀ n < items.length, k ≠ itemKey (n + 1)) : t.get k = .nil
  length : t.length = items.length
  metatable : t.metatable = none

/-- Counting goes on up to the first item that is missing. -/
theorem lengthFrom_eq {t : Table} {count : Nat} (hitem : ∀ n < count, t.hasItem (n + 1) = true)
    (hend : t.hasItem (count + 1) = false) {fuel n : Nat} (hn : n ≤ count) (hfuel : count ≤ n + fuel) :
    t.lengthFrom fuel n = count := by
  induction fuel generalizing n with
  | zero => exact Nat.le_antisymm hn hfuel
  | succ fuel ih =>
    rw [lengthFrom]
    obtain rfl | hlt := Nat.eq_or_lt_of_le hn
    · rw [hend]
      rfl
    · rw [hitem n hlt, if_pos rfl]
      exact ih hlt (by omega)

/-- Items with the keys of their numbers. -/
def numbered (items : List Value) : List (Key × Value) :=
  (items.zipIdx 1).map fun e => (itemKey e.2, e.1)

theorem map_fst_numbered (items : List Value) :
    (numbered items).map (·.1) = (List.range' 1 items.length).map itemKey := by
  rw [numbered, List.map_map, ← List.zipIdx_map_snd 1 items, List.map_map]
  rfl

/-- Items have different keys as long as positions do not wrap. -/
theorem nodup_numbered {items : List Value} (hfew : items.length < Int64.size) :
    ((numbered items).map (·.1)).Nodup := by
  rw [map_fst_numbered]
  refine List.Nodup.map_on (fun a ha b hb => itemKey_inj ?_ ?_) List.nodup_range'
  · rw [List.mem_range'_1] at ha
    omega
  · rw [List.mem_range'_1] at hb
    omega

theorem mem_numbered {items : List Value} {n : Nat} (h : items[n]? = some v) :
    (itemKey (n + 1), v) ∈ numbered items :=
  List.mem_map.mpr ⟨(v, n + 1),
    List.mem_zipIdx_iff_le_and_getElem?_sub.mpr ⟨Nat.le_add_left 1 n, h⟩, rfl⟩

/-- A table with these items and no other, of which its constructor listed none, is as long as there
are items. -/
theorem length_of_items {t : Table} {items : List Value}
    (hcount : t.entries.length = items.length) (hlisted : t.listed = 0)
    (hitem : ∀ n < items.length, (t.get (itemKey (n + 1))).isNil = false)
    (hend : t.get (itemKey (items.length + 1)) = .nil) : t.length = items.length := by
  have hlength : t.length = t.lengthFrom items.length 0 := by
    rw [length, hlisted, hcount]
    rfl
  rw [hlength]
  refine lengthFrom_eq (fun n hn => ?_) ?_ (Nat.zero_le _) (Nat.le_add_left _ _)
  · rw [hasItem, ← itemKey, hitem n hn]
    rfl
  · rw [hasItem, ← itemKey, hend]
    rfl

/-- **Items that are assigned to their numbers are listed**, as far as 64 bits can number them. -/
theorem lists_numbered {items : List Value} (hnil : ∀ v ∈ items, v.isNil = false)
    (hfew : items.length + 1 < Int64.size) :
    Lists ((numbered items).foldl (fun (t : Table) e => t.set e.1 e.2) {}) items := by
  have hnd := nodup_numbered (Nat.lt_of_succ_lt hfew)
  have hentries : ((numbered items).foldl (fun (t : Table) e => t.set e.1 e.2) {}).entries =
      numbered items := by
    have hvalues : ∀ e ∈ numbered items, e.2.isNil = false := by
      intro e he
      obtain ⟨d, hd, rfl⟩ := List.mem_map.mp he
      exact hnil d.1 (List.fst_mem_of_mem_zipIdx hd)
    exact entries_foldl_set (t := {}) hvalues hnd
  have hlisted := listed_foldl_set (numbered items) {}
  have hmetatable := metatable_foldl_set (numbered items) {}
  generalize (numbered items).foldl (fun (t : Table) e => t.set e.1 e.2) {} = t
    at hentries hlisted hmetatable ⊢
  have hitem {n : Nat} {v : Value} (h : items[n]? = some v) : t.get (itemKey (n + 1)) = v :=
    get_of_mem (hentries ▸ hnd) (hentries ▸ mem_numbered h)
  have hother {k : Key} (h : ∀ n < items.length, k ≠ itemKey (n + 1)) : t.get k = .nil := by
    refine get_of_notMem fun hmem => ?_
    rw [hentries, map_fst_numbered, List.mem_map] at hmem
    obtain ⟨n, hn, rfl⟩ := hmem
    obtain ⟨hpos, hlt⟩ := List.mem_range'_1.mp hn
    obtain ⟨n, rfl⟩ := Nat.exists_eq_add_of_le' hpos
    exact h n (by omega) rfl
  refine ⟨hitem, hother, length_of_items ?_ hlisted (fun n hn => ?_) ?_, hmetatable⟩
  · rw [hentries, numbered, List.length_map, List.length_zipIdx]
  · rw [hitem (List.getElem?_eq_getElem hn)]
    exact hnil _ (List.getElem_mem hn)
  · refine hother fun n hn heq => ?_
    have hsame := itemKey_inj hfew (by omega) heq
    omega

/-! ## Named values -/

/-- The table has under each name the last value that stands with it, and nothing else. -/
structure Dictionary (t : Table) (entries : List (String × Value)) : Prop where
  entry {name : String} {v : Value} (h : Names.last? entries name = some v) :
    t.get (.str name.toUTF8) = v
  other {k : Key} (h : ∀ name ∈ entries.map (·.1), k ≠ .str name.toUTF8) : t.get k = .nil
  metatable : t.metatable = none

/-- What stands last under a key does so when keys are exchanged for others. -/
theorem last?_map {κ κ' α : Type} [DecidableEq κ] [DecidableEq κ'] {f : κ → κ'}
    (hf : Function.Injective f) (es : List (κ × α)) (k : κ) :
    Names.last? (es.map fun e => (f e.1, e.2)) (f k) = Names.last? es k := by
  rw [Names.last?, Names.last?, ← List.map_reverse, Entries.get?, List.find?_map, Option.map_map,
    Entries.get?]
  have hkey : ((fun e : κ' × α => decide (e.1 = f k)) ∘ fun e : κ × α => (f e.1, e.2)) =
      fun e => decide (e.1 = k) := funext fun e => decide_eq_decide.mpr hf.eq_iff
  rw [hkey]
  rfl

/-- **Values that are assigned to their names are found under them.** -/
theorem dictionary_named {entries : List (String × Value)}
    (hnil : ∀ e ∈ entries, e.2.isNil = false) :
    Dictionary (entries.foldl (fun (t : Table) e => t.set (.str e.1.toUTF8) e.2) {}) entries := by
  have hname : Function.Injective fun name : String => Key.str name.toUTF8 := fun _ _ h =>
    String.toByteArray_inj.mp (Key.str.inj h)
  have hfold : entries.foldl (fun (t : Table) e => t.set (.str e.1.toUTF8) e.2) {} =
      (entries.map fun e => (Key.str e.1.toUTF8, e.2)).foldl (fun t e => t.set e.1 e.2) {} := by
    rw [List.foldl_map]
  have hvalues : ∀ e ∈ entries.map fun e => (Key.str e.1.toUTF8, e.2), e.2.isNil = false :=
    List.forall_mem_map.mpr hnil
  have hget (k : Key) := get_foldl_set k {} hvalues
  rw [hfold]
  refine ⟨fun {name v} h => ?_, fun {k} h => ?_, metatable_foldl_set _ {}⟩
  · rw [hget, last?_map hname, h]
    rfl
  · have hnone : Names.last? (entries.map fun e => (Key.str e.1.toUTF8, e.2)) k = none := by
      refine Option.not_isSome_iff_eq_none.mp fun hsome => ?_
      obtain ⟨e, he, rfl⟩ := List.mem_map.mp (Names.isSome_last?.mp hsome)
      obtain ⟨d, hd, rfl⟩ := List.mem_map.mp he
      exact h d.1 (List.mem_map_of_mem hd) rfl
    rw [hget, hnone]
    rfl

end GraphScript.Script.Table
