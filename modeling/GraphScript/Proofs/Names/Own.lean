import GraphScript.Emit.Native
import GraphScript.Proofs.Names.Distinct

/-!
# Proofs/Names/Own — identifiers as they are looked up

Emitted text looks identifiers up under what declarations are known by.  Where that is pairwise
different, every declaration finds its own (`map_member_eq`, `map_out_eq`, `map_methodName_eq`);
where it is not, two declarations find the same.  One identifier of native text is not dealt out but
fixed, that of the owner: no declaration has it but a variable of the name `owner`
(`Dealt.owner_mem_iff`).
-/

namespace GraphScript.Names

/-- An identifier of an out-event is plain, and so is the placeholder. -/
theorem plain_out (m : Model) (name : String) : Plain ((ofModel m).out name) := by
  obtain ⟨ms, os, fs, hd⟩ := exists_dealt m
  unfold out
  cases h : (ofModel m).out? name with
  | none => decide
  | some s =>
    have hs : s ∈ (ofModel m).outs.map (·.2) := List.mem_map_of_mem (mem_of_last? h)
    refine (hd.marked_outer s (List.mem_cons_of_mem _ ?_)).plain
    exact List.mem_append_right _ (List.mem_append_left _ hs)

/-- Declarations that find what they were dealt find all of it. -/
theorem map_eq_of_zip {α : Type} {l : List α} {names : List String} {look : α → String}
    (hlen : l.length = names.length) (h : ∀ e ∈ l.zip names, look e.1 = e.2) :
    l.map look = names := by
  have hfst : (l.zip names).map Prod.fst = l := List.map_fst_zip (Nat.le_of_eq hlen)
  have hsnd : (l.zip names).map Prod.snd = names := List.map_snd_zip (Nat.le_of_eq hlen.symm)
  calc l.map look = ((l.zip names).map Prod.fst).map look := by rw [hfst]
    _ = (l.zip names).map (look ∘ Prod.fst) := List.map_map
    _ = (l.zip names).map Prod.snd := List.map_congr_left h
    _ = names := hsnd

namespace Dealt

variable {m : Model} {ms os fs : List String} (hd : Dealt m ms os fs)

include hd

theorem map_member_eq (hnd : (m.members.map (·.id)).Nodup) :
    m.members.map (fun v => (ofModel m).member v.id) = ms := by
  have hlen := hd.members_made.length_eq
  rw [memberBases, List.length_map] at hlen
  refine map_eq_of_zip hlen fun e he => ?_
  have hmem : (e.1.id, e.2) ∈ (ofModel m).members := by
    rw [hd.members_eq]
    exact List.mem_map_of_mem (f := fun e => (e.1.id, e.2)) he
  rw [member, member?, last?_of_mem (map_fst_members m ▸ hnd) hmem]
  rfl

theorem map_out_eq (hnd : (m.outEvents.map (·.name)).Nodup) :
    m.outEvents.map (fun d => (ofModel m).out d.name) = os := by
  have hlen := hd.outs_made.length_eq
  rw [outBases, List.length_map] at hlen
  refine map_eq_of_zip hlen fun e he => ?_
  have hmem : (e.1.name, e.2) ∈ (ofModel m).outs := by
    rw [hd.outs_eq]
    exact List.mem_map_of_mem (f := fun e => (e.1.name, e.2)) he
  rw [out, out?, last?_of_mem (map_fst_outs m ▸ hnd) hmem]
  rfl

theorem map_methodName_eq (hnd : (m.functions.map (·.id)).Nodup) :
    m.functions.map (Emit.Native.methodName (ofModel m)) = fs := by
  have hlen := hd.functions_made.length_eq
  rw [functionBases, List.length_map] at hlen
  refine map_eq_of_zip hlen fun e he => ?_
  have hmem : (e.1.id, ofFunction e.2 e.1) ∈ (ofModel m).functions := by
    rw [hd.functions_eq]
    exact List.mem_map_of_mem (f := fun e => (e.1.id, ofFunction e.2 e.1)) he
  rw [Emit.Native.methodName, function?, last?_of_mem (map_fst_functions m ▸ hnd) hmem]
  rfl

end Dealt

/-! ## The owner -/

/-- A plain name is clean. -/
theorem cleanName_of_plain {name : String} (hne : name.isEmpty = false) (h : Plain name) :
    cleanName name = name := by
  have hkept : ∀ c ∈ name.toList, (if c.isAlphanum || c == '_' then c else '_') = c :=
    fun c hc => if_pos (by simpa using h c hc)
  refine String.toList_inj.mp ?_
  rw [cleanName, hne, if_neg Bool.false_ne_true, String.toList_map, List.map_congr_left hkept,
    List.map_id']

/-- A clean name without an underscore is the name itself. -/
theorem eq_of_cleanName {name s : String} (h : cleanName name = s) (hs : '_' ∉ s.toList)
    (hne : s ≠ "unnamed") : name = s := by
  unfold cleanName at h
  split at h
  · exact absurd h.symm hne
  · have hkept : ∀ c ∈ name.toList, (if c.isAlphanum || c == '_' then c else '_') = c := by
      intro c hc
      split
      · rfl
      · rename_i hplain
        refine absurd ?_ hs
        rw [← h, String.toList_map]
        exact List.mem_map.mpr ⟨c, hc, if_neg hplain⟩
    rw [← h]
    refine String.toList_inj.mp ?_
    rw [String.toList_map, List.map_congr_left hkept, List.map_id']

/-- The last letter of a numbered spelling is a digit. -/
theorem isDigit_of_getLast? {base : String} {k : Nat} {c : Char}
    (h : (candidate base (k + 1)).toList.getLast? = some c) : c.isDigit = true := by
  rw [candidate_succ, String.toList_append, Nat.toList_repr, List.getLast?_append] at h
  cases hdigits : (Nat.toDigits 10 (k + 2)).getLast? with
  | none => exact absurd (List.getLast?_eq_none_iff.mp hdigits) Nat.toDigits_ne_nil
  | some d =>
    rw [hdigits] at h
    obtain rfl : d = c := Option.some.inj h
    exact Nat.isDigit_of_mem_toDigits (by decide) (by decide) (List.mem_of_getLast? hdigits)

theorem eq_of_made_owner {name : String} (h : Made ("m_" ++ cleanName name) "m_owner") :
    name = "owner" := by
  obtain ⟨k, hk⟩ := h
  cases k with
  | zero =>
    have hclean : "m_" ++ cleanName name = "m_" ++ "owner" := hk.symm
    exact eq_of_cleanName (String.append_right_inj _ |>.mp hclean) (by decide) (by decide)
  | succ k =>
    have hlast : (candidate ("m_" ++ cleanName name) (k + 1)).toList.getLast? = some 'r' := by
      rw [← hk]
      rfl
    exact absurd (isDigit_of_getLast? hlast) (by decide)

/-- What begins with another mark is not the owner's. -/
theorem ne_owner_of_made {mark base name : String} {c : Char} (hc : mark.toList.head? = some c)
    (hne : c ≠ 'm') (hmade : Made (mark ++ base) name) : "m_owner" ≠ name := by
  rintro rfl
  obtain ⟨rest, hrest⟩ := hmade.exists_append
  have hhead : "m_owner".toList.head? = some c := by
    rw [hrest, String.append_assoc]
    exact head?_mark_append hc _
  exact hne (Option.some.inj hhead).symm

namespace Dealt

variable {m : Model} {ms os fs : List String} (hd : Dealt m ms os fs)

include hd

/-- No declaration but a variable has the owner's identifier. -/
theorem owner_mem_of_mem_outer (h : "m_owner" ∈ (ofModel m).outer) : "m_owner" ∈ ms := by
  rw [hd.outer_eq] at h
  simp only [List.mem_cons, List.mem_append] at h
  rcases h with hcls | hms | hos | hfs
  · exact absurd hcls (ne_owner_of_made rfl (by decide) hd.class_made)
  · exact hms
  · obtain ⟨base, hbase, hmade⟩ := exists_made_of_mem hd.outs_made hos
    obtain ⟨d, _, rfl⟩ := List.mem_map.mp hbase
    exact absurd rfl (ne_owner_of_made rfl (by decide) hmade)
  · obtain ⟨base, hbase, hmade⟩ := exists_made_of_mem hd.functions_made hfs
    obtain ⟨f, _, rfl⟩ := List.mem_map.mp hbase
    cases hkind : f.kind with
    | entry =>
      rw [hkind] at hmade
      exact absurd rfl (ne_owner_of_made rfl (by decide) hmade)
    | internal =>
      rw [hkind] at hmade
      exact absurd rfl (ne_owner_of_made rfl (by decide) hmade)

/-- **A variable has the owner's identifier exactly if one is called like that.** -/
theorem owner_mem_iff : "m_owner" ∈ ms ↔ ∃ v ∈ m.members, v.name = "owner" := by
  constructor
  · intro h
    obtain ⟨base, hbase, hmade⟩ := exists_made_of_mem hd.members_made h
    obtain ⟨v, hv, rfl⟩ := List.mem_map.mp hbase
    exact ⟨v, hv, eq_of_made_owner hmade⟩
  · rintro ⟨v, hv, hname⟩
    have hbase : "m_owner" ∈ bases m := by
      rw [bases_eq]
      refine List.mem_cons_of_mem _ (List.mem_append_left _ (List.mem_map.mpr ⟨v, hv, ?_⟩))
      rw [hname, cleanName_of_plain (by decide) (by decide)]
      rfl
    refine hd.owner_mem_of_mem_outer ?_
    rw [hd.outer_eq, ← hd.reserved]
    exact (mem_reserveAll_of_mem hbase).resolve_left List.not_mem_nil

end Dealt

theorem owner_notMem_outer_iff {m : Model} :
    "m_owner" ∉ (ofModel m).outer ↔ ∀ v ∈ m.members, v.name ≠ "owner" := by
  obtain ⟨ms, os, fs, hd⟩ := exists_dealt m
  have hms : "m_owner" ∈ (ofModel m).outer ↔ "m_owner" ∈ ms := by
    refine ⟨hd.owner_mem_of_mem_outer, fun h => ?_⟩
    rw [hd.outer_eq]
    exact List.mem_cons_of_mem _ (List.mem_append_left _ h)
  rw [hms, hd.owner_mem_iff]
  exact ⟨fun h v hv hname => h ⟨v, hv, hname⟩, fun h ⟨v, hv, hname⟩ => h v hv hname⟩

/-- No lookup of a variable gives the owner's identifier, unless one is called like that. -/
theorem member_ne_owner_iff {m : Model} (hnd : (m.members.map (·.id)).Nodup) :
    (∀ id, (ofModel m).member id ≠ "m_owner") ↔ ∀ v ∈ m.members, v.name ≠ "owner" := by
  obtain ⟨ms, os, fs, hd⟩ := exists_dealt m
  have hms : "m_owner" ∈ ms ↔ ∃ v ∈ m.members, (ofModel m).member v.id = "m_owner" := by
    rw [← hd.map_member_eq hnd, List.mem_map]
  constructor
  · intro h v hv hname
    obtain ⟨w, _, hw⟩ := hms.mp (hd.owner_mem_iff.mpr ⟨v, hv, hname⟩)
    exact h w.id hw
  · intro h id hid
    cases hlook : (ofModel m).member? id with
    | none =>
      rw [member, hlook] at hid
      exact absurd hid (by decide)
    | some s =>
      obtain ⟨v, hv, rfl⟩ := List.mem_map.mp (isSome_member?.mp (Option.isSome_of_eq_some hlook))
      obtain ⟨w, hw, hname⟩ := hd.owner_mem_iff.mp (hms.mpr ⟨v, hv, hid⟩)
      exact h w hw hname

end GraphScript.Names
