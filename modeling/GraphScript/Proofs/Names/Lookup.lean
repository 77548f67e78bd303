import GraphScript.Proofs.Keys
import GraphScript.Proofs.Names.Reserve

/-!
# Proofs/Names/Lookup — what the table of identifiers holds

The identifiers of a model are reserved in one go and then dealt out to the declarations.  `Dealt`
says who got what; every lookup by an identifier of a declaration finds an entry
(`isSome_function?`, `isSome_member?`, `isSome_out?`), and where identifiers of declarations are
pairwise different it finds that declaration's own (`function?_id`).
-/

namespace GraphScript.Names

/-! ## The last entry under a key -/

section Last

variable {κ α : Type} [DecidableEq κ]

/-- A key is found if it is there. -/
theorem isSome_last? {es : List (κ × α)} {k : κ} : (last? es k).isSome ↔ k ∈ es.map (·.1) := by
  rw [last?, Entries.isSome_get?, List.map_reverse, List.mem_reverse]

theorem mem_of_last? {es : List (κ × α)} {k : κ} {a : α} (h : last? es k = some a) : (k, a) ∈ es :=
  List.mem_reverse.mp (Entries.mem_of_get? h)

/-- An entry is found by its key, if no other has that key. -/
theorem last?_of_mem {es : List (κ × α)} (hnd : (es.map (·.1)).Nodup) {k : κ} {a : α}
    (h : (k, a) ∈ es) : last? es k = some a := by
  refine Entries.get?_of_mem ?_ (List.mem_reverse.mpr h)
  rw [List.map_reverse]
  exact List.nodup_reverse.mpr hnd

/-- Later entries go before earlier ones. -/
theorem last?_append {es fs : List (κ × α)} {k : κ} :
    last? (es ++ fs) k = (last? fs k).or (last? es k) := by
  rw [last?, List.reverse_append, Entries.get?_append]
  rfl

end Last

/-! ## Who got what -/

/-- What the identifiers of variables are made from. -/
def memberBases (m : Model) : List String := m.members.map fun v => "m_" ++ cleanName v.name

/-- What the identifiers of out-events are made from. -/
def outBases (m : Model) : List String := m.outEvents.map fun o => "out_" ++ cleanName o.name

/-- What the identifiers of functions are made from. -/
def functionBases (m : Model) : List String :=
  m.functions.map fun f => functionMark f.kind ++ cleanName f.name

/-- The identifiers `ms`, `os` and `fs` are those of the variables, out-events and functions. -/
structure Dealt (m : Model) (ms os fs : List String) : Prop where
  reserved : reserveAll [] (bases m) = (ofModel m).className :: (ms ++ (os ++ fs))
  nodup : ((ofModel m).className :: (ms ++ (os ++ fs))).Nodup
  class_made : Made ("cls_" ++ cleanName m.name) (ofModel m).className
  members_made : List.Forall₂ Made (memberBases m) ms
  outs_made : List.Forall₂ Made (outBases m) os
  functions_made : List.Forall₂ Made (functionBases m) fs
  members_eq : (ofModel m).members = (m.members.zip ms).map fun e => (e.1.id, e.2)
  outs_eq : (ofModel m).outs = (m.outEvents.zip os).map fun e => (e.1.name, e.2)
  functions_eq : (ofModel m).functions =
    (m.functions.zip fs).map fun e => (e.1.id, ofFunction e.2 e.1)

/-- What is made from two lists is made from each in turn. -/
theorem exists_append_of_forall₂ {R : String → String → Prop} :
    ∀ {a b l : List String}, List.Forall₂ R (a ++ b) l →
      ∃ x y, l = x ++ y ∧ List.Forall₂ R a x ∧ List.Forall₂ R b y
  | [], _, l, h => ⟨[], l, rfl, .nil, h⟩
  | s :: a, b, t :: l, .cons hst h => by
      obtain ⟨x, y, rfl, hx, hy⟩ := exists_append_of_forall₂ h
      exact ⟨t :: x, y, rfl, .cons hst hx, hy⟩

theorem exists_made_of_mem {name : String} : ∀ {bases names : List String},
    List.Forall₂ Made bases names → name ∈ names → ∃ b ∈ bases, Made b name
  | [], _, .nil, hm => absurd hm List.not_mem_nil
  | b :: _, _, .cons hmade h, hm => by
      rcases List.mem_cons.mp hm with rfl | hm
      · exact ⟨b, List.mem_cons_self, hmade⟩
      · obtain ⟨b, hb, hmade⟩ := exists_made_of_mem h hm
        exact ⟨b, List.mem_cons_of_mem _ hb, hmade⟩

theorem zip_append_right {α : Type} {l : List α} {x : List String} (h : l.length = x.length)
    (y : List String) : l.zip (x ++ y) = l.zip x := by
  have hzip : (l ++ []).zip (x ++ y) = l.zip x ++ [].zip y := List.zip_append h
  simpa using hzip

/-- Identifiers are made from the class, the members, the out-events and the functions, in this
order. -/
theorem bases_eq (m : Model) : bases m =
    ("cls_" ++ cleanName m.name) :: (memberBases m ++ (outBases m ++ functionBases m)) := by
  simp [bases, memberBases, outBases, functionBases]

/-- **The identifiers are dealt out** in the order in which they were reserved. -/
theorem exists_dealt (m : Model) : ∃ ms os fs, Dealt m ms os fs := by
  have hmade := made_reserveAll [] (bases m)
  have hnodup := (nodup_reserveAll [] (bases m)).1
  rw [bases_eq] at hmade
  cases hall : reserveAll [] (bases m) with
  | nil => rw [← bases_eq, hall] at hmade; cases hmade
  | cons cls rest =>
    rw [← bases_eq, hall, bases_eq] at hmade
    obtain ⟨hcls, hrest⟩ := List.forall₂_cons.mp hmade
    obtain ⟨ms, l, rfl, hms, hl⟩ := exists_append_of_forall₂ hrest
    obtain ⟨os, fs, rfl, hos, hfs⟩ := exists_append_of_forall₂ hl
    have hlm : m.members.length = ms.length := by simpa [memberBases] using hms.length_eq
    have hlo : m.outEvents.length = os.length := by simpa [outBases] using hos.length_eq
    have hcn : (ofModel m).className = cls := by simp [ofModel, hall]
    refine ⟨ms, os, fs, hcn ▸ hall, ?_, hcn ▸ hcls, hms, hos, hfs, ?_, ?_, ?_⟩
    · rw [hcn, ← hall]
      exact hnodup
    · simp [ofModel, hall, zip_append_right hlm]
    · simp [ofModel, hall, hlm, zip_append_right hlo]
    · simp [ofModel, hall, hlm, hlo]

/-! ## Lookups -/

theorem map_fst_functions (m : Model) :
    (ofModel m).functions.map (·.1) = m.functions.map (·.id) := by
  obtain ⟨ms, os, fs, hd⟩ := exists_dealt m
  have hlen : m.functions.length = fs.length := by
    simpa [functionBases] using hd.functions_made.length_eq
  rw [hd.functions_eq, List.map_map]
  change (m.functions.zip fs).map ((·.id) ∘ Prod.fst) = _
  rw [← List.map_map, List.map_fst_zip (Nat.le_of_eq hlen)]

theorem map_fst_members (m : Model) : (ofModel m).members.map (·.1) = m.members.map (·.id) := by
  obtain ⟨ms, os, fs, hd⟩ := exists_dealt m
  have hlen : m.members.length = ms.length := by
    simpa [memberBases] using hd.members_made.length_eq
  rw [hd.members_eq, List.map_map]
  change (m.members.zip ms).map ((·.id) ∘ Prod.fst) = _
  rw [← List.map_map, List.map_fst_zip (Nat.le_of_eq hlen)]

theorem map_fst_outs (m : Model) : (ofModel m).outs.map (·.1) = m.outEvents.map (·.name) := by
  obtain ⟨ms, os, fs, hd⟩ := exists_dealt m
  have hlen : m.outEvents.length = os.length := by simpa [outBases] using hd.outs_made.length_eq
  rw [hd.outs_eq, List.map_map]
  change (m.outEvents.zip os).map ((·.name) ∘ Prod.fst) = _
  rw [← List.map_map, List.map_fst_zip (Nat.le_of_eq hlen)]

/-- A function has identifiers if it is in the model. -/
theorem isSome_function? {m : Model} {id : FunctionId} :
    ((ofModel m).function? id).isSome ↔ id ∈ m.functions.map (·.id) := by
  rw [function?, isSome_last?, map_fst_functions]

theorem isSome_member? {m : Model} {id : VariableId} :
    ((ofModel m).member? id).isSome ↔ id ∈ m.members.map (·.id) := by
  rw [member?, isSome_last?, map_fst_members]

theorem isSome_out? {m : Model} {name : String} :
    ((ofModel m).out? name).isSome ↔ name ∈ m.outEvents.map (·.name) := by
  rw [out?, isSome_last?, map_fst_outs]

/-- The function whose identifiers stand under an identifier: the last that carries it. -/
def lender? (m : Model) (id : FunctionId) : Option FunctionDef :=
  m.functions.reverse.find? fun f => f.id = id

theorem mem_of_lender? {m : Model} {id : FunctionId} {f : FunctionDef}
    (h : lender? m id = some f) : f ∈ m.functions ∧ f.id = id :=
  ⟨List.mem_reverse.mp (List.mem_of_find?_eq_some h), by simpa using List.find?_some h⟩

/-- **The identifiers under an identifier are those of the last function that carries it.** -/
theorem exists_lender? {m : Model} {id : FunctionId} {own : Function}
    (h : (ofModel m).function? id = some own) :
    ∃ f, lender? m id = some f ∧ own = ofFunction own.name f ∧
      Made (functionMark f.kind ++ cleanName f.name) own.name := by
  obtain ⟨ms, os, fs, hd⟩ := exists_dealt m
  have hlen : m.functions.length = fs.length := by
    simpa [functionBases] using hd.functions_made.length_eq
  rw [function?, last?, Entries.get?, hd.functions_eq, ← List.map_reverse, List.find?_map,
    Option.map_map] at h
  obtain ⟨⟨f, name⟩, hfind, rfl⟩ := Option.map_eq_some_iff.mp h
  have hzip : (f, name) ∈ m.functions.zip fs :=
    List.mem_reverse.mp (List.mem_of_find?_eq_some hfind)
  have hpair : (functionMark f.kind ++ cleanName f.name, name) ∈ (functionBases m).zip fs := by
    rw [functionBases, List.zip_map_left]
    exact List.mem_map.mpr ⟨(f, name), hzip, rfl⟩
  refine ⟨f, ?_, rfl, List.forall₂_zip hd.functions_made hpair⟩
  have hfst : m.functions = (m.functions.zip fs).map Prod.fst :=
    (List.map_fst_zip (Nat.le_of_eq hlen)).symm
  rw [lender?, hfst, ← List.map_reverse, List.find?_map]
  exact Option.map_eq_some_iff.mpr ⟨(f, name), hfind, rfl⟩

/-- What is found for a function was made for one with its identifier. -/
theorem exists_of_function? {m : Model} {id : FunctionId} {own : Function}
    (h : (ofModel m).function? id = some own) :
    ∃ f ∈ m.functions, f.id = id ∧ own = ofFunction own.name f ∧
      Made (functionMark f.kind ++ cleanName f.name) own.name := by
  obtain ⟨f, hlender, heq, hmade⟩ := exists_lender? h
  obtain ⟨hf, hid⟩ := mem_of_lender? hlender
  exact ⟨f, hf, hid, heq, hmade⟩

theorem length_params_ofFunction (name : String) (f : FunctionDef) :
    (ofFunction name f).params.length = f.params.length := by
  simp [ofFunction, localBases]

theorem length_locals_ofFunction (name : String) (f : FunctionDef) :
    (ofFunction name f).locals.length = f.locals.length := by
  simp [ofFunction, localBases]

/-- **Where identifiers of functions are pairwise different, a function finds its own.** -/
theorem function?_id {m : Model} (hnd : (m.functions.map (·.id)).Nodup) {f : FunctionDef}
    (hf : f ∈ m.functions) :
    ∃ own, (ofModel m).function? f.id = some own ∧ own = ofFunction own.name f ∧
      Made (functionMark f.kind ++ cleanName f.name) own.name := by
  obtain ⟨own, hown⟩ := Option.isSome_iff_exists.mp
    (isSome_function?.mpr (List.mem_map_of_mem (f := (·.id)) hf))
  obtain ⟨f', hf', hid, heq, hmade⟩ := exists_of_function? hown
  obtain rfl : f' = f := List.inj_on_of_nodup_map hnd hf' hf hid
  exact ⟨own, hown, heq, hmade⟩

/-! ## Marks -/

theorem exists_className (m : Model) : ∃ r, (ofModel m).className = "cls_" ++ r := by
  obtain ⟨ms, os, fs, hd⟩ := exists_dealt m
  obtain ⟨r, hr⟩ := hd.class_made.exists_append
  exact ⟨cleanName m.name ++ r, by rw [hr, String.append_assoc]⟩

/-- The identifier of a function begins with its mark. -/
theorem exists_functionName {m : Model} {id : FunctionId} {own : Function}
    (h : (ofModel m).function? id = some own) : ∃ k r, own.name = functionMark k ++ r := by
  obtain ⟨f, _, _, _, hmade⟩ := exists_of_function? h
  obtain ⟨r, hr⟩ := hmade.exists_append
  exact ⟨f.kind, cleanName f.name ++ r, by rw [hr, String.append_assoc]⟩

/-- The identifier of a parameter begins with its mark. -/
theorem exists_of_mem_params {name : String} {f : FunctionDef} {p : String}
    (h : p ∈ (ofFunction name f).params) : ∃ r, p = "p_" ++ r := by
  obtain ⟨ps, ls, heq, hps, hls⟩ := exists_append_of_forall₂ (made_reserveAll [] (localBases f))
  have hlen : f.params.length = ps.length := by simpa using hps.length_eq
  rw [ofFunction, heq, hlen, List.take_left] at h
  obtain ⟨base, hbase, hmade⟩ := exists_made_of_mem hps h
  obtain ⟨q, _, rfl⟩ := List.mem_map.mp hbase
  obtain ⟨r, hr⟩ := hmade.exists_append
  exact ⟨cleanName q.name ++ r, by rw [hr, String.append_assoc]⟩

/-- The identifier of a local begins with its mark. -/
theorem exists_of_mem_locals {name : String} {f : FunctionDef} {l : String}
    (h : l ∈ (ofFunction name f).locals) : ∃ r, l = "l_" ++ r := by
  obtain ⟨ps, ls, heq, hps, hls⟩ := exists_append_of_forall₂ (made_reserveAll [] (localBases f))
  have hlen : f.params.length = ps.length := by simpa using hps.length_eq
  rw [ofFunction, heq, hlen, List.drop_left] at h
  obtain ⟨base, hbase, hmade⟩ := exists_made_of_mem hls h
  obtain ⟨p, _, rfl⟩ := List.mem_map.mp hbase
  obtain ⟨r, hr⟩ := hmade.exists_append
  exact ⟨cleanName p.name ++ r, by rw [hr, String.append_assoc]⟩

/-! ## Characters -/

theorem plain_of_forall₂ {bases names : List String} (h : List.Forall₂ Made bases names)
    (hb : ∀ b ∈ bases, Plain b) : ∀ name ∈ names, Plain name := fun _ hname => by
  obtain ⟨base, hbase, hmade⟩ := exists_made_of_mem h hname
  exact hmade.plain (hb base hbase)

/-- The class has a plain name. -/
theorem plain_className (m : Model) : Plain (ofModel m).className := by
  obtain ⟨ms, os, fs, hd⟩ := exists_dealt m
  exact hd.class_made.plain (plain_append.mpr ⟨by decide, plain_cleanName _⟩)

/-- An identifier of a variable is plain, and so is the placeholder. -/
theorem plain_member (m : Model) (v : VariableId) : Plain ((ofModel m).member v) := by
  obtain ⟨ms, os, fs, hd⟩ := exists_dealt m
  unfold member
  cases h : (ofModel m).member? v with
  | none => decide
  | some name =>
    have hmem := mem_of_last? h
    rw [hd.members_eq, List.mem_map] at hmem
    obtain ⟨⟨d, name'⟩, hzip, heq⟩ := hmem
    obtain ⟨rfl, rfl⟩ := Prod.ext_iff.mp heq
    refine plain_of_forall₂ hd.members_made (fun b hb => ?_) _ (List.of_mem_zip hzip).2
    obtain ⟨d, _, rfl⟩ := List.mem_map.mp hb
    exact plain_append.mpr ⟨by decide, plain_cleanName _⟩

theorem plain_functionMark (k : FunctionKind) : Plain (functionMark k) := by
  cases k <;> decide

/-- The identifiers inside a function are plain. -/
theorem plain_localNames (f : FunctionDef) : ∀ name ∈ reserveAll [] (localBases f), Plain name := by
  refine plain_of_forall₂ (made_reserveAll [] (localBases f)) fun b hb => ?_
  rcases List.mem_append.mp hb with hb | hb
  · obtain ⟨p, _, rfl⟩ := List.mem_map.mp hb
    exact plain_append.mpr ⟨by decide, plain_cleanName _⟩
  · obtain ⟨l, _, rfl⟩ := List.mem_map.mp hb
    exact plain_append.mpr ⟨by decide, plain_cleanName _⟩

/-- **All identifiers of a function are plain.** -/
theorem plain_of_function? {m : Model} {id : FunctionId} {own : Function}
    (h : (ofModel m).function? id = some own) :
    Plain own.name ∧ (∀ p ∈ own.params, Plain p) ∧ ∀ l ∈ own.locals, Plain l := by
  obtain ⟨f, _, _, heq, hmade⟩ := exists_of_function? h
  refine ⟨hmade.plain (plain_append.mpr ⟨plain_functionMark _, plain_cleanName _⟩), ?_, ?_⟩
  · rw [heq]
    exact fun p hp => plain_localNames f p (List.mem_of_mem_take hp)
  · rw [heq]
    exact fun l hl => plain_localNames f l (List.mem_of_mem_drop hl)

end GraphScript.Names
