import GraphScript.Proofs.Names.Distinct
import GraphScript.Proofs.Numbering

/-!
# Proofs/Names/Growth — identifiers of a growing model

What is reserved for a base depends on no other taken names than the spellings of that base
(`reserveAll_congr`), and a spelling begins with the letter of its mark.  So variables, out-events
and functions do not compete with each other: each kind has the identifiers that it would have alone
(`dealt_apart`), although all are reserved in one go.  A declaration that is added at the end of its
kind therefore changes no identifier of those before it (`Grows.stable`), whatever its name is.
-/

namespace GraphScript.Names

/-! ## Reserving under different marks -/

/-- **Of the taken names only the spellings of a base matter to it.** -/
theorem reserve_congr {used used' : List String} {base : String}
    (h : ∀ k, candidate base k ∈ used ↔ candidate base k ∈ used') :
    reserve used base = reserve used' base := by
  obtain ⟨k, hk, hfirst⟩ := reserve_spec used base
  have hfirst' : FirstFree used' base k :=
    ⟨mt (h k).mpr hfirst.free, fun j hj => (h j).mp (hfirst.taken j hj)⟩
  rw [hk, hfirst'.reserve_eq]

/-- Only the spellings of the bases matter to what is reserved. -/
theorem reserveAll_congr {used used' bases : List String}
    (h : ∀ base ∈ bases, ∀ k, candidate base k ∈ used ↔ candidate base k ∈ used') :
    reserveAll used bases = reserveAll used' bases := by
  induction bases generalizing used used' with
  | nil => rfl
  | cons base bases ih =>
    obtain ⟨hbase, hrest⟩ := List.forall_mem_cons.mp h
    have hname := reserve_congr hbase
    rw [reserveAll, reserveAll, hname]
    refine congrArg _ (ih fun b hb k => ?_)
    rw [List.mem_cons, List.mem_cons, hrest b hb k]

/-- Bases in a row are reserved as two rows, one after the other. -/
theorem reserveAll_append (used a b : List String) : reserveAll used (a ++ b) =
    reserveAll used a ++ reserveAll ((reserveAll used a).reverse ++ used) b := by
  induction a generalizing used with
  | nil => rfl
  | cons base a ih =>
    rw [List.cons_append, reserveAll, ih, reserveAll, List.cons_append, List.reverse_cons,
      List.append_assoc, List.singleton_append]

/-- All texts begin with one of these letters. -/
def BeginWith (letters : List Char) (texts : List String) : Prop :=
  ∀ s ∈ texts, ∃ c ∈ letters, s.toList.head? = some c

theorem Made.head? {base name : String} {c : Char} (h : Made base name)
    (hbase : base.toList.head? = some c) : name.toList.head? = some c := by
  obtain ⟨rest, rfl⟩ := h.exists_append
  exact head?_mark_append hbase rest

theorem BeginWith.append {letters letters' : List Char} {texts texts' : List String}
    (h : BeginWith letters texts) (h' : BeginWith letters' texts') :
    BeginWith (letters ++ letters') (texts ++ texts') := by
  intro s hs
  obtain hs | hs := List.mem_append.mp hs
  · obtain ⟨c, hc, hhead⟩ := h s hs
    exact ⟨c, List.mem_append_left _ hc, hhead⟩
  · obtain ⟨c, hc, hhead⟩ := h' s hs
    exact ⟨c, List.mem_append_right _ hc, hhead⟩

/-- What is reserved begins like its base. -/
theorem BeginWith.reserveAll {letters : List Char} {bases : List String}
    (h : BeginWith letters bases) (used : List String) :
    BeginWith letters (Names.reserveAll used bases) := by
  intro name hname
  obtain ⟨base, hbase, hmade⟩ := exists_made_of_mem (made_reserveAll used bases) hname
  obtain ⟨c, hc, hhead⟩ := h base hbase
  exact ⟨c, hc, hmade.head? hhead⟩

/-- **Two rows whose bases begin with different letters are reserved apart.** -/
theorem reserveAll_append_of_beginWith {letters letters' : List Char} {a b : List String}
    (ha : BeginWith letters a) (hb : BeginWith letters' b) (hapart : ∀ c ∈ letters, c ∉ letters') :
    reserveAll [] (a ++ b) = reserveAll [] a ++ reserveAll [] b := by
  rw [reserveAll_append, List.append_nil]
  refine congrArg _ (reserveAll_congr fun base hbase k => ?_)
  refine iff_of_false (fun htaken => ?_) List.not_mem_nil
  obtain ⟨c, hc, hhead⟩ := ha.reserveAll [] _ (List.mem_reverse.mp htaken)
  obtain ⟨c', hc', hhead'⟩ := hb base hbase
  have hmade : Made base (candidate base k) := ⟨k, rfl⟩
  obtain rfl : c = c' := Option.some.inj (hhead.symm.trans (hmade.head? hhead'))
  exact hapart c hc hc'

/-! ## Each kind alone -/

theorem beginWith_memberBases (m : Model) : BeginWith ['m'] (memberBases m) := by
  intro s hs
  obtain ⟨v, _, rfl⟩ := List.mem_map.mp hs
  exact ⟨'m', List.mem_cons_self, head?_mark_append rfl _⟩

theorem beginWith_outBases (m : Model) : BeginWith ['o'] (outBases m) := by
  intro s hs
  obtain ⟨o, _, rfl⟩ := List.mem_map.mp hs
  exact ⟨'o', List.mem_cons_self, head?_mark_append rfl _⟩

theorem beginWith_functionBases (m : Model) : BeginWith ['i', 'f'] (functionBases m) := by
  intro s hs
  obtain ⟨f, _, rfl⟩ := List.mem_map.mp hs
  cases f.kind with
  | entry => exact ⟨'i', List.mem_cons_self, head?_mark_append rfl _⟩
  | internal =>
    exact ⟨'f', List.mem_cons_of_mem _ List.mem_cons_self, head?_mark_append rfl _⟩

theorem reserve_nil (base : String) : reserve [] base = base := by
  have hfirst : FirstFree [] base 0 := ⟨List.not_mem_nil, fun j hj => absurd hj (Nat.not_lt_zero j)⟩
  exact hfirst.reserve_eq

/-- **Each kind of declaration has the identifiers that it would have alone**, and the class has the
spelling without a number. -/
theorem dealt_apart (m : Model) : (ofModel m).className = "cls_" ++ cleanName m.name ∧
    Dealt m (reserveAll [] (memberBases m)) (reserveAll [] (outBases m))
      (reserveAll [] (functionBases m)) := by
  have hc : BeginWith ['c'] ["cls_" ++ cleanName m.name] := fun s hs =>
    ⟨'c', List.mem_cons_self, List.mem_singleton.mp hs ▸ head?_mark_append rfl _⟩
  have ho := (beginWith_outBases m).append (beginWith_functionBases m)
  have hm := (beginWith_memberBases m).append ho
  obtain ⟨ms, os, fs, hd⟩ := exists_dealt m
  have hall := hd.reserved
  rw [bases_eq, ← List.singleton_append, reserveAll_append_of_beginWith hc hm (by simp),
    reserveAll_append_of_beginWith (beginWith_memberBases m) ho (by simp),
    reserveAll_append_of_beginWith (beginWith_outBases m) (beginWith_functionBases m) (by simp),
    reserveAll, reserveAll, reserve_nil, List.singleton_append] at hall
  obtain ⟨hclass, hrest⟩ := List.cons.inj hall
  obtain ⟨rfl, hrest'⟩ :=
    List.append_inj hrest ((length_reserveAll ..).trans hd.members_made.length_eq)
  obtain ⟨rfl, rfl⟩ := List.append_inj hrest' ((length_reserveAll ..).trans hd.outs_made.length_eq)
  exact ⟨hclass.symm, hd⟩

/-! ## Declarations at the end -/

section Appended

variable {α β κ : Type} (key : α → κ)

/-- A list followed by items under keys that are not in it. -/
def Appended (items items' : List α) : Prop :=
  ∃ more, items' = items ++ more ∧ ∀ a ∈ more, key a ∉ items.map key

theorem Appended.refl (items : List α) : Appended key items items :=
  ⟨[], (List.append_nil items).symm, fun _ h => absurd h List.not_mem_nil⟩

theorem Appended.singleton {items items' : List α} {a : α} (heq : items' = items ++ [a])
    (h : key a ∉ items.map key) : Appended key items items' :=
  ⟨[a], heq, fun _ hb => List.mem_singleton.mp hb ▸ h⟩

/-- **Items at the end leave the entries before them as they are.** -/
theorem Appended.last?_reserved [DecidableEq κ] (base : α → String) (entry : α → String → β)
    {items items' : List α} (h : Appended key items items') {k : κ} (hk : k ∈ items.map key) :
    last? ((items'.zip (reserveAll [] (items'.map base))).map
        fun e => (key e.1, entry e.1 e.2)) k =
      last? ((items.zip (reserveAll [] (items.map base))).map
        fun e => (key e.1, entry e.1 e.2)) k := by
  obtain ⟨more, rfl, hnew⟩ := h
  have hlen : items.length = (reserveAll [] (items.map base)).length := by simp
  rw [List.map_append, reserveAll_append, List.zip_append hlen, List.map_append, last?_append]
  have hnone : ¬ (last? ((more.zip (reserveAll ((reserveAll [] (items.map base)).reverse ++ [])
      (more.map base))).map fun e => (key e.1, entry e.1 e.2)) k).isSome := by
    intro hfound
    obtain ⟨e, he, rfl⟩ := List.mem_map.mp (isSome_last?.mp hfound)
    obtain ⟨d, hd, rfl⟩ := List.mem_map.mp he
    exact hnew d.1 (List.of_mem_zip hd).1 hk
  rw [Option.not_isSome_iff_eq_none.mp hnone, Option.none_or]

end Appended

/-- The declarations of `m` stand first in `m'`, and what follows is new. -/
structure Grows (m m' : Model) : Prop where
  name : m'.name = m.name
  members : Appended VariableDef.id m.members m'.members
  outEvents : Appended OutEventDef.name m.outEvents m'.outEvents
  functions : Appended FunctionDef.id m.functions m'.functions

/-- The class, the variables, the out-events and the functions of `m`, these with their parameters
and locals, have the same identifiers in `m'`. -/
structure Stable (m m' : Model) : Prop where
  className : (ofModel m').className = (ofModel m).className
  members : ∀ v ∈ m.members, ∃ name,
    (ofModel m).member? v.id = some name ∧ (ofModel m').member? v.id = some name
  outs : ∀ o ∈ m.outEvents, ∃ name,
    (ofModel m).out? o.name = some name ∧ (ofModel m').out? o.name = some name
  functions : ∀ f ∈ m.functions, ∃ own,
    (ofModel m).function? f.id = some own ∧ (ofModel m').function? f.id = some own

theorem exists_eq_some_of_isSome {β : Type} {a b : Option β} (h : a.isSome) (heq : b = a) :
    ∃ x, a = some x ∧ b = some x := by
  obtain ⟨x, hx⟩ := Option.isSome_iff_exists.mp h
  exact ⟨x, hx, heq.trans hx⟩

/-- **What is declared at the end changes no identifier of what stands before.** -/
theorem Grows.stable {m m' : Model} (h : Grows m m') : Stable m m' := by
  obtain ⟨hclass, hd⟩ := dealt_apart m
  obtain ⟨hclass', hd'⟩ := dealt_apart m'
  refine ⟨by rw [hclass', hclass, h.name], fun v hv => ?_, fun o ho => ?_, fun f hf => ?_⟩
  · have hid : v.id ∈ m.members.map (·.id) := List.mem_map_of_mem hv
    refine exists_eq_some_of_isSome (isSome_member?.mpr hid) ?_
    rw [member?, member?, hd'.members_eq, hd.members_eq]
    exact h.members.last?_reserved _ _ (fun _ name => name) hid
  · have hname : o.name ∈ m.outEvents.map (·.name) := List.mem_map_of_mem ho
    refine exists_eq_some_of_isSome (isSome_out?.mpr hname) ?_
    rw [out?, out?, hd'.outs_eq, hd.outs_eq]
    exact h.outEvents.last?_reserved _ _ (fun _ name => name) hname
  · have hid : f.id ∈ m.functions.map (·.id) := List.mem_map_of_mem hf
    refine exists_eq_some_of_isSome (isSome_function?.mpr hid) ?_
    rw [function?, function?, hd'.functions_eq, hd.functions_eq]
    exact h.functions.last?_reserved _ _ (fun f name => ofFunction name f) hid

end GraphScript.Names

namespace GraphScript.Model

open Names (Grows Stable)

variable {m m' : Model}

/-! ## What each declaration does -/

/-- A variable that is declared goes to the end. -/
theorem OwnKeys.grows_addVariable (hk : m.OwnKeys) {d : VariableDef} {id : VariableId}
    (h : m.addVariable d = .ok (id, m')) : Grows m m' := by
  unfold addVariable at h
  split at h
  · cases h
  · rename_i hnew
    rw [hk.contains_variable] at hnew
    obtain ⟨rfl, rfl⟩ := Prod.mk.inj (Except.ok.inj h)
    rw [Entries.put_of_notMem (hk.map_variable_id ▸ hnew)]
    exact ⟨rfl, .singleton _ List.map_append hnew, .refl _ _, .refl _ _⟩

/-- So does an out-event. -/
theorem grows_addOutEvent {d : OutEventDef} (h : m.addOutEvent d = .ok m') : Grows m m' := by
  unfold addOutEvent at h
  split at h
  · cases h
  · rename_i hnew
    obtain rfl := Except.ok.inj h
    exact ⟨rfl, .refl _ _, .singleton _ rfl (mt outEvent?_isSome.mpr hnew), .refl _ _⟩

/-- So does a function, whose number no other function has. -/
theorem OwnKeys.grows_addFunction (hk : m.OwnKeys) {name : String} {kind : FunctionKind}
    {params returns locals : List Param} {body : List Statement} {origin : NodeId}
    {id : FunctionId}
    (h : m.addFunction name kind params returns locals body origin = .ok (id, m')) :
    Grows m m' := by
  obtain ⟨-, hnew, -, rfl⟩ := addFunction_ok h
  exact ⟨rfl, .refl _ _, .refl _ _, .singleton _ List.map_append (hk.map_function_id ▸ hnew)⟩

/-- **Identifiers are stable as a model grows.**  Where declarations stand under their own
identifiers, a variable, an out-event or a function that is declared, whatever its name is, leaves
the class and all declarations before it their identifiers, functions with those of their parameters
and locals. -/
theorem OwnKeys.identifiers_stable (hk : m.OwnKeys) :
    (∀ d id m', m.addVariable d = .ok (id, m') → Stable m m') ∧
      (∀ d m', m.addOutEvent d = .ok m' → Stable m m') ∧
      ∀ name kind params returns locals body origin id m',
        m.addFunction name kind params returns locals body origin = .ok (id, m') → Stable m m' :=
  ⟨fun _ _ _ h => (hk.grows_addVariable h).stable, fun _ _ h => (grows_addOutEvent h).stable,
    fun _ _ _ _ _ _ _ _ _ h => (hk.grows_addFunction h).stable⟩

/-- A model of two functions whose names differ in a blank, the first under the greater number. -/
def lookalikes : Model where
  name := "Lookalikes"
  functionEntries :=
    [(.secondLast, { (default : FunctionDef) with id := .secondLast, name := "a b" }),
      (⟨3⟩, { (default : FunctionDef) with id := ⟨3⟩, name := "a_b" })]

/-- The model with a third function whose name is cleaned to the same text. -/
def moreLookalikes : Model :=
  { lookalikes with functionEntries := lookalikes.functionEntries ++
      [(.last, { (default : FunctionDef) with id := .last, name := "a-b", origin := ⟨1⟩ })] }

/-- The third function leaves the two their identifiers and takes the next that is free; a variable
leaves both theirs as well. -/
theorem lookalikes_identifiers_stable : lookalikes.OwnKeys ∧
    (∃ m', lookalikes.addVariable default = .ok (default, m') ∧ Stable lookalikes m') ∧
    lookalikes.addFunction "a-b" .entry [] [] [] [] ⟨1⟩ = .ok (.last, moreLookalikes) ∧
    Stable lookalikes moreLookalikes ∧
    [FunctionId.secondLast, ⟨3⟩, .last].map
        (fun f => ((Names.ofModel moreLookalikes).function? f).map (·.name)) =
      [some "in_a_b", some "in_a_b_2", some "in_a_b_3"] := by
  have hk : lookalikes.OwnKeys := by decide
  have hadd : lookalikes.addFunction "a-b" .entry [] [] [] [] ⟨1⟩ = .ok (.last, moreLookalikes) :=
    rfl
  -- what the identifiers are made from and what is reserved are small terms to evaluate, and what
  -- the model as a whole comes to is not
  have hbases : Names.bases moreLookalikes = ["cls_Lookalikes", "in_a_b", "in_a_b", "in_a_b"] := by
    decide +kernel
  have hall : Names.reserveAll [] (Names.bases moreLookalikes) =
      ["cls_Lookalikes", "in_a_b", "in_a_b_2", "in_a_b_3"] := by
    rw [hbases]
    decide +kernel
  obtain ⟨hvariable, -, hfunction⟩ := hk.identifiers_stable
  refine ⟨hk, ⟨_, rfl, hvariable _ _ _ rfl⟩, hadd, hfunction _ _ _ _ _ _ _ _ _ hadd, ?_⟩
  simp only [Names.ofModel, hall]
  rfl

end GraphScript.Model
