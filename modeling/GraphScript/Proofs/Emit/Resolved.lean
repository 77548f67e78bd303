import GraphScript.Proofs.Emit.Chunk
import GraphScript.Proofs.Emit.Lookups
import GraphScript.Proofs.Json.Yields

/-!
# Proofs/Emit/Resolved — when emission finds all it looks for

Bodies refer to declarations by key, and so does the check of a model; the table of identifiers is
made by the identifiers that the declarations themselves carry.  In a document the two may differ.
`resolved_iff` says for which accepted documents emission still takes no placeholder and leaves no
function out: those in which every internal function is stored under a key that some function
carries (`InternalsAnchored`) and what bodies refer to is found by identifier (`BodiesAnchored`).
This is so where every declaration is stored under its own identifier.
-/

namespace GraphScript

/-! ## What is found by identifier -/

/-- A reference in a body of `f` leads to a variable that carries the identifier, or to a position
of the function whose identifiers `f` is given. -/
def Reference.Anchored (m : Model) (f : FunctionDef) : Reference → Prop
  | .member v => v ∈ m.members.map (·.id)
  | .param i => ∀ g, Names.lender? m f.id = some g → i.toNat < g.params.length
  | .localVar i => ∀ g, Names.lender? m f.id = some g → i.toNat < g.locals.length
  | .function _ => True
  | .out _ => True

namespace Model

/-- Every internal function is stored under a key that some function carries as its identifier. -/
def InternalsAnchored (m : Model) : Prop :=
  ∀ e ∈ m.functionEntries, e.2.kind = .internal → e.1 ∈ m.functions.map (·.id)

instance (m : Model) : Decidable m.InternalsAnchored := List.decidableBAll _ m.functionEntries

/-- What the bodies refer to is found by identifier. -/
def BodiesAnchored (m : Model) : Prop :=
  ∀ f ∈ m.functions, ∀ s ∈ Statement.walkAll f.body, ∀ r ∈ s.references, r.Anchored m f

namespace OwnKeys

variable {m : Model} (hk : m.OwnKeys)

include hk

/-- Where functions are stored under their own identifiers, helpers are anchored. -/
theorem internalsAnchored : m.InternalsAnchored := by
  intro e he _
  rw [hk.map_function_id]
  exact List.mem_map_of_mem he

theorem lender?_id {f g : FunctionDef} (hf : f ∈ m.functions)
    (h : Names.lender? m f.id = some g) : g = f := by
  obtain ⟨hg, hid⟩ := Names.mem_of_lender? h
  exact List.inj_on_of_nodup_map hk.function_ids_nodup hg hf hid

/-- Where functions are stored under their own identifiers, bodies of a valid model are anchored. -/
theorem bodiesAnchored (hv : m.Valid) : m.BodiesAnchored := by
  intro f hf s hs r hr
  have hdeclared := hv.declared hf hs r hr
  cases r with
  | member v =>
    change v ∈ m.members.map (·.id)
    rw [hk.map_variable_id]
    exact Entries.isSome_get?.mp hdeclared
  | param i =>
    intro g hg
    rw [hk.lender?_id hf hg]
    exact hdeclared
  | localVar i =>
    intro g hg
    rw [hk.lender?_id hf hg]
    exact hdeclared
  | function id => trivial
  | out name => trivial

end OwnKeys

end Model

namespace Emit

section Found

variable {m : Model} {f : FunctionDef} {own : Names.Function} {function : FunctionId → Prop}
  {out : String → Prop} {r : Reference} (hown : (Names.ofModel m).function? f.id = some own)

include hown

/-- A function has as many names as the one that lends them has parameters and local variables. -/
theorem length_lender {g : FunctionDef} (hg : Names.lender? m f.id = some g) :
    own.params.length = g.params.length ∧ own.locals.length = g.locals.length := by
  obtain ⟨g', hg', heq, _⟩ := Names.exists_lender? hown
  obtain rfl : g' = g := Option.some.inj (hg'.symm.trans hg)
  rw [heq]
  exact ⟨Names.length_params_ofFunction _ _, Names.length_locals_ofFunction _ _⟩

/-- What is found is anchored. -/
theorem anchored_of_found (h : Found (Names.ofModel m) own function out r) : r.Anchored m f := by
  cases r with
  | member v => exact Names.isSome_member?.mp h
  | param i =>
    intro g hg
    rw [← (length_lender hown hg).1]
    exact h
  | localVar i =>
    intro g hg
    rw [← (length_lender hown hg).2]
    exact h
  | function id => trivial
  | out name => trivial

/-- What is anchored is found. -/
theorem found_of_anchored (hfunction : ∀ id, r = .function id → function id)
    (hout : ∀ name, r = .out name → out name) (h : r.Anchored m f) :
    Found (Names.ofModel m) own function out r := by
  obtain ⟨g, hg, _⟩ := Names.exists_lender? hown
  cases r with
  | member v => exact Names.isSome_member?.mpr h
  | param i =>
    change i.toNat < own.params.length
    rw [(length_lender hown hg).1]
    exact h g hg
  | localVar i =>
    change i.toNat < own.locals.length
    rw [(length_lender hown hg).2]
    exact h g hg
  | function id => exact hfunction id rfl
  | out name => exact hout name rfl

end Found

/-- Every function has names. -/
theorem exists_own {m : Model} {f : FunctionDef} (hf : f ∈ m.functions) :
    ∃ own, (Names.ofModel m).function? f.id = some own :=
  Option.isSome_iff_exists.mp (Names.isSome_function?.mpr (List.mem_map_of_mem hf))

/-! ## The interpreted target -/

namespace Script

/-- In what the body of a function is emitted. -/
def context (m : Model) (o : Options) (f : FunctionDef) (own : Names.Function) : Context :=
  ⟨m, Names.ofModel m, o.nodeComments, f.name, own⟩

/-- All that is looked up for a chunk is found, and no internal function is left out. -/
structure Resolved (m : Model) (o : Options) (order : List FunctionId) : Prop where
  members : ∀ v ∈ m.members, ((Names.ofModel m).member? v.id).isSome
  bodies : ∀ f ∈ internals m order ++ entries m, ∃ own,
    (Names.ofModel m).function? f.id = some own ∧
      ∀ s ∈ Statement.walkAll f.body, ∀ r ∈ s.references, (context m o f own).Finds r
  complete : ∀ f ∈ m.functions, f.kind = .internal → f ∈ internals m order

/-- The body of a function reads the same for all larger tables of identifiers. -/
def Settled (m : Model) (o : Options) (f : FunctionDef) : Prop :=
  ∀ own c, (Names.ofModel m).function? f.id = some own → (context m o f own).Extends c →
    ∀ level, block c level f.body = block (context m o f own) level f.body

variable {m : Model} {o : Options} {order : List FunctionId}

/-- In a resolved chunk every function that is emitted is settled. -/
theorem Resolved.settled (h : Resolved m o order) :
    ∀ f ∈ internals m order ++ entries m, Settled m o f := by
  intro f hf own c hown hc level
  obtain ⟨own', hown', hfinds⟩ := h.bodies f hf
  obtain rfl : own' = own := Option.some.inj (hown'.symm.trans hown)
  exact block_eq hc level f.body hfinds

/-- Functions that are emitted are functions of the model. -/
theorem mem_functions_of_mem_emitted {f : FunctionDef} (hf : f ∈ internals m order ++ entries m) :
    f ∈ m.functions := by
  rcases List.mem_append.mp hf with hf | hf
  · exact mem_functions_of_mem_internals hf
  · exact mem_functions_of_mem_entries hf

/-- **No internal function is left out exactly if the keys of all are carried by functions.** -/
theorem complete_iff (hk : m.Keyed) (hv : m.Valid) (horder : m.callOrder = .ok order) :
    (∀ f ∈ m.functions, f.kind = .internal → f ∈ internals m order) ↔ m.InternalsAnchored := by
  have hperm := (Model.callOrder_ok horder).1
  constructor
  · rintro h ⟨key, f⟩ he hkind
    have hf : f ∈ internals m order := h f (List.mem_map.mpr ⟨(key, f), he, rfl⟩) hkind
    obtain ⟨id, hid, hat⟩ := List.mem_filterMap.mp (List.mem_of_mem_filter hf)
    have hnames : (m.functionEntries.map fun e => e.2.name).Nodup := by
      have hnames := hv.names
      rwa [Model.functions, List.map_map] at hnames
    -- names are pairwise different, so the function is stored only once
    obtain rfl : id = key := congrArg Prod.fst
      (List.inj_on_of_nodup_map hnames (Model.mem_functionEntries hat) he rfl)
    exact hperm.mem_iff.mp hid
  · intro h f hf hkind
    obtain ⟨e, he, rfl⟩ := List.mem_map.mp hf
    have hat : m.functionAt? e.1 = some e.2 := Entries.get?_of_mem hk.2 he
    refine List.mem_filter.mpr ⟨List.mem_filterMap.mpr ⟨e.1, ?_, hat⟩, decide_eq_true hkind⟩
    exact hperm.mem_iff.mpr (h e he hkind)

/-- A call in a valid model is written by name, or under an identifier that is found. -/
theorem finds_function (hi : m.InternalsAnchored) {f : FunctionDef} {own : Names.Function}
    {id : FunctionId} (h : (Reference.function id).Declared m f) :
    (context m o f own).Finds (.function id) := by
  obtain ⟨callee, hat⟩ := Option.isSome_iff_exists.mp h
  cases hkind : callee.kind with
  | entry => exact Or.inl ⟨callee, hat, hkind⟩
  | internal =>
    exact Or.inr (Names.isSome_function?.mpr (hi _ (Model.mem_functionEntries hat) hkind))

/-- **A chunk is resolved exactly if helpers and bodies are anchored.** -/
theorem resolved_iff_anchored (hk : m.Keyed) (hv : m.Valid) (horder : m.callOrder = .ok order) :
    Resolved m o order ↔ m.InternalsAnchored ∧ m.BodiesAnchored := by
  constructor
  · intro h
    have hi := (complete_iff hk hv horder).mp h.complete
    refine ⟨hi, fun f hf s hs r hr => ?_⟩
    have hemitted : f ∈ internals m order ++ entries m := by
      cases hkind : f.kind with
      | entry => exact List.mem_append_right _ (List.mem_filter.mpr ⟨hf, decide_eq_true hkind⟩)
      | internal => exact List.mem_append_left _ (h.complete f hf hkind)
    obtain ⟨own, hown, hfinds⟩ := h.bodies f hemitted
    exact anchored_of_found hown (hfinds s hs r hr)
  · rintro ⟨hi, hb⟩
    refine ⟨fun v hv => Names.isSome_member?.mpr (List.mem_map_of_mem hv), fun f hemitted => ?_,
      (complete_iff hk hv horder).mpr hi⟩
    have hf := mem_functions_of_mem_emitted hemitted
    obtain ⟨own, hown⟩ := exists_own hf
    refine ⟨own, hown, fun s hs r hr => ?_⟩
    have hdeclared := hv.declared hf hs r hr
    refine found_of_anchored hown ?_ (fun _ _ => trivial) (hb f hf s hs r hr)
    rintro id rfl
    exact finds_function (o := o) hi hdeclared

end Script

/-! ## The native source -/

namespace Source

/-- In what the body of a method is emitted. -/
def context (m : Model) (o : Options) (own : Names.Function) : Context :=
  ⟨m, Names.ofModel m, o.nodeComments, own⟩

/-- All that is looked up for the native source is found. -/
structure Resolved (m : Model) (o : Options) : Prop where
  members : ∀ v ∈ m.members, ((Names.ofModel m).member? v.id).isSome
  bodies : ∀ f ∈ m.functions, ∃ own, (Names.ofModel m).function? f.id = some own ∧
    ∀ s ∈ Statement.walkAll f.body, ∀ r ∈ s.references, (context m o own).Finds r

/-- The body of a method reads the same for all larger tables of identifiers. -/
def Settled (m : Model) (o : Options) (f : FunctionDef) : Prop :=
  ∀ own c, (Names.ofModel m).function? f.id = some own → (context m o own).Extends c →
    ∀ level, block c level f.body = block (context m o own) level f.body

variable {m : Model} {o : Options}

/-- In a resolved source every function is settled. -/
theorem Resolved.settled (h : Resolved m o) : ∀ f ∈ m.functions, Settled m o f := by
  intro f hf own c hown hc level
  obtain ⟨own', hown', hfinds⟩ := h.bodies f hf
  obtain rfl : own' = own := Option.some.inj (hown'.symm.trans hown)
  exact block_eq hc level f.body hfinds

theorem finds_function {f : FunctionDef} {own : Names.Function} {id : FunctionId}
    (h : (Reference.function id).Declared m f) : (context m o own).Finds (.function id) := by
  obtain ⟨callee, hat⟩ := Option.isSome_iff_exists.mp h
  exact ⟨callee, hat, Names.isSome_function?.mpr (List.mem_map_of_mem (Model.mem_functions hat))⟩

theorem finds_out {f : FunctionDef} {own : Names.Function} {name : String}
    (h : (Reference.out name).Declared m f) : (context m o own).Finds (.out name) := by
  obtain ⟨event, hevent⟩ := Option.isSome_iff_exists.mp h
  have hname : event.name = name := by simpa using List.find?_some hevent
  exact Names.isSome_out?.mpr (List.mem_map.mpr ⟨event, List.mem_of_find?_eq_some hevent, hname⟩)

/-- **A source is resolved exactly if bodies are anchored.** -/
theorem resolved_iff_anchored (hv : m.Valid) : Resolved m o ↔ m.BodiesAnchored := by
  constructor
  · intro h f hf s hs r hr
    obtain ⟨own, hown, hfinds⟩ := h.bodies f hf
    exact anchored_of_found hown (hfinds s hs r hr)
  · intro hb
    refine ⟨fun v hv => Names.isSome_member?.mpr (List.mem_map_of_mem hv), fun f hf => ?_⟩
    obtain ⟨own, hown⟩ := exists_own hf
    refine ⟨own, hown, fun s hs r hr => ?_⟩
    have hdeclared := hv.declared hf hs r hr
    refine found_of_anchored hown ?_ ?_ (hb f hf s hs r hr)
    · rintro id rfl
      exact finds_function (o := o) hdeclared
    · rintro name rfl
      exact finds_out (o := o) hdeclared

end Source

/-! ## Accepted documents -/

/-- **Emission of an accepted document finds all it looks for exactly if the keys that emission goes
by are carried by declarations**; then no body holds a placeholder.  Where every declaration is
stored under its own identifier, this is so. -/
theorem resolved_iff {text : String} {m : Model} (h : Model.ofJson text = .ok m) (o : Options) :
    ∃ order, m.callOrder = .ok order ∧
      (Script.Resolved m o order ↔ m.InternalsAnchored ∧ m.BodiesAnchored) ∧
      (Source.Resolved m o ↔ m.BodiesAnchored) ∧
      (Script.Resolved m o order →
        ∀ f ∈ Script.internals m order ++ Script.entries m, Script.Settled m o f) ∧
      (Source.Resolved m o → ∀ f ∈ m.functions, Source.Settled m o f) ∧
      ((∀ e ∈ m.variableEntries, e.2.id = e.1) → (∀ e ∈ m.functionEntries, e.2.id = e.1) →
        Script.Resolved m o order ∧ Source.Resolved m o) := by
  obtain ⟨hv, hk⟩ := Model.ofJson_ok h
  obtain ⟨order, horder⟩ := hv.order
  have hscript := Script.resolved_iff_anchored (o := o) hk hv horder
  have hsource := Source.resolved_iff_anchored (o := o) hv
  refine ⟨order, horder, hscript, hsource, Script.Resolved.settled, Source.Resolved.settled, ?_⟩
  intro hvariables hfunctions
  have hown : m.OwnKeys := ⟨hk.1, hk.2, hvariables, hfunctions⟩
  have hbodies := hown.bodiesAnchored hv
  exact ⟨hscript.mpr ⟨hown.internalsAnchored, hbodies⟩, hsource.mpr hbodies⟩

/-- A lamp with one helper, which logs its parameter, under a key of our choice. -/
def lampText (key : String) : String :=
  "[\"Lamp\",\"Shared\",[],[[" ++ key ++ ",[0,\"Dim\",\"Internal\",[[\"by\",\"Number\"]],[],[]," ++
    "[[2,null,\x7b\"Log\":[\x7b\"Param\":0\x7d]\x7d]],1]]]]"

theorem exists_of_any {α ε : Type} {x : Except ε α} {p : α → Bool} (h : x.toOption.any p = true) :
    ∃ a, x = .ok a ∧ p a = true := by
  cases x with
  | error e => cases h
  | ok a => exact ⟨a, rfl, h⟩

/-- Under its own identifier the helper is emitted, under another key it is left out. -/
theorem lamp_resolved_iff :
    (∃ m, Model.ofJson (lampText "0") = .ok m ∧ ∃ order, m.callOrder = .ok order ∧
      Script.Resolved m {} order ∧ Source.Resolved m {}) ∧
    ∃ m, Model.ofJson (lampText "5") = .ok m ∧ ∃ order, m.callOrder = .ok order ∧
      ¬ Script.Resolved m {} order := by
  constructor
  · have hread : ((Model.ofJson (lampText "0")).toOption.any fun m => decide m.OwnKeys) = true := by
      decide +kernel
    obtain ⟨m, hm, hown⟩ := exists_of_any hread
    have hk : m.OwnKeys := of_decide_eq_true hown
    obtain ⟨order, horder, _, _, _, _, hresolved⟩ := resolved_iff hm {}
    exact ⟨m, hm, order, horder, hresolved hk.variable_id hk.function_id⟩
  · have hread : ((Model.ofJson (lampText "5")).toOption.any fun m =>
        decide ¬ m.InternalsAnchored) = true := by
      decide +kernel
    obtain ⟨m, hm, hstray⟩ := exists_of_any hread
    obtain ⟨order, horder, hscript, _⟩ := resolved_iff hm {}
    exact ⟨m, hm, order, horder, fun h => of_decide_eq_true hstray (hscript.mp h).1⟩

end Emit

end GraphScript
