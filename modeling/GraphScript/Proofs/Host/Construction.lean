import GraphScript.Proofs.Emit.Constructor
import GraphScript.Proofs.Host.Inputs
import GraphScript.Proofs.Host.Operation

/-!
# Proofs/Host/Construction — what reaches the members of an instance

An emitted constructor sets every member from its inputs, by the token of the member's variable
(`Emit.Script.script_constructor`), and the table that an instance passes to it has one key for each
variable, its token, with what the variable starts with (`Instance.given_of_collected`).  The two
are brought together in `members_constructed`.
-/

namespace GraphScript

open Script (Key Parser Table Value)

/-! ## Activation -/

namespace Instance

/-- Objects that pass are of the classes that are expected. -/
theorem className_eq_of_nodeableFault? {number : Nat} {ns : List NodeableInput}
    {objects : List ObjectRef} (h : nodeableFault? number ns objects = none) :
    ∀ p ∈ ns.zip objects, p.1.className = p.2.className := by
  induction ns generalizing number objects with
  | nil => exact List.forall_mem_nil _
  | cons n ns ih =>
    cases objects with
    | nil => exact List.forall_mem_nil _
    | cons o objects =>
      rw [nodeableFault?] at h
      split at h
      · rename_i hclass
        exact List.forall_mem_cons.mpr ⟨hclass, ih h⟩
      · cases h

/-! ## What variables are given -/

/-- What a variable that starts from that is given, in an instance of the owner. -/
def Given (m : Machine) (owner : EntityId) (objects : List ObjectRef) (v : Value) :
    Initializer → Prop
  | .value (.entityId e) => ∃ a, v = .host a (.entity (if e = .graphOwner then owner else e))
  | .value d => ∃ a, v = .ofDatum a d
  | .static s => m.Shows s v
  | .nodeable => ∃ a, ∃ o ∈ objects, v = .host a (.object o)

theorem forall₂_comp {α β γ : Type} {R : α → β → Prop} {S : β → γ → Prop} {as : List α}
    {bs : List β} {cs : List γ} (h : List.Forall₂ R as bs) (h' : List.Forall₂ S bs cs) :
    List.Forall₂ (fun a c => ∃ b, R a b ∧ S b c) as cs := by
  induction h generalizing cs with
  | nil =>
    cases h'
    exact .nil
  | cons hab _ ih =>
    cases h' with
    | cons hbc hrest => exact .cons ⟨_, hab, hbc⟩ (ih hrest)

section Collected

variable {i : Instance} {objects : List ObjectRef} {vs : List VariableDef}
  (hc : RuntimeInputs.Collected vs i.inputs) (hnd : (vs.map (·.id)).Nodup)
  (hlen : objects.length = i.inputs.nodeables.length) (m : Machine)

include hc hnd hlen

/-- The table has one key for each variable, its token. -/
theorem perm_keys_inputsTable : ((i.inputsTable objects m).1.entries.map (·.1)).Perm
    (vs.map fun v => tokenKey v.id) := by
  have hspec := (inputsTable_spec hlen (hc.ids.nodup_iff.mpr hnd) m).1
  have hids := hc.ids.map tokenKey
  rw [List.map_map] at hids
  exact hspec.trans hids

variable (hclass : ∀ p ∈ i.inputs.nodeables.zip objects, p.1.className = p.2.className)

include hclass

/-- Host objects are given in the order in which their variables are declared. -/
theorem forall₂_objects :
    List.Forall₂ (fun v o => v.dataType = .object o.className ∧
      ∃ a, (i.inputsTable objects m).1.get (tokenKey v.id) = .host a (.object o))
      (vs.filter (·.isNodeable)) objects := by
  have hdata := (inputsTable_spec hlen (hc.ids.nodup_iff.mpr hnd) m).2.1
  have hobjects : List.Forall₂ (fun n o => n.className = o.className ∧
      ∃ a, (i.inputsTable objects m).1.get (tokenKey n.id) = .ofDatum a (.object o))
      i.inputs.nodeables objects := by
    refine List.forall₂_iff_zip.mpr ⟨hlen.symm, fun {n o} hzip => ⟨hclass _ hzip, ?_⟩⟩
    have hmem : (n.id, Datum.object o) ∈ i.inputData objects :=
      List.mem_append_right _ (List.mem_map.mpr ⟨(n, o), hzip, rfl⟩)
    exact hdata (n.id, .object o) hmem
  refine (forall₂_comp hc.nodeable hobjects).imp ?_
  rintro v o ⟨n, ⟨hid, htype⟩, hname, a, ha⟩
  rw [hid] at ha
  exact ⟨htype.trans (congrArg DataType.object hname), a, ha⟩

/-- **Every variable is given what it starts with.** -/
theorem given_of_collected :
    ∀ v ∈ vs, Given (i.inputsTable objects m).2 i.owner objects
      ((i.inputsTable objects m).1.get (tokenKey v.id)) v.initializer := by
  obtain ⟨_, hdata, hstatics⟩ := inputsTable_spec hlen (hc.ids.nodup_iff.mpr hnd) m
  have hvalue : ∀ v ∈ vs, ∀ d, v.initializer = .value d → (∀ e, d ≠ .entityId e) →
      ∃ a, (i.inputsTable objects m).1.get (tokenKey v.id) = .ofDatum a d :=
    fun v hv d hinit hne => hdata (v.id, d)
      (List.mem_append_left _ (List.mem_append_left _ (hc.value v hv d hinit hne)))
  intro v hv
  cases hinit : v.initializer with
  | value d =>
    cases d with
    | entityId e =>
      have hmem : (v.id, Datum.entityId (resolveOwner i.owner e)) ∈ i.inputData objects := by
        refine List.mem_append_left _ (List.mem_append_right _ ?_)
        exact List.mem_map.mpr ⟨(v.id, e), hc.entity v hv e hinit, rfl⟩
      obtain ⟨a, ha⟩ := hdata _ hmem
      refine ⟨a, ha.trans ?_⟩
      simp only [Value.ofDatum, resolveOwner, EntityId.isGraphOwner, decide_eq_true_eq]
    | boolean b => exact hvalue v hv _ hinit (by simp)
    | number x => exact hvalue v hv _ hinit (by simp)
    | string s => exact hvalue v hv _ hinit (by simp)
    | object o => exact hvalue v hv _ hinit (by simp)
  | static s => exact hstatics (v.id, s) (hc.static v hv s hinit)
  | nodeable =>
    have hfilter : v ∈ vs.filter (·.isNodeable) :=
      List.mem_filter.mpr ⟨hv, by rw [VariableDef.isNodeable, hinit]⟩
    obtain ⟨o, ho, _, a, ha⟩ := exists_of_mem_left (forall₂_objects hc hnd hlen m hclass) hfilter
    exact ⟨a, o, ho, ha⟩

end Collected

end Instance

namespace Emit.Script

/-- The constructor stands in the text of a chunk on lines of its own. -/
theorem exists_text_eq {m : Model} {o : Options} {e : Emission} (h : emit m o = .ok e) :
    ∃ before after, e.text = Code.text o.indentWidth before ++
      Code.text o.indentWidth (constructor m (Names.ofModel m)) ++
      Code.text o.indentWidth after := by
  obtain ⟨order, _, htext, _⟩ := emit_ok h
  have hlines : lines m o order = opening m (Names.ofModel m) ++
      (internals m order).flatMap (function m (Names.ofModel m) o) ++
      constructor m (Names.ofModel m) ++
      ((entries m).flatMap (function m (Names.ofModel m) o) ++
        [⟨0, "return " ++ (Names.ofModel m).className, none⟩]) := List.append_assoc ..
  rw [htext, hlines, Code.text_append, Code.text_append]
  exact ⟨_, _, rfl⟩

end Emit.Script

namespace Instance

/-- **What a graph's variables start with reaches the members of its instances.**  A valid model
whose variables are stored under their own identifiers is emitted.  A machine parses the emitted
constructor as a function that sets each member from its inputs, by the token of the member's own
variable, and no two variables or members share a token or an identifier.  Whatever an instance is
owned by and activated with, the inputs that it passes have these tokens as keys, each once, and
hold what the variable starts with: a datum, with the owner for an entity that stands for it, a
static value, or a host object.  Host objects go to variables in the order of declaration, and
activation with other host objects than those accepted is refused. -/
theorem members_constructed (m : Model) (o : Options) (hvalid : m.isValid = true)
    (hnd : (m.variableEntries.map (·.1)).Nodup) (hid : ∀ e ∈ m.variableEntries, e.2.id = e.1) :
    ∃ e, Emit.Script.emit m o = .ok e ∧
      (m.members.map (·.id.token)).Nodup ∧
      (m.members.map fun v => (Names.ofModel m).member v.id).Nodup ∧
      (∃ before constructor after,
        e.text = Code.text o.indentWidth before ++ constructor ++ Code.text o.indentWidth after ∧
        Parser.script constructor = .ok [Emit.Script.constructorTree (Names.ofModel m).className
          (m.members.map fun v => ((Names.ofModel m).member v.id, v.id.token))]) ∧
      ∀ (i : Instance) (objects : List ObjectRef), i.inputs = e.runtimeInputs →
        (¬ i.Accepts objects → ∀ vm number, get? vm number = some i →
          ∃ error, (activate number objects).run.run vm = (.error error, vm)) ∧
        (i.Accepts objects → ∀ machine table after, i.inputsTable objects machine = (table, after) →
          (table.entries.map (·.1)).Perm (m.members.map fun v => .str v.id.token.toUTF8) ∧
          (∀ v ∈ m.members, Given after i.owner objects
            (table.get (.str v.id.token.toUTF8)) v.initializer) ∧
          List.Forall₂ (fun v object => v.dataType = .object object.className ∧
            ∃ a, table.get (.str v.id.token.toUTF8) = .host a (.object object))
            (m.members.filter (·.isNodeable)) objects) := by
  have hids : (m.members.map (·.id)).Nodup := by
    have hmap : m.members.map (·.id) = m.variableEntries.map (·.1) := by
      rw [Model.members, List.map_map]
      exact List.map_congr_left hid
    exact hmap ▸ hnd
  obtain ⟨e, he⟩ := (Emit.Script.exists_emit_iff (Model.isValid_iff.mp hvalid) o).mpr hids
  obtain ⟨before, after, htext⟩ := Emit.Script.exists_text_eq he
  refine ⟨e, he, ?_, ?_, ⟨before, _, after, htext, Emit.Script.script_constructor m _⟩, ?_⟩
  · have htokens := hids.map VariableId.token_injective
    rwa [List.map_map] at htokens
  · obtain ⟨ms, os, fs, hd⟩ := Names.exists_dealt m
    rw [hd.map_member_eq hids]
    exact (List.nodup_append.mp (List.nodup_cons.mp hd.nodup).2).1
  · intro i objects hi
    have hc : RuntimeInputs.Collected m.members i.inputs :=
      hi ▸ RuntimeInputs.collected_of_ofModel (Emit.Script.ofModel_of_emit he)
    refine ⟨fun hn vm number hget => activate_refused hget hn, ?_⟩
    rintro ⟨hlen, hfault⟩ machine table after hinputs
    have hclass := className_eq_of_nodeableFault? hfault
    have hperm := perm_keys_inputsTable hc hids hlen machine
    have hgiven := given_of_collected hc hids hlen machine hclass
    have hobjects := forall₂_objects hc hids hlen machine hclass
    rw [hinputs] at hperm hgiven hobjects
    exact ⟨hperm, hgiven, hobjects⟩

/-- A beacon of its owner, with colours, a timer and a bell. -/
def beacon : Model where
  name := "Beacon"
  variableEntries := [
    (.ofNat 5, ⟨.ofNat 5, "timer", .object "Timer", .nodeable, .hidden⟩),
    (.ofNat 1, ⟨.ofNat 1, "lit", .boolean, .value (.boolean false), .hidden⟩),
    (.ofNat 2, ⟨.ofNat 2, "keeper", .entityId, .value (.entityId .graphOwner), .hidden⟩),
    (.ofNat 3, ⟨.ofNat 3, "colours", .string, .static (.textList ["red", "green"]), .hidden⟩),
    (.ofNat 4, ⟨.ofNat 4, "bell", .object "Bell", .nodeable, .hidden⟩)]

/-- A beacon is given its owner, two objects and a list of two. -/
theorem beacon_members_constructed : beacon.isValid = true ∧
    ∃ e, Emit.Script.emit beacon {} = .ok e ∧ ∀ i : Instance, i.inputs = e.runtimeInputs →
      i.Accepts [⟨"Timer", 1⟩, ⟨"Bell", 2⟩] ∧ ∀ machine table after,
        i.inputsTable [⟨"Timer", 1⟩, ⟨"Bell", 2⟩] machine = (table, after) →
          table.entries.length = 5 ∧
          (∃ a, table.get (.str (VariableId.ofNat 2).token.toUTF8) = .host a (.entity i.owner)) ∧
          (∃ a, table.get (.str (VariableId.ofNat 5).token.toUTF8) =
            .host a (.object ⟨"Timer", 1⟩)) ∧
          ∃ t, after.HasTable (table.get (.str (VariableId.ofNat 3).token.toUTF8)) t ∧
            t.get (.int 1) = .ofText "red" ∧ t.get (.int 2) = .ofText "green" ∧ t.length = 2 := by
  have hvalid : beacon.isValid = true := by decide
  obtain ⟨e, he, _, _, _, hinstances⟩ :=
    members_constructed beacon {} hvalid (by decide) (by decide)
  refine ⟨hvalid, e, he, fun i hi => ?_⟩
  have hnodeables : i.inputs.nodeables = [⟨.ofNat 5, "Timer"⟩, ⟨.ofNat 4, "Bell"⟩] := by
    have hinputs := Emit.Script.ofModel_of_emit he
    rw [hi]
    exact congrArg RuntimeInputs.nodeables (Except.ok.inj hinputs).symm
  have haccepts : i.Accepts [⟨"Timer", 1⟩, ⟨"Bell", 2⟩] := by
    rw [Accepts, hnodeables]
    decide
  refine ⟨haccepts, fun machine table after htable => ?_⟩
  obtain ⟨hperm, hgiven, hobjects⟩ := (hinstances i _ hi).2 haccepts machine table after htable
  have hlength := hperm.length_eq
  rw [List.length_map, List.length_map] at hlength
  refine ⟨hlength, hgiven _ (List.mem_of_getElem? (i := 2) rfl),
    (List.forall₂_cons.mp hobjects).1.2, ?_⟩
  obtain ⟨t, ht, hlists⟩ := hgiven _ (List.mem_of_getElem? (i := 3) rfl)
  have hcolours := hlists (by decide)
  exact ⟨t, ht, hcolours.item (n := 0) rfl, hcolours.item (n := 1) rfl, hcolours.length⟩

end Instance

end GraphScript
