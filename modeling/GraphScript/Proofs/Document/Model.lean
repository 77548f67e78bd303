import GraphScript.Document.Model
import GraphScript.Proofs.Document.Statement
import GraphScript.Proofs.Keys

/-!
# Proofs/Document/Model — a model is read back from its document

Declarations are records, read back field by field, and a table of them is read back where its keys
are pairwise different.  Main result: the compact text of a model gives the model again, whether or
not its declarations are stored under their own identifiers (`Model.decode_compact_toJson`).
-/

namespace GraphScript

open Json (Legible)
open Json.Reader

theorem Characteristics.reads (c : Characteristics) :
    Reads Characteristics.reader (.str c.name) c := by
  cases c <;> exact reads_plain rfl

theorem Exposure.reads (e : Exposure) : Reads Exposure.reader (.str e.name) e := by
  cases e <;> exact reads_plain rfl

theorem FunctionKind.reads (k : FunctionKind) : Reads FunctionKind.reader (.str k.name) k := by
  cases k <;> exact reads_plain rfl

/-! ## Declarations -/

namespace Initializer

/-- The doubles of an initializer. -/
def doubles : Initializer → List Float
  | .value d => d.doubles
  | .static s => s.doubles
  | .nodeable => []

/-- The entries of a lookup are in the order of their keys. -/
def Ordered : Initializer → Prop
  | .static s => s.Ordered
  | _ => True

/-- First values come back. -/
theorem reads {i : Initializer} (hordered : i.Ordered) (h : ∀ x ∈ i.doubles, Legible x) :
    Reads Initializer.reader i.toJson i := by
  cases i with
  | value d => exact reads_tagged (.inl rfl) ((Datum.reads h).map value)
  | static s => exact reads_tagged (.inl rfl) ((StaticValue.reads hordered h).map static)
  | nodeable => exact reads_plain rfl

end Initializer

theorem VariableDef.reads {v : VariableDef} (hordered : v.initializer.Ordered)
    (h : ∀ x ∈ v.initializer.doubles, Legible x) : Reads VariableDef.reader v.toJson v :=
  reads_record
    (.cons (takes_field rfl rfl v.id.reads)
    (.cons (takes_field rfl rfl (reads_text _ v.name))
    (.cons (takes_field rfl rfl v.dataType.reads)
    (.cons (takes_field rfl rfl (Initializer.reads hordered h))
    (.cons (takes_field rfl rfl v.exposure.reads)
    (.nil _)))))) rfl

theorem Param.reads (title : String) (p : Param) : Reads (Param.readerOf title) p.toJson p :=
  Statement.reads_twoFields (by decide) (reads_text _ p.name) p.dataType.reads

theorem reads_params (title : String) (ps : List Param) :
    Reads (array (Param.readerOf title)) (.params ps) ps :=
  reads_array fun p _ => p.reads title

/-- Functions come back with their bodies. -/
theorem FunctionDef.reads {f : FunctionDef} (h : ∀ x ∈ Statement.doubles f.body, Legible x) :
    Reads FunctionDef.reader f.toJson f :=
  reads_record
    (.cons (takes_field rfl rfl f.id.reads)
    (.cons (takes_field rfl rfl (reads_text _ f.name))
    (.cons (takes_field rfl rfl f.kind.reads)
    (.cons (takes_field rfl rfl (reads_params _ f.params))
    (.cons (takes_field rfl rfl (reads_params _ f.returns))
    (.cons (takes_field rfl rfl (reads_params _ f.locals))
    (.cons (takes_field rfl rfl (Statement.reads_array_reader h))
    (.cons (takes_field rfl rfl f.origin.reads)
    (.nil _))))))))) rfl

/-- Out-events come back with their parameters. -/
theorem OutEventDef.reads (o : OutEventDef) : Reads OutEventDef.reader o.toJson o :=
  reads_record
    (.cons (takes_field rfl rfl (reads_text _ o.name))
    (.cons (takes_field rfl rfl (reads_params _ o.params))
    (.cons (takes_field rfl rfl (reads_params _ o.returns))
    (.cons (takes_field rfl rfl o.origin.reads)
    (.nil _))))) rfl

namespace Model

/-! ## Models -/

/-- A table is read back where its keys are pairwise different. -/
theorem reads_tableReader {κ α : Type} [DecidableEq κ] {key : Json.Reader κ} {value : Json.Reader α}
    {f : κ → Json} {g : α → Json} {es : List (κ × α)} (hkeys : (es.map (·.1)).Nodup)
    (hkey : ∀ k, Reads key (f k) k) (hvalue : ∀ e ∈ es, Reads value (g e.2) e.2) :
    Reads (tableReader key value) (.arr (es.map fun e => .arr [f e.1, g e.2])) es := by
  have hentries : Reads (arrayOf "a sequenced map" (pair key value))
      (.arr (es.map fun e => .arr [f e.1, g e.2])) es :=
    reads_arrayOf _ fun e he => reads_pair (hkey e.1) (hvalue e he)
  have htable := hentries.map fun es => es.foldl (fun es e => Entries.put es e.1 e.2) []
  rwa [Entries.foldl_put_eq_self hkeys] at htable

/-- The doubles of a model: those of its initial values and those in the bodies of its functions. -/
def doubles (m : Model) : List Float :=
  m.members.flatMap (·.initializer.doubles) ++
    m.functions.flatMap fun f => Statement.doubles f.body

/-- The entries of every lookup are in the order of their keys. -/
def Ordered (m : Model) : Prop := ∀ v ∈ m.members, v.initializer.Ordered

/-- **Models come back** whose keys are told apart and whose tables are in order. -/
theorem reads {m : Model} (hkeyed : m.Keyed) (hordered : m.Ordered)
    (h : ∀ x ∈ m.doubles, Legible x) : Reads Model.reader m.toJson m := by
  obtain ⟨hvariables, hfunctions⟩ := hkeyed
  obtain ⟨hinitial, hbodies⟩ := List.forall_mem_append.mp h
  have hvariable : ∀ e ∈ m.variableEntries, Reads VariableDef.reader e.2.toJson e.2 := by
    intro e he
    have hmem : e.2 ∈ m.members := List.mem_map_of_mem he
    exact VariableDef.reads (hordered e.2 hmem) fun x hx =>
      hinitial x (List.mem_flatMap.mpr ⟨e.2, hmem, hx⟩)
  have hfunction : ∀ e ∈ m.functionEntries, Reads FunctionDef.reader e.2.toJson e.2 := by
    intro e he
    have hmem : e.2 ∈ m.functions := List.mem_map_of_mem he
    exact FunctionDef.reads fun x hx => hbodies x (List.mem_flatMap.mpr ⟨e.2, hmem, hx⟩)
  exact reads_record
    (.cons (takes_field rfl rfl (reads_text _ m.name))
    (.cons (takes_field rfl rfl m.characteristics.reads)
    (.cons (takes_field rfl rfl (reads_tableReader hvariables VariableId.reads hvariable))
    (.cons (takes_field rfl rfl (reads_tableReader hfunctions FunctionId.reads hfunction))
    (.cons (takes_field rfl rfl (reads_array fun o _ => OutEventDef.reads o))
    (.nil _)))))) rfl

/-- **A model is read back from its compact text**, where its doubles are finite, the text of each
of them is read back, and its document is not nested too deep.  So the text is written the same way
again. -/
theorem decode_compact_toJson {m : Model} (hkeyed : m.Keyed) (hordered : m.Ordered)
    (hfinite : ∀ x ∈ m.doubles, x.isFinite)
    (hlegible : ∀ x ∈ m.doubles, x.isFinite → Legible x) (hdepth : m.toJson.depth < 128) :
    decode Model.reader m.toJson.compact = .ok m :=
  (reads hkeyed hordered fun x hx => hlegible x hx (hfinite x hx)).decode_compact hdepth

/-- A gauge that keeps its level under a key which is not the level's own identifier. -/
def gauge : Model where
  name := "Gauge \"A\""
  characteristics := .shared
  variableEntries := [
    (.ofNat 7, ⟨.ofNat 1, "level", .number, .value (.number (-0.1)), .output⟩),
    (.ofNat 1, ⟨.ofNat 1, "marks", .number, .static (.lookup [("high", 1.5), ("low", 0.25)]),
      .hidden⟩)]
  functionEntries := [
    (⟨3⟩, ⟨⟨0⟩, "Fill", .entry, [⟨"by", .number⟩], [], [⟨"full", .boolean⟩],
      [.mk ⟨4⟩ (some ⟨2⟩) (.cond (.binary .lt (.member (.ofNat 7)) (.literal (.number 2e20)))
        [.mk ⟨5⟩ none (.setMember (.ofNat 7) (.param 0))]
        [.mk ⟨6⟩ none (.fire "full" [] [0])])], ⟨4⟩⟩)]
  outEvents := [⟨"full", [], [⟨"heard", .boolean⟩], ⟨6⟩⟩]

/-- A gauge with a variable under a key that is not its own comes back. -/
theorem gauge_decode_compact_toJson : (∃ e ∈ gauge.variableEntries, e.2.id ≠ e.1) ∧
    gauge.doubles = [-0.1, 1.5, 0.25, 2e20] ∧ gauge.toJson.depth = 13 ∧
    decode Model.reader gauge.toJson.compact = .ok gauge := by
  have hkey : ∃ e ∈ gauge.variableEntries, e.2.id ≠ e.1 := ⟨_, List.mem_cons_self, by decide⟩
  have hdoubles : gauge.doubles = [-0.1, 1.5, 0.25, 2e20] := rfl
  have hdepth : gauge.toJson.depth = 13 := by decide +kernel
  have hmarks : Entries.Sorted [("high", (1.5 : Float)), ("low", 0.25)] := by
    rw [Entries.Sorted, List.pairwise_pair]
    decide
  have hordered : gauge.Ordered :=
    List.forall_mem_cons.mpr ⟨trivial, List.forall_mem_singleton.mpr hmarks⟩
  have hfinite : ∀ x ∈ gauge.doubles, x.isFinite := by decide +kernel
  have hlegible : ∀ x ∈ gauge.doubles, x.isFinite → Legible x := by
    rw [hdoubles]
    simp only [List.forall_mem_cons]
    exact ⟨fun _ => rfl, fun _ => rfl, fun _ => rfl, fun _ => rfl, List.forall_mem_nil _⟩
  exact ⟨hkey, hdoubles, hdepth,
    decode_compact_toJson ⟨by decide, by decide⟩ hordered hfinite hlegible (by rw [hdepth]; decide)⟩

end Model

end GraphScript
