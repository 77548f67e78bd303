import GraphScript.Proofs.CallGraph.Order
import GraphScript.Proofs.Emit.Place
import GraphScript.Proofs.RuntimeInputs

/-!
# Proofs/Emit/Chunk — what a chunk is made of

A valid model whose declarations are stored under their own identifiers can be emitted
(`exists_emit`), and then every function is emitted once (`perm_emitted`), the internal ones in the
order of calls (`pairwise_internals`).  In the text each can be read at its place, further down by
as many lines as the first line breaks into (`reads_of_mem_places`).  For a function to stand in the
text it is enough that the functions are stored so (`exists_stands_function`).
-/

namespace GraphScript.Emit.Script

open Code (Stands)

/-! ## What is emitted -/

/-- A chunk was emitted from an order of calls and from collected inputs. -/
theorem emit_cases {m : Model} {o : Options} {e : Emission} (h : emit m o = .ok e) :
    ∃ order inputs, m.callOrder = .ok order ∧ RuntimeInputs.ofModel m .interpreted = .ok inputs ∧
      e = ⟨Code.text o.indentWidth (lines m o order), inputs, Code.debugMap (lines m o order)⟩ := by
  unfold emit Emission.inputs at h
  cases hin : RuntimeInputs.ofModel m .interpreted with
  | error error =>
    rw [hin] at h
    cases h
  | ok inputs =>
    rw [hin] at h
    cases horder : m.callOrder with
    | error id =>
      rw [horder] at h
      cases h
    | ok order =>
      rw [horder] at h
      exact ⟨order, inputs, rfl, rfl, (Except.ok.inj h).symm⟩

/-- Its text and its debug map come from the same lines. -/
theorem emit_ok {m : Model} {o : Options} {e : Emission} (h : emit m o = .ok e) :
    ∃ order, m.callOrder = .ok order ∧ e.text = Code.text o.indentWidth (lines m o order) ∧
      e.debugMap = Code.debugMap (lines m o order) := by
  obtain ⟨order, _, horder, _, heq⟩ := emit_cases h
  exact ⟨order, horder, by rw [heq], by rw [heq]⟩

/-- Options do not decide whether a chunk is emitted. -/
theorem exists_emission {m : Model} {order : List FunctionId} {inputs : RuntimeInputs}
    (horder : m.callOrder = .ok order) (hin : RuntimeInputs.ofModel m .interpreted = .ok inputs)
    (o : Options) : ∃ e, emit m o = .ok e ∧ e.text = Code.text o.indentWidth (lines m o order) ∧
      e.debugMap = Code.debugMap (lines m o order) := by
  have hemit : ∃ e, emit m o = .ok e := by
    unfold emit Emission.inputs
    simp only [hin, horder]
    exact ⟨_, rfl⟩
  obtain ⟨e, he⟩ := hemit
  obtain ⟨order', horder', htext, hmap⟩ := emit_ok he
  obtain rfl : order' = order := Except.ok.inj (horder'.symm.trans horder)
  exact ⟨e, he, htext, hmap⟩

/-- An emitted chunk comes with the inputs of its model. -/
theorem ofModel_of_emit {m : Model} {o : Options} {e : Emission} (h : emit m o = .ok e) :
    RuntimeInputs.ofModel m .interpreted = .ok e.runtimeInputs := by
  obtain ⟨_, _, _, hin, rfl⟩ := emit_cases h
  exact hin

/-- A function whose identifier no other has is known under its own names. -/
theorem known_of_nodup {m : Model} (hnd : (m.functions.map (·.id)).Nodup) {f : FunctionDef}
    (hf : f ∈ m.functions) : Known (Names.ofModel m) f := by
  obtain ⟨own, hown, heq, _⟩ := Names.function?_id hnd hf
  exact ⟨own, hown, by rw [heq, Names.length_locals_ofFunction]⟩

theorem known_of_mem {m : Model} (hk : m.OwnKeys) {f : FunctionDef} (hf : f ∈ m.functions) :
    Known (Names.ofModel m) f := known_of_nodup hk.function_ids_nodup hf

/-- Functions that are called are functions of the model. -/
theorem mem_functions_of_mem_internals {m : Model} {order : List FunctionId} {f : FunctionDef}
    (hf : f ∈ internals m order) : f ∈ m.functions := by
  obtain ⟨id, _, hid⟩ := List.mem_filterMap.mp (List.mem_of_mem_filter hf)
  exact Model.mem_functions hid

theorem known_of_mem_internals {m : Model} (hk : m.OwnKeys) {order : List FunctionId} :
    ∀ f ∈ internals m order, Known (Names.ofModel m) f := fun _ hf =>
  known_of_mem hk (mem_functions_of_mem_internals hf)

theorem mem_functions_of_mem_entries {m : Model} {f : FunctionDef} (hf : f ∈ entries m) :
    f ∈ m.functions := List.mem_of_mem_filter hf

theorem known_of_mem_entries {m : Model} (hk : m.OwnKeys) :
    ∀ f ∈ entries m, Known (Names.ofModel m) f := fun _ hf =>
  known_of_mem hk (mem_functions_of_mem_entries hf)

/-- **Every function is emitted once.** -/
theorem perm_emitted {m : Model} (hk : m.OwnKeys) {order : List FunctionId}
    (h : m.callOrder = .ok order) : (internals m order ++ entries m).Perm m.functions := by
  have hfound : (m.functions.map (·.id)).filterMap m.functionAt? = m.functions := by
    rw [List.filterMap_map]
    exact (List.filterMap_congr fun f hf => hk.functionAt?_id hf).trans List.filterMap_some
  have hinternals : (internals m order).Perm (m.functions.filter (·.kind = .internal)) := by
    have hperm := ((Model.callOrder_ok h).1.filterMap m.functionAt?).filter (·.kind = .internal)
    rwa [hfound] at hperm
  have hentries : entries m = m.functions.filter fun f => !decide (f.kind = .internal) := by
    refine List.filter_congr fun f _ => ?_
    cases f.kind <;> rfl
  rw [hentries]
  exact (hinternals.append_right _).trans (List.filter_append_perm _ _)

/-- **A valid model can be emitted**, unless two of its variables share an identifier. -/
theorem exists_emit_iff {m : Model} (hv : m.Valid) (o : Options) :
    (∃ e, emit m o = .ok e) ↔ (m.members.map (·.id)).Nodup := by
  rw [← RuntimeInputs.exists_ofModel_iff hv.members .interpreted]
  obtain ⟨order, horder⟩ := hv.order
  unfold emit Emission.inputs
  simp only [horder]
  cases RuntimeInputs.ofModel m .interpreted with
  | error error =>
    constructor
    · rintro ⟨_, h⟩
      cases h
    · rintro ⟨_, h⟩
      cases h
  | ok inputs => exact ⟨fun _ => ⟨inputs, rfl⟩, fun _ => ⟨_, rfl⟩⟩

/-- **A valid model has a script**, if its variables are stored under their own identifiers. -/
theorem exists_emit {m : Model} (hk : m.OwnKeys) (hv : m.Valid) (o : Options) :
    ∃ e, emit m o = .ok e := (exists_emit_iff hv o).mpr hk.variable_ids_nodup

/-- Positions in a list without repetition ascend. -/
theorem pairwise_idxOf {order : List FunctionId} (h : order.Nodup) :
    order.Pairwise fun a b => order.idxOf a < order.idxOf b := by
  refine List.pairwise_iff_getElem.mpr fun i j hi hj hij => ?_
  rwa [h.idxOf_getElem i hi, h.idxOf_getElem j hj]

/-- The internal functions are in the order of calls. -/
theorem pairwise_internals {m : Model} (hk : m.OwnKeys) {order : List FunctionId}
    (h : m.callOrder = .ok order) :
    (internals m order).Pairwise fun f g => order.idxOf f.id < order.idxOf g.id := by
  have hnd : order.Nodup := (Model.callOrder_ok h).1.nodup_iff.mpr hk.function_ids_nodup
  refine List.Pairwise.filter _ (List.pairwise_filterMap.mpr ?_)
  refine (pairwise_idxOf hnd).imp fun hab f hf g hg => ?_
  rwa [(hk.functionAt?_eq_some.mp hf).2, (hk.functionAt?_eq_some.mp hg).2]

/-! ## The text of a chunk -/

/-- The number of lines on which the first line of a chunk is shown. -/
def bannerHeight (m : Model) : Nat := (Text.split '\n' (banner m).text).length

/-- The text of a chunk as lines: the pieces of the first line, then the lines below it. -/
def shownLines (m : Model) (o : Options) (order : List FunctionId) : List Line :=
  (Text.split '\n' (banner m).text).map (⟨0, ·, none⟩) ++ rest m o order

/-- Pieces of a banner are shown as they are. -/
theorem map_shown_pieces (width : Nat) (pieces : List String) :
    (pieces.map fun piece => (⟨0, piece, none⟩ : Line)).map (Line.shown width) = pieces := by
  rw [List.map_map]
  exact (List.map_congr_left fun _ _ => Line.shown_of_level width rfl).trans (List.map_id _)

/-- Splitting the text of a chunk gives its lines as they are shown, and an empty end. -/
theorem split_emitted (m : Model) (o : Options) (order : List FunctionId) :
    Text.split '\n' (Code.text o.indentWidth (lines m o order)) =
      (shownLines m o order).map (Line.shown o.indentWidth) ++ [""] := by
  have hbanner : (banner m).shown o.indentWidth = (banner m).text :=
    Line.shown_of_level _ rfl
  rw [Code.split_text_pieces, lines_eq, List.flatMap_cons, hbanner,
    Code.flatMap_split_shown o.indentWidth (oneLine_rest m o order), shownLines, List.map_append,
    map_shown_pieces]

/-- The rest of the text stands below the banner, however high that is. -/
theorem stands_rest (m : Model) (o : Options) (order : List FunctionId) :
    Stands (shownLines m o order) (bannerHeight m + 1) (rest m o order) :=
  ⟨_, [], (List.append_nil _).symm, by rw [List.length_map, bannerHeight]⟩

/-- At its place a function can be read in the text. -/
theorem reads_of_mem_places {m : Model} {o : Options} {order : List FunctionId}
    (hi : ∀ f ∈ internals m order, Known (Names.ofModel m) f)
    (he : ∀ f ∈ entries m, Known (Names.ofModel m) f) {p : Place}
    (hp : p ∈ places o.nodeComments m order (bannerHeight m + 4)) :
    ∃ own, (Names.ofModel m).function? p.function.id = some own ∧
      p.Reads ⟨m, Names.ofModel m, o.nodeComments, p.function.name, own⟩ o.indentWidth
        ((shownLines m o order).map (Line.shown o.indentWidth) ++ [""]) := by
  have hmem : p.function ∈ internals m order ++ entries m :=
    map_function_places o.nodeComments m order (bannerHeight m + 4) ▸ List.mem_map_of_mem hp
  obtain ⟨own, hown, hlen⟩ : Known (Names.ofModel m) p.function :=
    (List.mem_append.mp hmem).elim (hi _) (he _)
  have hstands := stands_of_mem_places hi he (stands_rest m o order) p hp
  exact ⟨own, hown, (Place.reads_of_stands hown hlen hstands).append [""]⟩

/-- **Each function stands in the text**, line by line as it is shown. -/
theorem exists_stands_function {m : Model} {o : Options} {e : Emission}
    (hkeys : (m.functionEntries.map (·.1)).Nodup)
    (hids : ∀ entry ∈ m.functionEntries, entry.2.id = entry.1) (h : emit m o = .ok e)
    {f : FunctionDef} (hf : f ∈ m.functions) : ∃ own n,
      (Names.ofModel m).function? f.id = some own ∧ Stands (Text.split '\n' e.text) n
        ((function m (Names.ofModel m) o f).map (Line.shown o.indentWidth)) := by
  obtain ⟨order, horder, htext, _⟩ := emit_ok h
  -- which functions are emitted does not depend on how the variables are stored
  have hk : ({ m with variableEntries := [] } : Model).OwnKeys :=
    ⟨List.nodup_nil, hkeys, List.forall_mem_nil _, hids⟩
  have hnd : (m.functions.map (·.id)).Nodup := hk.function_ids_nodup
  have hperm : (internals m order ++ entries m).Perm m.functions := perm_emitted hk horder
  have hi : ∀ g ∈ internals m order, Known (Names.ofModel m) g := fun g hg =>
    known_of_nodup hnd (mem_functions_of_mem_internals hg)
  have he : ∀ g ∈ entries m, Known (Names.ofModel m) g := fun g hg =>
    known_of_nodup hnd (mem_functions_of_mem_entries hg)
  have hmem := hperm.symm.subset hf
  rw [← map_function_places o.nodeComments m order (bannerHeight m + 4)] at hmem
  obtain ⟨p, hp, rfl⟩ := List.mem_map.mp hmem
  obtain ⟨own, hown, _⟩ := known_of_nodup hnd hf
  have hstands := stands_of_mem_places hi he (stands_rest m o order) p hp
  refine ⟨own, p.line, hown, ?_⟩
  rw [htext, split_emitted]
  exact (hstands.map (Line.shown o.indentWidth)).append [""]

end GraphScript.Emit.Script
