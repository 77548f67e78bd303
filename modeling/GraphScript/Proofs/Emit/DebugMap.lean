import GraphScript.Proofs.Emit.Chunk

/-!
# Proofs/Emit/DebugMap — the debug map of a chunk

The debug map of a chunk records each function at the line of its header and each statement, at
whatever depth, at the first line that it writes, and nothing else (`debugMap_exact`).
-/

namespace GraphScript.Emit.Script

/-- **The debug map is exact.**  It records the headers of the functions, the internal ones in the
order of calls and then the entries in the order of their declaration, each followed by the
statements of its body at whatever depth in the order of the walk, and no other line.  The recorded
lines ascend, and in the text a header can be read at its line and what a statement writes at its
own, right below its comment where there is one. -/
theorem debugMap_exact (m : Model) (o : Options) (e : Emission) (hk : m.OwnKeys)
    (hn : Text.OneLine m.name) (h : emit m o = .ok e) :
    ∃ order, m.callOrder = .ok order ∧
      (places o.nodeComments m order 5).map (·.function) =
        (order.filterMap fun id => m.functions.find? (·.id = id)).filter (·.kind = .internal) ++
          m.functions.filter (·.kind = .entry) ∧
      ((places o.nodeComments m order 5).map (·.function)).Perm m.functions ∧
      e.debugMap.entries =
        (places o.nodeComments m order 5).flatMap (Place.records o.nodeComments) ∧
      (e.debugMap.entries.map (·.1)).Pairwise (· < ·) ∧
      ∀ p ∈ places o.nodeComments m order 5, ∃ own,
        (Names.ofModel m).function? p.function.id = some own ∧
          p.Reads ⟨m, Names.ofModel m, o.nodeComments, p.function.name, own⟩ o.indentWidth
            (Text.split '\n' e.text) := by
  obtain ⟨order, horder, htext, hmap⟩ := emit_ok h
  have hi : ∀ f ∈ internals m order, Known (Names.ofModel m) f := known_of_mem_internals hk
  have he : ∀ f ∈ entries m, Known (Names.ofModel m) f := known_of_mem_entries hk
  have hbanner : Text.OneLine (banner m).text :=
    Text.oneLine_append.mpr ⟨Text.oneLine_append.mpr ⟨by decide, hn⟩, by decide⟩
  have hheight : bannerHeight m = 1 := by
    rw [bannerHeight, Text.split_of_oneLine hbanner]
    rfl
  refine ⟨order, horder, ?_, ?_, ?_, ?_, fun p hp => ?_⟩
  · rw [map_function_places, internals, entries, funext hk.functionAt?_eq_find?]
  · rw [map_function_places]
    exact perm_emitted hk horder
  · rw [hmap, Code.debugMap, lines_eq]
    exact symbolsFrom_rest hi he 2
  · rw [hmap]
    exact Code.pairwise_symbolsFrom 1 _
  · rw [htext, split_emitted]
    refine reads_of_mem_places hi he ?_
    rwa [hheight]

theorem door_debugMap_exact : Model.door.OwnKeys ∧ Text.OneLine Model.door.name ∧
    ∃ e, emit Model.door { nodeComments := true } = .ok e ∧
      ∃ order, Model.door.callOrder = .ok order ∧
        ((places true Model.door order 5).map (·.function)).Perm Model.door.functions ∧
        e.debugMap.entries = (places true Model.door order 5).flatMap (Place.records true) ∧
        (e.debugMap.entries.map (·.1)).Pairwise (· < ·) := by
  refine ⟨by decide, by decide, _, rfl, ?_⟩
  obtain ⟨order, horder, _, hperm, hentries, hascend, _⟩ :=
    debugMap_exact Model.door { nodeComments := true } _ (by decide) (by decide) rfl
  exact ⟨order, horder, hperm, hentries, hascend⟩

example : (places true Model.door [⟨1⟩, ⟨0⟩] 5).map (fun p => (p.line, (p.sites true).map (·.line)))
    = [(5, [7]), (17, [20, 22, 25, 27, 30, 33])] := by decide

end GraphScript.Emit.Script
