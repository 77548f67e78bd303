import GraphScript.Proofs.CallGraph.Search
import GraphScript.Proofs.Nesting
import Mathlib.Data.List.Perm.Basic

/-!
# Proofs/CallGraph/Order — the order of calls is a topological order

The second search goes against the edges, function by function in the order of the first.  It stops
at the first function that has a callee not met before (`check_cases`), and such a callee lies on a
cycle (`Finishing.reaches_of_unmet`).  `callOrder_topological` reads this on a model: there is an
order exactly if no chain of calls comes back to where it started.
-/

namespace GraphScript

namespace CallGraph

variable {g : CallGraph}

/-! ## The second search -/

/-- A function whose callees were all met before is met alone. -/
theorem explore_alone {fuel i : Nat} {d : List Nat} (hi : i ∉ d)
    (hmet : ∀ k, g.Edge k i → k ∈ i :: d) : g.explore (fuel + 2) d [i] = [i] := by
  have hfresh : (g.calleesAt i).filter (· ∉ i :: d) = [] :=
    List.filter_eq_nil_iff.mpr fun k hk hnew =>
      of_decide_eq_true hnew (hmet k (mem_calleesAt.mp hk))
  rw [explore, if_neg hi]
  simp only [hfresh, List.reverse_nil, List.nil_append, explore]

/-- Otherwise one of its other callees is met right after it. -/
theorem explore_more {fuel i k : Nat} {d : List Nat} (hi : i ∉ d) (hk : g.Edge k i)
    (hunmet : k ∉ i :: d) :
    ∃ j rest, g.explore (fuel + 2) d [i] = i :: j :: rest ∧ g.Edge j i ∧ j ∉ i :: d := by
  have hkm : k ∈ ((g.calleesAt i).filter (· ∉ i :: d)).reverse :=
    List.mem_reverse.mpr (List.mem_filter.mpr ⟨mem_calleesAt.mpr hk, decide_eq_true hunmet⟩)
  obtain ⟨j, rest, hj⟩ := List.exists_cons_of_ne_nil (List.ne_nil_of_mem hkm)
  have hjm : j ∈ ((g.calleesAt i).filter (· ∉ i :: d)).reverse := hj ▸ List.mem_cons_self
  obtain ⟨hedge, hnew⟩ := List.mem_filter.mp (List.mem_reverse.mp hjm)
  have hjd : j ∉ i :: d := of_decide_eq_true hnew
  have hex : g.explore (fuel + 2) d [i] = i :: g.explore (fuel + 1) (i :: d) (j :: rest) := by
    rw [explore, if_neg hi]
    simp only [hj, List.append_nil]
  rw [hex, explore, if_neg hjd]
  exact ⟨j, _, rfl, mem_calleesAt.mp hedge, hjd⟩

/-- Every callee stands before its callers in the list. -/
def CalleesFirst (g : CallGraph) (met order : List Nat) : Prop :=
  ∀ pre i post, order = pre ++ i :: post → ∀ k, g.Edge k i → k ∈ i :: (pre ++ met)

/-- **The second search accepts an order exactly if callees come first**, and stops at a callee that
was not met before its caller. -/
theorem check_cases : ∀ (order met : List Nat), order.Nodup → (∀ i ∈ order, i ∉ met) →
    (g.check met order = .ok () ∧ g.CalleesFirst met order) ∨
      ∃ pre i post j, order = pre ++ i :: post ∧ g.check met order = .error j ∧ g.Edge j i ∧
        j ∉ i :: (pre ++ met)
  | [], met, _, _ => Or.inl ⟨rfl, fun pre i post h => by simp at h⟩
  | i :: order, met, hnd, hnew => by
      obtain ⟨hi, hnd⟩ := List.nodup_cons.mp hnd
      have him : i ∉ met := hnew i List.mem_cons_self
      by_cases hall : ∀ k, g.Edge k i → k ∈ i :: met
      · have hcheck : g.check met (i :: order) = g.check (i :: met) order := by
          rw [check, stepBound, explore_alone him hall]
          rfl
        have hnew' : ∀ j ∈ order, j ∉ i :: met := fun j hj hm =>
          (List.mem_cons.mp hm).elim (fun e => hi (e ▸ hj)) (hnew j (List.mem_cons_of_mem _ hj))
        rw [hcheck]
        refine (check_cases order (i :: met) hnd hnew').imp ?_ ?_
        · rintro ⟨hok, hfirst⟩
          refine ⟨hok, fun pre j post h k hk => ?_⟩
          cases pre with
          | nil => exact (List.cons.inj h).1 ▸ hall k ((List.cons.inj h).1 ▸ hk)
          | cons p pre =>
            obtain ⟨rfl, htail⟩ := List.cons.inj h
            have hmem := hfirst pre j post htail k hk
            simp only [List.mem_cons, List.mem_append, List.cons_append] at hmem ⊢
            tauto
        · rintro ⟨pre, j, post, k, rfl, herr, hedge, hk⟩
          refine ⟨i :: pre, j, post, k, rfl, herr, hedge, fun hm => hk ?_⟩
          simp only [List.mem_cons, List.mem_append, List.cons_append] at hm ⊢
          tauto
      · obtain ⟨k, hk, hunmet⟩ : ∃ k, g.Edge k i ∧ k ∉ i :: met := by simpa using hall
        obtain ⟨j, rest, hex, hj, hjm⟩ :
            ∃ j rest, g.explore g.stepBound met [i] = i :: j :: rest ∧ g.Edge j i ∧ j ∉ i :: met :=
          explore_more him hk hunmet
        refine Or.inr ⟨[], i, order, j, rfl, ?_, hj, hjm⟩
        rw [check, hex]

/-- **A callee that is listed after its caller lies on a cycle.** -/
theorem Finishing.reaches_of_unmet (hb : g.Bounded) {order pre post : List Nat} {i j : Nat}
    (h : g.Finishing order) (hsplit : order = pre ++ i :: post) (he : g.Edge j i)
    (hj : j ∉ i :: pre) : g.Reaches j j := by
  have hjm : j ∈ pre ++ i :: post := hsplit ▸ (h.mem_iff j).mpr (hb j i he).1
  have hjp : j ∈ post := by
    simp only [List.mem_append, List.mem_cons] at hjm hj
    tauto
  obtain ⟨mid, rest, rfl⟩ := List.append_of_mem hjp
  have hnd : (pre ++ i :: (mid ++ j :: rest)).Nodup := hsplit ▸ h.nodup
  have hi : i ∉ rest := fun hm => by
    simp only [List.nodup_append, List.nodup_cons, List.mem_append, List.mem_cons] at hnd
    tauto
  have hclosed := h.closed (pre ++ i :: mid) j rest (by rw [hsplit]; simp) i he
  exact (hclosed.resolve_left hi).head he

/-- Where the first search ends, the second decides about its order. -/
theorem order_of_search {positions : List Nat} (h : g.search = .ok positions) :
    g.order = (g.check [] positions).map fun _ => positions := by
  rw [order, h]
  cases hc : g.check [] positions with
  | ok _ => simp only [bind, Except.bind, hc, Except.map, pure, Except.pure]
  | error j => simp only [bind, Except.bind, hc, Except.map]

/-- **There is an order, or a position on a cycle.** -/
theorem order_cases (hb : g.Bounded) :
    (∃ order, g.order = .ok order ∧ order.Perm (List.range g.functions.length) ∧
      ∀ pre j post, order = pre ++ j :: post → ∀ i, g.Edge i j → i ∈ pre) ∨
      ∃ j, g.order = .error j ∧ g.Reaches j j := by
  rcases finishing_of_search hb with ⟨i, hi, hl⟩ | ⟨order, hs, hf⟩
  · exact Or.inr ⟨i, by rw [order, hi]; rfl, .single hl⟩
  · rw [order_of_search hs]
    rcases check_cases (g := g) order [] hf.nodup fun i _ => List.not_mem_nil with
      ⟨hok, hfirst⟩ | ⟨pre, i, post, j, hsplit, herr, he, hj⟩
    · refine Or.inl ⟨order, by rw [hok]; rfl, ?_, fun pre j post h i hi => ?_⟩
      · refine (List.perm_ext_iff_of_nodup hf.nodup List.nodup_range).mpr fun i => ?_
        rw [hf.mem_iff, List.mem_range]
      · have hmem := hfirst pre j post h i hi
        rw [List.append_nil] at hmem
        exact (List.mem_cons.mp hmem).resolve_left fun e => hf.loopless j (e ▸ hi)
    · rw [List.append_nil] at hj
      exact Or.inr ⟨j, by rw [herr]; rfl, hf.reaches_of_unmet hb hsplit he hj⟩

/-! ## The graph of a model -/

/-- The position of a function is where it stands in the list. -/
theorem getElem?_of_position? {functions : List FunctionId} {id : FunctionId} {i : Nat}
    (h : position? functions id = some i) : functions[i]? = some id := by
  obtain ⟨⟨a, k⟩, hfind, rfl⟩ := Option.map_eq_some_iff.mp h
  have ha : a = id := by simpa using List.find?_some hfind
  have hmem := List.mem_reverse.mp (List.mem_of_find?_eq_some hfind)
  exact ha ▸ List.mem_zipIdx_iff_getElem?.mp hmem

/-- Every function that is listed has a position. -/
theorem exists_position? {functions : List FunctionId} {id : FunctionId} (h : id ∈ functions) :
    ∃ i, position? functions id = some i := by
  obtain ⟨i, hi, hget⟩ := List.getElem_of_mem h
  have hmem : (id, i) ∈ functions.zipIdx.reverse := by
    rw [List.mem_reverse, List.mem_zipIdx_iff_getElem?, List.getElem?_eq_getElem hi, hget]
  have hsome : (functions.zipIdx.reverse.find? fun e => e.1 = id).isSome := by
    rw [List.find?_isSome]
    exact ⟨(id, i), hmem, by simp⟩
  obtain ⟨e, he⟩ := Option.isSome_iff_exists.mp hsome
  exact ⟨e.2, by rw [position?, he]; rfl⟩

/-- An edge is added unless it is there. -/
theorem mem_addEdge {edges : List (Nat × Nat)} {e e' : Nat × Nat} :
    e ∈ addEdge edges e' ↔ e ∈ edges ∨ e = e' := by
  by_cases h : e' ∈ edges
  · simp only [addEdge, List.contains_iff_mem.mpr h, if_true]
    exact ⟨Or.inl, fun h' => h'.elim id fun heq => heq ▸ h⟩
  · simp [addEdge, h, or_comm]

/-- Adds the edge of a callee and its caller, if both are functions. -/
def addCall (functions : List FunctionId) (edges : List (Nat × Nat))
    (c : FunctionId × FunctionId) : List (Nat × Nat) :=
  match position? functions c.1, position? functions c.2 with
  | some i, some j => addEdge edges (i, j)
  | _, _ => edges

/-- A call adds an edge if both its ends are listed. -/
theorem mem_addCall {functions : List FunctionId} {edges : List (Nat × Nat)}
    {c : FunctionId × FunctionId} {e : Nat × Nat} :
    e ∈ addCall functions edges c ↔
      e ∈ edges ∨ position? functions c.1 = some e.1 ∧ position? functions c.2 = some e.2 := by
  cases hi : position? functions c.1 <;> cases hj : position? functions c.2 <;>
    simp [addCall, hi, hj, mem_addEdge, Prod.ext_iff, eq_comm]

/-- A list of calls adds the edges of its members. -/
theorem mem_foldl_addCall {functions : List FunctionId} {e : Nat × Nat} :
    ∀ {calls : List (FunctionId × FunctionId)} {edges : List (Nat × Nat)},
      e ∈ calls.foldl (addCall functions) edges ↔
        e ∈ edges ∨ ∃ c ∈ calls, position? functions c.1 = some e.1 ∧
          position? functions c.2 = some e.2
  | [], edges => by simp
  | c :: calls, edges => by
      rw [List.foldl_cons, mem_foldl_addCall, mem_addCall, List.exists_mem_cons_iff, or_assoc]

/-- The callees of a function are those that some statement calls, at whatever depth. -/
theorem mem_callees {f : FunctionDef} {id : FunctionId} :
    id ∈ callees f ↔ ∃ s : Statement, s.Within f.body ∧
      ∃ args results, s.kind = .call id args results := by
  simp only [callees, List.mem_filterMap, Statement.mem_walkAll]
  refine exists_congr fun s => and_congr_right fun _ => ?_
  cases s.kind <;> simp

end CallGraph

namespace Model

/-- Somewhere in the body of `caller`, at whatever depth, stands a call of `callee`, a function of
the model. -/
def Calls (m : Model) (callee caller : FunctionId) : Prop :=
  callee ∈ m.functions.map (·.id) ∧ ∃ f ∈ m.functions, f.id = caller ∧
    ∃ s : Statement, s.Within f.body ∧ ∃ args results, s.kind = .call callee args results

/-- The edges between positions are the calls between the functions there. -/
theorem edge_ofModel {m : Model} {i j : Nat} :
    (CallGraph.ofModel m).Edge i j ↔ ∃ callee caller, m.Calls callee caller ∧
      CallGraph.position? (m.functions.map (·.id)) callee = some i ∧
      CallGraph.position? (m.functions.map (·.id)) caller = some j := by
  have hedges : (CallGraph.ofModel m).edges =
      (m.functions.flatMap fun f => (CallGraph.callees f).map fun callee => (callee, f.id)).foldl
        (CallGraph.addCall (m.functions.map (·.id))) [] := rfl
  rw [CallGraph.Edge, hedges, CallGraph.mem_foldl_addCall]
  constructor
  · rintro (h | ⟨c, hc, hi, hj⟩)
    · exact absurd h List.not_mem_nil
    · obtain ⟨f, hf, hcf⟩ := List.mem_flatMap.mp hc
      obtain ⟨callee, hcallee, rfl⟩ := List.mem_map.mp hcf
      have hmem := List.mem_of_getElem? (CallGraph.getElem?_of_position? hi)
      exact ⟨callee, f.id, ⟨hmem, f, hf, rfl, CallGraph.mem_callees.mp hcallee⟩, hi, hj⟩
  · rintro ⟨callee, caller, ⟨_, f, hf, rfl, hcall⟩, hi, hj⟩
    refine Or.inr ⟨(callee, f.id), List.mem_flatMap.mpr ⟨f, hf, ?_⟩, hi, hj⟩
    exact List.mem_map.mpr ⟨callee, CallGraph.mem_callees.mpr hcall, rfl⟩

/-- Edges join positions of functions. -/
theorem bounded_ofModel (m : Model) : (CallGraph.ofModel m).Bounded := fun i j he => by
  obtain ⟨callee, caller, _, hi, hj⟩ := edge_ofModel.mp he
  exact ⟨(List.getElem?_eq_some_iff.mp (CallGraph.getElem?_of_position? hi)).1,
    (List.getElem?_eq_some_iff.mp (CallGraph.getElem?_of_position? hj)).1⟩

/-- The identifier of the function at a position. -/
def idAt (m : Model) (i : Nat) : FunctionId := (m.functions.map (·.id)).getD i default

/-- The function at the position of a function is that function. -/
theorem idAt_of_position? {m : Model} {id : FunctionId} {i : Nat}
    (h : CallGraph.position? (m.functions.map (·.id)) id = some i) : m.idAt i = id := by
  rw [idAt, List.getD_eq_getElem?_getD, CallGraph.getElem?_of_position? h]
  rfl

theorem map_idAt_range (m : Model) :
    (List.range m.functions.length).map m.idAt = m.functions.map (·.id) := by
  refine List.ext_getElem (by simp) fun i hi hi' => ?_
  simp [idAt, List.getD_eq_getElem?_getD, List.getElem?_eq_getElem (by simpa using hi)]

/-- An edge is a call between the functions at its ends. -/
theorem calls_of_edge {m : Model} {i j : Nat} (h : (CallGraph.ofModel m).Edge i j) :
    m.Calls (m.idAt i) (m.idAt j) := by
  obtain ⟨callee, caller, hcalls, hi, hj⟩ := edge_ofModel.mp h
  rwa [idAt_of_position? hi, idAt_of_position? hj]

/-- The order of calls is the order of positions, read as functions. -/
theorem callOrder_eq (m : Model) :
    m.callOrder = match (CallGraph.ofModel m).order with
      | .ok positions => .ok (positions.map m.idAt)
      | .error i => .error (m.idAt i) := rfl

/-- In a list without repetitions, what stands before has the smaller index. -/
theorem idxOf_lt_idxOf {order pre post : List FunctionId} {a b : FunctionId} (hnd : order.Nodup)
    (h : order = pre ++ b :: post) (ha : a ∈ pre) : order.idxOf a < order.idxOf b := by
  subst h
  have hb : b ∉ pre := fun hm => List.disjoint_of_nodup_append hnd hm List.mem_cons_self
  rw [List.idxOf_append_of_mem ha, List.idxOf_append_of_notMem hb, List.idxOf_cons_self,
    Nat.add_zero]
  exact List.idxOf_lt_length_iff.mpr ha

/-- **An order lists every function once**, callees before their callers. -/
theorem callOrder_ok {m : Model} {order : List FunctionId} (h : m.callOrder = .ok order) :
    order.Perm (m.functions.map (·.id)) ∧ ((m.functions.map (·.id)).Nodup →
      ∀ callee caller, m.Calls callee caller → order.idxOf callee < order.idxOf caller) := by
  rcases CallGraph.order_cases (bounded_ofModel m) with
    ⟨positions, hok, hperm, hbefore⟩ | ⟨j, herr, _⟩
  · rw [callOrder_eq, hok] at h
    obtain rfl : positions.map m.idAt = order := by simpa using h
    have hids : (positions.map m.idAt).Perm (m.functions.map (·.id)) := by
      rw [← map_idAt_range]
      exact (hperm.trans (by simp [CallGraph.ofModel])).map _
    refine ⟨hids, fun hnd callee caller hcalls => ?_⟩
    obtain ⟨i, hi⟩ := CallGraph.exists_position? hcalls.1
    obtain ⟨f, hf, hfid, _⟩ := hcalls.2
    obtain ⟨j, hj⟩ := CallGraph.exists_position? (List.mem_map.mpr ⟨f, hf, hfid⟩)
    have hedge : (CallGraph.ofModel m).Edge i j := edge_ofModel.mpr ⟨callee, caller, hcalls, hi, hj⟩
    have hjm : j ∈ positions :=
      hperm.mem_iff.mpr (List.mem_range.mpr (bounded_ofModel m i j hedge).2)
    obtain ⟨pre, post, hsplit⟩ := List.append_of_mem hjm
    have hids_split : positions.map m.idAt = pre.map m.idAt ++ caller :: post.map m.idAt := by
      rw [hsplit, List.map_append, List.map_cons, idAt_of_position? hj]
    exact idxOf_lt_idxOf (hids.nodup_iff.mpr hnd) hids_split
      (List.mem_map.mpr ⟨i, hbefore pre j post hsplit i hedge, idAt_of_position? hi⟩)
  · rw [callOrder_eq, herr] at h
    cases h

/-- **Where there is no order, a chain of calls comes back to the reported function.** -/
theorem callOrder_error {m : Model} {id : FunctionId} (h : m.callOrder = .error id) :
    Relation.TransGen m.Calls id id := by
  rcases CallGraph.order_cases (bounded_ofModel m) with ⟨positions, hok, _⟩ | ⟨j, herr, hcycle⟩
  · rw [callOrder_eq, hok] at h
    cases h
  · rw [callOrder_eq, herr] at h
    obtain rfl : m.idAt j = id := by simpa using h
    exact hcycle.lift m.idAt fun _ _ => calls_of_edge

/-- Along a chain of calls positions ascend. -/
theorem idxOf_lt_of_transGen {m : Model} {order : List FunctionId} (h : m.callOrder = .ok order)
    (hnd : (m.functions.map (·.id)).Nodup) {a b : FunctionId}
    (hab : Relation.TransGen m.Calls a b) : order.idxOf a < order.idxOf b := by
  induction hab with
  | single hab => exact (callOrder_ok h).2 hnd _ _ hab
  | tail _ hbc ih => exact Nat.lt_trans ih ((callOrder_ok h).2 hnd _ _ hbc)

/-- There is an order of calls exactly if no chain of calls comes back to where it started. -/
theorem exists_callOrder_iff {m : Model} (hnd : (m.functions.map (·.id)).Nodup) :
    (∃ order, m.callOrder = .ok order) ↔ ∀ id, ¬ Relation.TransGen m.Calls id id := by
  constructor
  · rintro ⟨order, h⟩ id hcycle
    exact Nat.lt_irrefl _ (idxOf_lt_of_transGen h hnd hcycle)
  · intro hacyclic
    cases h : m.callOrder with
    | ok order => exact ⟨order, rfl⟩
    | error id => exact absurd (callOrder_error h) (hacyclic id)

/-- **The order of calls is a topological order.**  There is one exactly if no chain of calls comes
back to where it started; it lists every function once and every callee before its callers. -/
theorem callOrder_topological (m : Model) (hnd : (m.functions.map (·.id)).Nodup) :
    ((∃ order, m.callOrder = .ok order) ↔ ∀ id, ¬ Relation.TransGen m.Calls id id) ∧
      ∀ order, m.callOrder = .ok order → order.Perm (m.functions.map (·.id)) ∧
        ∀ callee caller, m.Calls callee caller → order.idxOf callee < order.idxOf caller :=
  ⟨exists_callOrder_iff hnd, fun _ h => ⟨(callOrder_ok h).1, (callOrder_ok h).2 hnd⟩⟩

/-- A door: its entry opens it unless it is open, and asks a helper, declared after it, for the name
of whoever came. -/
def door : Model where
  name := "Door"
  variableEntries := [(.ofNat 7, ⟨.ofNat 7, "opened", .boolean, .value (.boolean false), .hidden⟩)]
  functionEntries := [
    (⟨0⟩, {
      id := ⟨0⟩, name := "Open", kind := .entry, params := [⟨"who", .string⟩], returns := []
      locals := [⟨"title", .string⟩], origin := ⟨10⟩
      body := [
        .mk ⟨11⟩ none (.cond (.member (.ofNat 7)) [.mk ⟨12⟩ none (.ret [])] [
          .mk ⟨13⟩ (some ⟨1⟩) (.setMember (.ofNat 7) (.literal (.boolean true))),
          .mk ⟨14⟩ none (.call ⟨1⟩ [.param 0] [0])]),
        .mk ⟨15⟩ none (.script "local n = 1\nprint(n)"),
        .mk ⟨16⟩ none (.fire "Opened" [.localVar 0] [])] }),
    (⟨1⟩, {
      id := ⟨1⟩, name := "Title", kind := .internal, params := [⟨"who", .string⟩]
      returns := [⟨"title", .string⟩], origin := ⟨20⟩
      body := [.mk ⟨21⟩ none (.ret [.binary .concat (.literal (.string "Dr. ")) (.param 0)])] })]
  outEvents := [⟨"Opened", [⟨"title", .string⟩], [], ⟨30⟩⟩]

/-- The door calls its helper, which calls nobody. -/
theorem door_callOrder_topological : (door.functions.map (·.id)).Nodup ∧
    ((∃ order, door.callOrder = .ok order) ↔ ∀ id, ¬ Relation.TransGen door.Calls id id) ∧
      ∀ order, door.callOrder = .ok order → order.Perm (door.functions.map (·.id)) ∧
        ∀ callee caller, door.Calls callee caller → order.idxOf callee < order.idxOf caller :=
  ⟨by decide, callOrder_topological door (by decide)⟩

example : door.callOrder = .ok [⟨1⟩, ⟨0⟩] := by decide

end Model

end GraphScript
