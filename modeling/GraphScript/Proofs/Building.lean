import GraphScript.Proofs.RuntimeInputs

/-!
# Proofs/Building — models made by declarations

A `Declaration` is one operation on a model; one that is refused leaves the model as it was
(`Model.after`).  In a model that was built (`Model.Built`) the functions are numbered from zero, so
the next identifier is the number of functions (`Built.nextFunctionId?_eq_some`) and a declaration
that clashes with nothing only adds at the end, or replaces a body (`Declaration.effect`).  Each
declaration keeps this, and so does every list of them (`Built.build`).
-/

namespace GraphScript

/-- What stands under a key is replaced there. -/
theorem Entries.put_of_get? {κ α : Type} [DecidableEq κ] {k : κ} {a : α} (g : α → α) :
    ∀ {es : List (κ × α)}, (es.map (·.1)).Nodup → get? es k = some a →
      put es k (g a) = es.map fun e => if e.1 = k then (e.1, g e.2) else e
  | [], _, h => absurd h (Option.some_ne_none a).symm
  | (k', b) :: es, hnd, h => by
      obtain ⟨hhead, htail⟩ := List.nodup_cons.mp hnd
      by_cases hk : k' = k
      · subst hk
        obtain rfl : b = a := by simpa [get?] using h
        have hrest : es.map (fun e => if e.1 = k' then (e.1, g e.2) else e) = es := by
          conv_rhs => rw [← List.map_id es]
          refine List.map_congr_left fun e he => if_neg fun hek => hhead ?_
          exact List.mem_map.mpr ⟨e, he, hek⟩
        rw [put, if_pos rfl, List.map_cons, if_pos rfl, hrest]
      · have hget : get? es k = some a := by simpa [get?, hk] using h
        rw [put, if_neg hk, List.map_cons, if_neg hk, put_of_get? g htail hget]

/-- One operation of those that build a model. -/
inductive Declaration where
  | member (d : VariableDef)
  | valueMember (id : VariableId) (name : String) (d : Datum)
  | function (name : String) (kind : FunctionKind) (params returns locals : List Param)
      (body : List Statement) (origin : NodeId)
  /-- Another body for a function. -/
  | setBody (id : FunctionId) (body : List Statement)
  | outEvent (d : OutEventDef)

namespace Model

/-- The model that a declaration makes. -/
def declare (m : Model) : Declaration → Except BuildError Model
  | .member d => (m.addVariable d).map (·.2)
  | .valueMember id name d => (m.addValueVariable id name d).map (·.2)
  | .function name kind params returns locals body origin =>
      (m.addFunction name kind params returns locals body origin).map (·.2)
  | .setBody id body => m.setFunctionBody id body
  | .outEvent d => m.addOutEvent d

/-- The model after a declaration, whether it was refused or not. -/
def after (m : Model) (d : Declaration) : Model := (m.declare d).toOption.getD m

/-- The model after a list of declarations. -/
def build (m : Model) (ds : List Declaration) : Model := ds.foldl after m

end Model

namespace Declaration

variable {m : Model}

/-- The declaration names something that the model has already, or a function it does not have. -/
def Clashes (m : Model) : Declaration → Prop
  | .member d => d.id ∈ m.members.map (·.id)
  | .valueMember id _ _ => id ∈ m.members.map (·.id)
  | .function name .. => name ∈ m.functions.map (·.name)
  | .setBody id _ => id ∉ m.functions.map (·.id)
  | .outEvent d => d.name ∈ m.outEvents.map (·.name)

/-- How a declaration is refused. -/
def refusal : Declaration → Model.BuildError
  | .member d => .duplicateVariable d.id
  | .valueMember id _ _ => .duplicateVariable id
  | .function name .. => .duplicateFunction name
  | .setBody id _ => .functionNotFound id
  | .outEvent d => .duplicateOutEvent d.name

/-- The body that a declaration leaves a function which had the body `b`. -/
def bodyFor (id : FunctionId) (b : List Statement) : Declaration → List Statement
  | .setBody id' b' => if id' = id then b' else b
  | _ => b

/-- A function with the body that declarations leave it. -/
def rebodied (ds : List Declaration) (e : FunctionId × FunctionDef) : FunctionId × FunctionDef :=
  (e.1, { e.2 with body := ds.foldl (bodyFor e.1) e.2.body })

/-- What a declaration that clashes with nothing makes of a model. -/
def effect (m : Model) : Declaration → Model
  | .member d => { m with variableEntries := m.variableEntries ++ [(d.id, d)] }
  | .valueMember id name d =>
      { m with variableEntries := m.variableEntries ++
          [(id, { id, name, dataType := d.dataType, initializer := .value d })] }
  | .function name kind params returns locals body origin =>
      let id : FunctionId := ⟨UInt32.ofNat m.functionEntries.length⟩
      { m with functionEntries := m.functionEntries ++
          [(id, { id, name, kind, params, returns, locals, body, origin })] }
  | .setBody id body =>
      { m with functionEntries := m.functionEntries.map (rebodied [.setBody id body]) }
  | .outEvent d => { m with outEvents := m.outEvents ++ [d] }

/-- Whether a function is declared. -/
def isFunction : Declaration → Bool
  | .function .. => true
  | _ => false

/-- A change of one body is made to the entry of its function only. -/
theorem rebodied_singleton_setBody (id : FunctionId) (body : List Statement) :
    rebodied [.setBody id body] =
      fun e => if e.1 = id then (e.1, { e.2 with body }) else e := by
  funext e
  by_cases h : e.1 = id
  · simp [rebodied, bodyFor, h]
  · simp [rebodied, bodyFor, h, Ne.symm h]

end Declaration

namespace Model

open Declaration

/-- What holds of every model that was built: declarations stand under their own identifiers,
functions are numbered from zero, and no name is declared twice. -/
structure Built (m : Model) : Prop where
  ownKeys : m.OwnKeys
  numbered : m.functionEntries.map (·.1.val.toNat) = List.range m.functionEntries.length
  function_names_nodup : (m.functions.map (·.name)).Nodup
  outEvent_names_nodup : (m.outEvents.map (·.name)).Nodup

/-- Everything of `m` stands in `m'` where it stood, each function with the body that the
declarations between leave it. -/
structure Carries (ds : List Declaration) (m m' : Model) : Prop where
  name : m'.name = m.name
  characteristics : m'.characteristics = m.characteristics
  variableEntries : m.variableEntries <+: m'.variableEntries
  functionEntries : m.functionEntries.map (rebodied ds) <+: m'.functionEntries
  outEvents : m.outEvents <+: m'.outEvents

/-- How many functions are declared with success in a list of declarations. -/
def functionsDeclared : Model → List Declaration → Nat
  | _, [] => 0
  | m, d :: ds =>
      (if d.isFunction && (m.declare d).isOk then 1 else 0) + functionsDeclared (m.after d) ds

variable {m m' m'' : Model} {d : Declaration} {ds : List Declaration}

/-! ## Numbers of functions -/

/-- The greatest of the numbers that follow the keys, counted on from zero after the last. -/
def wrappedNext (m : Model) : UInt32 := m.functionEntries.foldl (fun n e => max n (e.1.val + 1)) 0

/-- A number follows every key unless one of them is the last. -/
theorem mapM_next? (es : List (FunctionId × FunctionDef)) : (es.mapM fun e => e.1.next?) =
    if .last ∈ es.map (·.1) then none else some (es.map (·.1.val + 1)) := by
  induction es with
  | nil => rfl
  | cons e es ih =>
    rw [List.mapM_cons, ih, FunctionId.next?]
    by_cases he : e.1 = .last
    · have hmem : .last ∈ (e :: es).map (·.1) := List.mem_map.mpr ⟨e, List.mem_cons_self, he⟩
      rw [if_pos he, if_pos hmem]
      rfl
    · by_cases hes : .last ∈ es.map (·.1)
      · have hmem : .last ∈ (e :: es).map (·.1) := List.mem_cons_of_mem _ hes
        rw [if_neg he, if_pos hes, if_pos hmem]
        rfl
      · have hmem : .last ∉ (e :: es).map (·.1) := List.not_mem_cons_of_ne_of_not_mem (Ne.symm he) hes
        rw [if_neg he, if_neg hes, if_neg hmem]
        rfl

/-- **There is a next number unless the last is taken**, and it is the one that is found by counting
on from zero. -/
theorem nextFunctionId?_eq (m : Model) : m.nextFunctionId? =
    if .last ∈ m.functionEntries.map (·.1) then none else some ⟨m.wrappedNext⟩ := by
  rw [nextFunctionId?, mapM_next?]
  split
  · rfl
  · exact congrArg (fun n => some (FunctionId.mk n)) List.foldl_map

/-- The greatest of the keys from zero on, and one more. -/
theorem toNat_foldl_max {es : List (FunctionId × FunctionDef)}
    (h : es.map (·.1.val.toNat) = List.range es.length) (hlt : es.length < UInt32.size) :
    (es.foldl (fun n e => max n (e.1.val + 1)) (0 : UInt32)).toNat = es.length := by
  induction es using List.reverseRecOn with
  | nil => rfl
  | append_singleton es e ih =>
    rw [List.length_append, List.length_singleton] at h hlt
    rw [List.map_append, List.range_succ] at h
    obtain ⟨hes, he⟩ := List.append_inj h (by simp)
    have he : e.1.val.toNat = es.length := by simpa using he
    have hsucc : (e.1.val + 1).toNat = es.length + 1 := by
      rw [UInt32.toNat_add, he]
      exact Nat.mod_eq_of_lt hlt
    rw [List.foldl_append, List.foldl_cons, List.foldl_nil, List.length_append,
      List.length_singleton]
    refine Eq.trans (congrArg UInt32.toNat (if_pos ?_)) hsucc
    rw [UInt32.le_iff_toNat_le, ih hes (Nat.lt_of_succ_lt hlt), hsucc]
    exact Nat.le_succ _

namespace Built

section Numbers

variable (h : m.Built) (hlt : m.functionEntries.length < UInt32.size)

include h

/-- Every key is less than the count of functions. -/
theorem toNat_lt_of_mem {id : FunctionId} (hid : id ∈ m.functionEntries.map (·.1)) :
    id.val.toNat < m.functionEntries.length := by
  obtain ⟨e, he, rfl⟩ := List.mem_map.mp hid
  have hin : e.1.val.toNat ∈ m.functionEntries.map (·.1.val.toNat) := List.mem_map_of_mem he
  rw [h.numbered] at hin
  exact List.mem_range.mp hin

include hlt

/-- The count of functions, as the number of one, is no key. -/
theorem ofNat_length_notMem :
    ⟨UInt32.ofNat m.functionEntries.length⟩ ∉ m.functionEntries.map (·.1) := by
  intro hid
  have hself := h.toNat_lt_of_mem hid
  rw [UInt32.toNat_ofNat_of_lt' hlt] at hself
  exact Nat.lt_irrefl _ hself

/-- **The next function has the next number.** -/
theorem nextFunctionId?_eq_some :
    m.nextFunctionId? = some ⟨UInt32.ofNat m.functionEntries.length⟩ := by
  have hfree : .last ∉ m.functionEntries.map (·.1) := by
    intro hlast
    exact Nat.lt_irrefl _ (Nat.lt_of_lt_of_le hlt (h.toNat_lt_of_mem hlast))
  have hcount : m.wrappedNext.toNat = m.functionEntries.length := toNat_foldl_max h.numbered hlt
  rw [nextFunctionId?_eq, if_neg hfree, ← hcount, UInt32.ofNat_toNat]

end Numbers

end Built

/-! ## One declaration -/

/-- A function is found by its name if some function has it. -/
theorem functionNamed?_isSome {name : String} :
    (m.functionNamed? name).isSome ↔ name ∈ m.functions.map (·.name) := by
  rw [functionNamed?, List.find?_isSome, List.mem_map]
  simp

/-- An out-event is found by its name if some out-event has it. -/
theorem outEvent?_isSome {name : String} :
    (m.outEvent? name).isSome ↔ name ∈ m.outEvents.map (·.name) := by
  rw [outEvent?, List.find?_isSome, List.mem_map]
  simp

/-- A variable is a key if it is the identifier of a member. -/
theorem OwnKeys.contains_variable (hk : m.OwnKeys) {id : VariableId} :
    Entries.contains m.variableEntries id = true ↔ id ∈ m.members.map (·.id) := by
  rw [Entries.contains_iff, hk.map_variable_id]

/-- **A declaration that clashes is refused.** -/
theorem OwnKeys.declare_of_clashes (hk : m.OwnKeys) (hd : d.Clashes m) :
    m.declare d = .error d.refusal := by
  cases d with
  | member d => simp only [declare, addVariable, if_pos (hk.contains_variable.mpr hd)]; rfl
  | valueMember id name d =>
    simp only [declare, addValueVariable, addVariable, if_pos (hk.contains_variable.mpr hd)]
    rfl
  | function name =>
    simp only [declare, addFunction, if_pos (functionNamed?_isSome.mpr hd)]
    rfl
  | setBody id body =>
    have hnone : m.functionAt? id = none := by
      refine Option.eq_none_iff_forall_ne_some.mpr fun f hf => hd ?_
      obtain ⟨hmem, rfl⟩ := hk.functionAt?_eq_some.mp hf
      exact List.mem_map_of_mem hmem
    rw [declare, setFunctionBody, hnone]
    rfl
  | outEvent d => rw [declare, addOutEvent, if_pos (outEvent?_isSome.mpr hd)]; rfl

/-- **Any other has its effect.** -/
theorem Built.declare_of_not_clashes (h : m.Built) (hlt : m.functionEntries.length < UInt32.size)
    (hd : ¬ d.Clashes m) : m.declare d = .ok (d.effect m) := by
  have hnew (v : VariableDef) (hv : v.id ∉ m.members.map (·.id)) :
      m.addVariable v = .ok (v.id, { m with
        variableEntries := m.variableEntries ++ [(v.id, v)] }) := by
    rw [addVariable, if_neg (mt h.ownKeys.contains_variable.mp hv), Entries.put_of_notMem]
    rwa [← h.ownKeys.map_variable_id]
  cases d with
  | member d => rw [declare, hnew d hd]; rfl
  | valueMember id name d =>
    rw [declare, addValueVariable,
      hnew { id, name, dataType := d.dataType, initializer := .value d } hd]
    rfl
  | function name =>
    have hput := Entries.put_of_notMem (h.ofNat_length_notMem hlt)
    rw [declare, addFunction, if_neg (mt functionNamed?_isSome.mp hd), h.nextFunctionId?_eq_some hlt]
    simp only [hput]
    rfl
  | setBody id body =>
    obtain ⟨f, hf, rfl⟩ := List.mem_map.mp (not_not.mp hd)
    have hget := h.ownKeys.functionAt?_id hf
    have hput := Entries.put_of_get? (fun f : FunctionDef => { f with body })
      h.ownKeys.functions_nodup hget
    rw [← rebodied_singleton_setBody] at hput
    rw [declare, setFunctionBody, hget]
    exact congrArg (fun es => Except.ok { m with functionEntries := es }) hput
  | outEvent d => rw [declare, addOutEvent, if_neg (mt outEvent?_isSome.mp hd)]; rfl

/-- A declaration that clashes leaves the model as it was. -/
theorem after_of_clashes (hk : m.OwnKeys) (hd : d.Clashes m) : m.after d = m := by
  rw [after, hk.declare_of_clashes hd]
  rfl

/-- One that does not has its effect. -/
theorem after_of_not_clashes (h : m.Built) (hlt : m.functionEntries.length < UInt32.size)
    (hd : ¬ d.Clashes m) : m.after d = d.effect m := by
  rw [after, h.declare_of_not_clashes hlt hd]
  rfl

/-! ## What a declaration keeps -/

namespace Built

variable (h : m.Built)

include h

/-- A variable with a new identifier can be stored under it. -/
theorem append_variable (v : VariableDef) (hv : v.id ∉ m.members.map (·.id)) :
    Built { m with variableEntries := m.variableEntries ++ [(v.id, v)] } where
  ownKeys :=
    { h.ownKeys with
      variables_nodup := by
        rw [h.ownKeys.map_variable_id] at hv
        rw [List.map_append]
        exact List.nodup_append_comm.mpr (List.nodup_cons.mpr ⟨hv, h.ownKeys.variables_nodup⟩)
      variable_id := by
        intro e he
        rcases List.mem_append.mp he with he | he
        · exact h.ownKeys.variable_id e he
        · rw [List.mem_singleton.mp he] }
  numbered := h.numbered
  function_names_nodup := h.function_names_nodup
  outEvent_names_nodup := h.outEvent_names_nodup

/-- So can a function with the next number and a new name. -/
theorem append_function (hlt : m.functionEntries.length < UInt32.size) (f : FunctionDef)
    (hid : f.id = ⟨UInt32.ofNat m.functionEntries.length⟩)
    (hname : f.name ∉ m.functions.map (·.name)) :
    Built { m with functionEntries := m.functionEntries ++ [(f.id, f)] } where
  ownKeys :=
    { h.ownKeys with
      functions_nodup := by
        have hnew := h.ofNat_length_notMem hlt
        rw [List.map_append]
        exact List.nodup_append_comm.mpr
          (List.nodup_cons.mpr ⟨hid ▸ hnew, h.ownKeys.functions_nodup⟩)
      function_id := by
        intro e he
        rcases List.mem_append.mp he with he | he
        · exact h.ownKeys.function_id e he
        · rw [List.mem_singleton.mp he] }
  numbered := by
    rw [List.map_append, h.numbered, List.length_append, List.length_singleton, List.range_succ,
      List.map_singleton, hid, UInt32.toNat_ofNat_of_lt' hlt]
  function_names_nodup := by
    rw [functions, List.map_append, List.map_append]
    exact List.nodup_append_comm.mpr (List.nodup_cons.mpr ⟨hname, h.function_names_nodup⟩)
  outEvent_names_nodup := h.outEvent_names_nodup

/-- Changing bodies touches neither keys nor names. -/
theorem map_rebodied (ds : List Declaration) :
    Built { m with functionEntries := m.functionEntries.map (rebodied ds) } where
  ownKeys :=
    { h.ownKeys with
      functions_nodup := by
        rw [List.map_map]
        exact h.ownKeys.functions_nodup
      function_id := by
        intro e he
        obtain ⟨e', hmem, rfl⟩ := List.mem_map.mp he
        exact h.ownKeys.function_id e' hmem }
  numbered := by
    rw [List.map_map, List.length_map]
    exact h.numbered
  function_names_nodup := by
    have hnames := h.function_names_nodup
    rw [functions, List.map_map] at hnames ⊢
    rw [List.map_map]
    exact hnames
  outEvent_names_nodup := h.outEvent_names_nodup

/-- An out-event with a new name can be listed. -/
theorem append_outEvent (d : OutEventDef) (hd : d.name ∉ m.outEvents.map (·.name)) :
    Built { m with outEvents := m.outEvents ++ [d] } where
  ownKeys := { h.ownKeys with }
  numbered := h.numbered
  function_names_nodup := h.function_names_nodup
  outEvent_names_nodup := by
    rw [List.map_append]
    exact List.nodup_append_comm.mpr (List.nodup_cons.mpr ⟨hd, h.outEvent_names_nodup⟩)

variable (hlt : m.functionEntries.length < UInt32.size)

include hlt

/-- **A declaration that does not clash keeps the numbering.** -/
theorem effect (hd : ¬ d.Clashes m) : (d.effect m).Built := by
  cases d with
  | member d => exact h.append_variable d hd
  | valueMember id name d =>
    exact h.append_variable { id, name, dataType := d.dataType, initializer := .value d } hd
  | function name kind params returns locals body origin =>
    exact h.append_function hlt
      { id := ⟨UInt32.ofNat m.functionEntries.length⟩, name, kind, params, returns, locals, body,
        origin } rfl hd
  | setBody id body => exact h.map_rebodied [.setBody id body]
  | outEvent d => exact h.append_outEvent d hd

/-- **A declaration keeps a model built**, refused or not. -/
theorem after (d : Declaration) : (m.after d).Built := by
  by_cases hd : d.Clashes m
  · rwa [after_of_clashes h.ownKeys hd]
  · rw [after_of_not_clashes h hlt hd]
    exact h.effect hlt hd

/-- A declaration adds a function exactly if it is one of a function and is accepted. -/
theorem length_after (d : Declaration) : (m.after d).functionEntries.length =
    m.functionEntries.length + if d.isFunction && (m.declare d).isOk then 1 else 0 := by
  by_cases hd : d.Clashes m
  · have hok : (m.declare d).isOk = false := by
      rw [h.ownKeys.declare_of_clashes hd]
      rfl
    rw [after_of_clashes h.ownKeys hd, hok, Bool.and_false]
    rfl
  · have hok : (m.declare d).isOk = true := by
      rw [h.declare_of_not_clashes hlt hd]
      rfl
    rw [after_of_not_clashes h hlt hd, hok, Bool.and_true]
    cases d with
    | function => exact List.length_append
    | setBody => exact List.length_map _
    | _ => rfl

end Built

namespace Carries

theorem refl (m : Model) : Carries [] m m where
  name := rfl
  characteristics := rfl
  variableEntries := List.prefix_rfl
  functionEntries := by
    have hsame : m.functionEntries.map (rebodied []) = m.functionEntries := List.map_id _
    exact hsame.symm ▸ List.prefix_rfl
  outEvents := List.prefix_rfl

/-- What one declaration carries over, and then the others, all of them carry over. -/
theorem cons (h : Carries [d] m m') (h' : Carries ds m' m'') : Carries (d :: ds) m m'' where
  name := h'.name.trans h.name
  characteristics := h'.characteristics.trans h.characteristics
  variableEntries := h.variableEntries.trans h'.variableEntries
  functionEntries := by
    have hmap := (h.functionEntries.map (rebodied ds)).trans h'.functionEntries
    rwa [List.map_map] at hmap
  outEvents := h.outEvents.trans h'.outEvents

end Carries

/-- A clash changes no body: a body for a function that is not there is for none. -/
theorem OwnKeys.map_rebodied_of_clashes (hk : m.OwnKeys) (hd : d.Clashes m) :
    m.functionEntries.map (rebodied [d]) = m.functionEntries := by
  cases d with
  | setBody id body =>
    have hnot : id ∉ m.functionEntries.map (·.1) := hk.map_function_id ▸ hd
    conv_rhs => rw [← List.map_id m.functionEntries]
    rw [rebodied_singleton_setBody]
    exact List.map_congr_left fun e he => if_neg fun heq => hnot (List.mem_map.mpr ⟨e, he, heq⟩)
  | _ => exact List.map_id _

/-- One declaration carries everything over that was there. -/
theorem Built.carries_after (h : m.Built) (hlt : m.functionEntries.length < UInt32.size)
    (d : Declaration) : Carries [d] m (m.after d) := by
  by_cases hd : d.Clashes m
  · rw [after_of_clashes h.ownKeys hd]
    exact { Carries.refl m with
      functionEntries := (h.ownKeys.map_rebodied_of_clashes hd).symm ▸ List.prefix_rfl }
  · rw [after_of_not_clashes h hlt hd]
    cases d with
    | member d => exact { Carries.refl m with variableEntries := List.prefix_append _ _ }
    | valueMember => exact { Carries.refl m with variableEntries := List.prefix_append _ _ }
    | function =>
      exact { Carries.refl m with
        functionEntries := (Carries.refl m).functionEntries.trans (List.prefix_append _ _) }
    | setBody => exact { Carries.refl m with functionEntries := List.prefix_rfl }
    | outEvent => exact { Carries.refl m with outEvents := List.prefix_append _ _ }

/-! ## Lists of declarations -/

/-- The functions that two lists of declarations add are counted one list after the other. -/
theorem functionsDeclared_append (m : Model) (ds es : List Declaration) :
    functionsDeclared m (ds ++ es) =
      functionsDeclared m ds + functionsDeclared (m.build ds) es := by
  induction ds generalizing m with
  | nil => exact (Nat.zero_add _).symm
  | cons d ds ih =>
    rw [List.cons_append, functionsDeclared, ih, functionsDeclared, Nat.add_assoc]
    rfl

/-- **What a list of declarations keeps.** -/
theorem Built.build (h : m.Built) (ds : List Declaration)
    (hlt : m.functionEntries.length + functionsDeclared m ds < UInt32.size) :
    (m.build ds).Built ∧
      (m.build ds).functionEntries.length = m.functionEntries.length + functionsDeclared m ds ∧
      Carries ds m (m.build ds) := by
  induction ds generalizing m with
  | nil => exact ⟨h, rfl, .refl m⟩
  | cons d ds ih =>
    rw [functionsDeclared] at hlt ⊢
    have hm : m.functionEntries.length < UInt32.size :=
      Nat.lt_of_le_of_lt (Nat.le_add_right _ _) hlt
    rw [← Nat.add_assoc, ← h.length_after hm d] at hlt ⊢
    obtain ⟨hbuilt, hlength, hcarries⟩ := ih (h.after hm d) hlt
    exact ⟨hbuilt, hlength, (h.carries_after hm d).cons hcarries⟩

theorem built_empty (name : String) : Built { name } where
  ownKeys := by constructor <;> simp
  numbered := rfl
  function_names_nodup := List.nodup_nil
  outEvent_names_nodup := List.nodup_nil

/-- **Models are built by declarations.**  After any declarations on an empty model, as long as the
numbers of functions do not run out, every declaration stands under its own identifier, functions
are numbered from zero in the order in which they were declared, and no name stands twice.  What was
declared by some of them keeps its place and, the bodies that were replaced apart, its content.  One
more declaration is refused exactly if it clashes, which changes nothing; else it has its effect. -/
theorem declarations_build (name : String) (before later : List Declaration) (m m' : Model)
    (hm : m = build { name } before) (hm' : m' = m.build later)
    (hlt : functionsDeclared { name } (before ++ later) < UInt32.size) :
    m'.Built ∧
      m'.functionEntries.length = functionsDeclared { name } (before ++ later) ∧
      Carries later m m' ∧
      ∀ d : Declaration,
        (d.Clashes m' → m'.declare d = .error d.refusal ∧ m'.after d = m') ∧
          (¬ d.Clashes m' → m'.declare d = .ok (d.effect m') ∧ m'.after d = d.effect m') := by
  subst hm hm'
  rw [functionsDeclared_append] at hlt ⊢
  have hempty := built_empty name
  have hzero : ({ name } : Model).functionEntries.length = 0 := rfl
  obtain ⟨hbefore, hcount, -⟩ := hempty.build before (by rw [hzero]; omega)
  rw [hzero, Nat.zero_add] at hcount
  rw [← hcount] at hlt ⊢
  obtain ⟨hbuilt, hlength, hcarries⟩ := hbefore.build later hlt
  refine ⟨hbuilt, hlength, hcarries, fun d => ⟨fun hd => ?_, fun hd => ?_⟩⟩
  · exact ⟨hbuilt.ownKeys.declare_of_clashes hd, after_of_clashes hbuilt.ownKeys hd⟩
  · rw [← hlength] at hlt
    exact ⟨hbuilt.declare_of_not_clashes hlt hd, after_of_not_clashes hbuilt hlt hd⟩

/-- The declarations of a switch, one of them made twice. -/
def switchParts : List Declaration :=
  [.valueMember ⟨1⟩ "on" (.boolean false), .function "toggle" .entry [] [] [] [] ⟨1⟩,
    .function "toggle" .internal [] [] [] [] ⟨2⟩,
    .outEvent { name := "flipped", params := [], origin := ⟨3⟩ }]

/-- Another function, a body for the first and a body for one that is not there. -/
def switchBodies : List Declaration :=
  [.function "reset" .internal [] [] [] [] ⟨4⟩,
    .setBody ⟨0⟩ [.mk ⟨5⟩ none (.call ⟨1⟩ [] [])],
    .setBody ⟨7⟩ [.mk ⟨6⟩ none (.ret [])]]

/-- The declarations of the switch build a model of two functions, which takes no third of a name
that is there. -/
theorem switch_declarations_build :
    functionsDeclared { name := "Switch" } (switchParts ++ switchBodies) = 2 ∧
      ((build { name := "Switch" } switchParts).build switchBodies).Built ∧
      Carries switchBodies (build { name := "Switch" } switchParts)
        ((build { name := "Switch" } switchParts).build switchBodies) ∧
      ((build { name := "Switch" } switchParts).build switchBodies).declare
          (.function "reset" .entry [] [] [] [] ⟨8⟩) =
        .error (.duplicateFunction "reset") := by
  have hcount : functionsDeclared { name := "Switch" } (switchParts ++ switchBodies) = 2 := by
    decide
  obtain ⟨hbuilt, -, hcarries, hnext⟩ :=
    declarations_build "Switch" switchParts switchBodies _ _ rfl rfl (hcount ▸ by decide)
  refine ⟨hcount, hbuilt, hcarries, ?_⟩
  exact ((hnext (.function "reset" .entry [] [] [] [] ⟨8⟩)).1 (by
    show "reset" ∈ ["toggle", "reset"]
    decide)).1

end Model

end GraphScript
