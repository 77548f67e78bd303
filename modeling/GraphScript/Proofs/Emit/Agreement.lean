import GraphScript.Proofs.Emit.SourceLines

/-!
# Proofs/Emit/Agreement — the native header and source agree

The two texts of a native class are written apart, entries before helpers in the header and in the
order of the model in the source.  Read back, they have the same methods up to their order, and the
same fields in their order, but for callbacks, which start empty (`header_source_agree`).
-/

namespace GraphScript.Emit.Native

open Text (OneLine)

variable {m : Model}

/-! ## Callbacks -/

/-- The field of an out-event is a callback. -/
theorem isCallback_outField (d : OutEventDef) : (outField m d).isCallback = true := by
  have htype : (outField m d).type = "std::function<" ++ returnType d.returns ++ "(" ++
      types d.params ++ ")>" := rfl
  simp only [Field.isCallback, htype, String.toList_append, List.append_assoc]
  exact List.isPrefixOf_iff_prefix.mpr (List.prefix_append _ _)

/-- No type of data is that of a callback. -/
theorem isPrefixOf_type : ∀ t : DataType,
    "std::function<".toList.isPrefixOf (type t).toList = false
  | .boolean => by decide
  | .number => by decide
  | .string => by decide
  | .entityId => by decide
  | .object className => by
    have htype : type (.object className) =
        "canvasc::ObjectHandle /* " ++ (cleanName className ++ " */") := rfl
    rw [htype, String.toList_append]
    rfl

/-- Callbacks are the fields of out-events. -/
theorem isCallback_of_mem_fields :
    (∀ f ∈ m.outEvents.map (outField m), f.isCallback = true) ∧
      ∀ f ∈ ownerField :: m.members.map (memberField m), f.isCallback = false :=
  ⟨List.forall_mem_map.mpr fun d _ => isCallback_outField d,
    List.forall_mem_cons.mpr ⟨isPrefixOf_type .entityId,
      List.forall_mem_map.mpr fun v _ => isPrefixOf_type v.dataType⟩⟩

/-- The fields of the class, apart by whether they are callbacks. -/
theorem filter_isCallback :
    (m.outEvents.map (outField m) ++ ownerField :: m.members.map (memberField m)).filter
        (·.isCallback) = m.outEvents.map (outField m) ∧
      (m.outEvents.map (outField m) ++ ownerField :: m.members.map (memberField m)).filter
        (!·.isCallback) = ownerField :: m.members.map (memberField m) := by
  obtain ⟨houts, hfields⟩ := isCallback_of_mem_fields (m := m)
  constructor
  · rw [List.filter_append, List.filter_eq_self.mpr houts,
      List.filter_eq_nil_iff.mpr fun f hf => by rw [hfields f hf]; exact Bool.false_ne_true,
      List.append_nil]
  · rw [List.filter_append, List.filter_eq_nil_iff.mpr fun f hf => by rw [houts f hf]; decide,
      List.filter_eq_self.mpr fun f hf => by rw [hfields f hf]; rfl, List.nil_append]

/-! ## Both texts -/

/-- Entries and other functions are together all functions. -/
theorem perm_methodsOf : (methodsOf m .entry ++ methodsOf m .internal).Perm
    (m.functions.map (method m)) := by
  rw [methodsOf, methodsOf, ← List.map_append]
  exact Header.perm_kinds.map _

/-- A header and a source that show the class of a model alike. -/
structure Agree (m : Model) (header source : String) : Prop where
  /-- Each signature is declared as often as it is defined for the class. -/
  methods : (declaredMethods header).Perm ((definedMethods source).map Signature.unqualified)
  scope : ∀ d ∈ definedMethods source, d.scope = some (Names.ofModel m).className
  /-- Signatures are whole declarations and whole lines. -/
  whole : ((declaredMethods header).map Signature.text).Sublist (declarations header) ∧
    ((definedMethods source).map Signature.text).Sublist (Text.split '\n' source)
  /-- There is one for each function: entries come first in the header. -/
  functions : declaredMethods header = methodsOf m .entry ++ methodsOf m .internal ∧
    definedMethods source = m.functions.map (definition m)
  /-- The constructor sets fields in the order and with the types of their declarations. -/
  fields : (declaredFields header).filter (!·.isCallback) = initializedFields source
  /-- These are the owner and the variables, and only out-events have callbacks. -/
  members : initializedFields source = ownerField :: m.members.map (memberField m) ∧
    (declaredFields header).filter (·.isCallback) = m.outEvents.map (outField m)

/-- **Header and source agree**, whenever both are emitted and neither the name of the model nor the
namespace breaks a line. -/
theorem header_source_agree (m : Model) (o : Options) (hname : OneLine m.name)
    (hspace : OneLine o.nativeNamespace) (h s : Emission) (hh : Header.emit m o = .ok h)
    (hs : Source.emit m o = .ok s) : Agree m h.text s.text := by
  have hheader : h.text = Code.text o.indentWidth (Header.lines m o) := by
    obtain ⟨inputs, _, heq⟩ := Header.emit_eq_ok_iff.mp hh
    rw [heq]
  have hsource : s.text = Code.text o.indentWidth (Source.lines m o) := by
    obtain ⟨_, inputs, _, heq⟩ := Source.emit_eq_ok_iff.mp hs
    rw [heq]
  have hdeclared := declaredMethods_header hname hspace o.indentWidth
  have hdefined := definedMethods_source hname hspace o.indentWidth
  have hfields := declaredFields_header hname hspace o.indentWidth
  have hset := initializedFields_source hname hspace o.indentWidth
  rw [← hheader] at hdeclared hfields
  rw [← hsource] at hdefined hset
  refine ⟨?_, ?_, ⟨?_, sublist_definedIn _⟩, ⟨hdeclared, hdefined⟩, ?_, hset, ?_⟩
  · rw [hdeclared, hdefined, List.map_map]
    exact perm_methodsOf
  · rw [hdefined]
    exact List.forall_mem_map.mpr fun f _ => rfl
  · exact sublist_declaredMethods _
  · rw [hfields, hset, filter_isCallback.2]
  · rw [hfields, filter_isCallback.1]

/-- A lantern: a helper, declared before the entry that calls it, tells how long to flash. -/
def lantern : Model where
  name := "Lantern"
  variableEntries := [
    (.ofNat 2, ⟨.ofNat 2, "keeper", .entityId, .value (.entityId .graphOwner), .hidden⟩),
    (.ofNat 1, ⟨.ofNat 1, "lit", .boolean, .value (.boolean false), .hidden⟩)]
  functionEntries := [
    (⟨0⟩, {
      id := ⟨0⟩, name := "Length", kind := .internal, params := [⟨"flashes", .number⟩]
      returns := [⟨"length", .number⟩, ⟨"long", .boolean⟩], origin := ⟨10⟩
      body := [.mk ⟨11⟩ none (.ret [.param 0, .literal (.boolean true)])] }),
    (⟨1⟩, {
      id := ⟨1⟩, name := "Light", kind := .entry, params := [], returns := []
      locals := [⟨"length", .number⟩, ⟨"long", .boolean⟩], origin := ⟨20⟩
      body := [
        .mk ⟨21⟩ none (.call ⟨0⟩ [.literal (.number 2)] [0, 1]),
        .mk ⟨22⟩ none (.cond (.localVar 1)
          [.mk ⟨23⟩ none (.setMember (.ofNat 1) (.literal (.boolean true)))] []),
        .mk ⟨24⟩ none (.fire "Lit" [.localVar 0] [])] })]
  outEvents := [⟨"Lit", [⟨"length", .number⟩], [], ⟨30⟩⟩]

/-- The lantern's two texts agree, with its helper first in the one and last in the other. -/
theorem lantern_header_source_agree : OneLine lantern.name ∧ OneLine "game" ∧
    ∃ h s, Header.emit lantern { nativeNamespace := "game" } = .ok h ∧
      Source.emit lantern { nativeNamespace := "game" } = .ok s ∧ Agree lantern h.text s.text ∧
      declaredMethods h.text = [⟨"void", none, "in_Light", ""⟩,
        ⟨"std::tuple<double, bool>", none, "fn_Length", "double p_flashes"⟩] ∧
      definedMethods s.text = [
        ⟨"std::tuple<double, bool>", some "cls_Lantern", "fn_Length", "double p_flashes"⟩,
        ⟨"void", some "cls_Lantern", "in_Light", ""⟩] ∧
      initializedFields s.text = [⟨"canvasc::EntityId", "m_owner"⟩,
        ⟨"canvasc::EntityId", "m_keeper"⟩, ⟨"bool", "m_lit"⟩] := by
  have hvalid : lantern.isValid = true := by decide
  have hinputs := RuntimeInputs.exists_ofModel_iff (Model.isValid_iff.mp hvalid).members .compiled
  obtain ⟨inputs, hok⟩ := hinputs.mpr (by decide)
  have hh : Header.emit lantern { nativeNamespace := "game" } = .ok _ :=
    Header.emit_eq_ok_iff.mpr ⟨inputs, hok, rfl⟩
  have hs : Source.emit lantern { nativeNamespace := "game" } = .ok _ :=
    Source.emit_eq_ok_iff.mpr ⟨by decide, inputs, hok, rfl⟩
  have hagree := header_source_agree lantern _ (by decide) (by decide) _ _ hh hs
  refine ⟨by decide, by decide, _, _, hh, hs, hagree, ?_, ?_, ?_⟩
  · rw [hagree.functions.1]
    decide +kernel
  · rw [hagree.functions.2]
    decide +kernel
  · rw [hagree.members.1]
    decide +kernel

end GraphScript.Emit.Native
