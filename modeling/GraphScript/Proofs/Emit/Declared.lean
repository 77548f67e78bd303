import GraphScript.Emit.Header
import GraphScript.Emit.Source
import GraphScript.Proofs.CallGraph.Order
import GraphScript.Proofs.Code
import GraphScript.Proofs.Names.Own
import GraphScript.Proofs.RuntimeInputs

/-!
# Proofs/Emit/Declared — what the native class declares

`declared?` reads a line of a class as a reader of the language would: a method declares the word
before its parameters, a field the word before its end.  Read like that, the class in a header
declares its constructor, a method for each function, a field for each out-event and each variable,
and the field of the owner (`filterMap_declared?`).

The owner's field is not reserved with the others, and fields and methods are looked up by what
declarations are known by.  So the declarations are pairwise different unless functions share an
identifier, out-events a name, or a variable is called `owner` (`class_members_distinct_iff`).
-/

namespace GraphScript.Emit.Header

open Native

/-! ## Reading a declaration -/

/-- A character of an identifier. -/
def inWord (c : Char) : Bool := c.isAlphanum || c == '_'

/-- The last word of a text that is given backwards. -/
def lastWord (back : List Char) : String := String.ofList (back.takeWhile inWord).reverse

/-- What a line of a class declares: the word before its end, or before its parameters. -/
def declared? (line : String) : Option String :=
  match line.toList.reverse with
  | ';' :: back =>
    some (lastWord (if back.head? = some ')' then (back.dropWhile (· ≠ '(')).drop 1 else back))
  | _ => none

/-- Plain names are made of what words are made of. -/
theorem inWord_of_mem {name : String} (h : Names.Plain name) :
    ∀ c ∈ name.toList, inWord c = true := fun c hc => by
  simpa [inWord] using h c hc

theorem inWord_of_plain {name : String} (h : Names.Plain name) :
    ∀ c ∈ name.toList.reverse, inWord c = true := fun c hc =>
  inWord_of_mem h c (List.mem_reverse.mp hc)

/-- The last word before something that is in no word is the name there. -/
theorem lastWord_append {name : String} (h : Names.Plain name) {c : Char} (hc : inWord c = false)
    (back : List Char) : lastWord (name.toList.reverse ++ c :: back) = name := by
  have hstop : (c :: back).takeWhile inWord = [] :=
    List.takeWhile_cons_of_neg (by rw [hc]; exact Bool.false_ne_true)
  rw [lastWord, List.takeWhile_append_of_pos (inWord_of_plain h), hstop, List.append_nil,
    List.reverse_reverse, String.ofList_toList]

/-- A field declares its name. -/
theorem declared?_field (before : String) {name : String} (h : Names.Plain name) :
    declared? (before ++ " " ++ name ++ ";") = some name := by
  have hback : (before ++ " " ++ name ++ ";").toList.reverse =
      ';' :: (name.toList.reverse ++ ' ' :: before.toList.reverse) := by simp
  have hfield : (name.toList.reverse ++ ' ' :: before.toList.reverse).head? ≠ some ')' := by
    rw [List.head?_append]
    cases hname : name.toList.reverse.head? with
    | none => exact of_decide_eq_true rfl
    | some c =>
      intro hc
      obtain rfl : c = ')' := Option.some.inj hc
      exact absurd (h _ (List.mem_reverse.mp (List.mem_of_head? hname))) (by decide)
  unfold declared?
  rw [hback]
  simp only [if_neg hfield, lastWord_append h (rfl : inWord ' ' = false)]

/-- A method declares the name before its parameters. -/
theorem declared?_method (before params : String) {name : String} (h : Names.Plain name)
    (hparams : '(' ∉ params.toList) :
    declared? (before ++ " " ++ name ++ "(" ++ params ++ ");") = some name := by
  have hback : (before ++ " " ++ name ++ "(" ++ params ++ ");").toList.reverse =
      ';' :: ((')' :: params.toList.reverse) ++
        '(' :: (name.toList.reverse ++ ' ' :: before.toList.reverse)) := by simp
  have hinside : ∀ c ∈ ')' :: params.toList.reverse, decide (c ≠ '(') = true := by
    refine List.forall_mem_cons.mpr ⟨rfl, fun c hc => decide_eq_true fun heq => hparams ?_⟩
    exact heq ▸ List.mem_reverse.mp hc
  have hdrop (rest : List Char) : ((')' :: params.toList.reverse) ++ rest).dropWhile (· ≠ '(') =
      rest.dropWhile (· ≠ '(') := List.dropWhile_append_of_pos hinside
  unfold declared?
  rw [hback]
  simp only [hdrop]
  exact congrArg some (lastWord_append h rfl _)

/-! ## Texts that a declaration is made of -/

/-- A text on one line that opens no parenthesis. -/
def Bare (s : String) : Prop := Text.OneLine s ∧ '(' ∉ s.toList

instance (s : String) : Decidable (Bare s) :=
  inferInstanceAs (Decidable (Text.OneLine s ∧ '(' ∉ s.toList))

/-- A text is bare if its parts are. -/
theorem bare_append {s t : String} : Bare (s ++ t) ↔ Bare s ∧ Bare t := by
  simp only [Bare, Text.oneLine_append, String.toList_append, List.mem_append, not_or]
  exact and_and_and_comm

theorem bare_of_plain {s : String} (h : Names.Plain s) : Bare s :=
  ⟨fun hm => absurd (h _ hm) (by decide), fun hm => absurd (h _ hm) (by decide)⟩

theorem bare_intercalate {items : List String} (h : ∀ s ∈ items, Bare s) :
    Bare (", ".intercalate items) :=
  ⟨Text.oneLine_intercalate (by decide) fun s hs => (h s hs).1,
    Text.notMem_intercalate (by decide) fun s hs => (h s hs).2⟩

/-- A character of a type: of one of its words, or one that stands between them. -/
def inType (c : Char) : Bool := inWord c || ": /*".toList.contains c

/-- Types are written with letters, digits and a few signs. -/
theorem all_inType : ∀ t : DataType, (type t).toList.all inType = true
  | .boolean | .number | .string | .entityId => by decide
  | .object className => by
      have hname : (cleanName className).toList.all inType = true :=
        List.all_eq_true.mpr fun c hc =>
          Bool.or_eq_true_iff.mpr (.inl (inWord_of_mem (Names.plain_cleanName className) c hc))
      have htext : type (.object className) =
          "canvasc::ObjectHandle /* " ++ cleanName className ++ " */" := rfl
      rw [htext, String.toList_append, String.toList_append, List.all_append, List.all_append,
        hname]
      decide

theorem notMem_type {c : Char} (hc : inType c = false) (t : DataType) : c ∉ (type t).toList :=
  fun hm => Bool.false_ne_true (hc.symm.trans (List.all_eq_true.mp (all_inType t) c hm))

theorem bare_type (t : DataType) : Bare (type t) := ⟨notMem_type rfl t, notMem_type rfl t⟩

theorem bare_types (ps : List Param) : Bare (types ps) :=
  bare_intercalate (List.forall_mem_map.mpr fun p _ => bare_type p.dataType)

theorem bare_returnType : ∀ ps : List Param, Bare (returnType ps)
  | [] => (by decide : Bare "void")
  | [p] => bare_type p.dataType
  | p :: q :: ps => bare_append.mpr ⟨bare_append.mpr ⟨by decide, bare_types (p :: q :: ps)⟩, by decide⟩

/-- The type of a callback breaks no line. -/
theorem oneLine_outType (params returns : List Param) : Text.OneLine (outType params returns) := by
  have h : Text.OneLine ("std::function<" ++ returnType returns ++ "(" ++ types params ++ ")>") := by
    simp only [Text.oneLine_append]
    exact ⟨⟨⟨⟨by decide, (bare_returnType returns).1⟩, by decide⟩, (bare_types params).1⟩,
      by decide⟩
  exact h

/-- The text stands on one line and declares that name, however it is indented. -/
structure Declares (text name : String) : Prop where
  oneLine : Text.OneLine text
  read (indent : String) : declared? (indent ++ text) = some name

/-- A field's line declares the field. -/
theorem declares_field {type name : String} (htype : Text.OneLine type) (h : Names.Plain name) :
    Declares (type ++ " " ++ name ++ ";") name where
  oneLine := by
    simp only [Text.oneLine_append]
    exact ⟨⟨⟨htype, by decide⟩, (bare_of_plain h).1⟩, by decide⟩
  read indent := by
    rw [← String.append_assoc, ← String.append_assoc, ← String.append_assoc]
    exact declared?_field (indent ++ type) h

/-- The line of a method declares the method. -/
theorem declares_method {type name params : String} (htype : Text.OneLine type)
    (h : Names.Plain name) (hparams : Bare params) :
    Declares (type ++ " " ++ name ++ "(" ++ params ++ ");") name where
  oneLine := by
    simp only [Text.oneLine_append]
    exact ⟨⟨⟨⟨⟨htype, by decide⟩, (bare_of_plain h).1⟩, by decide⟩, hparams.1⟩, by decide⟩
  read indent := by
    simp only [← String.append_assoc]
    exact declared?_method (indent ++ type) params h hparams.2

/-! ## The lines of the class -/

section Class

variable (m : Model)

/-- The lines between the braces of the class. -/
def classBody : List Line :=
  [⟨0, "public:", none⟩, ⟨1, "explicit " ++ (Names.ofModel m).className ++
      "(const canvasc::RuntimeInputs& inputs);", none⟩] ++
    methods m (Names.ofModel m) .entry ++ outs m (Names.ofModel m) ++
    [Line.blank, ⟨0, "private:", none⟩] ++ methods m (Names.ofModel m) .internal ++
    members m (Names.ofModel m)

/-- The identifiers of the methods of a kind. -/
def methodNames (k : FunctionKind) : List String :=
  (m.functions.filter (·.kind = k)).map (methodName (Names.ofModel m))

/-- The identifiers of the fields for out-events. -/
def outNames : List String := m.outEvents.map fun d => (Names.ofModel m).out d.name

/-- The identifiers of the fields for variables. -/
def memberNames : List String := m.members.map fun v => (Names.ofModel m).member v.id

/-- What the class declares, in the order of its lines. -/
def declaredNames : List String :=
  (Names.ofModel m).className :: (methodNames m .entry ++ (outNames m ++
    (methodNames m .internal ++ "m_owner" :: memberNames m)))

variable {m}

/-- The signature of a function declares the function. -/
theorem declares_signature {f : FunctionDef} (hf : f ∈ m.functions) :
    Declares (signature (Names.ofModel m) "" f ++ ";") (methodName (Names.ofModel m) f) := by
  obtain ⟨own, hown⟩ := Option.isSome_iff_exists.mp
    (Names.isSome_function?.mpr (List.mem_map_of_mem (f := (·.id)) hf))
  obtain ⟨hname, hparams, _⟩ := Names.plain_of_function? hown
  have hmethod : methodName (Names.ofModel m) f = own.name := by
    rw [methodName, hown]
    rfl
  have htext : signature (Names.ofModel m) "" f ++ ";" =
      returnType f.returns ++ " " ++ own.name ++ "(" ++ ", ".intercalate
        ((f.params.zip own.params).map fun e => type e.1.dataType ++ " " ++ e.2) ++ ");" := by
    rw [signature, hown, hmethod, String.append_empty, String.append_assoc]
    rfl
  rw [htext, hmethod]
  refine declares_method (bare_returnType f.returns).1 hname
    (bare_intercalate (List.forall_mem_map.mpr fun e he => ?_))
  have hparam : Names.Plain e.2 := hparams e.2 (List.of_mem_zip he).2
  exact bare_append.mpr ⟨bare_append.mpr ⟨bare_type _, by decide⟩, bare_of_plain hparam⟩

theorem declares_out (d : OutEventDef) :
    Declares (outType d.params d.returns ++ " " ++ (Names.ofModel m).out d.name ++ ";")
      ((Names.ofModel m).out d.name) :=
  declares_field (oneLine_outType d.params d.returns) (Names.plain_out m d.name)

theorem declares_member (v : VariableDef) :
    Declares (type v.dataType ++ " " ++ (Names.ofModel m).member v.id ++ ";")
      ((Names.ofModel m).member v.id) :=
  declares_field (bare_type v.dataType).1 (Names.plain_member m v.id)

theorem declares_owner : Declares "canvasc::EntityId m_owner;" "m_owner" := by
  have htext : "canvasc::EntityId m_owner;" = "canvasc::EntityId" ++ " " ++ "m_owner" ++ ";" := rfl
  rw [htext]
  exact declares_field (by decide) (by decide)

theorem declares_constructor : Declares ("explicit " ++ (Names.ofModel m).className ++
    "(const canvasc::RuntimeInputs& inputs);") (Names.ofModel m).className := by
  have hopen : "explicit " = "explicit" ++ " " := rfl
  have hparams : "(const canvasc::RuntimeInputs& inputs);" =
      "(" ++ "const canvasc::RuntimeInputs& inputs" ++ ");" := rfl
  rw [hopen, hparams, ← String.append_assoc, ← String.append_assoc]
  exact declares_method (by decide) (Names.plain_className m) (by decide)

/-! ## Reading the class -/

/-- What a line declares can be read when it is shown. -/
theorem Declares.shown {text name : String} (h : Declares text name) (width level : Nat) :
    declared? (Line.shown width ⟨level, text, none⟩) = some name := by
  unfold Line.shown
  split
  · rename_i hempty
    obtain rfl : text = "" := String.isEmpty_iff.mp hempty
    exact h.read ""
  · exact h.read _

/-- Lines that declare one name each declare these names in turn. -/
theorem filterMap_shown {α : Type} {text name : α → String} (width : Nat) {l : List α}
    (h : ∀ a ∈ l, Declares (text a) (name a)) :
    ((l.map fun a => (⟨1, text a, none⟩ : Line)).map (Line.shown width)).filterMap declared? =
      l.map name := by
  induction l with
  | nil => rfl
  | cons a l ih =>
    obtain ⟨ha, hl⟩ := List.forall_mem_cons.mp h
    rw [List.map_cons, List.map_cons, List.filterMap_cons_some (ha.shown width 1), ih hl,
      List.map_cons]

/-- The methods of a kind declare their names. -/
theorem filterMap_methods (width : Nat) (k : FunctionKind) :
    ((methods m (Names.ofModel m) k).map (Line.shown width)).filterMap declared? =
      methodNames m k :=
  filterMap_shown width fun _ hf => declares_signature (List.mem_of_mem_filter hf)

/-- Callbacks declare the names of the out-events. -/
theorem filterMap_outs (width : Nat) :
    ((outs m (Names.ofModel m)).map (Line.shown width)).filterMap declared? = outNames m := by
  have hlines := filterMap_shown (l := m.outEvents) width fun d _ => declares_out (m := m) d
  unfold outs outNames
  split
  · rename_i hempty
    rw [List.isEmpty_iff.mp hempty]
    rfl
  · exact hlines

/-- Fields declare the names of the variables, after the owner. -/
theorem filterMap_members (width : Nat) :
    ((members m (Names.ofModel m)).map (Line.shown width)).filterMap declared? =
      "m_owner" :: memberNames m := by
  have hlines := filterMap_shown (l := m.members) width fun v _ => declares_member (m := m) v
  rw [members, List.map_cons, List.filterMap_cons_some (declares_owner.shown width 1), hlines]
  rfl

/-- **What the class declares.** -/
theorem filterMap_declared? (width : Nat) :
    ((classBody m).map (Line.shown width)).filterMap declared? = declaredNames m := by
  have hpublic : declared? (Line.shown width ⟨0, "public:", none⟩) = none := by
    simp [Line.shown, declared?]
  have hprivate : declared? (Line.shown width ⟨0, "private:", none⟩) = none := by
    simp [Line.shown, declared?]
  have hblank : declared? (Line.shown width Line.blank) = none := rfl
  simp only [classBody, List.map_append, List.filterMap_append, filterMap_methods, filterMap_outs,
    filterMap_members, List.map_cons, List.map_nil, List.filterMap_cons_none hpublic,
    List.filterMap_cons_none hprivate, List.filterMap_cons_none hblank,
    List.filterMap_cons_some (declares_constructor.shown width 1), List.filterMap_nil,
    declaredNames, List.nil_append, List.append_assoc, List.singleton_append]

theorem oneLine_methods (k : FunctionKind) :
    ∀ l ∈ methods m (Names.ofModel m) k, Text.OneLine l.text :=
  List.forall_mem_map.mpr fun _ hf => (declares_signature (List.mem_of_mem_filter hf)).oneLine

theorem oneLine_outs : ∀ l ∈ outs m (Names.ofModel m), Text.OneLine l.text := by
  unfold outs
  split
  · exact List.forall_mem_nil _
  · exact List.forall_mem_cons.mpr
      ⟨by decide, List.forall_mem_map.mpr fun d _ => (declares_out d).oneLine⟩

/-- The lines of the class are lines. -/
theorem oneLine_classBody : ∀ l ∈ classBody m, Text.OneLine l.text := by
  have hhead : ∀ l ∈ [(⟨0, "public:", none⟩ : Line), ⟨1, "explicit " ++ (Names.ofModel m).className ++
      "(const canvasc::RuntimeInputs& inputs);", none⟩], Text.OneLine l.text :=
    List.forall_mem_cons.mpr ⟨by decide, List.forall_mem_singleton.mpr declares_constructor.oneLine⟩
  have hmembers : ∀ l ∈ members m (Names.ofModel m), Text.OneLine l.text :=
    List.forall_mem_cons.mpr
      ⟨by decide, List.forall_mem_map.mpr fun v _ => (declares_member v).oneLine⟩
  simp only [classBody, List.forall_mem_append]
  exact ⟨⟨⟨⟨⟨hhead, oneLine_methods .entry⟩, oneLine_outs⟩, by decide⟩, oneLine_methods .internal⟩,
    hmembers⟩

/-- The lines `body` stand between the braces of the class in a text. -/
def ClassBody (m : Model) (text : String) (body : List String) : Prop :=
  ∃ before after, Text.split '\n' text =
    before ++ ("class " ++ (Names.ofModel m).className) :: "\x7b" :: body ++ "\x7d;" :: after

/-- The class stands in one piece in the text. -/
theorem exists_lines_eq (o : Options) : ∃ before after, lines m o =
    before ++ (⟨0, "class " ++ (Names.ofModel m).className, none⟩ :: ⟨0, "\x7b", none⟩ ::
      classBody m ++ [⟨0, "\x7d;", none⟩]) ++ after := by
  refine ⟨[banner m, ⟨0, "#pragma once", none⟩, Line.blank, ⟨0, "#include <functional>", none⟩,
    ⟨0, "#include <string>", none⟩, ⟨0, "#include <tuple>", none⟩,
    ⟨0, "#include \"canvasc/runtime.h\"", none⟩, Line.blank] ++ openNamespace o,
    Line.blank :: closeNamespace o, ?_⟩
  simp only [lines, classBody, List.append_assoc, List.cons_append, List.nil_append]

/-- The lines between its braces can be found in the text. -/
theorem classBody_text (o : Options) :
    ClassBody m (Code.text o.indentWidth (lines m o))
      ((classBody m).map (Line.shown o.indentWidth)) := by
  obtain ⟨before, after, hlines⟩ := exists_lines_eq (m := m) o
  have hclass : ∀ l ∈ (⟨0, "class " ++ (Names.ofModel m).className, none⟩ : Line) ::
      ⟨0, "\x7b", none⟩ :: classBody m ++ [⟨0, "\x7d;", none⟩], Text.OneLine l.text := by
    refine List.forall_mem_append.mpr ⟨List.forall_mem_cons.mpr ⟨?_, List.forall_mem_cons.mpr
      ⟨(by decide : Text.OneLine "\x7b"), oneLine_classBody⟩⟩,
      List.forall_mem_singleton.mpr (by decide : Text.OneLine "\x7d;")⟩
    exact Text.oneLine_append.mpr ⟨by decide, (bare_of_plain (Names.plain_className m)).1⟩
  refine ⟨before.flatMap fun l => Text.split '\n' (l.shown o.indentWidth),
    after.flatMap (fun l => Text.split '\n' (l.shown o.indentWidth)) ++ [""], ?_⟩
  rw [Code.split_text_pieces, hlines, List.flatMap_append, List.flatMap_append,
    Code.flatMap_split_shown _ hclass]
  simp only [List.map_append, List.map_cons, List.map_nil, Line.shown_of_level, List.append_assoc,
    List.cons_append, List.nil_append]

/-! ## What is declared twice -/

/-- A function has one kind. -/
theorem perm_kinds : (m.functions.filter (fun f => decide (f.kind = .entry)) ++
    m.functions.filter fun f => decide (f.kind = .internal)).Perm m.functions := by
  have hinternal : m.functions.filter (fun f => decide (f.kind = .internal)) =
      m.functions.filter fun f => !decide (f.kind = .entry) :=
    List.filter_congr fun f _ => by cases f.kind <;> rfl
  rw [hinternal]
  exact List.filter_append_perm _ _

/-- A function is entered under one method, whichever its kind. -/
theorem perm_methodNames : (methodNames m .entry ++ methodNames m .internal).Perm
    (m.functions.map (methodName (Names.ofModel m))) := by
  rw [methodNames, methodNames, ← List.map_append]
  exact perm_kinds.map _

/-- Methods are looked up by the identifiers of functions. -/
theorem map_methodName_eq_map_id : ∃ look : FunctionId → String,
    m.functions.map (methodName (Names.ofModel m)) = (m.functions.map (·.id)).map look := by
  refine ⟨fun id => (((Names.ofModel m).function? id).map (·.name)).getD "", ?_⟩
  rw [List.map_map]
  refine List.map_congr_left fun f hf => ?_
  obtain ⟨own, hown⟩ := Option.isSome_iff_exists.mp
    (Names.isSome_function?.mpr (List.mem_map_of_mem (f := (·.id)) hf))
  simp [methodName, hown]

/-- The names of the class are those of the model and the owner. -/
theorem perm_declaredNames (hmembers : (m.members.map (·.id)).Nodup)
    (hfunctions : (m.functions.map (·.id)).Nodup) (houts : (m.outEvents.map (·.name)).Nodup) :
    (declaredNames m).Perm ("m_owner" :: (Names.ofModel m).outer) := by
  obtain ⟨ms, os, fs, hd⟩ := Names.exists_dealt m
  have hmethods := perm_methodNames (m := m)
  rw [hd.map_methodName_eq hfunctions] at hmethods
  have hcount (s : String) := hmethods.count_eq s
  refine List.perm_iff_count.mpr fun s => ?_
  simp only [List.count_append] at hcount
  simp only [declaredNames, hd.outer_eq, memberNames, outNames, hd.map_member_eq hmembers,
    hd.map_out_eq houts, List.count_cons, List.count_append, ← hcount s]
  omega

/-- **Nothing is declared twice** unless functions share an identifier, out-events a name, or a
variable is called like the owner. -/
theorem nodup_declaredNames_iff (hmembers : (m.members.map (·.id)).Nodup) :
    (declaredNames m).Nodup ↔ (m.functions.map (·.id)).Nodup ∧
      (m.outEvents.map (·.name)).Nodup ∧ ∀ v ∈ m.members, v.name ≠ "owner" := by
  obtain ⟨ms, os, fs, hd⟩ := Names.exists_dealt m
  constructor
  · intro h
    have hrest := (List.nodup_cons.mp h).2
    have hfunctions : (m.functions.map (·.id)).Nodup := by
      obtain ⟨look, hlook⟩ := map_methodName_eq_map_id (m := m)
      refine List.Nodup.of_map look ?_
      rw [← hlook, ← perm_methodNames.nodup_iff]
      refine hrest.sublist (List.Sublist.append_left ?_ _)
      exact (List.sublist_append_left _ _).trans (List.sublist_append_right _ _)
    have houts : (m.outEvents.map (·.name)).Nodup := by
      refine List.Nodup.of_map (Names.ofModel m).out ?_
      rw [List.map_map]
      exact hrest.sublist ((List.sublist_append_left _ _).trans (List.sublist_append_right _ _))
    refine ⟨hfunctions, houts, Names.owner_notMem_outer_iff.mp ?_⟩
    exact (List.nodup_cons.mp
      ((perm_declaredNames hmembers hfunctions houts).nodup_iff.mp h)).1
  · rintro ⟨hfunctions, houts, hnames⟩
    rw [(perm_declaredNames hmembers hfunctions houts).nodup_iff]
    refine List.nodup_cons.mpr ⟨Names.owner_notMem_outer_iff.mpr hnames, ?_⟩
    rw [hd.outer_eq]
    exact hd.nodup

end Class

/-- A header was emitted from collected inputs. -/
theorem emit_eq_ok_iff {m : Model} {o : Options} {e : Emission} :
    emit m o = .ok e ↔ ∃ inputs, RuntimeInputs.ofModel m .compiled = .ok inputs ∧
      e = { text := Code.text o.indentWidth (lines m o), runtimeInputs := inputs } := by
  unfold emit Emission.inputs
  cases RuntimeInputs.ofModel m .compiled with
  | error => simp [bind, Except.bind]
  | ok inputs => simp [bind, Except.bind, pure, Except.pure, eq_comm]

/-- The owner is read from its field. -/
theorem expr_owner (names : Names) (own : Names.Function) :
    Source.expr names own (.literal (.entityId .graphOwner)) = "m_owner" := by
  have howner : EntityId.graphOwner.isGraphOwner = true := decide_eq_true rfl
  rw [Source.expr, Source.datum, if_pos howner]

/-- **What the native class of a valid model declares.**  There is a header exactly if no two
variables share an identifier.  Its class declares the constructor, one method for each function,
one field for each out-event and each variable, and the field of the owner; these are pairwise
different exactly if no two functions share an identifier, no two out-events share a name and no
variable is called `owner`.  Such a variable, and nothing else, makes the text of a member the text
of the owner in the source. -/
theorem class_members_distinct_iff (m : Model) (o : Options) (hv : m.isValid = true) :
    ((∃ e, emit m o = .ok e) ↔ (m.members.map (·.id)).Nodup) ∧
      ∀ e, emit m o = .ok e →
        (∃ body, ClassBody m e.text body ∧ body.filterMap declared? = declaredNames m) ∧
        ((declaredNames m).Nodup ↔ (m.functions.map (·.id)).Nodup ∧
          (m.outEvents.map (·.name)).Nodup ∧ ∀ v ∈ m.members, v.name ≠ "owner") ∧
        ((∀ own id, Source.expr (Names.ofModel m) own (.member id) ≠
            Source.expr (Names.ofModel m) own (.literal (.entityId .graphOwner))) ↔
          ∀ v ∈ m.members, v.name ≠ "owner") := by
  have hinputs := RuntimeInputs.exists_ofModel_iff (Model.isValid_iff.mp hv).members .compiled
  refine ⟨?_, fun e he => ?_⟩
  · rw [← hinputs]
    constructor
    · rintro ⟨e, he⟩
      obtain ⟨inputs, hok, _⟩ := emit_eq_ok_iff.mp he
      exact ⟨inputs, hok⟩
    · rintro ⟨inputs, hok⟩
      exact ⟨_, emit_eq_ok_iff.mpr ⟨inputs, hok, rfl⟩⟩
  · obtain ⟨inputs, hok, heq⟩ := emit_eq_ok_iff.mp he
    have htext : e.text = Code.text o.indentWidth (lines m o) := by rw [heq]
    have hids := hinputs.mp ⟨inputs, hok⟩
    have hread := filterMap_declared? (m := m) o.indentWidth
    have hclass : ClassBody m e.text ((classBody m).map (Line.shown o.indentWidth)) := by
      rw [htext]
      exact classBody_text o
    refine ⟨⟨_, hclass, hread⟩, nodup_declaredNames_iff hids, ?_⟩
    rw [← Names.member_ne_owner_iff hids]
    simp only [expr_owner]
    exact ⟨fun h => h default, fun h _ => h⟩

/-- A lock that knows whether it has an owner. -/
def lock : Model where
  name := "Lock"
  variableEntries := [(.ofNat 1, ⟨.ofNat 1, "owner", .boolean, .value (.boolean false), .hidden⟩)]

/-- A lock with a variable called `owner` declares that field twice. -/
theorem lock_class_members :
    (Model.door.isValid = true ∧ ∃ e, emit Model.door {} = .ok e ∧ ∃ body,
      ClassBody Model.door e.text body ∧ (body.filterMap declared?).Nodup) ∧
    lock.isValid = true ∧ ∃ e, emit lock {} = .ok e ∧
      (∃ body, ClassBody lock e.text body ∧ ¬ (body.filterMap declared?).Nodup) ∧
      ¬ ∀ own id, Source.expr (Names.ofModel lock) own (.member id) ≠
        Source.expr (Names.ofModel lock) own (.literal (.entityId .graphOwner)) := by
  have hdoor : Model.door.isValid = true := by decide
  have hlock : lock.isValid = true := by decide
  obtain ⟨hemit, hread⟩ := class_members_distinct_iff Model.door {} hdoor
  obtain ⟨hemit', hread'⟩ := class_members_distinct_iff lock {} hlock
  obtain ⟨e, he⟩ := hemit.mpr (by decide)
  obtain ⟨e', he'⟩ := hemit'.mpr (by decide)
  obtain ⟨⟨body, hbody, hnames⟩, hnodup, _⟩ := hread e he
  obtain ⟨⟨body', hbody', hnames'⟩, hnodup', howner'⟩ := hread' e' he'
  refine ⟨⟨hdoor, e, he, body, hbody, hnames ▸ hnodup.mpr (by decide)⟩,
    hlock, e', he', ⟨body', hbody', fun h => ?_⟩, fun h => ?_⟩
  · exact absurd (hnodup'.mp (hnames' ▸ h)).2.2 (by decide)
  · exact absurd (howner'.mp h) (by decide)

end GraphScript.Emit.Header
