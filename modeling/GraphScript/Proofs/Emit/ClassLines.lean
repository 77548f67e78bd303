import GraphScript.Proofs.Emit.Bodies
import GraphScript.Proofs.Emit.Signature

/-!
# Proofs/Emit/ClassLines — the class in a native header, read back

A header is read as a reader of the language would: the class stands between the first brace on a
line of its own and its end, and each declaration ends in a semicolon.  Read like that, the class
has the constructor, a method for each function, and a field for each out-event, the owner and each
variable (`declaredMethods_header`, `declaredFields_header`).
-/

namespace GraphScript.Emit.Native

open Header (Bare bare_append bare_intercalate bare_of_plain bare_type)
open Source (Inner inner_of_begin inner_blank plain_methodName)
open Text (OneLine oneLine_append)

/-! ## Reading a header -/

/-- The lines from the first brace on a line of its own to the end of a class. -/
def classLines (text : String) : List String :=
  (((Text.split '\n' text).dropWhile (· ≠ "\x7b")).drop 1).takeWhile (· ≠ "\x7d;")

/-- What a line declares, without its indentation and its semicolon. -/
def declaration? (line : String) : Option String :=
  match (line.toList.dropWhile (· = ' ')).reverse with
  | ';' :: back => some (String.ofList back.reverse)
  | _ => none

/-- The declarations of the class in a text. -/
def declarations (text : String) : List String := (classLines text).filterMap declaration?

/-- The methods that the class in a text declares; its constructor is none of them. -/
def declaredMethods (text : String) : List Signature :=
  ((declarations text).filterMap Signature.read?).filter (·.result ≠ "explicit")

/-- The fields that the class in a text declares. -/
def declaredFields (text : String) : List Field := (declarations text).filterMap Field.read?

/-- A field that holds a callback. -/
def Field.isCallback (f : Field) : Bool := "std::function<".toList.isPrefixOf f.type.toList

/-! ## What the class has -/

section Class

variable (m : Model)

/-- The parameters of a method. -/
def paramList (f : FunctionDef) : String :=
  (((Names.ofModel m).function? f.id).map fun own => ", ".intercalate
    ((f.params.zip own.params).map fun e => type e.1.dataType ++ " " ++ e.2)).getD ""

/-- The method of a function. -/
def method (f : FunctionDef) : Signature where
  result := returnType f.returns
  scope := none
  name := methodName (Names.ofModel m) f
  params := paramList m f

/-- The method of a function, as its definition names it. -/
def definition (f : FunctionDef) : Signature :=
  { method m f with scope := some (Names.ofModel m).className }

/-- The field of the owner. -/
def ownerField : Field := ⟨"canvasc::EntityId", "m_owner"⟩

/-- The field of a variable. -/
def memberField (v : VariableDef) : Field := ⟨type v.dataType, (Names.ofModel m).member v.id⟩

/-- The field of an out-event. -/
def outField (d : OutEventDef) : Field := ⟨outType d.params d.returns, (Names.ofModel m).out d.name⟩

end Class

variable {m : Model}

/-- The header writes the signature without the class, the source with it. -/
theorem signature_eq {f : FunctionDef} (hf : f ∈ m.functions) :
    signature (Names.ofModel m) "" f = (method m f).text ∧
      signature (Names.ofModel m) ((Names.ofModel m).className ++ "::") f =
        (definition m f).text := by
  obtain ⟨own, hown⟩ := Option.isSome_iff_exists.mp
    (Names.isSome_function?.mpr (List.mem_map_of_mem (f := (·.id)) hf))
  constructor
  · simp [signature, Signature.text, method, paramList, hown]
  · simp [signature, Signature.text, definition, method, paramList, hown]

theorem bare_paramList (f : FunctionDef) : Bare (paramList m f) := by
  unfold paramList
  cases h : (Names.ofModel m).function? f.id with
  | none => exact (by decide : Bare "")
  | some own =>
    refine bare_intercalate (List.forall_mem_map.mpr fun e he => ?_)
    have hparam := (Names.plain_of_function? h).2.1 e.2 (List.of_mem_zip he).2
    exact bare_append.mpr ⟨bare_append.mpr ⟨bare_type _, by decide⟩, bare_of_plain hparam⟩

/-- A signature that is declared can be read. -/
theorem read?_method (f : FunctionDef) : Signature.read? (method m f).text = some (method m f) :=
  Signature.read?_text (fun _ h => absurd h (Option.not_mem_none _)) (plain_methodName m f)
    (bare_paramList f).2

/-- A signature that is defined can be read. -/
theorem read?_definition (f : FunctionDef) :
    Signature.read? (definition m f).text = some (definition m f) := by
  refine Signature.read?_text (fun t ht => ?_) (plain_methodName m f) (bare_paramList f).2
  obtain rfl := Option.some.inj ht
  exact Names.plain_className m

/-! ## The header -/

/-- The text begins with a character of that kind. -/
def Begins (kind : Char → Prop) (s : String) : Prop := ∃ c cs, s.toList = c :: cs ∧ kind c

/-- How a text begins is decided at its beginning. -/
theorem Begins.append {kind : Char → Prop} {s : String} (h : Begins kind s) (t : String) :
    Begins kind (s ++ t) := by
  obtain ⟨c, cs, hchars, hc⟩ := h
  exact ⟨c, cs ++ t.toList, by rw [String.toList_append, hchars, List.cons_append], hc⟩

/-- The text begins with something else than a blank or a brace. -/
abbrev Flush : String → Prop := Begins fun c => c ≠ ' ' ∧ c ≠ '\x7d'

/-- The text begins as a type does. -/
abbrev Typed : String → Prop := Begins (· ∈ "bcdsv".toList)

theorem flush_of_typed {s : String} (h : Typed s) : Flush s := by
  obtain ⟨c, cs, hchars, hc⟩ := h
  have hblank : ' ' ∉ "bcdsv".toList := by decide
  have hbrace : '\x7d' ∉ "bcdsv".toList := by decide
  exact ⟨c, cs, hchars, fun heq => hblank (heq ▸ hc), fun heq => hbrace (heq ▸ hc)⟩

/-- Types begin with a letter of the types. -/
theorem typed_type : ∀ t : DataType, Typed (type t)
  | .boolean => ⟨'b', "ool".toList, rfl, by decide⟩
  | .number => ⟨'d', "ouble".toList, rfl, by decide⟩
  | .string => ⟨'s', "td::string".toList, rfl, by decide⟩
  | .entityId => ⟨'c', "anvasc::EntityId".toList, rfl, by decide⟩
  | .object className =>
    have h : Typed "canvasc::ObjectHandle /* " :=
      ⟨'c', "anvasc::ObjectHandle /* ".toList, rfl, by decide⟩
    (h.append (cleanName className)).append " */"

theorem typed_returnType : ∀ ps : List Param, Typed (returnType ps)
  | [] => ⟨'v', "oid".toList, rfl, by decide⟩
  | [p] => typed_type p.dataType
  | p :: q :: ps =>
    have h : Typed "std::tuple<" := ⟨'s', "td::tuple<".toList, rfl, by decide⟩
    (h.append (types (p :: q :: ps))).append ">"

theorem typed_outType (ps rs : List Param) : Typed (outType ps rs) := by
  have h : Typed "std::function<" := ⟨'s', "td::function<".toList, rfl, by decide⟩
  exact (((h.append _).append _).append _).append _

/-- No method has the result that marks a constructor. -/
theorem returnType_ne_explicit (ps : List Param) : returnType ps ≠ "explicit" := by
  intro heq
  obtain ⟨c, cs, hchars, hc⟩ := typed_returnType ps
  rw [heq] at hchars
  rw [← (List.cons.inj hchars).1] at hc
  exact absurd hc (by decide)

theorem Signature.flush_text {s : Signature} (h : Flush s.result) : Flush s.text :=
  (((((h.append _).append _).append _).append _).append _).append _

theorem Field.flush_text {f : Field} (h : Flush f.type) : Flush f.text := (h.append _).append _

/-- A line that is not empty is shown with its indentation. -/
theorem shown_of_flush {l : Line} (h : Flush l.text) (width : Nat) :
    l.shown width = String.ofList (List.replicate (l.level * width) ' ') ++ l.text := by
  obtain ⟨c, cs, hchars, _⟩ := h
  have hne : ¬ l.text.isEmpty = true := fun hempty => by
    rw [String.isEmpty_iff.mp hempty] at hchars
    exact List.cons_ne_nil c cs hchars.symm
  rw [Line.shown, if_neg hne]

/-- A line without its indentation. -/
theorem dropWhile_shown {l : Line} (h : Flush l.text) (width : Nat) :
    (l.shown width).toList.dropWhile (· = ' ') = l.text.toList := by
  have hindent : ∀ d ∈ List.replicate (l.level * width) ' ', decide (d = ' ') = true := fun d hd =>
    decide_eq_true (List.eq_of_mem_replicate hd)
  rw [shown_of_flush h, String.toList_append, String.toList_ofList,
    List.dropWhile_append_of_pos hindent]
  obtain ⟨c, cs, hchars, hblank, _⟩ := h
  rw [hchars]
  exact List.dropWhile_cons_of_neg (by simpa using hblank)

/-- A declaration can be read off its line. -/
theorem declaration?_shown {text : String} (h : Flush text) (width : Nat) :
    declaration? (Line.shown width ⟨1, text ++ ";", none⟩) = some text := by
  have hdrop := dropWhile_shown (l := ⟨1, text ++ ";", none⟩) (h.append ";") width
  unfold declaration?
  rw [hdrop]
  simp

/-- The line of a declaration does not look like the end of the class. -/
theorem shown_ne_close {text : String} (h : Flush text) (width : Nat) :
    Line.shown width ⟨1, text ++ ";", none⟩ ≠ "\x7d;" := by
  intro heq
  have hdrop := dropWhile_shown (l := ⟨1, text ++ ";", none⟩) (h.append ";") width
  obtain ⟨c, cs, hchars, _, hbrace⟩ := h
  -- the end of a class is not indented, so the two lines would begin alike
  rw [heq, String.toList_append, hchars] at hdrop
  exact hbrace (List.cons.inj hdrop).1.symm

/-- Lines inside a class that declare those texts. -/
structure Lists (width : Nat) (lines : List Line) (texts : List String) : Prop where
  ne_close : ∀ l ∈ lines, l.shown width ≠ "\x7d;"
  read : (lines.map (Line.shown width)).filterMap declaration? = texts

/-- What parts of a class list, the class lists. -/
theorem Lists.append {width : Nat} {ls rs : List Line} {ts us : List String}
    (h : Lists width ls ts) (h' : Lists width rs us) : Lists width (ls ++ rs) (ts ++ us) where
  ne_close := List.forall_mem_append.mpr ⟨h.ne_close, h'.ne_close⟩
  read := by rw [List.map_append, List.filterMap_append, h.read, h'.read]

/-- Declarations, one to a line, are listed in their order. -/
theorem lists_map {α : Type} {l : List α} {text : α → String} (width : Nat)
    (h : ∀ a ∈ l, Flush (text a)) :
    Lists width (l.map fun a => ⟨1, text a ++ ";", none⟩) (l.map text) := by
  induction l with
  | nil => exact ⟨List.forall_mem_nil _, rfl⟩
  | cons a l ih =>
    obtain ⟨ha, hl⟩ := List.forall_mem_cons.mp h
    refine ⟨List.forall_mem_cons.mpr ⟨shown_ne_close ha width, (ih hl).ne_close⟩, ?_⟩
    rw [List.map_cons, List.map_cons, List.filterMap_cons_some (declaration?_shown ha width),
      (ih hl).read, List.map_cons]

/-- The methods of a kind. -/
def methodsOf (m : Model) (k : FunctionKind) : List Signature :=
  (m.functions.filter (·.kind = k)).map (method m)

/-- The methods of a kind are listed. -/
theorem lists_methods (m : Model) (width : Nat) (k : FunctionKind) :
    Lists width (Header.methods m (Names.ofModel m) k) ((methodsOf m k).map Signature.text) := by
  have hlines : Header.methods m (Names.ofModel m) k =
      (methodsOf m k).map fun s => ⟨1, s.text ++ ";", none⟩ := by
    rw [Header.methods, methodsOf, List.map_map]
    refine List.map_congr_left fun f hf => ?_
    rw [(signature_eq (List.mem_of_mem_filter hf)).1]
    rfl
  rw [hlines]
  refine lists_map width fun s hs => ?_
  obtain ⟨f, _, rfl⟩ := List.mem_map.mp hs
  exact Signature.flush_text (flush_of_typed (typed_returnType f.returns))

theorem lists_blank (width : Nat) : Lists width [Line.blank] [] where
  ne_close := List.forall_mem_singleton.mpr (by simp [Line.shown, Line.blank])
  read := rfl

/-- The class lists its callbacks. -/
theorem lists_outs (m : Model) (width : Nat) : Lists width (Header.outs m (Names.ofModel m))
    ((m.outEvents.map (outField m)).map Field.text) := by
  have hlines := lists_map (l := m.outEvents) width fun d _ =>
    Field.flush_text (f := outField m d) (flush_of_typed (typed_outType d.params d.returns))
  unfold Header.outs
  split
  · rename_i hempty
    rw [List.isEmpty_iff.mp hempty]
    exact ⟨List.forall_mem_nil _, rfl⟩
  · rw [List.map_map]
    exact (lists_blank width).append hlines

/-- The class lists its fields, the owner first. -/
theorem lists_members (m : Model) (width : Nat) : Lists width (Header.members m (Names.ofModel m))
    ((ownerField :: m.members.map (memberField m)).map Field.text) := by
  have howner : Flush ownerField.text := Field.flush_text (flush_of_typed (typed_type .entityId))
  have hlines := lists_map (l := ownerField :: m.members.map (memberField m)) width
    (List.forall_mem_cons.mpr ⟨howner, List.forall_mem_map.mpr fun v _ =>
      Field.flush_text (flush_of_typed (typed_type v.dataType))⟩)
  rw [List.map_cons, List.map_map] at hlines
  exact hlines

/-- The constructor of the class. -/
def constructorOf (m : Model) : Signature where
  result := "explicit"
  scope := none
  name := (Names.ofModel m).className
  params := "const canvasc::RuntimeInputs& inputs"

/-- The class lists its constructor. -/
theorem lists_constructor (m : Model) (width : Nat) : Lists width
    [⟨0, "public:", none⟩, ⟨1, "explicit " ++ (Names.ofModel m).className ++
      "(const canvasc::RuntimeInputs& inputs);", none⟩] [(constructorOf m).text] := by
  have htext : "explicit " ++ (Names.ofModel m).className ++
      "(const canvasc::RuntimeInputs& inputs);" = (constructorOf m).text ++ ";" := by
    simp [constructorOf, Signature.text, String.append_assoc]
  have hexplicit : Flush "explicit" := ⟨'e', "xplicit".toList, rfl, by decide⟩
  have hflush : Flush (constructorOf m).text := Signature.flush_text hexplicit
  have hpublic : Lists width [⟨0, "public:", none⟩] [] :=
    ⟨List.forall_mem_singleton.mpr (by simp [Line.shown]), by simp [Line.shown, declaration?]⟩
  rw [htext]
  exact hpublic.append (lists_map (l := [(constructorOf m)]) width
    (List.forall_mem_singleton.mpr hflush))

/-- What stands between the braces of the class. -/
theorem lists_classBody (m : Model) (width : Nat) : Lists width (Header.classBody m)
    ((constructorOf m).text :: ((methodsOf m .entry).map Signature.text ++
      ((m.outEvents.map (outField m)).map Field.text ++
        ((methodsOf m .internal).map Signature.text ++
          (ownerField :: m.members.map (memberField m)).map Field.text)))) := by
  have hprivate : Lists width [Line.blank, ⟨0, "private:", none⟩] [] :=
    (lists_blank width).append
      ⟨List.forall_mem_singleton.mpr (by simp [Line.shown]), by simp [Line.shown, declaration?]⟩
  have hall := (((((lists_constructor m width).append (lists_methods m width .entry)).append
    (lists_outs m width)).append hprivate).append (lists_methods m width .internal)).append
    (lists_members m width)
  simpa only [Header.classBody, List.append_assoc, List.cons_append, List.nil_append] using hall

/-! ## Lines of both texts -/

/-- The banner is no line that opens or ends the class. -/
theorem inner_banner (h : OneLine m.name) : Inner (banner m).text := by
  rw [banner, String.append_assoc]
  exact inner_of_begin (by decide) (oneLine_append.mpr ⟨h, by decide⟩)

theorem inner_openNamespace {o : Options} (h : OneLine o.nativeNamespace) :
    ∀ l ∈ openNamespace o, Inner l.text := by
  have hopen : Inner ("namespace " ++ o.nativeNamespace ++ " \x7b") := by
    rw [String.append_assoc]
    exact inner_of_begin (by decide) (oneLine_append.mpr ⟨h, by decide⟩)
  unfold openNamespace
  split
  · exact List.forall_mem_nil _
  · exact List.forall_mem_cons.mpr ⟨hopen, List.forall_mem_singleton.mpr inner_blank⟩

theorem inner_closeNamespace {o : Options} (h : OneLine o.nativeNamespace) :
    ∀ l ∈ closeNamespace o, Inner l.text := by
  unfold closeNamespace
  split
  · exact List.forall_mem_nil _
  · exact List.forall_mem_singleton.mpr (inner_of_begin (by decide) h)

/-- Where a text of lines has its first brace on a line of its own. -/
theorem split_of_brace {before : List Line} (h : ∀ l ∈ before, Inner l.text) (width : Nat)
    (rest : List Line) :
    Text.split '\n' (Code.text width (before ++ ⟨0, "\x7b", none⟩ :: rest)) =
      before.map (Line.shown width) ++
        "\x7b" :: (rest.flatMap (fun l => Text.split '\n' (l.shown width)) ++ [""]) := by
  have hbrace : Text.split '\n' (Line.shown width ⟨0, "\x7b", none⟩) = ["\x7b"] := by
    rw [Line.shown_of_level width rfl]
    rfl
  rw [Code.split_text_pieces, List.flatMap_append, List.flatMap_cons,
    Code.flatMap_split_shown width fun l hl => (h l hl).oneLine, hbrace, List.append_assoc]
  rfl

/-- The class stands in one piece, and nothing before it looks like its opening. -/
theorem exists_class {o : Options} (hname : OneLine m.name) (hspace : OneLine o.nativeNamespace) :
    ∃ before : List Line, (∀ l ∈ before, Inner l.text) ∧ ∃ after, Header.lines m o =
      before ++ ⟨0, "\x7b", none⟩ :: (Header.classBody m ++ ⟨0, "\x7d;", none⟩ :: after) := by
  have hfixed : ∀ l ∈ [(⟨0, "#pragma once", none⟩ : Line), Line.blank,
      ⟨0, "#include <functional>", none⟩, ⟨0, "#include <string>", none⟩,
      ⟨0, "#include <tuple>", none⟩, ⟨0, "#include \"canvasc/runtime.h\"", none⟩, Line.blank],
      Inner l.text := by decide
  have hbanner : ∀ l ∈ [banner m], Inner l.text :=
    List.forall_mem_singleton.mpr (inner_banner hname)
  have hclass : ∀ l ∈ [(⟨0, "class " ++ (Names.ofModel m).className, none⟩ : Line)],
      Inner l.text := List.forall_mem_singleton.mpr
    (inner_of_begin (by decide) (Names.plain_className m).oneLine)
  refine ⟨_, List.forall_mem_append.mpr ⟨List.forall_mem_append.mpr ⟨hbanner, hfixed⟩,
    List.forall_mem_append.mpr ⟨inner_openNamespace hspace, hclass⟩⟩,
    Line.blank :: closeNamespace o, ?_⟩
  simp only [Header.lines, Header.classBody, List.append_assoc, List.cons_append, List.nil_append]

/-- The class in a header. -/
theorem classLines_header {o : Options} (hname : OneLine m.name)
    (hspace : OneLine o.nativeNamespace) (width : Nat) :
    classLines (Code.text width (Header.lines m o)) =
      (Header.classBody m).map (Line.shown width) := by
  obtain ⟨before, hbefore, after, hlines⟩ := exists_class hname hspace
  have hne : ∀ line ∈ before.map (Line.shown width), decide (line ≠ "\x7b") = true :=
    List.forall_mem_map.mpr fun l hl => decide_eq_true ((hbefore l hl).shown_ne width)
  have hinside : ∀ line ∈ (Header.classBody m).map (Line.shown width),
      decide (line ≠ "\x7d;") = true :=
    List.forall_mem_map.mpr fun l hl =>
      decide_eq_true ((lists_classBody m width).ne_close l hl)
  have hclose : Text.split '\n' (Line.shown width ⟨0, "\x7d;", none⟩) = ["\x7d;"] := by
    rw [Line.shown_of_level width rfl]
    rfl
  rw [classLines, hlines, split_of_brace hbefore, List.dropWhile_append_of_pos hne,
    List.dropWhile_cons_of_neg (by simp), List.drop_one, List.tail_cons, List.flatMap_append,
    Code.flatMap_split_shown width Header.oneLine_classBody, List.flatMap_cons, hclose,
    List.append_assoc, List.takeWhile_append_of_pos hinside, List.singleton_append,
    List.cons_append, List.takeWhile_cons_of_neg (by simp), List.append_nil]

/-! ## Reading the class -/

/-- What is read back from its text is read back from a list of texts. -/
theorem filterMap_map_eq_self {α β : Type} {text : α → β} {read : β → Option α} {l : List α}
    (h : ∀ a ∈ l, read (text a) = some a) : (l.map text).filterMap read = l := by
  induction l with
  | nil => rfl
  | cons a l ih =>
    obtain ⟨ha, hl⟩ := List.forall_mem_cons.mp h
    rw [List.map_cons, List.filterMap_cons_some ha, ih hl]

/-- What cannot be read leaves nothing behind. -/
theorem filterMap_map_eq_nil {α β γ : Type} {text : α → β} {read : β → Option γ} {l : List α}
    (h : ∀ a ∈ l, read (text a) = none) : (l.map text).filterMap read = [] :=
  List.filterMap_eq_nil_iff.mpr (List.forall_mem_map.mpr h)

/-- **A declared method is a declaration.** -/
theorem sublist_declaredMethods (text : String) :
    ((declaredMethods text).map Signature.text).Sublist (declarations text) := by
  have hread (ls : List String) :
      ((ls.filterMap Signature.read?).map Signature.text).Sublist ls := by
    induction ls with
    | nil => exact List.Sublist.refl _
    | cons line ls ih =>
      cases h : Signature.read? line with
      | none =>
        rw [List.filterMap_cons_none h]
        exact ih.cons line
      | some s =>
        rw [List.filterMap_cons_some h, List.map_cons, Signature.text_of_read? h]
        exact ih.cons_cons line
  exact (List.filter_sublist.map Signature.text).trans (hread _)

/-- Methods are read as methods, not as fields and not as the constructor. -/
theorem read?_of_mem_methodsOf {k : FunctionKind} : ∀ s ∈ methodsOf m k,
    Signature.read? s.text = some s ∧ Field.read? s.text = none ∧ s.result ≠ "explicit" := by
  intro s hs
  obtain ⟨f, _, rfl⟩ := List.mem_map.mp hs
  exact ⟨read?_method f, Field.read?_of_close _, returnType_ne_explicit f.returns⟩

/-- Fields have plain names. -/
theorem plain_of_mem_fields :
    (∀ f ∈ m.outEvents.map (outField m), Names.Plain f.name) ∧
      ∀ f ∈ ownerField :: m.members.map (memberField m), Names.Plain f.name :=
  ⟨List.forall_mem_map.mpr fun d _ => Names.plain_out m d.name,
    List.forall_mem_cons.mpr ⟨by decide, List.forall_mem_map.mpr fun v _ =>
      Names.plain_member m v.id⟩⟩

section Header

variable {o : Options} (hname : OneLine m.name) (hspace : OneLine o.nativeNamespace) (width : Nat)
include hname hspace

/-- **The declarations of the class**, in their order. -/
theorem declarations_header : declarations (Code.text width (Header.lines m o)) =
    (constructorOf m).text :: ((methodsOf m .entry).map Signature.text ++
      ((m.outEvents.map (outField m)).map Field.text ++
        ((methodsOf m .internal).map Signature.text ++
          (ownerField :: m.members.map (memberField m)).map Field.text))) := by
  rw [declarations, classLines_header hname hspace, (lists_classBody m width).read]

/-- **The methods of a header**: those for entries, then those for helpers. -/
theorem declaredMethods_header : declaredMethods (Code.text width (Header.lines m o)) =
    methodsOf m .entry ++ methodsOf m .internal := by
  have hconstructor : Signature.read? (constructorOf m).text = some (constructorOf m) :=
    Signature.read?_text (fun _ h => absurd h (Option.not_mem_none _)) (Names.plain_className m)
      (by decide : '(' ∉ "const canvasc::RuntimeInputs& inputs".toList)
  have hmethods (k : FunctionKind) :
      ((methodsOf m k).map Signature.text).filterMap Signature.read? = methodsOf m k :=
    filterMap_map_eq_self fun s hs => (read?_of_mem_methodsOf s hs).1
  have hfields {l : List Field} (h : ∀ f ∈ l, Names.Plain f.name) :
      (l.map Field.text).filterMap Signature.read? = [] :=
    filterMap_map_eq_nil fun f hf => Signature.read?_field (h f hf)
  rw [declaredMethods, declarations_header hname hspace, List.filterMap_cons_some hconstructor]
  simp only [List.filterMap_append, hmethods, hfields plain_of_mem_fields.1,
    hfields plain_of_mem_fields.2, List.nil_append, List.append_nil]
  rw [List.filter_cons_of_neg (by simp [constructorOf]), List.filter_eq_self]
  intro s hs
  rcases List.mem_append.mp hs with h | h
  · exact decide_eq_true (read?_of_mem_methodsOf s h).2.2
  · exact decide_eq_true (read?_of_mem_methodsOf s h).2.2

/-- **The fields of a header**: those for out-events, then the owner and the variables. -/
theorem declaredFields_header : declaredFields (Code.text width (Header.lines m o)) =
    m.outEvents.map (outField m) ++ ownerField :: m.members.map (memberField m) := by
  have hconstructor : Field.read? (constructorOf m).text = none := Field.read?_of_close _
  have hmethods (k : FunctionKind) :
      ((methodsOf m k).map Signature.text).filterMap Field.read? = [] :=
    filterMap_map_eq_nil fun s hs => (read?_of_mem_methodsOf s hs).2.1
  have hfields {l : List Field} (h : ∀ f ∈ l, Names.Plain f.name) :
      (l.map Field.text).filterMap Field.read? = l :=
    filterMap_map_eq_self fun f hf => Field.read?_text (h f hf)
  rw [declaredFields, declarations_header hname hspace, List.filterMap_cons_none hconstructor]
  simp only [List.filterMap_append, hmethods, hfields plain_of_mem_fields.1,
    hfields plain_of_mem_fields.2, List.nil_append]

end Header

end GraphScript.Emit.Native
