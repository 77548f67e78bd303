import GraphScript.Proofs.Emit.ClassLines
import GraphScript.Proofs.Id.Token

/-!
# Proofs/Emit/SourceLines — the class in a native source, read back

A source is read as a reader of the language would: a method is defined on the line above a brace
that stands alone (`definedMethods`), and the constructor, which comes first, sets fields before its
own brace (`initializedFields`).  Read like that, a source defines a method for each function and
sets the owner and each variable (`definedMethods_source`, `initializedFields_source`).
-/

namespace GraphScript.Emit.Native

open Header (inWord inWord_of_mem notMem_type)
open Source (Inner inner_of_begin exists_body plain_methodName)
open Text (OneLine oneLine_append)

/-! ## Reading a source -/

/-- The signatures on lines right above a brace on a line of its own. -/
def definedIn : List String → List Signature
  | above :: line :: rest =>
    (if line = "\x7b" then (Signature.read? above).toList else []) ++ definedIn (line :: rest)
  | _ => []

/-- The methods that a text defines. -/
def definedMethods (text : String) : List Signature := definedIn (Text.split '\n' text)

/-- The field that an initializer sets: from the owner, whose type is fixed, or from an input of the
type it asks for. -/
def initializer? (chars : List Char) : Option Field :=
  let name := String.ofList (chars.takeWhile inWord)
  let value := chars.dropWhile inWord
  if value = "(inputs.Owner())".toList then some ⟨"canvasc::EntityId", name⟩
  else if "(inputs.Get<".toList.isPrefixOf value then
    some ⟨String.ofList ((value.drop 12).takeWhile (· ≠ '>')), name⟩
  else none

/-- The field that a line of an initializer list sets. -/
def initialized? (line : String) : Option Field :=
  match line.toList.dropWhile (· = ' ') with
  | ':' :: ' ' :: chars | ',' :: ' ' :: chars => initializer? chars
  | _ => none

/-- The fields that the first constructor in a text sets before its body. -/
def initializedFields (text : String) : List Field :=
  ((Text.split '\n' text).takeWhile (· ≠ "\x7b")).filterMap initialized?

variable {m : Model}

/-! ## Definitions among lines -/

/-- Nothing is defined above a line that opens no body. -/
theorem definedIn_cons_of_ne {above line : String} (h : line ≠ "\x7b") (rest : List String) :
    definedIn (above :: line :: rest) = definedIn (line :: rest) := by
  rw [definedIn, if_neg h, List.nil_append]

/-- Lines that are no brace define nothing. -/
theorem definedIn_append_of_ne {rest : List String} {ss : List Signature}
    (h : ∀ above, definedIn (above :: rest) = ss) {lines : List String}
    (hne : ∀ line ∈ lines, line ≠ "\x7b") :
    ∀ above, definedIn (above :: (lines ++ rest)) = ss := by
  induction lines with
  | nil => exact h
  | cons line lines ih =>
    obtain ⟨hline, hlines⟩ := List.forall_mem_cons.mp hne
    intro above
    rw [List.cons_append, definedIn_cons_of_ne hline, ih hlines]

/-- Lines that are no signatures define nothing, even above a brace. -/
theorem definedIn_of_unread {above : String} (habove : Signature.read? above = none)
    {lines : List String} (h : ∀ line ∈ lines, line ≠ "\x7b" ∧ Signature.read? line = none)
    (rest : List String) :
    definedIn (above :: (lines ++ "\x7b" :: rest)) = definedIn ("\x7b" :: rest) := by
  induction lines generalizing above with
  | nil => rw [List.nil_append, definedIn, if_pos rfl, habove, Option.toList_none, List.nil_append]
  | cons line lines ih =>
    obtain ⟨⟨hne, hread⟩, hlines⟩ := List.forall_mem_cons.mp h
    rw [List.cons_append, definedIn_cons_of_ne hne, ih hread hlines]

/-- **A definition is a line of its text.** -/
theorem sublist_definedIn : ∀ lines : List String,
    ((definedIn lines).map Signature.text).Sublist lines
  | [] => List.Sublist.refl _
  | [line] => List.nil_sublist _
  | above :: line :: rest => by
    have ih := sublist_definedIn (line :: rest)
    rw [definedIn, List.map_append]
    split
    · cases hread : Signature.read? above with
      | none => exact ih.cons above
      | some s =>
        have htext := Signature.text_of_read? hread
        rw [Option.toList_some, List.map_singleton, htext, List.singleton_append]
        exact ih.cons_cons above
    · exact ih.cons above

/-! ## The constructor of the source -/

/-- The line that initialises the owner. -/
def ownerLine : Line := ⟨1, ": m_owner(inputs.Owner())", none⟩

/-- The lines of the initializer list. -/
def initLines (m : Model) : List Line :=
  ownerLine :: m.members.map (Source.memberLine (Names.ofModel m))

theorem open_notMem_literal (v : VariableId) :
    '(' ∉ (Literal.string .native v.token).toList := by
  have hdigits : ∀ n < 16, '(' ∉ Literal.escaped .native (Nat.digitChar n) := by decide
  intro hm
  simp only [Literal.string, Literal.stringChars, VariableId.token, String.toList_ofList,
    List.cons_append, List.mem_cons, List.mem_append, List.mem_flatMap] at hm
  rcases hm with hm | ⟨c, hc, hm⟩ | hm
  · exact absurd hm (by decide)
  · obtain ⟨n, hn, rfl⟩ := VariableId.exists_digit_of_mem_digits hc
    exact hdigits n hn hm
  · exact absurd hm (by decide)

/-- Setting a field from the inputs can be read. -/
theorem initializer?_member (v : VariableDef) (rest : List Char) :
    initializer? (((Names.ofModel m).member v.id).toList ++ ("(inputs.Get<".toList ++
      ((type v.dataType).toList ++ '>' :: rest))) = some (memberField m v) := by
  have hword : ∀ c ∈ ((Names.ofModel m).member v.id).toList, inWord c = true :=
    inWord_of_mem (Names.plain_member m v.id)
  have htype : ∀ c ∈ (type v.dataType).toList, decide (c ≠ '>') = true := fun c hc =>
    decide_eq_true fun heq => notMem_type rfl v.dataType (heq ▸ hc)
  have hstop (value : List Char) : ("(inputs.Get<".toList ++ value).takeWhile inWord = [] ∧
      ("(inputs.Get<".toList ++ value).dropWhile inWord = "(inputs.Get<".toList ++ value :=
    ⟨rfl, rfl⟩
  have howner (value : List Char) :
      "(inputs.Get<".toList ++ value ≠ "(inputs.Owner())".toList := by
    intro heq
    -- the calls differ in their ninth character, whatever follows
    have hstart : "(inputs.G".toList = "(inputs.O".toList := congrArg (List.take 9) heq
    exact absurd hstart (by decide)
  have hget (value : List Char) :
      "(inputs.Get<".toList.isPrefixOf ("(inputs.Get<".toList ++ value) = true :=
    List.isPrefixOf_iff_prefix.mpr (List.prefix_append _ _)
  have hdrop (value : List Char) : ("(inputs.Get<".toList ++ value).drop 12 = value :=
    List.drop_left' rfl
  rw [initializer?, List.takeWhile_append_of_pos hword, List.dropWhile_append_of_pos hword,
    (hstop _).1, (hstop _).2, if_neg (howner _), if_pos (hget _), hdrop,
    List.takeWhile_append_of_pos htype, List.takeWhile_cons_of_neg (by simp), List.append_nil,
    List.append_nil, String.ofList_toList, String.ofList_toList]
  rfl

theorem flush_ownerLine : Flush ownerLine.text :=
  ⟨':', " m_owner(inputs.Owner())".toList, rfl, by decide⟩

theorem flush_memberLine (v : VariableDef) :
    Flush (Source.memberLine (Names.ofModel m) v).text := by
  have hcomma : Flush ", " := ⟨',', [' '], rfl, by decide⟩
  exact (((((hcomma.append _).append _).append _).append _).append _).append _

/-- So it can from its line. -/
theorem initialized?_shown (width : Nat) (v : VariableDef) :
    initialized? (Line.shown width (Source.memberLine (Names.ofModel m) v)) =
      some (memberField m v) := by
  have hchars : (Source.memberLine (Names.ofModel m) v).text.toList =
      ',' :: ' ' :: (((Names.ofModel m).member v.id).toList ++ ("(inputs.Get<".toList ++
        ((type v.dataType).toList ++
          '>' :: ('(' :: (Literal.string .native v.id.token).toList ++ "))".toList)))) := by
    simp [Source.memberLine, String.toList_append, List.append_assoc]
  unfold initialized?
  rw [dropWhile_shown (flush_memberLine v), hchars]
  exact initializer?_member v _

/-- The fields that are set can be read off the lines, the owner's first. -/
theorem filterMap_initLines (width : Nat) :
    ((initLines m).map (Line.shown width)).filterMap initialized? =
      ownerField :: m.members.map (memberField m) := by
  have howner : initialized? (ownerLine.shown width) = some ownerField := by
    unfold initialized?
    rw [dropWhile_shown flush_ownerLine]
    rfl
  rw [initLines, List.map_cons, List.filterMap_cons_some howner, List.map_map, List.filterMap_map]
  have hread : initialized? ∘ Line.shown width ∘ Source.memberLine (Names.ofModel m) =
      some ∘ memberField m := funext (initialized?_shown width)
  rw [hread, List.filterMap_eq_map]

/-- An initializer is no signature. -/
theorem read?_initLines (width : Nat) :
    ∀ l ∈ initLines m, Signature.read? (l.shown width) = none := by
  refine List.forall_mem_cons.mpr ⟨?_, List.forall_mem_map.mpr fun v _ => ?_⟩
  · have hline : ownerLine.shown width =
        String.ofList (List.replicate (1 * width) ' ') ++ ": m_owner(inputs" ++
          String.ofList ['.'] ++ "Owner" ++ "(" ++ ")" ++ ")" := by
      rw [shown_of_flush flush_ownerLine]
      simp only [String.append_assoc]
      rfl
    rw [hline]
    exact Signature.read?_of_sign rfl (by decide) _ (by decide) (by decide)
  · have hline : Line.shown width (Source.memberLine (Names.ofModel m) v) =
        String.ofList (List.replicate (1 * width) ' ') ++ (", " ++ (Names.ofModel m).member v.id ++
          "(inputs.Get<" ++ type v.dataType) ++ String.ofList ['>'] ++ "" ++ "(" ++
          (Literal.string .native v.id.token ++ ")") ++ ")" := by
      rw [shown_of_flush (flush_memberLine v)]
      simp [Source.memberLine, String.append_assoc]
    have hparams : '(' ∉ (Literal.string .native v.id.token ++ ")").toList := by
      rw [String.toList_append, List.mem_append, not_or]
      exact ⟨open_notMem_literal v.id, by decide⟩
    rw [hline]
    exact Signature.read?_of_sign rfl (by decide) _ (by decide) hparams

/-- Lines that set fields open no body. -/
theorem inner_initLines : ∀ l ∈ initLines m, Inner l.text := by
  refine List.forall_mem_cons.mpr ⟨by decide, List.forall_mem_map.mpr fun v _ => ?_⟩
  have hrest : OneLine ((Names.ofModel m).member v.id ++ ("(inputs.Get<" ++ (type v.dataType ++
      (">(" ++ (Literal.string .native v.id.token ++ "))"))))) := by
    simp only [oneLine_append]
    exact ⟨(Names.plain_member m v.id).oneLine, by decide, (Header.bare_type v.dataType).1,
      by decide, Literal.oneLine_string .native v.id.token, by decide⟩
  have hline := inner_of_begin (s := ", ") (by decide) hrest
  simp only [← String.append_assoc] at hline
  exact hline

/-! ## The source -/

/-- A line that begins with neither a colon nor a comma sets no field. -/
theorem initialized?_append {s : String} {c : Char} (hs : s.toList.head? = some c)
    (hc : c ∉ " :,".toList) (t : String) : initialized? (s ++ t) = none := by
  obtain ⟨cs, hchars⟩ := List.head?_eq_some_iff.mp hs
  have hdrop : (c :: (cs ++ t.toList)).dropWhile (· = ' ') = c :: (cs ++ t.toList) := by
    refine List.dropWhile_cons_of_neg fun h => hc ?_
    rw [of_decide_eq_true h]
    decide
  unfold initialized?
  rw [String.toList_append, hchars, List.cons_append, hdrop]
  split
  · rename_i heq
    exact absurd ((List.cons.inj heq).1 ▸ (by decide : ':' ∈ " :,".toList)) hc
  · rename_i heq
    exact absurd ((List.cons.inj heq).1 ▸ (by decide : ',' ∈ " :,".toList)) hc
  · rfl

/-- The text of the line that opens the constructor. -/
def constructorHead (m : Model) : String :=
  (Names.ofModel m).className ++ "::" ++ (Names.ofModel m).className ++
    "(const canvasc::RuntimeInputs& inputs)"

/-- The lines between the first line of the source and its constructor. -/
def preamble (m : Model) (o : Options) : List Line :=
  [⟨0, "#include \"" ++ cleanName m.name ++ ".h\"", none⟩, Line.blank,
    ⟨0, "#include <limits>", none⟩, Line.blank] ++ openNamespace o

/-- The lines below the brace that opens the constructor. -/
def below (m : Model) (o : Options) : List Line :=
  [⟨0, "\x7d", none⟩, Line.blank] ++
    (m.functions.flatMap (Source.function m (Names.ofModel m) o) ++ closeNamespace o)

/-- The source is what stands above the body of the constructor, and what stands below. -/
theorem lines_source (m : Model) (o : Options) : Source.lines m o =
    (banner m :: (preamble m o ++ ⟨0, constructorHead m, none⟩ :: initLines m)) ++
      ⟨0, "\x7b", none⟩ :: below m o := by
  simp only [Source.lines, Source.constructor, preamble, constructorHead, initLines, ownerLine,
    below, List.append_assoc, List.cons_append, List.nil_append]

theorem inner_constructorHead : Inner (constructorHead m) := by
  obtain ⟨r, hr⟩ := Names.exists_className m
  have hclass := (Names.plain_className m).oneLine
  have hrest : OneLine (r ++ ("::" ++ ((Names.ofModel m).className ++
      "(const canvasc::RuntimeInputs& inputs)"))) := by
    rw [hr, oneLine_append] at hclass
    simp only [oneLine_append, hr]
    exact ⟨hclass.2, by decide, hclass, by decide⟩
  have hline := inner_of_begin (s := "cls_") (by decide) hrest
  simp only [← String.append_assoc, ← hr] at hline
  exact hline

/-- The constructor is no method. -/
theorem read?_constructorHead : Signature.read? (constructorHead m) = none := by
  have htext : constructorHead m = (Names.ofModel m).className ++ "::" ++
      (Names.ofModel m).className ++ "(" ++ "const canvasc::RuntimeInputs& inputs" ++ ")" := by
    simp only [constructorHead, String.append_assoc]
    rfl
  rw [htext]
  exact Signature.read?_constructor (Names.plain_className m) (by decide)

theorem inner_preamble {o : Options} (hspace : OneLine o.nativeNamespace) :
    ∀ l ∈ preamble m o, Inner l.text := by
  have hinclude : Inner ("#include \"" ++ cleanName m.name ++ ".h\"") := by
    rw [String.append_assoc]
    exact inner_of_begin (by decide)
      (oneLine_append.mpr ⟨(Names.plain_cleanName m.name).oneLine, by decide⟩)
  have hlimits : ∀ l ∈ [Line.blank, ⟨0, "#include <limits>", none⟩, Line.blank], Inner l.text := by
    decide
  exact List.forall_mem_append.mpr
    ⟨List.forall_mem_cons.mpr ⟨hinclude, hlimits⟩, inner_openNamespace hspace⟩

/-- A line that is not indented and sets no field. -/
def Outside (l : Line) : Prop := l.level = 0 ∧ initialized? l.text = none

/-- What is outside the constructor sets no field. -/
theorem Outside.shown {l : Line} (h : Outside l) (width : Nat) :
    initialized? (l.shown width) = none := by
  rw [Line.shown_of_level width h.1, h.2]

theorem outside_blank : Outside Line.blank := ⟨rfl, rfl⟩

theorem outside_banner : Outside (banner m) := by
  refine ⟨rfl, ?_⟩
  rw [banner, String.append_assoc]
  exact initialized?_append (c := '/') rfl (by decide) _

/-- The head of the constructor sets none. -/
theorem outside_constructorHead : Outside ⟨0, constructorHead m, none⟩ := by
  obtain ⟨r, hr⟩ := Names.exists_className m
  have htext : constructorHead m = "cls_" ++ (r ++ "::" ++ (Names.ofModel m).className ++
      "(const canvasc::RuntimeInputs& inputs)") := by
    simp only [constructorHead, hr, String.append_assoc]
  refine ⟨rfl, ?_⟩
  rw [htext]
  exact initialized?_append (c := 'c') rfl (by decide) _

theorem outside_preamble (o : Options) : ∀ l ∈ preamble m o, Outside l := by
  have hinclude : Outside ⟨0, "#include \"" ++ cleanName m.name ++ ".h\"", none⟩ := by
    refine ⟨rfl, ?_⟩
    rw [String.append_assoc]
    exact initialized?_append (c := '#') rfl (by decide) _
  have hlimits : Outside ⟨0, "#include <limits>", none⟩ := ⟨rfl, rfl⟩
  have hnamespace : ∀ l ∈ openNamespace o, Outside l := by
    unfold openNamespace
    split
    · exact List.forall_mem_nil _
    · refine List.forall_mem_cons.mpr ⟨⟨rfl, ?_⟩, List.forall_mem_singleton.mpr outside_blank⟩
      rw [String.append_assoc]
      exact initialized?_append (c := 'n') rfl (by decide) _
  refine List.forall_mem_append.mpr ⟨?_, hnamespace⟩
  simp only [List.forall_mem_cons]
  exact ⟨hinclude, outside_blank, hlimits, outside_blank, List.forall_mem_nil _⟩

theorem oneLine_definition (f : FunctionDef) : OneLine (definition m f).text := by
  have hscope : OneLine ((Names.ofModel m).className ++ "::") :=
    oneLine_append.mpr ⟨(Names.plain_className m).oneLine, by decide⟩
  have htext : (definition m f).text = returnType f.returns ++ " " ++
      ((Names.ofModel m).className ++ "::") ++ methodName (Names.ofModel m) f ++ "(" ++
      paramList m f ++ ")" := rfl
  rw [htext]
  simp only [oneLine_append] at hscope ⊢
  exact ⟨⟨⟨⟨⟨⟨(Header.bare_returnType f.returns).1, by decide⟩, hscope⟩,
    (plain_methodName m f).oneLine⟩, by decide⟩, (bare_paramList f).1⟩, by decide⟩

/-- The lines below are lines. -/
theorem oneLine_below {o : Options} (hspace : OneLine o.nativeNamespace) :
    ∀ l ∈ below m o, OneLine l.text := by
  have hfunctions : ∀ l ∈ m.functions.flatMap (Source.function m (Names.ofModel m) o),
      OneLine l.text := by
    intro l hl
    obtain ⟨f, hf, hmem⟩ := List.mem_flatMap.mp hl
    obtain ⟨body, hbody, hfunction⟩ := exists_body hf o
    rw [hfunction, (signature_eq hf).2] at hmem
    rcases List.mem_cons.mp hmem with rfl | hmem
    · exact oneLine_definition f
    rcases List.mem_cons.mp hmem with rfl | hmem
    · exact (by decide : OneLine "\x7b")
    · exact (hbody l hmem).oneLine
  exact List.forall_mem_append.mpr ⟨by decide, List.forall_mem_append.mpr
    ⟨hfunctions, fun l hl => (inner_closeNamespace hspace l hl).oneLine⟩⟩

/-- **The methods among lines of functions**: each stands above the brace that opens its body. -/
theorem definedIn_functions (o : Options) (width : Nat) {below : List String}
    (hbelow : ∀ line ∈ below, line ≠ "\x7b") {fs : List FunctionDef}
    (hfs : ∀ f ∈ fs, f ∈ m.functions) : ∀ above, definedIn (above ::
      ((fs.flatMap (Source.function m (Names.ofModel m) o)).map (Line.shown width) ++ below)) =
      fs.map (definition m) := by
  induction fs with
  | nil =>
    have hend := definedIn_append_of_ne (fun _ => rfl : ∀ above, definedIn [above] = []) hbelow
    rw [List.append_nil] at hend
    exact hend
  | cons f fs ih =>
    obtain ⟨hf, hrest⟩ := List.forall_mem_cons.mp hfs
    obtain ⟨body, hbody, hfunction⟩ := exists_body hf o
    have hne : (definition m f).text ≠ "\x7b" := by
      intro heq
      have hread := read?_definition (m := m) f
      rw [heq] at hread
      exact absurd hread (by simp [Signature.read?])
    have hinside : ∀ line ∈ body.map (Line.shown width), line ≠ "\x7b" :=
      List.forall_mem_map.mpr fun l hl => (hbody l hl).shown_ne width
    -- the signature stands right above the first brace, and the body has none of its own
    intro above
    rw [List.flatMap_cons, hfunction, (signature_eq hf).2, List.map_append, List.map_cons,
      List.map_cons, Line.shown_of_level width rfl, Line.shown_of_level width rfl,
      List.cons_append, List.cons_append, List.cons_append, List.cons_append,
      definedIn_cons_of_ne hne, definedIn, if_pos rfl, read?_definition, Option.toList_some,
      List.append_assoc, definedIn_append_of_ne (ih hrest) hinside, List.singleton_append,
      List.map_cons]

/-- **Below the constructor, the functions of the model are defined in their order.** -/
theorem definedIn_below {o : Options} (hspace : OneLine o.nativeNamespace) (width : Nat)
    (above : String) : definedIn (above :: ((below m o).map (Line.shown width) ++ [""])) =
      m.functions.map (definition m) := by
  have hclose : ∀ line ∈ (closeNamespace o).map (Line.shown width) ++ [""], line ≠ "\x7b" :=
    List.forall_mem_append.mpr ⟨List.forall_mem_map.mpr fun l hl =>
      (inner_closeNamespace hspace l hl).shown_ne width, by decide⟩
  have hopen : ∀ line ∈ [⟨0, "\x7d", none⟩, Line.blank].map (Line.shown width), line ≠ "\x7b" :=
    List.forall_mem_map.mpr fun l hl => by
      have hinner : ∀ l ∈ [⟨0, "\x7d", none⟩, Line.blank], Inner l.text := by decide
      exact (hinner l hl).shown_ne width
  rw [below, List.map_append, List.map_append, List.append_assoc, List.append_assoc]
  exact definedIn_append_of_ne (definedIn_functions o width hclose fun f hf => hf) hopen above

section Source

variable {o : Options} (hname : OneLine m.name) (hspace : OneLine o.nativeNamespace) (width : Nat)
include hname hspace

/-- Nothing above opens a body. -/
theorem inner_above : ∀ l ∈ banner m :: (preamble m o ++
    ⟨0, constructorHead m, none⟩ :: initLines m), Inner l.text :=
  List.forall_mem_cons.mpr ⟨inner_banner hname, List.forall_mem_append.mpr
    ⟨inner_preamble hspace, List.forall_mem_cons.mpr ⟨inner_constructorHead, inner_initLines⟩⟩⟩

/-- The source, split into its lines. -/
theorem split_source : Text.split '\n' (Code.text width (Source.lines m o)) =
    (banner m :: (preamble m o ++ ⟨0, constructorHead m, none⟩ :: initLines m)).map
      (Line.shown width) ++ "\x7b" :: ((below m o).map (Line.shown width) ++ [""]) := by
  rw [lines_source, split_of_brace (inner_above hname hspace),
    Code.flatMap_split_shown width (oneLine_below hspace)]

/-- **The fields that the constructor sets**: the owner, then the variables. -/
theorem initializedFields_source : initializedFields (Code.text width (Source.lines m o)) =
    ownerField :: m.members.map (memberField m) := by
  have hne : ∀ line ∈ (banner m :: (preamble m o ++ ⟨0, constructorHead m, none⟩ ::
      initLines m)).map (Line.shown width), decide (line ≠ "\x7b") = true :=
    List.forall_mem_map.mpr fun l hl =>
      decide_eq_true ((inner_above hname hspace l hl).shown_ne width)
  have hpreamble : ((preamble m o).map (Line.shown width)).filterMap initialized? = [] :=
    filterMap_map_eq_nil fun l hl => (outside_preamble o l hl).shown width
  rw [initializedFields, split_source hname hspace, List.takeWhile_append_of_pos hne,
    List.takeWhile_cons_of_neg (by simp), List.append_nil, List.map_cons,
    List.filterMap_cons_none (outside_banner.shown width), List.map_append, List.filterMap_append,
    hpreamble, List.nil_append, List.map_cons,
    List.filterMap_cons_none (outside_constructorHead.shown width), filterMap_initLines]

/-- **The methods of a source**, in the order of the functions. -/
theorem definedMethods_source : definedMethods (Code.text width (Source.lines m o)) =
    m.functions.map (definition m) := by
  have hinits : ∀ line ∈ (initLines m).map (Line.shown width),
      line ≠ "\x7b" ∧ Signature.read? line = none := List.forall_mem_map.mpr fun l hl =>
    ⟨(inner_initLines l hl).shown_ne width, read?_initLines width l hl⟩
  have hpreamble : ∀ line ∈ (preamble m o).map (Line.shown width), line ≠ "\x7b" :=
    List.forall_mem_map.mpr fun l hl => (inner_preamble hspace l hl).shown_ne width
  have hconstructor (rest : List String) (above : String) :
      definedIn (above :: constructorHead m ::
        ((initLines m).map (Line.shown width) ++ "\x7b" :: rest)) = definedIn ("\x7b" :: rest) := by
    rw [definedIn_cons_of_ne inner_constructorHead.ne_brace,
      definedIn_of_unread read?_constructorHead hinits]
  rw [definedMethods, split_source hname hspace, List.map_cons, List.map_append, List.map_cons,
    Line.shown_of_level width (l := ⟨0, constructorHead m, none⟩) rfl, List.cons_append,
    List.append_assoc, List.cons_append, definedIn_append_of_ne (hconstructor _) hpreamble,
    definedIn_below hspace]

end Source

end GraphScript.Emit.Native
