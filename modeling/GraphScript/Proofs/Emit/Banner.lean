import GraphScript.Emit.Header
import GraphScript.Proofs.Emit.Bodies
import GraphScript.Proofs.Emit.Chunk

/-!
# Proofs/Emit/Banner — the comment that carries the name of a graph

Each target opens with a comment that holds the name of the graph as it is, and goes on with a line
of its own right below.  The comment breaks where the name does: what follows a line feed of the
name stands on a line without the mark of a comment (`Opens.escaped`).  So the comment takes one
line, and the target goes on in the second, exactly if the name stands on one line
(`name_contained_iff`); and no name keeps a model from being valid.
-/

namespace GraphScript.Emit

open Text (OneLine oneLine_append)

/-- What follows the name in the comment. -/
def notice : String := ": generated by canvasc, do not edit"

/-- The comment that carries a name, after the mark of comments. -/
def comment (mark name : String) : String := mark ++ name ++ notice

/-- How a text opens: with the comment of a name, and with `next` right below it. -/
structure Opens (text mark name next : String) : Prop where
  /-- The comment stands there in its pieces. -/
  lines : ∃ rest, Text.split '\n' text = Text.split '\n' (comment mark name) ++ next :: rest
  /-- It takes one line more than the name has line feeds. -/
  height : (Text.split '\n' (comment mark name)).length = name.toList.count '\n' + 1
  /-- What follows a line feed stands on lines without the mark. -/
  escaped : ∀ before after, OneLine before → name = before ++ "\n" ++ after → ∃ rest,
    Text.split '\n' text =
      (mark ++ before) :: (Text.split '\n' (after ++ notice) ++ next :: rest)
  /-- It stands on one line, and `next` on the second, exactly if the name stands on one line. -/
  contained_iff : (∃ rest, Text.split '\n' text = comment mark name :: next :: rest) ↔ OneLine name

section Comment

variable {mark name : String} (hmark : OneLine mark)

theorem oneLine_notice : OneLine notice := by decide

include hmark

/-- The comment stands on one line if the name does. -/
theorem oneLine_comment : OneLine (comment mark name) ↔ OneLine name := by
  simp only [comment, oneLine_append, hmark, oneLine_notice, true_and, and_true]

/-- The comment has as many line feeds as the name. -/
theorem count_comment : (comment mark name).toList.count '\n' = name.toList.count '\n' := by
  have hbefore : mark.toList.count '\n' = 0 := List.count_eq_zero.mpr hmark
  have hafter : notice.toList.count '\n' = 0 := List.count_eq_zero.mpr oneLine_notice
  rw [comment, String.toList_append, String.toList_append, List.count_append, List.count_append,
    hbefore, hafter, Nat.zero_add, Nat.add_zero]

/-- A line feed in the name ends the comment there, and the rest of the name stands on a line of its
own. -/
theorem split_comment {before after : String} (hbefore : OneLine before)
    (hname : name = before ++ "\n" ++ after) :
    Text.split '\n' (comment mark name) =
      (mark ++ before) :: Text.split '\n' (after ++ notice) := by
  have htext : comment mark name = (mark ++ before) ++ "\n" ++ (after ++ notice) := by
    simp only [comment, hname, String.append_assoc]
  rw [htext, Text.split_append_lineFeed,
    Text.split_of_oneLine (oneLine_append.mpr ⟨hmark, hbefore⟩), List.singleton_append]

/-- **Lines that begin with the comment of a name** open with it, and with the line below. -/
theorem opens_of_lines (width : Nat) {next : Line} (hlevel : next.level = 0)
    (hnext : OneLine next.text) (below : List Line) :
    Opens (Code.text width (⟨0, comment mark name, none⟩ :: next :: below)) mark name
      next.text := by
  have hlines : ∃ rest, Text.split '\n'
      (Code.text width (⟨0, comment mark name, none⟩ :: next :: below)) =
        Text.split '\n' (comment mark name) ++ next.text :: rest := by
    rw [Code.split_text_pieces, List.flatMap_cons, List.flatMap_cons,
      Line.shown_of_level width rfl, Line.shown_of_level width hlevel,
      Text.split_of_oneLine hnext, List.append_assoc, List.append_assoc, List.singleton_append]
    exact ⟨_, rfl⟩
  refine ⟨hlines, ?_, fun before after hbefore hname => ?_, ?_, fun hname => ?_⟩
  · rw [Text.length_split, count_comment hmark]
  · obtain ⟨rest, hsplit⟩ := hlines
    rw [split_comment hmark hbefore hname, List.cons_append] at hsplit
    exact ⟨rest, hsplit⟩
  · rintro ⟨rest, hfirst⟩
    -- the first line of a text has no line feed, and here it is the whole comment
    have hmem := hfirst ▸ List.mem_cons_self (a := comment mark name)
    exact (oneLine_comment hmark).mp (Text.oneLine_of_mem_split hmem)
  · obtain ⟨rest, hsplit⟩ := hlines
    rw [Text.split_of_oneLine ((oneLine_comment hmark).mpr hname)] at hsplit
    exact ⟨rest, hsplit⟩

end Comment

/-! ## The three targets -/

/-- Being valid does not depend on the name. -/
theorem isValid_rename (m : Model) (name : String) :
    ({ m with name } : Model).isValid = m.isValid := by
  rw [Bool.eq_iff_iff, Model.isValid_iff, Model.isValid_iff]
  constructor
  · rintro ⟨hmembers, hnames, hstatements, horder⟩
    exact ⟨hmembers, hnames, hstatements, horder⟩
  · rintro ⟨hmembers, hnames, hstatements, horder⟩
    exact ⟨hmembers, hnames, hstatements, horder⟩

variable {m : Model} {o : Options} {e : Emission}

/-- Script text opens with its comment. -/
theorem Script.opens (h : Script.emit m o = .ok e) :
    Opens e.text "-- " m.name ("local " ++ (Names.ofModel m).className ++ " = \x7b\x7d") := by
  obtain ⟨order, -, htext, -⟩ := Script.emit_ok h
  have hlines : ∃ below, Script.lines m o order = ⟨0, comment "-- " m.name, none⟩ ::
      ⟨0, "local " ++ (Names.ofModel m).className ++ " = \x7b\x7d", none⟩ :: below := by
    simp only [Script.lines, Script.opening, List.cons_append]
    exact ⟨_, rfl⟩
  obtain ⟨below, hbelow⟩ := hlines
  rw [htext, hbelow]
  refine opens_of_lines (by decide) o.indentWidth rfl ?_ below
  exact oneLine_append.mpr ⟨oneLine_append.mpr ⟨by decide, (Names.plain_className m).oneLine⟩,
    by decide⟩

/-- Native source opens with its comment. -/
theorem Source.opens (h : Source.emit m o = .ok e) :
    Opens e.text "// " m.name ("#include \"" ++ cleanName m.name ++ ".h\"") := by
  obtain ⟨-, inputs, -, heq⟩ := Source.emit_eq_ok_iff.mp h
  have hlines : ∃ below, Source.lines m o = ⟨0, comment "// " m.name, none⟩ ::
      ⟨0, "#include \"" ++ cleanName m.name ++ ".h\"", none⟩ :: below := by
    simp only [Source.lines, Native.banner, List.cons_append]
    exact ⟨_, rfl⟩
  obtain ⟨below, hbelow⟩ := hlines
  rw [heq, hbelow]
  refine opens_of_lines (by decide) o.indentWidth rfl ?_ below
  exact oneLine_append.mpr ⟨oneLine_append.mpr ⟨by decide, (Names.plain_cleanName m.name).oneLine⟩,
    by decide⟩

/-- The header opens with its comment. -/
theorem Header.opens (h : Header.emit m o = .ok e) : Opens e.text "// " m.name "#pragma once" := by
  obtain ⟨inputs, -, heq⟩ := Header.emit_eq_ok_iff.mp h
  have hlines : ∃ below, Header.lines m o = ⟨0, comment "// " m.name, none⟩ ::
      ⟨0, "#pragma once", none⟩ :: below := by
    simp only [Header.lines, Native.banner, List.cons_append]
    exact ⟨_, rfl⟩
  obtain ⟨below, hbelow⟩ := hlines
  rw [heq, hbelow]
  exact opens_of_lines (by decide) o.indentWidth rfl (by decide : OneLine "#pragma once") below

/-- **A name stays in its comment exactly if it stands on one line.**  Whatever the options, the
text of each target opens with the comment of the name and goes on with a line of its own; the
comment takes one line more than the name has line feeds, and what follows a line feed stands
outside of it.  Being valid does not depend on the name. -/
theorem name_contained_iff (m : Model) (o : Options) :
    (∀ name, ({ m with name } : Model).isValid = m.isValid) ∧
      (∀ e, Script.emit m o = .ok e →
        Opens e.text "-- " m.name ("local " ++ (Names.ofModel m).className ++ " = \x7b\x7d")) ∧
      (∀ e, Source.emit m o = .ok e →
        Opens e.text "// " m.name ("#include \"" ++ cleanName m.name ++ ".h\"")) ∧
      ∀ e, Header.emit m o = .ok e → Opens e.text "// " m.name "#pragma once" :=
  ⟨isValid_rename m, fun _ => Script.opens, fun _ => Source.opens, fun _ => Header.opens⟩

/-- A gate whose name goes on like a statement of a script. -/
def gate : Model where
  name := "Gate\nerror(0)"
  functionEntries := [(⟨0⟩, {
    id := ⟨0⟩, name := "Open", kind := .entry, params := [], returns := [], body := []
    origin := ⟨10⟩ })]

/-- The statement in the name of the gate stands in the second line of each target. -/
theorem gate_name_contained : gate.isValid = true ∧ ∃ script source header,
    Script.emit gate {} = .ok script ∧ Source.emit gate {} = .ok source ∧
      Header.emit gate {} = .ok header ∧
      (∃ rest, Text.split '\n' script.text = "-- Gate" ::
        "error(0): generated by canvasc, do not edit" :: "local cls_Gate_error_0_ = \x7b\x7d" ::
          rest) ∧
      (∃ rest, Text.split '\n' source.text = "// Gate" ::
        "error(0): generated by canvasc, do not edit" :: "#include \"Gate_error_0_.h\"" :: rest) ∧
      (∃ rest, Text.split '\n' header.text = "// Gate" ::
        "error(0): generated by canvasc, do not edit" :: "#pragma once" :: rest) := by
  have hscript : ∃ e, Script.emit gate {} = .ok e := ⟨_, rfl⟩
  have hsource : ∃ e, Source.emit gate {} = .ok e := ⟨_, rfl⟩
  have hheader : ∃ e, Header.emit gate {} = .ok e := ⟨_, rfl⟩
  obtain ⟨script, hscript⟩ := hscript
  obtain ⟨source, hsource⟩ := hsource
  obtain ⟨header, hheader⟩ := hheader
  obtain ⟨-, hopens, hopens', hopens''⟩ := name_contained_iff gate {}
  have hline : Text.split '\n' ("error(0)" ++ notice) =
      ["error(0): generated by canvasc, do not edit"] := by decide
  have hclass : "local " ++ (Names.ofModel gate).className ++ " = \x7b\x7d" =
      "local cls_Gate_error_0_ = \x7b\x7d" := by decide +kernel
  have hinclude : "#include \"" ++ cleanName gate.name ++ ".h\"" =
      "#include \"Gate_error_0_.h\"" := by decide +kernel
  refine ⟨by decide, script, source, header, hscript, hsource, hheader, ?_, ?_, ?_⟩
  · have hlines := (hopens script hscript).escaped "Gate" "error(0)" (by decide) rfl
    rwa [hline, hclass] at hlines
  · have hlines := (hopens' source hsource).escaped "Gate" "error(0)" (by decide) rfl
    rwa [hline, hinclude] at hlines
  · have hlines := (hopens'' header hheader).escaped "Gate" "error(0)" (by decide) rfl
    rwa [hline] at hlines

end GraphScript.Emit
