import GraphScript.Proofs.Emit.Chunk
import GraphScript.Proofs.Emit.Headers

/-!
# Proofs/Emit/Layout — what the options of layout leave alone

The options decide how far lines are indented and whether a comment stands above each statement.
Neither changes what a chunk says.  A line without its blanks is the same for every width
(`unindented_shown`).  With and without comments the same lines are written, but for the comments:
`Thinned` relates the two, and it holds of each statement, block and function and so of the whole
chunk (`thinned_lines`).
-/

namespace GraphScript

namespace Code

/-! ## Lines left out -/

/-- The items of a list without those at the places `ns`, where the first has the place `n`. -/
def without {α : Type} (ns : List Nat) (n : Nat) (items : List α) : List α :=
  ((items.zipIdx n).filter fun e => e.2 ∉ ns).map (·.1)

/-- Items are left out by their numbers. -/
theorem without_cons {α : Type} (ns : List Nat) (n : Nat) (a : α) (items : List α) :
    without ns n (a :: items) =
      if n ∈ ns then without ns (n + 1) items else a :: without ns (n + 1) items := by
  unfold without
  by_cases hn : n ∈ ns
  · simp [hn]
  · simp [hn]

/-- A place before the first has no item. -/
theorem without_of_lt {α : Type} {k n : Nat} (h : k < n) (ns : List Nat) (items : List α) :
    without (k :: ns) n items = without ns n items := by
  refine congrArg (List.map _) (List.filter_congr fun e he => ?_)
  have hne : e.2 ≠ k := by
    have hle := (List.mem_zipIdx he).1
    omega
  simp [hne]

/-- The list `short` is `long` without the items at the places `ns`, where the first item of `long`
has the place `n`; the items left out have the property. -/
inductive Thinned {α : Type} (p : α → Prop) : Nat → List Nat → List α → List α → Prop
  | nil (n : Nat) : Thinned p n [] [] []
  | keep {n : Nat} {ns : List Nat} {long short : List α} (a : α)
    (h : Thinned p (n + 1) ns long short) : Thinned p n ns (a :: long) (a :: short)
  | drop {n : Nat} {ns : List Nat} {long short : List α} {a : α} (ha : p a)
    (h : Thinned p (n + 1) ns long short) : Thinned p n (n :: ns) (a :: long) short

namespace Thinned

variable {α β : Type} {p : α → Prop} {n : Nat} {ns ns' : List Nat}
  {long short long' short' : List α}

/-- Nothing is left out. -/
theorem refl (p : α → Prop) : ∀ (n : Nat) (items : List α), Thinned p n [] items items
  | n, [] => .nil n
  | n, a :: items => .keep a (refl p (n + 1) items)

/-- Lists that follow one another are thinned one by one. -/
theorem append (h : Thinned p n ns long short)
    (h' : Thinned p (n + long.length) ns' long' short') :
    Thinned p n (ns ++ ns') (long ++ long') (short ++ short') := by
  induction h with
  | nil n => exact h'
  | keep a h ih =>
    rw [List.length_cons, Nat.add_comm _ 1, ← Nat.add_assoc] at h'
    exact .keep a (ih h')
  | drop ha h ih =>
    rw [List.length_cons, Nat.add_comm _ 1, ← Nat.add_assoc] at h'
    exact .drop ha (ih h')

/-- What follows may be the same in both. -/
theorem append_refl (h : Thinned p n ns long short) (items : List α) :
    Thinned p n ns (long ++ items) (short ++ items) := by
  have happend := h.append (refl p _ items)
  rwa [List.append_nil] at happend

/-- What becomes of each item keeps which were left out. -/
theorem map {q : β → Prop} (g : α → β) (hg : ∀ a, p a → q (g a)) (h : Thinned p n ns long short) :
    Thinned q n ns (long.map g) (short.map g) := by
  induction h with
  | nil n => exact .nil n
  | keep a h ih => exact .keep (g a) ih
  | drop ha h ih => exact .drop (hg _ ha) ih

/-- Only items from the first on are left out. -/
theorem le_of_mem (h : Thinned p n ns long short) : ∀ k ∈ ns, n ≤ k := by
  induction h with
  | nil n => exact List.forall_mem_nil _
  | keep a h ih => exact fun k hk => Nat.le_of_succ_le (ih k hk)
  | drop ha h ih =>
    exact List.forall_mem_cons.mpr ⟨Nat.le_refl _, fun k hk => Nat.le_of_succ_le (ih k hk)⟩

/-- **The short list is the long one without the items at those places.** -/
theorem without_eq (h : Thinned p n ns long short) : without ns n long = short := by
  induction h with
  | nil n => rfl
  | @keep n ns long short a h ih =>
    have hn : n ∉ ns := fun hn => Nat.not_succ_le_self n (h.le_of_mem n hn)
    rw [without_cons, if_neg hn, ih]
  | @drop n ns long short a ha h ih =>
    rw [without_cons, if_pos List.mem_cons_self, without_of_lt (Nat.lt_succ_self n), ih]

/-- What is not found in the items left out is found in both lists alike. -/
theorem filterMap_eq {f : α → Option β} (hf : ∀ a, p a → f a = none)
    (h : Thinned p n ns long short) : long.filterMap f = short.filterMap f := by
  induction h with
  | nil n => rfl
  | keep a h ih => rw [List.filterMap_cons, List.filterMap_cons, ih]
  | drop ha h ih => rw [List.filterMap_cons, hf _ ha, ih]

end Thinned

/-- The origins in the order of the lines. -/
theorem map_snd_symbolsFrom : ∀ (n : Nat) (ls : List Line),
    (symbolsFrom n ls).map (·.2) = ls.filterMap (·.symbol)
  | _, [] => rfl
  | n, l :: ls => by
      cases hl : l.symbol with
      | none => rw [symbolsFrom, hl, List.filterMap_cons, hl, map_snd_symbolsFrom (n + 1) ls]
      | some s =>
        rw [symbolsFrom, hl, List.filterMap_cons, hl]
        exact congrArg _ (map_snd_symbolsFrom (n + 1) ls)

/-- Lines as they are shown, put together again, are the text. -/
theorem intercalate_shown (width : Nat) : ∀ ls : List Line,
    "\n".intercalate (ls.map (Line.shown width) ++ [""]) = text width ls
  | [] => rfl
  | l :: ls => by
      have htext : text width (l :: ls) = l.shown width ++ "\n" ++ text width ls := by
        rw [text, List.map_cons, String.join_cons, Line.render_eq]
        rfl
      obtain ⟨first, more, hrest⟩ :
          ∃ first more, ls.map (Line.shown width) ++ [""] = first :: more :=
        List.exists_cons_of_ne_nil (List.append_ne_nil_of_right_ne_nil _ (List.cons_ne_nil _ _))
      rw [htext, ← intercalate_shown width ls, List.map_cons, List.cons_append, hrest,
        String.intercalate_cons_cons]

end Code

namespace Emit.Script

open Code (Thinned)

/-! ## Comments -/

/-- A line that nothing is recorded for. -/
abbrev Unmarked (l : Line) : Prop := l.symbol = none

mutual

/-- **With comments a statement emits one line more above each of its own**, inside it too. -/
theorem thinned_statement (c : Context) (n level : Nat) (isLast : Bool) : ∀ s : Statement,
    Thinned Unmarked n ((sites true n level isLast s).map (·.line - 1))
      (statement { c with nodeComments := true } level isLast s)
      (statement { c with nodeComments := false } level isLast s)
  | .mk origin slot kind =>
      .drop rfl (thinned_kindLines c (n + 1) level isLast ⟨origin, slot, c.function⟩ kind)

theorem thinned_kindLines (c : Context) (n level : Nat) (isLast : Bool) (symbol : DebugSymbol) :
    ∀ k : StatementKind, Thinned Unmarked n ((innerSites true n level k).map (·.line - 1))
      (Line.mark symbol (kindLines { c with nodeComments := true } level isLast symbol k))
      (Line.mark symbol (kindLines { c with nodeComments := false } level isLast symbol k))
  | .cond e t [] => by
      rw [kindLines, kindLines]
      exact .keep _ ((thinned_block c (n + 1) (level + 1) t).append_refl _)
  | .cond e t (s :: r) => by
      have hthen := thinned_block c (n + 1) (level + 1) t
      have helse := thinned_block c (n + 1 + blockHeight true t + 1) (level + 1) (s :: r)
      have hlength := length_block { c with nodeComments := true } (level + 1) t
      rw [kindLines, kindLines, innerSites, List.map_append]
      rw [← hlength] at helse ⊢
      exact .keep _ ((hthen.append (.keep _ helse)).append_refl _)
  | .loop e b => by
      rw [kindLines, kindLines]
      exact .keep _ ((thinned_block c (n + 1) (level + 1) b).append_refl _)
  | .setMember .. | .setLocal .. | .call .. | .fire .. | .log _ | .ret _ | .script _ =>
      .refl _ _ _

/-- **A block with comments is the block without them**, but for the line above each statement. -/
theorem thinned_block (c : Context) (n level : Nat) : ∀ body : List Statement,
    Thinned Unmarked n ((blockSites true n level body).map (·.line - 1))
      (block { c with nodeComments := true } level body)
      (block { c with nodeComments := false } level body)
  | [] => .nil n
  | s :: r => by
      have hrest := thinned_block c (n + height true s) level r
      have hlength := length_statement { c with nodeComments := true } level r.isEmpty s
      rw [block, block, blockSites, List.map_append]
      rw [← hlength] at hrest ⊢
      exact (thinned_statement c n level r.isEmpty s).append hrest

end

/-- The lines above the statements at some places. -/
def linesAbove (ps : List Place) : List Nat := ps.flatMap fun p => (p.sites true).map (·.line - 1)

section Functions

variable {m : Model} {names : Names} {o : Options}

/-- So does a function. -/
theorem thinned_function {f : FunctionDef} (hf : Known names f) (n : Nat) :
    Thinned Unmarked n (((⟨n, f⟩ : Place).sites true).map (·.line - 1))
      (function m names { o with nodeComments := true } f)
      (function m names { o with nodeComments := false } f) := by
  obtain ⟨own, hown, hlen⟩ := hf
  have hbody := thinned_block ⟨m, names, true, f.name, own⟩ (n + 1 + f.locals.length) 1 f.body
  simp only [function, hown]
  refine Thinned.append_refl ?_ _
  refine (Thinned.refl _ n _).append ?_
  rw [List.length_cons, List.length_map, List.length_zip, hlen, Nat.min_self, Nat.add_comm _ 1,
    ← Nat.add_assoc]
  exact hbody

/-- With comments functions in turn emit one line more above each statement. -/
theorem thinned_stack : ∀ {fs : List FunctionDef} {n : Nat}, (∀ f ∈ fs, Known names f) →
    Thinned Unmarked n (linesAbove (stack true n fs))
      (fs.flatMap (function m names { o with nodeComments := true }))
      (fs.flatMap (function m names { o with nodeComments := false }))
  | [], n, _ => .nil n
  | f :: fs, n, h => by
      have hf := h f List.mem_cons_self
      have hrest := thinned_stack (n := n + functionHeight true f)
        fun x hx => h x (List.mem_cons_of_mem _ hx)
      have hlength := length_function (m := m) (o := { o with nodeComments := true }) hf
      rw [List.flatMap_cons, List.flatMap_cons, stack, linesAbove, List.flatMap_cons]
      refine (thinned_function hf n).append ?_
      rw [hlength]
      exact hrest

end Functions

/-- **A chunk with comments is the chunk without them**, but for the line above each statement. -/
theorem thinned_lines {m : Model} {order : List FunctionId} (o : Options)
    (hi : ∀ f ∈ internals m order, Known (Names.ofModel m) f)
    (he : ∀ f ∈ entries m, Known (Names.ofModel m) f) :
    Thinned Unmarked 1 (linesAbove (places true m order 5))
      (lines m { o with nodeComments := true } order)
      (lines m { o with nodeComments := false } order) := by
  have hinternals := thinned_stack (m := m) (o := o) (n := 5) hi
  have hentries := thinned_stack (m := m) (o := o)
    (n := 5 + stackHeight true (internals m order) + (m.members.length + 6)) he
  have hlength := length_flatMap_function (m := m) (o := { o with nodeComments := true }) hi
  have habove := ((Thinned.refl Unmarked 1 (opening m (Names.ofModel m))).append hinternals)
    |>.append_refl (constructor m (Names.ofModel m))
  rw [List.nil_append] at habove
  unfold lines
  rw [places, linesAbove, List.flatMap_append]
  refine (habove.append ?_).append_refl _
  have hopening : (opening m (Names.ofModel m)).length = 4 := rfl
  have hnumber : 1 + (opening m (Names.ofModel m) ++ (internals m order).flatMap
      (function m (Names.ofModel m) { o with nodeComments := true }) ++
      constructor m (Names.ofModel m)).length =
        5 + stackHeight true (internals m order) + (m.members.length + 6) := by
    rw [List.length_append, List.length_append, hlength, length_constructor, hopening]
    dsimp only
    omega
  rw [hnumber]
  exact hentries

/-! ## Chunks as text -/

/-- Every line of a chunk is a line, if the name of the model breaks none. -/
theorem oneLine_lines {m : Model} (hn : Text.OneLine m.name) (o : Options)
    (order : List FunctionId) : ∀ l ∈ lines m o order, Text.OneLine l.text := by
  rw [lines_eq]
  refine List.forall_mem_cons.mpr ⟨?_, oneLine_rest m o order⟩
  exact Text.oneLine_append.mpr ⟨Text.oneLine_append.mpr ⟨by decide, hn⟩, by decide⟩

/-- The text of a chunk, split: its lines as they are shown, and an empty end. -/
theorem split_lines {m : Model} (hn : Text.OneLine m.name) (width : Nat) (o : Options)
    (order : List FunctionId) : Text.split '\n' (Code.text width (lines m o order)) =
      (lines m o order).map (Line.shown width) ++ [""] := by
  rw [Code.split_text_pieces, Code.flatMap_split_shown width (oneLine_lines hn o order)]

/-- Without their blanks in front, the lines of a chunk are the same for every width. -/
theorem map_unindented_split {m : Model} (hn : Text.OneLine m.name) (width : Nat) (o : Options)
    (order : List FunctionId) :
    (Text.split '\n' (Code.text width (lines m o order))).map unindented =
      (lines m o order).map (fun l => unindented l.text) ++ [[]] := by
  rw [split_lines hn, List.map_append, List.map_map]
  exact congrArg (· ++ _) (List.map_congr_left fun l _ => unindented_shown width l)

/-- With or without comments, the same origins are recorded in the same order. -/
theorem map_snd_debugMap {n : Nat} {ns : List Nat} {long short : List Line}
    (h : Thinned Unmarked n ns long short) :
    (Code.debugMap long).entries.map (·.2) = (Code.debugMap short).entries.map (·.2) := by
  rw [Code.debugMap, Code.debugMap, Code.map_snd_symbolsFrom, Code.map_snd_symbolsFrom]
  exact h.filterMap_eq fun _ hl => hl

/-- Lines that are left out of the text are left out of the lines. -/
theorem intercalate_without {m : Model} (hn : Text.OneLine m.name) (width : Nat) {o : Options}
    {order : List FunctionId} {ns : List Nat} {short : List Line}
    (h : Thinned Unmarked 1 ns (lines m o order) short) :
    "\n".intercalate (Code.without ns 1
      (Text.split '\n' (Code.text width (lines m o order)))) = Code.text width short := by
  have hshown := (h.map (q := fun _ => True) (Line.shown width) fun _ _ => trivial).append_refl [""]
  rw [split_lines hn, hshown.without_eq, Code.intercalate_shown]

/-- Of the options, lines depend on comments alone. -/
theorem lines_congr {o o' : Options} (h : o'.nodeComments = o.nodeComments) (m : Model)
    (order : List FunctionId) : lines m o' order = lines m o order := by
  have hfunction (names : Names) : function m names o' = function m names o := by
    funext f
    unfold function
    rw [h]
  unfold lines
  simp only [hfunction]

/-- Nothing but comments and indentation matters to the script. -/
theorem emit_congr {o o' : Options} (hc : o'.nodeComments = o.nodeComments)
    (hw : o'.indentWidth = o.indentWidth) (m : Model) : emit m o' = emit m o := by
  unfold emit
  simp only [lines_congr hc, hw]

/-- At its place a function can be read in the text of a chunk, if the name of the graph stands on
one line. -/
theorem reads_in_split {m : Model} {o : Options} {order : List FunctionId}
    (hi : ∀ f ∈ internals m order, Known (Names.ofModel m) f)
    (he : ∀ f ∈ entries m, Known (Names.ofModel m) f) (hn : Text.OneLine m.name) {p : Place}
    (hp : p ∈ places o.nodeComments m order 5) :
    ∃ own, (Names.ofModel m).function? p.function.id = some own ∧
      p.Reads ⟨m, Names.ofModel m, o.nodeComments, p.function.name, own⟩ o.indentWidth
        (Text.split '\n' (Code.text o.indentWidth (lines m o order))) := by
  have hbanner : Text.OneLine (banner m).text :=
    oneLine_lines hn o order _ (lines_eq m o order ▸ List.mem_cons_self)
  have hheight : bannerHeight m = 1 := by
    rw [bannerHeight, Text.split_of_oneLine hbanner]
    rfl
  rw [split_emitted]
  refine reads_of_mem_places hi he ?_
  rwa [hheight]

/-- **The layout of a chunk does not change what it says.**  Under another width the debug map is
the same, and so are the lines of the text without their blanks in front.  With comments the debug
map has the same origins in the same order as without them, and the text without the line above each
statement is the text without comments.  The other options have no influence. -/
theorem layout_keeps_program (m : Model) (o : Options) (e : Emission)
    (hnd : (m.functions.map (·.id)).Nodup) (hn : Text.OneLine m.name) (h : emit m o = .ok e) :
    (∀ width, ∃ e', emit m { o with indentWidth := width } = .ok e' ∧ e'.debugMap = e.debugMap ∧
      (Text.split '\n' e'.text).map unindented = (Text.split '\n' e.text).map unindented) ∧
    (∃ order commented plain, m.callOrder = .ok order ∧
      emit m { o with nodeComments := true } = .ok commented ∧
      emit m { o with nodeComments := false } = .ok plain ∧
      commented.debugMap.entries.map (·.2) = plain.debugMap.entries.map (·.2) ∧
      (commented.debugMap.entries.map (·.1)).Pairwise (· < ·) ∧
      (plain.debugMap.entries.map (·.1)).Pairwise (· < ·) ∧
      (∀ p ∈ places true m order 5, ∃ own, (Names.ofModel m).function? p.function.id = some own ∧
        p.Reads ⟨m, Names.ofModel m, true, p.function.name, own⟩ o.indentWidth
          (Text.split '\n' commented.text)) ∧
      "\n".intercalate (Code.without (linesAbove (places true m order 5)) 1
        (Text.split '\n' commented.text)) = plain.text) ∧
    ∀ parallel nativeNamespace, emit m { o with parallel, nativeNamespace } = emit m o := by
  obtain ⟨order, horder, htext, hmap⟩ := emit_ok h
  have hemission := exists_emission horder (ofModel_of_emit h)
  have hi : ∀ f ∈ internals m order, Known (Names.ofModel m) f := fun f hf =>
    known_of_nodup hnd (mem_functions_of_mem_internals hf)
  have he : ∀ f ∈ entries m, Known (Names.ofModel m) f := fun f hf =>
    known_of_nodup hnd (mem_functions_of_mem_entries hf)
  have hthin := thinned_lines o hi he
  obtain ⟨commented, hcommented, htext₁, hmap₁⟩ := hemission { o with nodeComments := true }
  obtain ⟨plain, hplain, htext₂, hmap₂⟩ := hemission { o with nodeComments := false }
  refine ⟨fun width => ?_, ⟨order, commented, plain, horder, hcommented, hplain, ?_, ?_, ?_,
    fun p hp => ?_, ?_⟩, fun _ _ => emit_congr rfl rfl m⟩
  · obtain ⟨e', hemit, htext', hmap'⟩ := hemission { o with indentWidth := width }
    have hlines : lines m { o with indentWidth := width } order = lines m o order :=
      lines_congr rfl m order
    rw [hlines] at htext' hmap'
    refine ⟨e', hemit, hmap'.trans hmap.symm, ?_⟩
    rw [htext', htext, map_unindented_split hn, map_unindented_split hn]
  · rw [hmap₁, hmap₂]
    exact map_snd_debugMap hthin
  · rw [hmap₁]
    exact Code.pairwise_symbolsFrom 1 _
  · rw [hmap₂]
    exact Code.pairwise_symbolsFrom 1 _
  · rw [htext₁]
    exact reads_in_split (o := { o with nodeComments := true }) hi he hn hp
  · rw [htext₁, htext₂]
    exact intercalate_without hn o.indentWidth hthin

/-- The door's script is the same program with other indentation and with comments. -/
theorem door_layout_keeps_program : (Model.door.functions.map (·.id)).Nodup ∧
    Text.OneLine Model.door.name ∧ ∃ e, emit Model.door {} = .ok e ∧
      ∃ narrow commented, emit Model.door { indentWidth := 1 } = .ok narrow ∧
        emit Model.door { nodeComments := true } = .ok commented ∧
        narrow.debugMap = e.debugMap ∧
        commented.debugMap.entries.map (·.2) = e.debugMap.entries.map (·.2) ∧
        "\n".intercalate (Code.without [6, 19, 21, 24, 26, 29, 32] 1
          (Text.split '\n' commented.text)) = e.text := by
  have hnd : (Model.door.functions.map (·.id)).Nodup := by decide
  have hn : Text.OneLine Model.door.name := by decide
  refine ⟨hnd, hn, _, rfl, ?_⟩
  obtain ⟨hwidth, hcomments, _⟩ := layout_keeps_program Model.door {} _ hnd hn rfl
  obtain ⟨order, commented, plain, horder, hcommented, hplain, hsymbols, _, _, _, htext⟩ := hcomments
  obtain ⟨narrow, hnarrow, hmap, _⟩ := hwidth 1
  obtain rfl : order = [⟨1⟩, ⟨0⟩] := by
    have hdoor : Model.door.callOrder = .ok [⟨1⟩, ⟨0⟩] := by decide
    exact Except.ok.inj (horder.symm.trans hdoor)
  obtain rfl := Except.ok.inj hplain
  exact ⟨narrow, commented, hnarrow, hcommented, hmap, hsymbols, htext⟩

end Emit.Script

end GraphScript
