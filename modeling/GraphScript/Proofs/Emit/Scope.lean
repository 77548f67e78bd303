import GraphScript.Proofs.Emit.Chunk
import GraphScript.Proofs.Emit.Headers
import GraphScript.Proofs.References

/-!
# Proofs/Emit/Scope — definitions before uses in a chunk

In the chunk of a valid model each function is opened by one header, and a call reaches it: an
internal function by the identifier that a header further up binds, an entry through the class
(`calls_in_scope`).  The name of the graph stands in the comment of the first line as it is.  Where
it holds line feeds the comment ends early, and what follows in the name can open functions of its
own: the headers in the text are those of the functions exactly if it does not.
-/

namespace GraphScript.Emit.Script

open Code (Stands)

/-! ## The lines of places -/

/-- Of two members of a list in which each item is related to those after it, one is related to the
other. -/
theorem eq_or_of_pairwise {α : Type} {R : α → α → Prop} {l : List α} (h : l.Pairwise R) {a b : α}
    (ha : a ∈ l) (hb : b ∈ l) : a = b ∨ R a b ∨ R b a := by
  refine List.Pairwise.forall_of_forall_of_flip (R := fun a b => a = b ∨ R a b ∨ R b a)
    (fun x _ => Or.inl rfl) (h.imp fun hab => Or.inr (Or.inl hab))
    (h.imp fun hab => Or.inr (Or.inr hab)) ha hb

/-- Lines of script text are recorded. -/
theorem mem_records_of_mem_verbatim (function : String) {s : Site} {n : Nat}
    (h : n ∈ s.verbatim) : n ∈ (s.records function).map (·.1) := by
  unfold Site.verbatim at h
  unfold Site.records
  cases hkind : s.statement.kind with
  | script source =>
    rw [hkind] at h
    obtain ⟨i, hi, rfl⟩ := List.mem_map.mp h
    have hlt := List.mem_range.mp hi
    cases hblank : (Text.trim source).isEmpty with
    | true =>
      simp only [furtherLines, hblank, if_true, List.map_cons, List.map_map, List.mem_cons,
        List.mem_map, List.mem_range]
      exact Or.inr ⟨i, hlt, rfl⟩
    | false =>
      simp only [furtherLines, hblank, List.map_cons, List.map_map, List.mem_cons, List.mem_map,
        List.mem_range, Function.comp_apply, Bool.false_eq_true, if_false, Nat.add_zero]
      cases i with
      | zero => exact Or.inl rfl
      | succ j => exact Or.inr ⟨j, Nat.lt_sub_of_add_lt hlt, by omega⟩
  | setMember | setLocal | cond | loop | call | fire | log | ret =>
    rw [hkind] at h
    cases h

theorem line_mem_records {comments : Bool} {ps : List Place} {p : Place} (hp : p ∈ ps) :
    p.line ∈ (ps.flatMap (Place.records comments)).map (·.1) :=
  List.mem_map.mpr ⟨_, List.mem_flatMap.mpr ⟨p, hp, List.mem_cons_self⟩, rfl⟩

/-- All lines of script text in a chunk are recorded. -/
theorem verbatim_subset_records {comments : Bool} {ps : List Place} :
    ∀ n ∈ verbatim comments ps, n ∈ (ps.flatMap (Place.records comments)).map (·.1) := by
  intro n hn
  obtain ⟨p, hp, hn⟩ := List.mem_flatMap.mp hn
  obtain ⟨s, hs, hn⟩ := List.mem_flatMap.mp hn
  obtain ⟨e, he, rfl⟩ := List.mem_map.mp (mem_records_of_mem_verbatim p.function.name hn)
  refine List.mem_map.mpr ⟨e, List.mem_flatMap.mpr ⟨p, hp, List.mem_cons_of_mem _ ?_⟩, rfl⟩
  exact List.mem_flatMap.mpr ⟨s, hs, he⟩

section Ascending

variable {comments : Bool} {ps : List Place}
  (h : ((ps.flatMap (Place.records comments)).map (·.1)).Pairwise (· < ·))

include h

/-- Places are in the order of their lines. -/
theorem pairwise_line : ps.Pairwise fun p q => p.line < q.line := by
  rw [List.pairwise_map, List.pairwise_flatMap] at h
  exact h.2.imp fun hpq => hpq _ List.mem_cons_self _ List.mem_cons_self

/-- A line holds one header. -/
theorem eq_of_line_eq {p q : Place} (hp : p ∈ ps) (hq : q ∈ ps) (heq : p.line = q.line) :
    p = q := by
  rcases eq_or_of_pairwise (pairwise_line h) hp hq with hpq | hlt | hlt
  · exact hpq
  · omega
  · omega

/-- Script text that is taken over stands on no header's line. -/
theorem line_notMem_verbatim {p : Place} (hp : p ∈ ps) : p.line ∉ verbatim comments ps := by
  intro hn
  obtain ⟨q, hq, hn⟩ := List.mem_flatMap.mp hn
  obtain ⟨s, hs, hn⟩ := List.mem_flatMap.mp hn
  obtain ⟨e, he, hline⟩ :=
    List.mem_map.mp (mem_records_of_mem_verbatim q.function.name hn)
  have hin : e ∈ q.records comments :=
    List.mem_cons_of_mem _ (List.mem_flatMap.mpr ⟨s, hs, he⟩)
  rw [List.pairwise_map, List.pairwise_flatMap] at h
  rcases eq_or_of_pairwise h.2 hp hq with rfl | hlt | hlt
  · have hlt := (List.pairwise_cons.mp (h.1 p hp)).1 e (List.mem_flatMap.mpr ⟨s, hs, he⟩)
    exact absurd hline (Nat.ne_of_gt hlt)
  · exact absurd hline (Nat.ne_of_gt (hlt _ List.mem_cons_self e hin))
  · exact absurd hline (Nat.ne_of_lt (hlt e hin _ List.mem_cons_self))

end Ascending

/-! ## Headers in the text -/

/-- Outside the lines `but`, the lines that open a function are the headers at the places, a local
function for each internal one and an entry under its name for each entry. -/
def HeadersMatch (className : String) (text : List String) (but : List Nat) (ps : List Place) :
    Prop :=
  ∀ n line, Stands text n [line] → n ∉ but →
    (OpensLocal line ↔ ∃ p ∈ ps, p.line = n ∧ p.function.kind = .internal) ∧
      ∀ name, OpensEntry className name line ↔
        ∃ p ∈ ps, p.line = n ∧ p.function.kind = .entry ∧ p.function.name = name

section Chunk

variable {m : Model} {o : Options} {order : List FunctionId}
  (hi : ∀ f ∈ internals m order, Known (Names.ofModel m) f)
  (he : ∀ f ∈ entries m, Known (Names.ofModel m) f)

include hi he

/-- What is recorded stands below the first line, and in ascending order. -/
theorem pairwise_records_places :
    (((places o.nodeComments m order (bannerHeight m + 4)).flatMap
      (Place.records o.nodeComments)).map (·.1)).Pairwise (· < ·) := by
  rw [← symbolsFrom_rest hi he (bannerHeight m + 1)]
  exact Code.pairwise_symbolsFrom _ _

/-- All recorded lines are below the banner. -/
theorem lt_of_mem_records_places {n : Nat}
    (h : n ∈ ((places o.nodeComments m order (bannerHeight m + 4)).flatMap
      (Place.records o.nodeComments)).map (·.1)) : bannerHeight m < n := by
  rw [← symbolsFrom_rest hi he (bannerHeight m + 1)] at h
  obtain ⟨e, he, rfl⟩ := List.mem_map.mp h
  exact Code.le_of_mem_symbolsFrom he

/-- **A line that is neither a header nor taken over opens no function**, unless the first line
does. -/
theorem quietBut_text
    (hbanner : ∀ line ∈ Text.split '\n' (banner m).text, Quiet (Names.ofModel m).className line) :
    QuietBut (Names.ofModel m).className
      ((places o.nodeComments m order (bannerHeight m + 4)).map (·.line) ++
        verbatim o.nodeComments (places o.nodeComments m order (bannerHeight m + 4))) 1
      ((shownLines m o order).map (Line.shown o.indentWidth) ++ [""]) := by
  obtain ⟨r, hr⟩ := Names.exists_className m
  refine quietBut_append.mpr ⟨quietBut_shown.mp ?_, quietBut_singleton (quiet_empty hr)⟩
  rw [shownLines, List.map_append]
  refine quietBut_append.mpr ⟨quietBut_of_forall ?_, ?_⟩
  · rw [List.map_map]
    exact List.forall_mem_map.mpr hbanner
  · rw [List.length_map, List.length_map, Nat.add_comm 1]
    exact quietBut_rest hi he (bannerHeight m + 1)

/-- A line of the first comment stands above all places, so it has no header to match. -/
theorem quiet_of_headersMatch
    (hmatch : HeadersMatch (Names.ofModel m).className
      ((shownLines m o order).map (Line.shown o.indentWidth) ++ [""])
      (verbatim o.nodeComments (places o.nodeComments m order (bannerHeight m + 4)))
      (places o.nodeComments m order (bannerHeight m + 4))) :
    ∀ line ∈ Text.split '\n' (banner m).text, Quiet (Names.ofModel m).className line := by
  intro line hline
  obtain ⟨pre, post, hsplit⟩ := List.append_of_mem hline
  have hheight : pre.length + 1 ≤ bannerHeight m := by
    rw [bannerHeight, hsplit, List.length_append, List.length_cons]
    omega
  have hstands : Stands ((shownLines m o order).map (Line.shown o.indentWidth) ++ [""])
      (pre.length + 1) [line] := by
    refine Stands.append ?_ [""]
    rw [shownLines, List.map_append, map_shown_pieces, hsplit]
    exact ⟨pre, post ++ (rest m o order).map (Line.shown o.indentWidth), by simp, rfl⟩
  have hbelow : ∀ p ∈ places o.nodeComments m order (bannerHeight m + 4),
      p.line ≠ pre.length + 1 := by
    intro p hp hline
    have hlt := lt_of_mem_records_places hi he (line_mem_records hp)
    omega
  have hfree : pre.length + 1 ∉
      verbatim o.nodeComments (places o.nodeComments m order (bannerHeight m + 4)) := by
    intro hm
    have hlt := lt_of_mem_records_places hi he (verbatim_subset_records _ hm)
    omega
  obtain ⟨hlocal, hentry⟩ := hmatch _ line hstands hfree
  refine ⟨fun ho => ?_, fun name ho => ?_⟩
  · obtain ⟨p, hp, hline, _⟩ := hlocal.mp ho
    exact hbelow p hp hline
  · obtain ⟨p, hp, hline, _⟩ := (hentry name).mp ho
    exact hbelow p hp hline

/-- At a place the header is read, elsewhere no line opens a function. -/
theorem headersMatch_of_quiet
    (hbanner : ∀ line ∈ Text.split '\n' (banner m).text, Quiet (Names.ofModel m).className line) :
    HeadersMatch (Names.ofModel m).className
      ((shownLines m o order).map (Line.shown o.indentWidth) ++ [""])
      (verbatim o.nodeComments (places o.nodeComments m order (bannerHeight m + 4)))
      (places o.nodeComments m order (bannerHeight m + 4)) := by
  obtain ⟨r, hr⟩ := Names.exists_className m
  intro n line hstands hn
  by_cases hplace : ∃ p ∈ places o.nodeComments m order (bannerHeight m + 4), p.line = n
  · obtain ⟨p, hp, rfl⟩ := hplace
    obtain ⟨own, _, hreads⟩ := reads_of_mem_places hi he hp
    have hheader : line = header (Names.ofModel m) p.function own :=
      Option.some.inj (hstands.getElem?.symm.trans hreads.header.getElem?)
    have hsame : ∀ q ∈ places o.nodeComments m order (bannerHeight m + 4), q.line = p.line →
        q = p := fun q hq => eq_of_line_eq (pairwise_records_places (o := o) hi he) hq hp
    refine ⟨?_, fun name => ?_⟩
    · rw [hheader, opensLocal_header hr]
      constructor
      · exact fun hkind => ⟨p, hp, rfl, hkind⟩
      · rintro ⟨q, hq, hline, hkind⟩
        exact hsame q hq hline ▸ hkind
    · rw [hheader, opensEntry_header hr]
      constructor
      · exact fun hkind => ⟨p, hp, rfl, hkind⟩
      · rintro ⟨q, hq, hline, hkind⟩
        exact hsame q hq hline ▸ hkind
  · have hquiet : Quiet (Names.ofModel m).className line := by
      have hbut := quietBut_text hi he hbanner (line, n) (Code.stands_singleton_iff.mp hstands)
      refine hbut.resolve_left fun hm => ?_
      rcases List.mem_append.mp hm with hm | hm
      · obtain ⟨p, hp, hline⟩ := List.mem_map.mp hm
        exact hplace ⟨p, hp, hline⟩
      · exact hn hm
    have hnone : ∀ P : Place → Prop,
        ¬ ∃ p ∈ places o.nodeComments m order (bannerHeight m + 4), p.line = n ∧ P p := by
      rintro P ⟨p, hp, hline, _⟩
      exact hplace ⟨p, hp, hline⟩
    exact ⟨iff_of_false hquiet.1 (hnone _), fun name => iff_of_false (hquiet.2 name) (hnone _)⟩

end Chunk

/-! ## Calls -/

/-- Places are those of the functions. -/
theorem mem_of_mem_stack {comments : Bool} {n : Nat} {fs : List FunctionDef} {p : Place}
    (h : p ∈ stack comments n fs) : p.function ∈ fs := by
  have hmem := List.mem_map_of_mem (f := Place.function) h
  rwa [map_function_stack] at hmem

/-- **An internal function stands above those that call it.** -/
theorem line_lt_of_calls {m : Model} (hk : m.OwnKeys) {order : List FunctionId}
    (horder : m.callOrder = .ok order) {comments : Bool} {n : Nat}
    (hlines : (places comments m order n).Pairwise fun p q => p.line < q.line) {p q : Place}
    (hp : p ∈ places comments m order n) (hq : q ∈ places comments m order n)
    (hkind : q.function.kind = .internal) (hcalls : m.Calls q.function.id p.function.id) :
    q.line < p.line := by
  have hbefore := (Model.callOrder_ok horder).2 hk.function_ids_nodup _ _ hcalls
  obtain ⟨hstack, _, hacross⟩ := List.pairwise_append.mp hlines
  have hq : q ∈ stack comments n (internals m order) := by
    rcases List.mem_append.mp hq with hq | hq
    · exact hq
    · have hentry := List.of_mem_filter (mem_of_mem_stack hq)
      rw [hkind] at hentry
      cases hentry
  rcases List.mem_append.mp hp with hp | hp
  · have hids : (stack comments n (internals m order)).Pairwise fun p q =>
        order.idxOf p.function.id < order.idxOf q.function.id := by
      have hinternals := pairwise_internals hk horder
      rwa [← map_function_stack comments n (internals m order), List.pairwise_map] at hinternals
    rcases eq_or_of_pairwise (hstack.and hids) hq hp with heq | hlt | hgt
    · rw [heq] at hbefore
      exact absurd hbefore (Nat.lt_irrefl _)
    · exact hlt.1
    · exact absurd hgt.2 (Nat.lt_asymm hbefore)
  · exact hacross q hq p hp

/-- The line of a call that goes to `target`. -/
def callLine (c : Context) (s : Site) (target : String) (args : List Expr)
    (results : List UInt16) : Line :=
  ⟨s.level, assign c.locals results (target ++ "(" ++
    commaList ("self" :: args.map (expr c.names c.locals)) ++ ")"), none⟩

/-- What a call at a place has to name to reach a function: the identifier that the header of an
internal function binds further up, or the field of the class under the name of an entry. -/
def Reached (m : Model) (text : List String) (ps : List Place) (caller : Place)
    (callee : FunctionDef) (target : String) : Prop :=
  match callee.kind with
  | .internal => Names.Plain target ∧ ∃ p ∈ ps, p.function = callee ∧ p.line < caller.line ∧
      ∃ params, Stands text p.line ["local function " ++ target ++ "(" ++ params ++ ")"]
  | .entry =>
    target = (Names.ofModel m).className ++ "[" ++ Literal.string .script callee.name ++ "]"

/-- The banner is quiet, if the name of the model breaks no line. -/
theorem quiet_banner {m : Model} (h : Text.OneLine m.name) :
    ∀ line ∈ Text.split '\n' (banner m).text, Quiet (Names.ofModel m).className line := by
  obtain ⟨r, hr⟩ := Names.exists_className m
  have hbanner : Text.OneLine (banner m).text :=
    Text.oneLine_append.mpr ⟨Text.oneLine_append.mpr ⟨by decide, h⟩, by decide⟩
  rw [Text.split_of_oneLine hbanner]
  exact List.forall_mem_singleton.mpr
    (quiet_of_startsQuiet hr (startsQuiet_append (startsQuiet_append (by decide))))

section Emitted

variable {m : Model} {o : Options} {order : List FunctionId} (hk : m.OwnKeys)
  (horder : m.callOrder = .ok order)

include hk horder

/-- Every function has a place. -/
theorem exists_place {f : FunctionDef} (hf : f ∈ m.functions) (comments : Bool) (n : Nat) :
    ∃ p ∈ places comments m order n, p.function = f := by
  have hmem := (perm_emitted hk horder).mem_iff.mpr hf
  rw [← map_function_places comments m order n] at hmem
  exact List.mem_map.mp hmem

/-- **Every call reaches its callee.** -/
theorem exists_reached (hv : m.Valid) {p : Place} {own : Names.Function}
    (hp : p ∈ places o.nodeComments m order (bannerHeight m + 4))
    (hreads : p.Reads ⟨m, Names.ofModel m, o.nodeComments, p.function.name, own⟩ o.indentWidth
      ((shownLines m o order).map (Line.shown o.indentWidth) ++ [""]))
    {s : Site} (hs : s ∈ p.sites o.nodeComments) {id : FunctionId} {args : List Expr}
    {results : List UInt16} (hcall : s.statement.kind = .call id args results) :
    ∃ callee ∈ m.functions, callee.id = id ∧ ∃ target,
      Reached m ((shownLines m o order).map (Line.shown o.indentWidth) ++ [""])
        (places o.nodeComments m order (bannerHeight m + 4)) p callee target ∧
      Stands ((shownLines m o order).map (Line.shown o.indentWidth) ++ [""]) s.line
        [(callLine ⟨m, Names.ofModel m, o.nodeComments, p.function.name, own⟩ s target args
          results).shown o.indentWidth] := by
  have hi : ∀ f ∈ internals m order, Known (Names.ofModel m) f := known_of_mem_internals hk
  have he : ∀ f ∈ entries m, Known (Names.ofModel m) f := known_of_mem_entries hk
  have hlines := pairwise_line (pairwise_records_places (o := o) hi he)
  have hcaller : p.function ∈ m.functions := by
    have hmem := List.mem_map_of_mem (f := Place.function) hp
    rw [map_function_places] at hmem
    exact (perm_emitted hk horder).mem_iff.mp hmem
  have hwalk : s.statement ∈ Statement.walkAll p.function.body := by
    rw [← hreads.statements]
    exact List.mem_map_of_mem hs
  obtain ⟨callee, hcallee⟩ := hv.exists_callee hcaller hwalk hcall
  obtain ⟨hmem, hid⟩ := hk.functionAt?_eq_some.mp hcallee
  have hline := (hreads.lines s hs).2
  rw [Site.lines, hcall] at hline
  refine ⟨callee, hmem, hid, Script.callee m (Names.ofModel m) id, ?_, hline⟩
  cases hkind : callee.kind with
  | entry =>
    simp only [Reached, hkind, Script.callee, hcallee]
  | internal =>
    obtain ⟨q, hq, rfl⟩ := exists_place hk horder hmem o.nodeComments (bannerHeight m + 4)
    obtain ⟨qown, hqown, hqreads⟩ := reads_of_mem_places hi he hq
    have htarget : Script.callee m (Names.ofModel m) id = qown.name := by
      simp only [Script.callee, hcallee, hkind]
      rw [← hid, hqown]
      rfl
    have hcalls : m.Calls q.function.id p.function.id :=
      ⟨List.mem_map_of_mem hmem, p.function, hcaller, rfl, s.statement,
        Statement.mem_walkAll.mp hwalk, args, results, hid ▸ hcall⟩
    simp only [Reached, hkind, htarget]
    refine ⟨(Names.plain_of_function? hqown).1, q, hq, rfl,
      line_lt_of_calls hk horder hlines hp hq hkind hcalls,
      commaList ("self" :: qown.params), ?_⟩
    have hheader := hqreads.header
    simp only [header, hkind] at hheader
    exact hheader

end Emitted

/-- **Definitions before uses.**  A valid model whose declarations are stored under their own
identifiers is emitted with every function at a place of its own, and every call in a body, at
whatever depth, reaches its callee: an internal function by the identifier that its header binds
above the header of the caller, an entry through the class under its own name.  Apart from script
text that is taken over, the headers in the text are those of the functions exactly if no line of
the first comment, which breaks where the name of the graph does, opens a function; that is so
wherever the name stands on one line. -/
theorem calls_in_scope (m : Model) (o : Options) (hk : m.OwnKeys) (hv : m.isValid = true) :
    ∃ e order ps, emit m o = .ok e ∧ m.callOrder = .ok order ∧
      ps = places o.nodeComments m order (bannerHeight m + 4) ∧
      (ps.map (·.function)).Perm m.functions ∧
      ps.Pairwise (fun p q => p.line < q.line) ∧
      (∀ p ∈ ps, p.line ∉ verbatim o.nodeComments ps) ∧
      (HeadersMatch (Names.ofModel m).className (Text.split '\n' e.text)
          (verbatim o.nodeComments ps) ps ↔
        ∀ line ∈ Text.split '\n' (banner m).text, Quiet (Names.ofModel m).className line) ∧
      (Text.OneLine m.name → HeadersMatch (Names.ofModel m).className (Text.split '\n' e.text)
        (verbatim o.nodeComments ps) ps) ∧
      ∀ p ∈ ps, ∃ own, (Names.ofModel m).function? p.function.id = some own ∧
        p.Reads ⟨m, Names.ofModel m, o.nodeComments, p.function.name, own⟩ o.indentWidth
          (Text.split '\n' e.text) ∧
        ∀ s ∈ p.sites o.nodeComments, ∀ id args results,
          s.statement.kind = .call id args results →
            ∃ callee ∈ m.functions, callee.id = id ∧ ∃ target,
              Reached m (Text.split '\n' e.text) ps p callee target ∧
              Stands (Text.split '\n' e.text) s.line
                [(callLine ⟨m, Names.ofModel m, o.nodeComments, p.function.name, own⟩ s target args
                  results).shown o.indentWidth] := by
  have hvalid := Model.isValid_iff.mp hv
  obtain ⟨e, hemit⟩ := exists_emit hk hvalid o
  obtain ⟨order, horder, htext, _⟩ := emit_ok hemit
  have hi : ∀ f ∈ internals m order, Known (Names.ofModel m) f := known_of_mem_internals hk
  have he : ∀ f ∈ entries m, Known (Names.ofModel m) f := known_of_mem_entries hk
  have hascend := pairwise_records_places (o := o) hi he
  refine ⟨e, order, _, hemit, horder, rfl, ?_, pairwise_line hascend,
    fun p hp => line_notMem_verbatim hascend hp, ?_⟩
  · rw [map_function_places]
    exact perm_emitted hk horder
  · rw [htext, split_emitted]
    refine ⟨⟨quiet_of_headersMatch hi he, headersMatch_of_quiet hi he⟩,
      fun hn => headersMatch_of_quiet hi he (quiet_banner hn), fun p hp => ?_⟩
    obtain ⟨own, hown, hreads⟩ := reads_of_mem_places hi he hp
    exact ⟨own, hown, hreads, fun s hs id args results hcall =>
      exists_reached hk horder hvalid hp hreads hs hcall⟩

/-- A door whose name goes on like a function. -/
def openingDoor : Model := { Model.door with name := "Door\nlocal function fn_Open(self)" }

/-- The door's headers can be found; with a name that goes on like one they cannot. -/
theorem door_calls_in_scope :
    (Model.door.OwnKeys ∧ Model.door.isValid = true ∧ ∃ e order ps,
      emit Model.door {} = .ok e ∧ Model.door.callOrder = .ok order ∧
      ps = places false Model.door order (bannerHeight Model.door + 4) ∧
      HeadersMatch (Names.ofModel Model.door).className (Text.split '\n' e.text)
        (verbatim false ps) ps) ∧
    openingDoor.OwnKeys ∧ openingDoor.isValid = true ∧ ∃ e order ps,
      emit openingDoor {} = .ok e ∧ openingDoor.callOrder = .ok order ∧
      ps = places false openingDoor order (bannerHeight openingDoor + 4) ∧
      ¬ HeadersMatch (Names.ofModel openingDoor).className (Text.split '\n' e.text)
        (verbatim false ps) ps := by
  refine ⟨⟨by decide, by decide, ?_⟩, by decide, by decide, ?_⟩
  · obtain ⟨e, order, ps, hemit, horder, hps, _, _, _, _, hmatch, _⟩ :=
      calls_in_scope Model.door {} (by decide) (by decide)
    exact ⟨e, order, ps, hemit, horder, hps, hmatch (by decide)⟩
  · obtain ⟨e, order, ps, hemit, horder, hps, _, _, _, hiff, _, _⟩ :=
      calls_in_scope openingDoor {} (by decide) (by decide)
    refine ⟨e, order, ps, hemit, horder, hps, fun hmatch => ?_⟩
    have hquiet := hiff.mp hmatch
      "local function fn_Open(self): generated by canvasc, do not edit" (by decide)
    have hopens : "local function ".toList <+:
        unindented "local function fn_Open(self): generated by canvasc, do not edit" := by decide
    exact hquiet.1 hopens

end GraphScript.Emit.Script
