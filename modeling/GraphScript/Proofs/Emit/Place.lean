import GraphScript.Proofs.Emit.Breaks
import GraphScript.Proofs.Nesting

/-!
# Proofs/Emit/Place — where statements stand in a chunk

How many lines a statement takes follows from its shape alone (`height`), and so does the line on
which it stands: a `Site` is a statement of a body next to its line, `blockSites` lists those of a
body in the order of the text, and a `Place` is a function next to the line of its header.  The
emitted lines agree: each statement's lines stand at its site (`stands_of_mem_blockSites`), each
function's at its place (`stands_of_mem_places`), and the origins recorded for a chunk are exactly
those of its places and sites (`symbolsFrom_lines`).
-/

namespace GraphScript.Emit.Script

open Code (Stands symbolsFrom symbolsFrom_append symbolsFrom_eq_nil)

/-! ## Heights -/

/-- The number of lines of script text; blank text has a comment above it. -/
def scriptHeight (source : String) : Nat :=
  (if (Text.trim source).isEmpty then 1 else 0) + (Text.lines source).length

mutual

/-- The number of lines of a statement. -/
def height (comments : Bool) : Statement → Nat
  | .mk _ _ kind => comments.toNat + kindHeight comments kind

/-- The number of lines of what a statement does. -/
def kindHeight (comments : Bool) : StatementKind → Nat
  | .cond _ t [] => blockHeight comments t + 2
  | .cond _ t (s :: r) => blockHeight comments t + blockHeight comments (s :: r) + 3
  | .loop _ b => blockHeight comments b + 2
  | .script source => scriptHeight source
  | _ => 1

/-- The number of lines of a block. -/
def blockHeight (comments : Bool) : List Statement → Nat
  | [] => 0
  | s :: r => height comments s + blockHeight comments r

end

mutual

/-- **A statement emits as many lines as its height.** -/
theorem length_statement (c : Context) (level : Nat) (isLast : Bool) : ∀ s : Statement,
    (statement c level isLast s).length = height c.nodeComments s
  | .mk origin slot kind => by
      rw [statement, height, List.length_append, Line.length_mark, length_kindLines]
      cases c.nodeComments
      · rfl
      · rfl

theorem length_kindLines (c : Context) (level : Nat) (isLast : Bool) (symbol : DebugSymbol) :
    ∀ k : StatementKind, (kindLines c level isLast symbol k).length = kindHeight c.nodeComments k
  | .cond e t [] => by
      simp only [kindLines, kindHeight, List.length_append, List.length_cons, List.length_nil,
        length_block c (level + 1) t]
  | .cond e t (s :: r) => by
      simp only [kindLines, kindHeight, List.length_append, List.length_cons, List.length_nil,
        length_block c (level + 1) t, length_block c (level + 1) (s :: r)]
      omega
  | .loop e b => by
      simp only [kindLines, kindHeight, List.length_append, List.length_cons, List.length_nil,
        length_block c (level + 1) b]
  | .script source => by
      rw [kindLines, kindHeight, scriptHeight, List.length_append, List.length_map]
      cases (Text.trim source).isEmpty
      · rfl
      · rfl
  | .setMember .. | .setLocal .. | .call .. | .fire .. | .log _ | .ret _ => rfl

/-- **A block takes as many lines as its shape says.** -/
theorem length_block (c : Context) (level : Nat) : ∀ body : List Statement,
    (block c level body).length = blockHeight c.nodeComments body
  | [] => rfl
  | s :: r => by
      rw [block, blockHeight, List.length_append, length_statement c level r.isEmpty s,
        length_block c level r]

end

/-! ## Sites -/

/-- A statement of a body: its line, its level, and whether its block ends with it. -/
structure Site where
  line : Nat
  level : Nat
  isLast : Bool
  statement : Statement

mutual

/-- The sites of a statement that starts at line `n`; a comment stands above it. -/
def sites (comments : Bool) (n level : Nat) (isLast : Bool) : Statement → List Site
  | .mk origin slot kind =>
    ⟨n + comments.toNat, level, isLast, .mk origin slot kind⟩ ::
      innerSites comments (n + comments.toNat) level kind

/-- The sites inside a statement whose first line is `n`. -/
def innerSites (comments : Bool) (n level : Nat) : StatementKind → List Site
  | .cond _ t [] => blockSites comments (n + 1) (level + 1) t
  | .cond _ t (s :: r) =>
    blockSites comments (n + 1) (level + 1) t ++
      blockSites comments (n + 1 + blockHeight comments t + 1) (level + 1) (s :: r)
  | .loop _ b => blockSites comments (n + 1) (level + 1) b
  | _ => []

/-- The sites of a block that starts at line `n`. -/
def blockSites (comments : Bool) (n level : Nat) : List Statement → List Site
  | [] => []
  | s :: r =>
    sites comments n level r.isEmpty s ++ blockSites comments (n + height comments s) level r

end

mutual

/-- There is a site for each statement inside, in the order of the walk. -/
theorem map_statement_sites (comments : Bool) (n level : Nat) (isLast : Bool) : ∀ s : Statement,
    (sites comments n level isLast s).map (·.statement) = s.walk
  | .mk origin slot kind => by
      rw [sites, Statement.walk, List.map_cons, map_statement_innerSites comments _ level kind]

theorem map_statement_innerSites (comments : Bool) (n level : Nat) : ∀ k : StatementKind,
    (innerSites comments n level k).map (·.statement) = Statement.walkKind k
  | .cond e t [] => by
      rw [innerSites, Statement.walkKind, map_statement_blockSites comments _ _ t,
        Statement.walkAll, List.append_nil]
  | .cond e t (s :: r) => by
      rw [innerSites, Statement.walkKind, List.map_append,
        map_statement_blockSites comments _ _ t, map_statement_blockSites comments _ _ (s :: r)]
  | .loop e b => by
      rw [innerSites, Statement.walkKind, map_statement_blockSites comments _ _ b]
  | .setMember .. | .setLocal .. | .call .. | .fire .. | .log _ | .ret _ | .script _ => rfl

/-- **The sites of a block are those of the statements in it**, in the order of the walk. -/
theorem map_statement_blockSites (comments : Bool) (n level : Nat) : ∀ body : List Statement,
    (blockSites comments n level body).map (·.statement) = Statement.walkAll body
  | [] => rfl
  | s :: r => by
      rw [blockSites, Statement.walkAll, List.map_append, map_statement_sites comments _ _ _ s,
        map_statement_blockSites comments _ _ r]

end

namespace Site

/-- Where a statement came from. -/
def symbol (function : String) (s : Site) : DebugSymbol :=
  ⟨s.statement.origin, s.statement.slot, function⟩

/-- What a statement writes, below its comment. -/
def lines (c : Context) (s : Site) : List Line :=
  kindLines c s.level s.isLast (s.symbol c.function) s.statement.kind

/-- The comment above a statement. -/
def comment (s : Site) : Line := ⟨s.level, s!"-- node {s.statement.origin}", none⟩

/-- The statement's lines stand at its line, and its comment right above. -/
structure Fits (c : Context) (all : List Line) (s : Site) : Prop where
  lines : Stands all s.line (Line.mark (s.symbol c.function) (s.lines c))
  comment : c.nodeComments = true → Stands all (s.line - 1) [s.comment]

end Site

mutual

/-- **Sites are where their statements stand.** -/
theorem fits_of_mem_sites {c : Context} {all : List Line} {n level : Nat} {isLast : Bool} :
    ∀ s : Statement, Stands all n (statement c level isLast s) →
      ∀ x ∈ sites c.nodeComments n level isLast s, x.Fits c all
  | .mk origin slot kind, h => by
      have hlines : Stands all (n + c.nodeComments.toNat)
          (Line.mark ⟨origin, slot, c.function⟩
            (kindLines c level isLast ⟨origin, slot, c.function⟩ kind)) := by
        have hright := h.right
        cases hc : c.nodeComments
        · simpa [hc] using hright
        · simpa [hc] using hright
      refine List.forall_mem_cons.mpr ⟨⟨hlines, fun hc => ?_⟩, fits_of_mem_innerSites kind hlines⟩
      have hleft := h.left
      simpa [hc, Site.comment, Statement.origin] using hleft

/-- Statements inside stand at their sites, at whatever depth. -/
theorem fits_of_mem_innerSites {c : Context} {all : List Line} {n level : Nat} {isLast : Bool}
    {symbol mark : DebugSymbol} : ∀ k : StatementKind,
      Stands all n (Line.mark mark (kindLines c level isLast symbol k)) →
        ∀ x ∈ innerSites c.nodeComments n level k, x.Fits c all
  | .cond e t [] => fun h => by
      rw [kindLines, List.cons_append, Line.mark] at h
      exact fits_of_mem_blockSites t h.tail.left
  | .cond e t (s :: r) => fun h => by
      rw [kindLines, List.cons_append, List.cons_append, Line.mark] at h
      have hthen := h.tail.left.left
      have helse := h.tail.left.right.tail
      rw [length_block] at helse
      exact List.forall_mem_append.mpr
        ⟨fits_of_mem_blockSites t hthen, fits_of_mem_blockSites (s :: r) helse⟩
  | .loop e b => fun h => by
      rw [kindLines, List.cons_append, Line.mark] at h
      exact fits_of_mem_blockSites b h.tail.left
  | .setMember .. | .setLocal .. | .call .. | .fire .. | .log _ | .ret _ | .script _ =>
      fun _ => List.forall_mem_nil _

/-- **The statements of a block stand at their sites.** -/
theorem fits_of_mem_blockSites {c : Context} {all : List Line} {n level : Nat} :
    ∀ body : List Statement, Stands all n (block c level body) →
      ∀ x ∈ blockSites c.nodeComments n level body, x.Fits c all
  | [], _ => List.forall_mem_nil _
  | s :: r, h => by
      have hrest := h.right
      rw [length_statement] at hrest
      exact List.forall_mem_append.mpr
        ⟨fits_of_mem_sites s h.left, fits_of_mem_blockSites r hrest⟩

end

/-! ## Records -/

/-- The lines of script text below the first line of the statement. -/
def furtherLines : StatementKind → Nat
  | .script source =>
    if (Text.trim source).isEmpty then (Text.lines source).length
    else (Text.lines source).length - 1
  | _ => 0

/-- What is recorded for a statement: its first line, and each further line of script text. -/
def Site.records (function : String) (s : Site) : List (Nat × DebugSymbol) :=
  (s.line, s.symbol function) ::
    (List.range (furtherLines s.statement.kind)).map fun i =>
      (s.line + 1 + i, s.symbol function)

/-- Each line of script text is recorded. -/
theorem symbolsFrom_map_some (symbol : DebugSymbol) (level : Nat) :
    ∀ (n : Nat) (texts : List String),
      symbolsFrom n (texts.map fun l => ⟨level, l, some symbol⟩) =
        (List.range texts.length).map fun i => (n + i, symbol)
  | _, [] => rfl
  | n, t :: texts => by
      rw [List.map_cons, symbolsFrom, symbolsFrom_map_some symbol level (n + 1) texts,
        List.length_cons, List.range_succ_eq_map, List.map_cons, List.map_map]
      refine congrArg _ (List.map_congr_left fun i _ => ?_)
      rw [Function.comp_apply, Nat.succ_eq_add_one, Nat.add_right_comm, Nat.add_assoc]

/-- Script text records its lines, one below the other. -/
theorem symbolsFrom_script (c : Context) (n level : Nat) (isLast : Bool) (symbol : DebugSymbol)
    (source : String) :
    symbolsFrom n (Line.mark symbol (kindLines c level isLast symbol (.script source))) =
      (n, symbol) :: (List.range (furtherLines (.script source))).map fun i =>
        (n + 1 + i, symbol) := by
  cases hblank : (Text.trim source).isEmpty with
  | true =>
    simp only [kindLines, furtherLines, hblank, if_true, List.singleton_append, Line.mark,
      symbolsFrom, symbolsFrom_map_some]
  | false =>
    cases hlines : Text.lines source with
    | nil => exact absurd hlines (Text.lines_ne_nil hblank)
    | cons l rest =>
      simp only [kindLines, furtherLines, hblank, hlines, List.nil_append, Line.mark, List.map_cons,
        symbolsFrom, symbolsFrom_map_some, Bool.false_eq_true, if_false, List.length_cons,
        Nat.add_sub_cancel]

mutual

/-- **What a statement records is what its sites record.** -/
theorem symbolsFrom_statement (c : Context) (n level : Nat) (isLast : Bool) : ∀ s : Statement,
    symbolsFrom n (statement c level isLast s) =
      (sites c.nodeComments n level isLast s).flatMap (Site.records c.function)
  | .mk origin slot kind => by
      have hcomment : symbolsFrom n
          (if c.nodeComments then [⟨level, s!"-- node {origin}", none⟩] else []) = [] := by
        cases c.nodeComments
        · rfl
        · rfl
      have hlen : (if c.nodeComments then [(⟨level, s!"-- node {origin}", none⟩ : Line)]
          else []).length = c.nodeComments.toNat := by
        cases c.nodeComments
        · rfl
        · rfl
      rw [statement, symbolsFrom_append, hcomment, List.nil_append, hlen,
        symbolsFrom_kindLines c _ level isLast ⟨origin, slot, c.function⟩ kind, sites,
        List.flatMap_cons]
      rfl

theorem symbolsFrom_kindLines (c : Context) (n level : Nat) (isLast : Bool)
    (symbol : DebugSymbol) : ∀ k : StatementKind,
      symbolsFrom n (Line.mark symbol (kindLines c level isLast symbol k)) =
        ((n, symbol) :: (List.range (furtherLines k)).map fun i => (n + 1 + i, symbol)) ++
          (innerSites c.nodeComments n level k).flatMap (Site.records c.function)
  | .cond e t [] => by
      simp only [kindLines, Line.mark, List.cons_append, symbolsFrom, symbolsFrom_append,
        symbolsFrom_block c _ _ t, innerSites, furtherLines, List.range_zero, List.map_nil,
        List.nil_append, List.append_nil]
  | .cond e t (s :: r) => by
      simp only [kindLines, Line.mark, List.cons_append, symbolsFrom, symbolsFrom_append,
        symbolsFrom_block c _ _ t, symbolsFrom_block c _ _ (s :: r), innerSites, furtherLines,
        List.range_zero, List.map_nil, List.nil_append, List.append_nil, length_block,
        List.flatMap_append]
  | .loop e b => by
      simp only [kindLines, Line.mark, List.cons_append, symbolsFrom, symbolsFrom_append,
        symbolsFrom_block c _ _ b, innerSites, furtherLines, List.range_zero, List.map_nil,
        List.nil_append, List.append_nil]
  | .script source =>
      (symbolsFrom_script c n level isLast symbol source).trans (List.append_nil _).symm
  | .setMember .. | .setLocal .. | .call .. | .fire .. | .log _ | .ret _ => rfl

/-- **What is recorded for a block is what its sites record.** -/
theorem symbolsFrom_block (c : Context) (n level : Nat) : ∀ body : List Statement,
    symbolsFrom n (block c level body) =
      (blockSites c.nodeComments n level body).flatMap (Site.records c.function)
  | [] => rfl
  | s :: r => by
      rw [block, symbolsFrom_append, symbolsFrom_statement c n level r.isEmpty s, length_statement,
        symbolsFrom_block c _ level r, blockSites, List.flatMap_append]

end

/-! ## Places -/

/-- The number of lines of a function. -/
def functionHeight (comments : Bool) (f : FunctionDef) : Nat :=
  f.locals.length + blockHeight comments f.body + 3

/-- A function and the line of its header. -/
structure Place where
  line : Nat
  function : FunctionDef

namespace Place

/-- The sites of a function's body, below its header and its locals. -/
def sites (comments : Bool) (p : Place) : List Site :=
  blockSites comments (p.line + 1 + p.function.locals.length) 1 p.function.body

/-- What is recorded for a function: its header, then its body. -/
def records (comments : Bool) (p : Place) : List (Nat × DebugSymbol) :=
  (p.line, ⟨p.function.origin, none, p.function.name⟩) ::
    (p.sites comments).flatMap (Site.records p.function.name)

end Place

/-- Functions one below the other from line `n` on. -/
def stack (comments : Bool) : Nat → List FunctionDef → List Place
  | _, [] => []
  | n, f :: fs => ⟨n, f⟩ :: stack comments (n + functionHeight comments f) fs

/-- The number of lines of functions one below the other. -/
def stackHeight (comments : Bool) : List FunctionDef → Nat
  | [] => 0
  | f :: fs => functionHeight comments f + stackHeight comments fs

/-- The places of a chunk whose first function stands at line `n`: the internal functions, then,
below the constructor, the entries. -/
def places (comments : Bool) (m : Model) (order : List FunctionId) (n : Nat) : List Place :=
  stack comments n (internals m order) ++
    stack comments (n + stackHeight comments (internals m order) + (m.members.length + 6))
      (entries m)

/-- There is a place for each function. -/
theorem map_function_stack (comments : Bool) : ∀ (n : Nat) (fs : List FunctionDef),
    (stack comments n fs).map (·.function) = fs
  | _, [] => rfl
  | n, f :: fs => by rw [stack, List.map_cons, map_function_stack comments _ fs]

/-- Places are those of helpers, and then those of entries. -/
theorem map_function_places (comments : Bool) (m : Model) (order : List FunctionId) (n : Nat) :
    (places comments m order n).map (·.function) = internals m order ++ entries m := by
  rw [places, List.map_append, map_function_stack, map_function_stack]

/-- The identifiers of the function are known, one for each local. -/
def Known (names : Names) (f : FunctionDef) : Prop :=
  ∃ own, names.function? f.id = some own ∧ own.locals.length = f.locals.length

section Functions

variable {m : Model} {names : Names} {o : Options}

/-- A function emits as many lines as its height. -/
theorem length_function {f : FunctionDef} (hf : Known names f) :
    (function m names o f).length = functionHeight o.nodeComments f := by
  obtain ⟨own, hown, hlen⟩ := hf
  simp only [function, hown, functionHeight, List.length_append, List.length_cons, List.length_map,
    List.length_zip, hlen, Nat.min_self, length_block, List.length_nil]
  omega

/-- A function records its header and its sites. -/
theorem symbolsFrom_function {f : FunctionDef} (hf : Known names f) (n : Nat) :
    symbolsFrom n (function m names o f) = Place.records o.nodeComments ⟨n, f⟩ := by
  obtain ⟨own, hown, hlen⟩ := hf
  have hlocals (declare : Param × String → Line) (hnone : ∀ e, (declare e).symbol = none) :
      symbolsFrom (n + 1) ((f.locals.zip own.locals).map declare) = [] :=
    symbolsFrom_eq_nil _ (List.forall_mem_map.mpr fun e _ => hnone e)
  simp only [function, hown, List.cons_append, symbolsFrom, symbolsFrom_append, symbolsFrom_block,
    List.length_map, List.length_zip, hlen, Nat.min_self, Line.blank, List.append_nil,
    Place.records, Place.sites]
  rw [hlocals, List.nil_append]
  exact fun _ => rfl

/-- Functions in turn emit as many lines as their heights together. -/
theorem length_flatMap_function : ∀ {fs : List FunctionDef}, (∀ f ∈ fs, Known names f) →
    (fs.flatMap (function m names o)).length = stackHeight o.nodeComments fs
  | [], _ => rfl
  | f :: fs, h => by
      rw [List.flatMap_cons, List.length_append, length_function (h f List.mem_cons_self),
        length_flatMap_function fun x hx => h x (List.mem_cons_of_mem _ hx)]
      rfl

/-- Functions in turn record what they record in their places. -/
theorem symbolsFrom_flatMap_function : ∀ {fs : List FunctionDef} {n : Nat},
    (∀ f ∈ fs, Known names f) →
      symbolsFrom n (fs.flatMap (function m names o)) =
        (stack o.nodeComments n fs).flatMap (Place.records o.nodeComments)
  | [], _, _ => rfl
  | f :: fs, n, h => by
      rw [List.flatMap_cons, symbolsFrom_append, symbolsFrom_function (h f List.mem_cons_self),
        length_function (h f List.mem_cons_self),
        symbolsFrom_flatMap_function fun x hx => h x (List.mem_cons_of_mem _ hx), stack,
        List.flatMap_cons]

/-- Each function stands in its place. -/
theorem stands_of_mem_stack {all : List Line} : ∀ {fs : List FunctionDef} {n : Nat},
    (∀ f ∈ fs, Known names f) → Stands all n (fs.flatMap (function m names o)) →
      ∀ p ∈ stack o.nodeComments n fs, Stands all p.line (function m names o p.function)
  | [], _, _, _ => List.forall_mem_nil _
  | f :: fs, n, h, hs => by
      have hrest := hs.right
      rw [length_function (h f List.mem_cons_self)] at hrest
      exact List.forall_mem_cons.mpr
        ⟨hs.left, stands_of_mem_stack (fun x hx => h x (List.mem_cons_of_mem _ hx)) hrest⟩

end Functions

/-! ## Chunks -/

/-- The constructor has a line for each variable and six of its own. -/
theorem length_constructor (m : Model) (names : Names) :
    (constructor m names).length = m.members.length + 6 := by
  simp only [constructor, List.length_append, List.length_cons, List.length_nil, List.length_map]
  omega

section Chunk

variable {m : Model} {o : Options} {order : List FunctionId}

/-- The lines between the first line of a chunk and its entries. -/
theorem add_length_above_entries (hi : ∀ f ∈ internals m order, Known (Names.ofModel m) f)
    (n : Nat) : n + ((opening m (Names.ofModel m)).tail ++
      (internals m order).flatMap (function m (Names.ofModel m) o) ++
      constructor m (Names.ofModel m)).length =
        n + 3 + stackHeight o.nodeComments (internals m order) + (m.members.length + 6) := by
  have hopening : (opening m (Names.ofModel m)).tail.length = 3 := rfl
  rw [List.length_append, List.length_append, length_constructor, length_flatMap_function hi,
    hopening]
  omega

/-- **The functions of a chunk stand at their places.** -/
theorem stands_of_mem_places (hi : ∀ f ∈ internals m order, Known (Names.ofModel m) f)
    (he : ∀ f ∈ entries m, Known (Names.ofModel m) f) {all : List Line} {n : Nat}
    (h : Stands all n (rest m o order)) : ∀ p ∈ places o.nodeComments m order (n + 3),
      Stands all p.line (function m (Names.ofModel m) o p.function) := by
  have hinternals : Stands all (n + 3)
      ((internals m order).flatMap (function m (Names.ofModel m) o)) := h.left.left.left.right
  have hentries := h.left.right
  rw [add_length_above_entries hi] at hentries
  exact List.forall_mem_append.mpr
    ⟨stands_of_mem_stack hi hinternals, stands_of_mem_stack he hentries⟩

/-- **What is recorded for a chunk is what its places record.** -/
theorem symbolsFrom_rest (hi : ∀ f ∈ internals m order, Known (Names.ofModel m) f)
    (he : ∀ f ∈ entries m, Known (Names.ofModel m) f) (n : Nat) :
    symbolsFrom n (rest m o order) =
      (places o.nodeComments m order (n + 3)).flatMap (Place.records o.nodeComments) := by
  have hopening : symbolsFrom n (opening m (Names.ofModel m)).tail = [] := rfl
  have hconstructor : ∀ k, symbolsFrom k (constructor m (Names.ofModel m)) = [] := fun k =>
    symbolsFrom_eq_nil k (List.forall_mem_append.mpr ⟨List.forall_mem_append.mpr
      ⟨by simp, List.forall_mem_map.mpr fun _ _ => rfl⟩, by decide⟩)
  have hreturn : ∀ k, symbolsFrom k [⟨0, "return " ++ (Names.ofModel m).className, none⟩] = [] :=
    fun _ => rfl
  have hinternals := symbolsFrom_flatMap_function (m := m) (o := o) (n := n + 3) hi
  have hentries := symbolsFrom_flatMap_function (m := m) (o := o)
    (n := n + 3 + stackHeight o.nodeComments (internals m order) + (m.members.length + 6)) he
  rw [rest, symbolsFrom_append, hreturn, List.append_nil, symbolsFrom_append,
    add_length_above_entries hi, hentries, symbolsFrom_append,
    hconstructor, List.append_nil, symbolsFrom_append, hopening, List.nil_append, places,
    List.flatMap_append]
  exact congrArg (· ++ _) hinternals

end Chunk

/-! ## Reading a function in the text -/

theorem kindLines_ne_nil (c : Context) (level : Nat) (isLast : Bool) (symbol : DebugSymbol) :
    ∀ k : StatementKind, kindLines c level isLast symbol k ≠ []
  | .script source => by
      cases hblank : (Text.trim source).isEmpty with
      | true => simp [kindLines, hblank]
      | false => simp [kindLines, hblank, Text.lines_ne_nil hblank]
  | .cond _ _ [] | .cond _ _ (_ :: _) | .loop .. => by simp [kindLines]
  | .setMember .. | .setLocal .. | .call .. | .fire .. | .log _ | .ret _ => List.cons_ne_nil _ _

namespace Place

/-- A function can be read in a text at its place, and each statement of it at its site. -/
structure Reads (c : Context) (width : Nat) (text : List String) (p : Place) : Prop where
  header : Stands text p.line [Script.header c.names p.function c.locals]
  statements : (p.sites c.nodeComments).map (·.statement) = Statement.walkAll p.function.body
  lines : ∀ s ∈ p.sites c.nodeComments, s.lines c ≠ [] ∧
    Stands text s.line ((s.lines c).map (Line.shown width))
  comment : c.nodeComments = true → ∀ s ∈ p.sites c.nodeComments,
    Stands text (s.line - 1) [s.comment.shown width]

/-- What stands at a place can be read there. -/
theorem reads_of_stands {m : Model} {names : Names} {o : Options} {all : List Line} {p : Place}
    {own : Names.Function} (hown : names.function? p.function.id = some own)
    (hlen : own.locals.length = p.function.locals.length)
    (h : Stands all p.line (Script.function m names o p.function)) :
    p.Reads ⟨m, names, o.nodeComments, p.function.name, own⟩ o.indentWidth
      (all.map (Line.shown o.indentWidth)) := by
  simp only [Script.function, hown] at h
  have hbody := h.left.right
  rw [List.length_cons, List.length_map, List.length_zip, hlen, Nat.min_self, Nat.add_comm _ 1,
    ← Nat.add_assoc] at hbody
  have hfits := fits_of_mem_blockSites _ hbody
  refine ⟨?_, map_statement_blockSites _ _ _ _, fun s hs => ⟨kindLines_ne_nil _ _ _ _ _, ?_⟩,
    fun hc s hs => ((hfits s hs).comment hc).map _⟩
  · have hheader := (h.head).map (Line.shown o.indentWidth)
    rwa [List.map_singleton, Line.shown_of_level (l := ⟨0, _, _⟩) _ rfl] at hheader
  · have hlines := ((hfits s hs).lines).map (Line.shown o.indentWidth)
    rwa [Line.map_shown_mark] at hlines

/-- What can be read in a text can be read in one that goes on. -/
theorem Reads.append {c : Context} {width : Nat} {text : List String} {p : Place}
    (h : p.Reads c width text) (l : List String) : p.Reads c width (text ++ l) where
  header := h.header.append l
  statements := h.statements
  lines s hs := ⟨(h.lines s hs).1, (h.lines s hs).2.append l⟩
  comment hc s hs := (h.comment hc s hs).append l

end Place

end GraphScript.Emit.Script
