import GraphScript.Proofs.Emit.Chunk
import GraphScript.Proofs.Emit.Headers
import GraphScript.Proofs.Nesting
import GraphScript.Proofs.Reach
import Mathlib.Data.List.Chain

/-!
# Proofs/Emit/Blocks — blocks that are opened are closed

    header ⟨ if … then ⟨ … ⟩ else ⟨ … ⟩ end   while … do ⟨ … ⟩ end ⟩ end

`depths` reads the lines of a function with the stack of open blocks and finds the level of each; it
refuses lines that leave a block open, close one too many or switch something that is no branch.
What a body without script text emits is a `Body`, a grammar of blocks at a level.  Reading a body
gives back the levels at which it was written (`depths_marks`), so the lines of every function are
nested and each stands as far in as blocks are open (`function_nested`).
-/

namespace GraphScript.Emit.Script

open Code (Stands)

/-! ## Reading blocks -/

/-- A block that is open.  A branch has not met its `else` yet. -/
inductive Block where
  | function | branch | otherwise | loop
  deriving DecidableEq, Repr

/-- What a line does to the open blocks. -/
inductive Mark where
  | plain
  | opens (b : Block)
  | switches
  | closes
  deriving DecidableEq, Repr

/-- What a line does, given without the blanks in front. -/
def markOf (cs : List Char) : Mark :=
  if "if ".toList <+: cs ∧ " then".toList <:+ cs then .opens .branch
  else if "while ".toList <+: cs ∧ " do".toList <:+ cs then .opens .loop
  else if cs = "else".toList then .switches
  else if cs = "end".toList then .closes
  else .plain

/-- The levels of the lines that stand inside open blocks, the innermost first: as many as blocks
are open, and for a line that switches or closes a block that of the line which opened it.  There
are none if a block is left open or a line has none to stand in, or switches what is no branch. -/
def depths : List Block → List Mark → Option (List Nat)
  | [], [] => some []
  | [], _ :: _ => none
  | _ :: _, [] => none
  | b :: blocks, .plain :: marks => (depths (b :: blocks) marks).map ((b :: blocks).length :: ·)
  | b :: blocks, .opens inner :: marks =>
    (depths (inner :: b :: blocks) marks).map ((b :: blocks).length :: ·)
  | .branch :: blocks, .switches :: marks =>
    (depths (.otherwise :: blocks) marks).map (blocks.length :: ·)
  | _ :: _, .switches :: _ => none
  | _ :: blocks, .closes :: marks => (depths blocks marks).map (blocks.length :: ·)

/-- The number of blanks in front of a line. -/
def indentation (line : String) : Nat := (line.toList.takeWhile (· = ' ')).length

/-- The line returns, and is not wrapped in a block of its own. -/
def Returns (line : String) : Prop := "return".toList <+: unindented line

/-- The line ends a block or switches one. -/
def Breaks (line : String) : Prop := markOf (unindented line) ∈ [.switches, .closes]

instance (line : String) : Decidable (Returns line) :=
  inferInstanceAs (Decidable ("return".toList <+: unindented line))

instance (line : String) : Decidable (Breaks line) :=
  inferInstanceAs (Decidable (markOf (unindented line) ∈ [.switches, .closes]))

/-- A function's lines below its header are nested: the blocks that the header and they open are
closed again, the header's by the last line; each line is indented by its level; and below a line
that returns, a block ends or is switched. -/
structure Nested (width : Nat) (header : String) (below : List String) : Prop where
  header : indentation header = 0
  levels : ∃ levels, depths [.function] (below.map (markOf ∘ unindented)) = some levels ∧
    below.map indentation = levels.map (· * width)
  last : below.getLast? = some "end"
  returns : ∀ n line, below[n]? = some line → Returns line →
    ∃ next, below[n + 1]? = some next ∧ Breaks next

example : depths [.function] (["  if c then", "    return", "  else", "  end", "end"].map
    (markOf ∘ unindented)) = some [1, 2, 1, 1, 0] := by decide

example : depths [.function] (["  while c do", "  else", "  end", "end"].map
    (markOf ∘ unindented)) = none := by decide

/-! ## Plain lines -/

/-- Neither of two texts begins with the other. -/
def unlike (a b : String) : Bool :=
  !a.toList.isPrefixOf b.toList && !b.toList.isPrefixOf a.toList

/-- Neither of two texts begins with the other. -/
theorem unlike_iff {a b : String} :
    unlike a b = true ↔ ¬ a.toList <+: b.toList ∧ ¬ b.toList <+: a.toList := by
  simp only [unlike, Bool.and_eq_true, Bool.not_eq_true', ← Bool.not_eq_true,
    List.isPrefixOf_iff_prefix]

/-- However a text goes on, it stays different. -/
theorem unlike_append {a b word : String} (h : unlike a word = true) :
    unlike (a ++ b) word = true := by
  obtain ⟨hnot, hnot'⟩ := unlike_iff.mp h
  refine unlike_iff.mpr ?_
  rw [String.toList_append]
  refine ⟨fun hpre => hnot ((List.prefix_append _ _).trans hpre), fun hpre => ?_⟩
  exact (List.prefix_or_prefix_of_prefix hpre (List.prefix_append _ _)).elim hnot' hnot

/-- The words that lines about blocks begin with. -/
def blockWords : List String := ["if ", "while ", "else", "end"]

/-- A line that is unlike all words that open or close a block marks none. -/
theorem markOf_of_unlike {text : String} (h : blockWords.all (unlike text) = true) :
    markOf text.toList = .plain := by
  have hnot : ∀ word ∈ blockWords, ¬ word.toList <+: text.toList := fun word hword =>
    (unlike_iff.mp (List.all_eq_true.mp h word hword)).2
  have hif := hnot "if " (by decide)
  have hwhile := hnot "while " (by decide)
  have helse : text.toList ≠ "else".toList := fun heq =>
    hnot "else" (by decide) (heq ▸ List.prefix_refl _)
  have hend : text.toList ≠ "end".toList := fun heq =>
    hnot "end" (by decide) (heq ▸ List.prefix_refl _)
  rw [markOf, if_neg fun hopens => hif hopens.1, if_neg fun hopens => hwhile hopens.1,
    if_neg helse, if_neg hend]

/-- A text begins with none of those words, does not return and is not indented. -/
def startsPlain (text : String) : Bool := (" " :: "return" :: blockWords).all (unlike text)

/-- Whether a line starts plainly is decided at its beginning. -/
theorem startsPlain_append {a b : String} (h : startsPlain a = true) :
    startsPlain (a ++ b) = true :=
  List.all_eq_true.mpr fun word hword => unlike_append (List.all_eq_true.mp h word hword)

/-- A text begins with something else than a blank. -/
def StartsUnindented (text : String) : Prop := ∃ c, text.toList.head? = some c ∧ c ≠ ' '

theorem StartsUnindented.append {a b : String} (h : StartsUnindented a) :
    StartsUnindented (a ++ b) := by
  obtain ⟨c, hc, hblank⟩ := h
  refine ⟨c, ?_, hblank⟩
  rw [String.toList_append]
  exact head?_eq_of_isPrefix hc (List.prefix_append _ _)

/-- A text that starts with no blank is what it is without indentation. -/
theorem StartsUnindented.unindented {text : String} (h : StartsUnindented text) :
    unindented text = text.toList := by
  obtain ⟨c, hc, hblank⟩ := h
  exact unindented_of_head hc hblank

/-- **A line is indented by its level.** -/
theorem StartsUnindented.indentation_shown {l : Line} (h : StartsUnindented l.text) (width : Nat) :
    indentation (l.shown width) = l.level * width := by
  obtain ⟨c, hc, hblank⟩ := h
  obtain ⟨r, hr⟩ := List.head?_eq_some_iff.mp hc
  have hne : l.text.isEmpty = false := by
    rw [← Bool.not_eq_true, String.isEmpty_iff]
    intro hempty
    rw [hempty] at hr
    cases hr
  rw [Line.shown, hne, if_neg Bool.false_ne_true, indentation, String.toList_append,
    String.toList_ofList, List.takeWhile_append_of_pos (by simp [List.mem_replicate]), hr,
    List.takeWhile_cons_of_neg (by simpa using hblank), List.append_nil, List.length_replicate]

/-- A line that is unlike the word for it does not return. -/
theorem not_returns_of_unlike {text : String} (ht : StartsUnindented text)
    (h : unlike text "return" = true) : ¬ Returns text := by
  rw [Returns, ht.unindented]
  exact (unlike_iff.mp h).2

section Plain

variable {text : String} (h : startsPlain text = true)

include h

theorem startsUnindented_of_startsPlain : StartsUnindented text := by
  obtain ⟨hempty, hblank⟩ := unlike_iff.mp (List.all_eq_true.mp h " " List.mem_cons_self)
  cases hchars : text.toList with
  | nil => exact absurd (hchars ▸ List.nil_prefix) hempty
  | cons c r =>
    refine ⟨c, by rw [hchars]; rfl, ?_⟩
    rintro rfl
    exact hblank (hchars ▸ ⟨r, rfl⟩)

/-- A line that starts plainly marks no block. -/
theorem markOf_of_startsPlain : markOf text.toList = .plain :=
  markOf_of_unlike (List.all_eq_true.mpr fun word hword => List.all_eq_true.mp h word
    (List.mem_cons_of_mem _ (List.mem_cons_of_mem _ hword)))

/-- A line that starts plainly does not return. -/
theorem not_returns_of_startsPlain : ¬ Returns text :=
  not_returns_of_unlike (startsUnindented_of_startsPlain h)
    (List.all_eq_true.mp h "return" (by decide))

end Plain

/-! ## The grammar of a body -/

/-- The lines of a body at a level.  A line that returns is the last of its body. -/
inductive Body : Nat → List Line → Prop
  | nil {k : Nat} : Body k []
  | plain {k : Nat} {text : String} {symbol : Option DebugSymbol} {below : List Line}
      (ht : startsPlain text = true) (h : Body k below) : Body k (⟨k, text, symbol⟩ :: below)
  | ret {k : Nat} (tail : String) {symbol : Option DebugSymbol} :
      Body k [⟨k, "return" ++ tail, symbol⟩]
  | branch {k : Nat} (c : String) {symbol : Option DebugSymbol} {inner below : List Line}
      (hi : Body (k + 1) inner) (h : Body k below) :
      Body k (⟨k, "if " ++ c ++ " then", symbol⟩ :: (inner ++ ⟨k, "end", none⟩ :: below))
  | branchElse {k : Nat} (c : String) {symbol : Option DebugSymbol} {inner other below : List Line}
      (hi : Body (k + 1) inner) (ho : Body (k + 1) other) (h : Body k below) :
      Body k (⟨k, "if " ++ c ++ " then", symbol⟩ ::
        (inner ++ ⟨k, "else", none⟩ :: (other ++ ⟨k, "end", none⟩ :: below)))
  | loop {k : Nat} (c : String) {symbol : Option DebugSymbol} {inner below : List Line}
      (hi : Body (k + 1) inner) (h : Body k below) :
      Body k (⟨k, "while " ++ c ++ " do", symbol⟩ :: (inner ++ ⟨k, "end", none⟩ :: below))

/-- A condition opens a branch. -/
theorem markOf_if (c : String) : markOf ("if " ++ c ++ " then").toList = .opens .branch := by
  refine if_pos ⟨?_, ?_⟩
  · rw [String.append_assoc, String.toList_append]
    exact List.prefix_append _ _
  · rw [String.toList_append]
    exact List.suffix_append _ _

/-- A repetition opens a loop. -/
theorem markOf_while (c : String) : markOf ("while " ++ c ++ " do").toList = .opens .loop := by
  have hif : ¬ "if ".toList <+: ("while " ++ c ++ " do").toList :=
    (unlike_iff.mp (unlike_append (unlike_append (by decide)))).2
  rw [markOf, if_neg fun hopens => hif hopens.1]
  refine if_pos ⟨?_, ?_⟩
  · rw [String.append_assoc, String.toList_append]
    exact List.prefix_append _ _
  · rw [String.toList_append]
    exact List.suffix_append _ _

/-- A line that returns marks no block. -/
theorem markOf_return (tail : String) : markOf ("return" ++ tail).toList = .plain := by
  have hreturn : blockWords.all (unlike "return") = true := by decide
  exact markOf_of_unlike (List.all_eq_true.mpr fun word hword =>
    unlike_append (List.all_eq_true.mp hreturn word hword))

/-- What each line does to the open blocks. -/
def marks (ls : List Line) : List Mark := ls.map fun l => markOf (unindented l.text)

theorem marks_append (ls rs : List Line) : marks (ls ++ rs) = marks ls ++ marks rs :=
  List.map_append

/-- A line marks what its text marks, wherever it is indented. -/
theorem marks_cons {text : String} {mark : Mark} (ht : StartsUnindented text)
    (hm : markOf text.toList = mark) (k : Nat) (symbol : Option DebugSymbol) (ls : List Line) :
    marks (⟨k, text, symbol⟩ :: ls) = mark :: marks ls := by
  rw [marks, List.map_cons, ht.unindented, hm]
  rfl

/-- Marks can be read off the lines as shown. -/
theorem map_markOf_shown (width : Nat) (ls : List Line) :
    (ls.map (Line.shown width)).map (markOf ∘ unindented) = marks ls := by
  rw [List.map_map]
  exact List.map_congr_left fun l _ => congrArg markOf (unindented_shown width l)

theorem startsUnindented_if (c : String) : StartsUnindented ("if " ++ c ++ " then") :=
  StartsUnindented.append (.append ⟨'i', rfl, by decide⟩)

theorem startsUnindented_while (c : String) : StartsUnindented ("while " ++ c ++ " do") :=
  StartsUnindented.append (.append ⟨'w', rfl, by decide⟩)

theorem startsUnindented_return (tail : String) : StartsUnindented ("return" ++ tail) :=
  .append ⟨'r', rfl, by decide⟩

theorem startsUnindented_else : StartsUnindented "else" := ⟨'e', rfl, by decide⟩

theorem startsUnindented_end : StartsUnindented "end" := ⟨'e', rfl, by decide⟩

/-- The other branch follows. -/
theorem marks_else (k : Nat) (ls : List Line) :
    marks (⟨k, "else", none⟩ :: ls) = .switches :: marks ls :=
  marks_cons startsUnindented_else (by decide) k none ls

theorem marks_end (k : Nat) (ls : List Line) :
    marks (⟨k, "end", none⟩ :: ls) = .closes :: marks ls :=
  marks_cons startsUnindented_end (by decide) k none ls

theorem not_returns_if (c : String) : ¬ Returns ("if " ++ c ++ " then") :=
  not_returns_of_unlike (startsUnindented_if c) (unlike_append (unlike_append (by decide)))

theorem not_returns_while (c : String) : ¬ Returns ("while " ++ c ++ " do") :=
  not_returns_of_unlike (startsUnindented_while c) (unlike_append (unlike_append (by decide)))

theorem not_returns_else : ¬ Returns "else" :=
  not_returns_of_unlike startsUnindented_else (by decide)

theorem not_returns_end : ¬ Returns "end" := not_returns_of_unlike startsUnindented_end (by decide)

/-- The second of two lines ends or switches a block if the first returns. -/
def Follows (line next : Line) : Prop := Returns line.text → Breaks next.text

/-- A line that does not return may be followed by anything. -/
theorem isChain_cons_of_not_returns {l : Line} {ls : List Line} (hl : ¬ Returns l.text)
    (h : ls.IsChain Follows) : (l :: ls).IsChain Follows :=
  List.isChain_cons.mpr ⟨fun _ _ hreturns => absurd hreturns hl, h⟩

theorem breaks_else : Breaks "else" := by decide

theorem breaks_end : Breaks "end" := by decide

theorem isChain_end {k : Nat} {ls : List Line} (h : ls.IsChain Follows) :
    (⟨k, "end", none⟩ :: ls).IsChain Follows := isChain_cons_of_not_returns not_returns_end h

namespace Body

variable {k : Nat} {ls : List Line}

/-- The origin of its first line is no matter for a body. -/
theorem mark {rest : List Line} (h : Body k (ls ++ rest)) (hne : ls ≠ []) (s : DebugSymbol) :
    Body k (Line.mark s ls ++ rest) := by
  cases ls with
  | nil => exact absurd rfl hne
  | cons l ls =>
    rw [List.cons_append] at h
    rw [Line.mark, List.cons_append]
    generalize ls ++ rest = below at h ⊢
    cases h with
    | plain ht h => exact .plain ht h
    | ret tail => exact .ret tail
    | branch c hi h => exact .branch c hi h
    | branchElse c hi ho h => exact .branchElse c hi ho h
    | loop c hi h => exact .loop c hi h

/-- Lines of a body start with no blank. -/
theorem startsUnindented (h : Body k ls) : ∀ l ∈ ls, StartsUnindented l.text := by
  induction h with
  | nil => exact List.forall_mem_nil _
  | plain ht _ ih => exact List.forall_mem_cons.mpr ⟨startsUnindented_of_startsPlain ht, ih⟩
  | ret tail => exact List.forall_mem_singleton.mpr (startsUnindented_return tail)
  | branch c _ _ ihi ih =>
    exact List.forall_mem_cons.mpr ⟨startsUnindented_if c, List.forall_mem_append.mpr
      ⟨ihi, List.forall_mem_cons.mpr ⟨startsUnindented_end, ih⟩⟩⟩
  | branchElse c _ _ _ ihi iho ih =>
    exact List.forall_mem_cons.mpr ⟨startsUnindented_if c, List.forall_mem_append.mpr
      ⟨ihi, List.forall_mem_cons.mpr ⟨startsUnindented_else, List.forall_mem_append.mpr
        ⟨iho, List.forall_mem_cons.mpr ⟨startsUnindented_end, ih⟩⟩⟩⟩⟩
  | loop c _ _ ihi ih =>
    exact List.forall_mem_cons.mpr ⟨startsUnindented_while c, List.forall_mem_append.mpr
      ⟨ihi, List.forall_mem_cons.mpr ⟨startsUnindented_end, ih⟩⟩⟩

/-- **A body is read at the levels at which it was written**, and leaves the blocks around it as
they were. -/
theorem depths_marks (h : Body k ls) (b : Block) (blocks : List Block)
    (hk : (b :: blocks).length = k) (after : List Mark) :
    depths (b :: blocks) (marks ls ++ after) =
      (depths (b :: blocks) after).map (ls.map (·.level) ++ ·) := by
  -- The blocks around vary: an inner body stands inside one more of them.
  induction h generalizing b blocks after with
  | nil => exact Option.map_id'.symm
  | @plain k text symbol below ht _ ih =>
    rw [marks_cons (startsUnindented_of_startsPlain ht) (markOf_of_startsPlain ht),
      List.cons_append, depths, ih b blocks hk, hk, Option.map_map]
    rfl
  | @ret k tail symbol =>
    rw [marks_cons (startsUnindented_return tail) (markOf_return tail), List.cons_append, depths,
      hk]
    rfl
  | @branch k c symbol inner below _ _ ihi ih =>
    rw [marks_cons (startsUnindented_if c) (markOf_if c), marks_append, marks_end,
      List.cons_append, List.append_assoc, depths, ihi .branch (b :: blocks) (congrArg (· + 1) hk),
      List.cons_append, depths, ih b blocks hk, hk]
    simp [Function.comp_def]
  | @branchElse k c symbol inner other below _ _ _ ihi iho ih =>
    rw [marks_cons (startsUnindented_if c) (markOf_if c), marks_append, marks_else, marks_append,
      marks_end, List.cons_append, List.append_assoc, depths,
      ihi .branch (b :: blocks) (congrArg (· + 1) hk), List.cons_append, depths, List.append_assoc,
      iho .otherwise (b :: blocks) (congrArg (· + 1) hk), List.cons_append, depths,
      ih b blocks hk, hk]
    simp [Function.comp_def]
  | @loop k c symbol inner below _ _ ihi ih =>
    rw [marks_cons (startsUnindented_while c) (markOf_while c), marks_append, marks_end,
      List.cons_append, List.append_assoc, depths, ihi .loop (b :: blocks) (congrArg (· + 1) hk),
      List.cons_append, depths, ih b blocks hk, hk]
    simp [Function.comp_def]

/-- Whatever stands below a body that ends or switches a block, returns in the body are followed by
such a line. -/
theorem isChain (h : Body k ls) {next : Line} {after : List Line}
    (hnext : Breaks next.text) (hafter : (next :: after).IsChain Follows) :
    (ls ++ next :: after).IsChain Follows := by
  induction h generalizing next after with
  | nil => exact hafter
  | plain ht _ ih =>
    exact isChain_cons_of_not_returns (not_returns_of_startsPlain ht) (ih hnext hafter)
  | ret tail => exact List.isChain_cons_cons.mpr ⟨fun _ => hnext, hafter⟩
  | branch c _ _ ihi ih =>
    rw [List.cons_append, List.append_assoc]
    exact isChain_cons_of_not_returns (not_returns_if c)
      (ihi breaks_end (isChain_end (ih hnext hafter)))
  | @branchElse k c symbol inner other below _ _ _ ihi iho ih =>
    rw [List.cons_append, List.append_assoc, List.cons_append, List.append_assoc]
    have hother := iho breaks_end (isChain_end (k := k) (ih hnext hafter))
    exact isChain_cons_of_not_returns (not_returns_if c)
      (ihi breaks_else (isChain_cons_of_not_returns not_returns_else hother))
  | loop c _ _ ihi ih =>
    rw [List.cons_append, List.append_assoc]
    exact isChain_cons_of_not_returns (not_returns_while c)
      (ihi breaks_end (isChain_end (ih hnext hafter)))

end Body

/-- In lines of which the last does not return, each that returns has a next one. -/
theorem exists_next {ls : List Line} {last : Line} (hlast : ¬ Returns last.text)
    (h : (ls ++ [last]).IsChain Follows) {n : Nat} {l : Line} (hl : (ls ++ [last])[n]? = some l)
    (hreturns : Returns l.text) :
    ∃ next, (ls ++ [last])[n + 1]? = some next ∧ Breaks next.text := by
  obtain ⟨hn, rfl⟩ := List.getElem?_eq_some_iff.mp hl
  have hne : n ≠ ls.length := by
    rintro rfl
    rw [List.getElem_append_right (Nat.le_refl _)] at hreturns
    exact hlast (by simpa using hreturns)
  have hn' : n + 1 < (ls ++ [last]).length := by
    rw [List.length_append, List.length_singleton] at hn ⊢
    omega
  exact ⟨_, List.getElem?_eq_getElem hn', List.isChain_iff_getElem.mp h n hn' hreturns⟩

/-- Indentation takes no part in whether a line returns. -/
theorem returns_shown {width : Nat} {l : Line} : Returns (l.shown width) ↔ Returns l.text := by
  rw [Returns, unindented_shown, Returns]

/-- Indentation takes no part in whether a line has to follow what returns. -/
theorem breaks_shown {width : Nat} {l : Line} : Breaks (l.shown width) ↔ Breaks l.text := by
  rw [Breaks, unindented_shown, Breaks]

/-- The line that closes a function. -/
def closing : Line := ⟨0, "end", none⟩

/-- Lines and the end of their function are shown one after the other. -/
theorem map_shown_closed (width : Nat) (ls : List Line) :
    (ls ++ [closing]).map (Line.shown width) = ls.map (Line.shown width) ++ ["end"] := by
  rw [List.map_append, List.map_singleton, Line.shown_of_level (l := closing) width rfl]
  rfl

/-- **A body below a header is nested once the header's block is closed.** -/
theorem Body.nested {ls : List Line} (h : Body 1 ls) {header : String}
    (hheader : StartsUnindented header) (width : Nat) :
    Nested width header ((ls ++ [closing]).map (Line.shown width)) := by
  have hunindented : ∀ l ∈ ls ++ [closing], StartsUnindented l.text :=
    List.forall_mem_append.mpr
      ⟨h.startsUnindented, List.forall_mem_singleton.mpr startsUnindented_end⟩
  have hchain : (ls ++ [closing]).IsChain Follows :=
    h.isChain breaks_end (List.isChain_singleton closing)
  refine ⟨?_, ⟨(ls ++ [closing]).map (·.level), ?_, ?_⟩, ?_, fun n line hline hreturns => ?_⟩
  · have hzero := StartsUnindented.indentation_shown (l := ⟨0, header, none⟩) hheader width
    rwa [Line.shown_of_level width rfl, Nat.zero_mul] at hzero
  · rw [map_markOf_shown, marks_append, h.depths_marks .function [] rfl, closing, marks_end,
      List.map_append]
    rfl
  · rw [List.map_map, List.map_map]
    exact List.map_congr_left fun l hl => (hunindented l hl).indentation_shown width
  · rw [map_shown_closed, List.getLast?_append]
    rfl
  · rw [List.getElem?_map] at hline
    obtain ⟨l, hl, rfl⟩ := Option.map_eq_some_iff.mp hline
    obtain ⟨next, hnext, hbreaks⟩ :=
      exists_next not_returns_end hchain hl (returns_shown.mp hreturns)
    exact ⟨next.shown width, by rw [List.getElem?_map, hnext]; rfl, breaks_shown.mpr hbreaks⟩

/-! ## What bodies emit -/

/-- What a body assigns to and calls begins like a plain line. -/
structure Context.Plain (c : Context) : Prop where
  localName : ∀ i, startsPlain (localName c.locals i) = true
  callee : ∀ id, startsPlain (callee c.model c.names id) = true

/-- Assigning results starts with the name of a local variable, or with the call. -/
theorem Context.Plain.assign {c : Context} (hc : c.Plain) (results : List UInt16) {call : String}
    (h : startsPlain call = true) : startsPlain (assign c.locals results call) = true := by
  cases results with
  | nil => exact h
  | cons i results =>
    obtain ⟨r, hr⟩ := exists_commaList_cons (Emit.localName c.locals i)
      (results.map (Emit.localName c.locals))
    simp only [Script.assign, List.isEmpty_cons, Bool.false_eq_true, if_false, List.map_cons, hr,
      String.append_assoc]
    exact startsPlain_append (hc.localName i)

/-- A function's name starts no block. -/
theorem startsPlain_functionName {m : Model} {id : FunctionId} {own : Names.Function}
    (h : (Names.ofModel m).function? id = some own) : startsPlain own.name = true := by
  obtain ⟨k, r, hr⟩ := Names.exists_functionName h
  rw [hr]
  cases k
  · exact startsPlain_append (by decide)
  · exact startsPlain_append (by decide)

/-- The identifiers of a function begin with their marks. -/
theorem plain_of_function? {m : Model} {id : FunctionId} {own : Names.Function}
    (h : (Names.ofModel m).function? id = some own) (comments : Bool) (function : String) :
    Context.Plain ⟨m, Names.ofModel m, comments, function, own⟩ where
  localName i := by
    rcases (marked_of_function? h comments function).localName i with hi | ⟨r, hr⟩
    · rw [hi]
      decide
    · rw [hr]
      exact startsPlain_append (by decide)
  callee id := by
    obtain ⟨r, hr⟩ := Names.exists_className m
    have hentry : startsPlain (Names.ofModel m).className = true :=
      hr ▸ startsPlain_append (by decide)
    have hinternal : startsPlain
        ((((Names.ofModel m).function? id).map (·.name)).getD "fn_unknown") = true := by
      cases hown : (Names.ofModel m).function? id with
      | none => decide
      | some own => exact startsPlain_functionName hown
    cases hat : m.functionAt? id with
    | none =>
      simp only [callee, hat]
      exact hinternal
    | some f =>
      cases hkind : f.kind with
      | internal =>
        simp only [callee, hat, hkind]
        exact hinternal
      | entry =>
        simp only [callee, hat, hkind]
        exact startsPlain_append (startsPlain_append (startsPlain_append hentry))

/-- The line of a return: where its block goes on, it is wrapped in one of its own. -/
theorem body_ret (c : Context) (level : Nat) {isLast : Bool} (symbol : DebugSymbol)
    (values : List Expr) {rest : List Line} (hlast : isLast = true → rest = [])
    (hrest : Body level rest) :
    Body level (kindLines c level isLast symbol (.ret values) ++ rest) := by
  cases isLast with
  | false =>
    simp only [kindLines, Bool.false_eq_true, if_false]
    exact .plain (startsPlain_append (startsPlain_append (by decide))) hrest
  | true =>
    rw [hlast rfl]
    cases values with
    | nil => exact .ret ""
    | cons v values =>
      have htext : ∀ items : String, "return " ++ items = "return" ++ (" " ++ items) := by
        intro items
        rw [← String.append_assoc]
        rfl
      simp only [kindLines, if_true, htext]
      exact .ret _

/-- No statement of a list is script text. -/
def Scriptless (ss : List Statement) : Prop := ∀ s ∈ ss, s.isScript = false

-- By recursion on the statements.  What stands below a statement is carried along, since a return
-- without a block of its own has to be the last line of its body.
mutual

/-- **What a statement emits continues a body**, if the statement has no script text in it. -/
theorem body_statement {c : Context} (hc : c.Plain) (level : Nat) (isLast : Bool)
    {rest : List Line} (hlast : isLast = true → rest = [])
    (hrest : Body level rest) : ∀ s : Statement, Scriptless s.walk →
      Body level (statement c level isLast s ++ rest)
  | .mk origin slot kind, h => by
      have hkind := body_kindLines hc level isLast ⟨origin, slot, c.function⟩ hlast hrest
        origin slot kind h
      have hmarked := hkind.mark (kindLines_ne_nil c level isLast _ kind)
        ⟨origin, slot, c.function⟩
      rw [statement, List.append_assoc]
      cases c.nodeComments with
      | false => exact hmarked
      | true => exact .plain (startsPlain_append (by decide)) hmarked

theorem body_kindLines {c : Context} (hc : c.Plain) (level : Nat) (isLast : Bool)
    (symbol : DebugSymbol) {rest : List Line}
    (hlast : isLast = true → rest = []) (hrest : Body level rest) (origin : NodeId)
    (slot : Option SlotId) : ∀ k : StatementKind, Scriptless (Statement.mk origin slot k).walk →
      Body level (kindLines c level isLast symbol k ++ rest)
  | .setMember v e, _ =>
      .plain (startsPlain_append (startsPlain_append (startsPlain_append (by decide)))) hrest
  | .setLocal i e, _ =>
      .plain (startsPlain_append (startsPlain_append (hc.localName i))) hrest
  | .cond e t [], h => by
      have ht := body_block hc (level + 1) t fun s hs =>
        h s (List.mem_cons_of_mem _ (List.mem_append_left _ hs))
      rw [kindLines, List.append_assoc]
      exact .branch _ ht hrest
  | .cond e t (s :: r), h => by
      have ht := body_block hc (level + 1) t fun x hx =>
        h x (List.mem_cons_of_mem _ (List.mem_append_left _ hx))
      have he := body_block hc (level + 1) (s :: r) fun x hx =>
        h x (List.mem_cons_of_mem _ (List.mem_append_right _ hx))
      rw [kindLines, List.append_assoc, List.append_assoc]
      exact .branchElse _ ht he hrest
  | .loop e b, h => by
      have hb := body_block hc (level + 1) b fun s hs => h s (List.mem_cons_of_mem _ hs)
      rw [kindLines, List.append_assoc]
      exact .loop _ hb hrest
  | .call id args results, _ =>
      .plain (hc.assign results (startsPlain_append (startsPlain_append
        (startsPlain_append (hc.callee id))))) hrest
  | .fire out args results, _ =>
      .plain (hc.assign results (startsPlain_append (startsPlain_append
        (by decide)))) hrest
  | .log e, _ => .plain (startsPlain_append (startsPlain_append (by decide))) hrest
  | .ret values, _ => body_ret c level symbol values hlast hrest
  | .script source, h => by cases h _ List.mem_cons_self

/-- **A block without script text emits a body.** -/
theorem body_block {c : Context} (hc : c.Plain) (level : Nat) :
    ∀ body : List Statement, Scriptless (Statement.walkAll body) → Body level (block c level body)
  | [], _ => .nil
  | s :: r, h => by
      have hr := body_block hc level r fun x hx => h x (List.mem_append_right _ hx)
      have hlast : r.isEmpty = true → block c level r = [] := fun hempty => by
        rw [List.isEmpty_iff.mp hempty, block]
      exact body_statement hc level r.isEmpty hlast hr s fun x hx =>
        h x (List.mem_append_left _ hx)

end

/-! ## Functions -/

theorem startsUnindented_header (m : Model) (f : FunctionDef) (own : Names.Function) :
    StartsUnindented (header (Names.ofModel m) f own) := by
  obtain ⟨r, hr⟩ := Names.exists_className m
  have hclass : StartsUnindented (Names.ofModel m).className :=
    hr ▸ StartsUnindented.append ⟨'c', rfl, by decide⟩
  cases hkind : f.kind with
  | entry =>
    simp only [header, hkind, String.append_assoc]
    exact hclass.append
  | internal =>
    simp only [header, hkind, String.append_assoc]
    exact StartsUnindented.append ⟨'l', rfl, by decide⟩

/-- Lines of locals stand above a body like plain lines of it. -/
theorem Body.locals {ls : List Line} (h : Body 1 ls) : ∀ locals : List (Param × String),
    Body 1 ((locals.map fun e =>
      (⟨1, "local " ++ e.2 ++ " = " ++ initial e.1.dataType, none⟩ : Line)) ++ ls)
  | [] => h
  | _ :: locals =>
      .plain (startsPlain_append (startsPlain_append (startsPlain_append (by decide))))
        (h.locals locals)

/-- **A function without script text is nested**, and an empty line stands below it. -/
theorem exists_nested {m : Model} {o : Options} {f : FunctionDef} {own : Names.Function}
    (hown : (Names.ofModel m).function? f.id = some own)
    (hscripts : Scriptless (Statement.walkAll f.body)) :
    ∃ below, (function m (Names.ofModel m) o f).map (Line.shown o.indentWidth) =
        header (Names.ofModel m) f own :: below ++ [""] ∧
      Nested o.indentWidth (header (Names.ofModel m) f own) below := by
  have hc := plain_of_function? hown o.nodeComments f.name
  have hbody := (body_block hc 1 f.body hscripts).locals (f.locals.zip own.locals)
  refine ⟨_, ?_, hbody.nested (startsUnindented_header m f own) o.indentWidth⟩
  simp only [function, hown, closing, Line.blank, List.map_append, List.map_cons, List.map_nil,
    List.append_assoc, List.cons_append, List.nil_append, Line.shown_of_level]

/-- **The blocks of a function are nested.**  In a model without script text whose functions are
stored under their own identifiers, whatever its name and the options, the lines of each function
stand in the text one below the other: its header first, then lines that open, switch and close
blocks in balance, the last of them the `end` of the header, each indented by the width for every
block it stands in, and a return that is not wrapped in a block only where a block ends or is
switched. -/
theorem function_nested (m : Model) (o : Options) (e : Emission)
    (hkeys : (m.functionEntries.map (·.1)).Nodup)
    (hids : ∀ entry ∈ m.functionEntries, entry.2.id = entry.1) (hscripts : m.scripts = [])
    (h : emit m o = .ok e) :
    ∀ f ∈ m.functions, ∃ own n below, (Names.ofModel m).function? f.id = some own ∧
      Stands (Text.split '\n' e.text) n (header (Names.ofModel m) f own :: below ++ [""]) ∧
      (function m (Names.ofModel m) o f).map (Line.shown o.indentWidth) =
        header (Names.ofModel m) f own :: below ++ [""] ∧
      Nested o.indentWidth (header (Names.ofModel m) f own) below := by
  intro f hf
  obtain ⟨own, n, hown, hstands⟩ := exists_stands_function hkeys hids h hf
  have hless : Scriptless (Statement.walkAll f.body) := fun s hs => by
    have hnone := List.flatMap_eq_nil_iff.mp hscripts f hf
    exact Bool.eq_false_iff.mpr (List.filter_eq_nil_iff.mp hnone s hs)
  obtain ⟨below, hlines, hnested⟩ := exists_nested (o := o) hown hless
  exact ⟨own, n, below, hown, hlines ▸ hstands, hlines, hnested⟩

/-- Lets those with a ticket through: whoever has none is shown why and leaves. -/
def push : FunctionDef where
  id := ⟨0⟩
  name := "Push"
  kind := .entry
  params := [⟨"ticket", .boolean⟩]
  returns := []
  locals := [⟨"reason", .string⟩]
  origin := ⟨10⟩
  body := [
    .mk ⟨11⟩ none (.loop (.not (.member (.ofNat 1))) [
      .mk ⟨12⟩ none (.cond (.param 0)
        [.mk ⟨13⟩ none (.setMember (.ofNat 1) (.literal (.boolean true))), .mk ⟨14⟩ none (.ret [])]
        [.mk ⟨15⟩ none (.log (.localVar 0)), .mk ⟨16⟩ none (.ret []),
          .mk ⟨17⟩ none (.fire "Refused" [.param 0] [])])]),
    .mk ⟨18⟩ none (.ret [])]

/-- A turnstile with that entry alone. -/
def turnstile : Model where
  name := "Turnstile"
  variableEntries := [(.ofNat 1, ⟨.ofNat 1, "open", .boolean, .value (.boolean false), .hidden⟩)]
  functionEntries := [(⟨0⟩, push)]

/-- The turnstile's function nests, with comments and an indentation of three. -/
theorem turnstile_nested : (turnstile.functionEntries.map (·.1)).Nodup ∧
    (∀ entry ∈ turnstile.functionEntries, entry.2.id = entry.1) ∧ turnstile.scripts = [] ∧
    push ∈ turnstile.functions ∧
    ∃ e, emit turnstile { indentWidth := 3, nodeComments := true } = .ok e ∧
      ∃ own n below, (Names.ofModel turnstile).function? push.id = some own ∧
        Stands (Text.split '\n' e.text) n
          (header (Names.ofModel turnstile) push own :: below ++ [""]) ∧
        Nested 3 (header (Names.ofModel turnstile) push own) below := by
  have hpush : push ∈ turnstile.functions := List.mem_cons_self
  refine ⟨by decide, by decide, rfl, hpush, _, rfl, ?_⟩
  obtain ⟨own, n, below, hown, hstands, _, hnested⟩ :=
    function_nested turnstile { indentWidth := 3, nodeComments := true } _ (by decide) (by decide)
      rfl rfl push hpush
  exact ⟨own, n, below, hown, hstands, hnested⟩

example : depths [.function] (((function turnstile (Names.ofModel turnstile) {} push).map
    (Line.shown 2)).tail.dropLast.map (markOf ∘ unindented)) =
      some [1, 1, 2, 3, 3, 2, 3, 3, 3, 2, 1, 1, 0] := by decide +kernel

end GraphScript.Emit.Script
