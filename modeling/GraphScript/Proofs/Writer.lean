import GraphScript.Proofs.Code
import GraphScript.Proofs.Sorted
import Mathlib.Logic.Function.Iterate

/-!
# Proofs/Writer — lines written one by one

A writer goes in and out to the level of a line and then writes it, and the origin of a line is
recorded under the number that the line is about to get.  The text and the debug map that come about
this way are those read off the lines as a whole (`foldl_put`), so emitting lines and reading both
off them is the same as writing and recording as one goes.
-/

namespace GraphScript

/-- A line after all recorded ones is recorded at the end. -/
theorem DebugMap.record_of_forall_lt {m : DebugMap} {line : Nat} (h : ∀ e ∈ m.entries, e.1 < line)
    (s : DebugSymbol) : m.record line s = ⟨m.entries ++ [(line, s)]⟩ := by
  have hnew : Entries.contains m.entries line = false := by
    refine List.any_eq_false.mpr fun e he => ?_
    rw [decide_eq_true_iff]
    exact Nat.ne_of_lt (h e he)
  rw [record, hnew, Entries.insert_of_forall_lt h]
  rfl

/-- The line without its origin. -/
def Line.unmarked (l : Line) : Line := { l with symbol := none }

namespace Code

/-- Recorded lines are among those that there are. -/
theorem lt_of_mem_symbolsFrom : ∀ {n : Nat} {ls : List Line} {e : Nat × DebugSymbol},
    e ∈ symbolsFrom n ls → e.1 < n + ls.length
  | n, [], _, h => absurd h List.not_mem_nil
  | n, l :: ls, e, h => by
      have hlater : e ∈ symbolsFrom (n + 1) ls → e.1 < n + (l :: ls).length := by
        intro he
        have hlt := lt_of_mem_symbolsFrom he
        rw [List.length_cons]
        omega
      cases hl : l.symbol with
      | none =>
        rw [symbolsFrom, hl] at h
        exact hlater h
      | some s =>
        rw [symbolsFrom, hl] at h
        rcases List.mem_cons.mp h with rfl | h
        · exact Nat.lt_add_of_pos_right (Nat.zero_lt_succ ls.length)
        · exact hlater h

/-- Where lines came from has no part in their text. -/
theorem text_unmarked (width : Nat) (lines : List Line) :
    text width (lines.map Line.unmarked) = text width lines := by
  rw [text, text, List.map_map]
  rfl

namespace Writer

/-- Goes in or out to a level. -/
def goTo (w : Writer) (level : Nat) : Writer :=
  indent^[level - w.level] (dedent^[w.level - level] w)

theorem iterate_indent (w : Writer) (k : Nat) :
    indent^[k] w = { w with level := w.level + k } := by
  induction k with
  | zero => rfl
  | succ k ih =>
    rw [Function.iterate_succ_apply', ih]
    rfl

theorem iterate_dedent (w : Writer) (k : Nat) :
    dedent^[k] w = { w with level := w.level - k } := by
  induction k with
  | zero => rfl
  | succ k ih =>
    rw [Function.iterate_succ_apply', ih]
    rfl

theorem goTo_eq (w : Writer) (level : Nat) : w.goTo level = { w with level := level } := by
  have hlevel : w.level - (w.level - level) + (level - w.level) = level := by omega
  rw [goTo, iterate_dedent, iterate_indent, hlevel]

/-- Records where a line came from, and writes it. -/
def put (written : Writer × DebugMap) (l : Line) : Writer × DebugMap :=
  ((written.1.goTo l.level).line l.text,
    l.symbol.elim written.2 (written.2.record written.1.nextLine))

/-- **Writing one more line**: it comes last in the text, and so does its origin in the map. -/
theorem put_written (level : Nat) (ls : List Line) (l : Line) :
    put (⟨level, ls.map Line.unmarked⟩, debugMap ls) l =
      (⟨l.level, (ls ++ [l]).map Line.unmarked⟩, debugMap (ls ++ [l])) := by
  have hnumber : nextLine ⟨level, ls.map Line.unmarked⟩ = 1 + ls.length := by
    rw [nextLine, List.length_map, Nat.add_comm]
  have hmap : l.symbol.elim (debugMap ls) ((debugMap ls).record (1 + ls.length)) =
      debugMap (ls ++ [l]) := by
    rw [debugMap, debugMap, symbolsFrom_append]
    cases hl : l.symbol with
    | none => rw [symbolsFrom, hl, symbolsFrom, List.append_nil, Option.elim_none]
    | some s =>
      rw [symbolsFrom, hl, symbolsFrom, Option.elim_some]
      exact DebugMap.record_of_forall_lt (fun _ => lt_of_mem_symbolsFrom) s
  rw [put, hnumber, hmap, goTo_eq, line, List.map_append]
  rfl

/-- What has been written and recorded is what was to be. -/
theorem exists_foldl_put_eq (lines : List Line) : ∃ level,
    lines.foldl put ({}, {}) = (⟨level, lines.map Line.unmarked⟩, debugMap lines) := by
  induction lines using List.reverseRecOn with
  | nil => exact ⟨0, rfl⟩
  | append_singleton lines l ih =>
    obtain ⟨level, ih⟩ := ih
    rw [List.foldl_append, ih, List.foldl_cons, List.foldl_nil, put_written]
    exact ⟨l.level, rfl⟩

/-- **Lines written one by one give the text and the debug map read off the lines.** -/
theorem foldl_put (lines : List Line) :
    (∀ width, text width (lines.foldl put ({}, {})).1.lines = text width lines) ∧
      (lines.foldl put ({}, {})).2 = debugMap lines := by
  obtain ⟨level, h⟩ := exists_foldl_put_eq lines
  rw [h]
  exact ⟨fun width => text_unmarked width lines, rfl⟩

end Writer

end Code

end GraphScript
