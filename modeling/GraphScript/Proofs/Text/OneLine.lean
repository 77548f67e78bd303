import GraphScript.Text.Blank
import GraphScript.Text.Lines

/-!
# Proofs/Text/OneLine — where a text breaks

A text stands on one line if it has no line feed.  A line feed divides a text in two
(`split_append_lineFeed`), so that there is one piece more than there are line feeds
(`length_split`).  Each piece of a text stands on one line (`oneLine_of_mem_split`), and so does
each of its lines (`oneLine_of_mem_lines`).
-/

namespace GraphScript.Text

/-- A text without a line feed. -/
def OneLine (s : String) : Prop := '\n' ∉ s.toList

instance (s : String) : Decidable (OneLine s) := inferInstanceAs (Decidable ('\n' ∉ s.toList))

@[simp] theorem oneLine_append {s t : String} : OneLine (s ++ t) ↔ OneLine s ∧ OneLine t := by
  simp [OneLine, not_or]

@[simp] theorem oneLine_ofList {cs : List Char} : OneLine (String.ofList cs) ↔ '\n' ∉ cs := by
  simp [OneLine]

/-- What neither the items nor the separator have is not in the whole. -/
theorem notMem_intercalate {c : Char} {sep : String} (hsep : c ∉ sep.toList) :
    ∀ {items : List String}, (∀ s ∈ items, c ∉ s.toList) → c ∉ (sep.intercalate items).toList
  | [], _ => by simp
  | [s], h => by simpa using h s List.mem_cons_self
  | s :: t :: items, h => by
      have ih : c ∉ (sep.intercalate (t :: items)).toList :=
        notMem_intercalate hsep fun x hx => h x (List.mem_cons_of_mem _ hx)
      have hs := h s List.mem_cons_self
      rw [String.intercalate_cons_cons, String.toList_append, String.toList_append]
      simp only [List.mem_append, hs, hsep, ih, or_self, not_false_eq_true]

/-- Texts joined by one that breaks no line break none. -/
theorem oneLine_intercalate {sep : String} (hsep : OneLine sep) {items : List String}
    (h : ∀ s ∈ items, OneLine s) : OneLine (sep.intercalate items) := notMem_intercalate hsep h

/-! ## Cutting -/

/-- The text is cut at the first `mark`. -/
theorem takeWhile_mark {mark : Char} {cs : List Char} (h : mark ∉ cs) (rest : List Char) :
    (cs ++ mark :: rest).takeWhile (· ≠ mark) = cs ∧
      (cs ++ mark :: rest).dropWhile (· ≠ mark) = mark :: rest := by
  have hne : ∀ c ∈ cs, decide (c ≠ mark) = true := fun c hc =>
    decide_eq_true fun heq => h (heq ▸ hc)
  rw [List.takeWhile_append_of_pos hne, List.dropWhile_append_of_pos hne]
  simp

/-! ## Splitting -/

/-- A separator ends one piece and begins the next. -/
theorem splitFrom_append_sep (sep : Char) (ds : List Char) : ∀ (cs piece : List Char),
    splitFrom sep piece (cs ++ sep :: ds) = splitFrom sep piece cs ++ splitFrom sep [] ds
  | [], piece => by simp [splitFrom]
  | c :: cs, piece => by
      by_cases h : c = sep
      · simp [splitFrom, h, splitFrom_append_sep sep ds cs]
      · simp [splitFrom, h, splitFrom_append_sep sep ds cs]

theorem splitFrom_of_notMem (sep : Char) : ∀ (cs piece : List Char), sep ∉ cs →
    splitFrom sep piece cs = [piece.reverse ++ cs]
  | [], piece, _ => by simp [splitFrom]
  | c :: cs, piece, h => by
      have hc : c ≠ sep := fun e => h (e ▸ List.mem_cons_self)
      rw [splitFrom, if_neg hc,
        splitFrom_of_notMem sep cs _ fun hm => h (List.mem_cons_of_mem _ hm)]
      simp

/-- **A line feed divides a text.** -/
theorem split_append_lineFeed (s t : String) :
    split '\n' (s ++ "\n" ++ t) = split '\n' s ++ split '\n' t := by
  have hchars : (s ++ "\n" ++ t).toList = s.toList ++ '\n' :: t.toList := by simp
  rw [split, hchars, splitFrom_append_sep, List.map_append]
  rfl

theorem split_of_oneLine {s : String} (h : OneLine s) : split '\n' s = [s] := by
  rw [split, splitFrom_of_notMem _ _ _ h]
  simp

/-- There is one piece more than separators. -/
theorem length_splitFrom (sep : Char) : ∀ cs piece : List Char,
    (splitFrom sep piece cs).length = cs.count sep + 1
  | [], _ => rfl
  | c :: cs, piece => by
      by_cases h : c = sep
      · rw [splitFrom, if_pos h, List.length_cons, length_splitFrom sep cs, h,
          List.count_cons_self]
      · rw [splitFrom, if_neg h, length_splitFrom sep cs, List.count_cons_of_ne h]

/-- A text has one piece more than separators. -/
theorem length_split (sep : Char) (s : String) :
    (split sep s).length = s.toList.count sep + 1 := by
  rw [split, List.length_map, length_splitFrom]

theorem notMem_of_mem_splitFrom {sep : Char} : ∀ {cs piece : List Char}, sep ∉ piece →
    ∀ p ∈ splitFrom sep piece cs, sep ∉ p
  | [], piece, h, p, hp => by
      rw [List.mem_singleton.mp hp]
      exact fun hm => h (List.mem_reverse.mp hm)
  | c :: cs, piece, h, p, hp => by
      unfold splitFrom at hp
      split at hp
      · rcases List.mem_cons.mp hp with rfl | hp
        · exact fun hm => h (List.mem_reverse.mp hm)
        · exact notMem_of_mem_splitFrom List.not_mem_nil p hp
      · rename_i hc
        exact notMem_of_mem_splitFrom
          (fun hm => (List.mem_cons.mp hm).elim (fun he => hc he.symm) h) p hp

/-- The pieces of a text between its line feeds stand on one line each. -/
theorem oneLine_of_mem_split {s piece : String} (h : piece ∈ split '\n' s) : OneLine piece := by
  obtain ⟨cs, hcs, rfl⟩ := List.mem_map.mp h
  exact oneLine_ofList.mpr (notMem_of_mem_splitFrom List.not_mem_nil cs hcs)

/-! ## Lines -/

theorem lineFeed_notMem_dropReturn {line : List Char} (h : '\n' ∉ line) :
    '\n' ∉ dropReturn line := by
  unfold dropReturn
  split
  · exact fun hm => h (List.mem_cons_of_mem _ hm)
  · exact h

/-- Lines contain no line feed. -/
theorem lineFeed_notMem_linesFrom : ∀ {cs line : List Char}, '\n' ∉ line →
    ∀ l ∈ linesFrom line cs, '\n' ∉ l
  | [], line, h, l, hl => by
      unfold linesFrom at hl
      split at hl
      · exact absurd hl List.not_mem_nil
      · rw [List.mem_singleton.mp hl]
        exact fun hm => h (List.mem_reverse.mp hm)
  | c :: cs, line, h, l, hl => by
      unfold linesFrom at hl
      split at hl
      · rcases List.mem_cons.mp hl with rfl | hl
        · exact fun hm => lineFeed_notMem_dropReturn h (List.mem_reverse.mp hm)
        · exact lineFeed_notMem_linesFrom List.not_mem_nil l hl
      · rename_i hc
        exact lineFeed_notMem_linesFrom
          (fun hm => (List.mem_cons.mp hm).elim (fun he => hc he.symm) h) l hl

/-- A line of a text stands on one line. -/
theorem oneLine_of_mem_lines {s l : String} (h : l ∈ lines s) : OneLine l := by
  obtain ⟨cs, hcs, rfl⟩ := List.mem_map.mp h
  exact oneLine_ofList.mpr (lineFeed_notMem_linesFrom List.not_mem_nil cs hcs)

theorem linesFrom_ne_nil : ∀ {cs line : List Char}, cs ≠ [] ∨ line ≠ [] → linesFrom line cs ≠ []
  | [], line, h => by
      have hline : line ≠ [] := h.resolve_left fun hne => hne rfl
      simp [linesFrom, hline]
  | c :: cs, line, _ => by
      unfold linesFrom
      split
      · exact List.cons_ne_nil _ _
      · exact linesFrom_ne_nil (Or.inr (List.cons_ne_nil _ _))

/-- A text that is not blank has lines. -/
theorem lines_ne_nil {s : String} (h : (trim s).isEmpty = false) : lines s ≠ [] := by
  have hne : s.toList ≠ [] := fun hnil => by
    rw [trim, hnil] at h
    exact absurd h (by decide)
  exact fun hmap => linesFrom_ne_nil (Or.inl hne) (List.map_eq_nil_iff.mp hmap)

end GraphScript.Text
