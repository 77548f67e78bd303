import GraphScript.Code
import GraphScript.Proofs.Text.OneLine

/-!
# Proofs/Code — lines and the text made of them

Splitting the text of emitted lines gives back those lines in pieces (`split_text_pieces`), and a
line that stands on one line comes back as it is shown (`flatMap_split_shown`).  `Stands` says at
which line a part of the text is found, and the lines recorded in a debug map ascend
(`pairwise_symbolsFrom`).
-/

namespace GraphScript

namespace Line

/-- A line as it is shown, without its end. -/
def shown (width : Nat) (l : Line) : String :=
  if l.text.isEmpty then "" else String.ofList (List.replicate (l.level * width) ' ') ++ l.text

/-- A line is written as it is shown, and ended. -/
theorem render_eq (width : Nat) (l : Line) : l.render width = l.shown width ++ "\n" := by
  unfold render shown
  split
  · rfl
  · rfl

/-- An origin changes no text. -/
@[simp] theorem map_text_mark (s : DebugSymbol) : ∀ lines : List Line,
    (mark s lines).map (·.text) = lines.map (·.text)
  | [] => rfl
  | _ :: _ => rfl

@[simp] theorem map_shown_mark (width : Nat) (s : DebugSymbol) : ∀ lines : List Line,
    (mark s lines).map (shown width) = lines.map (shown width)
  | [] => rfl
  | _ :: _ => rfl

@[simp] theorem length_mark (s : DebugSymbol) : ∀ lines : List Line,
    (mark s lines).length = lines.length
  | [] => rfl
  | _ :: _ => rfl

/-- A line of level zero is shown as its text. -/
theorem shown_of_level (width : Nat) {l : Line} (h : l.level = 0) : l.shown width = l.text := by
  unfold shown
  split
  · rename_i hempty
    exact (String.isEmpty_iff.mp hempty).symm
  · rw [h, Nat.zero_mul]
    exact String.empty_append

/-- A text on one line is shown on one line. -/
theorem oneLine_shown (width : Nat) {l : Line} (h : Text.OneLine l.text) :
    Text.OneLine (l.shown width) := by
  unfold shown
  split
  · decide
  · simp [h, List.mem_replicate]

end Line

namespace Code

/-- The text of lines is that of the first and then that of the rest. -/
theorem text_append (width : Nat) (ls rs : List Line) :
    text width (ls ++ rs) = text width ls ++ text width rs := by
  rw [text, List.map_append, String.join_append]
  rfl

/-- **The text of lines, split**: each line in its pieces, and an empty end. -/
theorem split_text_pieces (width : Nat) : ∀ lines : List Line,
    Text.split '\n' (text width lines) =
      lines.flatMap (fun l => Text.split '\n' (l.shown width)) ++ [""]
  | [] => by simp [text, Text.split, Text.splitFrom]
  | l :: lines => by
      have htext : text width (l :: lines) = l.shown width ++ "\n" ++ text width lines := by
        rw [text, List.map_cons, String.join_cons, Line.render_eq]
        rfl
      rw [htext, Text.split_append_lineFeed, split_text_pieces width lines, List.flatMap_cons,
        List.append_assoc]

/-- Lines that stand on one line each come back as they are shown. -/
theorem flatMap_split_shown (width : Nat) : ∀ {lines : List Line},
    (∀ l ∈ lines, Text.OneLine l.text) →
      lines.flatMap (fun l => Text.split '\n' (l.shown width)) = lines.map (Line.shown width)
  | [], _ => rfl
  | l :: lines, h => by
      have hl := Text.split_of_oneLine (Line.oneLine_shown width (h l List.mem_cons_self))
      rw [List.flatMap_cons, List.map_cons, hl, List.singleton_append,
        flatMap_split_shown width fun x hx => h x (List.mem_cons_of_mem _ hx)]

/-- A line that stands on one line can be read in the text. -/
theorem shown_mem_split (width : Nat) {lines : List Line} {l : Line} (hl : l ∈ lines)
    (h : Text.OneLine l.text) : l.shown width ∈ Text.split '\n' (text width lines) := by
  rw [split_text_pieces]
  refine List.mem_append_left _ (List.mem_flatMap.mpr ⟨l, hl, ?_⟩)
  rw [Text.split_of_oneLine (Line.oneLine_shown width h)]
  exact List.mem_singleton_self _

/-! ## Lines in context -/

/-- The list `part` stands in `all`, with its first item at the place `n`, counted from one. -/
def Stands {α : Type} (all : List α) (n : Nat) (part : List α) : Prop :=
  ∃ pre post, all = pre ++ part ++ post ∧ n = pre.length + 1

namespace Stands

variable {α : Type} {all part other : List α} {a : α} {n : Nat}

/-- What stands somewhere stands there with its first part. -/
theorem left (h : Stands all n (part ++ other)) : Stands all n part := by
  obtain ⟨pre, post, rfl, hn⟩ := h
  exact ⟨pre, other ++ post, by simp, hn⟩

/-- The second part of what stands somewhere stands behind the first. -/
theorem right (h : Stands all n (part ++ other)) : Stands all (n + part.length) other := by
  obtain ⟨pre, post, rfl, rfl⟩ := h
  refine ⟨pre ++ part, post, by simp, ?_⟩
  rw [List.length_append]
  omega

theorem tail (h : Stands all n (a :: part)) : Stands all (n + 1) part :=
  (show Stands all n ([a] ++ part) from h).right

theorem head (h : Stands all n (a :: part)) : Stands all n [a] :=
  (show Stands all n ([a] ++ part) from h).left

/-- The item at the place where a list stands is its first. -/
theorem getElem? (h : Stands all n (a :: part)) : all[n - 1]? = some a := by
  obtain ⟨pre, post, rfl, rfl⟩ := h
  simp

theorem map {β : Type} (g : α → β) (h : Stands all n part) :
    Stands (all.map g) n (part.map g) := by
  obtain ⟨pre, post, rfl, rfl⟩ := h
  exact ⟨pre.map g, post.map g, by simp, by simp⟩

/-- What stands in a list stands in a longer one. -/
theorem append (h : Stands all n part) (l : List α) : Stands (all ++ l) n part := by
  obtain ⟨pre, post, rfl, rfl⟩ := h
  exact ⟨pre, post ++ l, by simp, rfl⟩

end Stands

/-- An item stands at a place if it is numbered so. -/
theorem stands_singleton_iff {α : Type} {all : List α} {n : Nat} {a : α} :
    Stands all n [a] ↔ (a, n) ∈ all.zipIdx 1 := by
  rw [List.mk_mem_zipIdx_iff_le_and_getElem?_sub]
  constructor
  · intro h
    refine ⟨?_, h.getElem?⟩
    obtain ⟨pre, post, _, rfl⟩ := h
    omega
  · rintro ⟨hn, ha⟩
    obtain ⟨hlt, rfl⟩ := List.getElem?_eq_some_iff.mp ha
    refine ⟨all.take (n - 1), all.drop n, ?_, ?_⟩
    · have hdrop := List.drop_eq_getElem_cons hlt
      rw [Nat.sub_add_cancel hn] at hdrop
      rw [List.append_assoc, List.singleton_append, ← hdrop, List.take_append_drop]
    · rw [List.length_take]
      omega

/-! ## Origins -/

/-- Origins are numbered through from one part of the text to the next. -/
theorem symbolsFrom_append (n : Nat) : ∀ ls rs : List Line,
    symbolsFrom n (ls ++ rs) = symbolsFrom n ls ++ symbolsFrom (n + ls.length) rs
  | [], rs => by simp [symbolsFrom]
  | l :: ls, rs => by
      have ih := symbolsFrom_append (n + 1) ls rs
      have hn : n + 1 + ls.length = n + (l :: ls).length := by
        rw [List.length_cons]
        omega
      rw [hn] at ih
      cases hl : l.symbol with
      | none => simp only [List.cons_append, symbolsFrom, hl, ih]
      | some s => simp only [List.cons_append, symbolsFrom, hl, ih]

/-- Lines without origins record nothing. -/
theorem symbolsFrom_eq_nil (n : Nat) : ∀ {ls : List Line}, (∀ l ∈ ls, l.symbol = none) →
    symbolsFrom n ls = []
  | [], _ => rfl
  | l :: ls, h => by
      rw [symbolsFrom, h l List.mem_cons_self]
      exact symbolsFrom_eq_nil (n + 1) fun x hx => h x (List.mem_cons_of_mem _ hx)

/-- Recorded lines are numbered from the first one on. -/
theorem le_of_mem_symbolsFrom : ∀ {n : Nat} {ls : List Line} {e : Nat × DebugSymbol},
    e ∈ symbolsFrom n ls → n ≤ e.1
  | n, [], _, h => absurd h List.not_mem_nil
  | n, l :: ls, e, h => by
      cases hl : l.symbol with
      | none =>
        rw [symbolsFrom, hl] at h
        exact Nat.le_of_succ_le (le_of_mem_symbolsFrom h)
      | some s =>
        rw [symbolsFrom, hl] at h
        rcases List.mem_cons.mp h with rfl | h
        · exact Nat.le_refl n
        · exact Nat.le_of_succ_le (le_of_mem_symbolsFrom h)

/-- **Recorded lines ascend.** -/
theorem pairwise_symbolsFrom : ∀ (n : Nat) (ls : List Line),
    ((symbolsFrom n ls).map (·.1)).Pairwise (· < ·)
  | _, [] => List.Pairwise.nil
  | n, l :: ls => by
      cases hl : l.symbol with
      | none =>
        rw [symbolsFrom, hl]
        exact pairwise_symbolsFrom (n + 1) ls
      | some s =>
        rw [symbolsFrom, hl]
        refine List.pairwise_cons.mpr ⟨fun k hk => ?_, pairwise_symbolsFrom (n + 1) ls⟩
        obtain ⟨e, he, rfl⟩ := List.mem_map.mp hk
        exact le_of_mem_symbolsFrom he

end Code

end GraphScript
