import GraphScript.Model.CallOrder
import Mathlib.Data.List.Nodup
import Mathlib.Logic.Relation

/-!
# Proofs/CallGraph/Search — what the depth-first search leaves behind

A search keeps several entries of one position on its stack, so an invariant cannot speak of *the*
entry of a position.  It speaks of the topmost one: a position is put on the stack only while it is
undiscovered, hence the topmost entry of an open position is the one it was discovered at, and all
that lies above it was put there on its behalf (`Search.Inv.reach`).

`finishing_of_search` is what the order of calls rests on: a caller that is not listed after its
callee reaches it, so the two lie on a cycle.
-/

namespace GraphScript.CallGraph

/-- The function at `i` is called by the one at `j`. -/
def Edge (g : CallGraph) (i j : Nat) : Prop := (i, j) ∈ g.edges

instance (g : CallGraph) (i j : Nat) : Decidable (g.Edge i j) :=
  inferInstanceAs (Decidable ((i, j) ∈ g.edges))

/-- A chain of one edge or more. -/
def Reaches (g : CallGraph) : Nat → Nat → Prop := Relation.TransGen g.Edge

/-- Edges join positions of functions. -/
def Bounded (g : CallGraph) : Prop :=
  ∀ i j, g.Edge i j → i < g.functions.length ∧ j < g.functions.length

variable {g : CallGraph}

@[simp] theorem mem_callers {i j : Nat} : j ∈ g.callers i ↔ g.Edge i j := by
  simp only [callers, List.mem_filterMap, Edge]
  constructor
  · rintro ⟨⟨a, b⟩, he, h⟩
    obtain ⟨rfl, rfl⟩ : a = i ∧ b = j := by simpa using h
    exact he
  · exact fun he => ⟨(i, j), he, by simp⟩

@[simp] theorem mem_calleesAt {i j : Nat} : j ∈ g.calleesAt i ↔ g.Edge j i := by
  simp only [calleesAt, List.mem_filterMap, Edge]
  constructor
  · rintro ⟨⟨a, b⟩, he, h⟩
    obtain ⟨rfl, rfl⟩ : b = i ∧ a = j := by simpa using h
    exact he
  · exact fun he => ⟨(j, i), he, by simp⟩

/-! ## One step -/

namespace Search

/-- The search after it discovers `i`, the top of its stack. -/
def discover (g : CallGraph) (s : Search) (i : Nat) : Search :=
  { s with
    discovered := i :: s.discovered
    stack := ((g.callers i).filter (· ∉ i :: s.discovered)).reverse ++ s.stack }

/-- The search after it leaves `i`, the top of its stack. -/
def leave (s : Search) (i : Nat) (rest : List Nat) : Search :=
  { s with stack := rest, finished := if i ∈ s.finished then s.finished else i :: s.finished }

/-- **All that a step can do**: discover the top of the stack, leave it, or find that it calls
itself. -/
theorem step_cons {s : Search} {i : Nat} {rest : List Nat} (h : s.stack = i :: rest) :
    s.step g =
      if i ∈ s.discovered then .more (s.leave i rest)
      else if g.Edge i i then .selfCall i
      else .more (s.discover g i) := by
  by_cases hd : i ∈ s.discovered
  · simp [step, h, hd, leave]
  · by_cases he : g.Edge i i <;> simp [step, h, hd, he, discover]

/-- A search with an empty stack is over. -/
theorem step_nil {s : Search} (h : s.stack = []) : s.step g = .done := by simp [step, h]

/-- A position is open from its discovery until it is left. -/
def Open (s : Search) (i : Nat) : Prop := i ∈ s.discovered ∧ i ∉ s.finished

/-- The stack as it looks from the topmost entry of an open position. -/
structure Above (s : Search) (i : Nat) (above below : List Nat) : Prop where
  stack : s.stack = above ++ i :: below
  topmost : i ∉ above
  isOpen : s.Open i

/-- What holds before and after every step of a search. -/
structure Inv (g : CallGraph) (s : Search) : Prop where
  bounded : ∀ i ∈ s.stack, i < g.functions.length
  discovered_lt : ∀ i ∈ s.discovered, i < g.functions.length
  finished_sub : ∀ i ∈ s.finished, i ∈ s.discovered
  nodup : s.finished.Nodup
  /-- Nothing that was discovered calls itself. -/
  loopless : ∀ i ∈ s.discovered, ¬ g.Edge i i
  /-- What is open is still to be left. -/
  open_mem : ∀ i, s.Open i → i ∈ s.stack
  /-- The callers of an open position are discovered, or wait above it. -/
  pending : ∀ i above below, s.Above i above below → ∀ j, g.Edge i j → j ∈ s.discovered ∨ j ∈ above
  /-- What lies above an open position is reached from it. -/
  reach : ∀ i above below, s.Above i above below → ∀ j ∈ above, g.Reaches i j
  /-- A caller of a finished position was finished before it, or else reaches it. -/
  closed : ∀ later i earlier, s.finished = later ++ i :: earlier →
    ∀ j, g.Edge i j → j ∈ earlier ∨ g.Reaches j i

/-- A list splits in one way at the first place of an element. -/
theorem append_cons_inj {a : Nat} : ∀ {xs ys xs' ys' : List Nat}, a ∉ xs → a ∉ ys →
    xs ++ a :: xs' = ys ++ a :: ys' → xs = ys ∧ xs' = ys'
  | [], [], _, _, _, _, h => ⟨rfl, by simpa using h⟩
  | [], y :: ys, _, _, _, hy, h => absurd (List.cons.inj h).1 fun e => hy (by simp [e])
  | x :: xs, [], _, _, hx, _, h => absurd (List.cons.inj h).1 fun e => hx (by simp [e])
  | x :: xs, y :: ys, _, _, hx, hy, h => by
      obtain ⟨hxy, hrest⟩ := List.cons.inj h
      obtain ⟨rfl, rfl⟩ := append_cons_inj (fun hm => hx (List.mem_cons_of_mem _ hm))
        (fun hm => hy (List.mem_cons_of_mem _ hm)) hrest
      exact ⟨by rw [hxy], rfl⟩

/-- An open position has a topmost entry. -/
theorem Inv.exists_above {s : Search} (hs : s.Inv g) {i : Nat} (ho : s.Open i) :
    ∃ above below, s.Above i above below := by
  obtain ⟨above, below, hstack, htop⟩ := List.eq_append_cons_of_mem (hs.open_mem i ho)
  exact ⟨above, below, hstack, htop, ho⟩

/-- What lies above a function on the stack has the top among it. -/
theorem Above.mem_of_head {s : Search} {i j : Nat} {rest above below : List Nat}
    (h : s.Above j above below) (htop : s.stack = i :: rest) (hne : j ≠ i) : i ∈ above := by
  cases above with
  | nil =>
    have hcons : i :: rest = j :: below := htop.symm.trans h.stack
    exact absurd (List.cons.inj hcons).1.symm hne
  | cons a above =>
    have hcons : i :: rest = a :: (above ++ j :: below) := htop.symm.trans h.stack
    exact (List.cons.inj hcons).1 ▸ List.mem_cons_self

/-- A function is finished when it is left, and stays so. -/
theorem mem_finished_leave {s : Search} {i j : Nat} {rest : List Nat} :
    j ∈ (s.leave i rest).finished ↔ j = i ∨ j ∈ s.finished := by
  by_cases hi : i ∈ s.finished
  · simp only [leave, hi, if_true]
    exact ⟨Or.inr, fun h => h.elim (fun e => e ▸ hi) id⟩
  · simp [leave, hi]

/-- A function that is left is no longer open. -/
theorem open_leave {s : Search} {i j : Nat} {rest : List Nat} :
    (s.leave i rest).Open j ↔ s.Open j ∧ j ≠ i := by
  simp only [Open, mem_finished_leave, not_or]
  exact ⟨fun ⟨hd, hne, hf⟩ => ⟨⟨hd, hf⟩, hne⟩, fun ⟨⟨hd, hf⟩, hne⟩ => ⟨hd, hne, hf⟩⟩

/-- What lay above a function before the top was left is what lies above it now, and the top. -/
theorem Above.before_leave {s : Search} {i j : Nat} {rest above below : List Nat}
    (h : (s.leave i rest).Above j above below) (htop : s.stack = i :: rest) :
    s.Above j (i :: above) below := by
  obtain ⟨ho, hne⟩ := open_leave.mp h.isOpen
  have hrest : rest = above ++ j :: below := h.stack
  refine ⟨by rw [htop, hrest, List.cons_append], ?_, ho⟩
  exact fun hm => (List.mem_cons.mp hm).elim hne h.topmost

/-- A caller of the open top of the stack is finished, or else reaches it: it is discovered, and
while it is open, the top lies above it. -/
theorem Inv.finished_or_reaches {s : Search} (hs : s.Inv g) {i j : Nat} {rest : List Nat}
    (htop : s.stack = i :: rest) (ho : s.Open i) (he : g.Edge i j) :
    j ∈ s.finished ∨ g.Reaches j i := by
  have habove : s.Above i [] rest := ⟨htop, List.not_mem_nil, ho⟩
  have hdj : j ∈ s.discovered := (hs.pending i [] rest habove j he).resolve_right List.not_mem_nil
  by_cases hf : j ∈ s.finished
  · exact Or.inl hf
  · obtain ⟨above, below, hj⟩ := hs.exists_above ⟨hdj, hf⟩
    have hne : j ≠ i := fun e => hs.loopless i ho.1 (e ▸ he)
    exact Or.inr (hs.reach j above below hj i (hj.mem_of_head htop hne))

/-- **Leaving a position keeps the invariant.** -/
theorem Inv.leave {s : Search} (hs : s.Inv g) {i : Nat} {rest : List Nat}
    (htop : s.stack = i :: rest) (hd : i ∈ s.discovered) : (s.leave i rest).Inv g where
  bounded j hj := hs.bounded j (htop ▸ List.mem_cons_of_mem _ hj)
  discovered_lt := hs.discovered_lt
  finished_sub j hj := (mem_finished_leave.mp hj).elim (fun e => e ▸ hd) (hs.finished_sub j)
  nodup := by
    by_cases hi : i ∈ s.finished
    · simpa [Search.leave, hi] using hs.nodup
    · simpa [Search.leave, hi] using hs.nodup
  loopless := hs.loopless
  open_mem j hj := by
    obtain ⟨ho, hne⟩ := open_leave.mp hj
    have hmem : j ∈ i :: rest := htop ▸ hs.open_mem j ho
    exact (List.mem_cons.mp hmem).resolve_left hne
  pending j above below h k hk := by
    have hbefore : s.Above j (i :: above) below := h.before_leave htop
    rcases hs.pending j _ _ hbefore k hk with hdk | hak
    · exact Or.inl hdk
    · rcases List.mem_cons.mp hak with rfl | hak
      · exact Or.inl hd
      · exact Or.inr hak
  reach j above below h k hk :=
    hs.reach j _ _ (h.before_leave htop) k (List.mem_cons_of_mem _ hk)
  closed later j earlier h k hk := by
    by_cases hi : i ∈ s.finished
    · exact hs.closed later j earlier (by simpa [Search.leave, hi] using h) k hk
    · have hcons : i :: s.finished = later ++ j :: earlier := by
        simpa [Search.leave, hi] using h
      cases later with
      | cons l later => exact hs.closed later j earlier (List.cons.inj hcons).2 k hk
      | nil =>
        obtain ⟨rfl, rfl⟩ := List.cons.inj hcons
        exact hs.finished_or_reaches htop ⟨hd, hi⟩ hk

/-- What discovering `i` puts on the stack. -/
theorem mem_fresh {s : Search} {i j : Nat} :
    j ∈ ((g.callers i).filter (· ∉ i :: s.discovered)).reverse ↔
      g.Edge i j ∧ j ≠ i ∧ j ∉ s.discovered := by simp

/-- A function is open from when it is discovered. -/
theorem open_discover {s : Search} (hs : s.Inv g) {i j : Nat} (hi : i ∉ s.discovered) :
    (s.discover g i).Open j ↔ j = i ∨ s.Open j := by
  have hif : i ∉ s.finished := fun h => hi (hs.finished_sub i h)
  simp only [Open, discover, List.mem_cons]
  constructor
  · rintro ⟨rfl | hd, hf⟩
    · exact Or.inl rfl
    · exact Or.inr ⟨hd, hf⟩
  · rintro (rfl | ⟨hd, hf⟩)
    · exact ⟨Or.inl rfl, hif⟩
    · exact ⟨Or.inr hd, hf⟩

/-- Above a position that was open before, discovering `i` puts `i`'s callers on what was there. -/
theorem Above.before_discover {s : Search} (hs : s.Inv g) {i j : Nat} {above below : List Nat}
    (h : (s.discover g i).Above j above below) (ho : s.Open j) :
    ∃ above', s.Above j above' below ∧
      above = ((g.callers i).filter (· ∉ i :: s.discovered)).reverse ++ above' := by
  obtain ⟨above', below', hj⟩ := hs.exists_above ho
  have hfresh : j ∉ ((g.callers i).filter (· ∉ i :: s.discovered)).reverse :=
    fun hm => (mem_fresh.mp hm).2.2 ho.1
  have hstack : ((g.callers i).filter (· ∉ i :: s.discovered)).reverse ++ above' ++ j :: below'
      = above ++ j :: below := by
    rw [← h.stack, discover, hj.stack, List.append_assoc]
  obtain ⟨rfl, rfl⟩ := append_cons_inj
    (fun hm => (List.mem_append.mp hm).elim hfresh hj.topmost) h.topmost hstack
  exact ⟨above', hj, rfl⟩

/-- Above `i` itself there are just its callers. -/
theorem Above.of_discover {s : Search} {i : Nat} {rest above below : List Nat}
    (h : (s.discover g i).Above i above below) (htop : s.stack = i :: rest) :
    above = ((g.callers i).filter (· ∉ i :: s.discovered)).reverse := by
  have hstack : ((g.callers i).filter (· ∉ i :: s.discovered)).reverse ++ i :: rest
      = above ++ i :: below := by rw [← h.stack, discover, htop]
  exact (append_cons_inj (fun hm => (mem_fresh.mp hm).2.1 rfl) h.topmost hstack).1.symm

/-- **Discovering a position keeps the invariant.** -/
theorem Inv.discover {s : Search} (hb : g.Bounded) (hs : s.Inv g) {i : Nat} {rest : List Nat}
    (htop : s.stack = i :: rest) (hi : i ∉ s.discovered) (hl : ¬ g.Edge i i) :
    (s.discover g i).Inv g where
  bounded j hj := by
    rcases List.mem_append.mp hj with hj | hj
    · exact (hb i j (mem_fresh.mp hj).1).2
    · exact hs.bounded j hj
  discovered_lt j hj := by
    rcases List.mem_cons.mp hj with rfl | hj
    · exact hs.bounded j (htop ▸ List.mem_cons_self)
    · exact hs.discovered_lt j hj
  finished_sub j hj := List.mem_cons_of_mem _ (hs.finished_sub j hj)
  nodup := hs.nodup
  loopless j hj := by
    rcases List.mem_cons.mp hj with rfl | hj
    · exact hl
    · exact hs.loopless j hj
  open_mem j hj := by
    refine List.mem_append.mpr (Or.inr ?_)
    rcases (open_discover hs hi).mp hj with rfl | ho
    · exact htop ▸ List.mem_cons_self
    · exact hs.open_mem j ho
  pending j above below h k hk := by
    rcases (open_discover hs hi).mp h.isOpen with rfl | ho
    · rw [h.of_discover htop, mem_fresh]
      by_cases hdk : k ∈ j :: s.discovered
      · exact Or.inl hdk
      · exact Or.inr ⟨hk, fun e => hdk (e ▸ List.mem_cons_self),
          fun hm => hdk (List.mem_cons_of_mem _ hm)⟩
    · obtain ⟨above', hj, rfl⟩ := h.before_discover hs ho
      exact (hs.pending j above' below hj k hk).imp (List.mem_cons_of_mem _)
        (List.mem_append_right _)
  reach j above below h k hk := by
    rcases (open_discover hs hi).mp h.isOpen with rfl | ho
    · rw [h.of_discover htop, mem_fresh] at hk
      exact .single hk.1
    · obtain ⟨above', hj, rfl⟩ := h.before_discover hs ho
      rcases List.mem_append.mp hk with hk | hk
      · have hne : j ≠ i := fun e => hi (e ▸ ho.1)
        exact (hs.reach j above' below hj i (hj.mem_of_head htop hne)).tail (mem_fresh.mp hk).1
      · exact hs.reach j above' below hj k hk
  closed := hs.closed

/-! ## The number of steps

Every entry of the stack is taken off once, and every position that is not discovered yet will be
discovered at most once and then put at most as many entries on the stack as it has edges. -/

/-- A bound on the steps that are left. -/
def work (g : CallGraph) (s : Search) : Nat :=
  s.stack.length + (List.range g.functions.length).countP (· ∉ s.discovered)
    + g.edges.countP (·.1 ∉ s.discovered)

/-- Marking one more position takes those with it out of the count. -/
theorem countP_notMem_cons {α : Type} (f : α → Nat) {i : Nat} {d : List Nat} (hi : i ∉ d) :
    ∀ l : List α, l.countP (f · ∉ d) = l.countP (f · ∉ i :: d) + l.countP (f · = i)
  | [] => rfl
  | a :: l => by
      have ih := countP_notMem_cons f hi l
      by_cases hai : f a = i
      · have had : f a ∉ d := hai ▸ hi
        simp only [List.countP_cons, hai, hi, List.mem_cons, true_or, not_true_eq_false,
          not_false_eq_true, decide_true, decide_false, if_true] at ih ⊢
        simp only [Bool.false_eq_true, if_false]
        omega
      · simp only [List.countP_cons, hai, List.mem_cons, false_or, decide_false] at ih ⊢
        simp only [Bool.false_eq_true, if_false]
        omega

/-- A function has one caller for each edge that goes out of it. -/
theorem length_callers (i : Nat) : (g.callers i).length = g.edges.countP (·.1 = i) := by
  rw [callers, List.length_filterMap_eq_countP]
  refine List.countP_congr fun e _ => ?_
  by_cases h : e.1 = i <;> simp [h]

/-- Leaving a function takes work off. -/
theorem work_leave {s : Search} {i : Nat} {rest : List Nat} (htop : s.stack = i :: rest) :
    (s.leave i rest).work g < s.work g := by
  change rest.length + (List.range g.functions.length).countP (· ∉ s.discovered)
    + g.edges.countP (·.1 ∉ s.discovered) < s.work g
  rw [work, htop, List.length_cons]
  omega

/-- Discovering a function takes work off, since its edges are then counted no more. -/
theorem work_discover {s : Search} (hs : s.Inv g) {i : Nat} {rest : List Nat}
    (htop : s.stack = i :: rest) (hi : i ∉ s.discovered) :
    (s.discover g i).work g < s.work g := by
  have hedges := countP_notMem_cons Prod.fst hi g.edges
  have hnodes := countP_notMem_cons id hi (List.range g.functions.length)
  have hfresh : ((g.callers i).filter (· ∉ i :: s.discovered)).length
      ≤ g.edges.countP (·.1 = i) := length_callers (g := g) i ▸ List.length_filter_le _ _
  have hone : 0 < (List.range g.functions.length).countP (id · = i) :=
    List.countP_pos_iff.mpr
      ⟨i, List.mem_range.mpr (hs.bounded i (htop ▸ List.mem_cons_self)), by simp⟩
  change (((g.callers i).filter (· ∉ i :: s.discovered)).reverse ++ s.stack).length
    + (List.range g.functions.length).countP (id · ∉ i :: s.discovered)
    + g.edges.countP (·.1 ∉ i :: s.discovered)
    < s.stack.length + (List.range g.functions.length).countP (id · ∉ s.discovered)
      + g.edges.countP (·.1 ∉ s.discovered)
  rw [List.length_append, List.length_reverse]
  omega

/-- **A run with enough fuel** ends at a self-call, or with an empty stack and nothing forgotten. -/
theorem run_cases (hb : g.Bounded) : ∀ (fuel : Nat) (s : Search), s.Inv g → s.work g ≤ fuel →
    (∃ i, s.run g fuel = .error i ∧ g.Edge i i) ∨
      ∃ s', s.run g fuel = .ok s' ∧ s'.Inv g ∧ s'.stack = [] ∧
        ∀ i, i ∈ s.stack ∨ i ∈ s.discovered → i ∈ s'.discovered
  | 0, s, hs, hw => by
      have hnil : s.stack = [] := List.length_eq_zero_iff.mp (by rw [work] at hw; omega)
      refine Or.inr ⟨s, rfl, hs, hnil, fun i hi => hi.resolve_left ?_⟩
      simp [hnil]
  | fuel + 1, s, hs, hw => by
      cases htop : s.stack with
      | nil =>
        exact Or.inr ⟨s, by simp [run, step_nil htop], hs, htop, fun i hi => by simpa using hi⟩
      | cons i rest =>
        by_cases hd : i ∈ s.discovered
        · have hrun : s.run g (fuel + 1) = (s.leave i rest).run g fuel := by
            simp [run, step_cons htop, hd]
          have hlt := work_leave (g := g) htop
          rw [hrun]
          refine (run_cases hb fuel _ (hs.leave htop hd) (by omega)).imp_right ?_
          rintro ⟨s', hs', hinv, hnil, hkeep⟩
          refine ⟨s', hs', hinv, hnil, fun j hj => ?_⟩
          rcases hj with hj | hj
          · rcases List.mem_cons.mp hj with rfl | hj
            · exact hkeep j (Or.inr hd)
            · exact hkeep j (Or.inl hj)
          · exact hkeep j (Or.inr hj)
        · by_cases hl : g.Edge i i
          · exact Or.inl ⟨i, by simp [run, step_cons htop, hd, hl], hl⟩
          · have hrun : s.run g (fuel + 1) = (s.discover g i).run g fuel := by
              simp [run, step_cons htop, hd, hl]
            have hlt := work_discover hs htop hd
            rw [hrun]
            refine (run_cases hb fuel _ (hs.discover hb htop hd hl) (by omega)).imp_right ?_
            rintro ⟨s', hs', hinv, hnil, hkeep⟩
            refine ⟨s', hs', hinv, hnil, fun j hj => hkeep j ?_⟩
            exact hj.imp (fun h => List.mem_append_right _ (htop ▸ h)) (List.mem_cons_of_mem _)

end Search

/-! ## From every function in turn -/

/-- Searches from a function, unless it was met before. -/
def visitRoot (g : CallGraph) (s : Search) (i : Nat) : Except Nat Search :=
  if i ∈ s.discovered then .ok s else { s with stack := [i] }.run g g.stepBound

/-- The search goes over all functions, each from the state that the one before left. -/
theorem search_eq (g : CallGraph) :
    g.search = do
      let s ← (List.range g.functions.length).foldlM g.visitRoot ⟨[], [], []⟩
      return s.finished := rfl

namespace Search

/-- A search at rest, between two roots. -/
structure AtRest (g : CallGraph) (s : Search) : Prop where
  inv : s.Inv g
  stack : s.stack = []

theorem AtRest.not_open {s : Search} (h : s.AtRest g) (i : Nat) : ¬ s.Open i := fun ho => by
  have hm := h.inv.open_mem i ho
  rw [h.stack] at hm
  exact List.not_mem_nil hm

/-- A search at rest can be started anywhere. -/
theorem AtRest.start {s : Search} (h : s.AtRest g) {i : Nat} (hi : i < g.functions.length) :
    ({ s with stack := [i] } : Search).Inv g where
  bounded _ hj := List.mem_singleton.mp hj ▸ hi
  discovered_lt := h.inv.discovered_lt
  finished_sub := h.inv.finished_sub
  nodup := h.inv.nodup
  loopless := h.inv.loopless
  open_mem j ho := absurd ho (h.not_open j)
  pending j _ _ ha := absurd ha.isOpen (h.not_open j)
  reach j _ _ ha := absurd ha.isOpen (h.not_open j)
  closed := h.inv.closed

theorem atRest_empty (g : CallGraph) : (⟨[], [], []⟩ : Search).AtRest g := by
  refine ⟨⟨?_, ?_, ?_, List.nodup_nil, ?_, ?_, ?_, ?_, ?_⟩, rfl⟩
  · exact fun i hi => absurd hi List.not_mem_nil
  · exact fun i hi => absurd hi List.not_mem_nil
  · exact fun i hi => absurd hi List.not_mem_nil
  · exact fun i hi => absurd hi List.not_mem_nil
  · exact fun i ho => absurd ho.1 List.not_mem_nil
  · exact fun i above below ha => absurd ha.isOpen.1 List.not_mem_nil
  · exact fun i above below ha => absurd ha.isOpen.1 List.not_mem_nil
  · exact fun later i earlier h => by simp at h

/-- There is never more work than the bound on the number of steps. -/
theorem work_start_le (s : Search) (i : Nat) :
    ({ s with stack := [i] } : Search).work g ≤ g.stepBound := by
  have hnodes : (List.range g.functions.length).countP (· ∉ s.discovered) ≤ g.functions.length :=
    le_of_le_of_eq List.countP_le_length List.length_range
  have hedges : g.edges.countP (·.1 ∉ s.discovered) ≤ g.edges.length := List.countP_le_length
  change 1 + (List.range g.functions.length).countP (· ∉ s.discovered)
    + g.edges.countP (·.1 ∉ s.discovered) ≤ g.functions.length + g.edges.length + 2
  omega

end Search

/-- Visiting one function more meets a loop, or discovers it and comes to rest again. -/
theorem visitRoot_cases (hb : g.Bounded) {s : Search} (hs : s.AtRest g) {i : Nat}
    (hi : i < g.functions.length) :
    (∃ j, g.visitRoot s i = .error j ∧ g.Edge j j) ∨
      ∃ s', g.visitRoot s i = .ok s' ∧ s'.AtRest g ∧
        ∀ j, j = i ∨ j ∈ s.discovered → j ∈ s'.discovered := by
  by_cases hd : i ∈ s.discovered
  · refine Or.inr ⟨s, by simp [visitRoot, hd], hs, ?_⟩
    rintro j (rfl | hj)
    · exact hd
    · exact hj
  · rw [visitRoot, if_neg hd]
    refine (Search.run_cases hb _ _ (hs.start hi) (Search.work_start_le s i)).imp_right ?_
    rintro ⟨s', hs', hinv, hnil, hkeep⟩
    exact ⟨s', hs', ⟨hinv, hnil⟩, fun j hj => hkeep j (hj.imp_left List.mem_singleton.mpr)⟩

/-- Visiting several in turn meets a loop, or discovers them all. -/
theorem foldlM_visitRoot_cases (hb : g.Bounded) : ∀ (roots : List Nat) (s : Search), s.AtRest g →
    (∀ i ∈ roots, i < g.functions.length) →
    (∃ j, roots.foldlM g.visitRoot s = .error j ∧ g.Edge j j) ∨
      ∃ s', roots.foldlM g.visitRoot s = .ok s' ∧ s'.AtRest g ∧
        ∀ j, j ∈ roots ∨ j ∈ s.discovered → j ∈ s'.discovered
  | [], s, hs, _ => Or.inr ⟨s, rfl, hs, fun j hj => by simpa using hj⟩
  | i :: roots, s, hs, hlt => by
      rw [List.foldlM_cons]
      rcases visitRoot_cases hb hs (hlt i List.mem_cons_self) with ⟨j, hj, hl⟩ | ⟨s₁, h₁, hr, hk₁⟩
      · exact Or.inl ⟨j, by rw [hj]; rfl, hl⟩
      · rw [h₁]
        refine (foldlM_visitRoot_cases hb roots s₁ hr fun j hj =>
          hlt j (List.mem_cons_of_mem _ hj)).imp_right ?_
        rintro ⟨s', hs', hr', hk'⟩
        refine ⟨s', hs', hr', fun j hj => hk' j ?_⟩
        rcases hj with hj | hj
        · exact (List.mem_cons.mp hj).elim (fun e => Or.inr (hk₁ j (Or.inl e))) Or.inl
        · exact Or.inr (hk₁ j (Or.inr hj))

/-- An order in which functions were left for good, last first. -/
structure Finishing (g : CallGraph) (order : List Nat) : Prop where
  nodup : order.Nodup
  mem_iff : ∀ i, i ∈ order ↔ i < g.functions.length
  loopless : ∀ i, ¬ g.Edge i i
  closed : ∀ later i earlier, order = later ++ i :: earlier →
    ∀ j, g.Edge i j → j ∈ earlier ∨ g.Reaches j i

/-- **The search finds a self-call, or lists every function once**, and a caller that is not listed
after its callee reaches it. -/
theorem finishing_of_search (hb : g.Bounded) :
    (∃ i, g.search = .error i ∧ g.Edge i i) ∨
      ∃ order, g.search = .ok order ∧ g.Finishing order := by
  have hcases := foldlM_visitRoot_cases hb (List.range g.functions.length) _
    (Search.atRest_empty g) fun i hi => List.mem_range.mp hi
  rw [search_eq]
  rcases hcases with ⟨i, hi, hl⟩ | ⟨s, hs, hrest, hall⟩
  · exact Or.inl ⟨i, by rw [hi]; rfl, hl⟩
  · have hdisc : ∀ i, i ∈ s.discovered ↔ i < g.functions.length := fun i =>
      ⟨hrest.inv.discovered_lt i, fun hi => hall i (Or.inl (List.mem_range.mpr hi))⟩
    refine Or.inr ⟨s.finished, by rw [hs]; rfl, hrest.inv.nodup, fun i => ?_, fun i he => ?_,
      hrest.inv.closed⟩
    · rw [← hdisc i]
      exact ⟨hrest.inv.finished_sub i, fun hd =>
        Classical.byContradiction fun hf => hrest.not_open i ⟨hd, hf⟩⟩
    · exact hrest.inv.loopless i ((hdisc i).mpr (hb i i he).1) he

end GraphScript.CallGraph
