import GraphScript.Proofs.Names.Lookup
import GraphScript.Script.Token

/-!
# Proofs/Names/Distinct — identifiers that cannot be confused

An identifier begins with the mark of what it names, and marks begin with different letters outside
functions (`outerMarks`) and inside (`innerMarks`).  So an identifier of one kind is none of the
other, and none is a word that chunks use for something else (`not_reserved_of_marked`).  Together
with the reservation, which gives nothing out twice, this is `ofModel_distinct`.
-/

namespace GraphScript

open Script (Token)

namespace Names

/-! ## Identifiers and reserved words -/

/-- A letter or an underscore, and then letters, digits and underscores. -/
def IsIdentifier (s : String) : Prop :=
  ∃ c cs, s.toList = c :: cs ∧ Token.startsName c = true ∧ ∀ d ∈ cs, Token.inName d = true

/-- The names of a chunk that stand for no declaration. -/
def chunkWords : List String := ["self", "inputs", "executionState", "setmetatable", "math"]

/-- A word with a meaning of its own in a chunk: a reserved word of the language, a name that
chunks use themselves, or one that belongs to the services of the host. -/
def Reserved (s : String) : Prop :=
  s ∈ Token.keywords ∨ s ∈ chunkWords ∨ "__sc_".toList <+: s.toList

/-! ## Marks -/

/-- The marks of identifiers that the whole text knows. -/
def outerMarks : List String := ["cls_", "m_", "out_", "in_", "fn_"]

/-- The marks of identifiers that one function knows. -/
def innerMarks : List String := ["p_", "l_"]

/-- The text is plain and begins with one of the marks. -/
structure Marked (marks : List String) (s : String) : Prop where
  plain : Plain s
  mark : ∃ mark ∈ marks, ∃ rest, s = mark ++ rest

theorem Marked.mono {marks marks' : List String} {s : String} (h : Marked marks s)
    (hsub : ∀ mark ∈ marks, mark ∈ marks') : Marked marks' s := by
  obtain ⟨hplain, mark, hmark, hrest⟩ := h
  exact ⟨hplain, mark, hsub mark hmark, hrest⟩

theorem Made.marked {marks : List String} {mark name s : String} (hmark : mark ∈ marks)
    (hplain : Plain mark) (h : Made (mark ++ cleanName name) s) : Marked marks s := by
  obtain ⟨rest, rfl⟩ := h.exists_append
  exact ⟨h.plain (plain_append.mpr ⟨hplain, plain_cleanName name⟩), mark, hmark,
    cleanName name ++ rest, String.append_assoc ..⟩

theorem head?_mark_append {mark : String} {c : Char} (h : mark.toList.head? = some c)
    (rest : String) : (mark ++ rest).toList.head? = some c := by
  rw [String.toList_append, List.head?_append, h]
  rfl

/-- Every mark begins with a letter. -/
theorem exists_head?_mark : ∀ mark ∈ outerMarks ++ innerMarks,
    ∃ c, mark.toList.head? = some c ∧ c.isAlpha = true := by
  have hletters : ∀ mark ∈ outerMarks ++ innerMarks, mark.toList.head?.any Char.isAlpha := by decide
  intro mark hmark
  obtain ⟨c, hc, halpha⟩ := Option.any_eq_true _ _ |>.mp (hletters mark hmark)
  exact ⟨c, hc, halpha⟩

theorem isIdentifier_of_marked {s : String} (h : Marked (outerMarks ++ innerMarks) s) :
    IsIdentifier s := by
  obtain ⟨hplain, mark, hmark, rest, rfl⟩ := h
  obtain ⟨c, hc, halpha⟩ := exists_head?_mark mark hmark
  obtain ⟨cs, hcs⟩ := List.head?_eq_some_iff.mp (head?_mark_append hc rest)
  refine ⟨c, cs, hcs, ?_, fun d hd => ?_⟩
  · simp [Token.startsName, halpha]
  · have hword := hplain d (hcs ▸ List.mem_cons_of_mem c hd)
    simpa [Token.inName] using hword

/-- **No identifier is a reserved word.** -/
theorem not_reserved_of_marked {s : String} (h : Marked (outerMarks ++ innerMarks) s) :
    ¬ Reserved s := by
  obtain ⟨_, mark, hmark, rest, rfl⟩ := h
  have hwords : ∀ mark ∈ outerMarks ++ innerMarks, ∀ word ∈ Token.keywords ++ chunkWords,
      ¬ mark.toList <+: word.toList := by decide
  have hstart : mark.toList <+: (mark ++ rest).toList := by
    rw [String.toList_append]
    exact List.prefix_append _ _
  rintro (hkeyword | hword | hservice)
  · exact hwords mark hmark _ (List.mem_append_left _ hkeyword) hstart
  · exact hwords mark hmark _ (List.mem_append_right _ hword) hstart
  · obtain ⟨c, hc, halpha⟩ := exists_head?_mark mark hmark
    obtain ⟨tail, htail⟩ := hservice
    have hhead : some '_' = some c := by
      rw [← head?_mark_append hc rest, ← htail]
      rfl
    exact absurd (Option.some.inj hhead ▸ halpha) (by decide)

/-- **An identifier inside a function is none of those that the whole text knows.** -/
theorem ne_of_marked {s t : String} (hs : Marked innerMarks s) (ht : Marked outerMarks t) :
    s ≠ t := by
  obtain ⟨_, mark, hmark, rest, rfl⟩ := hs
  obtain ⟨_, mark', hmark', rest', rfl⟩ := ht
  have hheads : ∀ mark ∈ innerMarks, ∀ mark' ∈ outerMarks,
      mark.toList.head? ≠ mark'.toList.head? := by decide
  obtain ⟨c, hc, _⟩ := exists_head?_mark mark (List.mem_append_right _ hmark)
  obtain ⟨c', hc', _⟩ := exists_head?_mark mark' (List.mem_append_left _ hmark')
  intro heq
  have hhead := congrArg (fun s => s.toList.head?) heq
  simp only [head?_mark_append hc, head?_mark_append hc'] at hhead
  exact hheads mark hmark mark' hmark' (hc.trans (hhead.trans hc'.symm))

/-! ## The identifiers of a model -/

/-- The identifiers that the whole text knows, one for each declaration. -/
def outer (n : Names) : List String :=
  n.className :: (n.members.map (·.2) ++ (n.outs.map (·.2) ++ n.functions.map (·.2.name)))

/-- The identifiers that a function alone knows. -/
def Function.inner (f : Function) : List String := f.params ++ f.locals

theorem map_snd_zip_map {α β : Type} {l : List α} {names : List String} (g : α × String → β × String)
    (hg : ∀ e, (g e).2 = e.2) (hlen : names.length ≤ l.length) :
    ((l.zip names).map g).map (·.2) = names := by
  rw [List.map_map]
  exact (List.map_congr_left fun e _ => hg e).trans (List.map_snd_zip hlen)

namespace Dealt

variable {m : Model} {ms os fs : List String} (hd : Dealt m ms os fs)

include hd

theorem map_snd_members : (ofModel m).members.map (·.2) = ms := by
  have hlen := hd.members_made.length_eq
  rw [memberBases, List.length_map] at hlen
  rw [hd.members_eq]
  exact map_snd_zip_map _ (fun _ => rfl) (Nat.le_of_eq hlen.symm)

theorem map_snd_outs : (ofModel m).outs.map (·.2) = os := by
  have hlen := hd.outs_made.length_eq
  rw [outBases, List.length_map] at hlen
  rw [hd.outs_eq]
  exact map_snd_zip_map _ (fun _ => rfl) (Nat.le_of_eq hlen.symm)

theorem map_name_functions : (ofModel m).functions.map (·.2.name) = fs := by
  have hlen := hd.functions_made.length_eq
  rw [functionBases, List.length_map] at hlen
  rw [hd.functions_eq, List.map_map]
  exact List.map_snd_zip (Nat.le_of_eq hlen.symm)

/-- The identifiers of a model, apart from those inside functions. -/
theorem outer_eq : (ofModel m).outer = (ofModel m).className :: (ms ++ (os ++ fs)) := by
  rw [outer, hd.map_snd_members, hd.map_snd_outs, hd.map_name_functions]

/-- Every identifier that the whole text knows begins with the mark of its declaration. -/
theorem marked_outer : ∀ s ∈ (ofModel m).outer, Marked outerMarks s := by
  rw [hd.outer_eq]
  refine List.forall_mem_cons.mpr ⟨hd.class_made.marked (by decide) (by decide), ?_⟩
  refine List.forall_mem_append.mpr ⟨fun s hs => ?_, List.forall_mem_append.mpr
    ⟨fun s hs => ?_, fun s hs => ?_⟩⟩
  · obtain ⟨base, hbase, hmade⟩ := exists_made_of_mem hd.members_made hs
    obtain ⟨v, _, rfl⟩ := List.mem_map.mp hbase
    exact hmade.marked (by decide) (by decide)
  · obtain ⟨base, hbase, hmade⟩ := exists_made_of_mem hd.outs_made hs
    obtain ⟨o, _, rfl⟩ := List.mem_map.mp hbase
    exact hmade.marked (by decide) (by decide)
  · obtain ⟨base, hbase, hmade⟩ := exists_made_of_mem hd.functions_made hs
    obtain ⟨f, _, rfl⟩ := List.mem_map.mp hbase
    refine hmade.marked ?_ (plain_functionMark f.kind)
    cases f.kind
    · decide
    · decide

end Dealt

/-- The identifiers inside a function are those that were reserved for it. -/
theorem inner_ofFunction (name : String) (f : FunctionDef) :
    (ofFunction name f).inner = reserveAll [] (localBases f) := List.take_append_drop ..

/-- Identifiers inside a function have marks of their own. -/
theorem marked_inner (name : String) (f : FunctionDef) :
    ∀ s ∈ (ofFunction name f).inner, Marked innerMarks s := by
  intro s hs
  rw [inner_ofFunction] at hs
  obtain ⟨base, hbase, hmade⟩ := exists_made_of_mem (made_reserveAll [] (localBases f)) hs
  rcases List.mem_append.mp hbase with hbase | hbase
  · obtain ⟨p, _, rfl⟩ := List.mem_map.mp hbase
    exact hmade.marked (by decide) (by decide)
  · obtain ⟨l, _, rfl⟩ := List.mem_map.mp hbase
    exact hmade.marked (by decide) (by decide)

/-- What a function is entered with: its identifier, and one for each parameter and each local. -/
def EnteredAs (f : FunctionDef) (e : FunctionId × Function) : Prop :=
  e.1 = f.id ∧ e.2.params.length = f.params.length ∧ e.2.locals.length = f.locals.length

theorem forall₂_enteredAs_zip : ∀ {fs : List FunctionDef} {names : List String},
    fs.length = names.length →
      List.Forall₂ EnteredAs fs ((fs.zip names).map fun e => (e.1.id, ofFunction e.2 e.1))
  | [], _, _ => .nil
  | f :: _, name :: _, hlen =>
      .cons ⟨rfl, length_params_ofFunction name f, length_locals_ofFunction name f⟩
        (forall₂_enteredAs_zip (Nat.succ.inj hlen))

/-- The identifiers of a model. -/
def all (n : Names) : List String := n.outer ++ n.functions.flatMap (·.2.inner)

/-- No two identifiers can be confused, and none with a word that means something else. -/
structure Distinct (n : Names) : Prop where
  outer_nodup : n.outer.Nodup
  inner_nodup : ∀ e ∈ n.functions, e.2.inner.Nodup
  inner_notMem_outer : ∀ e ∈ n.functions, ∀ s ∈ e.2.inner, s ∉ n.outer
  isIdentifier : ∀ s ∈ n.all, IsIdentifier s
  not_reserved : ∀ s ∈ n.all, ¬ Reserved s

theorem exists_ofFunction {m : Model} {e : FunctionId × Function} (h : e ∈ (ofModel m).functions) :
    ∃ name f, e.2 = ofFunction name f := by
  obtain ⟨ms, os, fs, hd⟩ := exists_dealt m
  rw [hd.functions_eq] at h
  obtain ⟨⟨f, name⟩, _, rfl⟩ := List.mem_map.mp h
  exact ⟨name, f, rfl⟩

/-- All identifiers have a mark. -/
theorem marked_all (m : Model) : ∀ s ∈ (ofModel m).all, Marked (outerMarks ++ innerMarks) s := by
  obtain ⟨ms, os, fs, hd⟩ := exists_dealt m
  refine List.forall_mem_append.mpr ⟨fun s hs => ?_, fun s hs => ?_⟩
  · exact (hd.marked_outer s hs).mono fun mark hmark => List.mem_append_left _ hmark
  · obtain ⟨e, he, hs⟩ := List.mem_flatMap.mp hs
    obtain ⟨name, f, hf⟩ := exists_ofFunction he
    rw [hf] at hs
    exact (marked_inner name f s hs).mono fun mark hmark => List.mem_append_right _ hmark

/-- **The identifiers of a model cannot be confused.**  Every variable, out-event and function has
one of its own, and so has every parameter and every local inside its function; those inside a
function are none of those that the whole text knows.  Each is an identifier, and none is a word
with another meaning. -/
theorem ofModel_distinct (m : Model) :
    (ofModel m).members.map (·.1) = m.members.map (·.id) ∧
      (ofModel m).outs.map (·.1) = m.outEvents.map (·.name) ∧
      List.Forall₂ EnteredAs m.functions (ofModel m).functions ∧
      (ofModel m).Distinct := by
  obtain ⟨ms, os, fs, hd⟩ := exists_dealt m
  refine ⟨map_fst_members m, map_fst_outs m, ?_, ?_, ?_, ?_, ?_, ?_⟩
  · have hlen := hd.functions_made.length_eq
    rw [functionBases, List.length_map] at hlen
    rw [hd.functions_eq]
    exact forall₂_enteredAs_zip hlen
  · rw [hd.outer_eq]
    exact hd.nodup
  · intro e he
    obtain ⟨name, f, hf⟩ := exists_ofFunction he
    rw [hf, inner_ofFunction]
    exact (nodup_reserveAll [] (localBases f)).1
  · intro e he s hs hmem
    obtain ⟨name, f, hf⟩ := exists_ofFunction he
    rw [hf] at hs
    exact ne_of_marked (marked_inner name f s hs) (hd.marked_outer s hmem) rfl
  · exact fun s hs => isIdentifier_of_marked (marked_all m s hs)
  · exact fun s hs => not_reserved_of_marked (marked_all m s hs)

end Names

end GraphScript
