import GraphScript.Proofs.CallGraph.Order
import GraphScript.Proofs.Emit.Forms
import GraphScript.Proofs.Emit.Quoted

/-!
# Proofs/Emit/Readable — the text of an expression tells which it is

Every operation stands in parentheses, so the text of an expression without negative literals can be
read in one way only: its first characters tell its form, and what follows tells its parts
(`expr_append_inj`).  It opens no comment either (`commentless_chars`).  What could be confused are
parameters and locals for which the table of identifiers has no entry (`Covers`); they decide
whether expressions can be read (`expr_readable_iff`).
-/

namespace GraphScript

open Decimal

namespace Emit.Script

/-! ## Expressions -/

section Text

variable {names : Names} {own : Names.Function}

/-- References that are told apart by what is written for them. -/
structure Tells (names : Names) (own : Names.Function) (m : Model) (f : FunctionDef) : Prop where
  member : ∀ v w, (m.variableAt? v).isSome → (m.variableAt? w).isSome →
    names.member v = names.member w → v = w
  param : ∀ i j : UInt16, i.toNat < f.params.length → j.toNat < f.params.length →
    own.params.getD i.toNat "nil" = own.params.getD j.toNat "nil" → i = j
  localVar : ∀ i j : UInt16, i.toNat < f.locals.length → j.toNat < f.locals.length →
    own.locals.getD i.toNat "_" = own.locals.getD j.toNat "_" → i = j

section Reading

variable (ht : Table names own) {m : Model} {f : FunctionDef}

include ht

/-- A member is written as a word. -/
theorem word_member (v : VariableId) : Word ("self." ++ names.member v).toList := by
  rw [String.toList_append]
  exact word_append (word_of_notMem (by decide) (by decide)) (word_of_plain (ht.member v))

/-- The same beginning is the same constructor. -/
theorem alike_of_chars {e e' : Expr} (he : e.Signless m f) (he' : e'.Signless m f)
    {r r' : List Char} (hr : Ends r) (hr' : Ends r')
    (h : chars names own e ++ r = chars names own e' ++ r') : Alike e e' := by
  refine alike_of_form he ?_
  rw [← (begins_chars ht he r hr).1, h, (begins_chars ht he' r' hr').1]

/-- **The text of an expression tells which it is, and where it ends.** -/
theorem expr_append_inj (hi : Tells names own m f) : ∀ (e e' : Expr), e.Signless m f →
    e'.Signless m f → ∀ {r r' : List Char}, Ends r → Ends r' →
      chars names own e ++ r = chars names own e' ++ r' → e = e' ∧ r = r' := by
  have hclosing : ∀ r : List Char, Ends (')' :: r) := ends_cons (.inr rfl)
  have hblank : ∀ r : List Char, Ends (' ' :: r) := ends_cons (.inl rfl)
  intro e
  induction e with
  | literal d =>
    intro e' he he' r r' hr hr' h
    cases alike_of_chars ht he he' hr hr' h with
    | boolean b b' =>
      obtain ⟨rfl, rfl⟩ := boolean_append_inj h
      exact ⟨rfl, rfl⟩
    | number x x' =>
      obtain ⟨rfl, rfl⟩ := number_append_inj he he' hr hr' h
      exact ⟨rfl, rfl⟩
    | string s s' =>
      obtain ⟨rfl, rfl⟩ := Literal.toList_string_append_inj .script h
      exact ⟨rfl, rfl⟩
    | entity a a' =>
      obtain ⟨rfl, rfl⟩ := entity_append_inj h
      exact ⟨rfl, rfl⟩
  | member v =>
    intro e' he he' r r' hr hr' h
    cases alike_of_chars ht he he' hr hr' h with
    | member _ v' =>
      obtain ⟨hword, rfl⟩ := word_append_inj (word_member ht v) (word_member ht v') hr hr' h
      obtain rfl := hi.member v v' he he'
        (String.append_right_inj _ |>.mp (String.toList_inj.mp hword))
      exact ⟨rfl, rfl⟩
  | param i =>
    intro e' he he' r r' hr hr' h
    cases alike_of_chars ht he he' hr hr' h with
    | param _ i' =>
      obtain ⟨hword, rfl⟩ := word_append_inj (word_of_plain (ht.plain_param i))
        (word_of_plain (ht.plain_param i')) hr hr' h
      obtain rfl := hi.param i i' he he' (String.toList_inj.mp hword)
      exact ⟨rfl, rfl⟩
  | localVar i =>
    intro e' he he' r r' hr hr' h
    cases alike_of_chars ht he he' hr hr' h with
    | localVar _ i' =>
      obtain ⟨hword, rfl⟩ := word_append_inj (word_of_plain (ht.plain_localVar i))
        (word_of_plain (ht.plain_localVar i')) hr hr' h
      obtain rfl := hi.localVar i i' he he' (String.toList_inj.mp hword)
      exact ⟨rfl, rfl⟩
  | binary op a b iha ihb =>
    intro e' he he' r r' hr hr' h
    cases alike_of_chars ht he he' hr hr' h with
    | binary _ op' _ _ a' b' =>
      simp only [chars_binary, List.cons_append, List.append_assoc, List.cons.injEq, true_and,
        List.nil_append] at h
      obtain ⟨rfl, hafter⟩ := iha a' he.1 he'.1 (hblank _) (hblank _) h
      obtain ⟨hop, hright⟩ := word_append_inj (word_operator op) (word_operator op') (hblank _)
        (hblank _) (List.cons.inj hafter).2
      obtain rfl := operator_injective (String.toList_inj.mp hop)
      obtain ⟨rfl, hend⟩ := ihb b' he.2 he'.2 (hclosing _) (hclosing _) (List.cons.inj hright).2
      exact ⟨rfl, (List.cons.inj hend).2⟩
  | not a ih =>
    intro e' he he' r r' hr hr' h
    cases alike_of_chars ht he he' hr hr' h with
    | not _ a' =>
      simp only [chars_not, List.cons_append, List.append_assoc, List.cons.injEq, true_and,
        List.nil_append] at h
      obtain ⟨rfl, hend⟩ := ih a' he he' (hclosing _) (hclosing _) h
      exact ⟨rfl, (List.cons.inj hend).2⟩
  | negate a ih =>
    intro e' he he' r r' hr hr' h
    cases alike_of_chars ht he he' hr hr' h with
    | negate _ a' =>
      simp only [chars_negate, List.cons_append, List.append_assoc, List.cons.injEq, true_and,
        List.nil_append] at h
      obtain ⟨rfl, hend⟩ := ih a' he he' (hclosing _) (hclosing _) h
      exact ⟨rfl, (List.cons.inj hend).2⟩

end Reading

end Text

/-! ## Comments -/

/-- An entity contains no comment. -/
theorem commentless_entity (n : ℕ) : Commentless (s!"__sc_entity(\"{n}\")").toList := by
  have hdigits : Digits (Nat.toDigits 10 n) :=
    ⟨fun c hc => Nat.isDigit_of_mem_toDigits (by decide) (by decide) hc, Nat.toDigits_ne_nil⟩
  have hopened : "__sc_entity(\"".toList.foldl Quote.next .outside = .inside := by decide
  rw [toList_entity]
  refine commentless_of_closed ?_ fun hm => ?_
  · rw [quoteAfter, List.foldl_append, hopened, List.foldl_append,
      foldl_silent fun c hc => silent_of_isDigit (hdigits.digit c hc)]
    rfl
  · rcases List.mem_append.mp hm with hm | hm
    · exact absurd hm (by decide)
    · rcases List.mem_append.mp hm with hm | hm
      · exact hdigits.notMem (by decide) hm
      · exact absurd hm (by decide)

theorem commentless_operator (op : BinaryOp) :
    Commentless (' ' :: ((operator op).toList ++ [' '])) := by
  cases op <;> exact commentless_of_count (by decide) (by decide) (by decide)

theorem commentless_of_plain {s : String} (h : Names.Plain s) : Commentless s.toList :=
  commentless_of_notMem (fun hc => absurd (h _ hc) (by decide))
    fun hc => absurd (h _ hc) (by decide)

section Comments

variable {names : Names} {own : Names.Function} (ht : Table names own)

include ht

/-- **An expression opens no comment.** -/
theorem commentless_chars {m : Model} {f : FunctionDef} : ∀ {e : Expr}, e.Signless m f →
    Commentless (chars names own e) := by
  have hopening : Commentless ['('] := commentless_of_notMem (by decide) (by decide)
  have hclosing : Commentless [')'] := commentless_of_notMem (by decide) (by decide)
  intro e
  induction e with
  | literal d =>
    intro he
    cases d with
    | boolean b =>
      cases b
      · exact commentless_of_plain (s := "false") (by decide)
      · exact commentless_of_plain (s := "true") (by decide)
    | number x =>
      show Commentless (Literal.number .script x).toList
      rcases Literal.kind_of_not_negative he with hx | hx | hx
      · rw [Literal.number_nan hx]
        exact commentless_of_notMem (by decide) (by decide)
      · rw [Literal.number_infinite hx]
        exact commentless_of_notMem (by decide) (by decide)
      · obtain ⟨v, hv⟩ := Literal.numeral_number hx
        exact commentless_numeral hv
    | string s => exact commentless_string .script s
    | entityId a =>
      show Commentless (datum (.entityId a)).toList
      rw [datum]
      split
      · exact commentless_of_notMem (by decide) (by decide)
      · exact commentless_entity _
    | object o => exact he.elim
  | member v =>
    intro _
    show Commentless ("self." ++ names.member v).toList
    rw [String.toList_append]
    exact (commentless_of_notMem (by decide) (by decide)).append
      (commentless_of_plain (ht.member v))
  | param i =>
    intro _
    exact commentless_of_plain (ht.plain_param i)
  | localVar i =>
    intro _
    exact commentless_of_plain (ht.plain_localVar i)
  | binary op l r ihl ihr =>
    intro he
    have hparts := hopening.append ((ihl he.1).append ((commentless_operator op).append
      ((ihr he.2).append hclosing)))
    rw [chars_binary]
    simpa using hparts
  | not e ih =>
    intro he
    have hword : Commentless "(not ".toList := commentless_of_notMem (by decide) (by decide)
    rw [chars_not]
    exact hword.append ((ih he).append hclosing)
  | negate e ih =>
    intro he
    have hminus : Commentless "(-".toList :=
      commentless_of_count (by decide) (by decide) (by decide)
    rw [chars_negate]
    exact hminus.append ((ih he).append hclosing)

end Comments

/-! ## The tables of a model -/

/-- There are indices of as many positions as this. -/
def indexCount : ℕ := 0x10000

/-- At most one of the positions that can be referred to has no entry. -/
def Covers (f : FunctionDef) (own : Names.Function) : Prop :=
  min f.params.length indexCount ≤ own.params.length + 1 ∧
    min f.locals.length indexCount ≤ own.locals.length + 1

instance (f : FunctionDef) (own : Names.Function) : Decidable (Covers f own) :=
  inferInstanceAs (Decidable (_ ∧ _))

/-- Positions are told apart as long as at most one has the placeholder. -/
theorem getD_inj_iff {xs : List String} {d : String} (hnd : xs.Nodup) (hd : d ∉ xs) (n : ℕ) :
    (∀ i j : UInt16, i.toNat < n → j.toNat < n →
      xs.getD i.toNat d = xs.getD j.toNat d → i = j) ↔ min n indexCount ≤ xs.length + 1 := by
  have hout : ∀ k, xs.length ≤ k → xs.getD k d = d := fun k hk => List.getD_eq_default _ _ hk
  have hin : ∀ {k l}, k < xs.length → xs.length ≤ l → xs.getD k d ≠ xs.getD l d :=
    fun {k l} hk hl heq => by
      rw [hout l hl, List.getD_eq_getElem _ _ hk] at heq
      exact hd (heq ▸ List.getElem_mem hk)
  constructor
  · intro h
    by_contra hlt
    obtain ⟨hn, hcount⟩ := lt_min_iff.mp (not_le.mp hlt)
    have hfirst : (UInt16.ofNat xs.length).toNat = xs.length :=
      UInt16.toNat_ofNat_of_lt' ((Nat.lt_succ_self _).trans hcount)
    have hsecond : (UInt16.ofNat (xs.length + 1)).toNat = xs.length + 1 :=
      UInt16.toNat_ofNat_of_lt' hcount
    have heq := h (UInt16.ofNat xs.length) (UInt16.ofNat (xs.length + 1)) (by omega) (by omega)
      (by rw [hfirst, hsecond, hout _ le_rfl, hout _ (Nat.le_succ _)])
    have htoNat := congrArg UInt16.toNat heq
    omega
  · intro hle i j hi hj h
    refine UInt16.toNat_inj.mp ?_
    have hi' : i.toNat < indexCount := i.toNat_lt
    have hj' : j.toNat < indexCount := j.toNat_lt
    rcases Nat.lt_or_ge i.toNat xs.length with hilt | hige <;>
      rcases Nat.lt_or_ge j.toNat xs.length with hjlt | hjge
    · rw [List.getD_eq_getElem _ _ hilt, List.getD_eq_getElem _ _ hjlt] at h
      exact (hnd.getElem_inj_iff).mp h
    · exact absurd h (hin hilt hjge)
    · exact absurd h.symm (hin hjlt hige)
    · have hil := (lt_min hi hi').trans_le hle
      have hjl := (lt_min hj hj').trans_le hle
      omega

/-- **Variables that are stored under their own identifiers are told apart by their names.** -/
theorem member_inj {m : Model} (hk : ∀ e ∈ m.variableEntries, e.2.id = e.1) {v w : VariableId}
    (hv : (m.variableAt? v).isSome) (hw : (m.variableAt? w).isSome)
    (h : (Names.ofModel m).member v = (Names.ofModel m).member w) : v = w := by
  have hentry : ∀ {v : VariableId}, (m.variableAt? v).isSome →
      (v, (Names.ofModel m).member v) ∈ (Names.ofModel m).members := fun {v} hv => by
    obtain ⟨d, hd⟩ := Option.isSome_iff_exists.mp hv
    have hmem : v ∈ m.members.map (·.id) :=
      List.mem_map.mpr ⟨d, List.mem_map.mpr ⟨(v, d), Entries.mem_of_get? hd, rfl⟩,
        hk _ (Entries.mem_of_get? hd)⟩
    obtain ⟨s, hs⟩ := Option.isSome_iff_exists.mp (Names.isSome_member?.mpr hmem)
    rw [Names.member, hs]
    exact Names.mem_of_last? hs
  obtain ⟨ms, os, fs, hd⟩ := Names.exists_dealt m
  have hnd : ((Names.ofModel m).members.map (·.2)).Nodup := by
    rw [hd.map_snd_members]
    exact (List.nodup_append.mp (List.nodup_cons.mp hd.nodup).2).1
  exact congrArg Prod.fst (List.inj_on_of_nodup_map hnd (hentry hv) (hentry hw) h)

section Model

variable {m : Model} {f : FunctionDef} {own : Names.Function}
  (hown : (Names.ofModel m).function? f.id = some own)

include hown

/-- The identifiers of a model look as those of a table have to. -/
theorem table_of_function? : Table (Names.ofModel m) own := by
  obtain ⟨g, _, _, heq, _⟩ := Names.exists_of_function? hown
  obtain ⟨-, hparams, hlocals⟩ := Names.plain_of_function? hown
  refine ⟨Names.plain_member m, fun p hp => ⟨hparams p hp, ?_⟩, fun l hl => ⟨hlocals l hl, ?_⟩⟩
  · rw [heq] at hp
    exact Names.exists_of_mem_params hp
  · rw [heq] at hl
    exact Names.exists_of_mem_locals hl

/-- References are told apart exactly if at most one position has no identifier. -/
theorem tells_iff (hk : ∀ e ∈ m.variableEntries, e.2.id = e.1) :
    Tells (Names.ofModel m) own m f ↔ Covers f own := by
  have ht := table_of_function? hown
  obtain ⟨g, _, _, heq, _⟩ := Names.exists_of_function? hown
  have hinner : own.inner.Nodup := by
    rw [heq, Names.inner_ofFunction]
    exact (Names.nodup_reserveAll [] _).1
  have hparams := (List.nodup_append.mp hinner).1
  have hlocals := (List.nodup_append.mp hinner).2.1
  have hnil : "nil" ∉ own.params := fun hm => by
    obtain ⟨-, r, hr⟩ := ht.params _ hm
    have hhead : "nil".toList.head? = some 'p' := hr ▸ Names.head?_mark_append rfl r
    exact absurd hhead (by decide)
  have hunderscore : "_" ∉ own.locals := fun hm => by
    obtain ⟨-, r, hr⟩ := ht.locals _ hm
    have hhead : "_".toList.head? = some 'l' := hr ▸ Names.head?_mark_append rfl r
    exact absurd hhead (by decide)
  rw [Covers, ← getD_inj_iff hparams hnil, ← getD_inj_iff hlocals hunderscore]
  exact ⟨fun h => ⟨h.param, h.localVar⟩, fun h => ⟨fun _ _ => member_inj hk, h.1, h.2⟩⟩

end Model

/-- **Expressions can be read in one way only, exactly if the table of identifiers covers what they
refer to.**  Then two valid expressions are written alike only if they are the same up to the sign
of number literals.  A function has such a table where no other function carries its identifier.
Two dashes are inside of string literals in any case. -/
theorem expr_readable_iff {m : Model} (hk : ∀ e ∈ m.variableEntries, e.2.id = e.1)
    {f : FunctionDef} (hf : f ∈ m.functions) :
    ∃ own, (Names.ofModel m).function? f.id = some own ∧
      ((∀ e e' : Expr, e.ValidIn m f → e'.ValidIn m f →
        (expr (Names.ofModel m) own e = expr (Names.ofModel m) own e' ↔
          e.unsigned = e'.unsigned)) ↔ Covers f own) ∧
      ((m.functions.map (·.id)).Nodup → Covers f own) ∧
      ∀ e : Expr, e.ValidIn m f → DashesQuoted (expr (Names.ofModel m) own e).toList := by
  obtain ⟨own, hown⟩ := Option.isSome_iff_exists.mp
    (Names.isSome_function?.mpr (List.mem_map_of_mem (f := (·.id)) hf))
  have ht := table_of_function? hown
  refine ⟨own, hown, ?_, fun hnd => ?_, fun e he => ?_⟩
  · rw [← tells_iff hown hk]
    refine ⟨fun h => ?_, fun htells e e' he he' => ⟨fun htext => ?_, fun heq => ?_⟩⟩
    · refine ⟨fun _ _ => member_inj hk, fun i j hi hj htext => ?_, fun i j hi hj htext => ?_⟩
      · exact Expr.param.inj
          ((h _ _ (Expr.validIn_param hi) (Expr.validIn_param hj)).mp htext)
      · exact Expr.localVar.inj
          ((h _ _ (Expr.validIn_localVar hi) (Expr.validIn_localVar hj)).mp htext)
    · rw [← expr_unsigned, ← expr_unsigned _ _ e'] at htext
      have hchars : chars (Names.ofModel m) own e.unsigned ++ [] =
          chars (Names.ofModel m) own e'.unsigned ++ [] := by rw [chars, htext, chars]
      exact (expr_append_inj ht htells _ _ (Expr.signless_unsigned he) (Expr.signless_unsigned he')
        ends_nil ends_nil hchars).1
    · rw [← expr_unsigned, heq, expr_unsigned]
  · obtain ⟨own', hown', heq, -⟩ := Names.function?_id hnd hf
    obtain rfl : own' = own := Option.some.inj (hown'.symm.trans hown)
    rw [Covers, heq, Names.length_params_ofFunction, Names.length_locals_ofFunction]
    omega
  · rw [← expr_unsigned]
    exact (commentless_chars ht (Expr.signless_unsigned he)).quoted

/-- The door's entry tells its expressions apart. -/
theorem door_expr_readable : (∀ e ∈ Model.door.variableEntries, e.2.id = e.1) ∧
    ∃ f ∈ Model.door.functions, f.name = "Open" ∧
      ∃ own, (Names.ofModel Model.door).function? f.id = some own ∧
        ∀ e e' : Expr, e.ValidIn Model.door f → e'.ValidIn Model.door f →
          (expr (Names.ofModel Model.door) own e = expr (Names.ofModel Model.door) own e' ↔
            e.unsigned = e'.unsigned) := by
  refine ⟨by decide, _, List.mem_cons_self, rfl, ?_⟩
  obtain ⟨own, hown, hiff, hcovers, -⟩ :=
    expr_readable_iff (m := Model.door) (by decide) List.mem_cons_self
  exact ⟨own, hown, hiff.mpr (hcovers (by decide))⟩

/-- Two entries that carry one identifier: what stands under it is the table of the second. -/
def twins : Model where
  name := "M"
  variableEntries := []
  functionEntries := [
    (⟨0⟩, {
      id := ⟨0⟩, name := "A", kind := .entry, params := [⟨"x", .number⟩, ⟨"y", .number⟩]
      returns := [], origin := ⟨900⟩
      body := [.mk ⟨1⟩ none (.log (.param 0)), .mk ⟨2⟩ none (.log (.param 1))] }),
    (⟨1⟩, {
      id := ⟨0⟩, name := "B", kind := .entry, params := [], returns := [], origin := ⟨901⟩
      body := [] })]
  outEvents := []

example : twins.isValid = true ∧
    ((Names.ofModel twins).function? ⟨0⟩).map (fun own =>
      (expr (Names.ofModel twins) own (.param 0), expr (Names.ofModel twins) own (.param 1))) =
        some ("nil", "nil") := by
  decide +kernel

end Emit.Script

end GraphScript
