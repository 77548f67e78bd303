import GraphScript.Proofs.Decimal.Layout

/-!
# Proofs/Emit/Quoted — dashes inside and outside of string literals

Two dashes open a comment unless they stand inside a string literal.  `quoteAfter` follows the
quotes of a text.  A text is `Commentless` if its literals are closed, its double dashes are inside
them and it does not begin with a dash: such texts can be joined (`Commentless.append`).  Numerals
and string literals are like that (`commentless_numeral`, `commentless_string`).
-/

namespace GraphScript.Emit

open Decimal

/-! ## Quotes -/

/-- Where the end of a text is: outside of string literals, inside of one, or after a backslash in
one. -/
inductive Quote where
  | outside
  | inside
  | escape
  deriving DecidableEq, Repr

/-- Where the text is after one more character. -/
def Quote.next : Quote → Char → Quote
  | .outside, c => if c = '"' then .inside else .outside
  | .inside, c => if c = '"' then .outside else if c = '\\' then .escape else .inside
  | .escape, _ => .inside

/-- Where the end of a text is that begins outside of literals. -/
def quoteAfter (cs : List Char) : Quote := cs.foldl Quote.next .outside

/-- Behind a closed quote the text goes on outside. -/
theorem quoteAfter_append {cs : List Char} (h : quoteAfter cs = .outside) (ds : List Char) :
    quoteAfter (cs ++ ds) = quoteAfter ds := by
  rw [quoteAfter, List.foldl_append]
  exact congrArg (ds.foldl Quote.next) h

/-- A text without a quote is outside all the way. -/
theorem quoteAfter_of_notMem : ∀ {cs : List Char}, '"' ∉ cs → quoteAfter cs = .outside
  | [], _ => rfl
  | c :: r, h => by
      obtain ⟨hc, hr⟩ := not_or.mp (mt List.mem_cons.mpr h)
      have hnext : Quote.next .outside c = .outside := if_neg (Ne.symm hc)
      rw [quoteAfter, List.foldl_cons, hnext]
      exact quoteAfter_of_notMem hr

/-- Two dashes stand inside of string literals only. -/
def DashesQuoted (cs : List Char) : Prop :=
  ∀ before after, cs = before ++ '-' :: '-' :: after → quoteAfter before ≠ .outside

/-! ## Texts without comments -/

/-- A text that opens no comment, also after another. -/
structure Commentless (cs : List Char) : Prop where
  closed : quoteAfter cs = .outside
  quoted : DashesQuoted cs
  head : cs.head? ≠ some '-'

/-- Two texts without a comment make one, if the first leaves no quote open. -/
theorem Commentless.append {cs ds : List Char} (hcs : Commentless cs) (hds : Commentless ds) :
    Commentless (cs ++ ds) := by
  have hhead : ∀ after, ds ≠ '-' :: after := fun after h => hds.head (by rw [h]; rfl)
  refine ⟨by rw [quoteAfter_append hcs.closed, hds.closed], fun before after h => ?_, ?_⟩
  · rcases List.append_eq_append_iff.mp h with ⟨mid, rfl, hmid⟩ | ⟨mid, hmid, hrest⟩
    · rw [quoteAfter_append hcs.closed]
      exact hds.quoted mid after hmid
    · -- both dashes are in `cs`: otherwise one of them begins `ds`
      rcases mid with _ | ⟨c, _ | ⟨d, mid⟩⟩
      · exact absurd hrest.symm (hhead _)
      · exact absurd (List.cons.inj hrest).2.symm (hhead _)
      · obtain ⟨rfl, hrest'⟩ := List.cons.inj hrest
        obtain ⟨rfl, -⟩ := List.cons.inj hrest'
        exact hcs.quoted before mid hmid
  · cases cs with
    | nil => exact hds.head
    | cons c r => exact hcs.head

/-- A text without quotes and double dashes. -/
theorem commentless_of_count {cs : List Char} (hquote : '"' ∉ cs) (hcount : cs.count '-' ≤ 1)
    (hhead : cs.head? ≠ some '-') : Commentless cs := by
  refine ⟨quoteAfter_of_notMem hquote, fun before after h => ?_, hhead⟩
  rw [h, List.count_append, List.count_cons_self, List.count_cons_self] at hcount
  omega

/-- A text without dashes whose literals are closed. -/
theorem commentless_of_closed {cs : List Char} (hclosed : quoteAfter cs = .outside)
    (hdash : '-' ∉ cs) : Commentless cs := by
  refine ⟨hclosed, fun before after h => ?_, fun h => hdash (List.mem_of_head? h)⟩
  exact absurd (h ▸ List.mem_append_right before List.mem_cons_self) hdash

/-- Without a dash there is no comment. -/
theorem commentless_of_notMem {cs : List Char} (hquote : '"' ∉ cs) (hdash : '-' ∉ cs) :
    Commentless cs := commentless_of_closed (quoteAfter_of_notMem hquote) hdash

/-! ## Numerals -/

theorem commentless_digits {ds : List Char} (h : Digits ds) : Commentless ds :=
  commentless_of_notMem (h.notMem (by decide)) (h.notMem (by decide))

/-- Significands contain none. -/
theorem commentless_significand {cs ds : List Char} {n : ℕ} (h : Significand cs ds n) :
    Commentless cs :=
  commentless_of_notMem (h.notMem (by decide) (by decide)) (h.notMem (by decide) (by decide))

/-- **A numeral opens no comment**: its one dash follows the exponent mark. -/
theorem commentless_numeral {cs : List Char} {v : ℚ} (h : Numeral cs v) : Commentless cs := by
  cases h with
  | plain h => exact commentless_significand h
  | @exponent cs ds sign es n h hsign hes =>
    have hmark : Commentless ('e' :: sign) := by
      simp only [List.mem_cons, List.not_mem_nil, or_false] at hsign
      rcases hsign with rfl | rfl | rfl
      all_goals exact commentless_of_count (by decide) (by decide) (by decide)
    have htext : cs ++ 'e' :: (sign ++ es) = cs ++ (('e' :: sign) ++ es) := rfl
    rw [htext]
    exact (commentless_significand h).append (hmark.append (commentless_digits hes))

/-! ## String literals -/

/-- A text that stays inside a literal, at each of its characters. -/
structure Enclosed (cs : List Char) : Prop where
  within : ∀ before after, cs = before ++ after → before.foldl Quote.next .inside ≠ .outside
  closed : cs.foldl Quote.next .inside = .inside

/-- A character that changes nothing inside a literal. -/
def Silent (c : Char) : Prop := c ≠ '"' ∧ c ≠ '\\'

theorem silent_of_isDigit {c : Char} (h : c.isDigit = true) : Silent c := by
  refine ⟨fun hc => ?_, fun hc => ?_⟩
  · rw [hc] at h
    cases h
  · rw [hc] at h
    cases h

/-- Characters that do nothing inside a quote leave it open. -/
theorem foldl_silent : ∀ {cs : List Char}, (∀ c ∈ cs, Silent c) →
    cs.foldl Quote.next .inside = .inside
  | [], _ => rfl
  | c :: r, h => by
      obtain ⟨hc, hr⟩ := List.forall_mem_cons.mp h
      have hnext : Quote.next .inside c = .inside := (if_neg hc.1).trans (if_neg hc.2)
      rw [List.foldl_cons, hnext]
      exact foldl_silent hr

theorem enclosed_silent {cs : List Char} (h : ∀ c ∈ cs, Silent c) : Enclosed cs := by
  refine ⟨fun before after hcs => ?_, foldl_silent h⟩
  rw [hcs] at h
  rw [foldl_silent (List.forall_mem_append.mp h).1]
  exact Quote.noConfusion

/-- After a backslash any character may stand. -/
theorem enclosed_escape (c : Char) {cs : List Char} (h : ∀ d ∈ cs, Silent d) :
    Enclosed ('\\' :: c :: cs) := by
  have hsilent := enclosed_silent h
  refine ⟨fun before after hcs => ?_, hsilent.closed⟩
  rcases before with _ | ⟨x, _ | ⟨y, before⟩⟩
  · exact Quote.noConfusion
  · obtain ⟨rfl, -⟩ := List.cons.inj hcs
    exact Quote.noConfusion
  · obtain ⟨rfl, hrest⟩ := List.cons.inj hcs
    exact hsilent.within before after (List.cons.inj hrest).2

/-- Escaped characters stay inside the quote. -/
theorem enclosed_escaped (dialect : Dialect) (c : Char) : Enclosed (Literal.escaped dialect c) := by
  have hpair : ∀ d : Char, Enclosed ['\\', d] := fun d => enclosed_escape d (List.forall_mem_nil _)
  have hbase : 0 < Literal.escapeBase dialect ∧ Literal.escapeBase dialect ≤ 10 := by
    cases dialect <;> decide
  have hdigit : ∀ n, Silent (Nat.digitChar (n % Literal.escapeBase dialect)) := fun n => by
    have hlt := Nat.mod_lt n hbase.1
    refine silent_of_isDigit ?_
    rw [Nat.isDigit_digitChar, decide_eq_true_eq]
    omega
  unfold Literal.escaped
  split
  · exact hpair _
  split
  · exact hpair _
  split
  · exact hpair _
  split
  · exact hpair _
  split
  · exact hpair _
  split
  · exact enclosed_escape _
      (List.forall_mem_cons.mpr ⟨hdigit _, List.forall_mem_singleton.mpr (hdigit _)⟩)
  · exact enclosed_silent (List.forall_mem_singleton.mpr ⟨‹_›, ‹_›⟩)

theorem Enclosed.append {cs ds : List Char} (hcs : Enclosed cs) (hds : Enclosed ds) :
    Enclosed (cs ++ ds) := by
  refine ⟨fun before after h => ?_, by rw [List.foldl_append, hcs.closed, hds.closed]⟩
  rcases List.append_eq_append_iff.mp h with ⟨mid, rfl, hmid⟩ | ⟨mid, hmid, -⟩
  · rw [List.foldl_append, hcs.closed]
    exact hds.within mid after hmid
  · exact hcs.within before mid hmid

/-- Escaped texts stay inside the quote. -/
theorem enclosed_flatMap (dialect : Dialect) : ∀ cs : List Char,
    Enclosed (cs.flatMap (Literal.escaped dialect))
  | [] => enclosed_silent (List.forall_mem_nil _)
  | c :: r => (enclosed_escaped dialect c).append (enclosed_flatMap dialect r)

/-- **A string literal opens no comment**, whatever is in it. -/
theorem commentless_string (dialect : Dialect) (s : String) :
    Commentless (Literal.string dialect s).toList := by
  have hbody := enclosed_flatMap dialect s.toList
  rw [Literal.toList_string]
  refine ⟨?_, fun before after h => ?_, by simp⟩
  · rw [quoteAfter, List.foldl_cons, List.foldl_append]
    show ['"'].foldl Quote.next (List.foldl Quote.next .inside _) = _
    rw [hbody.closed]
    rfl
  · rcases before with _ | ⟨q, before⟩
    · cases (List.cons.inj h).1
    · obtain ⟨rfl, hrest⟩ := List.cons.inj h
      rcases List.append_eq_append_iff.mp hrest with ⟨mid, -, hmid⟩ | ⟨mid, hmid, -⟩
      · have hdash : '-' ∈ ['"'] := hmid ▸ List.mem_append_right mid List.mem_cons_self
        cases List.mem_singleton.mp hdash
      · exact hbody.within before mid hmid

end GraphScript.Emit
