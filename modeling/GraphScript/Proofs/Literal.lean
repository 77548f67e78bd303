import GraphScript.Literal
import GraphScript.Proofs.Text.OneLine

/-!
# Proofs/Literal — what literals are made of

A decimal is made of digits, points, exponent marks and signs (`marks_decimal`), whatever the
format.  Number and string literals stand on one line, whatever they hold (`oneLine_number`,
`oneLine_string`).  `read?` says what a string literal denotes and where it ends: what was written
for a string denotes that string, whatever follows (`read?_string`).
-/

namespace GraphScript

namespace Decimal

/-! ## Digits -/

/-- Stripping zeros adds no character. -/
theorem mem_stripZeros {c : Char} : ∀ {ds : List Char}, c ∈ stripZeros ds → c ∈ ds
  | [], h => h
  | d :: r, h => by
      rcases List.mem_cons.mp h with rfl | h
      · exact List.mem_cons_self
      · exact List.mem_cons_of_mem _
          (List.mem_reverse.mp ((List.dropWhile_sublist _).subset (List.mem_reverse.mp h)))

/-- Only digits stand in the significand. -/
def Scientific.Proper (s : Scientific) : Prop := ∀ c ∈ s.digits, c.isDigit = true

/-- Decimals on a grid have digits only. -/
theorem Scientific.proper_ofGrid (coefficient : Nat) (grid : Int) :
    (Scientific.ofGrid coefficient grid).Proper := fun _ hc =>
  Nat.isDigit_of_mem_toDigits (by decide) (by decide) (mem_stripZeros hc)

theorem Scientific.proper_zero : Scientific.zero.Proper := fun c hc => by
  rw [List.mem_singleton.mp hc]
  decide

theorem Binary.proper_search (tie : Tie) (b : Binary) (leading : Int) :
    ∀ fuel count, (b.search tie leading fuel count).Proper
  | 0, _ => Scientific.proper_ofGrid _ _
  | fuel + 1, count => by
      rw [search]
      split
      · exact Scientific.proper_ofGrid _ _
      · exact proper_search tie b leading fuel (count + 1)

namespace Layout

/-- The digits that a layout asks for are digits. -/
theorem proper_digitsOf (l : Layout) (b : Binary) : (l.digitsOf b).Proper := by
  unfold digitsOf
  split
  · exact Binary.proper_search _ _ _ _ _
  · exact Scientific.proper_ofGrid _ _

/-! ## The text of a decimal -/

/-- Digits, points, exponent marks and signs. -/
def Marks (cs : List Char) : Prop := ∀ c ∈ cs, c.isDigit = true ∨ c ∈ ['.', 'e', '-', '+']

instance (cs : List Char) : Decidable (Marks cs) := List.decidableBAll _ cs

theorem marks_append {cs ds : List Char} : Marks (cs ++ ds) ↔ Marks cs ∧ Marks ds :=
  List.forall_mem_append

theorem marks_cons {c : Char} {cs : List Char} : Marks (c :: cs) ↔ Marks [c] ∧ Marks cs :=
  (marks_append : Marks ([c] ++ cs) ↔ Marks [c] ∧ Marks cs)

theorem marks_zeros (n : Nat) : Marks (List.replicate n '0') := fun c hc => by
  rw [(List.mem_replicate.mp hc).2]
  decide

theorem marks_digits {s : Scientific} (hs : s.Proper) : Marks s.digits := fun c hc =>
  Or.inl (hs c hc)

/-- A decimal written in full has only the marks of a number. -/
theorem marks_positional (l : Layout) {s : Scientific} (hs : s.Proper) :
    Marks (l.positional s) := by
  have hwhole : ∀ n, Marks (s.digits.take n ++ List.replicate (n - s.digits.length) '0') := fun n =>
    marks_append.mpr ⟨fun c hc => marks_digits hs c (List.mem_of_mem_take hc), marks_zeros _⟩
  unfold positional
  by_cases hneg : s.exponent < 0
  · rw [if_pos hneg]
    exact marks_append.mpr ⟨marks_append.mpr ⟨by decide, marks_zeros _⟩, marks_digits hs⟩
  · rw [if_neg hneg]
    dsimp only
    split
    · split
      · exact marks_append.mpr ⟨hwhole _, by decide⟩
      · exact hwhole _
    · have hfraction : Marks (s.digits.drop (s.exponent.toNat + 1)) := fun c hc =>
        marks_digits hs c (List.mem_of_mem_drop hc)
      have hpoint : Marks ['.'] := by decide
      exact marks_append.mpr ⟨hwhole _, marks_cons.mpr ⟨hpoint, hfraction⟩⟩

theorem marks_withExponent (l : Layout) {s : Scientific} (hs : s.Proper) :
    Marks (l.withExponent s) := by
  have hd := marks_digits hs
  have hsign : Marks (if s.exponent < 0 then ['-'] else if l.plusSign then ['+'] else []) := by
    split
    · decide
    · split
      · decide
      · decide
  have hexponent : Marks (Nat.toDigits 10 s.exponent.natAbs) := fun c hc =>
    Or.inl (Nat.isDigit_of_mem_toDigits (by decide) (by decide) hc)
  refine marks_append.mpr ⟨marks_append.mpr ⟨marks_append.mpr ⟨?_,
    marks_cons.mpr ⟨by decide, hsign⟩⟩, marks_zeros _⟩, hexponent⟩
  split
  · exact List.forall_mem_nil _
  · rename_i h
    exact h ▸ hd
  · rename_i h
    rw [h] at hd
    obtain ⟨hfirst, hrest⟩ := marks_cons.mp hd
    exact marks_cons.mpr ⟨hfirst, marks_cons.mpr ⟨by decide, hrest⟩⟩

/-- **A decimal is made of digits, points, exponent marks and signs.** -/
theorem marks_decimal (l : Layout) {s : Scientific} (hs : s.Proper) : Marks (l.decimal s) := by
  unfold decimal
  split
  · exact marks_positional l hs
  · exact marks_withExponent l hs

/-- Numbers break no line. -/
theorem Marks.lineFeed_notMem {cs : List Char} (h : Marks cs) : '\n' ∉ cs := fun hm =>
  absurd (h _ hm) (by decide)

theorem lineFeed_notMem_signed {negative : Bool} {cs : List Char} (h : '\n' ∉ cs) :
    '\n' ∉ signed negative cs := by
  unfold signed
  split
  · exact fun hm => (List.mem_cons.mp hm).elim (by decide) h
  · exact h

/-- A number stands on one line where the words for what is no number do. -/
theorem oneLine_write {l : Layout} (hnan : Text.OneLine l.nan) (hinf : Text.OneLine l.infinity)
    (x : Float) : Text.OneLine (l.write x) := by
  unfold write
  split
  · exact hnan
  · exact Text.oneLine_ofList.mpr (lineFeed_notMem_signed hinf)
  · exact Text.oneLine_ofList.mpr
      (lineFeed_notMem_signed (marks_decimal l Scientific.proper_zero).lineFeed_notMem)
  · exact Text.oneLine_ofList.mpr
      (lineFeed_notMem_signed (marks_decimal l (proper_digitsOf l _)).lineFeed_notMem)

end Layout

end Decimal

namespace Literal

/-! ## Literals -/

/-- **A number literal stands on one line.** -/
theorem oneLine_number (dialect : Dialect) (x : Float) : Text.OneLine (number dialect x) := by
  have hwrite : Text.OneLine (layout.write x) :=
    Decimal.Layout.oneLine_write (by decide) (by decide) x
  have hnan : Text.OneLine (nan dialect) := by cases dialect <;> decide
  have hinf : Text.OneLine (infinity dialect) := by cases dialect <;> decide
  have hparens : ∀ {s : String}, Text.OneLine s → Text.OneLine s!"({s})" := fun hs =>
    Text.oneLine_append.mpr ⟨Text.oneLine_append.mpr ⟨by decide, hs⟩, by decide⟩
  unfold number
  split
  · exact hnan
  · exact hinf
  · exact Text.oneLine_append.mpr ⟨Text.oneLine_append.mpr ⟨by decide, hinf⟩, by decide⟩
  · exact hwrite
  · exact hwrite
  · exact hparens hwrite
  · exact hparens hwrite

/-- No control character. -/
def Printable (c : Char) : Prop := 0x20 ≤ c.toNat ∧ c.toNat ≠ 0x7f

instance (c : Char) : Decidable (Printable c) :=
  inferInstanceAs (Decidable (0x20 ≤ c.toNat ∧ c.toNat ≠ 0x7f))

/-- Escapes can be printed. -/
theorem printable_threeDigits (dialect : Dialect) : ∀ n < 128,
    ∀ d ∈ threeDigits (escapeBase dialect) n, Printable d := by
  have hall : (List.range 128).all (fun n =>
      (threeDigits (escapeBase dialect) n).all fun d => decide (Printable d)) = true := by
    cases dialect
    · decide
    · decide
  intro n hn d hd
  have hn' := List.all_eq_true.mp hall n (List.mem_range.mpr hn)
  exact of_decide_eq_true (List.all_eq_true.mp hn' d hd)

/-- **An escaped character is written in printable ones.** -/
theorem printable_escaped (dialect : Dialect) (c : Char) :
    ∀ d ∈ escaped dialect c, Printable d := by
  have hslash : Printable '\\' := by decide
  have hpair : ∀ {d : Char}, Printable d → ∀ x ∈ ['\\', d], Printable x := fun hd =>
    List.forall_mem_cons.mpr ⟨hslash, List.forall_mem_singleton.mpr hd⟩
  unfold escaped
  split
  · exact hpair (by decide)
  split
  · exact hpair (by decide)
  split
  · exact hpair (by decide)
  split
  · exact hpair (by decide)
  split
  · exact hpair (by decide)
  split
  · exact List.forall_mem_cons.mpr ⟨hslash, printable_threeDigits dialect _ (by omega)⟩
  · exact List.forall_mem_singleton.mpr ⟨by omega, by omega⟩

/-- A literal is its text, escaped and in quotes. -/
theorem toList_string (dialect : Dialect) (s : String) : (string dialect s).toList =
    '"' :: (s.toList.flatMap (escaped dialect) ++ ['"']) := by
  rw [string, String.toList_ofList, stringChars, List.cons_append]

/-- **A string literal is made of printable characters**, whatever the string holds. -/
theorem printable_string (dialect : Dialect) (s : String) :
    ∀ c ∈ (string dialect s).toList, Printable c := by
  rw [toList_string]
  refine List.forall_mem_cons.mpr ⟨by decide, List.forall_mem_append.mpr ⟨fun d hd => ?_,
    List.forall_mem_singleton.mpr (by decide)⟩⟩
  obtain ⟨c, _, hc⟩ := List.mem_flatMap.mp hd
  exact printable_escaped dialect c d hc

/-- **String literals break no line.** -/
theorem oneLine_string (dialect : Dialect) (s : String) : Text.OneLine (string dialect s) :=
  fun hm => absurd (printable_string dialect s _ hm) (by decide)

/-! ## What a string literal denotes -/

/-- What a letter or mark after a backslash stands for. -/
def letter? (c : Char) : Option Char :=
  match c with
  | '\\' => some '\\'
  | '"' => some '"'
  | 'n' => some '\n'
  | 'r' => some '\r'
  | 't' => some '\t'
  | _ => none

/-- A digit of a base up to ten. -/
def isDigitOf (base : Nat) (c : Char) : Bool := c.isDigit && decide (c.toNat - 48 < base)

/-- What an escape stands for, given what follows its backslash, and how many characters it takes:
a letter, or up to three digits of the base.  A number from 128 on is a byte and no character. -/
def escape? (base : Nat) (cs : List Char) : Option (Char × Nat) :=
  match cs.head?.bind letter? with
  | some c => some (c, 1)
  | none =>
    let ds := (cs.take 3).takeWhile (isDigitOf base)
    let n := Nat.ofDigitChars base ds 0
    if ds = [] ∨ 128 ≤ n then none else some (Char.ofNat n, ds.length)

/-- Reads up to the closing quote, below the first `taken` characters, which belong to an escape.
There is no closing quote behind a line break or the end of the text. -/
def body? (base : Nat) : Nat → List Char → Option (List Char × List Char)
  | _, [] => none
  | taken + 1, _ :: r => body? base taken r
  | 0, c :: r =>
    if c = '"' then some ([], r)
    else if c = '\n' ∨ c = '\r' then none
    else if c = '\\' then
      match escape? base r with
      | some (d, taken) => (body? base taken r).map fun e => (d :: e.1, e.2)
      | none => none
    else (body? base 0 r).map fun e => (c :: e.1, e.2)

/-- Reads the string literal at the front of a text: what it denotes, and what follows it. -/
def read? (dialect : Dialect) : List Char → Option (List Char × List Char)
  | '"' :: r => body? (escapeBase dialect) 0 r
  | _ => none

/-- What is skipped is not looked at. -/
theorem body?_append (base : Nat) (cs : List Char) : ∀ ds : List Char,
    body? base ds.length (ds ++ cs) = body? base 0 cs
  | [] => rfl
  | _ :: ds => body?_append base cs ds

/-- An escape stands for its character. -/
theorem body?_escape {base : Nat} {c : Char} (ds cs : List Char)
    (h : escape? base (ds ++ cs) = some (c, ds.length)) :
    body? base 0 ('\\' :: (ds ++ cs)) = (body? base 0 cs).map fun e => (c :: e.1, e.2) := by
  rw [body?, if_neg (by decide), if_neg (by decide), if_pos rfl]
  simp only [h, body?_append]

/-- Three digits begin with no letter, are digits of the base and make the number. -/
theorem threeDigits_closed (dialect : Dialect) {n : Nat} (hn : n < 128) :
    (threeDigits (escapeBase dialect) n).head?.bind letter? = none ∧
      (∀ d ∈ threeDigits (escapeBase dialect) n, isDigitOf (escapeBase dialect) d = true) ∧
      Nat.ofDigitChars (escapeBase dialect) (threeDigits (escapeBase dialect) n) 0 = n := by
  have hall : (List.range 128).all (fun n =>
      ((threeDigits (escapeBase dialect) n).head?.bind letter?).isNone &&
        ((threeDigits (escapeBase dialect) n).all (isDigitOf (escapeBase dialect)) &&
        Nat.ofDigitChars (escapeBase dialect) (threeDigits (escapeBase dialect) n) 0 == n)) =
      true := by
    cases dialect
    · decide
    · decide
  have hn' := List.all_eq_true.mp hall n (List.mem_range.mpr hn)
  rwa [Bool.and_eq_true, Bool.and_eq_true, Option.isNone_iff_eq_none, List.all_eq_true,
    beq_iff_eq] at hn'

/-- A numbered character is read off its three digits, whatever follows them. -/
theorem escape?_threeDigits (dialect : Dialect) {n : Nat} (hn : n < 128) (cs : List Char) :
    escape? (escapeBase dialect) (threeDigits (escapeBase dialect) n ++ cs) =
      some (Char.ofNat n, 3) := by
  obtain ⟨hletter, hdigits, hvalue⟩ := threeDigits_closed dialect hn
  have hlen : (threeDigits (escapeBase dialect) n).length = 3 := rfl
  have hhead : (threeDigits (escapeBase dialect) n ++ cs).head?.bind letter? = none := hletter
  have htake : ((threeDigits (escapeBase dialect) n ++ cs).take 3).takeWhile
      (isDigitOf (escapeBase dialect)) = threeDigits (escapeBase dialect) n := by
    have hall : (threeDigits (escapeBase dialect) n ++ []).takeWhile _ =
      threeDigits (escapeBase dialect) n ++ [] := List.takeWhile_append_of_pos hdigits
    rwa [List.append_nil] at hall
  simp only [escape?, hhead, htake, hvalue, hlen]
  rw [if_neg]
  exact not_or.mpr ⟨List.cons_ne_nil _ _, Nat.not_le.mpr hn⟩

/-- **A character of a string literal is read as itself**, whatever follows it. -/
theorem body?_escaped (dialect : Dialect) (c : Char) (cs : List Char) :
    body? (escapeBase dialect) 0 (escaped dialect c ++ cs) =
      (body? (escapeBase dialect) 0 cs).map fun e => (c :: e.1, e.2) := by
  have hletter : ∀ {d x : Char}, letter? d = some x → body? (escapeBase dialect) 0
      (['\\', d] ++ cs) = (body? (escapeBase dialect) 0 cs).map fun e => (x :: e.1, e.2) :=
    fun {d x} hd => body?_escape [d] cs (by simp [escape?, hd])
  unfold escaped
  split
  · rename_i h
    rw [h]
    exact hletter rfl
  split
  · rename_i h
    rw [h]
    exact hletter rfl
  split
  · rename_i h
    rw [h]
    exact hletter rfl
  split
  · rename_i h
    rw [h]
    exact hletter rfl
  split
  · rename_i h
    rw [h]
    exact hletter rfl
  split
  · rename_i h
    have hescape := escape?_threeDigits dialect (n := c.toNat) (by omega) cs
    rw [Char.ofNat_toNat] at hescape
    exact body?_escape (threeDigits _ _) cs hescape
  · rename_i hslash hquote hfeed hreturn _ _
    rw [List.singleton_append, body?, if_neg hquote, if_neg (by simp [hfeed, hreturn]),
      if_neg hslash]

/-- No character is left out. -/
theorem escaped_ne_nil (dialect : Dialect) (c : Char) : escaped dialect c ≠ [] := fun hnil => by
  have hread := body?_escaped dialect c ['"']
  rw [hnil] at hread
  exact absurd (congrArg (Option.map Prod.fst) hread) (by simp [body?])

/-- **What is read inside the quotes is the text.** -/
theorem body?_flatMap (dialect : Dialect) (t : List Char) : ∀ cs : List Char,
    body? (escapeBase dialect) 0 (cs.flatMap (escaped dialect) ++ '"' :: t) = some (cs, t)
  | [] => by rw [List.flatMap_nil, List.nil_append, body?, if_pos rfl]
  | c :: cs => by
      rw [List.flatMap_cons, List.append_assoc, body?_escaped, body?_flatMap dialect t cs]
      rfl

/-- **A string literal denotes its string**, and ends where it ends. -/
theorem read?_string (dialect : Dialect) (s : String) (t : List Char) :
    read? dialect ((string dialect s).toList ++ t) = some (s.toList, t) := by
  rw [toList_string, List.cons_append, List.append_assoc]
  exact body?_flatMap dialect t s.toList

/-- No literal goes on as another. -/
theorem toList_string_append_inj (dialect : Dialect) {s t : String} {x y : List Char}
    (h : (string dialect s).toList ++ x = (string dialect t).toList ++ y) : s = t ∧ x = y := by
  have hread := congrArg (read? dialect) h
  rw [read?_string, read?_string, Option.some.injEq, Prod.mk.injEq] at hread
  exact ⟨String.toList_inj.mp hread.1, hread.2⟩

/-- A literal is known from the text that begins with it. -/
theorem string_append_inj (dialect : Dialect) {s t x y : String}
    (h : string dialect s ++ x = string dialect t ++ y) : s = t ∧ x = y := by
  have hlist := congrArg String.toList h
  rw [String.toList_append, String.toList_append] at hlist
  obtain ⟨hst, hxy⟩ := toList_string_append_inj dialect hlist
  exact ⟨hst, String.toList_inj.mp hxy⟩

/-- A text is known by its literal. -/
theorem string_injective (dialect : Dialect) : Function.Injective (string dialect) := fun _ _ h =>
  (string_append_inj dialect (congrArg (· ++ "") h)).1

end Literal

end GraphScript
