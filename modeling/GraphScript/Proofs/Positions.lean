import GraphScript.Emit.Script
import GraphScript.Proofs.Names.Reserve
import GraphScript.Proofs.Sorted
import Mathlib

/-!
# Proofs/Positions — the first position that a message gives for a chunk

A message cites a line of a chunk where the name of the chunk stands by itself and is followed by a
line number (`Cites`).  The search for the first such place goes on behind every occurrence of the
name, so it passes over occurrences that overlap; since names are made of word characters, each of
those has a word character before it and cites nothing (`findLine?_eq_firstCited?`).

So a message resolves to the first line that it cites anywhere, with what is recorded for the
closest line up to it (`resolve?_first_cited`).
-/

namespace GraphScript.DebugMap

/-! ## Line numbers -/

/-- A line number between colons, in decimal digits, that fits in 32 bits. -/
structure Numbered (digits : List Char) (line : Nat) : Prop where
  ne_nil : digits ≠ []
  isDigit : ∀ d ∈ digits, d.isDigit = true
  value : Nat.ofDigitChars 10 digits 0 = line
  bound : line ≤ 4294967295

theorem foldl_digits (ds : List Char) (n : Nat) :
    ds.foldl (fun n d => n * 10 + (d.toNat - 48)) n = Nat.ofDigitChars 10 ds n := by
  induction ds generalizing n with
  | nil => rfl
  | cons d ds ih =>
    rw [List.foldl_cons, ih, Nat.ofDigitChars_cons, Nat.mul_comm]
    rfl

theorem lineNumber?_digits {digits : List Char} (hd : ∀ d ∈ digits, d.isDigit = true)
    (hne : digits ≠ []) (after : List Char) :
    lineNumber? (':' :: (digits ++ ':' :: after)) =
      if Nat.ofDigitChars 10 digits 0 < 0x100000000 then some (Nat.ofDigitChars 10 digits 0)
      else none := by
  have htake : (digits ++ ':' :: after).takeWhile Char.isDigit = digits := by
    rw [List.takeWhile_append_of_pos hd]
    simp
  have hdrop : (digits ++ ':' :: after).dropWhile Char.isDigit = ':' :: after := by
    rw [List.dropWhile_append_of_pos hd]
    simp
  cases digits with
  | nil => exact absurd rfl hne
  | cons d ds => simp only [lineNumber?, htake, hdrop, foldl_digits]

/-- A line number stands between colons. -/
theorem lineNumber?_eq_some_iff {cs : List Char} {line : Nat} :
    lineNumber? cs = some line ↔
      ∃ digits after, cs = ':' :: (digits ++ ':' :: after) ∧ Numbered digits line := by
  constructor
  · intro h
    unfold lineNumber? at h
    split at h
    · rename_i rest
      have hdigits : ∀ d ∈ rest.takeWhile Char.isDigit, d.isDigit = true :=
        fun d hd => List.all_eq_true.mp List.all_takeWhile d hd
      have hrest := List.takeWhile_append_dropWhile (p := Char.isDigit) (l := rest)
      dsimp only at h
      split at h
      · cases h
      · rename_i after hafter hne
        split at h
        · rename_i hbound
          rw [foldl_digits] at h hbound
          obtain rfl := Option.some.inj h
          refine ⟨_, after, ?_, hne, hdigits, rfl, Nat.le_of_lt_succ hbound⟩
          rw [← hafter, hrest]
        · cases h
      · cases h
    · cases h
  · rintro ⟨digits, after, rfl, h⟩
    rw [lineNumber?_digits h.isDigit h.ne_nil, h.value, if_pos (Nat.lt_succ_of_le h.bound)]

/-- What may stand between a name and its line number. -/
def IsClosing (cs : List Char) : Prop := cs = [] ∨ cs = ['"', ']']

theorem lineNumber?_dropClosing_eq_some_iff {cs : List Char} {line : Nat} :
    lineNumber? (dropClosing cs) = some line ↔ ∃ closing digits after,
      cs = closing ++ ':' :: (digits ++ ':' :: after) ∧ IsClosing closing ∧
        Numbered digits line := by
  rw [lineNumber?_eq_some_iff]
  constructor
  · rintro ⟨digits, after, hcs, h⟩
    unfold dropClosing at hcs
    split at hcs
    · exact ⟨['"', ']'], digits, after, by rw [hcs]; rfl, .inr rfl, h⟩
    · exact ⟨[], digits, after, hcs, .inl rfl, h⟩
  · rintro ⟨closing, digits, after, rfl, rfl | rfl, h⟩
    · exact ⟨digits, after, rfl, h⟩
    · exact ⟨digits, after, rfl, h⟩

/-! ## Citations -/

/-- A character after which a name does not stand by itself. -/
def IsJoining (c : Char) : Prop := Text.isAlphanumeric c = true ∨ c = '_' ∨ c = '.'

theorem isWordChar_iff {c : Char} : isWordChar c = true ↔ IsJoining c := by
  simp [isWordChar, IsJoining, or_assoc]

/-- **The text cites a line** of the chunk of that name, where so many characters stand before the
name: it stands by itself, and a line number follows. -/
def Cites (name text : List Char) (position line : Nat) : Prop :=
  ∃ before closing digits after,
    text = before ++ (name ++ (closing ++ ':' :: (digits ++ ':' :: after))) ∧
    before.length = position ∧ (∀ c ∈ before.getLast?, ¬ IsJoining c) ∧ IsClosing closing ∧
    Numbered digits line

/-- The line is the one that is cited first. -/
def CitesFirst (name text : List Char) (line : Nat) : Prop :=
  ∃ position, Cites name text position line ∧ ∀ q < position, ∀ l, ¬ Cites name text q l

/-- The line that is cited at the front of a text, where `before` is the character before it. -/
def citedLine? (name : List Char) (before : Option Char) (cs : List Char) : Option Nat :=
  if name.isPrefixOf cs then
    if before.any isWordChar then none else lineNumber? (dropClosing (cs.drop name.length))
  else none

theorem citedLine?_of_word {name : List Char} {c : Char} (hc : isWordChar c = true)
    (cs : List Char) : citedLine? name (some c) cs = none := by
  simp [citedLine?, hc]

/-- A chunk is cited by its name, a number, and nothing that joins it to a word before. -/
theorem citedLine?_eq_some_iff {name cs : List Char} {before : Option Char} {line : Nat} :
    citedLine? name before cs = some line ↔ ∃ closing digits after,
      cs = name ++ (closing ++ ':' :: (digits ++ ':' :: after)) ∧
        (∀ c ∈ before, ¬ IsJoining c) ∧ IsClosing closing ∧ Numbered digits line := by
  have hbefore : before.any isWordChar = true ↔ ¬ ∀ c ∈ before, ¬ IsJoining c := by
    simp [Option.any_eq_true, isWordChar_iff]
  constructor
  · intro h
    unfold citedLine? at h
    split at h
    · rename_i hname
      obtain ⟨rest, rfl⟩ := List.isPrefixOf_iff_prefix.mp hname
      split at h
      · cases h
      · rename_i hstands
        rw [List.drop_left] at h
        obtain ⟨closing, digits, after, rfl, hclosing, hnumber⟩ :=
          lineNumber?_dropClosing_eq_some_iff.mp h
        rw [hbefore, not_not] at hstands
        exact ⟨closing, digits, after, rfl, hstands, hclosing, hnumber⟩
    · cases h
  · rintro ⟨closing, digits, after, rfl, hstands, hclosing, hnumber⟩
    have hname : name.isPrefixOf (name ++ (closing ++ ':' :: (digits ++ ':' :: after))) = true :=
      List.isPrefixOf_iff_prefix.mpr (List.prefix_append _ _)
    rw [citedLine?, if_pos hname, if_neg (fun h => hbefore.mp h hstands), List.drop_left]
    exact lineNumber?_dropClosing_eq_some_iff.mpr
      ⟨closing, digits, after, rfl, hclosing, hnumber⟩

theorem cites_iff {name text : List Char} {position line : Nat} (hne : name ≠ []) :
    Cites name text position line ↔
      citedLine? name (text.take position).getLast? (text.drop position) = some line := by
  rw [citedLine?_eq_some_iff]
  constructor
  · rintro ⟨before, closing, digits, after, rfl, rfl, hstands, hclosing, hnumber⟩
    rw [List.take_left, List.drop_left]
    exact ⟨closing, digits, after, rfl, hstands, hclosing, hnumber⟩
  · rintro ⟨closing, digits, after, hdrop, hstands, hclosing, hnumber⟩
    have hposition : position ≤ text.length := by
      by_contra hlong
      rw [List.drop_of_length_le (by omega)] at hdrop
      exact hne (List.append_eq_nil_iff.mp hdrop.symm).1
    refine ⟨text.take position, closing, digits, after, ?_, ?_, hstands, hclosing, hnumber⟩
    · rw [← hdrop, List.take_append_drop]
    · rw [List.length_take, Nat.min_eq_left hposition]

/-! ## The first citation -/

/-- The first line that is cited in a text, tried at every place. -/
def firstCited? (name : List Char) : Option Char → List Char → Option Nat
  | _, [] => none
  | before, c :: r => (citedLine? name before (c :: r)).or (firstCited? name (some c) r)

/-- Nothing is cited inside a word or right behind it. -/
theorem firstCited?_append_word {name word : List Char} {c : Char}
    (h : ∀ d ∈ c :: word, isWordChar d = true) (rest : List Char) :
    firstCited? name (some c) (word ++ rest) =
      firstCited? name (c :: word).getLast? rest := by
  induction word generalizing c with
  | nil => rfl
  | cons d word ih =>
    obtain ⟨hc, hword⟩ := List.forall_mem_cons.mp h
    rw [List.cons_append, firstCited?, citedLine?_of_word hc, Option.none_or, ih hword,
      List.getLast?_cons_cons]

/-- **Passing over an occurrence misses nothing**: what overlaps it follows a word character. -/
theorem findLine?_eq_firstCited? {name : List Char} (hne : name ≠ [])
    (hword : ∀ c ∈ name, isWordChar c = true) {fuel : Nat} (before : Option Char) {cs : List Char}
    (h : cs.length < fuel) : findLine? name fuel before cs = firstCited? name before cs := by
  induction fuel generalizing before cs with
  | zero => exact absurd h (Nat.not_lt_zero _)
  | succ fuel ih =>
    cases cs with
    | nil => rfl
    | cons c r =>
      rw [findLine?, firstCited?]
      split
      · rename_i hname
        have hcited : citedLine? name before (c :: r) = if before.any isWordChar then none
            else lineNumber? (dropClosing ((c :: r).drop name.length)) := by
          rw [citedLine?, if_pos hname]
        dsimp only
        rw [← hcited]
        cases citedLine? name before (c :: r) with
        | some n => rfl
        | none =>
          -- The name is the next word, and the search goes on behind it.
          obtain ⟨rest, hrest⟩ := List.isPrefixOf_iff_prefix.mp hname
          cases name with
          | nil => exact absurd rfl hne
          | cons d word =>
            rw [List.cons_append] at hrest
            obtain ⟨rfl, rfl⟩ := List.cons.inj hrest
            have hshort : rest.length < fuel := by
              simp only [List.length_cons, List.length_append] at h
              omega
            rw [← List.cons_append, List.drop_left, ih _ hshort, Option.none_or,
              firstCited?_append_word hword]
      · rename_i hname
        have hcited : citedLine? name before (c :: r) = none := by rw [citedLine?, if_neg hname]
        rw [hcited, Option.none_or]
        exact ih _ (Nat.lt_of_succ_lt_succ h)

/-- A text cites its first line at some position before which it cites none. -/
theorem firstCited?_eq_some_iff {name : List Char} (hne : name ≠ []) {before : Option Char}
    {cs : List Char} {line : Nat} : firstCited? name before cs = some line ↔ ∃ p,
      citedLine? name ((cs.take p).getLast?.or before) (cs.drop p) = some line ∧
      ∀ q < p, citedLine? name ((cs.take q).getLast?.or before) (cs.drop q) = none := by
  induction cs generalizing before with
  | nil =>
    have hnone : ∀ b, citedLine? name b [] = none := fun b => by
      cases name with
      | nil => exact absurd rfl hne
      | cons d word => rfl
    simp [firstCited?, hnone]
  | cons c r ih =>
    have hlater : ∀ p, ((c :: r).take (p + 1)).getLast?.or before =
        (r.take p).getLast?.or (some c) := fun p => by
      rw [List.take_succ_cons, List.getLast?_cons]
      cases (r.take p).getLast? with
      | none => rfl
      | some d => rfl
    rw [firstCited?]
    cases hfront : citedLine? name before (c :: r) with
    | some n =>
      constructor
      · intro h
        exact ⟨0, hfront.trans h, fun q hq => absurd hq (Nat.not_lt_zero q)⟩
      · rintro ⟨p, hp, hearlier⟩
        cases p with
        | zero => exact hfront.symm.trans hp
        | succ p =>
          have hnone := hearlier 0 (Nat.succ_pos p)
          exact absurd (hfront.symm.trans hnone) (Option.some_ne_none n)
    | none =>
      rw [Option.none_or, ih]
      constructor
      · rintro ⟨p, hp, hearlier⟩
        refine ⟨p + 1, by rw [hlater]; exact hp, fun q hq => ?_⟩
        cases q with
        | zero => exact hfront
        | succ q =>
          rw [hlater]
          exact hearlier q (Nat.lt_of_succ_lt_succ hq)
      · rintro ⟨p, hp, hearlier⟩
        cases p with
        | zero => exact absurd (hfront.symm.trans hp) (Option.some_ne_none line).symm
        | succ p =>
          rw [hlater] at hp
          refine ⟨p, hp, fun q hq => ?_⟩
          rw [← hlater]
          exact hearlier (q + 1) (Nat.succ_lt_succ hq)

/-- **The first citation is found.** -/
theorem firstCited?_eq_some_iff_citesFirst {name : List Char} (hne : name ≠ []) {text : List Char}
    {line : Nat} : firstCited? name none text = some line ↔ CitesFirst name text line := by
  rw [firstCited?_eq_some_iff hne, CitesFirst]
  refine exists_congr fun p => ?_
  rw [cites_iff hne, Option.or_none]
  refine and_congr_right fun _ => forall₂_congr fun q _ => ?_
  rw [Option.or_none, Option.eq_none_iff_forall_ne_some]
  exact forall_congr' fun l => not_congr (cites_iff hne).symm

theorem Cites.exists_citesFirst {name text : List Char} {position line : Nat}
    (h : Cites name text position line) : ∃ first, CitesFirst name text first := by
  classical
  have hsome : ∃ p l, Cites name text p l := ⟨position, line, h⟩
  obtain ⟨first, hfirst⟩ := Nat.find_spec hsome
  exact ⟨first, Nat.find hsome, hfirst, fun q hq l hl => Nat.find_min hsome hq ⟨l, hl⟩⟩

/-- No citation is found exactly if there is none. -/
theorem firstCited?_eq_none_iff {name : List Char} (hne : name ≠ []) {text : List Char} :
    firstCited? name none text = none ↔ ∀ position line, ¬ Cites name text position line := by
  constructor
  · intro hnone position line hcites
    obtain ⟨first, hfirst⟩ := hcites.exists_citesFirst
    have hsome := (firstCited?_eq_some_iff_citesFirst hne).mpr hfirst
    exact absurd (hnone.symm.trans hsome) (Option.some_ne_none first).symm
  · intro hno
    refine Option.eq_none_iff_forall_ne_some.mpr fun line hsome => ?_
    obtain ⟨position, hcites, -⟩ := (firstCited?_eq_some_iff_citesFirst hne).mp hsome
    exact hno position line hcites

/-! ## Recorded lines -/

theorem sorted_record {m : DebugMap} (h : Entries.Sorted m.entries) (line : Nat) (s : DebugSymbol) :
    Entries.Sorted (m.record line s).entries := by
  unfold record
  split
  · exact h
  · exact h.insert line s

/-- The symbol is recorded for the closest line up to that one. -/
def Closest (m : DebugMap) (line : Nat) (s : DebugSymbol) : Prop :=
  ∃ recorded ≤ line, (recorded, s) ∈ m.entries ∧ ∀ e ∈ m.entries, e.1 ≤ line → e.1 ≤ recorded

/-- What is looked up is recorded for the closest line. -/
theorem closest_of_lookup? {m : DebugMap} (h : Entries.Sorted m.entries) {line : Nat}
    {s : DebugSymbol} (hs : m.lookup? line = some s) : m.Closest line s := by
  obtain ⟨⟨recorded, s⟩, hfind, rfl⟩ := Option.map_eq_some_iff.mp hs
  obtain ⟨hle, later, earlier, hsplit, hlater⟩ := List.find?_eq_some_iff_append.mp hfind
  rw [List.reverse_eq_iff, List.reverse_append, List.reverse_cons, List.append_assoc,
    List.singleton_append] at hsplit
  rw [hsplit, Entries.Sorted, List.pairwise_append] at h
  refine ⟨recorded, of_decide_eq_true hle, by simp [hsplit], fun e he hline => ?_⟩
  rw [hsplit, List.mem_append, List.mem_cons] at he
  rcases he with he | rfl | he
  · exact Nat.le_of_lt (h.2.2 e he _ List.mem_cons_self)
  · exact Nat.le_refl _
  · have hbeyond := hlater e (List.mem_reverse.mp he)
    simp [hline] at hbeyond

/-- There is one such line. -/
theorem Closest.unique {m : DebugMap} (h : Entries.Sorted m.entries) {line : Nat}
    {s s' : DebugSymbol} (hs : m.Closest line s) (hs' : m.Closest line s') : s = s' := by
  obtain ⟨recorded, hle, hmem, hgreatest⟩ := hs
  obtain ⟨recorded', hle', hmem', hgreatest'⟩ := hs'
  obtain rfl : recorded = recorded' :=
    Nat.le_antisymm (hgreatest' _ hmem hle) (hgreatest _ hmem' hle')
  exact congrArg Prod.snd (List.inj_on_of_nodup_map h.nodup hmem hmem' rfl)

/-- Nothing is found above the first line recorded. -/
theorem lookup?_eq_none_iff {m : DebugMap} {line : Nat} :
    m.lookup? line = none ↔ ∀ e ∈ m.entries, line < e.1 := by
  simp [lookup?]

/-- **What is found for a line is what is recorded for the closest line up to it.** -/
theorem lookup?_eq_some_iff {m : DebugMap} (h : Entries.Sorted m.entries) {line : Nat}
    {s : DebugSymbol} : m.lookup? line = some s ↔ m.Closest line s := by
  refine ⟨closest_of_lookup? h, fun hs => ?_⟩
  cases hlookup : m.lookup? line with
  | none =>
    obtain ⟨recorded, hle, hmem, -⟩ := hs
    exact absurd hle (Nat.not_le.mpr (lookup?_eq_none_iff.mp hlookup _ hmem))
  | some s' => rw [(closest_of_lookup? h hlookup).unique h hs]

/-! ## Messages -/

theorem isWordChar_of_mem_cleanName {name : String} {c : Char} (h : c ∈ (cleanName name).toList) :
    isWordChar c = true := by
  rcases Names.plain_cleanName name c h with halnum | rfl
  · have hascii : c.toNat < 0x80 := by
      simp only [Char.isAlphanum, Char.isAlpha, Char.isUpper, Char.isLower, Char.isDigit,
        Bool.or_eq_true, Bool.and_eq_true, decide_eq_true_eq, UInt32.le_iff_toNat_le] at halnum
      have hval : c.toNat = c.val.toNat := rfl
      simp at halnum
      omega
    simp [isWordChar, Text.isAlphanumeric, hascii, halnum]
  · decide

theorem cleanName_ne_nil (name : String) : (cleanName name).toList ≠ [] := by
  unfold cleanName
  split
  · decide
  · rename_i hname
    simpa [String.isEmpty_iff] using hname

/-- A chunk reports positions under its name. -/
theorem reportedName_chunkName (name : String) :
    reportedName (Emit.Script.chunkName name) = (cleanName name).toList := by
  have hmark : (Emit.Script.chunkName name).toList = '=' :: (cleanName name).toList := by
    rw [Emit.Script.chunkName, String.toList_append]
    rfl
  rw [reportedName, hmark, List.dropWhile_cons_of_pos (by decide)]
  cases hclean : (cleanName name).toList with
  | nil => rfl
  | cons c cs =>
    have hmem : c ∈ (cleanName name).toList := hclean ▸ List.mem_cons_self
    have hword := isWordChar_of_mem_cleanName hmem
    refine List.dropWhile_cons_of_neg fun hdropped => ?_
    rw [Bool.or_eq_true, beq_iff_eq, beq_iff_eq] at hdropped
    rcases hdropped with rfl | rfl
    · exact absurd hword (by decide)
    · exact absurd hword (by decide)

/-- An error of a chunk leads to the node recorded for its first citation. -/
theorem resolve?_chunkName (m : DebugMap) (name message : String) :
    m.resolve? (Emit.Script.chunkName name) message =
      (firstCited? (cleanName name).toList none message.toList).bind fun line =>
        (m.lookup? line).map fun s => (line, s) := by
  have hne := cleanName_ne_nil name
  have hfound := findLine?_eq_firstCited? hne (fun _ => isWordChar_of_mem_cleanName) none
    (Nat.lt_succ_self message.toList.length)
  rw [resolve?, reportedName_chunkName]
  dsimp only
  rw [if_neg (by simpa using hne), hfound]
  cases firstCited? (cleanName name).toList none message.toList with
  | none => rfl
  | some line => rfl

/-- **A message resolves to the first line that it cites**, counting every place where the name of
the chunk stands, also those that overlap, with the symbol that is recorded for the closest line up
to it.  It resolves to nothing if it cites no line, or only lines before all that are recorded. -/
theorem resolve?_first_cited (m : DebugMap) (h : Entries.Sorted m.entries)
    (name message : String) :
    (∀ line s, m.resolve? (Emit.Script.chunkName name) message = some (line, s) ↔
      CitesFirst (cleanName name).toList message.toList line ∧ m.Closest line s) ∧
    (m.resolve? (Emit.Script.chunkName name) message = none ↔
      (∀ position line, ¬ Cites (cleanName name).toList message.toList position line) ∨
      ∃ line, CitesFirst (cleanName name).toList message.toList line ∧
        ∀ e ∈ m.entries, line < e.1) := by
  have hne := cleanName_ne_nil name
  constructor
  · intro line s
    rw [resolve?_chunkName, Option.bind_eq_some_iff]
    constructor
    · rintro ⟨first, hfirst, hlookup⟩
      obtain ⟨s', hs', heq⟩ := Option.map_eq_some_iff.mp hlookup
      obtain ⟨rfl, rfl⟩ := Prod.mk.inj heq
      exact ⟨(firstCited?_eq_some_iff_citesFirst hne).mp hfirst, (lookup?_eq_some_iff h).mp hs'⟩
    · rintro ⟨hfirst, hclosest⟩
      refine ⟨line, (firstCited?_eq_some_iff_citesFirst hne).mpr hfirst, ?_⟩
      rw [(lookup?_eq_some_iff h).mpr hclosest]
      rfl
  · rw [resolve?_chunkName]
    cases hfirst : firstCited? (cleanName name).toList none message.toList with
    | none => exact iff_of_true rfl (.inl ((firstCited?_eq_none_iff hne).mp hfirst))
    | some line =>
      have hcites := (firstCited?_eq_some_iff_citesFirst hne).mp hfirst
      rw [Option.bind_some, Option.map_eq_none_iff, lookup?_eq_none_iff]
      constructor
      · intro hbefore
        exact .inr ⟨line, hcites, hbefore⟩
      · rintro (hno | ⟨line', hcites', hbefore⟩)
        · obtain ⟨position, hline, -⟩ := hcites
          exact absurd hline (hno position line)
        · have hline' := (firstCited?_eq_some_iff_citesFirst hne).mpr hcites'
          obtain rfl : line = line' := Option.some.inj (hfirst.symm.trans hline')
          exact hbefore

/-- Two recorded lines. -/
def echoMap : DebugMap :=
  (DebugMap.record {} 4 ⟨⟨10⟩, none, "Start"⟩).record 7 ⟨⟨11⟩, none, "Start"⟩

/-- A name that overlaps itself: the second occurrence gives a line but stands inside a word, and
the third a number that is too large. -/
def echoMessage : String := "na_na_na:5: na_na:4294967296: [string \"na_na\"]:8: na_na:4: x"

/-- The first line that the message cites is 8, and line 7 is the closest that is recorded. -/
theorem echo_resolves : Entries.Sorted echoMap.entries ∧
    echoMap.resolve? (Emit.Script.chunkName "na na") echoMessage =
      some (8, ⟨⟨11⟩, none, "Start"⟩) ∧
    CitesFirst (cleanName "na na").toList echoMessage.toList 8 ∧
    echoMap.Closest 8 ⟨⟨11⟩, none, "Start"⟩ := by
  have hsorted : Entries.Sorted echoMap.entries := by
    rw [echoMap]
    exact sorted_record (sorted_record .nil 4 _) 7 _
  have hresolves : echoMap.resolve? (Emit.Script.chunkName "na na") echoMessage =
      some (8, ⟨⟨11⟩, none, "Start"⟩) := by decide +kernel
  have hboth := ((resolve?_first_cited echoMap hsorted "na na" echoMessage).1 _ _).mp hresolves
  exact ⟨hsorted, hresolves, hboth⟩

end GraphScript.DebugMap
