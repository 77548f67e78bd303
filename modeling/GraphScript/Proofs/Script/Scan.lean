import GraphScript.Literal
import GraphScript.Proofs.Literal
import GraphScript.Proofs.Names.Distinct

/-!
# Proofs/Script/Scan — what the scanner reads off emitted text

`Scans` says which tokens a text is made of, with whatever follows still in place, so that readings
are put together from the end.  A word is read up to where it ends (`scans_word`), and a string
literal as the bytes of the string that it was written for (`scans_string`): a literal denotes its
string, to the scanner as by the rules of its dialect (`string_denotes`).
-/

namespace GraphScript.Script.Token

/-- The text, which starts on that line, is read as those tokens. -/
inductive Scans : Nat → List Char → List Lexeme → Prop
  | done {line : Nat} : Scans line [] []
  | skip {line next : Nat} {cs rest : List Char} {ls : List Lexeme}
      (h : front line cs = .ok (.skip next rest)) (hlt : rest.length < cs.length)
      (hs : Scans next rest ls) : Scans line cs ls
  | token {line next : Nat} {t : Token} {cs rest : List Char} {ls : List Lexeme}
      (h : front line cs = .ok (.token t next rest)) (hlt : rest.length < cs.length)
      (hs : Scans next rest ls) : Scans line cs (⟨t, next⟩ :: ls)

/-- **The scanner reads what there is to read**, given enough fuel. -/
theorem Scans.scanFrom_eq {line : Nat} {cs : List Char} {ls : List Lexeme} (h : Scans line cs ls) :
    ∀ fuel, cs.length < fuel → scanFrom fuel line cs = .ok ls := by
  induction h with
  | done =>
    intro fuel hfuel
    obtain ⟨k, rfl⟩ := Nat.exists_eq_succ_of_ne_zero (Nat.ne_of_gt hfuel)
    rfl
  | skip h hlt _ ih =>
    intro fuel hfuel
    obtain ⟨k, rfl⟩ := Nat.exists_eq_succ_of_ne_zero (Nat.ne_of_gt (Nat.zero_lt_of_lt hfuel))
    rw [scanFrom, h]
    exact ih k (by omega)
  | token h hlt _ ih =>
    intro fuel hfuel
    obtain ⟨k, rfl⟩ := Nat.exists_eq_succ_of_ne_zero (Nat.ne_of_gt (Nat.zero_lt_of_lt hfuel))
    rw [scanFrom, h]
    simp only [ih k (by omega)]

/-- What the characters scan to is what a text scans to. -/
theorem scan_eq {s : String} {ls : List Lexeme} (h : Scans 1 s.toList ls) : scan s = .ok ls :=
  h.scanFrom_eq _ (Nat.lt_succ_self _)

variable {line : Nat} {rest : List Char} {ls : List Lexeme}

theorem scans_blank (h : Scans line rest ls) : Scans line (' ' :: rest) ls :=
  .skip rfl (Nat.lt_succ_self _) h

/-- Blanks are passed over. -/
theorem scans_blanks (n : Nat) (h : Scans line rest ls) :
    Scans line (List.replicate n ' ' ++ rest) ls := by
  induction n with
  | zero => exact h
  | succ n ih => exact scans_blank ih

/-- A line feed ends a line; a carriage return after it would belong to it. -/
theorem scans_break (hrest : rest.head? ≠ some '\r') (h : Scans (line + 1) rest ls) :
    Scans line ('\n' :: rest) ls := by
  have hbreak : dropBreak ('\n' :: rest) = some rest := by
    unfold dropBreak
    split <;> simp_all
  refine .skip ?_ (Nat.lt_succ_self _) h
  unfold front
  simp only [hbreak]

/-- Symbols that are read whatever follows them. -/
def lone : List (Char × String) :=
  [('(', "("), (')', ")"), (',', ","), (']', "]"), ('\x7b', "\x7b"), ('\x7d', "\x7d")]

theorem scans_lone {e : Char × String} (he : e ∈ lone) (h : Scans line rest ls) :
    Scans line (e.1 :: rest) (⟨.symbol e.2, line⟩ :: ls) := by
  simp only [lone, List.mem_cons, List.not_mem_nil, or_false] at he
  rcases he with rfl | rfl | rfl | rfl | rfl | rfl
  all_goals exact .token rfl (Nat.lt_succ_self _) h

theorem scans_equals (h : Scans line rest ls) :
    Scans line ('=' :: ' ' :: rest) (⟨.symbol "=", line⟩ :: ls) :=
  .token rfl (Nat.lt_succ_self _) (scans_blank h)

/-! ## Words -/

/-- A word as a token. -/
def ofWord (w : String) : Token := if keywords.contains w then .keyword w else .name w

theorem dropBreak_eq_none {c : Char} (hn : c ≠ '\n') (hr : c ≠ '\r') (cs : List Char) :
    dropBreak (c :: cs) = none := by
  unfold dropBreak
  split <;> simp_all

/-- What starts a name comes after the digits. -/
theorem le_toNat_of_startsName {c : Char} (hc : startsName c = true) : 58 ≤ c.toNat := by
  have hlow : ∀ n < 58, startsName (Char.ofNat n) = false := by decide
  refine Nat.le_of_not_lt fun hlt => ?_
  have hstart := hlow c.toNat hlt
  rw [Char.ofNat_toNat, hc] at hstart
  cases hstart

theorem isBlank_eq_false {c : Char} (hc : startsName c = true) : Number.isBlank c = false := by
  have hle := le_toNat_of_startsName hc
  refine Bool.eq_false_iff.mpr fun hblank => ?_
  simp only [Number.isBlank, Bool.or_eq_true, Bool.and_eq_true, beq_iff_eq,
    decide_eq_true_eq] at hblank
  rcases hblank with rfl | ⟨_, hblank⟩
  · exact absurd hle (by decide)
  · exact absurd (Nat.le_trans hle hblank) (by decide)

theorem isDigit_eq_false {c : Char} (hc : startsName c = true) : c.isDigit = false := by
  have hle := le_toNat_of_startsName hc
  refine Bool.eq_false_iff.mpr fun hdigit => ?_
  have hnine : c.toNat ≤ 57 := (Char.isDigit_iff_toNat.mp hdigit).2
  omega

/-- A word is read from its first character on. -/
theorem front_word {c : Char} (hc : startsName c = true) (cs : List Char) :
    front line (c :: cs) = .ok (wordFront line (c :: cs)) := by
  have hne : ∀ d : Char, startsName d = false → c ≠ d := fun d hd he => by
    rw [he, hd] at hc
    cases hc
  have hbreak := dropBreak_eq_none (hne '\n' (by decide)) (hne '\r' (by decide)) cs
  unfold front
  simp only [hbreak, isBlank_eq_false hc, hc, if_true, Bool.false_eq_true, if_false]

theorem inName_of_startsName {c : Char} (hc : startsName c = true) : inName c = true := by
  simp only [startsName, Bool.or_eq_true] at hc
  simp only [inName, Char.isAlphanum, Bool.or_eq_true]
  exact hc.imp_left Or.inl

theorem isIdentifier_of_chars {w : String} (hhead : w.toList.head?.any startsName = true)
    (hall : w.toList.all inName = true) : Names.IsIdentifier w := by
  cases hw : w.toList with
  | nil =>
    rw [hw] at hhead
    cases hhead
  | cons c cs =>
    rw [hw] at hhead hall
    refine ⟨c, cs, hw, hhead, fun d hd => ?_⟩
    exact List.all_eq_true.mp hall d (List.mem_cons_of_mem _ hd)

/-- **A word is read up to where it ends.** -/
theorem front_identifier {w : String} (hw : Names.IsIdentifier w)
    (hrest : ∀ c ∈ rest.head?, inName c = false) :
    front line (w.toList ++ rest) = .ok (.token (ofWord w) line rest) := by
  obtain ⟨c, cs, hchars, hc, hcs⟩ := hw
  have hall : ∀ d ∈ w.toList, inName d = true := by
    rw [hchars]
    exact List.forall_mem_cons.mpr ⟨inName_of_startsName hc, hcs⟩
  have hend : rest.takeWhile inName = [] ∧ rest.dropWhile inName = rest := by
    cases rest with
    | nil => exact ⟨rfl, rfl⟩
    | cons d r =>
      have hd := hrest d rfl
      exact ⟨List.takeWhile_cons_of_neg (by simp [hd]), List.dropWhile_cons_of_neg (by simp [hd])⟩
  have htake : (w.toList ++ rest).takeWhile inName = w.toList := by
    rw [List.takeWhile_append_of_pos hall, hend.1, List.append_nil]
  have hdrop : (w.toList ++ rest).dropWhile inName = rest := by
    rw [List.dropWhile_append_of_pos hall, hend.2]
  have hfront : front line (w.toList ++ rest) = .ok (wordFront line (w.toList ++ rest)) := by
    rw [hchars]
    exact front_word hc _
  rw [hfront, wordFront, htake, hdrop, String.ofList_toList, ofWord]
  split
  · rfl
  · rfl

/-- A word is scanned, up to what is in no name. -/
theorem scans_word {w : String} (hw : Names.IsIdentifier w)
    (hrest : ∀ c ∈ rest.head?, inName c = false) (h : Scans line rest ls) :
    Scans line (w.toList ++ rest) (⟨ofWord w, line⟩ :: ls) := by
  refine .token (front_identifier hw hrest) ?_ h
  obtain ⟨c, cs, hchars, _⟩ := hw
  rw [hchars, List.length_append, List.length_cons]
  omega

theorem symbolFront_dot {c : Char} (hc : c ≠ '.') (cs : List Char) :
    symbolFront line ('.' :: c :: cs) = .ok (.token (.symbol ".") line (c :: cs)) := by
  have hfind : symbols.find? (fun s => s.toList.isPrefixOf ('.' :: c :: cs)) = some "." := by
    simp [symbols, List.find?, List.isPrefixOf, beq_eq_false_iff_ne.mpr hc.symm]
  rw [symbolFront, hfind]
  rfl

/-- A point before a word is a symbol of its own. -/
theorem scans_dot {w : String} (hw : Names.IsIdentifier w) (h : Scans line (w.toList ++ rest) ls) :
    Scans line ('.' :: (w.toList ++ rest)) (⟨.symbol ".", line⟩ :: ls) := by
  refine .token ?_ (Nat.lt_succ_self _) h
  obtain ⟨c, cs, hchars, hc, _⟩ := hw
  have hne : c ≠ '.' := by
    rintro rfl
    cases hc
  have hfront : front line ('.' :: c :: (cs ++ rest)) =
      if c.isDigit then numberFront line ('.' :: c :: (cs ++ rest))
      else symbolFront line ('.' :: c :: (cs ++ rest)) := rfl
  rw [hchars, List.cons_append, hfront, isDigit_eq_false hc, symbolFront_dot hne]
  rfl

/-! ## Strings -/

/-- A character that is given by its number is read back. -/
theorem escape_code {n : Nat} (hn : n < 128) (cs : List Char) :
    escape line (Literal.threeDigits 10 n ++ cs) = .ok ([UInt8.ofNat n], line, cs) := by
  have hdigits : ∀ n < 128, (Literal.threeDigits 10 n).all Char.isDigit = true := by decide
  have hvalue : ∀ n < 128, Number.digitsValue 10 (Literal.threeDigits 10 n) = n := by decide
  obtain ⟨x, y, z, hxyz⟩ : ∃ x y z, Literal.threeDigits 10 n = [x, y, z] := ⟨_, _, _, rfl⟩
  have hall := hdigits n hn
  have hn' := hvalue n hn
  rw [hxyz] at hall hn' ⊢
  simp only [List.all_cons, List.all_nil, Bool.and_true, Bool.and_eq_true] at hall
  obtain ⟨hx, hy, hz⟩ := hall
  have hne : ∀ c : Char, c.isDigit = false → x ≠ c := fun c hc he => by
    rw [he, hc] at hx
    cases hx
  have hbreak := dropBreak_eq_none (hne '\n' (by decide)) (hne '\r' (by decide)) (y :: z :: cs)
  have htake : ((x :: y :: z :: cs).take 3).takeWhile Char.isDigit = [x, y, z] := by
    simp [hx, hy, hz]
  have hlt : n < 256 := by omega
  rw [List.cons_append, List.cons_append, List.cons_append, List.nil_append, escape]
  · simp only [hbreak, hx, if_true, htake, hn', hlt]
    rfl
  · exact fun _ _ _ hc _ => hne _ (by decide) hc
  · exact fun hc => hne _ (by decide) hc
  · exact fun _ hc _ => hne _ (by decide) hc

/-- A character of a string literal is read as its bytes. -/
theorem quotedBody_escaped (fuel : Nat) (acc : List UInt8) (c : Char) (cs : List Char) :
    quotedBody '"' (fuel + 1) line acc (Literal.escaped .script c ++ cs) =
      quotedBody '"' fuel line (reversedBytes c ++ acc) cs := by
  unfold Literal.escaped
  split
  · rename_i h
    rw [h]
    rfl
  split
  · rename_i h
    rw [h]
    rfl
  split
  · rename_i h
    rw [h]
    rfl
  split
  · rename_i h
    rw [h]
    rfl
  split
  · rename_i h
    rw [h]
    rfl
  split
  · rename_i h
    have hn : c.toNat < 128 := by omega
    have hbytes : ∀ n < 128, reversedBytes (Char.ofNat n) = [UInt8.ofNat n] := by decide
    have hc := hbytes c.toNat hn
    rw [Char.ofNat_toNat] at hc
    have hescape : escape line (Literal.threeDigits (Literal.escapeBase .script) c.toNat ++ cs) =
        .ok ([UInt8.ofNat c.toNat], line, cs) := escape_code hn cs
    rw [List.cons_append, hc, quotedBody, if_neg (by decide), if_neg (by decide), if_pos rfl,
      hescape]
  · rename_i hslash hquote hfeed hreturn _ _
    rw [List.singleton_append, quotedBody, if_neg hquote, if_neg (by simp [hfeed, hreturn]),
      if_neg hslash]

/-- The inside of a literal is read up to its quote. -/
theorem quotedBody_eq : ∀ (cs : List Char) {fuel : Nat} (acc : List UInt8), cs.length < fuel →
    quotedBody '"' fuel line acc (cs.flatMap (Literal.escaped .script) ++ '"' :: rest) =
      .ok (ofReversed (cs.foldl (fun acc c => reversedBytes c ++ acc) acc), line, rest)
  | [], fuel + 1, acc, _ => by
      rw [List.flatMap_nil, List.nil_append, quotedBody, if_pos rfl]
      rfl
  | c :: cs, fuel + 1, acc, hfuel => by
      rw [List.flatMap_cons, List.append_assoc, quotedBody_escaped,
        quotedBody_eq cs _ (Nat.lt_of_succ_lt_succ hfuel)]
      rfl

theorem reverse_foldl_reversedBytes : ∀ (cs : List Char) (acc : List UInt8),
    (cs.foldl (fun acc c => reversedBytes c ++ acc) acc).reverse =
      acc.reverse ++ cs.utf8Encode.data.toList
  | [], acc => by simp
  | c :: cs, acc => by
      have hbytes : reversedBytes c = [c].utf8Encode.data.toList.reverse := by
        rw [reversedBytes, String.toUTF8, String.toByteArray_singleton]
      have hcons : (c :: cs).utf8Encode = [c].utf8Encode ++ cs.utf8Encode := List.utf8Encode_cons
      rw [List.foldl_cons, reverse_foldl_reversedBytes cs, List.reverse_append, hbytes,
        List.reverse_reverse, List.append_assoc, hcons, ByteArray.data_append, Array.toList_append]

theorem length_le_flatMap_escaped : ∀ cs : List Char,
    cs.length ≤ (cs.flatMap (Literal.escaped .script)).length
  | [] => Nat.le_refl 0
  | c :: cs => by
      have hpos := List.length_pos_iff.mpr (Literal.escaped_ne_nil .script c)
      rw [List.flatMap_cons, List.length_append, List.length_cons]
      have := length_le_flatMap_escaped cs
      omega

/-- **A string literal is read as the bytes of its string.** -/
theorem front_string (line : Nat) (s : String) (rest : List Char) :
    front line ((Literal.string .script s).toList ++ rest) =
      .ok (.token (.str s.toUTF8) line rest) := by
  have hbytes : ofReversed (s.toList.foldl (fun acc c => reversedBytes c ++ acc) []) =
      s.toUTF8 := by
    have hencode : s.toList.utf8Encode = s.toUTF8 := by
      rw [← String.toByteArray_ofList, String.ofList_toList]
      rfl
    rw [ofReversed, reverse_foldl_reversedBytes, List.reverse_nil, List.nil_append,
      Array.toArray_toList, hencode]
  have hlen := length_le_flatMap_escaped s.toList
  rw [Literal.toList_string, List.cons_append, List.append_assoc, List.singleton_append]
  set body := s.toList.flatMap (Literal.escaped .script) ++ '"' :: rest with hset
  have hfuel : s.toList.length < body.length + 1 := by
    rw [hset, List.length_append]
    omega
  have hbody : quotedBody '"' (body.length + 1) line [] body = .ok (s.toUTF8, line, rest) := by
    rw [← hbytes]
    exact quotedBody_eq s.toList [] hfuel
  have hquote : front line ('"' :: body) =
      stringFront (quotedBody '"' (body.length + 1) line [] body) := rfl
  rw [hquote, hbody]
  rfl

/-- **A literal is scanned as its text.** -/
theorem scans_string (s : String) (h : Scans line rest ls) :
    Scans line ((Literal.string .script s).toList ++ rest) (⟨.str s.toUTF8, line⟩ :: ls) := by
  refine .token (front_string line s rest) ?_ h
  rw [Literal.toList_string, List.length_append, List.length_cons]
  omega

/-- A string literal in brackets. -/
theorem scans_key (s : String) (h : Scans line rest ls) :
    Scans line ('[' :: ((Literal.string .script s).toList ++ ']' :: rest))
      (⟨.symbol "[", line⟩ :: ⟨.str s.toUTF8, line⟩ :: ⟨.symbol "]", line⟩ :: ls) := by
  have hkey := scans_string s (scans_lone (e := (']', "]")) (by decide) h)
  rw [Literal.toList_string] at hkey ⊢
  exact .token rfl (Nat.lt_succ_self _) hkey

/-- **A string literal denotes its string**, whatever follows it.  By the rules for string literals
it is read as the string itself, by the scanner as the bytes of the string, and both leave what
follows as it is.  It is made of printable characters, and different strings have different
literals. -/
theorem string_denotes (s : String) (t : List Char) :
    Literal.read? .script ((Literal.string .script s).toList ++ t) = some (s.toList, t) ∧
      (∀ line, front line ((Literal.string .script s).toList ++ t) =
        .ok (.token (.str s.toUTF8) line t)) ∧
      (∀ c ∈ (Literal.string .script s).toList, Literal.Printable c) ∧
      ∀ r, Literal.string .script r = Literal.string .script s → r = s :=
  ⟨Literal.read?_string .script s t, fun line => front_string line s t,
    Literal.printable_string .script s, fun _ h => Literal.string_injective .script h⟩

example : Literal.read? .script (Literal.string .script "\x01" ++ "23").toList =
    some (['\x01'], ['2', '3']) := by decide

example : Literal.read? .script "\"a\nb\"".toList = none := by decide

end GraphScript.Script.Token
