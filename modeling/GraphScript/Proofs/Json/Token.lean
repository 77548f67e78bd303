import GraphScript.Json.Token
import Mathlib.Data.List.TakeWhile

/-!
# Proofs/Json/Token — tokens are read back from their text

A string is read back from its written form, whatever follows (`string_append`).  A number ends
where a value ends (`Stops`): what is read of a number on its own is read of it in a document
(`numeral_contained`), and a whole number within the limit is read back from its digits
(`numeral_toDigits`).
-/

namespace GraphScript.Json

/-! ## Strings -/

theorem hexValue?_digitChar : ∀ d < 16, hexValue? (Nat.digitChar d) = some d := by decide

/-- Four digits are read as the character that they number. -/
theorem hexFour_control {n : Nat} (h : n < 0x20) (rest : List Char) :
    hexFour ('0' :: '0' :: Nat.digitChar (n / 16) :: Nat.digitChar (n % 16) :: rest) =
      .ok (n, rest) := by
  have hhigh := hexValue?_digitChar (n / 16) (by omega)
  have hlow := hexValue?_digitChar (n % 16) (by omega)
  have hsize : ¬ (0 + '0'.utf8Size + '0'.utf8Size + (Nat.digitChar (n / 16)).utf8Size +
      (Nat.digitChar (n % 16)).utf8Size) < 4 := by
    have := (Nat.digitChar (n / 16)).utf8Size_pos
    have := (Nat.digitChar (n % 16)).utf8Size_pos
    have hzero : '0'.utf8Size = 1 := by decide
    omega
  have hdigits : ['0', '0', Nat.digitChar (n / 16), Nat.digitChar (n % 16)].mapM hexValue? =
      some [0, 0, n / 16, n % 16] := by
    simp only [List.mapM_cons, List.mapM_nil, hhigh, hlow]
    rfl
  have hvalue : (((0 * 16 + 0) * 16 + 0) * 16 + n / 16) * 16 + n % 16 = n := by omega
  unfold hexFour
  simp only [List.take, List.foldl, hsize, if_false, hdigits, hvalue, List.drop]

theorem stringBody_unicode {cs rest : List Char} {c : Char} (fuel : Nat) (before : List Char)
    (h : unicodeEscape cs = .ok (c, rest)) :
    stringBody (fuel + 1) before ('\\' :: 'u' :: cs) = stringBody fuel (c :: before) rest := by
  rw [stringBody]
  simp [h]

/-- Characters that cannot be shown are written by their numbers. -/
theorem unicodeEscape_control {c : Char} (h : c.toNat < 0x20) (rest : List Char) :
    unicodeEscape ('0' :: '0' :: Nat.digitChar (c.toNat / 16) :: Nat.digitChar (c.toNat % 16) ::
      rest) = .ok (c, rest) := by
  have hlow : ¬ (0xdc00 ≤ c.toNat ∧ c.toNat ≤ 0xdfff) := by omega
  have hunit : c.toNat < 0xd800 ∨ 0xdbff < c.toNat := by omega
  rw [unicodeEscape, hexFour_control h]
  simp only [bind, Except.bind, hlow, hunit, if_true, if_false, Char.ofNat_toNat]
  rfl

/-- One written character is read. -/
theorem stringBody_escaped (fuel : Nat) (before : List Char) (c : Char) (rest : List Char) :
    stringBody (fuel + 1) before (escaped c ++ rest) = stringBody fuel (c :: before) rest := by
  unfold escaped
  split_ifs with hquote hslash h h h h h hcontrol
  -- the characters with an escape of one letter
  any_goals (subst c; rfl)
  · exact stringBody_unicode fuel before (unicodeEscape_control hcontrol rest)
  · rw [List.singleton_append, stringBody.eq_def]
    simp only [hquote, hslash, hcontrol, if_false]

/-- **An escaped text is read back**, up to its quote. -/
theorem stringBody_flatMap (cs before rest : List Char) (fuel : Nat) (h : cs.length < fuel) :
    stringBody fuel before (cs.flatMap escaped ++ '"' :: rest) =
      .ok (before.reverse ++ cs, rest) := by
  induction cs generalizing before fuel with
  | nil =>
    obtain ⟨fuel, rfl⟩ := Nat.exists_eq_add_of_lt h
    rw [List.append_nil]
    rfl
  | cons c cs ih =>
    obtain ⟨fuel, rfl⟩ := Nat.exists_eq_succ_of_ne_zero (Nat.ne_zero_of_lt h)
    rw [List.flatMap_cons, List.append_assoc, stringBody_escaped, ih _ _ (Nat.lt_of_succ_lt_succ h),
      List.reverse_cons, List.append_assoc, List.singleton_append]

/-- Escaping makes no text shorter. -/
theorem length_le_flatMap_escaped (cs : List Char) : cs.length ≤ (cs.flatMap escaped).length := by
  induction cs with
  | nil => exact Nat.le_refl _
  | cons c cs ih =>
    have hpos : 1 ≤ (escaped c).length := by
      unfold escaped
      split_ifs <;> simp
    rw [List.flatMap_cons, List.length_append, List.length_cons]
    omega

/-- **A written string is read back**, whatever follows. -/
theorem string_append (s : String) (rest : List Char) :
    string (s.toList.flatMap escaped ++ '"' :: rest) = .ok (s, rest) := by
  have hlength := length_le_flatMap_escaped s.toList
  rw [string, stringBody_flatMap _ _ _ _ (by rw [List.length_append]; omega)]
  simp only [bind, Except.bind, List.reverse_nil, List.nil_append, String.ofList_toList]
  rfl

theorem word_append (ws rest : List Char) : word ws (ws ++ rest) = .ok rest := by
  induction ws with
  | nil => rfl
  | cons w ws ih => rw [List.cons_append, word, if_pos rfl, ih]

/-! ## Numbers -/

/-- The text after a value: nothing, or a mark that ends the value. -/
def Stops (rest : List Char) : Prop := ∀ c ∈ rest.head?, c = ',' ∨ c = ']' ∨ c = '\x7d'

theorem stops_nil : Stops [] := fun _ h => by cases h

theorem stops_cons {c : Char} (h : c = ',' ∨ c = ']' ∨ c = '\x7d') (rest : List Char) :
    Stops (c :: rest) := fun _ hd => Option.some.inj hd ▸ h

section Stops

variable {rest : List Char} (hrest : Stops rest)

include hrest

/-- A number does not go on. -/
theorem Stops.any_isDigit : rest.head?.any Char.isDigit = false := by
  cases rest with
  | nil => rfl
  | cons c rest => rcases hrest c rfl with rfl | rfl | rfl <;> rfl

/-- What follows a number is no digit. -/
theorem Stops.takeWhile_isDigit : rest.takeWhile Char.isDigit = [] := by
  cases rest with
  | nil => rfl
  | cons c rest => rcases hrest c rfl with rfl | rfl | rfl <;> rfl

/-- So the digits of a number end where the number does. -/
theorem takeWhile_append (cs : List Char) :
    (cs ++ rest).takeWhile Char.isDigit = cs.takeWhile Char.isDigit := by
  induction cs with
  | nil => exact hrest.takeWhile_isDigit
  | cons c cs ih =>
    rw [List.cons_append, List.takeWhile_cons, List.takeWhile_cons, ih]

theorem dropWhile_append (cs : List Char) :
    (cs ++ rest).dropWhile Char.isDigit = cs.dropWhile Char.isDigit ++ rest := by
  have hsplit : (cs ++ rest).takeWhile Char.isDigit ++ (cs ++ rest).dropWhile Char.isDigit =
      (cs.takeWhile Char.isDigit ++ cs.dropWhile Char.isDigit) ++ rest := by
    rw [List.takeWhile_append_dropWhile, List.takeWhile_append_dropWhile]
  rw [takeWhile_append hrest, List.append_assoc] at hsplit
  exact List.append_cancel_left hsplit

end Stops

/-- What is read off a text is read off it before the end of a value as well, and what is left is
the end of the text. -/
def Contained {α : Type} (f : List Char → Except Fault (α × List Char)) (cs : List Char) : Prop :=
  ∀ x r, f cs = .ok (x, r) → r <:+ cs ∧ ∀ rest, Stops rest → f (cs ++ rest) = .ok (x, r ++ rest)

section Contained

variable {α : Type} {f g : List Char → Except Fault (α × List Char)} {cs : List Char}

/-- The first digits are read. -/
theorem contained_of_digits {v : List Char → Except Fault α}
    (hf : ∀ rest, f (cs ++ rest) = (do
      return (← v ((cs ++ rest).takeWhile Char.isDigit), (cs ++ rest).dropWhile Char.isDigit))) :
    Contained f cs := by
  intro x r h
  have hcs := hf []
  rw [List.append_nil, h] at hcs
  cases hv : v (cs.takeWhile Char.isDigit) with
  | error e =>
    rw [hv] at hcs
    cases hcs
  | ok y =>
    rw [hv] at hcs
    cases hcs
    refine ⟨List.dropWhile_suffix _, fun rest hrest => ?_⟩
    rw [hf, takeWhile_append hrest, dropWhile_append hrest, hv]
    rfl

/-- Nothing is read. -/
theorem contained_of_nothing {v : Except Fault α}
    (hf : ∀ rest, Stops rest → f (cs ++ rest) = (do return (← v, cs ++ rest))) :
    Contained f cs := by
  intro x r h
  have hcs := hf [] stops_nil
  rw [List.append_nil, h] at hcs
  cases v with
  | error e => cases hcs
  | ok y =>
    cases hcs
    exact ⟨List.suffix_refl _, fun rest hrest => hf rest hrest⟩

/-- One character is passed over. -/
theorem Contained.cons {c : Char} (h : Contained g cs) (hf : ∀ ds, f (c :: ds) = g ds) :
    Contained f (c :: cs) := by
  intro x r hr
  rw [hf] at hr
  obtain ⟨hsuffix, hread⟩ := h x r hr
  exact ⟨hsuffix.trans (List.suffix_cons c cs), fun rest hrest => (hf _).trans (hread rest hrest)⟩

/-- The digits of a text are passed over. -/
theorem Contained.dropWhile {g : List Char → List Char → Except Fault (α × List Char)}
    (h : Contained (g (cs.takeWhile Char.isDigit)) (cs.dropWhile Char.isDigit))
    (hf : ∀ rest, Stops rest →
      f (cs ++ rest) =
        g ((cs ++ rest).takeWhile Char.isDigit) ((cs ++ rest).dropWhile Char.isDigit)) :
    Contained f cs := by
  intro x r hr
  have hcs := hf [] stops_nil
  rw [List.append_nil, hr] at hcs
  obtain ⟨hsuffix, hread⟩ := h x r hcs.symm
  refine ⟨hsuffix.trans (List.dropWhile_suffix _), fun rest hrest => ?_⟩
  rw [hf rest hrest, takeWhile_append hrest, dropWhile_append hrest]
  exact hread rest hrest

end Contained

/-! ## Exponents and fractions -/

section Numbers

variable (negative : Bool) (significand : Nat)

/-- An exponent after its sign. -/
def exponentDigits (start : Int) (minus : Bool) (cs : List Char) :
    Except Fault (Float × List Char) := do
  match cs with
  | [] => throw .endInValue
  | c :: _ =>
    if !c.isDigit then throw .invalidNumber
    let ds := cs.takeWhile Char.isDigit
    let rest := cs.dropWhile Char.isDigit
    let e := ds.foldl (fun n d => n * 10 + digitValue d) 0
    if e > 0x7fffffff then
      if significand != 0 && !minus then throw .numberOutOfRange
      return (if negative then -0.0 else 0.0, rest)
    return (← scale negative significand (if minus then start - e else start + e), rest)

/-- The value of a number with an exponent. -/
def exponentValue (start : Int) (minus : Bool) (e : Nat) : Except Fault Float :=
  if e > 0x7fffffff then
    if significand != 0 && !minus then .error .numberOutOfRange
    else .ok (if negative then -0.0 else 0.0)
  else scale negative significand (if minus then start - e else start + e)

/-- An exponent is read in the same way, whatever follows the number. -/
theorem exponentDigits_contained (start : Int) (minus : Bool) (cs : List Char) :
    Contained (exponentDigits negative significand start minus) cs := by
  cases cs with
  | nil => exact fun _ _ h => by cases h
  | cons c cs =>
    cases hdigit : c.isDigit with
    | false =>
      intro x r h
      simp only [exponentDigits, hdigit] at h
      cases h
    | true =>
      refine contained_of_digits (v := fun ds => exponentValue negative significand start minus
        (ds.foldl (fun n d => n * 10 + digitValue d) 0)) fun rest => ?_
      rw [List.cons_append]
      simp only [exponentDigits, hdigit, exponentValue, Bool.not_true, Bool.false_eq_true, if_false]
      split
      · split
        · rfl
        · rfl
      · rfl

theorem exponentPart_of_unsigned {c : Char} (hplus : c ≠ '+') (hminus : c ≠ '-') (start : Int)
    (cs : List Char) : exponentPart negative significand start (c :: cs) =
      exponentDigits negative significand start false (c :: cs) := by
  have hsigned : exponentPart negative significand start (c :: cs) =
      exponentPart negative significand start ('+' :: c :: cs) := by
    unfold exponentPart
    simp [hplus, hminus]
  exact hsigned

theorem exponentPart_contained (start : Int) (cs : List Char) :
    Contained (exponentPart negative significand start) cs := by
  cases cs with
  | nil => exact fun _ _ h => by cases h
  | cons c cs =>
    by_cases hplus : c = '+'
    · subst hplus
      exact (exponentDigits_contained negative significand start false cs).cons fun _ => rfl
    · by_cases hminus : c = '-'
      · subst hminus
        exact (exponentDigits_contained negative significand start true cs).cons fun _ => rfl
      · intro x r h
        rw [exponentPart_of_unsigned negative significand hplus hminus] at h
        obtain ⟨hsuffix, hread⟩ := exponentDigits_contained negative significand start false _ x r h
        refine ⟨hsuffix, fun rest hrest => ?_⟩
        rw [List.cons_append, exponentPart_of_unsigned negative significand hplus hminus]
        exact hread rest hrest

/-- What follows the digits of a fraction. -/
def afterFraction (exponent : Int) (rest : List Char) : Except Fault (Float × List Char) := do
  match rest with
  | 'e' :: r => exponentPart negative significand exponent r
  | 'E' :: r => exponentPart negative significand exponent r
  | _ => return (← scale negative significand exponent, rest)

theorem afterFraction_of_plain {cs : List Char} (h : ∀ c ∈ cs.head?, c ≠ 'e' ∧ c ≠ 'E')
    (exponent : Int) : afterFraction negative significand exponent cs =
      do return (← scale negative significand exponent, cs) := by
  unfold afterFraction
  split
  · exact absurd rfl (h 'e' rfl).1
  · exact absurd rfl (h 'E' rfl).2
  · rfl

/-- What follows the digits of a number is read in the same way, whatever follows the number. -/
theorem afterFraction_contained (exponent : Int) (cs : List Char) :
    Contained (afterFraction negative significand exponent) cs := by
  cases cs with
  | nil =>
    refine contained_of_nothing fun rest hrest =>
      afterFraction_of_plain negative significand (fun c hc => ?_) exponent
    rcases hrest c hc with rfl | rfl | rfl <;> decide
  | cons c cs =>
    by_cases he : c = 'e'
    · subst he
      exact (exponentPart_contained negative significand exponent cs).cons fun _ => rfl
    · by_cases hE : c = 'E'
      · subst hE
        exact (exponentPart_contained negative significand exponent cs).cons fun _ => rfl
      · refine contained_of_nothing fun rest _ =>
          afterFraction_of_plain negative significand (fun d hd => ?_) exponent
        cases hd
        exact ⟨he, hE⟩

/-- A fraction is read from its digits on. -/
theorem fractionPart_eq (start : Int) (cs : List Char) :
    fractionPart negative significand start cs =
      if (cs.takeWhile Char.isDigit).isEmpty then
        .error (if (cs.dropWhile Char.isDigit).isEmpty then .endInValue else .invalidNumber)
      else afterFraction negative (absorb significand (cs.takeWhile Char.isDigit)).1
        (start - (absorb significand (cs.takeWhile Char.isDigit)).2)
        (cs.dropWhile Char.isDigit) := by
  unfold fractionPart
  split
  · rename_i hnone
    simp only [hnone, if_true]
    rfl
  · rename_i hsome
    simp only [hsome]
    rfl

/-- A fraction is read in the same way, whatever follows the number. -/
theorem fractionPart_contained (start : Int) (cs : List Char) :
    Contained (fractionPart negative significand start) cs := by
  refine Contained.dropWhile (g := fun ds tail =>
    if ds.isEmpty then .error (if tail.isEmpty then .endInValue else .invalidNumber)
    else afterFraction negative (absorb significand ds).1 (start - (absorb significand ds).2) tail)
    ?_ fun rest _ => fractionPart_eq negative significand start (cs ++ rest)
  cases (cs.takeWhile Char.isDigit).isEmpty with
  | true => exact fun _ _ h => by cases h
  | false => exact afterFraction_contained negative _ _ _

/-! ## Numbers -/

/-- What follows the whole digits of a number, `dropped` of which do not count. -/
def afterWhole (dropped : Nat) (rest : List Char) : Except Fault (Numeral × List Char) := do
  match rest with
  | '.' :: r =>
    let (x, r) ← fractionPart negative significand dropped r
    return (.float x, r)
  | 'e' :: r | 'E' :: r =>
    let (x, r) ← exponentPart negative significand dropped r
    return (.float x, r)
  | _ =>
    if dropped > 0 then return (.float (← scale negative significand dropped), rest)
    else if !negative then return (.int significand, rest)
    else if significand == 0 || significand > 0x8000000000000000 then
      return (.float (-Float.ofNat significand), rest)
    else return (.int (-significand), rest)

/-- A number without fraction and exponent. -/
def wholeNumber (dropped : Nat) : Except Fault Numeral := do
  if dropped > 0 then return .float (← scale negative significand dropped)
  else if !negative then return .int significand
  else if significand == 0 || significand > 0x8000000000000000 then
    return .float (-Float.ofNat significand)
  else return .int (-significand)

theorem afterWhole_of_plain {cs : List Char} (h : ∀ c ∈ cs.head?, c ≠ '.' ∧ c ≠ 'e' ∧ c ≠ 'E')
    (dropped : Nat) : afterWhole negative significand dropped cs =
      do return (← wholeNumber negative significand dropped, cs) := by
  unfold afterWhole
  split
  · exact absurd rfl (h '.' rfl).1
  · exact absurd rfl (h 'e' rfl).2.1
  · exact absurd rfl (h 'E' rfl).2.2
  · unfold wholeNumber
    split
    · cases scale negative significand dropped with
      | error e => rfl
      | ok x => rfl
    · split
      · rfl
      · split
        · rfl
        · rfl

theorem Contained.float {f : List Char → Except Fault (Float × List Char)} {cs : List Char}
    (h : Contained f cs) :
    Contained (fun ds => f ds >>= fun p => pure (Numeral.float p.1, p.2)) cs := by
  intro n r hr
  cases hf : f cs with
  | error e =>
    simp only [hf] at hr
    cases hr
  | ok p =>
    obtain ⟨hsuffix, hread⟩ := h p.1 p.2 hf
    simp only [hf] at hr
    cases hr
    exact ⟨hsuffix, fun rest hrest => by simp only [hread rest hrest]; rfl⟩

/-- **So is what follows the whole part.** -/
theorem afterWhole_contained (dropped : Nat) (cs : List Char) :
    Contained (afterWhole negative significand dropped) cs := by
  cases cs with
  | nil =>
    refine contained_of_nothing fun rest hrest =>
      afterWhole_of_plain negative significand (fun c hc => ?_) dropped
    rcases hrest c hc with rfl | rfl | rfl <;> decide
  | cons c cs =>
    by_cases hpoint : c = '.'
    · subst hpoint
      exact (fractionPart_contained negative significand dropped cs).float.cons fun _ => rfl
    · by_cases he : c = 'e'
      · subst he
        exact (exponentPart_contained negative significand dropped cs).float.cons fun _ => rfl
      · by_cases hE : c = 'E'
        · subst hE
          exact (exponentPart_contained negative significand dropped cs).float.cons fun _ => rfl
        · refine contained_of_nothing fun rest _ =>
            afterWhole_of_plain negative significand (fun d hd => ?_) dropped
          cases hd
          exact ⟨hpoint, he, hE⟩

/-- A number starts with a digit, and with a zero only if no other digit follows. -/
theorem numeral_eq (c : Char) (cs : List Char) :
    numeral negative (c :: cs) =
      if !c.isDigit || c == '0' && cs.head?.any Char.isDigit then .error .invalidNumber
      else afterWhole negative (absorb 0 ((c :: cs).takeWhile Char.isDigit)).1
        (((c :: cs).takeWhile Char.isDigit).length -
          (absorb 0 ((c :: cs).takeWhile Char.isDigit)).2)
        ((c :: cs).dropWhile Char.isDigit) := by
  unfold numeral
  cases hdigit : c.isDigit with
  | false =>
    simp only [hdigit]
    rfl
  | true =>
    cases hzero : c == '0' && cs.head?.any Char.isDigit with
    | true =>
      simp only [hdigit, hzero]
      rfl
    | false =>
      simp only [hdigit, hzero]
      rfl

/-- **What is read of a number on its own is read of it before the end of a value.** -/
theorem numeral_contained (cs : List Char) : Contained (numeral negative) cs := by
  cases cs with
  | nil => exact fun _ _ h => by cases h
  | cons c cs =>
    have hhead : ∀ rest, Stops rest →
        (cs ++ rest).head?.any Char.isDigit = cs.head?.any Char.isDigit := fun rest hrest => by
      cases cs with
      | nil => exact hrest.any_isDigit
      | cons d cs => rfl
    cases hfirst : !c.isDigit || c == '0' && cs.head?.any Char.isDigit with
    | true =>
      intro x r h
      rw [numeral_eq, hfirst] at h
      cases h
    | false =>
      refine (afterWhole_contained negative _ _ _).dropWhile (g := fun ds => afterWhole negative
        (absorb 0 ds).1 (ds.length - (absorb 0 ds).2)) fun rest hrest => ?_
      rw [List.cons_append, numeral_eq, hhead rest hrest, hfirst]
      rfl

end Numbers

/-! ## Whole numbers -/

/-- A number does not get smaller by more digits. -/
theorem le_foldl_digits (ds : List Char) (n : Nat) :
    n ≤ ds.foldl (fun n d => n * 10 + digitValue d) n := by
  induction ds generalizing n with
  | nil => exact Nat.le_refl n
  | cons d ds ih => exact Nat.le_trans (by omega) (ih (n * 10 + digitValue d))

/-- All digits count where the number is not too great. -/
theorem absorb_eq {significand : Nat} {ds : List Char}
    (h : ds.foldl (fun n d => n * 10 + digitValue d) significand ≤ significandLimit) :
    absorb significand ds =
      (ds.foldl (fun n d => n * 10 + digitValue d) significand, ds.length) := by
  induction ds generalizing significand with
  | nil => rfl
  | cons d ds ih =>
    have hnext : ¬ significand * 10 + digitValue d > significandLimit :=
      Nat.not_lt.mpr (Nat.le_trans (le_foldl_digits ds _) h)
    simp only [absorb, hnext, if_false, ih h]
    rfl

/-- A number is read back from its digits. -/
theorem foldl_toDigits (n : Nat) :
    (Nat.toDigits 10 n).foldl (fun n d => n * 10 + digitValue d) 0 = n := by
  have hdigits := Nat.ofDigitChars_toDigits (b := 10) (n := n) (by decide) (by decide)
  rw [Nat.ofDigitChars_eq_foldl] at hdigits
  simp only [Nat.mul_comm 10] at hdigits
  exact hdigits

/-- No number but zero starts with a zero. -/
theorem head?_toDigits {n : Nat} (h : 0 < n) : (Nat.toDigits 10 n).head? ≠ some '0' := by
  induction n using Nat.strongRecOn with
  | _ n ih =>
    rw [Nat.toDigits_eq_if (by decide)]
    split
    · rename_i hlt
      have hdigit : ∀ d < 10, 0 < d → some (Nat.digitChar d) ≠ some '0' := by decide
      exact hdigit n hlt h
    · have hfirst := ih (n / 10) (by omega) (by omega)
      cases hds : Nat.toDigits 10 (n / 10) with
      | nil => exact absurd hds Nat.toDigits_ne_nil
      | cons d ds =>
        rw [hds] at hfirst
        exact hfirst

/-- **A whole number within the limit of significands is read back from its digits.** -/
theorem numeral_toDigits {n : Nat} (h : n ≤ significandLimit) :
    numeral false (Nat.toDigits 10 n) = .ok (.int n, []) := by
  have hdigits : ∀ c ∈ Nat.toDigits 10 n, c.isDigit = true := fun _ =>
    Nat.isDigit_of_mem_toDigits (by decide) (by decide)
  have htake : (Nat.toDigits 10 n).takeWhile Char.isDigit = Nat.toDigits 10 n :=
    List.takeWhile_eq_self_iff.mpr hdigits
  have hdrop : (Nat.toDigits 10 n).dropWhile Char.isDigit = [] :=
    List.dropWhile_eq_nil_iff.mpr hdigits
  have habsorb : absorb 0 (Nat.toDigits 10 n) = (n, (Nat.toDigits 10 n).length) := by
    have hvalue := foldl_toDigits n
    rw [absorb_eq (by rwa [hvalue]), hvalue]
  obtain ⟨c, cs, hcs⟩ := List.exists_cons_of_ne_nil (Nat.toDigits_ne_nil (b := 10) (n := n))
  have hfirst : (!c.isDigit || c == '0' && cs.head?.any Char.isDigit) = false := by
    rw [hdigits c (hcs ▸ List.mem_cons_self), Bool.not_true, Bool.false_or]
    rcases Nat.lt_or_ge n 10 with hlt | hge
    · rw [Nat.toDigits_of_lt_base hlt] at hcs
      obtain rfl : [] = cs := (List.cons.inj hcs).2
      exact Bool.and_false _
    · have hhead := head?_toDigits (Nat.lt_of_lt_of_le (by decide) hge)
      rw [hcs, List.head?_cons, ne_eq, Option.some.injEq] at hhead
      rw [beq_eq_false_iff_ne.mpr hhead, Bool.false_and]
  rw [hcs] at htake hdrop habsorb ⊢
  rw [numeral_eq, hfirst, htake, hdrop, habsorb, Nat.sub_self]
  rfl

end GraphScript.Json
