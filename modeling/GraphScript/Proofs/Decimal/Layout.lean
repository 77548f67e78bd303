import GraphScript.Proofs.Decimal.Shortest
import GraphScript.Proofs.Literal

/-!
# Proofs/Decimal/Layout — the text of a decimal denotes its value

`valueOf` says what number a text of digits denotes, with a point and an exponent or without.  Every
format writes a decimal as a numeral of its value (`numeral_decimal`), so a format that writes the
shortest digits never writes two finite doubles alike (`write_inj`).
-/

namespace GraphScript.Decimal

open Text (takeWhile_mark)

/-! ## What a text denotes -/

/-- The number that follows an exponent mark. -/
def exponentOf : List Char → ℤ
  | [] => 0
  | _ :: '-' :: ds => -(Nat.ofDigitChars 10 ds 0 : ℤ)
  | _ :: '+' :: ds => Nat.ofDigitChars 10 ds 0
  | _ :: ds => Nat.ofDigitChars 10 ds 0

/-- The digits on both sides of a point, times a power of ten. -/
def significandOf (cs : List Char) (e : ℤ) : ℚ :=
  let fraction := (cs.dropWhile (· ≠ '.')).drop 1
  scaled (cs.takeWhile (· ≠ '.') ++ fraction) (e - fraction.length)

/-- The number that a text denotes. -/
def valueOf (cs : List Char) : ℚ :=
  significandOf (cs.takeWhile (· ≠ 'e')) (exponentOf (cs.dropWhile (· ≠ 'e')))

/-- A text without a mark is all before the mark. -/
theorem takeWhile_no_mark {mark : Char} {cs : List Char} (h : mark ∉ cs) :
    cs.takeWhile (· ≠ mark) = cs ∧ cs.dropWhile (· ≠ mark) = [] := by
  have hne : ∀ c ∈ cs, decide (c ≠ mark) = true := fun c hc =>
    decide_eq_true fun heq => h (heq ▸ hc)
  exact ⟨List.takeWhile_eq_self_iff.mpr hne, List.dropWhile_eq_nil_iff.mpr hne⟩

/-- A significand without a point is a whole number. -/
theorem significandOf_digits {ds : List Char} (h : '.' ∉ ds) (e : ℤ) :
    significandOf ds e = scaled ds e := by
  obtain ⟨htake, hdrop⟩ := takeWhile_no_mark h
  simp only [significandOf, htake, hdrop]
  simp

/-- A significand with a point counts its fraction off the exponent. -/
theorem significandOf_point {ds : List Char} (h : '.' ∉ ds) (fraction : List Char) (e : ℤ) :
    significandOf (ds ++ '.' :: fraction) e = scaled (ds ++ fraction) (e - fraction.length) := by
  obtain ⟨htake, hdrop⟩ := takeWhile_mark h fraction
  simp only [significandOf, htake, hdrop, List.drop_one, List.tail_cons]

/-- A text without an exponent is its significand. -/
theorem valueOf_significand {cs : List Char} (h : 'e' ∉ cs) : valueOf cs = significandOf cs 0 := by
  obtain ⟨htake, hdrop⟩ := takeWhile_no_mark h
  simp only [valueOf, htake, hdrop, exponentOf]

/-- A text with an exponent is its significand, scaled by it. -/
theorem valueOf_exponent {cs : List Char} (h : 'e' ∉ cs) (rest : List Char) :
    valueOf (cs ++ 'e' :: rest) = significandOf cs (exponentOf ('e' :: rest)) := by
  obtain ⟨htake, hdrop⟩ := takeWhile_mark h rest
  simp only [valueOf, htake, hdrop]

/-! ## Numerals -/

/-- Digits, one at least. -/
structure Digits (ds : List Char) : Prop where
  digit : ∀ c ∈ ds, c.isDigit = true
  ne_nil : ds ≠ []

/-- A text of digits, perhaps with a point among them, and how many stand after the point. -/
inductive Significand : List Char → List Char → ℕ → Prop
  | whole {ds : List Char} (hds : Digits ds) : Significand ds ds 0
  | point {ds fs : List Char} (hds : Digits ds) (hfs : Digits fs) :
      Significand (ds ++ '.' :: fs) (ds ++ fs) fs.length

/-- The text of a number, perhaps with an exponent, and the number. -/
inductive Numeral : List Char → ℚ → Prop
  | plain {cs ds : List Char} {n : ℕ} (h : Significand cs ds n) : Numeral cs (scaled ds (-n))
  | exponent {cs ds sign es : List Char} {n : ℕ} (h : Significand cs ds n)
      (hsign : sign ∈ [[], ['-'], ['+']]) (hes : Digits es) :
      Numeral (cs ++ 'e' :: (sign ++ es)) (scaled ds (exponentOf ('e' :: (sign ++ es)) - n))

theorem Digits.notMem {ds : List Char} (h : Digits ds) {c : Char} (hc : c.isDigit = false) :
    c ∉ ds := fun hm => by
  rw [h.digit c hm] at hc
  cases hc

theorem Digits.append {ds fs : List Char} (h : Digits ds) (hfs : ∀ c ∈ fs, c.isDigit = true) :
    Digits (ds ++ fs) :=
  ⟨List.forall_mem_append.mpr ⟨h.digit, hfs⟩,
    fun hnil => h.ne_nil (List.append_eq_nil_iff.mp hnil).1⟩

theorem digits_singleton {c : Char} (hc : c.isDigit = true) : Digits [c] :=
  ⟨List.forall_mem_singleton.mpr hc, List.cons_ne_nil c []⟩

theorem isDigit_zeros (n : ℕ) : ∀ c ∈ List.replicate n '0', c.isDigit = true := fun c hc => by
  rw [List.eq_of_mem_replicate hc]
  decide

namespace Significand

variable {cs ds : List Char} {n : ℕ}

/-- A significand is made of digits and a point. -/
theorem notMem (h : Significand cs ds n) {c : Char} (hc : c.isDigit = false) (hpoint : c ≠ '.') :
    c ∉ cs := by
  cases h with
  | whole hds => exact hds.notMem hc
  | point hds hfs =>
    intro hm
    rcases List.mem_append.mp hm with hm | hm
    · exact hds.notMem hc hm
    · rcases List.mem_cons.mp hm with rfl | hm
      · exact hpoint rfl
      · exact hfs.notMem hc hm

/-- A significand denotes its digits, scaled down by the number of those in the fraction. -/
theorem significandOf_eq (h : Significand cs ds n) (e : ℤ) :
    significandOf cs e = scaled ds (e - n) := by
  cases h with
  | whole hds =>
    rw [significandOf_digits (hds.notMem (by decide)), Nat.cast_zero, sub_zero]
  | point hds hfs => exact significandOf_point (hds.notMem (by decide)) _ e

/-- A significand begins with a digit. -/
theorem exists_cons (h : Significand cs ds n) : ∃ c r, cs = c :: r ∧ c.isDigit = true := by
  have hcons : ∀ {ds : List Char}, Digits ds → ∀ rest,
      ∃ c r, ds ++ rest = c :: r ∧ c.isDigit = true := fun {ds} hds rest => by
    obtain ⟨c, r, rfl⟩ := List.exists_cons_of_ne_nil hds.ne_nil
    exact ⟨c, r ++ rest, rfl, hds.digit c List.mem_cons_self⟩
  cases h with
  | whole hds =>
    have := hcons hds []
    rwa [List.append_nil] at this
  | point hds _ => exact hcons hds _

end Significand

namespace Numeral

variable {cs : List Char} {v : ℚ}

/-- **A text is the numeral of one number only.** -/
theorem valueOf_eq (h : Numeral cs v) : valueOf cs = v := by
  cases h with
  | plain h =>
    rw [valueOf_significand (h.notMem (by decide) (by decide)), h.significandOf_eq, zero_sub]
  | exponent h _ _ =>
    rw [valueOf_exponent (h.notMem (by decide) (by decide)), h.significandOf_eq]

/-- A numeral begins with a digit. -/
theorem exists_cons (h : Numeral cs v) : ∃ c r, cs = c :: r ∧ c.isDigit = true := by
  cases h with
  | plain h => exact h.exists_cons
  | exponent h _ _ =>
    obtain ⟨c, r, rfl, hc⟩ := h.exists_cons
    exact ⟨c, _, rfl, hc⟩

end Numeral

/-! ## What a format writes -/

/-- Zeros in front change nothing about the value. -/
theorem Scientific.value_eq_scaled_zeros (s : Scientific) (n : ℕ) :
    s.value = scaled (['0'] ++ (List.replicate n '0' ++ s.digits))
      (s.exponent + 1 - s.digits.length) := by
  rw [value, ← List.append_assoc]
  exact (scaled_zeros_append (n + 1) s.digits _).symm

namespace Layout

variable (l : Layout) {s : Scientific}

/-- Below one, zeros stand between the point and the first digit. -/
theorem numeral_below_one (hs : Digits s.digits) (hneg : s.exponent < 0) :
    Numeral ("0.".toList ++ List.replicate ((-s.exponent).toNat - 1) '0' ++ s.digits) s.value := by
  have hzero : Digits ['0'] := digits_singleton (by decide)
  have hfraction : Digits (List.replicate ((-s.exponent).toNat - 1) '0' ++ s.digits) :=
    ⟨List.forall_mem_append.mpr ⟨isDigit_zeros _, hs.digit⟩,
      fun h => hs.ne_nil (List.append_eq_nil_iff.mp h).2⟩
  have htext : "0.".toList = ['0', '.'] := rfl
  have hexp : -((List.replicate ((-s.exponent).toNat - 1) '0' ++ s.digits).length : ℤ) =
      s.exponent + 1 - s.digits.length := by
    rw [List.length_append, List.length_replicate]
    omega
  have hnumeral := Numeral.plain (.point hzero hfraction)
  rw [hexp, ← s.value_eq_scaled_zeros] at hnumeral
  rw [htext, List.append_assoc]
  exact hnumeral

/-- The whole part of a positional numeral is made of digits, and zeros where they run out. -/
theorem digits_whole (hs : Digits s.digits) (n : ℕ) :
    Digits (s.digits.take (n + 1) ++ List.replicate (n + 1 - s.digits.length) '0') := by
  refine Digits.append ⟨fun c hc => hs.digit c (List.mem_of_mem_take hc), ?_⟩ (isDigit_zeros _)
  obtain ⟨c, r, hcons⟩ := List.exists_cons_of_ne_nil hs.ne_nil
  rw [hcons]
  exact List.cons_ne_nil _ _

/-- A whole number is filled up with zeros. -/
theorem value_whole (hexp : 0 ≤ s.exponent) (hlen : s.digits.length ≤ s.exponent.toNat + 1) :
    s.value = scaled (s.digits.take (s.exponent.toNat + 1) ++
      List.replicate (s.exponent.toNat + 1 - s.digits.length) '0') 0 := by
  rw [scaled_append_zeros, List.take_of_length_le hlen, Scientific.value]
  congr 1
  omega

/-- **A number that is written in full denotes its value.** -/
theorem numeral_positional (hs : Digits s.digits) : Numeral (l.positional s) s.value := by
  have hwhole := digits_whole hs s.exponent.toNat
  unfold positional
  by_cases hneg : s.exponent < 0
  · rw [if_pos hneg]
    exact numeral_below_one hs hneg
  · rw [if_neg hneg]
    dsimp only
    split
    · rename_i hdrop
      have hvalue := value_whole (not_lt.mp hneg) (List.drop_eq_nil_iff.mp hdrop)
      split
      · have hzero := scaled_append_zeros (s.digits.take (s.exponent.toNat + 1) ++
          List.replicate (s.exponent.toNat + 1 - s.digits.length) '0') 1 (-1)
        have hnumeral := Numeral.plain (.point hwhole (digits_singleton (c := '0') (by decide)))
        rw [hvalue]
        exact hzero ▸ hnumeral
      · rw [hvalue]
        exact .plain (.whole hwhole)
    · rename_i fraction hdrop
      have hlen : s.exponent.toNat + 1 < s.digits.length := by
        by_contra hle
        exact hdrop (List.drop_eq_nil_of_le (not_lt.mp hle))
      have hfraction : Digits (s.digits.drop (s.exponent.toNat + 1)) :=
        ⟨fun c hc => hs.digit c (List.mem_of_mem_drop hc), hdrop⟩
      have hvalue : s.value = scaled (s.digits.take (s.exponent.toNat + 1) ++
          List.replicate (s.exponent.toNat + 1 - s.digits.length) '0' ++
            s.digits.drop (s.exponent.toNat + 1))
          (-((s.digits.drop (s.exponent.toNat + 1)).length : ℤ)) := by
        rw [Nat.sub_eq_zero_of_le hlen.le, List.replicate_zero, List.append_nil,
          List.take_append_drop, List.length_drop, Scientific.value]
        congr 1
        omega
      rw [hvalue]
      exact .plain (.point hwhole hfraction)

/-- An exponent without a sign is read as it stands. -/
theorem exponentOf_digits {es : List Char} (hes : Digits es) :
    exponentOf ('e' :: es) = Nat.ofDigitChars 10 es 0 := by
  obtain ⟨c, r, rfl⟩ := List.exists_cons_of_ne_nil hes.ne_nil
  have hc := hes.digit c List.mem_cons_self
  unfold exponentOf
  split
  · rename_i heq
    cases heq
  · rename_i heq
    cases heq
    cases hc
  · rename_i heq
    cases heq
    cases hc
  · rename_i heq
    cases heq
    rfl

/-- The exponent as a format spells it. -/
theorem exists_exponent (e : ℤ) : ∃ sign ∈ [[], ['-'], ['+']], ∃ es, Digits es ∧
    (if e < 0 then ['-'] else if l.plusSign then ['+'] else []) ++
        List.replicate (l.exponentWidth - (Nat.toDigits 10 e.natAbs).length) '0' ++
        Nat.toDigits 10 e.natAbs = sign ++ es ∧
      exponentOf ('e' :: (sign ++ es)) = e := by
  have hes : Digits (List.replicate (l.exponentWidth - (Nat.toDigits 10 e.natAbs).length) '0' ++
      Nat.toDigits 10 e.natAbs) :=
    ⟨List.forall_mem_append.mpr ⟨isDigit_zeros _, fun c hc =>
        Nat.isDigit_of_mem_toDigits (by decide) (by decide) hc⟩,
      fun h => Nat.toDigits_ne_nil (List.append_eq_nil_iff.mp h).2⟩
  have hvalue : Nat.ofDigitChars 10 (List.replicate
      (l.exponentWidth - (Nat.toDigits 10 e.natAbs).length) '0' ++ Nat.toDigits 10 e.natAbs) 0 =
      e.natAbs := by
    rw [Nat.ofDigitChars_append, Nat.ofDigitChars_replicate_zero, Nat.mul_zero,
      Nat.ofDigitChars_ten_toDigits]
  refine ⟨_, ?_, _, hes, List.append_assoc _ _ _, ?_⟩
  · split
    · simp
    · split
      · simp
      · simp
  · split
    · rename_i hneg
      simp only [List.singleton_append, exponentOf, hvalue]
      omega
    · split
      · simp only [List.singleton_append, exponentOf, hvalue]
        omega
      · rw [List.nil_append, exponentOf_digits hes, hvalue]
        omega

/-- **A number that is written with an exponent denotes its value.** -/
theorem numeral_withExponent (hs : Digits s.digits) : Numeral (l.withExponent s) s.value := by
  obtain ⟨sign, hsign, es, hes, htext, hexp⟩ := exists_exponent l s.exponent
  have hnumeral : ∀ {cs : List Char} {n : ℕ}, Significand cs s.digits n →
      Numeral (cs ++ 'e' :: (sign ++ es)) (scaled s.digits (s.exponent - n)) := fun h =>
    hexp ▸ Numeral.exponent h hsign hes
  rw [← htext, List.append_assoc] at hnumeral
  unfold withExponent Scientific.value
  rw [List.append_assoc, List.append_assoc]
  cases hdigits : s.digits with
  | nil => exact absurd hdigits hs.ne_nil
  | cons d r =>
    rw [hdigits] at hs hnumeral
    have hfirst := digits_singleton (hs.digit d List.mem_cons_self)
    cases r with
    | nil =>
      have hone : s.exponent + 1 - ([d].length : ℤ) = s.exponent - (0 : ℕ) := by simp
      rw [hone]
      exact hnumeral (.whole hs)
    | cons c r =>
      have hrest : Digits (c :: r) :=
        ⟨fun x hx => hs.digit x (List.mem_cons_of_mem _ hx), List.cons_ne_nil _ _⟩
      have hlength : s.exponent + 1 - ((d :: c :: r).length : ℤ) =
          s.exponent - ((c :: r).length : ℕ) := by
        simp only [List.length_cons]
        omega
      rw [hlength]
      exact hnumeral (.point hfirst hrest)

/-- **Every format writes a decimal as a text that denotes its value.** -/
theorem numeral_decimal (hs : Digits s.digits) : Numeral (l.decimal s) s.value := by
  unfold decimal
  split
  · exact numeral_positional l hs
  · exact numeral_withExponent l hs

end Layout

/-! ## Doubles -/

/-- The digits of a number on a grid are digits, and some. -/
theorem Scientific.digits_ofGrid (c : ℕ) (grid : ℤ) : Digits (ofGrid c grid).digits := by
  refine ⟨proper_ofGrid c grid, ?_⟩
  obtain ⟨d, r, hcons⟩ := List.exists_cons_of_ne_nil (@Nat.toDigits_ne_nil c 10)
  simp only [ofGrid, hcons, stripZeros]
  exact List.cons_ne_nil _ _

theorem Scientific.value_zero : zero.value = 0 := by
  simp [value, zero, scaled, Nat.ofDigitChars]

/-- The shortest digits of a number in range are digits, and some. -/
theorem Binary.digits_shortest (tie : Tie) {b : Binary} (hb : b.Canonical) :
    Digits (b.shortest tie).digits := by
  obtain ⟨c, grid, heq, -⟩ := search_eq_ofGrid tie hb 16 1 rfl
  rw [shortest, heq]
  exact Scientific.digits_ofGrid c grid

/-- A finite number that is not negative. -/
def Kind.isPlain : Kind → Bool
  | .zero negative | .finite negative _ => !negative
  | .nan | .infinite _ => false

/-- A number is plain if it is zero or finite, without a sign. -/
theorem Kind.isPlain_iff {k : Kind} :
    k.isPlain = true ↔ k = .zero false ∨ ∃ b, k = .finite false b := by
  cases k <;> simp [isPlain]

/-- `q` rounds to this double, which is finite and not negative. -/
def Kind.Holds : Kind → ℚ → Prop
  | .zero false, q => q = 0
  | .finite false b, q => b.Holds q
  | _, _ => False

/-- A plain number holds a rational number if it is zero and so is that, or if its parts hold it. -/
theorem Kind.holds_iff {k : Kind} {q : ℚ} :
    k.Holds q ↔ k = .zero false ∧ q = 0 ∨ ∃ b, k = .finite false b ∧ b.Holds q := by
  cases k with
  | nan => simp [Holds]
  | infinite n => simp [Holds]
  | zero n => cases n <;> simp [Holds]
  | finite n b => cases n <;> simp [Holds]

/-- **No two doubles share a number that rounds to both.** -/
theorem eq_of_holds {x y : Float} {q : ℚ} (hx : (classify x).Holds q) (hy : (classify y).Holds q) :
    x = y := by
  refine classify_injective ?_
  rcases Kind.holds_iff.mp hx with ⟨hcx, hq⟩ | ⟨b, hcx, hb⟩ <;>
    rcases Kind.holds_iff.mp hy with ⟨hcy, hq'⟩ | ⟨b', hcy, hb'⟩
  · rw [hcx, hcy]
  · exact absurd hq (hb'.pos (canonical_of_classify hcy)).ne'
  · exact absurd hq' (hb.pos (canonical_of_classify hcx)).ne'
  · rw [hcx, hcy, Binary.eq_of_holds (canonical_of_classify hcx) (canonical_of_classify hcy) hb hb']

namespace Layout

variable {l : Layout} {tie : Tie} (hl : l.precision = .shortest tie)
include hl

/-- A finite double that is not negative is written as a numeral of a number that rounds to it. -/
theorem numeral_write {x : Float} (hx : (classify x).isPlain = true) :
    ∃ v, Numeral (l.write x).toList v ∧ (classify x).Holds v := by
  unfold write
  rcases Kind.isPlain_iff.mp hx with hclass | ⟨b, hclass⟩
  · have hzero : Digits Scientific.zero.digits := digits_singleton (by decide)
    rw [hclass, String.toList_ofList]
    exact ⟨0, Scientific.value_zero ▸ numeral_decimal l hzero, rfl⟩
  · have hb := canonical_of_classify hclass
    rw [hclass, String.toList_ofList, digitsOf, hl]
    exact ⟨_, numeral_decimal l (b.digits_shortest tie hb), b.holds_shortest tie hb⟩

/-- **A format that writes the shortest digits never writes two finite doubles alike.** -/
theorem write_inj {x y : Float} (hx : (classify x).isPlain = true)
    (hy : (classify y).isPlain = true) (h : l.write x = l.write y) : x = y := by
  obtain ⟨v, hnumeral, hholds⟩ := numeral_write hl hx
  obtain ⟨w, hnumeral', hholds'⟩ := numeral_write hl hy
  have hvw : v = w := by rw [← hnumeral.valueOf_eq, h, hnumeral'.valueOf_eq]
  exact eq_of_holds hholds (hvw ▸ hholds')

end Layout

end GraphScript.Decimal
