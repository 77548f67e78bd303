import GraphScript.Proofs.Json.Token
import GraphScript.Proofs.Json.Yields
import GraphScript.Proofs.Literal

/-!
# Proofs/Json/Reads — readers read back what was written

`Reads r j a` says that `r` reads `a` off the text of the document `j`, whatever follows a value, as
long as `j` is not nested too deep.  Each way to put readers together has a lemma that goes with the
way in which the document is put together: arrays, records and variants.
-/

namespace GraphScript.Json

/-! ## Depth -/

mutual

/-- How many containers are open at most. -/
def depth : Json → Nat
  | .arr items => itemsDepth items + 1
  | .obj fields => fieldsDepth fields + 1
  | _ => 0

/-- The greatest depth of some items. -/
def itemsDepth : List Json → Nat
  | [] => 0
  | v :: r => max v.depth (itemsDepth r)

/-- The greatest depth of some fields. -/
def fieldsDepth : List (String × Json) → Nat
  | [] => 0
  | (_, v) :: r => max v.depth (fieldsDepth r)

end

/-- A tag takes up one level. -/
theorem depth_tagged (name : String) (j : Json) : (tagged name j).depth = j.depth + 1 := by
  simp only [tagged, depth, fieldsDepth, Nat.max_zero]

/-- A text that starts like a value: with no blank, and not like the end of an array. -/
def Opens (cs : List Char) : Prop := ∃ c tail, cs = c :: tail ∧ isBlank c = false ∧ c ≠ ']'

/-- A double whose text is read back as the same double. -/
def Legible (x : Float) : Prop := Reader.decode Reader.float (compact (.float x)) = .ok x

/-- The double that a number stands for. -/
def Numeral.toFloat : Numeral → Float
  | .int i => Float.ofInt i
  | .float x => x

namespace Reader

variable {α β σ : Type}

/-! ## Steps of a reader -/

section Steps

variable {levels : Nat} {cs rest : List Char}

/-- A step that succeeds goes on with what it left. -/
theorem run_bind_ok {r : Reader α} {f : α → Reader β} {a : α} (h : r levels cs = .ok (a, rest)) :
    (r >>= f) levels cs = f a levels rest := by
  change (r levels cs >>= fun p => f p.1 levels p.2) = _
  rw [h]
  rfl

theorem run_bind_error {r : Reader α} {f : α → Reader β} {e : Fault} (h : r levels cs = .error e) :
    (r >>= f) levels cs = .error e := by
  change (r levels cs >>= fun p => f p.1 levels p.2) = _
  rw [h]
  rfl

theorem peek_cons {c : Char} (h : isBlank c = false) (levels : Nat) (cs : List Char) :
    peek levels (c :: cs) = .ok (some c, c :: cs) := by
  have hskip : skipBlanks (c :: cs) = c :: cs := List.dropWhile_cons_of_neg (by rw [h]; decide)
  change Except.ok ((skipBlanks (c :: cs)).head?, skipBlanks (c :: cs)) = _
  rw [hskip]
  rfl

theorem token_eq (f : List Char → Except Fault (α × List Char)) (levels : Nat) (cs : List Char) :
    token f levels cs = f cs := by
  have hget : (get : Reader (List Char)) levels cs = .ok (cs, cs) := rfl
  rw [token, run_bind_ok hget]
  cases f cs with
  | error e => rfl
  | ok p => rfl

theorem skipping_ok {f : List Char → Except Fault (List Char)} (h : f cs = .ok rest)
    (levels : Nat) : skipping f levels cs = .ok ((), rest) := by
  have hget : (get : Reader (List Char)) levels cs = .ok (cs, cs) := rfl
  rw [skipping, run_bind_ok hget, h]
  rfl

/-- Inside, there is one level less. -/
theorem deeper_eq (r : Reader α) (h : 1 < levels) (cs : List Char) :
    deeper r levels cs = r (levels - 1) cs := by
  rw [deeper, if_neg (Nat.not_le.mpr h)]

end Steps

/-- A reader reads a value off the text of a document, whatever follows a value. -/
structure Reads (r : Reader α) (j : Json) (a : α) : Prop where
  opens : Opens j.chars
  read : ∀ levels rest, j.depth < levels → levels ≤ levelLimit → Stops rest →
    r levels (j.chars ++ rest) = .ok (a, rest)

/-! ## Scalars -/

/-- A text is written in quotes. -/
theorem stringText_append (s : String) (rest : List Char) :
    stringText s ++ rest = '"' :: (s.toList.flatMap escaped ++ '"' :: rest) := by
  rw [stringText, List.append_assoc]
  rfl

/-- A string can be told from what follows it, whatever that is. -/
theorem text_append (expected s : String) (levels : Nat) (rest : List Char) :
    text expected levels (stringText s ++ rest) = .ok (s, rest) := by
  rw [stringText_append, text, run_bind_ok (peek_cons rfl _ _)]
  exact (run_bind_ok rfl).trans ((token_eq string _ _).trans (string_append s rest))

/-- Texts come back. -/
theorem reads_text (expected s : String) : Reads (text expected) (.str s) s where
  opens := by
    rw [chars]
    exact ⟨'"', _, rfl, rfl, by decide⟩
  read levels rest _ _ _ := by
    rw [chars]
    exact text_append expected s levels rest

theorem reads_bool (b : Bool) : Reads bool (.bool b) b where
  opens := by
    rw [chars]
    cases b with
    | true => exact ⟨'t', _, rfl, by decide, by decide⟩
    | false => exact ⟨'f', _, rfl, by decide, by decide⟩
  read levels rest _ _ _ := by
    rw [chars]
    cases b with
    | true =>
      have hpeek := peek_cons (c := 't') (by decide) levels ("rue".toList ++ rest)
      have hword := skipping_ok (word_append "rue".toList rest) levels
      rw [bool]
      exact (run_bind_ok hpeek).trans ((run_bind_ok rfl).trans (run_bind_ok hword))
    | false =>
      have hpeek := peek_cons (c := 'f') (by decide) levels ("alse".toList ++ rest)
      have hword := skipping_ok (word_append "alse".toList rest) levels
      rw [bool]
      exact (run_bind_ok hpeek).trans ((run_bind_ok rfl).trans (run_bind_ok hword))

/-- What is done with a value that was read. -/
theorem Reads.bind {r : Reader α} {j : Json} {a : α} {b : β} (h : Reads r j a) {f : α → Reader β}
    (hf : ∀ levels rest, f a levels rest = .ok (b, rest)) : Reads (r >>= f) j b where
  opens := h.opens
  read levels rest hdepth hlimit hrest := by
    rw [run_bind_ok (h.read levels rest hdepth hlimit hrest), hf]

/-- What is made of a value that comes back comes back. -/
theorem Reads.map {r : Reader α} {j : Json} {a : α} (h : Reads r j a) (f : α → β) :
    Reads (do return f (← r)) j (f a) :=
  h.bind fun _ _ => rfl

theorem chars_natCast (n : Nat) : (Json.int n).chars = Nat.toDigits 10 n := by
  have htext : toString (n : Int) = toString n := rfl
  rw [chars, htext, Nat.toString_eq_ofList_toDigits, String.toList_ofList]

theorem exists_digit (n : Nat) : ∃ c tail, Nat.toDigits 10 n = c :: tail ∧ c.isDigit = true := by
  obtain ⟨c, tail, hdigits⟩ := List.exists_cons_of_ne_nil (Nat.toDigits_ne_nil (b := 10) (n := n))
  refine ⟨c, tail, hdigits, Nat.isDigit_of_mem_toDigits (b := 10) (n := n) ?_ ?_ ?_⟩
  · decide
  · decide
  · exact hdigits ▸ List.mem_cons_self

theorem isBlank_of_isDigit {c : Char} (h : c.isDigit = true) : isBlank c = false := by
  cases hblank : isBlank c with
  | false => rfl
  | true =>
    simp only [isBlank, Bool.or_eq_true, beq_iff_eq] at hblank
    obtain ((rfl | rfl) | rfl) | rfl := hblank <;> cases h

/-- A text without blanks. -/
def Solid (cs : List Char) : Prop := ∀ c ∈ cs, isBlank c = false

/-- A number starts with a minus or a digit. -/
theorem numeralOf_eq (expected : String) : ∃ next, numeralOf expected = (peek >>= next) ∧
    next (some '-') = (advance >>= fun _ => token (numeral true)) ∧
    ∀ c, c ≠ '-' →
      next (some c) = if c.isDigit then token (numeral false) else wrongType expected := by
  refine ⟨_, rfl, rfl, fun c hminus => ?_⟩
  split
  · rename_i heq
    exact absurd (Option.some.inj heq) hminus
  · rename_i heq
    rw [← Option.some.inj heq]
  · rename_i heq
    cases heq

/-- A sign is read before the digits. -/
theorem numeralOf_minus (expected : String) (levels : Nat) (cs : List Char) :
    numeralOf expected levels ('-' :: cs) = numeral true cs := by
  obtain ⟨next, hnumeral, hnext, -⟩ := numeralOf_eq expected
  rw [hnumeral, run_bind_ok (peek_cons rfl levels cs), hnext]
  exact (run_bind_ok rfl).trans (token_eq (numeral true) levels cs)

theorem numeralOf_digit {c : Char} (h : c.isDigit = true) (expected : String) (levels : Nat)
    (cs : List Char) : numeralOf expected levels (c :: cs) = numeral false (c :: cs) := by
  have hminus : c ≠ '-' := by
    rintro rfl
    cases h
  obtain ⟨next, hnumeral, -, hnext⟩ := numeralOf_eq expected
  rw [hnumeral, run_bind_ok (peek_cons (isBlank_of_isDigit h) levels cs), hnext c hminus, if_pos h]
  exact token_eq (numeral false) levels (c :: cs)

/-- What is read of a number is read of it before the end of a value. -/
theorem numeralOf_append {expected : String} {levels : Nat} {cs r : List Char} {n : Numeral}
    (hcs : Solid cs) (h : numeralOf expected levels cs = .ok (n, r)) :
    Opens cs ∧ r <:+ cs ∧ ∀ levels' rest, Stops rest →
      numeralOf expected levels' (cs ++ rest) = .ok (n, r ++ rest) := by
  cases cs with
  | nil => cases h
  | cons c cs =>
    have hblank : isBlank c = false := hcs c List.mem_cons_self
    by_cases hminus : c = '-'
    · subst hminus
      rw [numeralOf_minus] at h
      obtain ⟨hsuffix, hread⟩ := numeral_contained true cs n r h
      refine ⟨⟨'-', cs, rfl, rfl, by decide⟩, hsuffix.trans (List.suffix_cons _ _), ?_⟩
      intro levels' rest hrest
      rw [List.cons_append, numeralOf_minus]
      exact hread rest hrest
    · by_cases hdigit : c.isDigit = true
      · rw [numeralOf_digit hdigit] at h
        obtain ⟨hsuffix, hread⟩ := numeral_contained false (c :: cs) n r h
        refine ⟨⟨c, cs, rfl, hblank, ?_⟩, hsuffix, ?_⟩
        · rintro rfl
          cases hdigit
        · intro levels' rest hrest
          rw [List.cons_append, numeralOf_digit hdigit]
          exact hread rest hrest
      · obtain ⟨next, hnumeral, -, hnext⟩ := numeralOf_eq expected
        rw [hnumeral, run_bind_ok (peek_cons hblank levels cs), hnext c hminus, if_neg hdigit] at h
        exact (yields_wrongType (P := fun _ => False) expected levels _ n r h).elim

/-- A natural number that its type has room for. -/
theorem reads_unsigned {n bits : Nat} (expected : String) (hn : n < Nat.pow 2 bits)
    (hbits : bits ≤ 64) : Reads (unsigned expected bits) (.int n) n where
  opens := by
    obtain ⟨c, tail, hdigits, hc⟩ := exists_digit n
    exact ⟨c, tail, (chars_natCast n).trans hdigits, isBlank_of_isDigit hc, fun h => by
      subst h
      cases hc⟩
  read levels rest _ _ hrest := by
    have hlimit : n ≤ significandLimit :=
      Nat.le_of_lt_succ (Nat.lt_of_lt_of_le hn (Nat.pow_le_pow_right (by decide) hbits))
    have hnumeral : numeral false (Nat.toDigits 10 n ++ rest) = .ok (.int n, rest) :=
      (numeral_contained false _ _ _ (numeral_toDigits hlimit)).2 rest hrest
    obtain ⟨c, tail, hdigits, hc⟩ := exists_digit n
    rw [chars_natCast]
    rw [hdigits, List.cons_append, ← numeralOf_digit hc expected levels] at hnumeral
    have hbound : (0 : Int) ≤ n ∧ (n : Int) ≤ (Nat.pow 2 bits - 1 : Nat) :=
      ⟨Int.natCast_nonneg n, Int.ofNat_le.mpr (Nat.le_sub_one_of_lt hn)⟩
    have hinteger : integer expected 0 (Nat.pow 2 bits - 1 : Nat) levels (c :: (tail ++ rest)) =
        .ok ((n : Int), rest) := by
      rw [integer, run_bind_ok hnumeral]
      simp only [hbound, and_self, if_true]
      rfl
    rw [hdigits, unsigned, List.cons_append, run_bind_ok hinteger]
    rfl

theorem solid_null : Solid "null".toList := by
  intro c hc
  have hchars : "null".toList = ['n', 'u', 'l', 'l'] := rfl
  rw [hchars] at hc
  simp only [List.mem_cons, List.not_mem_nil, or_false] at hc
  obtain rfl | rfl | rfl | rfl := hc <;> rfl

/-- Numbers are solid. -/
theorem solid_of_marks {cs : List Char} (h : Decimal.Layout.Marks cs) : Solid cs := by
  intro c hc
  obtain hdigit | hmark := h c hc
  · exact isBlank_of_isDigit hdigit
  · simp only [List.mem_cons, List.not_mem_nil, or_false] at hmark
    obtain rfl | rfl | rfl | rfl := hmark <;> rfl

theorem solid_signed {negative : Bool} {cs : List Char} (h : Solid cs) :
    Solid (Decimal.Layout.signed negative cs) := by
  unfold Decimal.Layout.signed
  split
  · exact List.forall_mem_cons.mpr ⟨rfl, h⟩
  · exact h

theorem solid_floatText (x : Float) : Solid (floatText x) := by
  unfold floatText
  split
  · unfold Decimal.Layout.write
    split
    · exact solid_null
    · rw [String.toList_ofList]
      exact solid_signed solid_null
    · rw [String.toList_ofList]
      exact solid_signed (solid_of_marks
        (Decimal.Layout.marks_decimal number Decimal.Scientific.proper_zero))
    · rw [String.toList_ofList]
      exact solid_signed (solid_of_marks
        (Decimal.Layout.marks_decimal number (Decimal.Layout.proper_digitsOf number _)))
  · exact solid_null

/-- A double is read like any number. -/
theorem float_of_numeralOf {levels : Nat} {cs r : List Char} {n : Numeral}
    (h : numeralOf "f64" levels cs = .ok (n, r)) : float levels cs = .ok (n.toFloat, r) := by
  rw [float, run_bind_ok h]
  cases n with
  | int i => rfl
  | float x => rfl

theorem Solid.skipBlanks_eq {cs : List Char} (h : Solid cs) : skipBlanks cs = cs := by
  cases cs with
  | nil => rfl
  | cons c cs => exact List.dropWhile_cons_of_neg (by rw [h c List.mem_cons_self]; decide)

/-- A double that is read back from its own text is read back from it in a document. -/
theorem reads_float {x : Float} (h : Legible x) : Reads float (.float x) x := by
  have hdecode : decode float (compact (.float x)) =
      (float levelLimit (floatText x)).bind fun p =>
        if (skipBlanks p.2).isEmpty then .ok p.1 else .error .trailingCharacters := by
    rw [decode, compact, String.toList_ofList, chars]
    rfl
  rw [Legible, hdecode] at h
  cases hnumeral : numeralOf "f64" levelLimit (floatText x) with
  | error e =>
    have hfloat : float levelLimit (floatText x) = .error e := run_bind_error hnumeral
    rw [hfloat] at h
    cases h
  | ok p =>
    obtain ⟨n, r⟩ := p
    obtain ⟨hopens, hsuffix, hread⟩ := numeralOf_append (solid_floatText x) hnumeral
    have hsolid : Solid r := fun c hc => solid_floatText x c (hsuffix.subset hc)
    rw [float_of_numeralOf hnumeral, Except.bind, hsolid.skipBlanks_eq] at h
    split at h
    · rename_i hend
      obtain rfl : n.toFloat = x := Except.ok.inj h
      obtain rfl : r = [] := List.isEmpty_iff.mp hend
      refine ⟨by rw [chars]; exact hopens, fun levels rest _ _ hrest => ?_⟩
      rw [chars]
      exact float_of_numeralOf (hread levels rest hrest)
    · cases h

/-- The reader rounds where it scales by a power of ten, so not every double is legible. -/
example : (decode float (compact (.float 1e-23))).toOption.map Float.toBits ≠
    some (Float.toBits 1e-23) := by decide +kernel

/-- A value that is there comes back as one, if it does not look like the one for none. -/
theorem reads_some {r : Reader α} {j : Json} {a : α} (h : Reads r j a)
    (hnull : j.chars.head? ≠ some 'n') : Reads (option r) j (some a) where
  opens := h.opens
  read levels rest hdepth hlimit hrest := by
    obtain ⟨c, tail, hchars, hblank, -⟩ := h.opens
    have hc : some c ≠ some 'n' := fun hc => hnull (by rw [hchars, ← hc]; rfl)
    have hread := h.read levels rest hdepth hlimit hrest
    obtain ⟨next, hoption, hnext⟩ : ∃ next, option r = (peek >>= next) ∧
        ∀ d, d ≠ some 'n' → next d = (do return some (← r)) := by
      refine ⟨_, rfl, fun d hd => ?_⟩
      split
      · exact absurd rfl hd
      · rfl
    rw [hchars, List.cons_append] at hread ⊢
    rw [hoption, run_bind_ok (peek_cons hblank levels (tail ++ rest)), hnext _ hc]
    exact run_bind_ok hread

/-! ## Arrays -/

/-- What follows an item: others, or the end of the array. -/
def moreItems : List Json → List Char
  | [] => [']']
  | v :: r => ',' :: v.chars ++ moreItems r

theorem itemChars_cons (v : Json) (r : List Json) :
    itemChars (v :: r) = v.chars ++ moreItems r := by
  induction r generalizing v with
  | nil => rw [itemChars, moreItems]
  | cons w r ih =>
    rw [itemChars, ih, moreItems]
    · rfl
    · exact List.cons_ne_nil w r

theorem stops_moreItems (items : List Json) (rest : List Char) :
    Stops (moreItems items ++ rest) := by
  cases items with
  | nil => exact stops_cons (.inr (.inl rfl)) _
  | cons v r => exact stops_cons (.inl rfl) _

/-- There are at least as many characters as items. -/
theorem length_le_moreItems (items : List Json) : items.length ≤ (moreItems items).length := by
  induction items with
  | nil => exact Nat.zero_le _
  | cons v r ih =>
    rw [moreItems, List.length_cons, List.cons_append, List.length_cons, List.length_append]
    omega

theorem length_le_itemChars {items : List Json} (h : ∀ v ∈ items, Opens v.chars) :
    items.length ≤ (itemChars items).length := by
  cases items with
  | nil => exact Nat.zero_le _
  | cons v r =>
    obtain ⟨c, tail, hchars, -⟩ := h v List.mem_cons_self
    have hmore := length_le_moreItems r
    rw [itemChars_cons, hchars, List.length_append, List.length_cons, List.length_cons]
    omega

section Elements

variable {r : Reader α} {levels : Nat} {rest : List Char}

/-- An array ends at its bracket. -/
theorem element?_end (isFirst : Bool) : element? isFirst r levels (']' :: rest) =
    .ok (none, ']' :: rest) := by
  rw [element?, run_bind_ok (peek_cons rfl levels rest)]
  rfl

theorem element?_first {j : Json} {a : α} (h : Reads r j a) (hdepth : j.depth < levels)
    (hlimit : levels ≤ levelLimit) (hrest : Stops rest) :
    element? true r levels (j.chars ++ rest) = .ok (some a, rest) := by
  obtain ⟨c, tail, hchars, hblank, hend⟩ := h.opens
  have hread := h.read levels rest hdepth hlimit hrest
  rw [hchars, List.cons_append] at hread ⊢
  rw [element?, run_bind_ok (peek_cons hblank levels _)]
  simp only [hend, if_false]
  exact run_bind_ok hread

/-- An item is read behind a comma. -/
theorem element?_next {j : Json} {a : α} (h : Reads r j a) (hdepth : j.depth < levels)
    (hlimit : levels ≤ levelLimit) (hrest : Stops rest) :
    element? false r levels (',' :: (j.chars ++ rest)) = .ok (some a, rest) := by
  obtain ⟨c, tail, hchars, hblank, hend⟩ := h.opens
  have hread := h.read levels rest hdepth hlimit hrest
  rw [hchars, List.cons_append] at hread ⊢
  have hcomma : ',' ≠ ']' := by decide
  rw [element?, run_bind_ok (peek_cons rfl levels _)]
  simp only [hcomma, if_false, Bool.not_false, if_true, ne_eq, not_true]
  refine (run_bind_ok rfl).trans ((run_bind_ok (peek_cons hblank levels (tail ++ rest))).trans ?_)
  simp only [hend, if_false]
  exact run_bind_ok hread

/-- The items that follow one are read up to the end of the array. -/
theorem elements_moreItems {f : α → Json} {as : List α} (h : ∀ a ∈ as, Reads r (f a) a)
    (hdepth : ∀ a ∈ as, (f a).depth < levels) (hlimit : levels ≤ levelLimit) {fuel : Nat}
    (hfuel : as.length < fuel) (rest : List Char) :
    elements r fuel false levels (moreItems (as.map f) ++ rest) = .ok (as, ']' :: rest) := by
  induction as generalizing fuel with
  | nil =>
    obtain ⟨fuel, rfl⟩ := Nat.exists_eq_succ_of_ne_zero (Nat.ne_zero_of_lt hfuel)
    exact run_bind_ok (element?_end false)
  | cons a as ih =>
    obtain ⟨fuel, rfl⟩ := Nat.exists_eq_succ_of_ne_zero (Nat.ne_zero_of_lt hfuel)
    obtain ⟨ha, has⟩ := List.forall_mem_cons.mp h
    obtain ⟨hdeptha, hdepthas⟩ := List.forall_mem_cons.mp hdepth
    have helement := element?_next ha hdeptha hlimit (stops_moreItems (as.map f) rest)
    have hmore := ih has hdepthas (Nat.lt_of_succ_lt_succ hfuel)
    rw [List.map_cons, moreItems, List.cons_append, List.cons_append, List.append_assoc, elements]
    exact (run_bind_ok helement).trans (run_bind_ok hmore)

/-- **The items of an array come back**, in order. -/
theorem elements_itemChars {f : α → Json} {as : List α} (h : ∀ a ∈ as, Reads r (f a) a)
    (hdepth : ∀ a ∈ as, (f a).depth < levels) (hlimit : levels ≤ levelLimit) {fuel : Nat}
    (hfuel : as.length < fuel) (rest : List Char) :
    elements r fuel true levels (itemChars (as.map f) ++ rest) = .ok (as, ']' :: rest) := by
  obtain ⟨fuel, rfl⟩ := Nat.exists_eq_succ_of_ne_zero (Nat.ne_zero_of_lt hfuel)
  cases as with
  | nil =>
    rw [List.map_nil, itemChars, elements]
    exact run_bind_ok (element?_end true)
  | cons a as =>
    obtain ⟨ha, has⟩ := List.forall_mem_cons.mp h
    obtain ⟨hdeptha, hdepthas⟩ := List.forall_mem_cons.mp hdepth
    have helement := element?_first ha hdeptha hlimit (stops_moreItems (as.map f) rest)
    have hmore := elements_moreItems has hdepthas hlimit (Nat.lt_of_succ_lt_succ hfuel) rest
    rw [List.map_cons, itemChars_cons, List.append_assoc, elements]
    exact (run_bind_ok helement).trans (run_bind_ok hmore)

theorem endArray_eq : endArray levels (']' :: rest) = .ok ((), rest) := by
  rw [endArray, run_bind_ok (peek_cons rfl levels rest)]
  rfl

end Elements

/-- No item is deeper than all of them. -/
theorem depth_le_itemsDepth {items : List Json} {v : Json} (h : v ∈ items) :
    v.depth ≤ itemsDepth items := by
  induction items with
  | nil => cases h
  | cons w r ih =>
    rw [itemsDepth]
    obtain rfl | h := List.mem_cons.mp h
    · exact Nat.le_max_left _ _
    · exact Nat.le_trans (ih h) (Nat.le_max_right _ _)

/-- **An array is read back where its items are.** -/
theorem reads_arrayOf (expected : String) {r : Reader α} {f : α → Json} {as : List α}
    (h : ∀ a ∈ as, Reads r (f a) a) : Reads (arrayOf expected r) (.arr (as.map f)) as where
  opens := by
    rw [chars]
    exact ⟨'[', _, rfl, rfl, by decide⟩
  read levels rest hdepth hlimit _ := by
    rw [depth] at hdepth
    have hitems : ∀ a ∈ as, (f a).depth < levels - 1 := fun a ha => by
      have := depth_le_itemsDepth (List.mem_map_of_mem (f := f) ha)
      omega
    have hfuel : as.length < (itemChars (as.map f) ++ rest).length + 1 := by
      have hopens : ∀ v ∈ as.map f, Opens v.chars :=
        List.forall_mem_map.mpr fun a ha => (h a ha).opens
      have hlength := length_le_itemChars hopens
      rw [List.length_map] at hlength
      rw [List.length_append]
      omega
    have helements :=
      elements_itemChars h hitems (Nat.le_trans (Nat.sub_le _ _) hlimit) hfuel rest
    rw [chars, arrayOf, List.cons_append, run_bind_ok (peek_cons rfl levels _)]
    refine Eq.trans (run_bind_ok (?_ : _ = Except.ok (as, ']' :: rest))) (run_bind_ok endArray_eq)
    rw [deeper_eq _ (show 1 < levels by omega)]
    exact (run_bind_ok rfl).trans ((run_bind_ok rfl).trans helements)

/-- **Arrays come back** whose items do. -/
theorem reads_array {r : Reader α} {f : α → Json} {as : List α} (h : ∀ a ∈ as, Reads r (f a) a) :
    Reads (array r) (.arr (as.map f)) as := reads_arrayOf "a sequence" h

/-- A pair is read back where its parts are. -/
theorem reads_pair {r : Reader α} {s : Reader β} {j k : Json} {a : α} {b : β} (hr : Reads r j a)
    (hs : Reads s k b) : Reads (pair r s) (.arr [j, k]) (a, b) where
  opens := by
    rw [chars]
    exact ⟨'[', _, rfl, rfl, by decide⟩
  read levels rest hdepth hlimit _ := by
    simp only [depth, itemsDepth] at hdepth
    have hinner : levels - 1 ≤ levelLimit := Nat.le_trans (Nat.sub_le _ _) hlimit
    have hfirst := element?_first hr (show j.depth < levels - 1 by omega) hinner
      (stops_moreItems [k] rest)
    have hsecond := element?_next hs (show k.depth < levels - 1 by omega) hinner
      (stops_moreItems [] rest)
    have htext : (Json.arr [j, k]).chars ++ rest = '[' :: (j.chars ++ (moreItems [k] ++ rest)) := by
      rw [chars, itemChars_cons, List.cons_append, List.append_assoc]
    have hmore : moreItems [k] ++ rest = ',' :: (k.chars ++ (moreItems [] ++ rest)) :=
      congrArg (',' :: ·) (List.append_assoc _ _ _)
    rw [hmore] at hfirst
    rw [htext, hmore, pair, run_bind_ok (peek_cons rfl levels _)]
    refine Eq.trans (run_bind_ok (?_ : _ = Except.ok ((a, b), ']' :: rest)))
      (run_bind_ok endArray_eq)
    rw [deeper_eq _ (show 1 < levels by omega)]
    exact (run_bind_ok rfl).trans ((run_bind_ok hfirst).trans (run_bind_ok hsecond))

/-! ## Objects -/

/-- A field as it is written. -/
def fieldText (f : String × Json) : List Char := stringText f.1 ++ ':' :: f.2.chars

/-- What follows a field: others, or the end of the object. -/
def moreFields : List (String × Json) → List Char
  | [] => ['\x7d']
  | f :: r => ',' :: fieldText f ++ moreFields r

theorem fieldChars_cons (f : String × Json) (r : List (String × Json)) :
    fieldChars (f :: r) = fieldText f ++ moreFields r := by
  induction r generalizing f with
  | nil => rw [fieldChars, moreFields, fieldText, List.append_assoc]
  | cons g r ih =>
    rw [fieldChars, ih, moreFields]
    · simp only [fieldText, List.append_assoc, List.cons_append]
    · exact List.cons_ne_nil g r

theorem stops_moreFields (fields : List (String × Json)) (rest : List Char) :
    Stops (moreFields fields ++ rest) := by
  cases fields with
  | nil => exact stops_cons (.inr (.inr rfl)) _
  | cons f r => exact stops_cons (.inl rfl) _

/-- There are at least as many characters as fields. -/
theorem length_le_moreFields (fields : List (String × Json)) :
    fields.length ≤ (moreFields fields).length := by
  induction fields with
  | nil => exact Nat.zero_le _
  | cons f r ih =>
    rw [moreFields, List.length_cons, List.cons_append, List.length_cons, List.length_append]
    omega

theorem length_le_fieldChars (fields : List (String × Json)) :
    fields.length ≤ (fieldChars fields).length := by
  cases fields with
  | nil => exact Nat.zero_le _
  | cons f r =>
    have hmore := length_le_moreFields r
    rw [fieldChars_cons, fieldText, stringText, List.cons_append, List.cons_append,
      List.cons_append, List.length_cons, List.length_cons, List.length_append]
    omega

section Keys

variable (levels : Nat) (rest : List Char)

/-- An object ends at its brace. -/
theorem key?_end (isFirst : Bool) :
    key? isFirst levels ('\x7d' :: rest) = .ok (false, '\x7d' :: rest) := by
  rw [key?, run_bind_ok (peek_cons rfl levels rest)]
  rfl

theorem key?_first : key? true levels ('"' :: rest) = .ok (true, '"' :: rest) := by
  rw [key?, run_bind_ok (peek_cons rfl levels rest)]
  rfl

theorem key?_next : key? false levels (',' :: '"' :: rest) = .ok (true, '"' :: rest) := by
  rw [key?, run_bind_ok (peek_cons rfl levels ('"' :: rest))]
  exact (run_bind_ok rfl).trans (run_bind_ok (peek_cons rfl levels rest))

theorem colon_eq : colon levels (':' :: rest) = .ok ((), rest) := by
  rw [colon, run_bind_ok (peek_cons rfl levels rest)]
  rfl

theorem endObject_eq : endObject levels ('\x7d' :: rest) = .ok ((), rest) := by
  rw [endObject, run_bind_ok (peek_cons rfl levels rest)]
  rfl

end Keys

/-- A step of an object takes a field and goes from one draft to another. -/
def Takes (step : σ → Reader σ) (s : σ) (f : String × Json) (s' : σ) : Prop :=
  ∀ levels rest, f.2.depth < levels → levels ≤ levelLimit → Stops rest →
    step s levels (fieldText f ++ rest) = .ok (s', rest)

/-- The steps of an object take fields one after the other. -/
inductive Filled (step : σ → Reader σ) : σ → List (String × Json) → σ → Prop where
  | nil (s : σ) : Filled step s [] s
  | cons {s s' s'' : σ} {f : String × Json} {fields : List (String × Json)}
    (h : Takes step s f s') (hmore : Filled step s' fields s'') : Filled step s (f :: fields) s''

theorem fieldText_append (f : String × Json) (rest : List Char) :
    ∃ tail, fieldText f ++ rest = '"' :: tail := by
  rw [fieldText, stringText]
  exact ⟨_, rfl⟩

/-- **The fields of an object are taken in turn**, behind the first. -/
theorem fieldsOf_moreFields {step : σ → Reader σ} {s s' : σ} {fields : List (String × Json)}
    (h : Filled step s fields s') {levels : Nat} (hdepth : fieldsDepth fields < levels)
    (hlimit : levels ≤ levelLimit) {fuel : Nat} (hfuel : fields.length < fuel) (rest : List Char) :
    fieldsOf step fuel false s levels (moreFields fields ++ rest) = .ok (s', '\x7d' :: rest) := by
  induction h generalizing fuel with
  | nil s =>
    obtain ⟨fuel, rfl⟩ := Nat.exists_eq_succ_of_ne_zero (Nat.ne_zero_of_lt hfuel)
    exact run_bind_ok (key?_end levels rest false)
  | @cons s s' s'' f fields h _ ih =>
    obtain ⟨fuel, rfl⟩ := Nat.exists_eq_succ_of_ne_zero (Nat.ne_zero_of_lt hfuel)
    rw [fieldsDepth] at hdepth
    have hstep := h levels (moreFields fields ++ rest) (by omega) hlimit
      (stops_moreFields fields rest)
    have hmore := ih (by omega) (Nat.lt_of_succ_lt_succ hfuel)
    obtain ⟨tail, htail⟩ := fieldText_append f (moreFields fields ++ rest)
    rw [htail] at hstep
    rw [moreFields, List.cons_append, List.cons_append, List.append_assoc, htail, fieldsOf,
      run_bind_ok (key?_next levels tail)]
    exact (run_bind_ok hstep).trans hmore

/-- The fields of an object are taken in turn from the first on. -/
theorem fieldsOf_fieldChars {step : σ → Reader σ} {s s' : σ} {fields : List (String × Json)}
    (h : Filled step s fields s') {levels : Nat} (hdepth : fieldsDepth fields < levels)
    (hlimit : levels ≤ levelLimit) {fuel : Nat} (hfuel : fields.length < fuel) (rest : List Char) :
    fieldsOf step fuel true s levels (fieldChars fields ++ rest) = .ok (s', '\x7d' :: rest) := by
  obtain ⟨fuel, rfl⟩ := Nat.exists_eq_succ_of_ne_zero (Nat.ne_zero_of_lt hfuel)
  cases h with
  | nil s =>
    rw [fieldChars]
    exact run_bind_ok (key?_end levels rest true)
  | @cons s s' s'' f fields h hrest =>
    rw [fieldsDepth] at hdepth
    have hstep := h levels (moreFields fields ++ rest) (by omega) hlimit
      (stops_moreFields fields rest)
    have hmore := fieldsOf_moreFields hrest (show fieldsDepth fields < levels by omega) hlimit
      (Nat.lt_of_succ_lt_succ hfuel) rest
    obtain ⟨tail, htail⟩ := fieldText_append f (moreFields fields ++ rest)
    rw [htail] at hstep
    rw [fieldChars_cons, List.append_assoc, htail, fieldsOf, run_bind_ok (key?_first levels tail)]
    exact (run_bind_ok hstep).trans hmore

/-- An object is read by the steps that take its fields. -/
theorem objectFrom_eq {step : σ → Reader σ} {s s' : σ} {fields : List (String × Json)}
    (h : Filled step s fields s') {levels : Nat} (hdepth : fieldsDepth fields + 1 < levels)
    (hlimit : levels ≤ levelLimit) (rest : List Char) :
    objectFrom s step levels ('\x7b' :: (fieldChars fields ++ rest)) = .ok (s', rest) := by
  have hfuel : fields.length < (fieldChars fields ++ rest).length + 1 := by
    have hlength := length_le_fieldChars fields
    rw [List.length_append]
    omega
  have hfields := fieldsOf_fieldChars h (show fieldsDepth fields < levels - 1 by omega)
    (Nat.le_trans (Nat.sub_le _ _) hlimit) hfuel rest
  refine Eq.trans (run_bind_ok (?_ : _ = Except.ok (s', '\x7d' :: rest)))
    (run_bind_ok (endObject_eq levels rest))
  rw [deeper_eq _ (show 1 < levels by omega)]
  exact (run_bind_ok rfl).trans ((run_bind_ok rfl).trans hfields)

/-! ## Records -/

/-- A field that is not set yet is set to what it is read as. -/
theorem takes_fieldStep {fields : List (Field σ)} {name : String} {f : Field σ} {draft : σ}
    {j : Json} {set : σ → σ} (hfind : fields.find? (·.name == name) = some f)
    (hset : f.isSet draft = false) (h : Reads f.read j set) :
    Takes (fieldStep fields) draft (name, j) (set draft) := by
  intro levels rest hdepth hlimit hrest
  have hread := h.read levels rest hdepth hlimit hrest
  have htext : fieldText (name, j) ++ rest =
      '"' :: (name.toList.flatMap escaped ++ '"' :: ':' :: (j.chars ++ rest)) := by
    rw [fieldText, List.append_assoc, stringText_append]
    rfl
  have hname : token string levels
      (name.toList.flatMap escaped ++ '"' :: ':' :: (j.chars ++ rest)) =
        .ok (name, ':' :: (j.chars ++ rest)) :=
    (token_eq string _ _).trans (string_append name _)
  rw [htext]
  refine (run_bind_ok rfl).trans ((run_bind_ok hname).trans ?_)
  rw [hfind]
  simp only [hset]
  exact (run_bind_ok (colon_eq levels _)).trans (run_bind_ok hread)

/-- A field that was not set yet is set to what was written. -/
theorem takes_field {fields : List (Field σ)} {name : String} {isRequired : Bool} {r : Reader α}
    {get : σ → Option α} {set : α → σ → σ}
    (hfind : fields.find? (·.name == name) =
      some ⟨name, isRequired, fun s => (get s).isSome, do return set (← r)⟩)
    {draft : σ} (hget : get draft = none) {j : Json} {a : α} (h : Reads r j a) :
    Takes (fieldStep fields) draft (name, j) (set a draft) :=
  takes_fieldStep hfind (congrArg Option.isSome hget) (h.map set)

/-- **A record is read back where the fields that were written fill its draft.** -/
theorem reads_record {s : Shape σ α} {fields : List (String × Json)} {draft : σ} {a : α}
    (h : Filled (fieldStep s.fields) s.start fields draft) (hbuild : s.build draft = .ok a) :
    Reads (record s) (.obj fields) a where
  opens := by
    rw [chars]
    exact ⟨'\x7b', _, rfl, rfl, by decide⟩
  read levels rest hdepth hlimit _ := by
    rw [depth] at hdepth
    rw [chars, List.cons_append, record, run_bind_ok (peek_cons rfl levels _)]
    refine (run_bind_ok (objectFrom_eq h hdepth hlimit rest)).trans ?_
    simp only [hbuild]
    rfl

/-! ## Tables -/

/-- The step that takes an entry of a table. -/
def entryStep (r : Reader α) (entries : List (String × α)) : Reader (List (String × α)) := do
  let k ← str
  colon
  return (k, ← r) :: entries

/-- Entries are collected one before the other. -/
theorem filled_entries {r : Reader α} {f : α → Json} {es : List (String × α)}
    (h : ∀ e ∈ es, Reads r (f e.2) e.2) (before : List (String × α)) :
    Filled (entryStep r) before (es.map fun e => (e.1, f e.2)) (es.reverse ++ before) := by
  induction es generalizing before with
  | nil => exact .nil before
  | cons e es ih =>
    obtain ⟨he, hes⟩ := List.forall_mem_cons.mp h
    have hstep : Takes (entryStep r) before (e.1, f e.2) (e :: before) := by
      intro levels rest hdepth hlimit hrest
      have hread := he.read levels rest hdepth hlimit hrest
      rw [fieldText, List.append_assoc]
      exact (run_bind_ok (text_append _ e.1 levels _)).trans
        ((run_bind_ok (colon_eq levels _)).trans (run_bind_ok hread))
    rw [List.reverse_cons, List.append_assoc]
    exact .cons hstep (ih hes (e :: before))

/-- **A table is read back where its values are**, in the order in which it was written. -/
theorem reads_entries {r : Reader α} {f : α → Json} {es : List (String × α)}
    (h : ∀ e ∈ es, Reads r (f e.2) e.2) :
    Reads (entries str r) (.obj (es.map fun e => (e.1, f e.2))) es where
  opens := by
    rw [chars]
    exact ⟨'\x7b', _, rfl, rfl, by decide⟩
  read levels rest hdepth hlimit _ := by
    have hfilled := filled_entries h []
    rw [List.append_nil] at hfilled
    rw [depth] at hdepth
    rw [chars, List.cons_append, entries, run_bind_ok (peek_cons rfl levels _)]
    refine (run_bind_ok (objectFrom_eq hfilled hdepth hlimit rest)).trans ?_
    rw [List.reverse_reverse]
    rfl

/-! ## Variants -/

section Variants

variable {vs : List (Variant α)} {name : String} {a : α}

theorem findVariant_eq {v : Variant α} (h : vs.find? (·.name == name) = some v) :
    findVariant vs name = pure v := by
  rw [findVariant, h]

/-- A form without content is read back from its name. -/
theorem reads_plain (h : vs.find? (·.name == name) = some (.plain name a)) :
    Reads (variant vs) (.str name) a where
  opens := (reads_text "" name).opens
  read levels rest _ _ _ := by
    have hname : token string levels (name.toList.flatMap escaped ++ '"' :: rest) =
        .ok (name, rest) := (token_eq string _ _).trans (string_append name rest)
    rw [chars, stringText_append, variant, run_bind_ok (peek_cons rfl levels _)]
    refine (run_bind_ok rfl).trans ((run_bind_ok hname).trans ?_)
    rw [findVariant_eq h]
    rfl

/-- A form with content is read back where its content is. -/
theorem reads_tagged {r : Reader α} {j : Json}
    (h : vs.find? (·.name == name) = some (.wrapping name r) ∨
      vs.find? (·.name == name) = some (.recordLike name r)) (hr : Reads r j a) :
    Reads (variant vs) (.tagged name j) a where
  opens := by
    rw [tagged, chars]
    exact ⟨'\x7b', _, rfl, rfl, by decide⟩
  read levels rest hdepth hlimit _ := by
    simp only [tagged, depth, fieldsDepth] at hdepth
    have htext : (tagged name j).chars ++ rest =
        '\x7b' :: (stringText name ++ ':' :: (j.chars ++ '\x7d' :: rest)) := by
      rw [tagged, chars, fieldChars_cons, fieldText, moreFields]
      simp only [List.append_assoc, List.cons_append, List.nil_append]
    have hread := hr.read (levels - 1) ('\x7d' :: rest) (by omega)
      (Nat.le_trans (Nat.sub_le _ _) hlimit) (stops_cons (.inr (.inr rfl)) rest)
    have hcontent : (colon >>= fun _ => r) (levels - 1) (':' :: (j.chars ++ '\x7d' :: rest)) =
        .ok (a, '\x7d' :: rest) := (run_bind_ok (colon_eq (levels - 1) _)).trans hread
    rw [htext, variant, run_bind_ok (peek_cons rfl levels _)]
    refine Eq.trans (run_bind_ok (?_ : _ = Except.ok (a, '\x7d' :: rest)))
      (run_bind_ok (peek_cons rfl levels rest))
    rw [deeper_eq _ (show 1 < levels by omega)]
    refine (run_bind_ok rfl).trans ((run_bind_ok (text_append _ name _ _)).trans ?_)
    obtain h | h := h
    · rw [findVariant_eq h]
      exact hcontent
    · rw [findVariant_eq h]
      exact hcontent

end Variants

/-! ## Whole documents -/

/-- **A document that is not nested too deep is read back from its text.** -/
theorem Reads.decode_compact {r : Reader α} {j : Json} {a : α} (h : Reads r j a)
    (hdepth : j.depth < levelLimit) : decode r j.compact = .ok a := by
  have hread := h.read levelLimit [] hdepth (Nat.le_refl _) stops_nil
  rw [List.append_nil] at hread
  have hdecode : decode r j.compact = (r levelLimit j.chars).bind fun p =>
      if (skipBlanks p.2).isEmpty then .ok p.1 else .error .trailingCharacters := by
    rw [decode, compact, String.toList_ofList]
    rfl
  rw [hdecode, hread]
  rfl

/-- A document that is nested too deep need not be read. -/
theorem reads_of_depth {r : Reader α} {j : Json} {a : α} (hopens : Opens j.chars)
    (h : j.depth ≤ levelLimit → Reads r j a) : Reads r j a where
  opens := hopens
  read levels rest hdepth hlimit hrest :=
    (h (Nat.le_of_lt (Nat.lt_of_lt_of_le hdepth hlimit))).read levels rest hdepth hlimit hrest

end Reader

end GraphScript.Json
