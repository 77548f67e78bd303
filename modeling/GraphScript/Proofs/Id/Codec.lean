import GraphScript.Proofs.Id.Token
import Mathlib.Tactic.Ring

/-!
# Proofs/Id/Codec — tokens and variables are the same thing written in two ways

A token is ASCII, so its bytes are its digits (`bytesOf_token`).  Reading digits appends their
values (`nibbles_hexBytes`) and stops at the first byte that is none (`nibbles_append`); and bytes
that are all digits are those of a number (`exists_eq_hexBytes`).  So a text is read as a variable
exactly if it is that variable's token, and every other text is refused for its length or for the
first byte that is no digit (`token_codec`).
-/

namespace GraphScript

namespace Text

/-- The bytes of a text. -/
def bytesOf (s : String) : List UInt8 := s.toUTF8.toList

/-- Collecting bytes one by one gives all of them. -/
theorem toList_eq_data (bytes : ByteArray) : bytes.toList = bytes.data.toList := by
  have hloop : ∀ (i : Nat) (acc : List UInt8),
      ByteArray.toList.loop bytes i acc = acc.reverse ++ bytes.data.toList.drop i := by
    intro i acc
    induction i, acc using ByteArray.toList.loop.induct bytes with
    | case1 i acc hi ih =>
      have hlt : i < bytes.data.toList.length := hi
      have hget : bytes.get! i = bytes.data.toList[i] := by
        rw [Array.getElem_toList]
        exact getElem!_pos bytes.data i hi
      rw [ByteArray.toList.loop, if_pos hi, ih, List.reverse_cons, List.append_assoc, hget,
        List.singleton_append, ← List.drop_eq_getElem_cons]
    | case2 i acc hi =>
      have hle : bytes.data.toList.length ≤ i := Nat.le_of_not_lt hi
      rw [ByteArray.toList.loop, if_neg hi, List.drop_eq_nil_of_le hle, List.append_nil]
  exact hloop 0 []

/-- A text is known by its bytes. -/
theorem bytesOf_injective : Function.Injective bytesOf := by
  intro s t h
  rw [bytesOf, bytesOf, toList_eq_data, toList_eq_data] at h
  exact String.toByteArray_inj.mp (ByteArray.ext (Array.toList_inj.mp h))

/-- A text of ASCII characters has a byte for each. -/
theorem bytesOf_ofList {cs : List Char} (h : ∀ c ∈ cs, c.utf8Size = 1) :
    bytesOf (String.ofList cs) = cs.map (·.val.toUInt8) := by
  rw [bytesOf, toList_eq_data, String.toUTF8_eq_toByteArray, String.toByteArray_ofList,
    List.utf8Encode, List.data_toByteArray, List.flatMap_def]
  have hsingle : cs.map String.utf8EncodeChar = (cs.map (·.val.toUInt8)).map ([·]) := by
    rw [List.map_map]
    exact List.map_congr_left fun c hc => String.utf8EncodeChar_eq_singleton (h c hc)
  rw [hsingle, ← List.flatMap_def, List.flatMap_singleton']

end Text

open Text (bytesOf bytesOf_injective)

/-! ## Digits -/

/-- The digits of tokens, in the order of their values. -/
def hexAlphabet : List Char := "0123456789abcdef".toList

/-- The byte is a digit of tokens. -/
def IsHexByte (b : UInt8) : Prop := b ∈ hexAlphabet.map (·.val.toUInt8)

instance (b : UInt8) : Decidable (IsHexByte b) :=
  inferInstanceAs (Decidable (b ∈ hexAlphabet.map (·.val.toUInt8)))

/-- The last `count` hexadecimal digits of a number, as bytes. -/
def hexBytes (count n : Nat) : List UInt8 := (hexDigits count n).map (·.val.toUInt8)

theorem length_hexBytes (count n : Nat) : (hexBytes count n).length = count := by
  simp [hexBytes, hexDigits]

/-- The first digit of one more is the highest. -/
theorem hexBytes_succ (count n : Nat) : hexBytes (count + 1) n =
    (Nat.digitChar (n / 16 ^ count % 16)).val.toUInt8 :: hexBytes count n := by
  rw [hexBytes, hexDigits_succ, List.map_cons]
  rfl

/-- What stands above the last digits does not matter to them. -/
theorem hexBytes_add_mul (count d n : Nat) :
    hexBytes count (d * 16 ^ count + n) = hexBytes count n := by
  have hdigit : ∀ i ∈ (List.range count).reverse,
      Nat.digitChar ((d * 16 ^ count + n) / Nat.pow 16 i % 16) =
        Nat.digitChar (n / Nat.pow 16 i % 16) := by
    intro i hi
    have hlt : i < count := List.mem_range.mp (List.mem_reverse.mp hi)
    obtain ⟨k, rfl⟩ := Nat.exists_eq_add_of_lt hlt
    have hsplit : d * 16 ^ (i + k + 1) + n = n + 16 ^ i * (16 * (d * 16 ^ k)) := by ring
    have hpos : 0 < Nat.pow 16 i := Nat.pow_pos (by decide)
    rw [hsplit]
    refine congrArg Nat.digitChar ?_
    exact (congrArg (· % 16) (Nat.add_mul_div_left n _ hpos)).trans (Nat.add_mul_mod_self_left ..)
  rw [hexBytes, hexBytes, hexDigits, hexDigits, List.map_congr_left hdigit]

namespace VariableId

theorem toNat_between {lo b hi : UInt8} (h : lo ≤ b ∧ b ≤ hi) :
    lo.toNat ≤ b.toNat ∧ b.toNat ≤ hi.toNat :=
  h.imp UInt8.le_iff_toNat_le.mp UInt8.le_iff_toNat_le.mp

/-- A digit has its value, and what has a value is a digit of that value. -/
theorem nibble?_eq_some_iff {b : UInt8} {d : Nat} :
    nibble? b = some d ↔ d < 16 ∧ b = (Nat.digitChar d).val.toUInt8 := by
  have hvalue : ∀ d < 16, nibble? (Nat.digitChar d).val.toUInt8 = some d := by decide
  have hdecimal : ∀ d < 10, (Nat.digitChar d).val.toUInt8 = UInt8.ofNat (d + 48) := by decide
  have hletter : ∀ d < 16, 10 ≤ d → (Nat.digitChar d).val.toUInt8 = UInt8.ofNat (d + 87) := by
    decide
  constructor
  · intro h
    unfold nibble? at h
    split at h
    · rename_i hrange
      obtain ⟨hle, hge⟩ : 48 ≤ b.toNat ∧ b.toNat ≤ 57 := toNat_between hrange
      obtain rfl := Option.some.inj h
      refine ⟨by omega, ?_⟩
      rw [hdecimal _ (by omega), Nat.sub_add_cancel hle, UInt8.ofNat_toNat]
    · split at h
      · rename_i hrange
        obtain ⟨hle, hge⟩ : 97 ≤ b.toNat ∧ b.toNat ≤ 102 := toNat_between hrange
        obtain rfl := Option.some.inj h
        refine ⟨by omega, ?_⟩
        rw [hletter _ (by omega) (by omega), Nat.sub_add_cancel (by omega), UInt8.ofNat_toNat]
      · cases h
  · rintro ⟨hd, rfl⟩
    exact hvalue d hd

/-- What has no value as a digit is none. -/
theorem nibble?_eq_none_iff {b : UInt8} : nibble? b = none ↔ ¬ IsHexByte b := by
  have halphabet : hexAlphabet = (List.range 16).map Nat.digitChar := by decide
  have hbyte : IsHexByte b ↔ ∃ d, nibble? b = some d := by
    simp only [nibble?_eq_some_iff]
    simp only [IsHexByte, halphabet, List.map_map, List.mem_map, List.mem_range,
      Function.comp_apply, eq_comm]
  rw [hbyte, Option.eq_none_iff_forall_ne_some, not_exists]

/-- The digits that are written are digits. -/
theorem isHexByte_digitChar {d : Nat} (h : d < 16) :
    IsHexByte (Nat.digitChar d).val.toUInt8 := by
  have hvalue : nibble? (Nat.digitChar d).val.toUInt8 = some d := nibble?_eq_some_iff.mpr ⟨h, rfl⟩
  by_contra hnot
  rw [nibble?_eq_none_iff.mpr hnot] at hvalue
  cases hvalue

/-! ## Reading digits -/

/-- **Digits are read as the number they write**, after what was read before. -/
theorem nibbles_hexBytes (count n position value : Nat) :
    nibbles position value (hexBytes count n) = .ok (value * 16 ^ count + n % 16 ^ count) := by
  induction count generalizing position value with
  | zero =>
    rw [Nat.pow_zero, Nat.mod_one, Nat.mul_one]
    rfl
  | succ count ih =>
    have hdigit := nibble?_eq_some_iff.mpr
      ⟨Nat.mod_lt (n / 16 ^ count) (by decide : 0 < 16), rfl⟩
    rw [hexBytes_succ, nibbles, hdigit]
    refine (ih _ _).trans (congrArg Except.ok ?_)
    rw [Nat.mod_pow_succ, Nat.pow_succ]
    ring

/-- **The first byte that is no digit is the fault**, whatever follows it. -/
theorem nibbles_append {before : List UInt8} {b : UInt8} (hbefore : ∀ c ∈ before, IsHexByte c)
    (hb : ¬ IsHexByte b) (after : List UInt8) (position value : Nat) :
    nibbles position value (before ++ b :: after) =
      .error (.character (position + before.length) b) := by
  induction before generalizing position value with
  | nil => rw [List.nil_append, nibbles, nibble?_eq_none_iff.mpr hb]; rfl
  | cons c before ih =>
    obtain ⟨hc, hrest⟩ := List.forall_mem_cons.mp hbefore
    cases hvalue : nibble? c with
    | none => exact absurd hc (nibble?_eq_none_iff.mp hvalue)
    | some d =>
      rw [List.cons_append, nibbles, hvalue, List.length_cons, Nat.add_comm before.length,
        ← Nat.add_assoc]
      exact ih hrest _ _

/-- **Bytes that are all digits are those of a number.** -/
theorem exists_eq_hexBytes {bytes : List UInt8} (h : ∀ b ∈ bytes, IsHexByte b) :
    ∃ n < 16 ^ bytes.length, bytes = hexBytes bytes.length n := by
  induction bytes with
  | nil => exact ⟨0, Nat.one_pos, rfl⟩
  | cons b bytes ih =>
    obtain ⟨hb, hrest⟩ := List.forall_mem_cons.mp h
    obtain ⟨n, hn, hbytes⟩ := ih hrest
    cases hvalue : nibble? b with
    | none => exact absurd hb (nibble?_eq_none_iff.mp hvalue)
    | some d =>
      obtain ⟨hd, rfl⟩ := nibble?_eq_some_iff.mp hvalue
      have hpos : 0 < 16 ^ bytes.length := Nat.pow_pos (by decide)
      have hhead : (d * 16 ^ bytes.length + n) / 16 ^ bytes.length % 16 = d := by
        rw [Nat.add_comm, Nat.add_mul_div_right n d hpos, Nat.div_eq_of_lt hn, Nat.zero_add,
          Nat.mod_eq_of_lt hd]
      refine ⟨d * 16 ^ bytes.length + n, ?_, ?_⟩
      · calc d * 16 ^ bytes.length + n < d * 16 ^ bytes.length + 16 ^ bytes.length :=
              Nat.add_lt_add_left hn _
          _ = (d + 1) * 16 ^ bytes.length := (Nat.succ_mul _ _).symm
          _ ≤ 16 * 16 ^ bytes.length := Nat.mul_le_mul_right _ hd
          _ = 16 ^ (bytes.length + 1) := (Nat.pow_succ').symm
      · rw [List.length_cons, hexBytes_succ, hhead, hexBytes_add_mul, ← hbytes]

/-! ## Tokens -/

/-- **A token has a byte for each of its digits.** -/
theorem bytesOf_token (v : VariableId) : bytesOf v.token = hexBytes tokenLength v.toNat := by
  have hascii : ∀ d < 16, (Nat.digitChar d).utf8Size = 1 := by decide
  refine Text.bytesOf_ofList fun c hc => ?_
  obtain ⟨d, hd, rfl⟩ := exists_digit_of_mem_digits hc
  exact hascii d hd

theorem toNat_lt (v : VariableId) : v.toNat < 16 ^ tokenLength := v.val.isLt

/-- A variable is known by its number. -/
theorem ofNat_toNat (v : VariableId) : ofNat v.toNat = v :=
  congrArg VariableId.mk (BitVec.ofNat_toNat 128 v.val)

theorem toNat_ofNat {n : Nat} (h : n < 16 ^ tokenLength) : (ofNat n).toNat = n :=
  (BitVec.toNat_ofNat n 128).trans (Nat.mod_eq_of_lt h)

/-- **A token is read back.** -/
theorem ofToken_token (v : VariableId) : ofToken v.token = .ok v := by
  have hlength : (bytesOf v.token).length = tokenLength := by rw [bytesOf_token, length_hexBytes]
  have hread : nibbles 0 0 (bytesOf v.token) = .ok v.toNat := by
    rw [bytesOf_token, nibbles_hexBytes, Nat.zero_mul, Nat.zero_add, Nat.mod_eq_of_lt v.toNat_lt]
  rw [bytesOf] at hlength hread
  rw [ofToken]
  simp only [hlength, hread, ne_eq, not_true, if_false]
  exact congrArg Except.ok v.ofNat_toNat

/-- The text is refused for its length. -/
theorem ofToken_of_length {s : String} (h : (bytesOf s).length ≠ tokenLength) :
    ofToken s = .error (.length (bytesOf s).length) := if_pos h

/-- The text is refused for its first byte that is no digit. -/
theorem ofToken_of_character {s : String} {before after : List UInt8} {b : UInt8}
    (hlength : (bytesOf s).length = tokenLength) (hs : bytesOf s = before ++ b :: after)
    (hbefore : ∀ c ∈ before, IsHexByte c) (hb : ¬ IsHexByte b) :
    ofToken s = .error (.character before.length b) := by
  have hread := nibbles_append hbefore hb after 0 0
  rw [← hs, bytesOf, Nat.zero_add] at hread
  rw [bytesOf] at hlength
  rw [ofToken]
  simp only [hlength, hread, ne_eq, not_true, if_false]
  rfl

/-- A text of as many digits as a token has is one. -/
theorem exists_token_eq {s : String} (hlength : (bytesOf s).length = tokenLength)
    (h : ∀ b ∈ bytesOf s, IsHexByte b) : ∃ v : VariableId, v.token = s := by
  obtain ⟨n, hn, hbytes⟩ := exists_eq_hexBytes h
  rw [hlength] at hn hbytes
  refine ⟨ofNat n, bytesOf_injective ?_⟩
  rw [bytesOf_token, toNat_ofNat hn, ← hbytes]

/-- How a text is read: what names a variable is its token, and what is no token is refused for its
length, or else for the first byte that is no digit. -/
inductive Read (s : String) : Except TokenFault VariableId → Prop where
  | token (v : VariableId) (h : v.token = s) : Read s (.ok v)
  | length (h : (bytesOf s).length ≠ tokenLength) : Read s (.error (.length (bytesOf s).length))
  | character {before after : List UInt8} {b : UInt8} (hlength : (bytesOf s).length = tokenLength)
      (hs : bytesOf s = before ++ b :: after) (hbefore : ∀ c ∈ before, IsHexByte c)
      (hb : ¬ IsHexByte b) : Read s (.error (.character before.length b))

namespace Read

/-- **Reading a token gives the one answer that there is for the text.** -/
theorem ofToken_eq {s : String} {r : Except TokenFault VariableId} (h : Read s r) :
    ofToken s = r := by
  cases h with
  | token v h => exact h ▸ ofToken_token v
  | length h => exact ofToken_of_length h
  | character hlength hs hbefore hb => exact ofToken_of_character hlength hs hbefore hb

/-- Every text is read in one of these ways. -/
theorem exists_read (s : String) : ∃ r, Read s r := by
  by_cases hlength : (bytesOf s).length = tokenLength
  · by_cases hdigits : ∀ b ∈ bytesOf s, IsHexByte b
    · obtain ⟨v, hv⟩ := exists_token_eq hlength hdigits
      exact ⟨_, .token v hv⟩
    · obtain ⟨b, hb, hnot⟩ : ∃ b ∈ bytesOf s, ¬ IsHexByte b := by simpa using hdigits
      have hsome : ((bytesOf s).find? fun c => decide (¬ IsHexByte c)).isSome :=
        List.find?_isSome.mpr ⟨b, hb, decide_eq_true hnot⟩
      obtain ⟨c, hfind⟩ := Option.isSome_iff_exists.mp hsome
      obtain ⟨hc, before, after, hs, hbefore⟩ := List.find?_eq_some_iff_append.mp hfind
      exact ⟨_, .character hlength hs (by simpa using hbefore) (of_decide_eq_true hc)⟩
  · exact ⟨_, .length hlength⟩

end Read

/-- A token has a digit for every four bits, the highest first. -/
theorem toList_token (v : VariableId) : v.token.toList =
    List.ofFn fun i : Fin tokenLength =>
      Nat.digitChar (v.val.extractLsb' (4 * (tokenLength - 1 - i)) 4).toNat := by
  have hnibble : ∀ k, (v.val.extractLsb' (4 * k) 4).toNat = v.toNat / Nat.pow 16 k % 16 := by
    intro k
    rw [BitVec.extractLsb'_toNat, Nat.shiftRight_eq_div_pow, Nat.pow_mul]
    rfl
  simp only [hnibble]
  rw [token, String.toList_ofList, digits, hexDigits]
  rfl

/-- **Tokens are in bijection with variables.**  A token has the hexadecimal digits of its variable,
the highest first, and is read as that variable.  A text that is no token is refused: for its
length in bytes if that is not the length of a token, and else for the first byte that is no digit.
So exactly the texts of as many bytes, all of them digits, are read as a variable, and that
variable's token is the text again. -/
theorem token_codec :
    (∀ v : VariableId, ofToken v.token = .ok v ∧ v.token.toList =
      List.ofFn fun i : Fin tokenLength =>
        Nat.digitChar (v.val.extractLsb' (4 * (tokenLength - 1 - i)) 4).toNat) ∧
    ∀ s : String, (∀ r, ofToken s = r ↔ Read s r) ∧
      ((∃ v : VariableId, ofToken s = .ok v ∧ v.token = s) ↔
        (bytesOf s).length = tokenLength ∧ ∀ b ∈ bytesOf s, IsHexByte b) := by
  refine ⟨fun v => ⟨ofToken_token v, toList_token v⟩, fun s =>
    ⟨fun r => ⟨fun h => ?_, Read.ofToken_eq⟩, ?_, ?_⟩⟩
  · obtain ⟨r', hr'⟩ := Read.exists_read s
    obtain rfl : r' = r := hr'.ofToken_eq.symm.trans h
    exact hr'
  · rintro ⟨v, -, rfl⟩
    rw [bytesOf_token]
    refine ⟨length_hexBytes _ _, fun b hb => ?_⟩
    obtain ⟨c, hc, rfl⟩ := List.mem_map.mp hb
    obtain ⟨d, hd, rfl⟩ := exists_digit_of_mem_digits hc
    exact isHexByte_digitChar hd
  · rintro ⟨hlength, hdigits⟩
    obtain ⟨v, rfl⟩ := exists_token_eq hlength hdigits
    exact ⟨v, ofToken_token v, rfl⟩

end VariableId

end GraphScript
