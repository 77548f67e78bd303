import GraphScript.Proofs.Emit.Declared
import Mathlib.Data.List.TakeWhile

/-!
# Proofs/Emit/Signature — methods and fields as a reader finds them

`Signature.read?` takes a method apart from the end of its line: parameters, name, the class that a
definition names, and the type of the result.  What it reads is the whole line (`text_of_read?`),
and a signature of plain names is read back from its text (`read?_text`).  `Field.read?` does the
same for a field.  No text is both (`read?_of_close`, `read?_field`).
-/

namespace GraphScript.Emit.Native

open Header (inWord lastWord inWord_of_plain lastWord_append)

/-! ## Words, read backwards -/

/-- What was read backwards is the rest and the last word. -/
theorem ofList_reverse_eq {back rest : List Char} (h : back.dropWhile inWord = rest) :
    String.ofList back.reverse = String.ofList rest.reverse ++ lastWord back := by
  have hback : back.reverse = rest.reverse ++ (back.takeWhile inWord).reverse := by
    rw [← h, ← List.reverse_append, List.takeWhile_append_dropWhile]
  rw [hback, String.ofList_append]
  rfl

/-- A name, read backwards, is a word. -/
theorem dropWhile_inWord {name : String} (h : Names.Plain name) {c : Char} (hc : inWord c = false)
    (back : List Char) :
    (name.toList.reverse ++ c :: back).dropWhile inWord = c :: back := by
  rw [List.dropWhile_append_of_pos (inWord_of_plain h)]
  exact List.dropWhile_cons_of_neg (by rw [hc]; exact Bool.false_ne_true)

/-! ## Methods -/

/-- A method as its declaration or its definition shows it. -/
structure Signature where
  result : String
  /-- The class that a definition names. -/
  scope : Option String
  name : String
  params : String
  deriving DecidableEq

namespace Signature

/-- The text of a signature. -/
def text (s : Signature) : String :=
  s.result ++ " " ++ (s.scope.map (· ++ "::")).getD "" ++ s.name ++ "(" ++ s.params ++ ")"

/-- The signature of the same method without the class before its name. -/
def unqualified (s : Signature) : Signature := { s with scope := none }

/-- Reads what stands before the parameters and is given backwards. -/
def readBefore? (params : String) (back : List Char) : Option Signature :=
  match back.dropWhile inWord with
  | ' ' :: result => some ⟨String.ofList result.reverse, none, lastWord back, params⟩
  | ':' :: ':' :: scope =>
    match scope.dropWhile inWord with
    | ' ' :: result =>
      some ⟨String.ofList result.reverse, some (lastWord scope), lastWord back, params⟩
    | _ => none
  | _ => none

/-- The signature that a text is. -/
def read? (line : String) : Option Signature :=
  match line.toList.reverse with
  | ')' :: back =>
    readBefore? (String.ofList (back.takeWhile (· ≠ '(')).reverse)
      ((back.dropWhile (· ≠ '(')).drop 1)
  | _ => none

/-- A signature that was read is written as it was. -/
theorem text_of_readBefore? {params : String} {back : List Char} {s : Signature}
    (h : readBefore? params back = some s) :
    s.text = String.ofList back.reverse ++ "(" ++ params ++ ")" := by
  unfold readBefore? at h
  split at h
  · rename_i result hresult
    obtain rfl := Option.some.inj h
    rw [ofList_reverse_eq hresult]
    simp [text, String.append_assoc]
  · rename_i scope hscope
    split at h
    · rename_i result hresult
      obtain rfl := Option.some.inj h
      have hqualifier : String.ofList (':' :: ':' :: scope).reverse =
          String.ofList scope.reverse ++ "::" := by simp
      rw [ofList_reverse_eq hscope, hqualifier, ofList_reverse_eq hresult]
      simp [text, String.append_assoc]
    · exact absurd h (by simp)
  · exact absurd h (by simp)

/-- **A signature is the whole of the line it is read from.** -/
theorem text_of_read? {line : String} {s : Signature} (h : read? line = some s) :
    s.text = line := by
  unfold read? at h
  split at h
  · rename_i back hback
    have hsplit := List.takeWhile_append_dropWhile (p := (· ≠ '(')) (l := back)
    generalize back.takeWhile (· ≠ '(') = params at h hsplit
    cases hopen : back.dropWhile (· ≠ '(') with
    | nil =>
      -- without an opening parenthesis there is nothing before the parameters to read
      rw [hopen] at h
      exact absurd h (by simp [readBefore?])
    | cons c before =>
      have hc : c = '(' := by
        have hstop := List.head?_dropWhile_not (· ≠ '(') back
        rw [hopen] at hstop
        simpa using hstop
      have hline : line.toList = before.reverse ++ '(' :: params.reverse ++ [')'] := by
        rw [← List.reverse_reverse line.toList, hback, ← hsplit, hopen, hc]
        simp
      rw [hopen] at h
      rw [text_of_readBefore? h, ← String.ofList_toList (s := line), hline]
      simp [String.ofList_append, String.append_assoc]
  · exact absurd h (by simp)

/-- A signature is read from the opening parenthesis on, backwards. -/
theorem read?_eq (before : String) {params : String} (h : '(' ∉ params.toList) :
    read? (before ++ "(" ++ params ++ ")") = readBefore? params before.toList.reverse := by
  have hback : (before ++ "(" ++ params ++ ")").toList.reverse =
      ')' :: (params.toList.reverse ++ '(' :: before.toList.reverse) := by simp
  have hinside : ∀ c ∈ params.toList.reverse, decide (c ≠ '(') = true := fun c hc =>
    decide_eq_true fun heq => h (heq ▸ List.mem_reverse.mp hc)
  unfold read?
  rw [hback]
  simp only [List.takeWhile_append_of_pos hinside, List.dropWhile_append_of_pos hinside]
  simp

/-- **A signature of plain names is read back.** -/
theorem read?_text {s : Signature} (hscope : ∀ t ∈ s.scope, Names.Plain t)
    (hname : Names.Plain s.name) (hparams : '(' ∉ s.params.toList) : read? s.text = some s := by
  obtain ⟨result, scope, name, params⟩ := s
  have hspace : inWord ' ' = false := rfl
  have hcolon : inWord ':' = false := rfl
  rw [text, read?_eq _ hparams]
  cases scope with
  | none =>
    simp [readBefore?, dropWhile_inWord hname hspace, lastWord_append hname hspace]
  | some t =>
    have ht : Names.Plain t := hscope t rfl
    simp [readBefore?, dropWhile_inWord hname hcolon, lastWord_append hname hcolon,
      dropWhile_inWord ht hspace, lastWord_append ht hspace]

example : read? "void cls_Lamp::in_Light(bool p_on)" =
    some ⟨"void", some "cls_Lamp", "in_Light", "bool p_on"⟩ := by decide

/-- What is called on an object or with a type argument is no signature. -/
theorem read?_of_sign {c : Char} (hc : inWord c = false) (hsign : c ≠ ' ' ∧ c ≠ ':')
    (before : String) {word params : String} (hword : Names.Plain word)
    (hparams : '(' ∉ params.toList) :
    read? (before ++ String.ofList [c] ++ word ++ "(" ++ params ++ ")") = none := by
  have hback : (before ++ String.ofList [c] ++ word).toList.reverse =
      word.toList.reverse ++ c :: before.toList.reverse := by simp
  rw [read?_eq _ hparams, hback]
  unfold readBefore?
  rw [dropWhile_inWord hword hc]
  split
  · rename_i heq
    exact absurd (List.cons.inj heq).1 hsign.1
  · rename_i heq
    exact absurd (List.cons.inj heq).1 hsign.2
  · rfl

/-- A constructor has no result, so its definition is no signature. -/
theorem read?_constructor {name params : String} (hname : Names.Plain name)
    (hparams : '(' ∉ params.toList) :
    read? (name ++ "::" ++ name ++ "(" ++ params ++ ")") = none := by
  have hback : (name ++ "::" ++ name).toList.reverse =
      name.toList.reverse ++ ':' :: ':' :: name.toList.reverse := by simp
  have hall : name.toList.reverse.dropWhile inWord = [] :=
    List.dropWhile_eq_nil_iff.mpr (inWord_of_plain hname)
  have hcolon : inWord ':' = false := rfl
  rw [read?_eq _ hparams, hback]
  simp [readBefore?, dropWhile_inWord hname hcolon, hall]

end Signature

/-! ## Fields -/

/-- A field as its declaration shows it. -/
structure Field where
  type : String
  name : String
  deriving DecidableEq

namespace Field

/-- The text of a field. -/
def text (f : Field) : String := f.type ++ " " ++ f.name

/-- The field that a text is. -/
def read? (text : String) : Option Field :=
  match text.toList.reverse.dropWhile inWord with
  | ' ' :: type => some ⟨String.ofList type.reverse, lastWord text.toList.reverse⟩
  | _ => none

/-- A field that was written is read. -/
theorem read?_text {f : Field} (h : Names.Plain f.name) : read? f.text = some f := by
  have hback : f.text.toList.reverse = f.name.toList.reverse ++ ' ' :: f.type.toList.reverse := by
    simp [text]
  have hspace : inWord ' ' = false := rfl
  simp [read?, hback, dropWhile_inWord h hspace, lastWord_append h hspace]

/-- Nothing that ends with its parameters is a field. -/
theorem read?_of_close (before : String) : read? (before ++ ")") = none := by
  have hstop : (')' :: before.toList.reverse).dropWhile inWord = ')' :: before.toList.reverse := rfl
  simp [read?, hstop]

end Field

/-- No field is a signature. -/
theorem Signature.read?_field {f : Field} (h : Names.Plain f.name) :
    Signature.read? f.text = none := by
  have hback : f.text.toList.reverse = f.name.toList.reverse ++ ' ' :: f.type.toList.reverse := by
    simp [Field.text]
  unfold Signature.read?
  rw [hback]
  split
  · rename_i hclose
    cases hname : f.name.toList.reverse with
    | nil => simp [hname] at hclose
    | cons c r =>
      obtain rfl : c = ')' := by
        rw [hname] at hclose
        exact (List.cons.inj hclose).1
      have hmem : ')' ∈ f.name.toList := List.mem_reverse.mp (hname ▸ List.mem_cons_self)
      exact absurd (h _ hmem) (by decide)
  · rfl

end GraphScript.Emit.Native
