import GraphScript.Proofs.Emit.Slots
import GraphScript.Proofs.Names.Own
import GraphScript.Script.Parser

/-!
# Proofs/Emit/Constructor — the constructor as the machine parses it

The constructor stands in the text of a chunk on lines of its own, and a machine that parses it finds
a function that makes an object, sets its state, and then sets each member from the inputs, in the
order of declaration: `script_constructor`.  The text is first read line by line (`ReadsAs`,
`scans_text`), then the tokens are parsed statement by statement (`block_reads`).
-/

namespace GraphScript.Emit.Script

open GraphScript.Script (Function Lexeme Parser Stat Token)
open GraphScript.Script.Token

/-! ## Lines of text as tokens -/

/-- Wherever a text is not continued as a word, it is read as those tokens. -/
def ReadsAs (line : Nat) (text : String) (ls : List Lexeme) : Prop :=
  ∀ (rest : List Char) (more : List Lexeme), (∀ c ∈ rest.head?, inName c = false) →
    Scans line rest more → Scans line (text.toList ++ rest) (ls ++ more)

/-- The text of lines is the first as it is shown, its end, and the text of the others. -/
theorem toList_text_cons (width : Nat) (l : Line) (ls : List Line) :
    (Code.text width (l :: ls)).toList =
      (l.shown width).toList ++ '\n' :: (Code.text width ls).toList := by
  rw [Code.text, List.map_cons, String.join_cons, Line.render_eq, String.toList_append,
    String.toList_append, List.append_assoc]
  rfl

/-- Indentation is not read. -/
theorem scans_shown {line width : Nat} {l : Line} {rest : List Char} {ls : List Lexeme}
    (h : Scans line (l.text.toList ++ rest) ls) :
    Scans line ((l.shown width).toList ++ rest) ls := by
  unfold Line.shown
  split
  · rename_i hempty
    rwa [String.isEmpty_iff.mp hempty] at h
  · rw [String.toList_append, String.toList_ofList, List.append_assoc]
    exact scans_blanks _ h

/-- No line begins with the other character that ends lines. -/
theorem head?_shown_ne {width : Nat} {l : Line} (h : l.text.toList.head? ≠ some '\r')
    (rest : List Char) : ((l.shown width).toList ++ '\n' :: rest).head? ≠ some '\r' := by
  unfold Line.shown
  split
  · simp
  · rw [String.toList_append, String.toList_ofList]
    cases l.level * width with
    | zero => cases hl : l.text.toList <;> simp_all
    | succ n => simp [List.replicate_succ]

/-- The end of a line is not taken together with what follows. -/
theorem head?_text_ne {width : Nat} {ls : List Line}
    (h : ∀ l ∈ ls, l.text.toList.head? ≠ some '\r') :
    (Code.text width ls).toList.head? ≠ some '\r' := by
  cases ls with
  | nil => simp [Code.text]
  | cons l ls =>
    rw [toList_text_cons]
    exact head?_shown_ne (h l List.mem_cons_self) _

/-- **A line of a text is read in front of the lines below it.** -/
theorem scans_text_cons {line width : Nat} {l : Line} {ls : List Line} {tokens more : List Lexeme}
    (hstart : ∀ l ∈ ls, l.text.toList.head? ≠ some '\r') (hl : ReadsAs line l.text tokens)
    (hls : Scans (line + 1) (Code.text width ls).toList more) :
    Scans line (Code.text width (l :: ls)).toList (tokens ++ more) := by
  rw [toList_text_cons]
  refine scans_shown (hl _ _ ?_ (scans_break (head?_text_ne hstart) hls))
  simp [inName]

/-! ## The lines of the constructor -/

section Reading

variable {line : Nat} {w : String} {rest : List Char} {ls : List Lexeme}

/-- A name is scanned as a name. -/
theorem scans_name (hw : Names.IsIdentifier w) (hfree : keywords.contains w = false)
    (hrest : ∀ c ∈ rest.head?, inName c = false) (h : Scans line rest ls) :
    Scans line (w.toList ++ rest) (⟨.name w, line⟩ :: ls) := by
  have hword : ofWord w = .name w := by rw [ofWord, hfree]; rfl
  exact hword ▸ scans_word hw hrest h

/-- A word of the language is scanned as one. -/
theorem scans_keyword (hw : Names.IsIdentifier w) (hkey : keywords.contains w = true)
    (hrest : ∀ c ∈ rest.head?, inName c = false) (h : Scans line rest ls) :
    Scans line (w.toList ++ rest) (⟨.keyword w, line⟩ :: ls) := by
  have hword : ofWord w = .keyword w := by rw [ofWord, hkey]; rfl
  exact hword ▸ scans_word hw hrest h

/-- The names that the constructor itself uses. -/
def ownWords : List String := ["new", "executionState", "inputs", "self", "setmetatable"]

/-- So are the names that the constructor uses itself. -/
theorem scans_ownWord (hw : w ∈ ownWords) (hrest : ∀ c ∈ rest.head?, inName c = false)
    (h : Scans line rest ls) : Scans line (w.toList ++ rest) (⟨.name w, line⟩ :: ls) := by
  have hchars : ∀ w ∈ ownWords, w.toList.head?.any startsName = true ∧
      w.toList.all inName = true ∧ keywords.contains w = false := by decide
  obtain ⟨hhead, hall, hfree⟩ := hchars w hw
  exact scans_name (isIdentifier_of_chars hhead hall) hfree hrest h

theorem scans_ownKeyword (hw : w ∈ ["function", "local", "return", "end"])
    (hrest : ∀ c ∈ rest.head?, inName c = false) (h : Scans line rest ls) :
    Scans line (w.toList ++ rest) (⟨.keyword w, line⟩ :: ls) := by
  have hchars : ∀ w ∈ ["function", "local", "return", "end"],
      w.toList.head?.any startsName = true ∧ w.toList.all inName = true ∧
        keywords.contains w = true := by decide
  obtain ⟨hhead, hall, hkey⟩ := hchars w hw
  exact scans_keyword (isIdentifier_of_chars hhead hall) hkey hrest h

end Reading

/-- The tokens of the line that opens the constructor. -/
def headTokens (line : Nat) (className : String) : List Lexeme :=
  [⟨.keyword "function", line⟩, ⟨.name className, line⟩, ⟨.symbol ".", line⟩, ⟨.name "new", line⟩,
    ⟨.symbol "(", line⟩, ⟨.name "executionState", line⟩, ⟨.symbol ",", line⟩,
    ⟨.name "inputs", line⟩, ⟨.symbol ")", line⟩]

/-- The tokens of the line that makes the object. -/
def objectTokens (line : Nat) (className : String) : List Lexeme :=
  [⟨.keyword "local", line⟩, ⟨.name "self", line⟩, ⟨.symbol "=", line⟩,
    ⟨.name "setmetatable", line⟩, ⟨.symbol "(", line⟩, ⟨.symbol "\x7b", line⟩,
    ⟨.symbol "\x7d", line⟩, ⟨.symbol ",", line⟩, ⟨.name className, line⟩, ⟨.symbol ")", line⟩]

/-- The tokens of the line that sets the state of the object. -/
def stateTokens (line : Nat) : List Lexeme :=
  [⟨.name "self", line⟩, ⟨.symbol ".", line⟩, ⟨.name "executionState", line⟩,
    ⟨.symbol "=", line⟩, ⟨.name "executionState", line⟩]

/-- The tokens of a line that sets a member, given its identifier and the key of the input. -/
def readTokens (line : Nat) (r : String × String) : List Lexeme :=
  [⟨.name "self", line⟩, ⟨.symbol ".", line⟩, ⟨.name r.1, line⟩, ⟨.symbol "=", line⟩,
    ⟨.name "inputs", line⟩, ⟨.symbol "[", line⟩, ⟨.str r.2.toUTF8, line⟩, ⟨.symbol "]", line⟩]

/-- The tokens of the lines that set members and end the constructor. -/
def bodyTokens (line : Nat) : List (String × String) → List Lexeme
  | [] => [⟨.keyword "return", line⟩, ⟨.name "self", line⟩, ⟨.keyword "end", line + 1⟩]
  | r :: rs => readTokens line r ++ bodyTokens (line + 1) rs

section Lines

variable {line : Nat} {className : String} (hclass : Names.IsIdentifier className)
  (hfree : keywords.contains className = false)

include hclass hfree

/-- The first line of the constructor reads as its head. -/
theorem readsAs_head : ReadsAs line ("function " ++ className ++ ".new(executionState, inputs)")
    (headTokens line className) := by
  intro rest more hrest h
  have hchars : ("function " ++ className ++ ".new(executionState, inputs)").toList ++ rest =
      "function".toList ++ ' ' :: (className.toList ++ '.' :: ("new".toList ++
        '(' :: ("executionState".toList ++ ',' :: ' ' :: ("inputs".toList ++ ')' :: rest)))) := by
    simp [String.toList_append]
  rw [hchars]
  refine scans_ownKeyword (by decide) (by simp [inName]) (scans_blank ?_)
  refine scans_name hclass hfree (by simp [inName]) (.token rfl (Nat.lt_succ_self _) ?_)
  refine scans_ownWord (by decide) (by simp [inName]) (scans_lone (e := ('(', "(")) (by decide) ?_)
  refine scans_ownWord (by decide) (by simp [inName]) (scans_lone (e := (',', ",")) (by decide) ?_)
  exact scans_blank (scans_ownWord (by decide) (by simp [inName])
    (scans_lone (e := (')', ")")) (by decide) h))

/-- The second line of the constructor makes the object. -/
theorem readsAs_object : ReadsAs line ("local self = setmetatable(\x7b\x7d, " ++ className ++ ")")
    (objectTokens line className) := by
  intro rest more hrest h
  have hchars : ("local self = setmetatable(\x7b\x7d, " ++ className ++ ")").toList ++ rest =
      "local".toList ++ ' ' :: ("self".toList ++ ' ' :: '=' :: ' ' :: ("setmetatable".toList ++
        '(' :: '\x7b' :: '\x7d' :: ',' :: ' ' :: (className.toList ++ ')' :: rest))) := by
    simp [String.toList_append]
  rw [hchars]
  refine scans_ownKeyword (by decide) (by simp [inName]) (scans_blank ?_)
  refine scans_ownWord (by decide) (by simp [inName]) (scans_blank (scans_equals ?_))
  refine scans_ownWord (by decide) (by simp [inName]) (scans_lone (e := ('(', "(")) (by decide) ?_)
  refine scans_lone (e := ('\x7b', "\x7b")) (by decide)
    (scans_lone (e := ('\x7d', "\x7d")) (by decide) ?_)
  refine scans_lone (e := (',', ",")) (by decide) (scans_blank ?_)
  exact scans_name hclass hfree (by simp [inName]) (scans_lone (e := (')', ")")) (by decide) h)

end Lines

theorem readsAs_state (line : Nat) :
    ReadsAs line "self.executionState = executionState" (stateTokens line) := by
  intro rest more hrest h
  have hchars : "self.executionState = executionState".toList ++ rest = "self".toList ++ '.' ::
      ("executionState".toList ++ ' ' :: '=' :: ' ' :: ("executionState".toList ++ rest)) := by
    simp
  rw [hchars]
  refine scans_ownWord (by decide) (by simp [inName]) (.token rfl (Nat.lt_succ_self _) ?_)
  refine scans_ownWord (by decide) (by simp [inName]) (scans_blank (scans_equals ?_))
  exact scans_ownWord (by decide) hrest h

/-- A line of the constructor sets a field from the inputs. -/
theorem readsAs_read {line : Nat} {field : String} (hfield : Names.IsIdentifier field)
    (hfree : keywords.contains field = false) (key : String) :
    ReadsAs line ("self." ++ field ++ " = inputs[" ++ Literal.string .script key ++ "]")
      (readTokens line (field, key)) := by
  intro rest more hrest h
  have hchars : ("self." ++ field ++ " = inputs[" ++ Literal.string .script key ++ "]").toList ++
      rest = "self".toList ++ '.' :: (field.toList ++ ' ' :: '=' :: ' ' :: ("inputs".toList ++
        '[' :: ((Literal.string .script key).toList ++ ']' :: rest))) := by
    simp [String.toList_append]
  rw [hchars]
  refine scans_ownWord (by decide) (by simp [inName]) (scans_dot hfield ?_)
  refine scans_name hfield hfree (by simp [inName]) (scans_blank (scans_equals ?_))
  exact scans_ownWord (by decide) (by simp [inName]) (scans_key key h)

theorem readsAs_return (line : Nat) :
    ReadsAs line "return self" [⟨.keyword "return", line⟩, ⟨.name "self", line⟩] := by
  intro rest more hrest h
  have hchars : "return self".toList ++ rest =
      "return".toList ++ ' ' :: ("self".toList ++ rest) := by simp
  rw [hchars]
  exact scans_ownKeyword (by decide) (by simp [inName])
    (scans_blank (scans_ownWord (by decide) hrest h))

theorem readsAs_end (line : Nat) : ReadsAs line "end" [⟨.keyword "end", line⟩] :=
  fun _ _ hrest h => scans_ownKeyword (by decide) hrest h

theorem readsAs_blank (line : Nat) : ReadsAs line "" [] := fun _ _ _ h => h

/-! ## The text of the constructor as tokens -/

theorem contains_eq_false {w : String} (h : ¬ Names.Reserved w) : keywords.contains w = false := by
  simpa using fun hm => h (Or.inl hm)

/-- The lines of the constructor below the first three, for some variables. -/
def closingLines (names : Names) (vs : List VariableDef) : List Line :=
  vs.map (memberLine names) ++ [⟨1, "return self", none⟩, ⟨0, "end", none⟩, Line.blank]

/-- No line of the rest begins with a character that ends lines. -/
theorem head?_closingLines (names : Names) (vs : List VariableDef) :
    ∀ l ∈ closingLines names vs, l.text.toList.head? ≠ some '\r' := by
  refine List.forall_mem_append.mpr ⟨List.forall_mem_map.mpr fun v _ => ?_, by decide⟩
  simp [memberLine, String.toList_append]

section Members

variable {m : Model}

theorem member_mem_all {v : VariableDef} (hv : v ∈ m.members) :
    (Names.ofModel m).member v.id ∈ (Names.ofModel m).all := by
  obtain ⟨field, hfield⟩ := Option.isSome_iff_exists.mp
    (Names.isSome_member?.mpr (List.mem_map_of_mem hv))
  rw [Names.member, hfield, Option.getD_some]
  refine List.mem_append_left _ (List.mem_cons_of_mem _ (List.mem_append_left _ ?_))
  exact List.mem_map_of_mem (Names.mem_of_last? hfield)

/-- The line of a member reads as setting the field of that member. -/
theorem readsAs_memberLine (line : Nat) {v : VariableDef} (hv : v ∈ m.members) :
    ReadsAs line (memberLine (Names.ofModel m) v).text
      (readTokens line ((Names.ofModel m).member v.id, v.id.token)) := by
  have hmarked := Names.marked_all m _ (member_mem_all hv)
  exact readsAs_read (Names.isIdentifier_of_marked hmarked)
    (contains_eq_false (Names.not_reserved_of_marked hmarked)) v.id.token

/-- **The rest of the constructor reads as its tokens**, one line for each variable. -/
theorem scans_closingLines (width line : Nat) {vs : List VariableDef}
    (hvs : ∀ v ∈ vs, v ∈ m.members) :
    Scans line (Code.text width (closingLines (Names.ofModel m) vs)).toList
      (bodyTokens line (vs.map fun v => ((Names.ofModel m).member v.id, v.id.token))) := by
  induction vs generalizing line with
  | nil =>
    have hblank : Scans (line + 1 + 1) (Code.text width [Line.blank]).toList [] :=
      @scans_text_cons _ width Line.blank [] [] [] (List.forall_mem_nil _) (readsAs_blank _) .done
    have hend := scans_text_cons (l := ⟨0, "end", none⟩) (by decide) (readsAs_end (line + 1)) hblank
    exact scans_text_cons (l := ⟨1, "return self", none⟩) (by decide) (readsAs_return line) hend
  | cons v vs ih =>
    obtain ⟨hv, hrest⟩ := List.forall_mem_cons.mp hvs
    exact scans_text_cons (head?_closingLines _ vs) (readsAs_memberLine line hv)
      (ih (line + 1) hrest)

end Members

/-- The identifiers of the members, each with the token of its variable, in their order. -/
def memberReads (m : Model) : List (String × String) :=
  m.members.map fun v => ((Names.ofModel m).member v.id, v.id.token)

/-- The tokens of the constructor. -/
def constructorTokens (className : String) (reads : List (String × String)) : List Lexeme :=
  headTokens 1 className ++ (objectTokens 2 className ++ (stateTokens 3 ++ bodyTokens 4 reads))

/-- **The scanner reads the text of the constructor.** -/
theorem scan_constructor (m : Model) (width : Nat) :
    scan (Code.text width (constructor m (Names.ofModel m))) =
      .ok (constructorTokens (Names.ofModel m).className (memberReads m)) := by
  have hclass := isIdentifier_className m
  have hfree := contains_eq_false (not_reserved_className m)
  have hclosing := head?_closingLines (Names.ofModel m) m.members
  refine scan_eq ?_
  have hbody := scans_closingLines width 4 fun v (hv : v ∈ m.members) => hv
  have hstate := scans_text_cons (l := ⟨1, "self.executionState = executionState", none⟩) hclosing
    (readsAs_state 3) hbody
  have hobject := scans_text_cons (l := ⟨1, _, none⟩)
    (List.forall_mem_cons.mpr ⟨by decide, hclosing⟩) (readsAs_object hclass hfree) hstate
  refine scans_text_cons (l := ⟨0, _, none⟩) ?_ (readsAs_head hclass hfree) hobject
  refine List.forall_mem_cons.mpr ⟨?_, List.forall_mem_cons.mpr ⟨by decide, hclosing⟩⟩
  simp [String.toList_append]

/-! ## The tokens of the constructor as a tree -/

/-- The statement that sets a member from the inputs. -/
def readStat (line : Nat) (r : String × String) : Stat :=
  .assign line [.index line (.name "self") (.str r.1.toUTF8)]
    [.index line (.name "inputs") (.str r.2.toUTF8)]

/-- The statements that set members and give the object back. -/
def bodyStats (line : Nat) : List (String × String) → List Stat
  | [] => [.ret line [.name "self"]]
  | r :: rs => readStat line r :: bodyStats (line + 1) rs

/-- A parser that succeeds goes on with what it left. -/
theorem run_bind_ok {α β : Type} {p : Parser α} {f : α → Parser β} {ls rest : List Lexeme} {a : α}
    (h : p.run ls = .ok (a, rest)) : (p >>= f).run ls = (f a).run rest := by
  rw [StateT.run_bind, h]
  rfl

/-- A line that sets a member is one statement, and the next line starts another. -/
theorem run_block_cons (line next fuel : Nat) (r : String × String)
    (reads : List (String × String)) :
    (Parser.block false false (fuel + 12)).run (readTokens line r ++ bodyTokens next reads) =
      (do return readStat line r :: (← Parser.block false false (fuel + 11))).run
        (bodyTokens next reads) := by
  cases reads with
  | nil => rfl
  | cons r' reads => rfl

/-- **The lines that set members are parsed one by one.** -/
theorem run_block_body (line fuel : Nat) (reads : List (String × String))
    (hfuel : reads.length + 12 ≤ fuel) :
    (Parser.block false false fuel).run (bodyTokens line reads) =
      .ok (bodyStats line reads, [⟨.keyword "end", line + reads.length + 1⟩]) := by
  induction reads generalizing line fuel with
  | nil =>
    obtain ⟨k, rfl⟩ := Nat.exists_eq_add_of_le' hfuel
    rfl
  | cons r reads ih =>
    rw [List.length_cons] at hfuel
    obtain ⟨k, rfl⟩ : ∃ k, fuel = k + 12 := ⟨fuel - 12, by omega⟩
    have hline : line + 1 + reads.length + 1 = line + (r :: reads).length + 1 := by
      rw [List.length_cons]
      omega
    have hrest := ih (line + 1) (k + 11) (by omega)
    rw [bodyTokens, run_block_cons, run_bind_ok hrest, hline]
    rfl

/-- The statement that makes the object. -/
def objectStat (line : Nat) (className : String) : Stat :=
  .declare line ["self"] [.call line (.name "setmetatable") [.table line [], .name className]]

/-- The statement that sets the state of the object. -/
def stateStat (line : Nat) : Stat :=
  .assign line [.index line (.name "self") (.str "executionState".toUTF8)] [.name "executionState"]

/-- The constructor as a tree: the class gets a function that makes an object of it, sets the state
of the object and then its members. -/
def constructorTree (className : String) (reads : List (String × String)) : Stat :=
  .assign 1 [.index 1 (.name className) (.str "new".toUTF8)]
    [.function (.mk 1 ["executionState", "inputs"] false
      (objectStat 2 className :: stateStat 3 :: bodyStats 4 reads))]

/-- A block that begins with the object has that statement first. -/
theorem run_block_object (line next fuel : Nat) (className : String) (ls : List Lexeme) :
    (Parser.block false false (fuel + 16)).run
        (objectTokens line className ++ (stateTokens next ++ ls)) =
      (do return objectStat line className :: (← Parser.block false false (fuel + 15))).run
        (stateTokens next ++ ls) := by
  rfl

theorem run_block_state (line next fuel : Nat) (reads : List (String × String)) :
    (Parser.block false false (fuel + 12)).run (stateTokens line ++ bodyTokens next reads) =
      (do return stateStat line :: (← Parser.block false false (fuel + 11))).run
        (bodyTokens next reads) := by
  cases reads with
  | nil => rfl
  | cons r reads => rfl

/-- The body of the constructor is parsed up to its end. -/
theorem run_block_constructor (className : String) (fuel : Nat) (reads : List (String × String))
    (hfuel : reads.length + 16 ≤ fuel) :
    (Parser.block false false fuel).run
        (objectTokens 2 className ++ (stateTokens 3 ++ bodyTokens 4 reads)) =
      .ok (objectStat 2 className :: stateStat 3 :: bodyStats 4 reads,
        [⟨.keyword "end", 4 + reads.length + 1⟩]) := by
  obtain ⟨k, rfl⟩ : ∃ k, fuel = k + 16 := ⟨fuel - 16, by omega⟩
  have hbody := run_block_body 4 (k + 14) reads (by omega)
  have hstate : (Parser.block false false (k + 15)).run (stateTokens 3 ++ bodyTokens 4 reads) =
      .ok (stateStat 3 :: bodyStats 4 reads, [⟨.keyword "end", 4 + reads.length + 1⟩]) := by
    rw [run_block_state 3 4 (k + 3), run_bind_ok hbody]
    rfl
  rw [run_block_object, run_bind_ok hstate]
  rfl

/-- The head of the constructor opens a function, whose body follows. -/
theorem run_statement_constructor (fuel : Nat) (className : String) {ls : List Lexeme} {line : Nat}
    {body : List Stat}
    (h : (Parser.block false false (fuel + 15)).run ls = .ok (body, [⟨.keyword "end", line⟩])) :
    (Parser.statement true false (fuel + 19)).run (headTokens 1 className ++ ls) =
      .ok (.assign 1 [.index 1 (.name className) (.str "new".toUTF8)]
        [.function (.mk 1 ["executionState", "inputs"] false body)], []) := by
  -- what follows the name of the function are its parameters and its body
  let opened := (headTokens 1 className).drop 4 ++ ls
  have hparams : (Parser.functionBody (fuel + 16) 1 []).run opened =
      (do
        let body ← Parser.block false false (fuel + 15)
        Parser.keyword "end"
        return Function.mk 1 ["executionState", "inputs"] false body).run ls := rfl
  have hfunction : (Parser.functionBody (fuel + 16) 1 []).run opened =
      .ok (.mk 1 ["executionState", "inputs"] false body, []) := by
    rw [hparams, run_bind_ok h]
    rfl
  have htarget : (Parser.statement true false (fuel + 19)).run (headTokens 1 className ++ ls) =
      (do
        let f ← Parser.functionBody (fuel + 16) 1 []
        return Stat.assign 1 [.index 1 (.name className) (.str "new".toUTF8)]
          [.function f]).run opened := rfl
  rw [htarget, run_bind_ok hfunction]
  rfl

/-- There is at least one token for each field. -/
theorem length_bodyTokens (line : Nat) (reads : List (String × String)) :
    reads.length ≤ (bodyTokens line reads).length := by
  induction reads generalizing line with
  | nil => exact Nat.zero_le _
  | cons r reads ih =>
    have hrest := ih (line + 1)
    rw [bodyTokens, List.length_append, List.length_cons]
    have hread : (readTokens line r).length = 8 := rfl
    omega

/-- A script is what its tokens are as a block. -/
theorem script_eq {source : String} {tokens : List Lexeme} {stats : List Stat}
    (hscan : scan source = .ok tokens)
    (hblock : (Parser.block true false (Parser.levelsPerToken * (tokens.length + 2))).run tokens =
      .ok (stats, [])) : Parser.script source = .ok stats := by
  simp only [Parser.script, hscan, Except.bind, bind]
  rw [hblock]
  rfl

/-- A block that begins with a function has a function first. -/
theorem run_block_function (fuel : Nat) (className : String) (ls : List Lexeme) :
    (Parser.block true false (fuel + 1)).run (headTokens 1 className ++ ls) =
      (do
        let s ← Parser.statement true false fuel
        return s :: (← Parser.block true false fuel)).run (headTokens 1 className ++ ls) := by
  rfl

/-- **A machine parses the text of the constructor as the tree of the constructor.** -/
theorem script_constructor (m : Model) (width : Nat) :
    Parser.script (Code.text width (constructor m (Names.ofModel m))) =
      .ok [constructorTree (Names.ofModel m).className (memberReads m)] := by
  refine script_eq (scan_constructor m width) ?_
  generalize (Names.ofModel m).className = className
  generalize memberReads m = reads
  have hlen : reads.length + 24 ≤ (constructorTokens className reads).length := by
    have hbody := length_bodyTokens 4 reads
    simp only [constructorTokens, List.length_append]
    have hfixed : (headTokens 1 className).length + (objectTokens 2 className).length +
      (stateTokens 3).length = 24 := rfl
    omega
  obtain ⟨k, hfuel⟩ : ∃ k, Parser.levelsPerToken *
      ((constructorTokens className reads).length + 2) = k + 20 := by
    refine Nat.exists_eq_add_of_le' ?_
    unfold Parser.levelsPerToken
    omega
  have hk : reads.length + 1 ≤ k := by
    unfold Parser.levelsPerToken at hfuel
    omega
  have hstatement := run_statement_constructor k className
    (run_block_constructor className (k + 15) reads (by omega))
  rw [hfuel, constructorTokens, run_block_function, run_bind_ok hstatement]
  rfl

end GraphScript.Emit.Script
