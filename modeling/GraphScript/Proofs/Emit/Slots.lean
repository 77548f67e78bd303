import GraphScript.Proofs.Emit.Chunk
import GraphScript.Proofs.Script.Scan
import GraphScript.Proofs.Script.Table

/-!
# Proofs/Emit/Slots — what a chunk puts into its class table

`slot?` scans a line as the machine does and says which slot of the class table it assigns.  The
lines of the chunk itself, which are those of level zero (`le_level_block`), assign three kinds of
slots: the table's `__index`, the constructor `new`, and each entry under the name it has in the
model (`exists_filled`).  The table holds what a slot was last assigned (`held_eq`), so an entry is
always found, and one that is called like another slot hides it (`Filled.held_eq_iff`).
-/

namespace GraphScript.Emit.Script

open Code (Stands)
open GraphScript.Script (Key Lexeme Table Token Value)
open GraphScript.Script.Token

/-! ## Reading a line -/

/-- The slot of the class table that a statement assigns, given its tokens. -/
def slotOf (className : String) : List Token → Option ByteArray
  | .name c :: .symbol "." :: .name key :: .symbol "=" :: _ =>
    if c = className then some key.toUTF8 else none
  | .name c :: .symbol "[" :: .str key :: .symbol "]" :: .symbol "=" :: _ =>
    if c = className then some key else none
  | .keyword "function" :: .name c :: .symbol "." :: .name key :: .symbol "(" :: _ =>
    if c = className then some key.toUTF8 else none
  | _ => none

/-- The slot of the class table that a line assigns. -/
def slot? (className line : String) : Option ByteArray :=
  match Token.scan line with
  | .ok lexemes => slotOf className (lexemes.map (·.token))
  | .error _ => none

/-- The slot that a line assigns is decided by its tokens. -/
theorem slot?_eq {className line : String} {ls : List Lexeme} (h : Scans 1 line.toList ls) :
    slot? className line = slotOf className (ls.map (·.token)) := by
  rw [slot?, scan_eq h]

/-- A line that starts with a keyword assigns nothing, but for that of a function. -/
theorem slot?_of_keyword {className line key : String} {rest : List Char}
    (hline : line.toList = key.toList ++ rest) (hrest : ∀ c ∈ rest.head?, inName c = false)
    (hkey : Names.IsIdentifier key ∧ ofWord key = .keyword key) (hne : key ≠ "function") :
    slot? className line = none := by
  have hfront : front 1 line.toList = .ok (.token (.keyword key) 1 rest) := by
    rw [hline, front_identifier hkey.1 hrest, hkey.2]
  unfold slot? scan
  simp only [scanFrom, hfront]
  cases scanFrom line.toList.length 1 rest with
  | error e => rfl
  | ok lexemes =>
    simp only [List.map_cons]
    unfold slotOf
    split
    all_goals simp_all

/-- A word that is not reserved is a name. -/
theorem ofWord_eq_name {w : String} (h : ¬ Names.Reserved w) : ofWord w = .name w := by
  have hkeyword : keywords.contains w = false := by
    simpa using fun hm => h (Or.inl hm)
  rw [ofWord, hkeyword]
  rfl

/-- A list of parameters is read up to its end. -/
theorem exists_scans_params {line : Nat} : ∀ {w : String} {ws : List String},
    (∀ x ∈ w :: ws, Names.IsIdentifier x) →
      ∃ ls, Scans line ((commaList (w :: ws)).toList ++ [')']) ls
  | w, [], h => by
      have hchars : commaList [w] = w := by simp [commaList]
      rw [hchars]
      exact ⟨_, scans_word (h w List.mem_cons_self) (by simp [inName])
        (scans_lone (e := (')', ")")) (by decide) .done)⟩
  | w, v :: ws, h => by
      obtain ⟨ls, hls⟩ := exists_scans_params fun x hx => h x (List.mem_cons_of_mem _ hx)
      have hchars : (commaList (w :: v :: ws)).toList ++ [')'] =
          w.toList ++ ',' :: ' ' :: ((commaList (v :: ws)).toList ++ [')']) := by
        rw [commaList, String.intercalate_cons_cons, String.toList_append, String.toList_append,
          List.append_assoc, List.append_assoc]
        rfl
      rw [hchars]
      exact ⟨_, scans_word (h w List.mem_cons_self) (by simp [inName])
        (scans_lone (e := (',', ",")) (by decide) (scans_blank hls))⟩

section Lines

variable {className : String} (hclass : Names.IsIdentifier className)
  (hfree : ¬ Names.Reserved className)

include hclass hfree

/-- The index is assigned. -/
theorem slot?_index : slot? className (className ++ ".__index = " ++ className) =
    some "__index".toUTF8 := by
  have hchars : (className ++ ".__index = " ++ className).toList =
      className.toList ++ '.' :: ("__index".toList ++ ' ' :: '=' :: ' ' ::
        (className.toList ++ [])) := by
    simp [String.toList_append]
  have hscan : Scans 1 (className ++ ".__index = " ++ className).toList
      [⟨ofWord className, 1⟩, ⟨.symbol ".", 1⟩, ⟨ofWord "__index", 1⟩, ⟨.symbol "=", 1⟩,
        ⟨ofWord className, 1⟩] := by
    rw [hchars]
    refine scans_word hclass (by simp [inName]) (.token rfl (Nat.lt_succ_self _) ?_)
    refine scans_word (isIdentifier_of_chars (by decide) (by decide)) (by simp [inName])
      (scans_blank (scans_equals ?_))
    exact scans_word hclass (by simp) .done
  rw [slot?_eq hscan, ofWord_eq_name hfree]
  exact if_pos rfl

/-- The head of the constructor assigns its slot. -/
theorem slot?_new : slot? className ("function " ++ className ++ ".new(executionState, inputs)") =
    some "new".toUTF8 := by
  have hchars : ("function " ++ className ++ ".new(executionState, inputs)").toList =
      "function".toList ++ ' ' :: (className.toList ++ '.' :: ("new".toList ++
        '(' :: ((commaList ["executionState", "inputs"]).toList ++ [')']))) := by
    simp [String.toList_append, commaList]
  have hwords : ∀ w ∈ ["executionState", "inputs"], Names.IsIdentifier w := by
    refine List.forall_mem_cons.mpr ⟨?_, List.forall_mem_singleton.mpr ?_⟩
    · exact isIdentifier_of_chars (by decide) (by decide)
    · exact isIdentifier_of_chars (by decide) (by decide)
  obtain ⟨ls, hls⟩ := exists_scans_params hwords
  have hscan : Scans 1 ("function " ++ className ++ ".new(executionState, inputs)").toList
      (⟨ofWord "function", 1⟩ :: ⟨ofWord className, 1⟩ :: ⟨.symbol ".", 1⟩ :: ⟨ofWord "new", 1⟩ ::
        ⟨.symbol "(", 1⟩ :: ls) := by
    rw [hchars]
    refine scans_word (isIdentifier_of_chars (by decide) (by decide)) (by simp [inName])
      (scans_blank (scans_word hclass (by simp [inName]) (.token rfl (Nat.lt_succ_self _) ?_)))
    exact scans_word (isIdentifier_of_chars (by decide) (by decide)) (by simp [inName])
      (scans_lone (e := ('(', "(")) (by decide) hls)
  rw [slot?_eq hscan, ofWord_eq_name hfree]
  exact if_pos rfl

/-- The head of an entry assigns the slot of its name. -/
theorem slot?_entry (name : String) {params : List String}
    (hparams : ∀ p ∈ params, Names.IsIdentifier p) :
    slot? className (className ++ "[" ++ Literal.string .script name ++ "] = function(" ++
      commaList ("self" :: params) ++ ")") = some name.toUTF8 := by
  have hchars : (className ++ "[" ++ Literal.string .script name ++ "] = function(" ++
      commaList ("self" :: params) ++ ")").toList =
      className.toList ++ '[' :: ((Literal.string .script name).toList ++
        ']' :: ' ' :: '=' :: ' ' :: ("function".toList ++
          '(' :: ((commaList ("self" :: params)).toList ++ [')']))) := by
    simp [String.toList_append]
  have hself : Names.IsIdentifier "self" := isIdentifier_of_chars (by decide) (by decide)
  obtain ⟨ls, hls⟩ := exists_scans_params (List.forall_mem_cons.mpr ⟨hself, hparams⟩)
  have hscan : Scans 1 (className ++ "[" ++ Literal.string .script name ++ "] = function(" ++
      commaList ("self" :: params) ++ ")").toList
      (⟨ofWord className, 1⟩ :: ⟨.symbol "[", 1⟩ :: ⟨.str name.toUTF8, 1⟩ :: ⟨.symbol "]", 1⟩ ::
        ⟨.symbol "=", 1⟩ :: ⟨ofWord "function", 1⟩ :: ⟨.symbol "(", 1⟩ :: ls) := by
    rw [hchars]
    refine scans_word hclass (by simp [inName]) (scans_key name (scans_blank (scans_equals ?_)))
    exact scans_word (isIdentifier_of_chars (by decide) (by decide)) (by simp [inName])
      (scans_lone (e := ('(', "(")) (by decide) hls)
  rw [slot?_eq hscan, ofWord_eq_name hfree]
  exact if_pos rfl

end Lines

/-! ## Levels -/

theorem le_level_mark {level : Nat} {symbol : DebugSymbol} : ∀ {ls : List Line},
    (∀ l ∈ ls, level ≤ l.level) → ∀ l ∈ Line.mark symbol ls, level ≤ l.level
  | [], h => h
  | _ :: _, h => List.forall_mem_cons.mpr (List.forall_mem_cons.mp h)

/-- A line, a block one level further in and what comes after it. -/
theorem le_level_framed {level : Nat} {text : String} {inner after : List Line}
    (hinner : ∀ l ∈ inner, level + 1 ≤ l.level) (hafter : ∀ l ∈ after, level ≤ l.level) :
    ∀ l ∈ (⟨level, text, none⟩ :: inner) ++ after, level ≤ l.level :=
  List.forall_mem_append.mpr ⟨List.forall_mem_cons.mpr ⟨Nat.le_refl level, fun l hl =>
    Nat.le_of_succ_le (hinner l hl)⟩, hafter⟩

mutual

/-- **The lines of a statement are indented as far as the statement**, at least. -/
theorem le_level_statement (c : Context) (level : Nat) (isLast : Bool) : ∀ s : Statement,
    ∀ l ∈ statement c level isLast s, level ≤ l.level
  | .mk origin slot kind => by
      unfold statement
      refine List.forall_mem_append.mpr
        ⟨?_, le_level_mark (le_level_kindLines c level isLast _ kind)⟩
      split
      · exact List.forall_mem_singleton.mpr (Nat.le_refl level)
      · exact List.forall_mem_nil _

theorem le_level_kindLines (c : Context) (level : Nat) (isLast : Bool) (symbol : DebugSymbol) :
    ∀ k : StatementKind, ∀ l ∈ kindLines c level isLast symbol k, level ≤ l.level
  | .cond e t [] => le_level_framed (le_level_block c (level + 1) t)
      (List.forall_mem_singleton.mpr (Nat.le_refl level))
  | .cond e t (s :: r) => by
      rw [kindLines, List.append_assoc]
      exact le_level_framed (le_level_block c (level + 1) t)
        (le_level_framed (le_level_block c (level + 1) (s :: r))
          (List.forall_mem_singleton.mpr (Nat.le_refl level)))
  | .loop e b => le_level_framed (le_level_block c (level + 1) b)
      (List.forall_mem_singleton.mpr (Nat.le_refl level))
  | .script source => by
      rw [kindLines]
      refine List.forall_mem_append.mpr ⟨?_, List.forall_mem_map.mpr fun _ _ => Nat.le_refl level⟩
      split
      · exact List.forall_mem_singleton.mpr (Nat.le_refl level)
      · exact List.forall_mem_nil _
  | .setMember .. | .setLocal .. | .call .. | .fire .. | .log _ | .ret _ =>
      List.forall_mem_singleton.mpr (Nat.le_refl level)

/-- **What stands inside a function is indented.** -/
theorem le_level_block (c : Context) (level : Nat) : ∀ body : List Statement,
    ∀ l ∈ block c level body, level ≤ l.level
  | [] => List.forall_mem_nil _
  | s :: r => by
      rw [block]
      exact List.forall_mem_append.mpr
        ⟨le_level_statement c level r.isEmpty s, le_level_block c level r⟩

end

/-! ## The slots of a list of lines -/

/-- The slot of the class table that a line of the chunk itself assigns, with the line's number.
What stands further in is the body of a function. -/
def assigned? (className : String) (e : Line × Nat) : Option (ByteArray × Nat) :=
  if e.1.level = 0 then (slot? className e.1.text).map (·, e.2) else none

/-- The slots of the class table that lines assign, the first of which has the number `n`. -/
def slots (className : String) (n : Nat) (ls : List Line) : List (ByteArray × Nat) :=
  (ls.zipIdx n).filterMap (assigned? className)

theorem slots_nil (className : String) (n : Nat) : slots className n [] = [] := rfl

/-- Slots are assigned line by line. -/
theorem slots_append (className : String) (n : Nat) (ls rs : List Line) :
    slots className n (ls ++ rs) =
      slots className n ls ++ slots className (n + ls.length) rs := by
  rw [slots, List.zipIdx_append, List.filterMap_append]
  rfl

/-- A line that assigns a slot assigns it under its number. -/
theorem slots_cons_some {className text : String} {n : Nat} {symbol : Option DebugSymbol}
    {ls : List Line} {key : ByteArray} (h : slot? className text = some key) :
    slots className n (⟨0, text, symbol⟩ :: ls) = (key, n) :: slots className (n + 1) ls := by
  rw [slots, List.zipIdx_cons]
  refine List.filterMap_cons_some ?_
  rw [assigned?, if_pos rfl, h]
  rfl

theorem slots_cons_none {className text : String} {n level : Nat} {symbol : Option DebugSymbol}
    {ls : List Line} (h : slot? className text = none) :
    slots className n (⟨level, text, symbol⟩ :: ls) = slots className (n + 1) ls := by
  rw [slots, List.zipIdx_cons]
  refine List.filterMap_cons_none ?_
  rw [assigned?, h]
  exact ite_self none

/-- Lines that assign nothing leave nothing. -/
theorem slots_eq_nil {className : String} {n : Nat} {ls : List Line}
    (h : ∀ l ∈ ls, l.level = 0 → slot? className l.text = none) : slots className n ls = [] := by
  refine List.filterMap_eq_nil_iff.mpr fun e he => ?_
  unfold assigned?
  split
  · rename_i hlevel
    rw [h e.1 (List.fst_mem_of_mem_zipIdx he) hlevel]
    rfl
  · rfl

/-- A slot is assigned by its line. -/
theorem snd_of_assigned? {className : String} {e : Line × Nat} {slot : ByteArray × Nat}
    (h : assigned? className e = some slot) : slot.2 = e.2 := by
  unfold assigned? at h
  split at h
  · obtain ⟨_, _, rfl⟩ := Option.map_eq_some_iff.mp h
    rfl
  · cases h

/-- Slots come in the order of their lines. -/
theorem pairwise_slots (className : String) (n : Nat) (ls : List Line) :
    (slots className n ls).Pairwise fun a b => a.2 < b.2 := by
  have hidx : (ls.zipIdx n).Pairwise fun a b => a.2 < b.2 := by
    refine List.pairwise_map.mp ?_
    rw [List.zipIdx_map_snd]
    exact List.pairwise_lt_range'
  refine List.pairwise_filterMap.mpr (hidx.imp fun hab x hx y hy => ?_)
  rwa [snd_of_assigned? hx, snd_of_assigned? hy]

/-! ## The slots of a chunk -/

theorem slot?_blank (className : String) : slot? className "" = none := rfl

theorem slot?_end (className : String) : slot? className "end" = none :=
  slot?_of_keyword (List.append_nil _).symm (by simp)
    ⟨isIdentifier_of_chars (by decide) (by decide), rfl⟩ (by decide)

/-- Declaring something local assigns no slot. -/
theorem slot?_local (className text : String) : slot? className ("local " ++ text) = none := by
  have hline : ("local " ++ text).toList = "local".toList ++ ' ' :: text.toList := by
    simp [String.toList_append]
  exact slot?_of_keyword hline (by simp [inName])
    ⟨isIdentifier_of_chars (by decide) (by decide), rfl⟩ (by decide)

theorem slot?_return (className text : String) : slot? className ("return " ++ text) = none := by
  have hline : ("return " ++ text).toList = "return".toList ++ ' ' :: text.toList := by
    simp [String.toList_append]
  exact slot?_of_keyword hline (by simp [inName])
    ⟨isIdentifier_of_chars (by decide) (by decide), rfl⟩ (by decide)

/-- At its line the text opens the entry, under the entry's own name. -/
def OpensAt (m : Model) (text : List String) (f : FunctionDef) (slot : ByteArray × Nat) : Prop :=
  slot.1 = f.name.toUTF8 ∧ ∃ own, (Names.ofModel m).function? f.id = some own ∧
    Stands text slot.2 [header (Names.ofModel m) f own]

/-- The slots of a class table, each with the line of the text that assigns it. -/
structure Filled (m : Model) (text : List String) (index new : Nat)
    (own all : List (ByteArray × Nat)) : Prop where
  all_eq : all = ("__index".toUTF8, index) :: ("new".toUTF8, new) :: own
  index_line : Stands text index
    [(Names.ofModel m).className ++ ".__index = " ++ (Names.ofModel m).className]
  new_line : Stands text new
    ["function " ++ (Names.ofModel m).className ++ ".new(executionState, inputs)"]
  entries : List.Forall₂ (OpensAt m text) (entries m) own

section Chunk

variable {m : Model} {o : Options} {text : List String} {width : Nat}

theorem isIdentifier_className (m : Model) : Names.IsIdentifier (Names.ofModel m).className :=
  Names.isIdentifier_of_marked (Names.marked_all m _ List.mem_cons_self)

theorem not_reserved_className (m : Model) : ¬ Names.Reserved (Names.ofModel m).className :=
  Names.not_reserved_of_marked (Names.marked_all m _ List.mem_cons_self)

/-- Parameters are written as identifiers. -/
theorem isIdentifier_params {id : FunctionId} {own : Names.Function}
    (h : (Names.ofModel m).function? id = some own) :
    ∀ p ∈ own.params, Names.IsIdentifier p := fun p hp => by
  refine Names.isIdentifier_of_marked (Names.marked_all m p (List.mem_append_right _ ?_))
  exact List.mem_flatMap.mpr ⟨_, Names.mem_of_last? h, List.mem_append_left _ hp⟩

/-- Below its first line a function assigns no slot. -/
theorem exists_function_eq {f : FunctionDef} {own : Names.Function}
    (hown : (Names.ofModel m).function? f.id = some own) :
    ∃ below, function m (Names.ofModel m) o f =
        ⟨0, header (Names.ofModel m) f own, some ⟨f.origin, none, f.name⟩⟩ :: below ∧
      ∀ l ∈ below, l.level = 0 → slot? (Names.ofModel m).className l.text = none := by
  simp only [function, hown, List.cons_append]
  refine ⟨_, rfl, List.forall_mem_append.mpr ⟨List.forall_mem_append.mpr ⟨?_, ?_⟩, ?_⟩⟩
  · exact List.forall_mem_map.mpr fun _ _ => (absurd · Nat.one_ne_zero)
  · intro l hl hlevel
    have hle := le_level_block _ 1 f.body l hl
    omega
  · exact List.forall_mem_cons.mpr
      ⟨fun _ => slot?_end _, List.forall_mem_singleton.mpr fun _ => slot?_blank _⟩

/-- An internal function assigns no slot. -/
theorem slot?_internal {f : FunctionDef} (hf : f.kind = .internal) :
    ∀ l ∈ function m (Names.ofModel m) o f, l.level = 0 →
      slot? (Names.ofModel m).className l.text = none := by
  cases hown : (Names.ofModel m).function? f.id with
  | none =>
    rw [function, hown]
    exact List.forall_mem_nil _
  | some own =>
    obtain ⟨below, heq, hbelow⟩ := exists_function_eq (o := o) hown
    rw [heq]
    refine List.forall_mem_cons.mpr ⟨fun _ => ?_, hbelow⟩
    simp only [header, hf, String.append_assoc]
    exact slot?_local _ ("function " ++ _)

/-- An entry assigns the slot of its name, in its first line. -/
theorem slots_entry {f : FunctionDef} {own : Names.Function} (hf : f.kind = .entry)
    (hown : (Names.ofModel m).function? f.id = some own) (n : Nat) :
    slots (Names.ofModel m).className n (function m (Names.ofModel m) o f) =
      [(f.name.toUTF8, n)] := by
  obtain ⟨below, heq, hbelow⟩ := exists_function_eq (o := o) hown
  have hheader : slot? (Names.ofModel m).className (header (Names.ofModel m) f own) =
      some f.name.toUTF8 := by
    simp only [header, hf]
    exact slot?_entry (isIdentifier_className m) (not_reserved_className m) f.name
      (isIdentifier_params hown)
  rw [heq, slots_cons_some hheader, slots_eq_nil hbelow]

/-- The constructor assigns the slot `new`, in its first line. -/
theorem slots_constructor (n : Nat) :
    slots (Names.ofModel m).className n (constructor m (Names.ofModel m)) =
      [("new".toUTF8, n)] := by
  have hnew := slot?_new (isIdentifier_className m) (not_reserved_className m)
  simp only [constructor, List.cons_append, List.nil_append]
  rw [slots_cons_some hnew, slots_eq_nil]
  refine List.forall_mem_cons.mpr ⟨(absurd · Nat.one_ne_zero), List.forall_mem_cons.mpr
    ⟨(absurd · Nat.one_ne_zero), List.forall_mem_append.mpr ⟨?_, ?_⟩⟩⟩
  · exact List.forall_mem_map.mpr fun _ _ => (absurd · Nat.one_ne_zero)
  · exact List.forall_mem_cons.mpr ⟨(absurd · Nat.one_ne_zero), List.forall_mem_cons.mpr
      ⟨fun _ => slot?_end _, List.forall_mem_singleton.mpr fun _ => slot?_blank _⟩⟩

/-- **Entries assign their slots**, in order and where they open. -/
theorem forall₂_opensAt : ∀ {fs : List FunctionDef} {n : Nat},
    (∀ f ∈ fs, f ∈ m.functions ∧ f.kind = .entry) →
      Stands text n ((fs.flatMap (function m (Names.ofModel m) o)).map (Line.shown width)) →
        List.Forall₂ (OpensAt m text) fs
          (slots (Names.ofModel m).className n (fs.flatMap (function m (Names.ofModel m) o)))
  | [], _, _, _ => .nil
  | f :: fs, n, h, hstands => by
      obtain ⟨⟨hmem, hkind⟩, hrest⟩ := List.forall_mem_cons.mp h
      obtain ⟨own, hown⟩ := Option.isSome_iff_exists.mp
        (Names.isSome_function?.mpr (List.mem_map_of_mem (f := (·.id)) hmem))
      obtain ⟨below, heq, _⟩ := exists_function_eq (o := o) hown
      rw [List.flatMap_cons] at hstands ⊢
      rw [List.map_append] at hstands
      have hnext := hstands.right
      rw [List.length_map] at hnext
      rw [slots_append, slots_entry hkind hown]
      refine .cons ⟨rfl, own, hown, ?_⟩ (forall₂_opensAt hrest hnext)
      have hheader := hstands.left
      rw [heq, List.map_cons, Line.shown_of_level (l := ⟨0, _, _⟩) _ rfl] at hheader
      exact hheader.head

/-- What opens the chunk assigns the index alone. -/
theorem slots_opening (n : Nat) :
    slots (Names.ofModel m).className n (opening m (Names.ofModel m)).tail =
      [("__index".toUTF8, n + 1)] := by
  have hdeclared : slot? (Names.ofModel m).className
      ("local " ++ (Names.ofModel m).className ++ " = \x7b\x7d") = none := by
    rw [String.append_assoc]
    exact slot?_local _ _
  have hindex := slot?_index (isIdentifier_className m) (not_reserved_className m)
  rw [opening, List.tail_cons, slots_cons_none hdeclared, slots_cons_some hindex,
    Line.blank, slots_cons_none (slot?_blank _), slots_nil]

/-- **What a chunk puts into its class table**: the table itself, the constructor, and the entries in
the order of their declaration. -/
theorem exists_filled (m : Model) (o : Options) (order : List FunctionId) :
    ∃ index new own, Filled m (Text.split '\n' (Code.text o.indentWidth (lines m o order)))
      index new own (slots (Names.ofModel m).className (bannerHeight m + 1) (rest m o order)) := by
  have hstands := ((stands_rest m o order).map (Line.shown o.indentWidth)).append [""]
  rw [← split_emitted] at hstands
  have hinternals : ∀ l ∈ (internals m order).flatMap (function m (Names.ofModel m) o),
      l.level = 0 → slot? (Names.ofModel m).className l.text = none := by
    intro l hl
    obtain ⟨f, hf, hl⟩ := List.mem_flatMap.mp hl
    exact slot?_internal (of_decide_eq_true (List.mem_filter.mp hf).2) l hl
  rw [rest, slots_append, slots_append, slots_append, slots_append, slots_opening,
    slots_eq_nil hinternals, slots_constructor, slots_cons_none (slot?_return _ _), slots_nil,
    List.append_nil, List.append_nil]
  simp only [rest, List.map_append] at hstands
  refine ⟨_, _, _, ⟨rfl, ?_, ?_, ?_⟩⟩
  · have hindex := hstands.left.left.left.left.tail.head
    rwa [Line.shown_of_level (l := ⟨0, _, _⟩) _ rfl] at hindex
  · have hnew := hstands.left.left.right
    rw [← List.map_append, List.length_map] at hnew
    simp only [constructor, List.cons_append, List.map_cons] at hnew
    rw [Line.shown_of_level (l := ⟨0, _, _⟩) _ rfl] at hnew
    exact hnew.head
  · have hentries := hstands.left.right
    rw [← List.map_append, ← List.map_append, List.length_map] at hentries
    refine forall₂_opensAt (fun f hf => ?_) hentries
    exact ⟨mem_functions_of_mem_entries hf, of_decide_eq_true (List.mem_filter.mp hf).2⟩

end Chunk

/-! ## What the table holds -/

/-- What a slot holds once the lines have run, given what each line assigns. -/
def held (value : Nat → Value) (all : List (ByteArray × Nat)) (key : String) : Value :=
  (all.foldl (fun t s => t.set (.str s.1) (value s.2)) ({} : Table)).get (.str key.toUTF8)

/-- The table holds what was assigned last. -/
theorem held_eq {value : Nat → Value} (hvalue : ∀ n, (value n).isNil = false)
    (all : List (ByteArray × Nat)) (key : String) :
    held value all key = ((Names.last? all key.toUTF8).map value).getD .nil := by
  have hlast : Names.last? (all.map fun s => (Key.str s.1, value s.2)) (.str key.toUTF8) =
      (Names.last? all key.toUTF8).map value := by
    simp only [Names.last?, Entries.get?, ← List.map_reverse, List.find?_map, Option.map_map,
      Function.comp_def, Key.str.injEq]
  have hnil : ∀ e ∈ all.map fun s => (Key.str s.1, value s.2), e.2.isNil = false :=
    List.forall_mem_map.mpr fun s _ => hvalue s.2
  have hset := Table.get_foldl_set (.str key.toUTF8) {} hnil
  rw [List.foldl_map, hlast] at hset
  exact hset

theorem toUTF8_injective : Function.Injective String.toUTF8 := fun _ _ h =>
  String.toByteArray_inj.mp h

namespace Filled

variable {m : Model} {text : List String} {index new : Nat} {own all : List (ByteArray × Nat)}
  (h : Filled m text index new own all)

include h

/-- The slots of entries have their names. -/
theorem map_fst_own : own.map (·.1) = ((Script.entries m).map (·.name)).map String.toUTF8 := by
  have hkeys : List.Forall₂ (· = ·) (own.map (·.1))
      (((Script.entries m).map (·.name)).map String.toUTF8) := by
    rw [List.map_map, List.forall₂_map_left_iff, List.forall₂_map_right_iff]
    exact h.entries.flip.imp fun _ _ hs => hs.1
  rwa [List.forall₂_eq_eq_eq] at hkeys

/-- The keys are pairwise different unless an entry has one of the two names that are taken. -/
theorem nodup_iff (hnd : ((Script.entries m).map (·.name)).Nodup) : (all.map (·.1)).Nodup ↔
    ∀ f ∈ Script.entries m, f.name ≠ "__index" ∧ f.name ≠ "new" := by
  have hkeys : all.map (·.1) =
      ("__index" :: "new" :: (Script.entries m).map (·.name)).map String.toUTF8 := by
    rw [h.all_eq, List.map_cons, List.map_cons, List.map_cons, List.map_cons, h.map_fst_own]
  rw [hkeys, List.nodup_map_iff toUTF8_injective, List.nodup_cons, List.nodup_cons]
  constructor
  · rintro ⟨hindex, hnew, _⟩ f hf
    have hmem := List.mem_map_of_mem (f := (·.name)) hf
    exact ⟨fun he => hindex (List.mem_cons_of_mem _ (he ▸ hmem)), fun he => hnew (he ▸ hmem)⟩
  · intro hfree
    refine ⟨fun hm => ?_, fun hm => ?_, hnd⟩
    · rcases List.mem_cons.mp hm with he | hm
      · exact absurd he (by decide)
      · obtain ⟨f, hf, he⟩ := List.mem_map.mp hm
        exact (hfree f hf).1 he
    · obtain ⟨f, hf, he⟩ := List.mem_map.mp hm
      exact (hfree f hf).2 he

/-- The slot of an entry goes before those of the class. -/
theorem last?_eq (key : ByteArray) : Names.last? all key =
    (Names.last? own key).or
      (Names.last? [("__index".toUTF8, index), ("new".toUTF8, new)] key) := by
  rw [h.all_eq, ← Names.last?_append]
  rfl

variable {value : Nat → Value} (hvalue : ∀ n, (value n).isNil = false)

include hvalue

/-- **Under its name an entry is found.** -/
theorem held_entry (hnd : ((Script.entries m).map (·.name)).Nodup) :
    ∀ e ∈ (Script.entries m).zip own, held value all e.1.name = value e.2.2 := by
  intro e he
  have hkey : e.2.1 = e.1.name.toUTF8 := ((List.forall₂_iff_zip.mp h.entries).2 he).1
  have hkeys : (own.map (·.1)).Nodup := h.map_fst_own ▸ hnd.map toUTF8_injective
  have hlast : Names.last? own e.1.name.toUTF8 = some e.2.2 :=
    Names.last?_of_mem hkeys (hkey ▸ (List.of_mem_zip he).2)
  rw [held_eq hvalue, h.last?_eq, hlast]
  rfl

/-- A slot that is assigned above the entries keeps its value unless an entry has its name. -/
theorem held_eq_iff (hnd : ((Script.entries m).map (·.name)).Nodup)
    (hinj : Function.Injective value) {key : String} {n : Nat}
    (hn : (key.toUTF8, n) ∈ [("__index".toUTF8, index), ("new".toUTF8, new)])
    (hlt : ∀ s ∈ own, n < s.2) :
    held value all key = value n ↔ ∀ f ∈ Script.entries m, f.name ≠ key := by
  constructor
  · intro heq f hf hname
    have hfst : ((Script.entries m).zip own).map Prod.fst = Script.entries m :=
      List.map_fst_zip (Nat.le_of_eq h.entries.length_eq)
    obtain ⟨e, he, rfl⟩ := List.mem_map.mp (hfst.symm ▸ hf)
    have hentry := h.held_entry hvalue hnd e he
    rw [hname, heq] at hentry
    exact Nat.ne_of_lt (hlt e.2 (List.of_mem_zip he).2) (hinj hentry)
  · intro hfree
    have hnone : Names.last? own key.toUTF8 = none := by
      rw [← Option.not_isSome_iff_eq_none, Names.isSome_last?, h.map_fst_own,
        List.mem_map_of_injective toUTF8_injective]
      intro hm
      obtain ⟨f, hf, he⟩ := List.mem_map.mp hm
      exact hfree f hf he
    have hkeys : ([("__index".toUTF8, index), ("new".toUTF8, new)].map (·.1)).Nodup :=
      List.Nodup.map (l := ["__index", "new"]) toUTF8_injective (by decide)
    rw [held_eq hvalue, h.last?_eq, hnone, Names.last?_of_mem hkeys hn]
    rfl

end Filled

/-- **What the class table of a chunk holds.**  A valid model can be emitted exactly if no two
variables share an identifier.  Below the declaration of the class, the chunk assigns the table's
`__index`, then the constructor to `new`, then every entry to its name.  These keys are pairwise
different exactly if no entry is called `__index` or `new`; an entry is always found under its name,
so that one of these two names hides what stood there. -/
theorem class_slots_distinct_iff (m : Model) (o : Options) (hv : m.isValid = true) :
    ((∃ e, emit m o = .ok e) ↔ (m.members.map (·.id)).Nodup) ∧
      ∀ e, emit m o = .ok e → ∃ order index new own all, m.callOrder = .ok order ∧
        Text.split '\n' e.text = Text.split '\n' (banner m).text ++
          (rest m o order).map (Line.shown o.indentWidth) ++ [""] ∧
        all = slots (Names.ofModel m).className (bannerHeight m + 1) (rest m o order) ∧
        Filled m (Text.split '\n' e.text) index new own all ∧
        ((all.map (·.1)).Nodup ↔ ∀ f ∈ entries m, f.name ≠ "__index" ∧ f.name ≠ "new") ∧
        ∀ value : Nat → Value, (∀ n, (value n).isNil = false) →
          (∀ e ∈ (entries m).zip own, held value all e.1.name = value e.2.2) ∧
          (Function.Injective value →
            (held value all "new" = value new ↔ ∀ f ∈ entries m, f.name ≠ "new") ∧
            (held value all "__index" = value index ↔ ∀ f ∈ entries m, f.name ≠ "__index")) := by
  have hvalid := Model.isValid_iff.mp hv
  refine ⟨exists_emit_iff hvalid o, fun e he => ?_⟩
  obtain ⟨order, horder, htext, _⟩ := emit_ok he
  obtain ⟨index, new, own, hfilled⟩ := exists_filled m o order
  have hnd : ((entries m).map (·.name)).Nodup := hvalid.names.sublist (List.filter_sublist.map _)
  have hlines := pairwise_slots (Names.ofModel m).className (bannerHeight m + 1) (rest m o order)
  rw [hfilled.all_eq, List.pairwise_cons, List.pairwise_cons, List.forall_mem_cons] at hlines
  obtain ⟨⟨_, hindex⟩, hnew, _⟩ := hlines
  rw [htext]
  refine ⟨order, index, new, own, _, horder, ?_, rfl, hfilled, hfilled.nodup_iff hnd,
    fun value hvalue => ⟨hfilled.held_entry hvalue hnd, fun hinj => ⟨?_, ?_⟩⟩⟩
  · rw [split_emitted, shownLines, List.map_append, map_shown_pieces]
  · exact hfilled.held_eq_iff hvalue hnd hinj (by simp) hnew
  · exact hfilled.held_eq_iff hvalue hnd hinj (by simp) hindex

/-- A relay that can be reset, by an entry of the constructor's name. -/
def relay : Model where
  name := "Relay"
  functionEntries := [(⟨0⟩, {
    id := ⟨0⟩, name := "new", kind := .entry, params := [], returns := [], origin := ⟨1⟩
    body := [] })]

/-- The door's table has a slot for each; the relay's entry called `new` takes the constructor's. -/
theorem relay_class_slots :
    (Model.door.isValid = true ∧ ∃ e, emit Model.door {} = .ok e ∧ ∃ index new own all,
      Filled Model.door (Text.split '\n' e.text) index new own all ∧ (all.map (·.1)).Nodup ∧
      held .closure all "new" = .closure new) ∧
    relay.isValid = true ∧ ∃ e, emit relay {} = .ok e ∧ ∃ index new own all,
      Filled relay (Text.split '\n' e.text) index new own all ∧ ¬ (all.map (·.1)).Nodup ∧
      held .closure all "new" ≠ .closure new := by
  have hdoor : Model.door.isValid = true := by decide
  have hrelay : relay.isValid = true := by decide
  have hclosure : Function.Injective Value.closure := fun _ _ => Value.closure.inj
  obtain ⟨hemit, hread⟩ := class_slots_distinct_iff Model.door {} hdoor
  obtain ⟨hemit', hread'⟩ := class_slots_distinct_iff relay {} hrelay
  obtain ⟨e, he⟩ := hemit.mpr (by decide)
  obtain ⟨e', he'⟩ := hemit'.mpr (by decide)
  obtain ⟨_, index, new, own, all, _, _, _, hfilled, hnodup, hheld⟩ := hread e he
  obtain ⟨_, index', new', own', all', _, _, _, hfilled', hnodup', hheld'⟩ := hread' e' he'
  obtain ⟨hnew, _⟩ := (hheld .closure fun _ => rfl).2 hclosure
  obtain ⟨hnew', _⟩ := (hheld' .closure fun _ => rfl).2 hclosure
  refine ⟨⟨hdoor, e, he, index, new, own, all, hfilled, hnodup.mpr (by decide),
      hnew.mpr (by decide)⟩,
    hrelay, e', he', index', new', own', all', hfilled', fun h => ?_, fun h => ?_⟩
  · exact absurd (hnodup'.mp h) (by decide)
  · exact absurd (hnew'.mp h) (by decide)

end GraphScript.Emit.Script
