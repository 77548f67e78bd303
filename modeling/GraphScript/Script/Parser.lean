import GraphScript.Script.Token
import GraphScript.Script.Tree

/-!
# Script/Parser — from tokens to trees

A parser takes what it needs off the front of a list of tokens.  The parsers of expressions and
statements call each other; `fuel` bounds how deep they do, and as many levels as there are tokens
are always enough.
-/

namespace GraphScript.Script

/-- A parser of `α`. -/
abbrev Parser (α : Type) := StateT (List Lexeme) (Except SyntaxFault) α

namespace Parser

/-- The next token. -/
def peek : Parser (Option Token) := do return (← get).head?.map (·.token)

/-- The line of the next token. -/
def line : Parser Nat := do return ((← get).head?.map (·.line)).getD 0

/-- Refuses the next token. -/
def refuse {α : Type} : Parser α := do
  match (← get).head? with
  | some l => throw ⟨l.line, s!"unexpected symbol near '{l.token.text}'"⟩
  | none => throw ⟨0, "unexpected end"⟩

/-- Drops the next token. -/
def advance : Parser Unit := modify (·.drop 1)

/-- Whether the next token is that symbol. -/
def atSymbol (s : String) : Parser Bool := do
  match ← peek with
  | some (.symbol t) => return s == t
  | _ => return false

/-- Whether the next token is that reserved word. -/
def atKeyword (s : String) : Parser Bool := do
  match ← peek with
  | some (.keyword t) => return s == t
  | _ => return false

/-- Drops a symbol if it comes next. -/
def takeSymbol (s : String) : Parser Bool := do
  if ← atSymbol s then advance; return true else return false

/-- Drops a reserved word if it comes next. -/
def takeKeyword (s : String) : Parser Bool := do
  if ← atKeyword s then advance; return true else return false

/-- A symbol that has to come next. -/
def symbol (s : String) : Parser Unit := do
  if !(← takeSymbol s) then refuse

/-- A reserved word that has to come next. -/
def keyword (s : String) : Parser Unit := do
  if !(← takeKeyword s) then refuse

/-- A name. -/
def name : Parser String := do
  match ← peek with
  | some (.name s) => advance; return s
  | _ => refuse

/-- Names with commas between them; `fuel` bounds their number. -/
def names : Nat → Parser (List String)
  | 0 => refuse
  | fuel + 1 => do
    let n ← name
    if ← takeSymbol "," then return n :: (← names fuel) else return [n]

/-- The parameters of a function up to the closing parenthesis, and whether more are taken. -/
def params : Nat → Parser (List String × Bool)
  | 0 => refuse
  | fuel + 1 => do
    if ← takeSymbol "..." then
      symbol ")"
      return ([], true)
    let n ← name
    if ← takeSymbol "," then
      let (ns, isVariadic) ← params fuel
      return (n :: ns, isVariadic)
    symbol ")"
    return ([n], false)

/-- Whether a block ends here. -/
def atBlockEnd : Parser Bool := do
  match ← peek with
  | none => return true
  | some (.keyword k) => return k == "end" || k == "else" || k == "elseif" || k == "until"
  | _ => return false

/-- What joins two operands. -/
inductive Joint where
  | binary (op : Operator)
  | and
  | or

/-- The joint of a token, and how strongly it binds to the left and to the right. -/
def joint? : Option Token → Option (Joint × Nat × Nat)
  | some (.keyword "or") => some (.or, 1, 1)
  | some (.keyword "and") => some (.and, 2, 2)
  | some (.symbol s) =>
    match s with
    | "<" => some (.binary (.compare .lt), 3, 3)
    | ">" => some (.binary (.compare .gt), 3, 3)
    | "<=" => some (.binary (.compare .le), 3, 3)
    | ">=" => some (.binary (.compare .ge), 3, 3)
    | "~=" => some (.binary (.compare .ne), 3, 3)
    | "==" => some (.binary (.compare .eq), 3, 3)
    | ".." => some (.binary .concat, 9, 8)
    | "+" => some (.binary (.arith .add), 10, 10)
    | "-" => some (.binary (.arith .sub), 10, 10)
    | "*" => some (.binary (.arith .mul), 11, 11)
    | "/" => some (.binary (.arith .div), 11, 11)
    | "//" => some (.binary (.arith .floorDiv), 11, 11)
    | "%" => some (.binary (.arith .mod), 11, 11)
    | "^" => some (.binary (.arith .pow), 14, 13)
    | _ => none
  | _ => none

/-- How strongly a unary operator binds. -/
def unaryPower : Nat := 12

/-- The unary operator of a token. -/
def unary? : Option Token → Option UnaryOp
  | some (.keyword "not") => some .not
  | some (.symbol "-") => some .negate
  | some (.symbol "#") => some .length
  | _ => none

/-- Two operands joined. -/
def Joint.join (j : Joint) (line : Nat) (lhs rhs : Term) : Term :=
  match j with
  | .binary op => .binary line op lhs rhs
  | .and => .and lhs rhs
  | .or => .or lhs rhs

/-- Whether a value can be assigned to an expression. -/
def isTarget : Term → Bool
  | .name _ | .index _ _ _ => true
  | _ => false

/-- Whether an expression can stand as a statement. -/
def isCall : Term → Bool
  | .call _ _ _ | .invoke _ _ _ _ => true
  | _ => false

/-- The bytes of a name. -/
def nameBytes (s : String) : ByteArray := s.toUTF8

mutual

/-- An expression whose joints bind more strongly than `limit`.  `variadic` tells whether the
enclosing function takes more arguments than it names. -/
def expr (variadic : Bool) : Nat → Nat → Parser Term
  | 0, _ => refuse
  | fuel + 1, limit => do
    let first ← match unary? (← peek) with
      | some op => do
        let l ← line
        advance
        pure (.unary l op (← expr variadic fuel unaryPower))
      | none => simple variadic fuel
    joined variadic fuel limit first
termination_by structural fuel _ => fuel

/-- Goes on after a first operand. -/
def joined (variadic : Bool) : Nat → Nat → Term → Parser Term
  | 0, _, _ => refuse
  | fuel + 1, limit, lhs => do
    match joint? (← peek) with
    | some (j, left, right) =>
      if limit < left then
        let l ← line
        advance
        let rhs ← expr variadic fuel right
        joined variadic fuel limit (j.join l lhs rhs)
      else return lhs
    | none => return lhs
termination_by structural fuel _ _ => fuel

/-- An operand. -/
def simple (variadic : Bool) : Nat → Parser Term
  | 0 => refuse
  | fuel + 1 => do
    match ← peek with
    | some (.number n) => advance; return .number n
    | some (.str b) => advance; return .str b
    | some (.keyword "nil") => advance; return .nil
    | some (.keyword "true") => advance; return .boolean true
    | some (.keyword "false") => advance; return .boolean false
    | some (.symbol "...") => if variadic then advance; return .varargs else refuse
    | some (.symbol "\x7b") => table variadic fuel
    | some (.keyword "function") =>
      let l ← line
      advance
      return .function (← functionBody fuel l [])
    | _ => suffixed variadic fuel
termination_by structural fuel => fuel

/-- A name or a parenthesised expression with what follows it. -/
def suffixed (variadic : Bool) : Nat → Parser Term
  | 0 => refuse
  | fuel + 1 => do
    match ← peek with
    | some (.name s) => advance; suffixes variadic fuel (.name s)
    | some (.symbol "(") =>
      advance
      let e ← expr variadic fuel 0
      symbol ")"
      suffixes variadic fuel (.paren e)
    | _ => refuse
termination_by structural fuel => fuel

/-- Indices and calls after an expression. -/
def suffixes (variadic : Bool) : Nat → Term → Parser Term
  | 0, _ => refuse
  | fuel + 1, e => do
    match ← peek with
    | some (.symbol ".") =>
      advance
      let l ← line
      let n ← name
      suffixes variadic fuel (.index l e (.str (nameBytes n)))
    | some (.symbol "[") =>
      advance
      let key ← expr variadic fuel 0
      let l ← line
      symbol "]"
      suffixes variadic fuel (.index l e key)
    | some (.symbol ":") =>
      advance
      let n ← name
      let l ← line
      suffixes variadic fuel (.invoke l e n (← arguments variadic fuel))
    | some (.symbol "(") | some (.symbol "\x7b") | some (.str _) =>
      let l ← line
      suffixes variadic fuel (.call l e (← arguments variadic fuel))
    | _ => return e
termination_by structural fuel _ => fuel

/-- The arguments of a call. -/
def arguments (variadic : Bool) : Nat → Parser (List Term)
  | 0 => refuse
  | fuel + 1 => do
    match ← peek with
    | some (.str b) => advance; return [.str b]
    | some (.symbol "\x7b") => return [← table variadic fuel]
    | some (.symbol "(") =>
      advance
      if ← takeSymbol ")" then return []
      let es ← exprs variadic fuel
      symbol ")"
      return es
    | _ => refuse
termination_by structural fuel => fuel

/-- Expressions with commas between them. -/
def exprs (variadic : Bool) : Nat → Parser (List Term)
  | 0 => refuse
  | fuel + 1 => do
    let e ← expr variadic fuel 0
    if ← takeSymbol "," then return e :: (← exprs variadic fuel) else return [e]
termination_by structural fuel => fuel

/-- A table constructor. -/
def table (variadic : Bool) : Nat → Parser Term
  | 0 => refuse
  | fuel + 1 => do
    let l ← line
    symbol "\x7b"
    return .table l (← fields variadic fuel)
termination_by structural fuel => fuel

/-- The fields of a table constructor up to its closing brace. -/
def fields (variadic : Bool) : Nat → Parser (List Field)
  | 0 => refuse
  | fuel + 1 => do
    if ← takeSymbol "\x7d" then return []
    let f ← field variadic fuel
    if (← takeSymbol ",") || (← takeSymbol ";") then return f :: (← fields variadic fuel)
    symbol "\x7d"
    return [f]
termination_by structural fuel => fuel

/-- A field of a table constructor. -/
def field (variadic : Bool) : Nat → Parser Field
  | 0 => refuse
  | fuel + 1 => do
    match (← get).map Lexeme.token with
    | Token.symbol "[" :: _ =>
      advance
      let key ← expr variadic fuel 0
      symbol "]"
      symbol "="
      return .entry key (← expr variadic fuel 0)
    | Token.name n :: Token.symbol "=" :: _ =>
      advance
      advance
      return .entry (.str (nameBytes n)) (← expr variadic fuel 0)
    | _ => return .item (← expr variadic fuel 0)
termination_by structural fuel => fuel

/-- The parameters and the body of a function; `first` are parameters before the written ones. -/
def functionBody : Nat → Nat → List String → Parser Function
  | 0, _, _ => refuse
  | fuel + 1, l, first => do
    symbol "("
    let (ps, isVariadic) ← if ← takeSymbol ")" then pure ([], false) else params fuel
    let body ← block isVariadic false fuel
    keyword "end"
    return .mk l (first ++ ps) isVariadic body
termination_by structural fuel _ _ => fuel

/-- Statements up to the end of their block. -/
def block (variadic inLoop : Bool) : Nat → Parser (List Stat)
  | 0 => refuse
  | fuel + 1 => do
    if ← atBlockEnd then return []
    if ← atKeyword "return" then return [← returning variadic fuel]
    if ← takeSymbol ";" then block variadic inLoop fuel
    else
      let s ← statement variadic inLoop fuel
      return s :: (← block variadic inLoop fuel)
termination_by structural fuel => fuel

/-- A return statement, which ends its block. -/
def returning (variadic : Bool) : Nat → Parser Stat
  | 0 => refuse
  | fuel + 1 => do
    let l ← line
    keyword "return"
    let values ← if (← atBlockEnd) || (← atSymbol ";") then pure [] else exprs variadic fuel
    let _ ← takeSymbol ";"
    if ← atBlockEnd then return .ret l values else refuse
termination_by structural fuel => fuel

/-- A statement. -/
def statement (variadic inLoop : Bool) : Nat → Parser Stat
  | 0 => refuse
  | fuel + 1 => do
    let l ← line
    match ← peek with
    | some (.keyword "if") => advance; conditional variadic inLoop fuel
    | some (.keyword "while") =>
      advance
      let c ← expr variadic fuel 0
      keyword "do"
      let body ← block variadic true fuel
      keyword "end"
      return .loop l c body
    | some (.keyword "do") =>
      advance
      let body ← block variadic inLoop fuel
      keyword "end"
      return .block body
    | some (.keyword "break") => advance; if inLoop then return .leaveLoop else refuse
    | some (.keyword "local") =>
      advance
      if ← takeKeyword "function" then
        let n ← name
        return .declareFunction n (← functionBody fuel l [])
      let ns ← names fuel
      let values ← if ← takeSymbol "=" then exprs variadic fuel else pure []
      return .declare l ns values
    | some (.keyword "function") =>
      advance
      let n ← name
      functionTarget fuel l (.name n)
    | _ =>
      let e ← suffixed variadic fuel
      if (← atSymbol "=") || (← atSymbol ",") then
        if isTarget e then assignment variadic fuel [e] else refuse
      else if isCall e then return .evaluate l e
      else refuse
termination_by structural fuel => fuel

/-- The name that a function statement assigns to, and the function. -/
def functionTarget : Nat → Nat → Term → Parser Stat
  | 0, _, _ => refuse
  | fuel + 1, l, target => do
    if ← takeSymbol "." then
      let n ← name
      functionTarget fuel l (.index l target (.str (nameBytes n)))
    else if ← takeSymbol ":" then
      let n ← name
      let f ← functionBody fuel l ["self"]
      return .assign l [.index l target (.str (nameBytes n))] [.function f]
    else
      let f ← functionBody fuel l []
      return .assign l [target] [.function f]
termination_by structural fuel _ _ => fuel

/-- The rest of an assignment whose first targets are known, the last first. -/
def assignment (variadic : Bool) : Nat → List Term → Parser Stat
  | 0, _ => refuse
  | fuel + 1, reversed => do
    if ← takeSymbol "," then
      let e ← suffixed variadic fuel
      if isTarget e then assignment variadic fuel (e :: reversed) else refuse
    else
      let l ← line
      symbol "="
      return .assign l reversed.reverse (← exprs variadic fuel)
termination_by structural fuel _ => fuel

/-- A conditional after its first word. -/
def conditional (variadic inLoop : Bool) : Nat → Parser Stat
  | 0 => refuse
  | fuel + 1 => do
    let l ← line
    let c ← expr variadic fuel 0
    keyword "then"
    let thenBranch ← block variadic inLoop fuel
    if ← takeKeyword "elseif" then
      return .cond l c thenBranch [← conditional variadic inLoop fuel]
    let elseBranch ← if ← takeKeyword "else" then block variadic inLoop fuel else pure []
    keyword "end"
    return .cond l c thenBranch elseBranch
termination_by structural fuel => fuel

end

/-- Levels of parsers that a token can open. -/
def levelsPerToken : Nat := 8

/-- The statements of a script. -/
def script (source : String) : Except SyntaxFault (List Stat) := do
  let tokens ← Token.scan source
  let (stats, rest) ← (block true false (levelsPerToken * (tokens.length + 2))).run tokens
  match rest with
  | [] => return stats
  | l :: _ => throw ⟨l.line, s!"unexpected symbol near '{l.token.text}'"⟩

end Parser

end GraphScript.Script
