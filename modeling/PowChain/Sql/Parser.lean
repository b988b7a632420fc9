import PowChain.Sql.Syntax
import PowChain.Sql.Lexer

/-!
# Reading statements

Statements are read from their tokens by recursive descent.  Operators bind
as follows, loosest first: `OR`; `AND`; `NOT`; the equalities and the
operators `IS`, `IN`, `LIKE`, `GLOB`, `BETWEEN`, `ISNULL`, `NOTNULL`; the
comparisons `<`, `<=`, `>`, `>=`; the bit operators and shifts; `+` and `-`;
`*`, `/` and `%`; `||`; `COLLATE`; the signs and `~`.  Operators of one level
group to the left.

A text that is no statement fails with the token it stumbled on
(`near "x": syntax error`), or with `incomplete input` at its end.  The
recursion is bounded by a budget that grows with the number of tokens, which
each step either spends or consumes a token with.
-/

namespace PowChain
namespace Sql

/-- Where a reading stands: the tokens left, where the last one read
stopped, and the text. -/
structure ParseState where
  toks : List Tok
  last : Nat := 0
  source : Array Char
  /-- The highest parameter number given so far. -/
  vars : Nat := 0
  /-- The named parameters read so far, with their numbers. -/
  varNames : List (String × Nat) := []
  /-- How many parameters have been read. -/
  paramsRead : Nat := 0
  /-- The kinds of schema expression read so far that hold a parameter. -/
  paramPlaces : List String := []

/-- A reading of part of a statement. -/
abbrev Parser := StateT ParseState (Except String)

namespace Parser

def peek : Parser (Option Token) := do pure ((← get).toks.head?.map (·.token))

/-- The token after the next one. -/
def peekSecond : Parser (Option Token) := do pure (((← get).toks.drop 1).head?.map (·.token))

/-- Where the next token starts. -/
def position : Parser Nat := do
  let s ← get
  match s.toks.head? with
  | some t => pure t.start
  | none => pure s.source.size

/-- Where the next token starts, in bytes of the text's UTF-8 form. -/
def byteOffset : Parser Nat := do
  let s ← get
  let i ← position
  pure ((s.source.toList.take i).foldl (fun acc c => acc + c.utf8Size) 0)

/-- Where the last token read stopped. -/
def lastStop : Parser Nat := do pure (← get).last

def advance : Parser Unit :=
  modify fun s => match s.toks with
    | t :: rest => { s with toks := rest, last := t.stop }
    | [] => s

/-- Fails at the next token. -/
def fail {α : Type} : Parser α := do
  let s ← get
  match s.toks.head? with
  | some t =>
    let near := spanText s.source t.start t.stop
    throw s!"near \"{near}\": syntax error"
  | none => throw "incomplete input"

def atKw (k : String) : Parser Bool := do pure (((← peek).map (·.isKw k)).getD false)

/-- The deepest an expression may be. -/
def maxDepth : Nat := 1000

/-- An expression built, if it is no higher than `maxDepth`. -/
def checked (e : Expr) : Parser Expr :=
  if e.height > maxDepth then throw s!"Expression tree is too large (maximum depth {maxDepth})"
  else pure e

/-- The most arguments a call may have. -/
def maxArguments : Nat := 127

/-- The highest parameter number. -/
def maxVariable : Nat := 32766

/-- The number of a parameter written `text`.  A `?` alone takes the number
after the highest so far; `?` and digits give the number, which must be
from 1 to `maxVariable`; a name takes the number it had before, else the
next one. -/
def paramNumber (text : String) : Parser Nat := do
  let s ← get
  let x ← match text.toList with
    | ['?'] => pure (s.vars + 1)
    | '?' :: ds =>
      match (String.ofList ds).toNat? with
      | some i =>
        if 1 ≤ i && i ≤ maxVariable then pure i
        else throw s!"variable number must be between ?1 and ?{maxVariable}"
      | none => throw s!"variable number must be between ?1 and ?{maxVariable}"
    | _ =>
      match s.varNames.find? (·.1 == text) with
      | some (_, i) => pure i
      | none => pure (s.vars + 1)
  let fresh := text.toList.head? != some '?' && !(s.varNames.any (·.1 == text))
  let names := if fresh then s.varNames ++ [(text, x)] else s.varNames
  set { s with vars := max s.vars x, paramsRead := s.paramsRead + 1, varNames := names }
  if x > maxVariable then throw "too many SQL variables"
  pure x

/-- The kinds of schema expression that may not hold a parameter. -/
def checkPlace : String := "CHECK constraints"
def generatedPlace : String := "generated columns"
def indexExprPlace : String := "index expressions"
def partialPlace : String := "partial index WHERE clauses"

/-- Notes that the expressions read since `before` parameters were read
held a parameter, if they did, as a `place` of a schema. -/
def noteParams (before : Nat) (place : String) : Parser Unit :=
  modify fun s => if s.paramsRead > before then { s with paramPlaces := s.paramPlaces ++ [place] } else s

def acceptKw (k : String) : Parser Bool := do
  if ← atKw k then advance; pure true else pure false

def expectKw (k : String) : Parser Unit := do
  unless ← acceptKw k do fail

def atOp (o : String) : Parser Bool := do pure (((← peek).map (·.isOp o)).getD false)

def acceptOp (o : String) : Parser Bool := do
  if ← atOp o then advance; pure true else pure false

def expectOp (o : String) : Parser Unit := do
  unless ← acceptOp o do fail

/-- Words that never name anything. -/
def reserved : List String :=
  ["ADD", "ALL", "ALTER", "AND", "AS", "AUTOINCREMENT", "BETWEEN", "CASE", "CHECK", "COLLATE",
    "COMMIT", "CONSTRAINT", "CREATE", "DEFAULT", "DEFERRABLE", "DELETE", "DISTINCT", "DROP",
    "ELSE", "ESCAPE", "EXCEPT", "EXISTS", "FOREIGN", "FROM", "GROUP", "HAVING", "IN", "INDEX",
    "INSERT", "INTERSECT", "INTO", "IS", "ISNULL", "JOIN", "LIMIT", "NOT", "NOTHING", "NOTNULL",
    "NULL", "ON", "OR", "ORDER", "PRIMARY", "REFERENCES", "RETURNING", "SELECT", "SET", "TABLE",
    "THEN", "TO", "TRANSACTION", "UNION", "UNIQUE", "UPDATE", "USING", "VALUES", "WHEN", "WHERE",
    "WINDOW", "CAST", "CURRENT_DATE", "CURRENT_TIME", "CURRENT_TIMESTAMP"]

def isReserved (w : String) : Bool := reserved.contains w.toUpper

/-- A name: a word that is no keyword, a quoted name or a string. -/
def name : Parser String := do
  match ← peek with
  | some (.word w) => if isReserved w then fail else do advance; pure w
  | some (.quoted q) => advance; pure q
  | some (.str s) => advance; pure s
  | _ => fail

/-- A name that may be qualified by a schema; the last part. -/
def qualifiedName : Parser String := do
  let n ← name
  if ← acceptOp "." then name else pure n

/-- A list of names in brackets. -/
def nameListFrom : Nat → Parser (List String)
  | 0 => fail
  | fuel + 1 => do
    let n ← name
    if ← acceptOp "," then pure (n :: (← nameListFrom fuel)) else pure [n]

def nameList : Parser (List String) := do
  let fuel := (← get).toks.length + 1
  expectOp "("
  let ns ← nameListFrom fuel
  expectOp ")"
  pure ns

/-- A conflict clause's resolution, after `ON CONFLICT` or `OR`. -/
def resolution : Parser Conflict := do
  if ← acceptKw "ROLLBACK" then pure .rollback
  else if ← acceptKw "ABORT" then pure .abort
  else if ← acceptKw "FAIL" then pure .fail
  else if ← acceptKw "IGNORE" then pure .ignore
  else if ← acceptKw "REPLACE" then pure .replace
  else fail

/-- An optional `ON CONFLICT` clause. -/
def conflictClause : Parser (Option Conflict) := do
  if (← atKw "ON") && ((← peekSecond).map (·.isKw "CONFLICT")).getD false then
    advance; advance
    some <$> resolution
  else pure none

/-- Whether a word may stand after a result column as its alias. -/
def aliasWord (w : String) : Bool :=
  !isReserved w && !(["FROM", "WHERE", "GROUP", "HAVING", "ORDER", "LIMIT", "OFFSET", "UNION",
    "EXCEPT", "INTERSECT", "WINDOW", "INNER", "LEFT", "RIGHT", "FULL", "CROSS", "NATURAL",
    "OUTER", "JOIN", "ON", "USING", "END"].contains w.toUpper)

/-- An optional alias, after `AS` or on its own. -/
def asName : Parser (Option String) := do
  if ← acceptKw "AS" then some <$> name
  else
    match ← peek with
    | some (.word w) => if aliasWord w then do advance; pure (some w) else pure none
    | some (.quoted q) => advance; pure (some q)
    | some (.str s) => advance; pure (some s)
    | _ => pure none

/-- The binding level of the binary operator a token is, if any. -/
def binaryLevel (t : Token) : Option (Nat × BinaryOp) :=
  match t with
  | .op o =>
    if o == "=" || o == "==" then some (4, .eq)
    else if o == "!=" || o == "<>" then some (4, .ne)
    else if o == "<" then some (5, .lt)
    else if o == "<=" then some (5, .le)
    else if o == ">" then some (5, .gt)
    else if o == ">=" then some (5, .ge)
    else if o == "&" then some (7, .bitAnd)
    else if o == "|" then some (7, .bitOr)
    else if o == "<<" then some (7, .shl)
    else if o == ">>" then some (7, .shr)
    else if o == "+" then some (8, .add)
    else if o == "-" then some (8, .sub)
    else if o == "*" then some (9, .mul)
    else if o == "/" then some (9, .div)
    else if o == "%" then some (9, .rem)
    else if o == "||" then some (10, .concat)
    else none
  | .word w =>
    let u := w.toUpper
    if u == "OR" then some (1, .or) else if u == "AND" then some (2, .and) else none
  | _ => none

/-- Whether an expression is an integer literal of value zero, which an
`AND` is false with whatever stands beside it. -/
def isFalseLiteral : Expr → Bool
  | .num t => !(t.any fun c => c == '.' || c == 'e' || c == 'E') &&
      (match literalValue t false with
        | .ok (.int 0) => true
        | _ => false)
  | _ => false

/-- `a AND b`, read as the literal `0` when either side is the literal
`0`: the other side is then never looked at, not even for its names. -/
def andOf (a b : Expr) : Expr :=
  if isFalseLiteral a || isFalseLiteral b then .num "0" else .binary .and a b

mutual

/-- Whether an expression is constant as read, before any name in it is
looked up: it holds no column, call, subquery or `RAISE`. -/
def constantAsRead : Expr → Bool
  | .lit _ | .num _ | .param _ => true
  | .unary _ e | .cast e _ | .collate e _ => constantAsRead e
  | .binary _ a b => constantAsRead a && constantAsRead b
  | .between e lo hi _ => constantAsRead e && constantAsRead lo && constantAsRead hi
  | .inList e items _ => constantAsRead e && constantListAsRead items
  | .caseOf o arms d => constantOptionAsRead o && constantArmsAsRead arms && constantOptionAsRead d
  | _ => false

def constantListAsRead : List Expr → Bool
  | [] => true
  | e :: es => constantAsRead e && constantListAsRead es

def constantArmsAsRead : List (Expr × Expr) → Bool
  | [] => true
  | (a, b) :: rest => constantAsRead a && constantAsRead b && constantArmsAsRead rest

def constantOptionAsRead : Option Expr → Bool
  | none => true
  | some e => constantAsRead e

end

/-- `lhs IN (items)` as it is kept.  No items make a constant, true when
negated and false otherwise, and `lhs` is dropped.  One constant item makes
an equality with the item under a unary `+`, and one subquery a test of
membership in its rows. -/
def inListOf (lhs : Expr) (items : List Expr) (negated : Bool) : Parser Expr := do
  let negate (e : Expr) : Parser Expr := if negated then checked (.unary .not e) else pure e
  match items with
  | [] => pure (.lit (.int (if negated then 1 else 0)))
  | [c] =>
    if constantAsRead c then negate (← checked (.binary .eq lhs (← checked (.unary .pos c))))
    else match c with
      | .scalar q => checked (.inQuery lhs q negated)
      | _ => checked (.inList lhs items negated)
  | _ => checked (.inList lhs items negated)

/-- Splits a trailing `COLLATE` off an expression. -/
def splitCollate : Expr → Expr × Option String
  | .collate e c => (e, some c)
  | e => (e, none)

/-- A column named `first`, or `first.x` or `first.x.y`. -/
def columnRef (first : String) (quoted : Bool) : Parser Expr := do
  if ← acceptOp "." then
    let second ← name
    if ← acceptOp "." then
      let third ← name
      pure (.column (some second) third false)
    else pure (.column (some first) second false)
  else pure (.column none first quoted)

/-- The words of a type name and its bracketed sizes. -/
def typeWords : Nat → Parser Unit
  | 0 => pure ()
  | fuel + 1 => do
    match ← peek with
    | some (.word w) =>
      if isReserved w then pure () else do advance; typeWords fuel
    | some (.quoted _) | some (.str _) => advance; typeWords fuel
    | some (.op "(") =>
      advance
      let skip (n : Nat) : Parser Unit := do
        for _ in List.range n do
          if ← atOp ")" then return
          advance
      skip ((← get).toks.length)
      expectOp ")"
    | _ => pure ()

/-- Whether a query starts at the next token. -/
def atQuery : Parser Bool := do
  pure ((← atKw "SELECT") || (← atKw "WITH") || (← atKw "VALUES"))

/-- A join operator, with whether it is `NATURAL`: a comma, or
`[NATURAL] [LEFT | RIGHT | FULL [OUTER] | INNER | CROSS] JOIN`. -/
def joinOperator : Parser (Option (JoinKind × Bool)) := do
  if ← acceptOp "," then return some (.inner, false)
  let natural ← acceptKw "NATURAL"
  let (kind, worded) ← if ← acceptKw "LEFT" then do discard (acceptKw "OUTER"); pure (JoinKind.left, true)
    else if ← acceptKw "RIGHT" then do discard (acceptKw "OUTER"); pure (.right, true)
    else if ← acceptKw "FULL" then do discard (acceptKw "OUTER"); pure (.full, true)
    else if (← acceptKw "INNER") || (← acceptKw "CROSS") then pure (.inner, true)
    else pure (.inner, false)
  if ← acceptKw "JOIN" then pure (some (kind, natural))
  else if natural || worded then fail
  else pure none

mutual

/-- An expression whose operators bind at least at level `level`. -/
def expr : Nat → Nat → Parser Expr
  | 0, _ => fail
  | fuel + 1, level => do
    let lhs ← prefixExpr fuel level
    infixLoop fuel level lhs

/-- An expression that starts with a prefix operator, or a primary one. -/
def prefixExpr : Nat → Nat → Parser Expr
  | 0, _ => fail
  | fuel + 1, level => do
    if (← atKw "NOT") && !(((← peekSecond).map (·.isKw "EXISTS")).getD false) then
      advance
      let e ← expr fuel (max level 3)
      checked (.unary .not e)
    else if ← acceptOp "-" then
      let e ← expr fuel 12
      checked (.unary .neg e)
    else if ← acceptOp "+" then
      let e ← expr fuel 12
      checked (.unary .pos e)
    else if ← acceptOp "~" then
      let e ← expr fuel 12
      checked (.unary .bitNot e)
    else primary fuel

/-- Applies the binary and postfix operators that bind at `level` or
tighter to `lhs`. -/
def infixLoop : Nat → Nat → Expr → Parser Expr
  | 0, _, lhs => pure lhs
  | fuel + 1, level, lhs => do
    let some t ← peek | pure lhs
    if level ≤ 11 && t.isKw "COLLATE" then
      advance
      let c ← name
      infixLoop fuel level (.collate lhs c)
    else if level ≤ 4 && (t.isKw "ISNULL" || t.isKw "NOTNULL") then
      advance
      let op := if t.isKw "ISNULL" then BinaryOp.is else .isNot
      infixLoop fuel level (← checked (.binary op lhs (.lit .null)))
    else if level ≤ 4 && t.isKw "IS" then
      advance
      let negated ← acceptKw "NOT"
      let distinct ← acceptKw "DISTINCT"
      if distinct then expectKw "FROM"
      let rhs ← expr fuel 5
      let positive := if distinct then negated else !negated
      infixLoop fuel level (← checked (.binary (if positive then .is else .isNot) lhs rhs))
    else if level ≤ 4 && (t.isKw "NOT" || t.isKw "IN" || t.isKw "LIKE" || t.isKw "GLOB" ||
        t.isKw "BETWEEN" || t.isKw "MATCH" || t.isKw "REGEXP") then
      let negated ← acceptKw "NOT"
      if ← acceptKw "NULL" then
        infixLoop fuel level (← checked (.binary .isNot lhs (.lit .null)))
      else if ← acceptKw "IN" then
        if !(← acceptOp "(") then
          let t ← qualifiedName
          infixLoop fuel level (← checked (.inQuery lhs (Query.ofTable t) negated))
        else if ← atQuery then
          let q ← query fuel
          expectOp ")"
          infixLoop fuel level (← checked (.inQuery lhs q negated))
        else if ← acceptOp ")" then infixLoop fuel level (← inListOf lhs [] negated)
        else
          let items ← exprList fuel
          expectOp ")"
          infixLoop fuel level (← inListOf lhs items negated)
      else if (← atKw "LIKE") || (← atKw "GLOB") then
        let glob ← atKw "GLOB"
        advance
        let pat ← expr fuel 5
        let esc ← if ← acceptKw "ESCAPE" then some <$> expr fuel 7 else pure none
        infixLoop fuel level (← checked (.like glob lhs pat esc negated))
      else if (← atKw "MATCH") || (← atKw "REGEXP") then
        let some (.word opName) ← peek | fail
        let pos ← byteOffset
        advance
        let pat ← expr fuel 5
        let esc ← if ← acceptKw "ESCAPE" then some <$> expr fuel 7 else pure none
        let call ← checked (Expr.call opName ([pat, lhs] ++ esc.toList) false false pos)
        infixLoop fuel level (← if negated then checked (.unary .not call) else pure call)
      else if ← acceptKw "BETWEEN" then
        let lo ← expr fuel 5
        expectKw "AND"
        let hi ← expr fuel 5
        infixLoop fuel level (← checked (.between lhs lo hi negated))
      else fail
    else if level ≤ 10 && (t.isOp "->" || t.isOp "->>") then
      let pos ← byteOffset
      advance
      let rhs ← expr fuel 11
      infixLoop fuel level (← checked (.call (if t.isOp "->" then "->" else "->>") [lhs, rhs] false false pos))
    else
      match binaryLevel t with
      | some (l, op) =>
        if l < level then pure lhs
        else do
          advance
          let rhs ← expr fuel (l + 1)
          infixLoop fuel level (← checked (if op == .and then andOf lhs rhs else .binary op lhs rhs))
      | none => pure lhs

/-- Expressions separated by commas. -/
def exprList : Nat → Parser (List Expr)
  | 0 => fail
  | fuel + 1 => do
    let e ← expr fuel 0
    if ← acceptOp "," then pure (e :: (← exprList fuel)) else pure [e]

/-- The `WHEN ... THEN ...` arms of a `CASE`. -/
def caseArms : Nat → Parser (List (Expr × Expr))
  | 0 => fail
  | fuel + 1 => do
    if ← acceptKw "WHEN" then
      let c ← expr fuel 0
      expectKw "THEN"
      let r ← expr fuel 0
      pure ((c, r) :: (← caseArms fuel))
    else pure []

/-- A literal, a name, a call, a bracketed expression or query, `CAST`,
`CASE`, `EXISTS` or `RAISE`. -/
def primary : Nat → Parser Expr
  | 0 => fail
  | fuel + 1 => do
    match ← peek with
    | some (.num t) => advance; pure (.num t)
    | some (.str s) => advance; pure (.lit (.ofString s))
    | some (.blob b) => advance; pure (.lit (.blob b .utf8))
    | some (.param t) =>
      -- `#` and a digit names a register, which no statement here may use
      if t.toList.head? == some '#' && ((t.toList.drop 1).head?.map Char.isDigit).getD false then fail
      else
        advance
        pure (.param (← paramNumber t))
    | some (.op "(") =>
      advance
      if ← atQuery then
        let q ← query fuel
        expectOp ")"
        checked (.scalar q)
      else
        let e ← expr fuel 0
        expectOp ")"
        pure e
    | some (.word w) =>
      let u := w.toUpper
      if u == "NULL" then advance; pure (.lit .null)
      else if u == "CAST" then
        advance
        expectOp "("
        let e ← expr fuel 0
        expectKw "AS"
        let start ← position
        let fuel' := (← get).toks.length + 1
        typeWords fuel'
        let stop ← lastStop
        let typeName := spanText (← get).source start stop
        expectOp ")"
        pure (.cast e typeName)
      else if u == "CASE" then
        advance
        let operand ← if ← atKw "WHEN" then pure none else some <$> expr fuel 0
        let arms ← caseArms fuel
        let otherwise ← if ← acceptKw "ELSE" then some <$> expr fuel 0 else pure none
        expectKw "END"
        checked (.caseOf operand arms otherwise)
      else if u == "EXISTS" then
        advance
        expectOp "("
        let q ← query fuel
        expectOp ")"
        checked (.rowsExist q)
      else if u == "NOT" then
        advance
        expectKw "EXISTS"
        expectOp "("
        let q ← query fuel
        expectOp ")"
        checked (.unary .not (← checked (.rowsExist q)))
      else if u == "RAISE" then
        advance
        expectOp "("
        if ← acceptKw "IGNORE" then
          expectOp ")"
          pure (.raise .ignore "")
        else
          let action ← if ← acceptKw "ROLLBACK" then pure RaiseAction.rollback
            else if ← acceptKw "ABORT" then pure .abort
            else if ← acceptKw "FAIL" then pure .fail
            else fail
          expectOp ","
          let msg ← match ← peek with
            | some (.str s) => do advance; pure s
            | _ => fail
          expectOp ")"
          pure (.raise action msg)
      else if u == "CURRENT_TIMESTAMP" || u == "CURRENT_DATE" || u == "CURRENT_TIME" then
        let pos ← byteOffset
        advance
        pure (.call u.toLower [] false false pos)
      else if ((← peekSecond).map (·.isOp "(")).getD false && !isReserved w then
        let pos ← byteOffset
        advance
        advance
        if ← acceptOp "*" then
          expectOp ")"
          pure (.call w [] false true pos)
        else if ← acceptOp ")" then pure (.call w [] false false pos)
        else
          let distinct ← acceptKw "DISTINCT"
          let args ← exprList fuel
          expectOp ")"
          let e ← checked (.call w args distinct false pos)
          if args.length > maxArguments then throw s!"too many arguments on function {w}"
          pure e
      else if isReserved w then fail
      else
        advance
        columnRef w false
    | some (.quoted q) =>
      advance
      columnRef q true
    | _ => fail

/-- A query: a `WITH` clause, selects joined by set operators, an order
and bounds. -/
def query : Nat → Parser Query
  | 0 => fail
  | fuel + 1 => do
    let ctes ← if ← acceptKw "WITH" then do
        discard (acceptKw "RECURSIVE")
        cteList fuel
      else pure []
    let first ← selectPart fuel
    let rest ← compoundRest fuel
    let orderBy ← if ← acceptKw "ORDER" then do expectKw "BY"; orderTerms fuel else pure []
    let (limit, offset) ← if ← acceptKw "LIMIT" then do
        let l ← expr fuel 0
        if ← acceptKw "OFFSET" then pure (some l, some (← expr fuel 0))
        else if ← acceptOp "," then pure (some (← expr fuel 0), some l)
        else pure (some l, none)
      else pure (none, none)
    pure (.mk ctes first rest orderBy limit offset)

/-- The tables of a `WITH` clause. -/
def cteList : Nat → Parser (List Cte)
  | 0 => fail
  | fuel + 1 => do
    let n ← name
    let cols ← if ← atOp "(" then some <$> nameList else pure none
    expectKw "AS"
    if ← acceptKw "NOT" then expectKw "MATERIALIZED" else discard (acceptKw "MATERIALIZED")
    expectOp "("
    let q ← query fuel
    expectOp ")"
    let c := Cte.mk n cols q
    if ← acceptOp "," then pure (c :: (← cteList fuel)) else pure [c]

/-- The selects after the first of a compound query, each with the set
operator before it. -/
def compoundRest : Nat → Parser (List (SetOp × Select))
  | 0 => fail
  | fuel + 1 => do
    let op ← if ← acceptKw "UNION" then
        if ← acceptKw "ALL" then pure (some SetOp.unionAll) else pure (some SetOp.union)
      else if ← acceptKw "INTERSECT" then pure (some SetOp.intersect)
      else if ← acceptKw "EXCEPT" then pure (some SetOp.except)
      else pure none
    match op with
    | none => pure []
    | some o =>
      let s ← selectPart fuel
      pure ((o, s) :: (← compoundRest fuel))

/-- One select of a query: `SELECT ...` or `VALUES ...`. -/
def selectPart : Nat → Parser Select
  | 0 => fail
  | fuel + 1 => do
    if ← acceptKw "VALUES" then pure (.values (← valuesList fuel))
    else
      expectKw "SELECT"
      let distinct ← acceptKw "DISTINCT"
      if !distinct then discard (acceptKw "ALL")
      let columns ← resultColumns fuel
      let source ← if ← acceptKw "FROM" then some <$> source fuel else pure none
      let filter ← if ← acceptKw "WHERE" then some <$> expr fuel 0 else pure none
      let groupBy ← if ← acceptKw "GROUP" then do expectKw "BY"; exprList fuel else pure []
      let having ← if ← acceptKw "HAVING" then some <$> expr fuel 0 else pure none
      pure (.core distinct columns source filter groupBy having)

/-- The rows of a `VALUES` list. -/
def valuesList : Nat → Parser (List (List Expr))
  | 0 => fail
  | fuel + 1 => do
    expectOp "("
    let row ← exprList fuel
    expectOp ")"
    if ← acceptOp "," then pure (row :: (← valuesList fuel)) else pure [row]

/-- The columns of a query's result. -/
def resultColumns : Nat → Parser (List ResultColumn)
  | 0 => fail
  | fuel + 1 => do
    let col ← if ← acceptOp "*" then pure (ResultColumn.star none)
      else
        let isTableStar := match ← peek, ← peekSecond with
          | some (.word _), some (.op ".") => true
          | some (.quoted _), some (.op ".") => true
          | _, _ => false
        let third := (((← get).toks.drop 2).head?.map (·.token.isOp "*")).getD false
        if isTableStar && third then
          let t ← name
          advance
          advance
          pure (.star (some t))
        else
          let start ← position
          let e ← expr fuel 0
          let stop ← lastStop
          let text := spanText (← get).source start stop
          let a ← asName
          pure (.expr e a text)
    if ← acceptOp "," then pure (col :: (← resultColumns fuel)) else pure [col]

/-- What a query reads from: sources joined from the left. -/
def source : Nat → Parser Source
  | 0 => fail
  | fuel + 1 => do
    let first ← singleSource fuel
    joinRest fuel first

/-- The joins that follow the sources read so far. -/
def joinRest : Nat → Source → Parser Source
  | 0, _ => fail
  | fuel + 1, left => do
    match ← joinOperator with
    | none => pure left
    | some (kind, natural) =>
      let right ← singleSource fuel
      let condition ← if ← acceptKw "ON" then some <$> expr fuel 0 else pure none
      let usingColumns ← if condition.isNone && (← acceptKw "USING") then nameList else pure []
      joinRest fuel (.join left kind natural right condition usingColumns)

/-- One source: a table or view, a bracketed query, or bracketed joins. -/
def singleSource : Nat → Parser Source
  | 0 => fail
  | fuel + 1 => do
    if ← acceptOp "(" then
      if ← atQuery then
        let q ← query fuel
        expectOp ")"
        pure (.query q (← asName))
      else
        let s ← source fuel
        expectOp ")"
        match ← asName with
        | some a => pure (.query (Query.ofSelect (.core false [.star none] (some s) none [] none)) (some a))
        | none => pure s
    else
      let n ← qualifiedName
      let label ← if ← atKw "INDEXED" then pure none else asName
      if ← acceptKw "INDEXED" then
        expectKw "BY"
        discard name
      else if (← atKw "NOT") && ((← peekSecond).map (·.isKw "INDEXED")).getD false then
        advance
        advance
      pure (.table n label)

/-- The terms of an `ORDER BY`. -/
def orderTerms : Nat → Parser (List OrderTerm)
  | 0 => fail
  | fuel + 1 => do
    let e ← expr fuel 0
    let desc ← if ← acceptKw "DESC" then pure true else do discard (acceptKw "ASC"); pure false
    let nulls ← if ← acceptKw "NULLS" then
        if ← acceptKw "FIRST" then pure (some true) else do expectKw "LAST"; pure (some false)
      else pure none
    let t := OrderTerm.mk e desc nulls
    if ← acceptOp "," then pure (t :: (← orderTerms fuel)) else pure [t]

end

/-- Rows of values in brackets, separated by commas. -/
def valueRows : Nat → Nat → Parser (List (List Expr))
  | 0, _ => fail
  | n + 1, fuel => do
    expectOp "("
    let row ← exprList fuel
    expectOp ")"
    if ← acceptOp "," then pure (row :: (← valueRows n fuel)) else pure [row]

/-- Assignments of an `UPDATE`. -/
def assignments : Nat → Nat → Parser (List (String × Expr))
  | 0, _ => fail
  | n + 1, fuel => do
    let c ← name
    expectOp "="
    let e ← expr fuel 0
    if ← acceptOp "," then pure ((c, e) :: (← assignments n fuel)) else pure [(c, e)]

/-- The columns of a key or an index in brackets. -/
def indexedColumns : Nat → Nat → Parser (List IndexedColumn)
  | 0, _ => fail
  | n + 1, fuel => do
    let e ← expr fuel 0
    let (e, collation) := splitCollate e
    let descending ← if ← acceptKw "DESC" then pure true else do discard (acceptKw "ASC"); pure false
    let c : IndexedColumn := { expr := e, collation, descending }
    if ← acceptOp "," then pure (c :: (← indexedColumns n fuel)) else pure [c]

/-- The table a statement of a trigger changes: a bare name, for a trigger
changes only tables of its own schema. -/
def triggerTarget : Parser String := do
  let n ← name
  if ← acceptOp "." then
    discard name
    throw "qualified table names are not allowed on INSERT, UPDATE, and DELETE statements within triggers"
  pure n

/-- Refuses an `INDEXED BY` or `NOT INDEXED` clause, which a statement of a
trigger may not have. -/
def noIndexChoice : Parser Unit := do
  if ← acceptKw "INDEXED" then
    expectKw "BY"
    discard name
    throw "the INDEXED BY clause is not allowed on UPDATE or DELETE statements within triggers"
  else if (← atKw "NOT") && ((← peekSecond).map (·.isKw "INDEXED")).getD false then
    advance
    advance
    throw "the NOT INDEXED clause is not allowed on UPDATE or DELETE statements within triggers"

/-- Refuses a `RETURNING` clause once its columns are read: a statement of
a trigger returns nothing. -/
def noReturning (fuel : Nat) : Parser Unit := do
  if ← acceptKw "RETURNING" then
    discard (resultColumns fuel)
    throw "cannot use RETURNING in a trigger"

/-- The `ON CONFLICT` clauses of an `INSERT`.  Only the last may leave out
the key it is for, and nothing but `RETURNING` follows it. -/
def upserts (fuel : Nat) : Nat → Parser (List Upsert)
  | 0 => pure []
  | n + 1 => do
    if (← atKw "ON") && ((← peekSecond).map (·.isKw "CONFLICT")).getD false then
      advance
      advance
      let target ← if ← acceptOp "(" then do
          let cols ← indexedColumns ((← get).toks.length + 1) fuel
          expectOp ")"
          let cond ← if ← acceptKw "WHERE" then some <$> expr fuel 0 else pure none
          pure (some (cols, cond))
        else pure none
      expectKw "DO"
      let update ← if ← acceptKw "NOTHING" then pure none
        else do
          expectKw "UPDATE"
          expectKw "SET"
          let sets ← assignments ((← get).toks.length + 1) fuel
          let cond ← if ← acceptKw "WHERE" then some <$> expr fuel 0 else pure none
          pure (some (sets, cond))
      let clause : Upsert := { target, update }
      if target.isNone then pure [clause] else pure (clause :: (← upserts fuel n))
    else pure []

/-- A statement of a trigger's body: an `INSERT`, `UPDATE` or `DELETE` of a
table of the trigger's schema, or a query. -/
def stmt (fuel : Nat) : Parser Stmt := do
  let n := (← get).toks.length + 1
  if (← atKw "INSERT") || (← atKw "REPLACE") then
    let conflict ← if ← acceptKw "REPLACE" then pure (some Conflict.replace)
      else do
        advance
        if ← acceptKw "OR" then some <$> resolution else pure none
    expectKw "INTO"
    let table ← triggerTarget
    let columns ← if ← atOp "(" then some <$> nameList else pure none
    let rows ← if ← acceptKw "VALUES" then InsertRows.values <$> valueRows n fuel
      else InsertRows.query <$> query fuel
    let clauses ← upserts fuel n
    noReturning fuel
    pure (.insert conflict table columns rows clauses)
  else if ← acceptKw "UPDATE" then
    let conflict ← if ← acceptKw "OR" then some <$> resolution else pure none
    let table ← triggerTarget
    noIndexChoice
    expectKw "SET"
    let sets ← assignments n fuel
    let src ← if ← acceptKw "FROM" then some <$> source fuel else pure none
    let filter ← if ← acceptKw "WHERE" then some <$> expr fuel 0 else pure none
    pure (.update conflict table sets src filter)
  else if ← acceptKw "DELETE" then
    expectKw "FROM"
    let table ← triggerTarget
    noIndexChoice
    let filter ← if ← acceptKw "WHERE" then some <$> expr fuel 0 else pure none
    pure (.delete table filter)
  else if ← atQuery then .select <$> query fuel
  else fail

/-! ## `CREATE` statements -/

/-- The text of a bracketed part, without the brackets and the blanks at its
ends, and the expression in it. -/
def bracketedExpr (fuel : Nat) : Parser (Expr × String) := do
  expectOp "("
  let start ← position
  let e ← expr fuel 0
  let stop ← lastStop
  expectOp ")"
  pure (e, spanText (← get).source start stop)

/-- The action an `ON DELETE` or `ON UPDATE` clause names. -/
def fkAction : Parser FkAction := do
  if ← acceptKw "SET" then
    if ← acceptKw "NULL" then pure .setNull
    else do expectKw "DEFAULT"; pure .setDefault
  else if ← acceptKw "CASCADE" then pure .cascade
  else if ← acceptKw "RESTRICT" then pure .restrict
  else do expectKw "NO"; expectKw "ACTION"; pure .noAction

/-- Reads the clauses of a `REFERENCES` constraint into a foreign key. -/
def referenceClauses : Nat → ForeignKeySpec → Parser ForeignKeySpec
  | 0, fk => pure fk
  | n + 1, fk => do
    if (← atKw "ON") && !(((← peekSecond).map (·.isKw "CONFLICT")).getD false) then
      advance
      if ← acceptKw "DELETE" then
        let a ← fkAction
        referenceClauses n { fk with onDelete := a }
      else do
        expectKw "UPDATE"
        let a ← fkAction
        referenceClauses n { fk with onUpdate := a }
    else if ← acceptKw "MATCH" then advance; referenceClauses n fk
    else if (← atKw "NOT") && ((← peekSecond).map (·.isKw "DEFERRABLE")).getD false then
      advance; advance
      if ← acceptKw "INITIALLY" then advance
      referenceClauses n { fk with deferred := false }
    else if ← acceptKw "DEFERRABLE" then
      let deferred ← if ← acceptKw "INITIALLY" then do
          if ← acceptKw "DEFERRED" then pure true else do expectKw "IMMEDIATE"; pure false
        else pure false
      referenceClauses n { fk with deferred }
    else pure fk

/-- The parent and its columns after `REFERENCES`, with the clauses that follow. -/
def reference (columns : List String) : Parser ForeignKeySpec := do
  let parent ← name
  let parentColumns ← if ← atOp "(" then nameList else pure []
  referenceClauses ((← get).toks.length + 1) { columns, parent, parentColumns }

/-- A literal a default value may be without brackets: a number, a string,
a blob, `NULL` or the current time or date. -/
def defaultTerm (fuel : Nat) : Parser Expr := do
  match ← peek with
  | some (.num _) | some (.str _) | some (.blob _) => primary fuel
  | some (.word w) =>
    let u := w.toUpper
    if u == "NULL" || u == "CURRENT_TIMESTAMP" || u == "CURRENT_DATE" || u == "CURRENT_TIME" then
      primary fuel
    else fail
  | _ => fail

/-- A `DEFAULT` value. -/
def defaultValue (fuel : Nat) : Parser Expr := do
  if ← atOp "(" then
    let (e, _) ← bracketedExpr fuel
    pure e
  else if ← acceptOp "-" then
    let e ← defaultTerm fuel
    pure (.unary .neg e)
  else if ← acceptOp "+" then defaultTerm fuel
  else
    match ← peek with
    | some (.word w) =>
      let u := w.toUpper
      if u == "NULL" || u == "CURRENT_TIMESTAMP" || u == "CURRENT_DATE" || u == "CURRENT_TIME" then
        primary fuel
      else if u == "TRUE" then advance; pure (.lit (.int 1))
      else if u == "FALSE" then advance; pure (.lit (.int 0))
      else if isReserved w then fail
      else do advance; pure (.lit (.ofString w))
    | some (.quoted q) => advance; pure (.lit (.ofString q))
    | _ => defaultTerm fuel

/-- Reads the constraints of a column, `cname` naming the next one. -/
def columnConstraints (fuel : Nat) : Nat → ColumnSpec → Option String → Parser ColumnSpec
  | 0, c, _ => pure c
  | n + 1, c, cname => do
    if ← acceptKw "CONSTRAINT" then
      let nm ← name
      columnConstraints fuel n c (some nm)
    else if ← acceptKw "PRIMARY" then
      expectKw "KEY"
      let desc ← if ← acceptKw "DESC" then pure true else do discard (acceptKw "ASC"); pure false
      let conflict ← conflictClause
      let auto ← acceptKw "AUTOINCREMENT"
      columnConstraints fuel n { c with primaryKey := some (desc, conflict, auto) } cname
    else if ← acceptKw "NOT" then
      expectKw "NULL"
      let conflict ← conflictClause
      columnConstraints fuel n { c with notNull := some conflict } cname
    else if ← acceptKw "NULL" then
      discard conflictClause
      columnConstraints fuel n c cname
    else if ← acceptKw "UNIQUE" then
      let conflict ← conflictClause
      let first := if c.primaryKey.isNone then c.uniqueFirst + 1 else c.uniqueFirst
      columnConstraints fuel n { c with unique := c.unique ++ [conflict], uniqueFirst := first } cname
    else if ← acceptKw "CHECK" then
      let before := (← get).paramsRead
      let (e, text) ← bracketedExpr fuel
      noteParams before checkPlace
      columnConstraints fuel n { c with checks := c.checks ++ [⟨cname.getD text, e⟩] } cname
    else if ← acceptKw "DEFAULT" then
      let e ← defaultValue fuel
      columnConstraints fuel n { c with default := some e } cname
    else if ← acceptKw "COLLATE" then
      let coll ← name
      columnConstraints fuel n { c with collation := some coll } cname
    else if ← acceptKw "REFERENCES" then
      let fk ← reference [c.name]
      columnConstraints fuel n { c with references := c.references ++ [fk] } cname
    else if (← atKw "GENERATED") || (← atKw "AS") then
      if ← acceptKw "GENERATED" then expectKw "ALWAYS"
      expectKw "AS"
      let before := (← get).paramsRead
      let (e, _) ← bracketedExpr fuel
      noteParams before generatedPlace
      let stored ← if ← acceptKw "STORED" then pure true else do discard (acceptKw "VIRTUAL"); pure false
      columnConstraints fuel n { c with generated := some (e, stored) } cname
    else pure c

/-- A declared type with the words `GENERATED ALWAYS` taken off its end. -/
def trimGenerated (t : String) : String :=
  let cs := t.toList
  let lower := (String.ofList cs).toLower.toList
  if cs.length ≥ 16 && lower.drop (cs.length - 6) == "always".toList then
    let rest := (cs.take (cs.length - 6)).reverse.dropWhile Char.isWhitespace |>.reverse
    let lrest := (String.ofList rest).toLower.toList
    if rest.length ≥ 9 && lrest.drop (rest.length - 9) == "generated".toList then
      String.ofList ((rest.take (rest.length - 9)).reverse.dropWhile Char.isWhitespace |>.reverse)
    else String.ofList rest
  else t

/-- A column definition. -/
def columnDef (fuel : Nat) : Parser ColumnSpec := do
  let nm ← name
  let start ← position
  let before ← lastStop
  typeWords ((← get).toks.length + 1)
  let stop ← lastStop
  let src := (← get).source
  let typeText := if stop == before then "" else trimGenerated (spanText src start stop)
  columnConstraints fuel ((← get).toks.length + 1) { name := nm, typeText } none

/-- Whether the next token starts a table-level constraint. -/
def atTableConstraint : Parser Bool := do
  pure ((← atKw "CONSTRAINT") || (← atKw "PRIMARY") || (← atKw "UNIQUE") || (← atKw "CHECK") ||
    (← atKw "FOREIGN"))

/-- A table-level constraint. -/
def tableConstraint (fuel : Nat) : Parser TablePart := do
  let cname ← if ← acceptKw "CONSTRAINT" then some <$> name else pure none
  if ← acceptKw "PRIMARY" then
    expectKw "KEY"
    expectOp "("
    let cols ← indexedColumns ((← get).toks.length + 1) fuel
    discard (acceptKw "AUTOINCREMENT")
    expectOp ")"
    let conflict ← conflictClause
    pure (.key { primary := true, columns := cols, conflict })
  else if ← acceptKw "UNIQUE" then
    expectOp "("
    let cols ← indexedColumns ((← get).toks.length + 1) fuel
    expectOp ")"
    let conflict ← conflictClause
    pure (.key { primary := false, columns := cols, conflict })
  else if ← acceptKw "CHECK" then
    let before := (← get).paramsRead
    let (e, text) ← bracketedExpr fuel
    noteParams before checkPlace
    discard conflictClause
    pure (.check ⟨cname.getD text, e⟩)
  else if ← acceptKw "FOREIGN" then
    expectKw "KEY"
    let cols ← nameList
    expectKw "REFERENCES"
    pure (.foreignKey (← reference cols))
  else fail

/-- The parts of a table's definition: columns first, then constraints. -/
def tableParts (fuel : Nat) : Nat → Bool → Parser (List TablePart)
  | 0, _ => fail
  | n + 1, inConstraints => do
    if inConstraints || (← atTableConstraint) then
      let p ← tableConstraint fuel
      if ← acceptOp "," then pure (p :: (← tableParts fuel n true))
      else if ← atTableConstraint then pure (p :: (← tableParts fuel n true))
      else pure [p]
    else
      let c ← columnDef fuel
      if ← acceptOp "," then pure (.column c :: (← tableParts fuel n false)) else pure [.column c]

/-- The options after a table's definition. -/
def tableOptions : Nat → Bool × Bool → Parser (Bool × Bool)
  | 0, acc => pure acc
  | n + 1, (withoutRowid, strict) => do
    if ← acceptKw "WITHOUT" then
      let w ← name
      if w.toUpper != "ROWID" then throw s!"unknown table option: {w}"
      let acc := (true, strict)
      if ← acceptOp "," then tableOptions n acc else pure acc
    else if ← acceptKw "STRICT" then
      let acc := (withoutRowid, true)
      if ← acceptOp "," then tableOptions n acc else pure acc
    else pure (withoutRowid, strict)

/-- Trigger statements, each ended by a semicolon, up to `END`. -/
def triggerBody (fuel : Nat) : Nat → Parser (List Stmt)
  | 0 => fail
  | n + 1 => do
    if ← acceptKw "END" then pure []
    else
      let s ← stmt fuel
      expectOp ";"
      pure (s :: (← triggerBody fuel n))

/-- A `CREATE` statement. -/
def create (fuel : Nat) : Parser CreateSpec := do
  expectKw "CREATE"
  discard (acceptKw "TEMP")
  discard (acceptKw "TEMPORARY")
  let unique ← acceptKw "UNIQUE"
  let ifNotExists : Parser Unit := do
    if ← acceptKw "IF" then
      expectKw "NOT"
      expectKw "EXISTS"
  if ← acceptKw "INDEX" then
    ifNotExists
    let nm ← qualifiedName
    expectKw "ON"
    let table ← name
    expectOp "("
    let before := (← get).paramsRead
    let cols ← indexedColumns ((← get).toks.length + 1) fuel
    noteParams before indexExprPlace
    expectOp ")"
    let before := (← get).paramsRead
    let filter ← if ← acceptKw "WHERE" then some <$> expr fuel 0 else pure none
    noteParams before partialPlace
    let places := (← get).paramPlaces
    let paramPlace := [indexExprPlace, partialPlace].find? places.contains
    pure (.index { name := nm, table, unique, columns := cols, filter, paramPlace })
  else if unique then fail
  else if ← acceptKw "TABLE" then
    ifNotExists
    let nm ← qualifiedName
    expectOp "("
    let parts ← tableParts fuel ((← get).toks.length + 1) false
    expectOp ")"
    let (withoutRowid, strict) ← tableOptions ((← get).toks.length + 1) (false, false)
    let places := (← get).paramPlaces
    let paramPlace := [generatedPlace, checkPlace].find? places.contains
    pure (.table { name := nm, parts, withoutRowid, strict, paramPlace })
  else if ← acceptKw "VIEW" then
    ifNotExists
    let nm ← qualifiedName
    let columns ← if ← atOp "(" then some <$> nameList else pure none
    expectKw "AS"
    let q ← query fuel
    pure (.view { name := nm, columns, query := q })
  else if ← acceptKw "TRIGGER" then
    ifNotExists
    let nm ← qualifiedName
    let timing ← if ← acceptKw "BEFORE" then pure Timing.before
      else if ← acceptKw "AFTER" then pure .after
      else if ← acceptKw "INSTEAD" then do expectKw "OF"; pure .insteadOf
      else pure .before
    let event ← if ← acceptKw "INSERT" then pure Event.insert
      else if ← acceptKw "DELETE" then pure .delete
      else if ← acceptKw "UPDATE" then
        if ← acceptKw "OF" then
          pure (.update (some (← nameListFrom ((← get).toks.length + 1))))
        else pure (.update none)
      else fail
    expectKw "ON"
    let table ← qualifiedName
    if ← acceptKw "FOR" then
      expectKw "EACH"
      expectKw "ROW"
    let when ← if ← acceptKw "WHEN" then some <$> expr fuel 0 else pure none
    expectKw "BEGIN"
    let body ← triggerBody fuel ((← get).toks.length + 1)
    pure (.trigger { name := nm, table, timing, event, when, body })
  else fail

/-- Runs a reading over the whole of a text; a semicolon may end it. -/
def run {α : Type} (p : Nat → Parser α) (text : String) : Except String α :=
  let toks := tokenize text
  match toks.find? fun t => match t.token with
    | .bad _ => true
    | _ => false with
  | some t =>
    let near := spanText text.toList.toArray t.start t.stop
    .error s!"unrecognized token: \"{near}\""
  | none =>
    let fuel := 8 * toks.length + 64
    let whole : Parser α := do
      let a ← p fuel
      discard (acceptOp ";")
      if (← get).toks.isEmpty then pure a else fail
    match StateT.run whole { toks, source := text.toList.toArray } with
    | .ok (a, _) => .ok a
    | .error e => .error e

end Parser

/-- Reads a `CREATE` statement. -/
def parseCreate (text : String) : Except String CreateSpec := Parser.run Parser.create text

/-- Reads a statement that reads or changes rows. -/
def parseStmt (text : String) : Except String Stmt := Parser.run Parser.stmt text

end Sql
end PowChain
