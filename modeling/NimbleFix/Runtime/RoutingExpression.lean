import NimbleFix.Runtime.MessageTransform

/-!
# Routing expressions (`runtime/router.cpp`)

`parseRoutingExpression` reads clauses off white-space separated tokens: the code's index into the
tokens is the list of those still to be read. `evaluateExpression` goes over the clauses once, with
the current run of conjuncts and the disjunction of the runs before it.
-/

namespace NimbleFix

namespace Router

inductive ExprOp
  | equal
  | notEqual
  | lessThan
  | greaterThan
  | contains
  | regex
  | hasTag
  deriving DecidableEq, Repr

inductive ExprLogic
  | and
  | or
  deriving DecidableEq, Repr

structure ExprNode where
  tag : UInt32 := 0
  op : ExprOp := .equal
  value : Bytes := []
  negated : Bool := false
  deriving DecidableEq, Repr

structure Clause where
  node : ExprNode
  /-- The connector to the next clause. -/
  connector : ExprLogic := .and
  deriving DecidableEq, Repr

/-- What the library decides: `numericLess` whether both texts are doubles and the first is the
smaller one, `regexCompiles` whether `std::regex` takes a pattern, `regexMatches` whether a pattern
matches a text and no error is thrown. -/
structure Comparisons where
  numericLess : Bytes → Bytes → Bool
  regexCompiles : Bytes → Bool
  regexMatches : Bytes → Bytes → Bool

/-! ## Tokens -/

def toUpperAscii (text : Bytes) : Bytes := text.map fun b => if 97 ≤ b ∧ b ≤ 122 then b - 32 else b

def isSpace (b : Byte) : Bool := b = 32 ∨ b = 9 ∨ b = 10 ∨ b = 13

/-- The loop of `Tokenize`. Every token takes a byte, so the length of the text is enough `fuel`. -/
def tokenizeFrom : Nat → Bytes → List Bytes
  | 0, _ => []
  | fuel + 1, text =>
    let start := text.dropWhile isSpace
    if start = [] then []
    else start.takeWhile (!isSpace ·) :: tokenizeFrom fuel (start.dropWhile (!isSpace ·))

def tokenize (text : Bytes) : List Bytes := tokenizeFrom text.length text

/-- `std::string_view::find`. -/
def findText (pattern : Bytes) : Bytes → Option Nat
  | [] => if pattern = [] then some 0 else none
  | b :: bs => if pattern <+: b :: bs then some 0 else (findText pattern bs).map (· + 1)

/-- `ParseUint32Strict` into a 32-bit tag. -/
def parseTag (text : Bytes) : Option UInt32 := (parseUint32Strict text).map UInt32.ofNat

def parseHasToken (token : Bytes) : Option UInt32 :=
  let upper := toUpperAscii token
  if upper.length < 6 ∨ ¬ascii "HAS(" <+: upper ∨ upper.getLast? ≠ some 41 then none
  else parseTag ((token.drop 4).take (token.length - 5))

def parseOperatorToken (token : Bytes) : Option ExprOp :=
  let upper := toUpperAscii token
  if upper = ascii "==" then some .equal
  else if upper = ascii "!=" then some .notEqual
  else if upper = ascii "<" then some .lessThan
  else if upper = ascii ">" then some .greaterThan
  else if upper = ascii "CONTAINS" then some .contains
  else if upper = ascii "REGEX" then some .regex
  else if upper = ascii "HAS" then some .hasTag
  else none

def findInlineComparisonOperator (token : Bytes) : Option (Nat × ExprOp) :=
  [(ascii "==", ExprOp.equal), (ascii "!=", .notEqual), (ascii "<", .lessThan),
    (ascii ">", .greaterThan)].findSome? fun entry =>
      (findText entry.1 token).map fun found => (found, entry.2)

/-! ## Parsing -/

def invalidTag : Status :=
  .InvalidArgument "routing expression comparison requires a numeric tag"

/-- `HAS` and its tag in two tokens. -/
def parseHasClause (negated : Bool) (tokens : List Bytes) : Except Status (ExprNode × List Bytes) :=
  match tokens with
  | [] => .error (.InvalidArgument "HAS operator requires a tag")
  | token :: rest =>
    let tagToken :=
      if 2 ≤ token.length ∧ token.head? = some 40 ∧ token.getLast? = some 41 then
        (token.drop 1).take (token.length - 2)
      else token
    match parseTag tagToken with
    | none => .error (.InvalidArgument "HAS operator requires a numeric tag")
    | some tag => .ok ({ tag, op := .hasTag, negated }, rest)

/-- A comparison with the operator in the token of the tag. -/
def parseInlineClause (negated : Bool) (token : Bytes) (opPos : Nat) (op : ExprOp)
    (rest : List Bytes) : Except Status (ExprNode × List Bytes) :=
  let opWidth := if op = .equal ∨ op = .notEqual then 2 else 1
  match parseTag (token.take opPos) with
  | none => .error invalidTag
  | some tag =>
    let value := token.drop (opPos + opWidth)
    if value ≠ [] then .ok ({ tag, op, value, negated }, rest)
    else
      match rest with
      | [] => .error (.InvalidArgument "routing expression comparison requires a value")
      | value :: rest => .ok ({ tag, op, value, negated }, rest)

/-- A comparison in three tokens. -/
def parseSpacedClause (negated : Bool) (token : Bytes) (rest : List Bytes) :
    Except Status (ExprNode × List Bytes) :=
  match parseTag token with
  | none => .error invalidTag
  | some tag =>
    match rest with
    | [] => .error (.InvalidArgument "routing expression comparison requires an operator")
    | opToken :: rest =>
      match parseOperatorToken opToken with
      | none | some .hasTag =>
        .error (.InvalidArgument "routing expression comparison has an invalid operator")
      | some op =>
        match rest with
        | [] => .error (.InvalidArgument "routing expression comparison requires a value")
        | value :: rest => .ok ({ tag, op, value, negated }, rest)

/-- `ParseClause` behind the `NOT`. -/
def parseComparison (negated : Bool) (token : Bytes) (rest : List Bytes) :
    Except Status (ExprNode × List Bytes) :=
  match parseHasToken token with
  | some tag => .ok ({ tag, op := .hasTag, negated }, rest)
  | none =>
    if toUpperAscii token = ascii "HAS" then parseHasClause negated rest
    else
      match findInlineComparisonOperator token with
      | some (opPos, op) => parseInlineClause negated token opPos op rest
      | none => parseSpacedClause negated token rest

def parseClause (tokens : List Bytes) : Except Status (ExprNode × List Bytes) :=
  match tokens with
  | [] => .error (.InvalidArgument "routing expression expected a clause")
  | token :: rest =>
    if toUpperAscii token = ascii "NOT" then
      match rest with
      | [] => .error (.InvalidArgument "routing expression has NOT without a comparison")
      | token :: rest => parseComparison true token rest
    else parseComparison false token rest

/-- The loop of `ParseRoutingExpression`. Every clause takes a token, so the number of tokens is
enough `fuel`. -/
def parseClauses : Nat → List Bytes → Except Status (List Clause)
  | 0, _ => .ok []
  | fuel + 1, tokens => do
    let (node, rest) ← parseClause tokens
    match rest with
    | [] => .ok [{ node }]
    | token :: rest =>
      let upper := toUpperAscii token
      if upper ≠ ascii "AND" ∧ upper ≠ ascii "OR" then
        .error (.InvalidArgument "routing expression expected AND or OR connector")
      else if rest = [] then
        .error (.InvalidArgument "routing expression connector is missing a following clause")
      else do
        let clauses ← parseClauses fuel rest
        .ok ({ node, connector := if upper = ascii "AND" then .and else .or } :: clauses)

def parseRoutingExpression (cmp : Comparisons) (text : Bytes) : Except Status (List Clause) :=
  let tokens := tokenize text
  if tokens = [] then .error (.InvalidArgument "routing expression is empty")
  else do
    let clauses ← parseClauses tokens.length tokens
    if clauses.any fun c => c.node.op = .regex ∧ !cmp.regexCompiles c.node.value then
      .error (.InvalidArgument "routing expression contains an invalid regex")
    else .ok clauses

/-! ## Evaluation -/

def evaluateNode (cmp : Comparisons) (m : RoutedMessage) (node : ExprNode) : Bool :=
  let matched :=
    match extractMessageTagValue m node.tag.toNat with
    | none => false
    | some value =>
      match node.op with
      | .hasTag => true
      | .equal => value = node.value
      | .notEqual => value ≠ node.value
      | .lessThan => cmp.numericLess value node.value
      | .greaterThan => cmp.numericLess node.value value
      | .contains => (findText node.value value).isSome
      | .regex => cmp.regexMatches node.value value
  if node.negated then !matched else matched

/-- The loop of `EvaluateExpression` behind a clause with the given connector. -/
def evaluateFrom (cmp : Comparisons) (m : RoutedMessage) :
    ExprLogic → List Clause → Bool → Bool → Bool
  | _, [], currentAndGroup, result => result || currentAndGroup
  | connector, c :: cs, currentAndGroup, result =>
    let nextValue := evaluateNode cmp m c.node
    match connector with
    | .and => evaluateFrom cmp m c.connector cs (currentAndGroup && nextValue) result
    | .or => evaluateFrom cmp m c.connector cs nextValue (result || currentAndGroup)

def evaluateExpression (cmp : Comparisons) (clauses : List Clause) (m : RoutedMessage) : Bool :=
  match clauses with
  | [] => false
  | c :: cs => evaluateFrom cmp m c.connector cs (evaluateNode cmp m c.node) false

end Router

end NimbleFix
