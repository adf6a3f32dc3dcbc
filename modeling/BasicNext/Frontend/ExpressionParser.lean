import BasicNext.Frontend.Ast
import BasicNext.Frontend.Lexer

/-!
# The expression parser

`ExpressionParser` of `bn_frontend::parser`: a loop that climbs over the operators of a precedence, with the prefixes and
suffixes of an operand. The state is the list of the tokens that are left; `final` is the last token of the slice, which
gives the place of an error at the end. A call uses one unit of fuel, of which `parse_expression` gives enough.
-/

namespace BasicNext.Frontend.Parser

open Frontend (Literal TypeAtom)

/-! ### Nodes -/

/-- `ast::Expression`, with the span of each node. -/
inductive Expression where
  | literal (value : Literal) (span : Span)
  | name (name : String) (span : Span)
  | superClass (span : Span)
  | input (span : Span)
  | hostCapability (name : String) (span : Span)
  | length (operand : Expression) (span : Span)
  | sizeOf (operand : Expression) (span : Span)
  | typeTest (atom : TypeAtom) (span : Span)
  | vector (values : List Expression) (span : Span)
  | new (typeName : String) (arguments : List Expression) (span : Span)
  | unary (operator : String) (operand : Expression) (span : Span)
  | binary (operator : String) (left right : Expression) (span : Span)
  | call (callee : Expression) (arguments : List Expression) (span : Span)
  | member (object : Expression) (name : String) (span : Span)
  | index (object index : Expression) (span : Span)
  | cast (value : Expression) (type : TypeAtom) (span : Span)
  | increment (target : Expression) (delta : Int) (isPrefix : Bool) (span : Span)

namespace Expression

def span : Expression → Span
  | literal _ span | name _ span | superClass span | input span | hostCapability _ span | length _ span | sizeOf _ span
  | typeTest _ span | vector _ span | new _ _ span | unary _ _ span | binary _ _ _ span | call _ _ span
  | member _ _ span | index _ _ span | cast _ _ span | increment _ _ _ span => span

def isIncrement : Expression → Bool
  | increment .. => true
  | _ => false

def isTarget : Expression → Bool
  | name .. | member .. | index .. => true
  | _ => false

end Expression

structure SyntaxError where
  message : String
  span : Span
deriving DecidableEq, Repr

inductive Failure where
  | syntaxError (error : SyntaxError)
  | noTokens
  | outOfFuel
deriving DecidableEq, Repr

abbrev Parsed := Except Failure (Expression × List Token)

def syntaxError (message : String) (span : Span) : Failure := .syntaxError ⟨message, span⟩

/-! ### Texts -/

def symbolName : Symbol → String
  | .assign => "Assign"
  | .notEqual => "NotEqual"
  | .less => "Less"
  | .lessEqual => "LessEqual"
  | .greater => "Greater"
  | .greaterEqual => "GreaterEqual"
  | .plus => "Plus"
  | .minus => "Minus"
  | .star => "Star"
  | .power => "Power"
  | .slash => "Slash"
  | .percent => "Percent"
  | .plusAssign => "PlusAssign"
  | .minusAssign => "MinusAssign"
  | .increment => "Increment"
  | .decrement => "Decrement"
  | .starAssign => "StarAssign"
  | .powerAssign => "PowerAssign"
  | .slashAssign => "SlashAssign"
  | .percentAssign => "PercentAssign"
  | .leftParen => "LeftParen"
  | .rightParen => "RightParen"
  | .leftBracket => "LeftBracket"
  | .rightBracket => "RightBracket"
  | .comma => "Comma"
  | .colon => "Colon"
  | .dot => "Dot"

/-- `text` of a token. -/
def text : TokenKind → String
  | .keyword value | .identifier value | .integer value | .float value | .string value | .special value => value
  | .symbol symbol => symbolName symbol
  | .newline | .eof => ""

def numericTypes : List String :=
  ["BYTE", "INT8", "INT16", "INT32", "INT64", "UINT16", "UINT32", "UINT64", "FLOAT32", "FLOAT64", "INTEGER", "FLOAT",
    "TIMESTAMP"]

def expressionAtom (token : Token) : Expression :=
  match token.kind with
  | .identifier name => .name name token.span
  | .integer value => .literal (.integer value) token.span
  | .float value => .literal (.float value) token.span
  | .string value => .literal (.string value) token.span
  | .special value => .literal (.special value) token.span
  | .keyword word =>
    if word = "TRUE" then .literal (.boolean true) token.span
    else if word = "FALSE" then .literal (.boolean false) token.span
    else if word = "NULL" then .literal .null token.span
    else if word = "NA" then .literal .notAvailable token.span
    else if word = "EOF" then .literal .endOfFile token.span
    else if word = "SELF" then .name word token.span
    else if word = "SUPER" then .superClass token.span
    else .literal (.typeName word) token.span
  | kind => .literal (.string (text kind)) token.span

/-! ### The cursor -/

def powerPrecedence : Nat := 10

/-- `peek_kind`: the end of the input past the last token. -/
def peekKind : List Token → TokenKind
  | [] => .eof
  | token :: _ => token.kind

def keyword (word : String) (rest : List Token) : Bool := peekKind rest == .keyword word

def symbol (symbol : Symbol) (rest : List Token) : Bool := peekKind rest == .symbol symbol

def keywordIn (words : List String) (rest : List Token) : Bool :=
  match peekKind rest with
  | .keyword word => words.contains word
  | _ => false

def isIdentifier : TokenKind → Bool
  | .identifier _ => true
  | _ => false

def isInteger : TokenKind → Bool
  | .integer _ => true
  | _ => false

/-- The precedence of the operator at the cursor, and whether it associates to the right. -/
def binary (rest : List Token) : Option (Nat × Bool) :=
  match peekKind rest with
  | .keyword word =>
    if word = "OR" then some (1, false)
    else if word = "XOR" then some (2, false)
    else if word = "AND" then some (3, false)
    else if word = "IS" then some (4, false)
    else if word = "SHL" ∨ word = "SHR" then some (6, false)
    else if word = "DIV" then some (8, false)
    else none
  | .symbol .assign | .symbol .notEqual => some (4, false)
  | .symbol .less | .symbol .lessEqual | .symbol .greater | .symbol .greaterEqual => some (5, false)
  | .symbol .plus | .symbol .minus => some (7, false)
  | .symbol .star | .symbol .slash | .symbol .percent => some (8, false)
  | .symbol .power => some (powerPrecedence, true)
  | _ => none

/-- `increment`: the target of `++` or `--`. -/
def increment (target : Expression) (token : Token) (isPrefix : Bool) : Except Failure Expression :=
  if target.isIncrement then .error (syntaxError "++ and -- cannot be chained" token.span)
  else if !target.isTarget then
    .error (syntaxError "++ and -- require an assignment target (an identifier, member, or index)" token.span)
  else
    .ok (.increment target (if token.kind = .symbol .increment then 1 else -1) isPrefix
      (if isPrefix then ⟨token.span.start, target.span.stop⟩ else ⟨target.span.start, token.span.stop⟩))

section

variable (final : Token)

def peek (rest : List Token) : Token := rest.headD final

def error (message : String) (rest : List Token) : Failure := syntaxError message (peek final rest).span

def expectSymbol (expected : Symbol) (rest : List Token) : Except Failure (Span × List Token) :=
  if symbol expected rest then .ok ((peek final rest).span, rest.tail) else .error (error final "expected punctuation" rest)

def identifierToken (rest : List Token) : Except Failure (Token × List Token) :=
  if isIdentifier (peekKind rest) then .ok (peek final rest, rest.tail) else .error (error final "expected identifier" rest)

def member (object : Expression) (rest : List Token) : Parsed := do
  let (token, rest) ← identifierToken final rest.tail
  return (.member object (text token.kind) ⟨object.span.start, token.span.stop⟩, rest)

def cast (value : Expression) (rest : List Token) : Parsed :=
  let rest := rest.tail
  if keywordIn (numericTypes ++ ["BOOLEAN", "STRING"]) rest then
    let token := peek final rest
    .ok (.cast value { name := text token.kind } ⟨value.span.start, token.span.stop⟩, rest.tail)
  else .error (error final "expected numeric type, BOOLEAN, or STRING after AS" rest)

def hostCapability (rest : List Token) : Parsed := do
  let start := (peek final rest).span.start
  let (_, rest) ← expectSymbol final .dot rest.tail
  let token := peek final rest
  let rest := rest.tail
  match token.kind with
  | .identifier name =>
    if (name.toList.head?.any fun letter => letter.isUpper) then .ok (.hostCapability name ⟨start, token.span.stop⟩, rest)
    else .error (error final "host capability names after HOST. must start with a capital letter" rest)
  | _ => .error (error final "expected host capability name" rest)

/-! ### Type tests -/

def typeTestStart (rest : List Token) : Bool :=
  isIdentifier (peekKind rest) ||
    keywordIn (numericTypes ++ ["BOOLEAN", "STRING", "DATE", "TIME", "TIMEZONE", "SYSTEM", "POINTER"]) rest

/-- The rest of a qualified name, after the tokens of the test so far. -/
def qualified : List Token → List Token → Except Failure (List Token × List Token)
  | tokens, dot :: part :: rest =>
    if dot.kind = .symbol .dot then
      if isIdentifier part.kind then qualified (tokens ++ [dot, part]) rest
      else .error (error final "expected identifier" (part :: rest))
    else .ok (tokens, dot :: part :: rest)
  | tokens, rest =>
    if symbol .dot rest then .error (error final "expected identifier" rest.tail) else .ok (tokens, rest)

def pointerElement (tokens rest : List Token) : Except Failure (List Token × List Token) :=
  if keywordIn (numericTypes ++ ["VOID"]) rest then .ok (tokens ++ [peek final rest], rest.tail)
  else if isIdentifier (peekKind rest) then qualified final (tokens ++ [peek final rest]) rest.tail
  else .error (error final "POINTER type test requires a numeric, named, or VOID element type" rest)

def pointerShape (tokens rest : List Token) : Except Failure (List Token × List Token) :=
  if symbol .leftBracket rest then do
    let tokens := tokens ++ [peek final rest]
    let rest := rest.tail
    let (tokens, rest) ←
      if symbol .rightBracket rest then .ok (tokens, rest)
      else if isInteger (peekKind rest) then .ok (tokens ++ [peek final rest], rest.tail)
      else .error (error final "pointer shape requires an integer literal" rest)
    if symbol .rightBracket rest then .ok (tokens ++ [peek final rest], rest.tail)
    else .error (error final "expected ] in pointer type test" rest)
  else .ok (tokens, rest)

/-- The lengths of a vector test: brackets around one integer each. -/
def vectorDimensions : List Token → List Token → List Token × List String × List Token
  | tokens, first :: size :: close :: rest =>
    if first.kind = .symbol .leftBracket ∧ close.kind = .symbol .rightBracket ∧ isInteger size.kind then
      let (tokens, dimensions, rest) := vectorDimensions (tokens ++ [first, size, close]) rest
      (tokens, text size.kind :: dimensions, rest)
    else (tokens, [], first :: size :: close :: rest)
  | tokens, rest => (tokens, [], rest)

def typeTest (rest : List Token) : Parsed := do
  let first := peek final rest
  let rest := rest.tail
  let isPointer := first.kind = .keyword "POINTER"
  let (tokens, rest) ←
    if isPointer then
      if keyword "TO" rest then do
        let (tokens, rest) ← pointerElement final [first, peek final rest] rest.tail
        pointerShape final tokens rest
      else .error (error final "expected TO in POINTER type test" rest)
    else if isIdentifier first.kind then qualified final [first] rest
    else .ok ([first], rest)
  let (tokens, dimensions, rest) := if isPointer then (tokens, [], rest) else vectorDimensions tokens rest
  let atom : TypeAtom := { name := text first.kind, parts := tokens.tail.map fun token => text token.kind, dimensions }
  return (.typeTest atom ⟨first.span.start, (tokens.getLastD first).span.stop⟩, rest)

/-! ### Expressions -/

/-- The tokens that `prefix` takes as one operand. -/
def isAtom (rest : List Token) : Bool :=
  match peekKind rest with
  | .identifier _ | .integer _ | .float _ | .string _ | .special _ => true
  | .keyword word =>
    (["TRUE", "FALSE", "NULL", "NA", "EOF", "SELF", "SUPER", "BOOLEAN"] ++ numericTypes ++ ["STRING", "SYSTEM"]).contains word
  | _ => false

/-- The parts of the name of a class after `NEW`. -/
def newTypeName : String → List Token → Except Failure (String × List Token)
  | name, dot :: part :: rest =>
    if dot.kind = .symbol .dot then
      if isIdentifier part.kind then newTypeName (name ++ "." ++ text part.kind) rest
      else .error (error final "expected identifier" (part :: rest))
    else .ok (name, dot :: part :: rest)
  | name, rest => if symbol .dot rest then .error (error final "expected identifier" rest.tail) else .ok (name, rest)

mutual

def expression : Nat → Nat → List Token → Parsed
  | 0, _, _ => .error .outOfFuel
  | fuel + 1, minimum, rest => do
    let (left, rest) ← prefixExpression fuel rest
    climb fuel minimum left rest

/-- The loop of `expression`. -/
def climb : Nat → Nat → Expression → List Token → Parsed
  | 0, _, _, _ => .error .outOfFuel
  | fuel + 1, minimum, left, rest =>
    if symbol .increment rest || symbol .decrement rest then do
      let left ← increment left (peek final rest) false
      climb fuel minimum left rest.tail
    else if symbol .leftParen rest then do
      let (arguments, rest) ← expressionList fuel .rightParen rest.tail
      let (stop, rest) ← expectSymbol final .rightParen rest
      climb fuel minimum (.call left arguments ⟨left.span.start, stop.stop⟩) rest
    else if symbol .dot rest then do
      let (left, rest) ← member final left rest
      climb fuel minimum left rest
    else if symbol .leftBracket rest then do
      let (index, rest) ← expression fuel 0 rest.tail
      let (stop, rest) ← expectSymbol final .rightBracket rest
      climb fuel minimum (.index left index ⟨left.span.start, stop.stop⟩) rest
    else if keyword "AS" rest then do
      let (left, rest) ← cast final left rest
      climb fuel minimum left rest
    else
      match binary rest with
      | none => .ok (left, rest)
      | some (precedence, rightAssociative) =>
        if precedence < minimum then .ok (left, rest)
        else do
          let operator := text (peekKind rest)
          let (right, rest) ←
            if operator = "IS" ∧ typeTestStart rest.tail then typeTest final rest.tail
            else expression fuel (precedence + if rightAssociative then 0 else 1) rest.tail
          climb fuel minimum (.binary operator left right ⟨left.span.start, right.span.stop⟩) rest

/-- The loop over expressions that are separated by commas, none before the closing symbol. -/
def expressionList : Nat → Symbol → List Token → Except Failure (List Expression × List Token)
  | 0, _, _ => .error .outOfFuel
  | fuel + 1, close, rest => if symbol close rest then .ok ([], rest) else expressions fuel rest

def expressions : Nat → List Token → Except Failure (List Expression × List Token)
  | 0, _ => .error .outOfFuel
  | fuel + 1, rest => do
    let (value, rest) ← expression fuel 0 rest
    if symbol .comma rest then do
      let (values, rest) ← expressions fuel rest.tail
      return (value :: values, rest)
    else return ([value], rest)

/-- `prefix` -/
def prefixExpression : Nat → List Token → Parsed
  | 0, _ => .error .outOfFuel
  | fuel + 1, rest =>
    let token := peek final rest
    if symbol .increment rest || symbol .decrement rest then do
      let (operand, rest) ← expression fuel 255 rest.tail
      let value ← increment operand token true
      return (value, rest)
    else if keyword "ASYNC" rest then asyncSubmit fuel rest
    else if keyword "AWAIT" rest then awaitExpression fuel rest
    else if keyword "INPUT" rest then do
      let (_, rest) ← expectSymbol final .leftParen rest.tail
      let (stop, rest) ← expectSymbol final .rightParen rest
      return (.input ⟨token.span.start, stop.stop⟩, rest)
    else if keyword "LEN" rest then operandForm fuel .length rest
    else if keyword "SIZEOF" rest then operandForm fuel .sizeOf rest
    else if keyword "HOST" rest then hostCapability final rest
    else if keyword "NEW" rest then newExpression fuel rest
    else if symbol .leftBracket rest then do
      let (values, rest) ← expressionList fuel .rightBracket rest.tail
      let (stop, rest) ← expectSymbol final .rightBracket rest
      return (.vector values ⟨token.span.start, stop.stop⟩, rest)
    else if keyword "NOT" rest || symbol .minus rest then do
      let (operand, rest) ← expression fuel powerPrecedence rest.tail
      return (.unary (text token.kind) operand ⟨token.span.start, operand.span.stop⟩, rest)
    else if symbol .leftParen rest then do
      let (value, rest) ← expression fuel 0 rest.tail
      let (_, rest) ← expectSymbol final .rightParen rest
      return (value, rest)
    else if isAtom rest then .ok (expressionAtom token, rest.tail)
    else .error (error final "expected expression" rest)

/-- `LEN` and `SIZEOF` -/
def operandForm : Nat → (Expression → Span → Expression) → List Token → Parsed
  | 0, _, _ => .error .outOfFuel
  | fuel + 1, wrap, rest => do
    let start := (peek final rest).span.start
    let (_, rest) ← expectSymbol final .leftParen rest.tail
    let (operand, rest) ← expression fuel 0 rest
    let (stop, rest) ← expectSymbol final .rightParen rest
    return (wrap operand ⟨start, stop.stop⟩, rest)

def newExpression : Nat → List Token → Parsed
  | 0, _ => .error .outOfFuel
  | fuel + 1, rest =>
    let start := (peek final rest).span.start
    let typeToken := peek final rest.tail
    let typeName := text typeToken.kind
    let rest := rest.tail.tail
    let numeric := numericTypes.contains typeName
    if typeName = "" then .error (error final "expected type after NEW" rest)
    else if !numeric && !isIdentifier typeToken.kind then
      .error (error final "NEW requires a numeric type or CLASS name" rest)
    else do
      let (typeName, rest) ← if numeric then .ok (typeName, rest) else newTypeName final typeName rest
      if symbol .leftBracket rest then
        if !numeric then .error (error final "CLASS construction requires parentheses" rest)
        else do
          let (length, rest) ← expression fuel 0 rest.tail
          let (stop, rest) ← expectSymbol final .rightBracket rest
          return (.new typeName [length] ⟨start, stop.stop⟩, rest)
      else if symbol .leftParen rest then
        if numeric then .error (error final "numeric NEW does not use parentheses" rest)
        else do
          let (arguments, rest) ← expressionList fuel .rightParen rest.tail
          let (stop, rest) ← expectSymbol final .rightParen rest
          return (.new typeName arguments ⟨start, stop.stop⟩, rest)
      else if !numeric then .error (error final "CLASS construction requires parentheses" rest)
      else return (.new typeName [] ⟨start, typeToken.span.stop⟩, rest)

/-- `ASYNC queue Function(arguments)` is `queue.Async(Function, arguments)`. -/
def asyncSubmit : Nat → List Token → Parsed
  | 0, _ => .error .outOfFuel
  | fuel + 1, rest => do
    let start := (peek final rest).span.start
    let (queue, rest) ← prefixExpression fuel rest.tail
    let (target, rest) ← identifierToken final rest
    let (_, rest) ← expectSymbol final .leftParen rest
    let (arguments, rest) ← expressionList fuel .rightParen rest
    let (stop, rest) ← expectSymbol final .rightParen rest
    let asyncMember : Expression := .member queue "Async" ⟨queue.span.start, target.span.stop⟩
    return (.call asyncMember (.name (text target.kind) target.span :: arguments) ⟨start, stop.stop⟩, rest)

/-- `AWAIT ticket(timeout)` is `ticket.Wait(timeout)`. -/
def awaitExpression : Nat → List Token → Parsed
  | 0, _ => .error .outOfFuel
  | fuel + 1, rest => do
    let start := (peek final rest).span.start
    let (ticket, rest) ← prefixExpression fuel rest.tail
    let (_, rest) ← expectSymbol final .leftParen rest
    let (timeout, rest) ← expression fuel 0 rest
    let (stop, rest) ← expectSymbol final .rightParen rest
    return (.call (.member ticket "Wait" ⟨ticket.span.start, timeout.span.start⟩) [timeout] ⟨start, stop.stop⟩, rest)

end

end

/-- The fuel for a slice: no token takes part in more than eight calls. -/
def enoughFuel (tokens : List Token) : Nat := 8 * tokens.length + 8

def parseExpression (tokens : List Token) : Except Failure Expression :=
  match tokens.getLast? with
  | none => .error .noTokens
  | some final => do
    let (value, rest) ← expression final (enoughFuel tokens) 0 tokens
    if rest = [] ∨ peekKind rest = .newline ∨ peekKind rest = .eof then return value
    else .error (error final "unexpected token after expression" rest)

end BasicNext.Frontend.Parser
