import BasicNext.Frontend.ExpressionParser

/-!
# The grammar of expressions

The expression productions of the language as derivations of trees from token kinds, without `IS` tests and without the
primaries that have a production of their own. Repetition is left recursion, parentheses leave no node, and a tree has
no spans.
-/

namespace BasicNext.Frontend.Parser

inductive Tree where
  | literal (value : Literal)
  | name (name : String)
  | superClass
  | unary (operator : String) (operand : Tree)
  | binary (operator : String) (left right : Tree)
  | call (callee : Tree) (arguments : List Tree)
  | member (object : Tree) (name : String)
  | index (object index : Tree)
  | cast (value : Tree) (typeName : String)
  | increment (target : Tree) (delta : Int) (isPrefix : Bool)
  /-- A node of a production that is left out. -/
  | other

mutual

/-- The node without its spans. -/
def Expression.tree : Expression → Tree
  | .literal value _ => .literal value
  | .name name _ => .name name
  | .superClass _ => .superClass
  | .unary operator operand _ => .unary operator operand.tree
  | .binary operator left right _ => .binary operator left.tree right.tree
  | .call callee arguments _ => .call callee.tree (trees arguments)
  | .member object name _ => .member object.tree name
  | .index object index _ => .index object.tree index.tree
  | .cast value type _ => .cast value.tree type.name
  | .increment target delta isPrefix _ => .increment target.tree delta isPrefix
  | .input _ | .hostCapability _ _ | .length _ _ | .sizeOf _ _ | .typeTest _ _ | .vector _ _ | .new _ _ _ => .other

def trees : List Expression → List Tree
  | [] => []
  | value :: values => value.tree :: trees values

end

/-! ### Productions -/

inductive Level where
  | or | xor | and | equality | comparison | shift | additive | multiplicative
deriving DecidableEq, Repr

inductive Nonterminal where
  | level (level : Level)
  | unaryExpression
  | powerExpression
  | postfixExpression
  /-- A primary with its suffixes. -/
  | suffixed
  | incrementExpression
  | assignmentTarget
  | primary
deriving DecidableEq, Repr

/-- `expression` -/
abbrev Nonterminal.expression : Nonterminal := .level .or

def Level.operators : Level → List TokenKind
  | or => [.keyword "OR"]
  | xor => [.keyword "XOR"]
  | and => [.keyword "AND"]
  | equality => [.symbol .assign, .symbol .notEqual]
  | comparison => [.symbol .less, .symbol .lessEqual, .symbol .greater, .symbol .greaterEqual]
  | shift => [.keyword "SHL", .keyword "SHR"]
  | additive => [.symbol .plus, .symbol .minus]
  | multiplicative => [.symbol .star, .symbol .slash, .keyword "DIV", .symbol .percent]

def Level.operand : Level → Nonterminal
  | or => .level xor
  | xor => .level and
  | and => .level equality
  | equality => .level comparison
  | comparison => .level shift
  | shift => .level additive
  | additive => .level multiplicative
  | multiplicative => .unaryExpression

def unaryOperators : List TokenKind := [.keyword "NOT", .symbol .minus]

def literal : TokenKind → Option Literal
  | .integer value => some (.integer value)
  | .float value => some (.float value)
  | .string value => some (.string value)
  | .special value => some (.special value)
  | .keyword "TRUE" => some (.boolean true)
  | .keyword "FALSE" => some (.boolean false)
  | .keyword "NULL" => some .null
  | .keyword "NA" => some .notAvailable
  | .keyword "EOF" => some .endOfFile
  | _ => none

def castTypes : List String :=
  ["BYTE", "INT8", "INT16", "INT32", "INT64", "UINT16", "UINT32", "UINT64", "FLOAT32", "FLOAT64", "INTEGER", "FLOAT",
    "TIMESTAMP", "BOOLEAN", "STRING"]

/-- What `++` and `--` add. -/
def delta : TokenKind → Option Int
  | .symbol .increment => some 1
  | .symbol .decrement => some (-1)
  | _ => none

/-- Texts with a comma between each two. -/
def separated : List (List TokenKind) → List TokenKind
  | [] => []
  | [kinds] => kinds
  | kinds :: next :: rest => kinds ++ .symbol .comma :: separated (next :: rest)

inductive Derives : Nonterminal → List TokenKind → Tree → Prop
  | operand {level kinds tree} (operand : Derives level.operand kinds tree) : Derives (.level level) kinds tree
  | binary {level left right leftTree rightTree operator} (member : operator ∈ level.operators)
    (before : Derives (.level level) left leftTree) (after : Derives level.operand right rightTree) :
    Derives (.level level) (left ++ operator :: right) (.binary (text operator) leftTree rightTree)
  | unary {operator kinds tree} (member : operator ∈ unaryOperators) (operand : Derives .unaryExpression kinds tree) :
    Derives .unaryExpression (operator :: kinds) (.unary (text operator) tree)
  | unaryPower {kinds tree} (power : Derives .powerExpression kinds tree) : Derives .unaryExpression kinds tree
  | powerBase {kinds tree} (base : Derives .postfixExpression kinds tree) : Derives .powerExpression kinds tree
  | power {left right leftTree rightTree} (base : Derives .postfixExpression left leftTree)
    (exponent : Derives .unaryExpression right rightTree) :
    Derives .powerExpression (left ++ .symbol .power :: right) (.binary (text (.symbol .power)) leftTree rightTree)
  | postfixPrimary {kinds tree} (suffixed : Derives .suffixed kinds tree) : Derives .postfixExpression kinds tree
  | postfixIncrement {kinds tree} (increment : Derives .incrementExpression kinds tree) :
    Derives .postfixExpression kinds tree
  | suffixedPrimary {kinds tree} (primary : Derives .primary kinds tree) : Derives .suffixed kinds tree
  | call {kinds tree} {arguments : List (List TokenKind × Tree)} (callee : Derives .suffixed kinds tree)
    (each : ∀ argument ∈ arguments, Derives .expression argument.1 argument.2) :
    Derives .suffixed (kinds ++ .symbol .leftParen :: (separated (arguments.map (·.1)) ++ [.symbol .rightParen]))
      (.call tree (arguments.map (·.2)))
  | member {kinds tree name} (object : Derives .suffixed kinds tree) :
    Derives .suffixed (kinds ++ [.symbol .dot, .identifier name]) (.member tree name)
  | index {kinds tree inner innerTree} (object : Derives .suffixed kinds tree) (index : Derives .expression inner innerTree) :
    Derives .suffixed (kinds ++ .symbol .leftBracket :: (inner ++ [.symbol .rightBracket])) (.index tree innerTree)
  | cast {kinds tree type} (value : Derives .suffixed kinds tree) (known : type ∈ castTypes) :
    Derives .suffixed (kinds ++ [.keyword "AS", .keyword type]) (.cast tree type)
  | incrementBefore {operator kinds tree amount} (known : delta operator = some amount)
    (target : Derives .assignmentTarget kinds tree) :
    Derives .incrementExpression (operator :: kinds) (.increment tree amount true)
  | incrementAfter {operator kinds tree amount} (known : delta operator = some amount)
    (target : Derives .assignmentTarget kinds tree) :
    Derives .incrementExpression (kinds ++ [operator]) (.increment tree amount false)
  | targetName {name} : Derives .assignmentTarget [.identifier name] (.name name)
  | targetSelf {name} :
    Derives .assignmentTarget [.keyword "SELF", .symbol .dot, .identifier name] (.member (.name "SELF") name)
  | targetMember {kinds tree name} (object : Derives .assignmentTarget kinds tree) :
    Derives .assignmentTarget (kinds ++ [.symbol .dot, .identifier name]) (.member tree name)
  | targetIndex {kinds tree inner innerTree} (object : Derives .assignmentTarget kinds tree)
    (index : Derives .expression inner innerTree) :
    Derives .assignmentTarget (kinds ++ .symbol .leftBracket :: (inner ++ [.symbol .rightBracket])) (.index tree innerTree)
  | literal {kind value} (known : literal kind = some value) : Derives .primary [kind] (.literal value)
  | name {name} : Derives .primary [.identifier name] (.name name)
  | self : Derives .primary [.keyword "SELF"] (.name "SELF")
  | superClass : Derives .primary [.keyword "SUPER"] .superClass
  | parentheses {kinds tree} (inner : Derives .expression kinds tree) :
    Derives .primary (.symbol .leftParen :: (kinds ++ [.symbol .rightParen])) tree

end BasicNext.Frontend.Parser

/-!
## The expression parser builds the trees of the grammar

What the parser does with the tokens of a derivation, whatever stands behind them: an operand is passed by `expression`
and left to the loop, which takes the suffixes and the operators that bind tightly enough. Every token pays for eight
calls.
-/

namespace BasicNext.Frontend.Parser

open Lib

variable {final : Token}

/-! ### Calls with enough fuel -/

def Parses {α : Type} (enough : Nat) (call : Nat → Except Failure α) (result : α) : Prop :=
  ∀ fuel, enough ≤ fuel → call fuel = .ok result

theorem Parses.mono {α : Type} {enough more : Nat} {call : Nat → Except Failure α} {result : α}
    (parses : Parses enough call result) (le : enough ≤ more) : Parses more call result :=
  fun fuel more => parses fuel (le.trans more)

theorem Parses.step {α : Type} {enough : Nat} {call next : Nat → Except Failure α} {result : α}
    (parses : Parses enough next result) (step : ∀ fuel, enough ≤ fuel → call (fuel + 1) = next fuel) :
    Parses (enough + 1) call result := by
  intro fuel more
  obtain ⟨fuel, rfl⟩ : ∃ before, fuel = before + 1 := ⟨fuel - 1, by omega⟩
  rw [step fuel (by omega)]
  exact parses fuel (by omega)

theorem Parses.bind {α β : Type} {enough more : Nat} {first : Nat → Except Failure α} {value : α} {result : β}
    (parses : Parses enough first value) (next : α → Nat → Except Failure β) (parses' : Parses more (next value) result) :
    Parses (enough + more) (fun fuel => first fuel >>= fun value => next value fuel) result := by
  intro fuel le
  dsimp only
  rw [parses fuel (by omega)]
  exact parses' fuel (by omega)

/-! ### Where an operand ends -/

/-- The token goes on with the expression before it. -/
def isSuffix (kind : TokenKind) : Bool :=
  kind == .symbol .increment || kind == .symbol .decrement || kind == .symbol .leftParen || kind == .symbol .dot
    || kind == .symbol .leftBracket || kind == .keyword "AS"

/-- Neither a suffix nor an operator of the precedence or above follows. -/
def Stops (minimum : Nat) (rest : List Token) : Prop :=
  isSuffix (peekKind rest) = false ∧ ∀ precedence right, binary rest = some (precedence, right) → precedence < minimum

theorem Stops.mono {minimum maximum : Nat} {rest : List Token} (stops : Stops minimum rest) (le : minimum ≤ maximum) :
    Stops maximum rest :=
  ⟨stops.1, fun precedence right found => (stops.2 precedence right found).trans_le le⟩

theorem Stops.parses {minimum : Nat} {rest : List Token} (stops : Stops minimum rest) (left : Expression) :
    Parses 1 (fun fuel => climb final fuel minimum left rest) (left, rest) := by
  obtain ⟨noSuffix, below⟩ := stops
  simp only [isSuffix, Bool.or_eq_false_iff] at noSuffix
  have ends : Parses 0 (fun _ => (Except.ok (left, rest) : Parsed)) (left, rest) := fun _ _ => rfl
  refine ends.step fun fuel _ => ?_
  rw [climb]
  simp only [symbol, keyword, noSuffix, Bool.or_self, Bool.false_eq_true, if_false]
  cases found : binary rest with
  | none => rfl
  | some operator => exact if_pos (below operator.1 operator.2 found)

/-- The expression is passed, and the loop goes on behind it. -/
def Reaches (final : Token) (minimum : Nat) (tokens rest : List Token) (tree : Tree) : Prop :=
  ∃ left : Expression, left.tree = tree ∧ ∀ enough result,
    Parses enough (fun fuel => climb final fuel minimum left rest) result →
      Parses (enough + 8 * tokens.length) (fun fuel => expression final fuel minimum (tokens ++ rest)) result

/-- The loop takes the tokens, and goes on behind them. -/
def Climbs (final : Token) (minimum : Nat) (tree : Tree) (tokens rest : List Token) (tree' : Tree) : Prop :=
  ∀ left : Expression, left.tree = tree → ∃ left' : Expression, left'.tree = tree' ∧ ∀ enough result,
    Parses enough (fun fuel => climb final fuel minimum left' rest) result →
      Parses (enough + 8 * tokens.length) (fun fuel => climb final fuel minimum left (tokens ++ rest)) result

theorem Reaches.climbs {minimum : Nat} {tokens suffix rest : List Token} {tree tree' : Tree}
    (reaches : Reaches final minimum tokens (suffix ++ rest) tree) (climbs : Climbs final minimum tree suffix rest tree') :
    Reaches final minimum (tokens ++ suffix) rest tree' := by
  obtain ⟨left, same, passes⟩ := reaches
  obtain ⟨left', same', goesOn⟩ := climbs left same
  refine ⟨left', same', fun enough result parses => ?_⟩
  have through := passes _ _ (goesOn enough result parses)
  rw [List.append_assoc]
  refine through.mono ?_
  rw [List.length_append]
  omega

theorem Reaches.parses {minimum : Nat} {tokens rest : List Token} {tree : Tree}
    (reaches : Reaches final minimum tokens rest tree) (stops : Stops minimum rest) :
    ∃ value : Expression, value.tree = tree ∧
      Parses (8 * tokens.length + 1) (fun fuel => expression final fuel minimum (tokens ++ rest)) (value, rest) := by
  obtain ⟨left, same, passes⟩ := reaches
  refine ⟨left, same, (passes _ _ (stops.parses left)).mono ?_⟩
  omega

theorem Reaches.of_prefix {minimum enough : Nat} {tokens rest : List Token} {left : Expression}
    (parses : Parses enough (fun fuel => prefixExpression final fuel (tokens ++ rest)) (left, rest))
    (cheap : enough + 1 ≤ 8 * tokens.length) : Reaches final minimum tokens rest left.tree := by
  refine ⟨left, rfl, fun enough' result climbs => ?_⟩
  have both := parses.bind (fun value fuel => climb final fuel minimum value.1 value.2) climbs
  refine (both.step fun fuel _ => ?_).mono (by omega)
  rw [expression]

/-! ### Prefixes -/

/-- The words that begin a prefix of their own. -/
def prefixWords : List String := ["ASYNC", "AWAIT", "INPUT", "LEN", "SIZEOF", "HOST", "NEW", "NOT"]

theorem atomWords_other : ∀ word ∈ prefixWords,
    (["TRUE", "FALSE", "NULL", "NA", "EOF", "SELF", "SUPER", "BOOLEAN"] ++ numericTypes ++ ["STRING", "SYSTEM"]).contains word =
      false := by
  decide

theorem atom_other {rest : List Token} (atom : isAtom rest = true) :
    (∀ word ∈ prefixWords, keyword word rest = false) ∧ ∀ sign, symbol sign rest = false := by
  unfold isAtom at atom
  unfold keyword symbol
  cases kind : peekKind rest with
  | keyword word =>
    rw [kind] at atom
    refine ⟨fun other member => ?_, fun sign => rfl⟩
    simp only [beq_eq_false_iff_ne, ne_eq, TokenKind.keyword.injEq]
    rintro rfl
    have known := atomWords_other word member
    exact absurd (known.symm.trans atom) (by decide)
  | symbol sign => simp [kind] at atom
  | _ => simp

theorem reaches_atom {minimum : Nat} {token : Token} {rest : List Token} (atom : isAtom (token :: rest) = true) :
    Reaches final minimum [token] rest (expressionAtom token).tree := by
  obtain ⟨noWord, noSymbol⟩ := atom_other atom
  simp only [prefixWords, List.forall_mem_cons] at noWord
  have ends : Parses 0 (fun _ => (Except.ok (expressionAtom token, rest) : Parsed)) (expressionAtom token, rest) :=
    fun _ _ => rfl
  refine Reaches.of_prefix (ends.step fun fuel _ => ?_) (by simp)
  rw [List.cons_append, List.nil_append, prefixExpression]
  simp [noSymbol, noWord, atom, peek]

theorem stops_close {minimum : Nat} {last : Token} {rest : List Token}
    (closes : last.kind = .symbol .rightParen ∨ last.kind = .symbol .rightBracket ∨ last.kind = .symbol .comma) :
    Stops minimum (last :: rest) := by
  rcases closes with closes | closes | closes <;> simp [Stops, isSuffix, binary, peekKind, closes]

theorem expectSymbol_cons {expected : Symbol} {last : Token} {rest : List Token} (closes : last.kind = .symbol expected) :
    expectSymbol final expected (last :: rest) = .ok (last.span, rest) := by
  simp [expectSymbol, symbol, peekKind, closes, peek]

theorem reaches_parentheses {minimum : Nat} {first last : Token} {tokens rest : List Token} {tree : Tree}
    (opens : first.kind = .symbol .leftParen) (closes : last.kind = .symbol .rightParen)
    (inner : Reaches final 0 tokens (last :: rest) tree) :
    Reaches final minimum (first :: (tokens ++ [last])) rest tree := by
  obtain ⟨value, rfl, parses⟩ := inner.parses (stops_close (.inl closes))
  have close : Parses 0 (fun _ => expectSymbol final .rightParen (last :: rest) >>= fun closed =>
      pure (value, closed.2)) (value, rest) := by
    intro fuel _
    simp only [expectSymbol_cons closes]
    rfl
  have both := parses.bind (fun parsed _ => expectSymbol final .rightParen parsed.2 >>= fun closed =>
    pure (parsed.1, closed.2)) close
  refine Reaches.of_prefix (both.step fun fuel _ => ?_) (by simp; omega)
  rw [List.cons_append, prefixExpression]
  simp [symbol, keyword, peekKind, opens]

theorem reaches_unary {minimum : Nat} {operator : Token} {tokens rest : List Token} {tree : Tree}
    (member : operator.kind ∈ unaryOperators) (operand : Reaches final powerPrecedence tokens rest tree)
    (stops : Stops powerPrecedence rest) :
    Reaches final minimum (operator :: tokens) rest (.unary (text operator.kind) tree) := by
  obtain ⟨value, rfl, parses⟩ := operand.parses stops
  let wrap (operand : Expression) : Expression :=
    .unary (text operator.kind) operand ⟨operator.span.start, operand.span.stop⟩
  have ends : Parses 0 (fun _ => (Except.ok (wrap value, rest) : Parsed)) (wrap value, rest) := fun _ _ => rfl
  have both := parses.bind (fun parsed _ => .ok (wrap parsed.1, parsed.2)) ends
  refine Reaches.of_prefix (both.step fun fuel _ => ?_) (by simp; omega)
  rw [List.cons_append, prefixExpression]
  simp only [unaryOperators, List.mem_cons, List.not_mem_nil, or_false] at member
  rcases member with kind | kind <;> simp [symbol, keyword, peekKind, kind, peek, wrap, -bind_pure_comp] <;> rfl

/-! ### Suffixes -/

theorem climbs_member {minimum : Nat} {dot name : Token} {rest : List Token} {tree : Tree} {part : String}
    (isDot : dot.kind = .symbol .dot) (isName : name.kind = .identifier part) :
    Climbs final minimum tree [dot, name] rest (.member tree part) := by
  rintro left rfl
  refine ⟨.member left part ⟨left.span.start, name.span.stop⟩, rfl, fun enough result parses => ?_⟩
  refine (parses.step fun fuel _ => ?_).mono (by simp)
  have found : member final left (dot :: name :: rest) = .ok (.member left part ⟨left.span.start, name.span.stop⟩, rest) := by
    simp [member, identifierToken, isIdentifier, peekKind, peek, isName, text]
  rw [List.cons_append, List.cons_append, List.nil_append, climb]
  simp [symbol, peekKind, isDot, found]
  rfl

theorem climbs_cast {minimum : Nat} {word type : Token} {rest : List Token} {tree : Tree} {name : String}
    (isAs : word.kind = .keyword "AS") (isType : type.kind = .keyword name) (known : name ∈ castTypes) :
    Climbs final minimum tree [word, type] rest (.cast tree name) := by
  rintro left rfl
  refine ⟨.cast left { name } ⟨left.span.start, type.span.stop⟩, rfl, fun enough result parses => ?_⟩
  refine (parses.step fun fuel _ => ?_).mono (by simp)
  have known : keywordIn (numericTypes ++ ["BOOLEAN", "STRING"]) (type :: rest) = true := by
    simp only [keywordIn, peekKind, isType, List.contains_iff_mem]
    exact known
  have found : cast final left (word :: type :: rest) = .ok (.cast left { name } ⟨left.span.start, type.span.stop⟩, rest) := by
    simp [cast, known, peek, isType, text]
  rw [List.cons_append, List.cons_append, List.nil_append, climb]
  simp [symbol, keyword, peekKind, isAs, found]
  rfl

theorem climbs_index {minimum : Nat} {first last : Token} {tokens rest : List Token} {tree inner : Tree}
    (opens : first.kind = .symbol .leftBracket) (closes : last.kind = .symbol .rightBracket)
    (index : Reaches final 0 tokens (last :: rest) inner) :
    Climbs final minimum tree (first :: (tokens ++ [last])) rest (.index tree inner) := by
  rintro left rfl
  obtain ⟨value, rfl, parses⟩ := index.parses (stops_close (.inr (.inl closes)))
  refine ⟨.index left value ⟨left.span.start, last.span.stop⟩, rfl, fun enough result climbs => ?_⟩
  have close : Parses enough (fun fuel => expectSymbol final .rightBracket (last :: rest) >>= fun closed =>
      climb final fuel minimum (.index left value ⟨left.span.start, closed.1.stop⟩) closed.2) result := by
    intro fuel le
    simp only [expectSymbol_cons closes]
    exact climbs fuel le
  have both := parses.bind (fun parsed fuel => expectSymbol final .rightBracket parsed.2 >>= fun closed =>
    climb final fuel minimum (.index left parsed.1 ⟨left.span.start, closed.1.stop⟩) closed.2) close
  refine (both.step fun fuel _ => ?_).mono (by simp; omega)
  rw [List.cons_append, List.append_assoc, List.singleton_append, climb]
  simp [symbol, peekKind, opens]

def Tree.isTarget : Tree → Bool
  | name _ | member _ _ | index _ _ => true
  | _ => false

theorem increment_ok {target : Expression} {operator : Token} {amount : Int} (isPrefix : Bool)
    (known : delta operator.kind = some amount) (isTarget : target.tree.isTarget = true) :
    ∃ span, increment target operator isPrefix = .ok (.increment target amount isPrefix span) := by
  have adds : (if operator.kind = .symbol .increment then (1 : Int) else -1) = amount := by
    unfold delta at known
    split at known
    · next kind => simpa [kind] using known
    · next kind => simpa [kind] using known
    · cases known
  have target' : target.isTarget = true ∧ target.isIncrement = false := by
    cases target <;> simp_all [Expression.tree, Tree.isTarget, Expression.isTarget, Expression.isIncrement]
  refine ⟨if isPrefix then ⟨operator.span.start, target.span.stop⟩ else ⟨target.span.start, operator.span.stop⟩, ?_⟩
  simp [increment, target', adds]

theorem delta_symbol {operator : Token} {amount : Int} {rest : List Token} (known : delta operator.kind = some amount) :
    (symbol .increment (operator :: rest) || symbol .decrement (operator :: rest)) = true := by
  unfold delta at known
  split at known
  · next kind => simp [symbol, peekKind, kind]
  · next kind => simp [symbol, peekKind, kind]
  · cases known

theorem climbs_increment {minimum : Nat} {operator : Token} {rest : List Token} {tree : Tree} {amount : Int}
    (known : delta operator.kind = some amount) (isTarget : tree.isTarget = true) :
    Climbs final minimum tree [operator] rest (.increment tree amount false) := by
  rintro left rfl
  obtain ⟨span, ok⟩ := increment_ok false known isTarget
  refine ⟨.increment left amount false span, rfl, fun enough result parses => ?_⟩
  refine (parses.step fun fuel _ => ?_).mono (by simp)
  rw [List.cons_append, List.nil_append, climb, if_pos (delta_symbol known)]
  simp only [peek, List.headD_cons, ok]
  rfl

theorem reaches_increment {minimum : Nat} {operator : Token} {tokens rest : List Token} {tree : Tree} {amount : Int}
    (known : delta operator.kind = some amount) (isTarget : tree.isTarget = true)
    (target : Reaches final 255 tokens rest tree) (stops : Stops 255 rest) :
    Reaches final minimum (operator :: tokens) rest (.increment tree amount true) := by
  obtain ⟨value, rfl, parses⟩ := target.parses stops
  obtain ⟨span, ok⟩ := increment_ok true known isTarget
  have ends : Parses 0 (fun _ => do
      let value ← increment value operator true
      return (value, rest)) (.increment value amount true span, rest) := by
    intro fuel _
    simp only [ok]
    rfl
  have both := parses.bind (fun parsed _ => do
    let value ← increment parsed.1 operator true
    return (value, parsed.2)) ends
  refine Reaches.of_prefix (both.step fun fuel _ => ?_) (by simp; omega)
  rw [List.cons_append, prefixExpression]
  exact if_pos (delta_symbol known)

/-! ### Arguments -/

/-- What `expressions` does behind a value. -/
def more (final : Token) (parsed : Expression × List Token) (fuel : Nat) : Except Failure (List Expression × List Token) :=
  if symbol .comma parsed.2 then do
    let (values, rest) ← expressions final fuel parsed.2.tail
    return (parsed.1 :: values, rest)
  else return ([parsed.1], parsed.2)

theorem expressions_succ (fuel : Nat) (rest : List Token) :
    expressions final (fuel + 1) rest = expression final fuel 0 rest >>= fun parsed => more final parsed fuel := by
  rw [expressions]
  rfl

theorem expressions_parse {arguments : List (List TokenKind × Tree)}
    (each : ∀ argument ∈ arguments, ∀ tokens rest : List Token, tokens.map Token.kind = argument.1 → Stops 0 rest →
      Reaches final 0 tokens rest argument.2)
    {tokens rest : List Token} {last : Token} (spelled : tokens.map Token.kind = separated (arguments.map (·.1)))
    (some : arguments ≠ []) (closes : last.kind = .symbol .rightParen) :
    ∃ values, trees values = arguments.map (·.2) ∧
      Parses (8 * tokens.length + 2) (fun fuel => expressions final fuel (tokens ++ last :: rest)) (values, last :: rest) := by
  induction arguments generalizing tokens with
  | nil => exact absurd rfl some
  | cons argument arguments ih =>
    obtain ⟨here, later⟩ := List.forall_mem_cons.1 each
    cases arguments with
    | nil =>
      have stops := @stops_close 0 last rest (.inl closes)
      obtain ⟨value, same, parses⟩ := (here tokens (last :: rest) spelled stops).parses stops
      refine ⟨[value], by simp [trees, same], ?_⟩
      have ends : Parses 0 (more final (value, last :: rest)) ([value], last :: rest) := by
        intro fuel _
        simp [more, symbol, peekKind, closes]
        rfl
      exact (parses.bind _ ends).step fun fuel _ => expressions_succ fuel _
    | cons next arguments =>
      obtain ⟨tokens₁, tokens', rfl, kinds₁, kinds'⟩ := List.map_eq_append_iff.1 spelled
      obtain ⟨comma, tokens₂, rfl, isComma, kinds₂⟩ := List.map_eq_cons_iff.1 kinds'
      obtain ⟨values, same₂, parses₂⟩ := ih later kinds₂ (by simp)
      have stops := @stops_close 0 comma (tokens₂ ++ last :: rest) (.inr (.inr isComma))
      obtain ⟨value, same, parses⟩ := (here tokens₁ _ kinds₁ stops).parses stops
      refine ⟨value :: values, by simp_all [trees], ?_⟩
      have goesOn : Parses (8 * tokens₂.length + 2) (more final (value, comma :: (tokens₂ ++ last :: rest)))
          (value :: values, last :: rest) := by
        intro fuel le
        simp only [more, symbol, peekKind, isComma, BEq.rfl, if_true, List.tail_cons]
        have call := parses₂ fuel le
        dsimp only at call
        rw [call]
        rfl
      refine ((parses.bind _ goesOn).step fun fuel _ => ?_).mono (by simp; omega)
      rw [expressions_succ, List.append_assoc, List.cons_append]

theorem expression_none {rest : List Token} (kind : peekKind rest = .symbol .rightParen ∨ peekKind rest = .eof)
    (fuel minimum : Nat) : ∃ failure, expression final fuel minimum rest = .error failure := by
  cases fuel with
  | zero => exact ⟨.outOfFuel, rfl⟩
  | succ fuel =>
    rw [expression]
    cases fuel with
    | zero => exact ⟨.outOfFuel, rfl⟩
    | succ fuel =>
      refine ⟨error final "expected expression" rest, ?_⟩
      rw [prefixExpression]
      rcases kind with kind | kind <;> simp [symbol, keyword, kind, isAtom] <;> rfl

theorem expressions_close {rest : List Token} (close : symbol .rightParen rest = true) (fuel : Nat) :
    ∃ failure, expressions final fuel rest = .error failure := by
  cases fuel with
  | zero => exact ⟨.outOfFuel, rfl⟩
  | succ fuel =>
    obtain ⟨failure, error⟩ := @expression_none final rest (.inl (by simpa [symbol] using close)) fuel 0
    refine ⟨failure, ?_⟩
    rw [expressions_succ, error]
    rfl

theorem expressionList_parse {arguments : List (List TokenKind × Tree)}
    (each : ∀ argument ∈ arguments, ∀ tokens rest : List Token, tokens.map Token.kind = argument.1 → Stops 0 rest →
      Reaches final 0 tokens rest argument.2)
    {tokens rest : List Token} {last : Token} (spelled : tokens.map Token.kind = separated (arguments.map (·.1)))
    (closes : last.kind = .symbol .rightParen) :
    ∃ values, trees values = arguments.map (·.2) ∧ Parses (8 * tokens.length + 3)
      (fun fuel => expressionList final fuel .rightParen (tokens ++ last :: rest)) (values, last :: rest) := by
  cases arguments with
  | nil =>
    obtain rfl := List.map_eq_nil_iff.1 spelled
    refine ⟨[], rfl, ?_⟩
    have ends : Parses 0 (fun _ => (Except.ok ([], last :: rest) : Except Failure (List Expression × List Token)))
        ([], last :: rest) := fun _ _ => rfl
    refine (ends.step fun fuel _ => ?_).mono (by omega)
    rw [List.nil_append, expressionList]
    simp [symbol, peekKind, closes]
  | cons argument arguments =>
    obtain ⟨values, same, parses⟩ := expressions_parse each spelled (by simp) closes
    refine ⟨values, same, parses.step fun fuel _ => ?_⟩
    rw [expressionList, if_neg]
    intro close
    obtain ⟨failure, error⟩ := @expressions_close final _ close (8 * tokens.length + 2)
    have call := parses _ le_rfl
    dsimp only at call
    rw [error] at call
    cases call

theorem climbs_call {minimum : Nat} {first last : Token} {tokens rest : List Token} {tree : Tree}
    {arguments : List (List TokenKind × Tree)}
    (each : ∀ argument ∈ arguments, ∀ tokens rest : List Token, tokens.map Token.kind = argument.1 → Stops 0 rest →
      Reaches final 0 tokens rest argument.2)
    (spelled : tokens.map Token.kind = separated (arguments.map (·.1))) (opens : first.kind = .symbol .leftParen)
    (closes : last.kind = .symbol .rightParen) :
    Climbs final minimum tree (first :: (tokens ++ [last])) rest (.call tree (arguments.map (·.2))) := by
  rintro left rfl
  obtain ⟨values, same, parses⟩ := @expressionList_parse final arguments each tokens rest last spelled closes
  refine ⟨.call left values ⟨left.span.start, last.span.stop⟩, by rw [Expression.tree, same],
    fun enough result climbs => ?_⟩
  have close : Parses enough (fun fuel => expectSymbol final .rightParen (last :: rest) >>= fun closed =>
      climb final fuel minimum (.call left values ⟨left.span.start, closed.1.stop⟩) closed.2) result := by
    intro fuel le
    simp only [expectSymbol_cons closes]
    exact climbs fuel le
  have both := parses.bind (fun parsed fuel => expectSymbol final .rightParen parsed.2 >>= fun closed =>
    climb final fuel minimum (.call left parsed.1 ⟨left.span.start, closed.1.stop⟩) closed.2) close
  refine (both.step fun fuel _ => ?_).mono (by simp; omega)
  rw [List.cons_append, List.append_assoc, List.singleton_append, climb]
  simp [symbol, peekKind, opens]

/-! ### Operators -/

theorem climbs_binary {minimum precedence : Nat} {operator : Token} {tokens rest : List Token} {left right : Tree}
    {rightAssociative : Bool} (found : binary [operator] = some (precedence, rightAssociative))
    (noTest : text operator.kind ≠ "IS") (noSuffix : isSuffix operator.kind = false) (high : minimum ≤ precedence)
    (operand : Reaches final (precedence + if rightAssociative then 0 else 1) tokens rest right)
    (stops : Stops (precedence + if rightAssociative then 0 else 1) rest) :
    Climbs final minimum left (operator :: tokens) rest (.binary (text operator.kind) left right) := by
  rintro left rfl
  obtain ⟨value, rfl, parses⟩ := operand.parses stops
  refine ⟨.binary (text operator.kind) left value ⟨left.span.start, value.span.stop⟩, rfl, fun enough result climbs => ?_⟩
  have both := parses.bind (fun parsed fuel =>
    climb final fuel minimum (.binary (text operator.kind) left parsed.1 ⟨left.span.start, parsed.1.span.stop⟩) parsed.2)
    climbs
  refine (both.step fun fuel _ => ?_).mono (by simp; omega)
  simp only [isSuffix, Bool.or_eq_false_iff] at noSuffix
  have found' : binary (operator :: (tokens ++ rest)) = some (precedence, rightAssociative) := found
  rw [List.cons_append, climb]
  simp only [symbol, keyword, peekKind, noSuffix, Bool.or_self, Bool.false_eq_true, if_false, found', noTest, false_and,
    List.tail_cons]
  rw [if_neg (by omega)]

/-! ### Derivations -/

namespace Level

/-- The precedence of the operators. -/
def precedence : Level → Nat
  | or => 1
  | xor => 2
  | and => 3
  | equality => 4
  | comparison => 5
  | shift => 6
  | additive => 7
  | multiplicative => 8

theorem binary_operator {level : Level} {operator : Token} (member : operator.kind ∈ level.operators) :
    binary [operator] = some (level.precedence, false) ∧ text operator.kind ≠ "IS" ∧ isSuffix operator.kind = false := by
  have all : ∀ kind ∈ level.operators, operator.kind = kind →
      binary [operator] = some (level.precedence, false) ∧ text operator.kind ≠ "IS" ∧ isSuffix operator.kind = false := by
    cases level <;> simp +contextual [operators, binary, peekKind, precedence, text, symbolName, isSuffix]
  exact all _ member rfl

end Level

namespace Nonterminal

/-- The tokens of the nonterminal are passed from this precedence down. -/
def limit : Nonterminal → Nat
  | .level operators => operators.precedence
  | unaryExpression | powerExpression => powerPrecedence
  | _ => 255

/-- What may stand behind. -/
def Ready : Nonterminal → List Token → Prop
  | .level operators, rest => Stops (operators.precedence + 1) rest
  | unaryExpression, rest | powerExpression, rest => Stops powerPrecedence rest
  | postfixExpression, rest | incrementExpression, rest => Stops 255 rest
  | suffixed, _ | assignmentTarget, _ | primary, _ => True

theorem operand_ready {level : Level} {rest : List Token} (stops : Stops (level.precedence + 1) rest) :
    level.precedence + 1 ≤ level.operand.limit ∧ level.operand.Ready rest := by
  cases level <;> exact ⟨by decide, stops.mono (Nat.le_add_right _ 1)⟩

end Nonterminal

theorem target_isTarget {kinds : List TokenKind} {tree : Tree} (target : Derives .assignmentTarget kinds tree) :
    tree.isTarget = true := by
  cases target <;> rfl

theorem stops_operator {precedence : Nat} {operator : Token} {rest : List Token} {rightAssociative : Bool}
    (found : binary [operator] = some (precedence, rightAssociative)) (noSuffix : isSuffix operator.kind = false) :
    Stops (precedence + 1) (operator :: rest) := by
  refine ⟨noSuffix, fun precedence' right found' => ?_⟩
  have same : some (precedence, rightAssociative) = some (precedence', right) := found.symm.trans found'
  cases same
  omega

theorem literal_atom {token : Token} {value : Literal} (known : literal token.kind = some value) :
    isAtom [token] = true ∧ (expressionAtom token).tree = .literal value := by
  unfold literal at known
  split at known <;> cases known <;> next kind => simp [isAtom, peekKind, expressionAtom, kind, Expression.tree]

theorem derives_reaches {nonterminal : Nonterminal} {kinds : List TokenKind} {tree : Tree}
    (derives : Derives nonterminal kinds tree) :
    ∀ (minimum : Nat) (tokens rest : List Token), tokens.map Token.kind = kinds → minimum ≤ nonterminal.limit →
      nonterminal.Ready rest → Reaches final minimum tokens rest tree := by
  induction derives with
  | operand _ ih =>
    intro minimum tokens rest spelled low ready
    obtain ⟨limit, ready⟩ := Nonterminal.operand_ready ready
    exact ih minimum tokens rest spelled (low.trans (Nat.le_of_succ_le limit)) ready
  | binary member _ _ before after =>
    intro minimum tokens rest spelled low ready
    obtain ⟨tokens₁, tokens', rfl, kinds₁, kinds'⟩ := List.map_eq_append_iff.1 spelled
    obtain ⟨operator, tokens₂, rfl, rfl, kinds₂⟩ := List.map_eq_cons_iff.1 kinds'
    obtain ⟨found, noTest, noSuffix⟩ := Level.binary_operator member
    obtain ⟨limit, ready'⟩ := Nonterminal.operand_ready ready
    refine (before minimum tokens₁ _ kinds₁ low ?_).climbs
      (climbs_binary found noTest noSuffix low (after _ tokens₂ rest kinds₂ limit ready') ready)
    exact stops_operator found noSuffix
  | unary member _ ih =>
    intro minimum tokens rest spelled low ready
    obtain ⟨operator, tokens, rfl, rfl, kinds⟩ := List.map_eq_cons_iff.1 spelled
    exact reaches_unary member (ih _ tokens rest kinds le_rfl ready) ready
  | unaryPower _ ih => exact ih
  | powerBase _ ih =>
    intro minimum tokens rest spelled low ready
    exact ih minimum tokens rest spelled (low.trans (by decide)) (ready.mono (by decide))
  | power _ _ base exponent =>
    intro minimum tokens rest spelled low ready
    obtain ⟨tokens₁, tokens', rfl, kinds₁, kinds'⟩ := List.map_eq_append_iff.1 spelled
    obtain ⟨operator, tokens₂, rfl, kind, kinds₂⟩ := List.map_eq_cons_iff.1 kinds'
    have found : binary [operator] = some (powerPrecedence, true) := by simp [binary, peekKind, kind]
    have noSuffix : isSuffix operator.kind = false := by simp [isSuffix, kind]
    rw [← kind]
    refine (base minimum tokens₁ _ kinds₁ (low.trans (by decide)) ?_).climbs
      (climbs_binary found (by simp [kind, text, symbolName]) noSuffix low
        (exponent _ tokens₂ rest kinds₂ le_rfl ready) ready)
    exact (stops_operator found noSuffix).mono (by decide)
  | postfixPrimary _ ih =>
    intro minimum tokens rest spelled low _
    exact ih minimum tokens rest spelled low trivial
  | postfixIncrement _ ih => exact ih
  | suffixedPrimary _ ih => exact ih
  | call _ _ callee each =>
    intro minimum tokens rest spelled low ready
    obtain ⟨tokens₁, tokens', rfl, kinds₁, kinds'⟩ := List.map_eq_append_iff.1 spelled
    obtain ⟨first, tokens', rfl, opens, kinds'⟩ := List.map_eq_cons_iff.1 kinds'
    obtain ⟨tokens₂, tokens', rfl, kinds₂, kinds'⟩ := List.map_eq_append_iff.1 kinds'
    obtain ⟨last, rfl, closes⟩ := List.map_eq_singleton_iff.1 kinds'
    exact (callee minimum tokens₁ _ kinds₁ low trivial).climbs (climbs_call
      (fun argument member tokens rest spelled stops =>
        each argument member 0 tokens rest spelled (Nat.zero_le _) (stops.mono (Nat.zero_le _))) kinds₂ opens closes)
  | member _ ih | targetMember _ ih =>
    intro minimum tokens rest spelled low _
    obtain ⟨tokens₁, tokens', rfl, kinds₁, kinds'⟩ := List.map_eq_append_iff.1 spelled
    obtain ⟨dot, tokens', rfl, isDot, kinds'⟩ := List.map_eq_cons_iff.1 kinds'
    obtain ⟨name, rfl, isName⟩ := List.map_eq_singleton_iff.1 kinds'
    exact (ih minimum tokens₁ _ kinds₁ low trivial).climbs (climbs_member isDot isName)
  | index _ _ ih inner | targetIndex _ _ ih inner =>
    intro minimum tokens rest spelled low _
    obtain ⟨tokens₁, tokens', rfl, kinds₁, kinds'⟩ := List.map_eq_append_iff.1 spelled
    obtain ⟨first, tokens', rfl, opens, kinds'⟩ := List.map_eq_cons_iff.1 kinds'
    obtain ⟨tokens₂, tokens', rfl, kinds₂, kinds'⟩ := List.map_eq_append_iff.1 kinds'
    obtain ⟨last, rfl, closes⟩ := List.map_eq_singleton_iff.1 kinds'
    exact (ih minimum tokens₁ _ kinds₁ low trivial).climbs (climbs_index opens closes
      (inner 0 tokens₂ _ kinds₂ (Nat.zero_le _) (stops_close (.inr (.inl closes)))))
  | cast _ known ih =>
    intro minimum tokens rest spelled low _
    obtain ⟨tokens₁, tokens', rfl, kinds₁, kinds'⟩ := List.map_eq_append_iff.1 spelled
    obtain ⟨word, tokens', rfl, isAs, kinds'⟩ := List.map_eq_cons_iff.1 kinds'
    obtain ⟨type, rfl, isType⟩ := List.map_eq_singleton_iff.1 kinds'
    exact (ih minimum tokens₁ _ kinds₁ low trivial).climbs (climbs_cast isAs isType known)
  | incrementBefore known target ih =>
    intro minimum tokens rest spelled low ready
    obtain ⟨operator, tokens, rfl, rfl, kinds⟩ := List.map_eq_cons_iff.1 spelled
    exact reaches_increment known (target_isTarget target) (ih 255 tokens rest kinds le_rfl trivial) ready
  | incrementAfter known target ih =>
    intro minimum tokens rest spelled low _
    obtain ⟨tokens₁, tokens', rfl, kinds₁, kinds'⟩ := List.map_eq_append_iff.1 spelled
    obtain ⟨operator, rfl, rfl⟩ := List.map_eq_singleton_iff.1 kinds'
    exact (ih minimum tokens₁ _ kinds₁ low trivial).climbs (climbs_increment known (target_isTarget target))
  | targetName | name =>
    intro minimum tokens rest spelled _ _
    obtain ⟨token, rfl, kind⟩ := List.map_eq_singleton_iff.1 spelled
    have reaches := @reaches_atom final minimum token rest (by simp [isAtom, peekKind, kind])
    simpa [expressionAtom, kind, Expression.tree] using reaches
  | targetSelf =>
    intro minimum tokens rest spelled _ _
    obtain ⟨word, tokens', rfl, kind, kinds'⟩ := List.map_eq_cons_iff.1 spelled
    obtain ⟨dot, tokens', rfl, isDot, kinds'⟩ := List.map_eq_cons_iff.1 kinds'
    obtain ⟨name, rfl, isName⟩ := List.map_eq_singleton_iff.1 kinds'
    have reaches := @reaches_atom final minimum word ([dot, name] ++ rest) (by simp [isAtom, peekKind, kind])
    simp only [expressionAtom, kind] at reaches
    exact reaches.climbs (climbs_member isDot isName)
  | literal known =>
    intro minimum tokens rest spelled _ _
    obtain ⟨token, rfl, rfl⟩ := List.map_eq_singleton_iff.1 spelled
    obtain ⟨atom, same⟩ := literal_atom known
    rw [← same]
    exact reaches_atom atom
  | self | superClass =>
    intro minimum tokens rest spelled _ _
    obtain ⟨token, rfl, kind⟩ := List.map_eq_singleton_iff.1 spelled
    have reaches := @reaches_atom final minimum token rest (by simp [isAtom, peekKind, kind])
    simpa [expressionAtom, kind, Expression.tree] using reaches
  | parentheses _ ih =>
    intro minimum tokens rest spelled _ _
    obtain ⟨first, tokens', rfl, opens, kinds'⟩ := List.map_eq_cons_iff.1 spelled
    obtain ⟨tokens₁, tokens', rfl, kinds₁, kinds'⟩ := List.map_eq_append_iff.1 kinds'
    obtain ⟨last, rfl, closes⟩ := List.map_eq_singleton_iff.1 kinds'
    exact reaches_parentheses opens closes (ih 0 tokens₁ _ kinds₁ (Nat.zero_le _) (stops_close (.inl closes)))

theorem stops_end {minimum : Nat} {rest : List Token} (ended : peekKind rest = .newline ∨ peekKind rest = .eof) :
    Stops minimum rest := by
  rcases ended with kind | kind <;> simp [Stops, isSuffix, binary, kind]

theorem Derives.ne_nil {tokens : List Token} {tree : Tree} (derives : Derives .expression (tokens.map Token.kind) tree) :
    tokens ≠ [] := by
  rintro rfl
  have final : Token := ⟨.eof, ⟨⟨0, 1, 1⟩, ⟨0, 1, 1⟩⟩⟩
  have reaches := @derives_reaches final _ _ _ derives 0 [] [] rfl (Nat.zero_le _) (stops_end (.inr rfl))
  obtain ⟨value, -, parses⟩ := reaches.parses (stops_end (.inr rfl))
  obtain ⟨failure, error⟩ := @expression_none final [] (.inr rfl) (8 * ([] : List Token).length + 1) 0
  have call := parses _ le_rfl
  dsimp only at call
  rw [List.append_nil, error] at call
  cases call

theorem parseExpression_ok {tokens rest : List Token} {tree : Tree}
    (derives : Derives .expression (tokens.map Token.kind) tree)
    (ended : peekKind rest = .newline ∨ peekKind rest = .eof) :
    ∃ value, parseExpression (tokens ++ rest) = .ok value ∧ value.tree = tree := by
  have nonempty : tokens ++ rest ≠ [] := by
    intro empty
    exact derives.ne_nil (List.append_eq_nil_iff.1 empty).1
  obtain ⟨final, last⟩ : ∃ final, (tokens ++ rest).getLast? = some final := ⟨_, List.getLast?_eq_some_getLast nonempty⟩
  have reaches := @derives_reaches final _ _ _ derives 0 tokens rest rfl (Nat.zero_le _) (stops_end ended)
  obtain ⟨value, same, parses⟩ := reaches.parses (stops_end ended)
  refine ⟨value, ?_, same⟩
  have call := parses (enoughFuel (tokens ++ rest)) (by
    unfold enoughFuel
    rw [List.length_append]
    omega)
  dsimp only at call
  rw [parseExpression, last]
  dsimp only
  rw [call]
  exact if_pos (.inr ended)

theorem Derives.unique {kinds : List TokenKind} {tree tree' : Tree} (derives : Derives .expression kinds tree)
    (derives' : Derives .expression kinds tree') : tree = tree' := by
  let place : Position := ⟨0, 1, 1⟩
  obtain ⟨tokens, rfl⟩ : ∃ tokens : List Token, tokens.map Token.kind = kinds :=
    ⟨kinds.map fun kind => ⟨kind, ⟨place, place⟩⟩, by rw [List.map_map]; exact List.map_id _⟩
  obtain ⟨value, parsed, rfl⟩ := @parseExpression_ok tokens [] tree derives (.inr rfl)
  obtain ⟨value', parsed', rfl⟩ := @parseExpression_ok tokens [] tree' derives' (.inr rfl)
  rw [parsed] at parsed'
  cases parsed'
  rfl

/-- The parser succeeds on every derivation, up to the end of the line, and builds its tree, which is the only one. -/
theorem parseExpression_tree {tokens rest : List Token} {tree : Tree}
    (derives : Derives .expression (tokens.map Token.kind) tree)
    (ended : peekKind rest = .newline ∨ peekKind rest = .eof) :
    (∃ value, parseExpression (tokens ++ rest) = .ok value ∧ value.tree = tree) ∧
      ∀ tree', Derives .expression (tokens.map Token.kind) tree' → tree' = tree :=
  ⟨parseExpression_ok derives ended, fun _ derives' => derives'.unique derives⟩

/-- `-x ** 2` -/
def minusPower : List Token :=
  let token (kind : TokenKind) (start stop : Nat) : Token := ⟨kind, ⟨⟨start, 1, start + 1⟩, ⟨stop, 1, stop + 1⟩⟩⟩
  [token (.symbol .minus) 0 1, token (.identifier "x") 1 2, token (.symbol .power) 3 5, token (.integer "2") 6 7]

theorem parseExpression_tree_minusPower : (∃ value, parseExpression (minusPower ++ []) = .ok value ∧
        value.tree = .unary "Minus" (.binary "Power" (.name "x") (.literal (.integer "2")))) ∧
      ∀ tree', Derives .expression (minusPower.map Token.kind) tree' →
        tree' = .unary "Minus" (.binary "Power" (.name "x") (.literal (.integer "2"))) := by
  refine parseExpression_tree ?_ (.inr rfl)
  have two : Derives .unaryExpression [.integer "2"] (.literal (.integer "2")) :=
    .unaryPower (.powerBase (.postfixPrimary (.suffixedPrimary (.literal rfl))))
  have power : Derives .powerExpression ([.identifier "x"] ++ [.symbol .power, .integer "2"])
      (.binary "Power" (.name "x") (.literal (.integer "2"))) :=
    .power (.postfixPrimary (.suffixedPrimary .name)) two
  have minus : Derives .unaryExpression (minusPower.map Token.kind)
      (.unary "Minus" (.binary "Power" (.name "x") (.literal (.integer "2")))) :=
    .unary (by decide) (.unaryPower power)
  exact .operand (.operand (.operand (.operand (.operand (.operand (.operand (.operand minus)))))))

end BasicNext.Frontend.Parser
