import BasicNext.Lib.Except
import Mathlib.Algebra.Group.Nat.Defs

/-!
# The lexer

`bn_frontend::lexer`: characters to tokens, with the byte offset, line and column of each. Where the
source indexes its text by the offset, the lexer here holds the characters that are left; a loop over them
is a recursion on these. The tables of reserved words and of special float literals, which the build
generates, are parameters, and the identity and revision of the source file, which every position
repeats, are left out.
-/

namespace BasicNext.Frontend

open Lib

structure Position where
  offset : Nat
  line : Nat
  column : Nat
deriving DecidableEq, Repr

structure Span where
  start : Position
  stop : Position
deriving DecidableEq, Repr

inductive Symbol where
  | assign | notEqual | less | lessEqual | greater | greaterEqual
  | plus | minus | star | power | slash | percent
  | plusAssign | minusAssign | increment | decrement
  | starAssign | powerAssign | slashAssign | percentAssign
  | leftParen | rightParen | leftBracket | rightBracket
  | comma | colon | dot
deriving DecidableEq, Repr

inductive TokenKind where
  | identifier (text : String)
  | integer (text : String)
  | float (text : String)
  | string (value : String)
  | keyword (text : String)
  | special (literal : String)
  | symbol (symbol : Symbol)
  | newline
  | eof
deriving DecidableEq, Repr

structure Token where
  kind : TokenKind
  span : Span
deriving DecidableEq, Repr

inductive Diagnostic where
  | lexical (message : String) (span : Span)
  | facts (found expected : String) (span : Span)
  /-- The loop of the lexer was given too few steps. -/
  | outOfFuel
deriving DecidableEq, Repr

/-- The generated tables. -/
structure Words where
  reserved : List String
  special : List String

structure Lexer where
  rest : List Char
  offset : Nat
  line : Nat
  column : Nat
  tokens : List Token
deriving DecidableEq, Repr

namespace Lexer

def new (text : List Char) : Lexer := ⟨text, 0, 1, 1, []⟩

/-! ### Moving -/

def position (lexer : Lexer) : Position := ⟨lexer.offset, lexer.line, lexer.column⟩

def span (lexer : Lexer) (start : Position) : Span := ⟨start, lexer.position⟩

def error (lexer : Lexer) (message : String) : Diagnostic :=
  .facts message "valid BN character sequence" (lexer.span lexer.position)

def advance (lexer : Lexer) : Lexer :=
  match lexer.rest with
  | [] => lexer
  | value :: rest =>
    { lexer with rest := rest, offset := lexer.offset + value.utf8Size, column := lexer.column + 1 }

def advances : Nat → Lexer → Lexer
  | 0, lexer => lexer
  | n + 1, lexer => advances n lexer.advance

def push (lexer : Lexer) (kind : TokenKind) (start : Position) : Lexer :=
  { lexer with tokens := lexer.tokens ++ [⟨kind, lexer.span start⟩] }

/-- Breaks the line after a token for the break. -/
def newline (lexer : Lexer) : Lexer :=
  let lexer := lexer.advance.push .newline lexer.position
  { lexer with line := lexer.line + 1, column := 1 }

/-- Advances while the next character satisfies a test; the list is what is left. -/
def advanceWhile (test : Char → Bool) : List Char → Lexer → Lexer
  | [], lexer => lexer
  | value :: rest, lexer => if test value then advanceWhile test rest lexer.advance else lexer

/-! ### Comments -/

def lineComment (lexer : Lexer) : Lexer := advanceWhile (fun value => value != '\n' && value != '\r') lexer.rest lexer

def bareReturn : String := "bare carriage return; use LF or CRLF"

def blockCommentLoop (start : Position) : List Char → Lexer → Except Diagnostic Lexer
  | '*' :: '/' :: _, lexer => .ok lexer.advance.advance
  | [], lexer => .error (.lexical "unterminated block comment" (lexer.span start))
  | '/' :: '*' :: _, lexer => .error (lexer.error "nested block comments are not allowed")
  | '\n' :: rest, lexer => blockCommentLoop start rest lexer.newline
  | '\r' :: '\n' :: rest, lexer => blockCommentLoop start rest lexer.advance.newline
  | '\r' :: _, lexer => .error (lexer.error bareReturn)
  | _ :: rest, lexer => blockCommentLoop start rest lexer.advance

def blockComment (lexer : Lexer) : Except Diagnostic Lexer :=
  blockCommentLoop lexer.position lexer.advance.advance.rest lexer.advance.advance

/-! ### Literals, words and symbols -/

/-- `char::is_control`: the category Cc. -/
def isControl (value : Char) : Bool := value.toNat < 0x20 || (0x7f ≤ value.toNat && value.toNat ≤ 0x9f)

def escapeUnsupported : String := "unsupported string escape; use \\\" or \\\\"

def stringLoop (start : Position) : List Char → String → Lexer → Except Diagnostic Lexer
  | [], _, lexer => .error (.lexical "unterminated string literal" (lexer.span start))
  | '"' :: _, value, lexer => .ok (lexer.advance.push (.string value) start)
  | '\\' :: '"' :: rest, value, lexer => stringLoop start rest (value.push '"') lexer.advance.advance
  | '\\' :: '\\' :: rest, value, lexer => stringLoop start rest (value.push '\\') lexer.advance.advance
  | '\\' :: _, _, lexer => .error (lexer.advance.advance.error escapeUnsupported)
  | character :: rest, value, lexer =>
    if character = '\n' ∨ character = '\r' then
      .error (.lexical "string literals cannot contain a line break" (lexer.span start))
    else if isControl character then
      .error (.lexical "string literals cannot contain control characters" (lexer.span start))
    else stringLoop start rest (value.push character) lexer.advance

def string (lexer : Lexer) : Except Diagnostic Lexer := stringLoop lexer.position lexer.advance.rest "" lexer.advance

def isDecimal (text : List Char) : Bool :=
  text.all (fun value => value == '.' || value.isDigit) && decide (0 < text.countP Char.isDigit)
    && decide (text.count '.' ≤ 1)

def isHexDigit (value : Char) : Bool := value.isDigit || ('a' ≤ value && value ≤ 'f') || ('A' ≤ value && value ≤ 'F')

def validNumber (text : List Char) : Bool :=
  (match text with
    | '0' :: 'b' :: digits => !digits.isEmpty && digits.all fun digit => digit == '0' || digit == '1'
    | _ => false) ||
  (match text with
    | '0' :: 'x' :: digits => !digits.isEmpty && digits.all isHexDigit
    | _ => false) ||
  (isDecimal text && text.getLast? != some '.')

def isNumberPart (value : Char) : Bool := value.isAlphanum || value == '_' || value == '.'

def numberKind (text : List Char) : TokenKind :=
  if text.contains '.' then .float (String.ofList text) else .integer (String.ofList text)

def number (lexer : Lexer) : Except Diagnostic Lexer :=
  let start := lexer.position
  let after := advanceWhile isNumberPart lexer.rest lexer
  let text := lexer.rest.takeWhile isNumberPart
  if !validNumber text then
    .error (.lexical ("malformed numeric literal '" ++ String.ofList text ++ "'") (after.span start))
  else .ok (after.push (numberKind text) start)

def isIdentifierStart (value : Char) : Bool := value.isAlpha || value == '_'

def isIdentifierContinue (value : Char) : Bool := isIdentifierStart value || value.isDigit

variable (words : Words)

def wordKind (text : List Char) : TokenKind :=
  let word := String.ofList text
  if words.special.contains word then .special word
  else if words.reserved.contains word then .keyword word
  else .identifier word

def identifier (lexer : Lexer) : Lexer :=
  let start := lexer.position
  let after := advanceWhile isIdentifierContinue lexer.rest lexer
  after.push (wordKind words (lexer.rest.takeWhile isIdentifierContinue)) start

/-- The spellings of the symbols, in the order they are tried. -/
def symbols : List (List Char × Symbol) :=
  [(['*', '*', '='], .powerAssign), (['*', '*'], .power), (['+', '='], .plusAssign),
    (['-', '='], .minusAssign), (['+', '+'], .increment), (['-', '-'], .decrement),
    (['*', '='], .starAssign), (['/', '='], .slashAssign), (['%', '='], .percentAssign),
    (['<', '='], .lessEqual), (['>', '='], .greaterEqual), (['<', '>'], .notEqual),
    (['='], .assign), (['+'], .plus), (['-'], .minus), (['*'], .star), (['/'], .slash),
    (['%'], .percent), (['<'], .less), (['>'], .greater), (['('], .leftParen), ([')'], .rightParen),
    (['['], .leftBracket), ([']'], .rightBracket), ([','], .comma), ([':'], .colon), (['.'], .dot)]

def symbol (lexer : Lexer) : Except Diagnostic Lexer :=
  let start := lexer.position
  match symbols.find? fun entry => entry.1.isPrefixOf lexer.rest with
  | some (spelling, symbol) => .ok ((advances spelling.length lexer).push (.symbol symbol) start)
  | none =>
    let after := lexer.advance
    match lexer.rest with
    | '^' :: _ => .error (.facts "^" "** for exponentiation" (after.span start))
    | value :: _ => .error (.facts (String.singleton value) "a Basic Next token" (after.span start))
    | [] => .ok lexer

/-! ### The main loop -/

def turn (lexer : Lexer) : Except Diagnostic Lexer :=
  match lexer.rest with
  | [] => .ok lexer
  | ' ' :: _ => .ok lexer.advance
  | '\t' :: _ => .ok lexer.advance
  | '\n' :: _ => .ok lexer.newline
  | '\r' :: '\n' :: _ => .ok lexer.advance.newline
  | '\r' :: _ => .error (lexer.error bareReturn)
  | '/' :: '/' :: _ => .ok lexer.lineComment
  | '/' :: '*' :: _ => lexer.blockComment
  | '"' :: _ => lexer.string
  | '.' :: next :: _ =>
    if next.isDigit then .error (lexer.error "a number cannot start with '.'") else lexer.symbol
  | character :: _ =>
    if character.isDigit then lexer.number
    else if isIdentifierStart character then .ok (lexer.identifier words)
    else lexer.symbol

/-- The end of the stream: a line break, unless one is last, and the end-of-file token. -/
def finish (lexer : Lexer) : List Token :=
  let lexer :=
    match lexer.tokens.getLast? with
    | none => lexer
    | some token => if token.kind = TokenKind.newline then lexer else lexer.push .newline lexer.position
  (lexer.push .eof lexer.position).tokens

def runLoop : Nat → Lexer → Except Diagnostic (List Token)
  | fuel, lexer =>
    if lexer.rest = [] then .ok lexer.finish
    else
      match fuel with
      | 0 => .error .outOfFuel
      | fuel + 1 => do
        let lexer ← lexer.turn words
        runLoop fuel lexer

end Lexer

/-- Lexes a source text; every turn reads a character. -/
def lex (words : Words) (text : String) : Except Diagnostic (List Token) :=
  Lexer.runLoop words text.toList.length (Lexer.new text.toList)

end BasicNext.Frontend
