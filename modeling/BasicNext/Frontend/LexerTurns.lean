import BasicNext.Frontend.LexerSpans
import Mathlib.Data.List.TakeWhile

/-!
# The turns of the lexer

One lemma for each kind of turn says which word it reads and which chunk that word is. A token is read
from its own text as it is read from the whole one, because the loops that read it look at nothing beyond
it. An induction over the turns then makes the text one chunk.
-/

namespace BasicNext.Frontend

open Lib Lexer

variable {words : Words}

/-- A turn that reads a word of the text. -/
structure Reads (words : Words) (text before word : List Char) (lexer lexer' : Lexer) : Prop where
  reached : At text (before ++ word) lexer'
  chunk : ∃ tokens comments, lexer'.tokens = lexer.tokens ++ tokens ∧ Chunk words text before word tokens comments

/-- A turn that reads a word as one token. -/
structure ReadsToken (text before word : List Char) (kind : TokenKind) (lexer lexer' : Lexer) : Prop where
  reached : At text (before ++ word) lexer'
  token : lexer'.tokens = lexer.tokens ++ [⟨kind, positionOf before, positionOf (before ++ word)⟩]

theorem at_new (text : List Char) : At text [] (Lexer.new text) := ⟨rfl, rfl⟩

theorem finish_eq (lexer : Lexer) : ∃ more, lexer.finish = lexer.tokens ++ more := by
  rw [finish]
  cases lexer.tokens.getLast? with
  | none => exact ⟨_, rfl⟩
  | some token =>
    dsimp only
    split
    · exact ⟨_, rfl⟩
    · exact ⟨_, List.append_assoc _ _ _⟩

variable {word : List Char}

theorem relexed_of_turn {lexer' : Lexer} {token : Token} (some : word ≠ [])
    (ran : (Lexer.new word).turn words = .ok lexer') (all : lexer'.rest = [])
    (tokens : lexer'.tokens = [token]) (start : token.span.start = positionOf [])
    (stop : token.span.stop.offset = bytes word) : Relexed words word token.kind := by
  obtain ⟨length, more⟩ : ∃ length, word.length = length + 1 :=
    Nat.exists_eq_succ_of_ne_zero fun none => some (List.length_eq_zero_iff.1 none)
  obtain ⟨rest, finished⟩ := finish_eq lexer'
  refine ⟨token.span.stop, rest, stop, ?_⟩
  rw [lex, String.toList_ofList, more, runLoop, if_neg (show (Lexer.new word).rest ≠ [] from some), ran]
  show runLoop words length lexer' = _
  have ended : runLoop words length lexer' = .ok lexer'.finish := by
    cases length <;> rw [runLoop, if_pos all]
  rw [ended, finished, tokens, ← start]
  rfl

theorem ReadsToken.relexed {kind : TokenKind} {lexer' : Lexer}
    (reads : ReadsToken word [] word kind (Lexer.new word) lexer') (some : word ≠ [])
    (ran : (Lexer.new word).turn words = .ok lexer') : Relexed words word kind := by
  have all : lexer'.rest = [] := by
    have split := reads.reached.split
    rw [List.nil_append] at split
    exact List.self_eq_append_right.1 split
  exact relexed_of_turn some ran all reads.token rfl rfl

variable {lexer lexer' : Lexer}

theorem ReadsToken.reads {text before word : List Char} {kind : TokenKind}
    (reads : ReadsToken text before word kind lexer lexer') (some : word ≠ []) (notEof : kind ≠ .eof)
    (again : ∃ alone, (Lexer.new word).turn words = .ok alone ∧ ReadsToken word [] word kind (Lexer.new word) alone) :
    ∃ word, word ≠ [] ∧ Reads words text before word lexer lexer' := by
  obtain ⟨alone, ran, readsAlone⟩ := again
  refine ⟨word, some, reads.reached, _, [], reads.token, Chunk.token ?_ notEof rfl rfl⟩
  exact ⟨before, word, lexer'.rest, reads.reached.split, rfl, rfl, fun _ => readsAlone.relexed some ran⟩

/-! ### Blanks and line breaks -/

variable {text before rest : List Char} {lexer : Lexer} {value : Char}

theorem reads_blank (here : At text before lexer) (next : lexer.rest = value :: rest) (blank : value = ' ' ∨ value = '\t') :
    Reads words text before [value] lexer lexer.advance := by
  have plain : value ≠ '\n' := by rcases blank with rfl | rfl <;> decide
  obtain ⟨reached, -, tokens⟩ := here.advance next plain
  exact ⟨reached, [], [], by rw [tokens, List.append_nil], Chunk.blank blank⟩

theorem relexed_newline : Relexed words ['\n'] .newline := by
  obtain ⟨reached, all, stop, ends, tokens⟩ := (at_new ['\n']).newline rfl
  exact relexed_of_turn (List.cons_ne_nil _ _) rfl all tokens rfl ends

theorem placed_newline {stop : Position}
    (split : text = before ++ '\n' :: rest) (ends : stop.offset = bytes (before ++ ['\n'])) :
    Placed words text ⟨.newline, positionOf before, stop⟩ := by
  refine ⟨before, ['\n'], rest, ?_, rfl, ends, fun _ => relexed_newline⟩
  rw [split, List.append_assoc, List.singleton_append]

theorem reads_newline (here : At text before lexer)
    (next : lexer.rest = '\n' :: rest) : Reads words text before ['\n'] lexer lexer.newline := by
  obtain ⟨reached, -, stop, ends, tokens⟩ := here.newline next
  refine ⟨reached, _, [], tokens, Chunk.token ?_ nofun rfl ends⟩
  exact placed_newline (next ▸ here.split) ends

theorem reads_return (here : At text before lexer) (next : lexer.rest = '\r' :: '\n' :: rest) :
    Reads words text before ['\r', '\n'] lexer lexer.advance.newline := by
  obtain ⟨returned, left, same⟩ := here.advance next (by decide)
  obtain ⟨reached, -, stop, ends, tokens⟩ := returned.newline left
  have placed : Placed words text ⟨.newline, positionOf (before ++ ['\r']), stop⟩ :=
    placed_newline (left ▸ returned.split) ends
  rw [List.append_assoc] at reached ends
  refine ⟨reached, _, [], same ▸ tokens, ?_⟩
  have grows : bytes before ≤ bytes (before ++ ['\r']) := by rw [bytes_append]; omega
  have more : bytes (before ++ ['\r']) < bytes (before ++ ['\r', '\n']) := by
    have first : bytes ['\r'] < bytes ['\r', '\n'] := by decide
    rw [bytes_append, bytes_append]
    omega
  exact {
    placed := by
      intro token member
      obtain rfl := List.mem_singleton.1 member
      exact ⟨placed, nofun⟩
    inside := by
      intro token member
      obtain rfl := List.mem_singleton.1 member
      exact ⟨grows, Nat.le_of_eq ends⟩
    ordered := List.pairwise_singleton _ _
    placedComments := fun _ member => nomatch member
    orderedComments := .nil
    apart := fun _ member => nomatch member
    covered := by
      intro left value right split
      match left, split with
      | [], split =>
        cases split
        exact .inr (.inr (.inr (.inr ⟨rfl, rfl⟩)))
      | [_], split =>
        cases split
        exact .inl ⟨_, List.mem_singleton_self _, Nat.le_refl _, ends ▸ more⟩
      | [_, _], split => cases split
      | _ :: _ :: _ :: _, split => cases split }

/-! ### Comments -/

variable {rest : List Char}

theorem infix_pair_cons {first second value : Char}
    (inner : ¬[first, second] <:+: rest) (apart : value = first → rest.head? ≠ some second) :
    ¬[first, second] <:+: value :: rest := by
  rw [List.infix_cons_iff]
  rintro (⟨more, joined⟩ | within)
  · cases joined
    exact apart rfl rfl
  · exact inner within

theorem reads_lineComment (here : At text before lexer) (next : lexer.rest = '/' :: '/' :: rest) :
    ∃ word, word ≠ [] ∧ Reads words text before word lexer lexer.lineComment := by
  let test : Char → Bool := fun value => value != '\n' && value != '\r'
  have plain : ∀ value, test value = true → value ≠ '\n' := by
    rintro value passes rfl
    cases passes
  obtain ⟨reached, after, tokens⟩ := here.advanceWhile plain
  have slashes : lexer.rest.takeWhile test = '/' :: '/' :: rest.takeWhile test := by
    rw [next]
    rfl
  have comment : IsComment (lexer.rest.takeWhile test) := by
    rw [slashes]
    refine .line (fun member => ?_) (fun member => ?_)
    · exact absurd (List.mem_takeWhile_imp member) (by decide)
    · exact absurd (List.mem_takeWhile_imp member) (by decide)
  refine ⟨lexer.rest.takeWhile test, by rw [slashes]; nofun, reached, [],
    [⟨bytes before, bytes (before ++ lexer.rest.takeWhile test)⟩], ?_, ?_⟩
  · rw [List.append_nil]
    exact tokens
  · exact Chunk.comment Laid.nil (fun _ member => nomatch member) reached.split comment

/-- The loop of a block comment reads a body and the end of the comment. -/
structure EndsComment (words : Words) (text before body : List Char) (lexer lexer' : Lexer)
    (tokens : List Token) : Prop where
  reached : At text (before ++ (body ++ ['*', '/'])) lexer'
  added : lexer'.tokens = lexer.tokens ++ tokens
  laid : Laid words text before body tokens
  breaks : ∀ token ∈ tokens, token.kind = .newline
  first : ¬['*', '/'] <:+: body ++ ['*']
  flat : ¬['/', '*'] <:+: body ++ ['*']

theorem EndsComment.cons {text before body : List Char} {lexer middle lexer' : Lexer} {tokens more : List Token}
    (ends : EndsComment words text (before ++ [value]) body middle lexer' more)
    (moved : middle.tokens = lexer.tokens ++ tokens) (laid : Laid words text before [value] tokens)
    (breaks : ∀ token ∈ tokens, token.kind = .newline)
    (star : value = '*' → (body ++ ['*']).head? ≠ some '/')
    (slash : value = '/' → (body ++ ['*']).head? ≠ some '*') :
    EndsComment words text before (value :: body) lexer lexer' (tokens ++ more) where
  reached := by
    have reached := ends.reached
    rwa [List.append_assoc, List.singleton_append, ← List.cons_append] at reached
  added := by rw [ends.added, moved, List.append_assoc]
  laid := laid.append ends.laid
  breaks := List.forall_mem_append.2 ⟨breaks, ends.breaks⟩
  first := infix_pair_cons ends.first star
  flat := infix_pair_cons ends.flat slash

theorem head_of_body {body rest : List Char} (head : (body ++ ['*']).head? = some value) :
    ∃ tail, body ++ ['*', '/'] ++ rest = value :: tail := by
  cases body with
  | nil =>
    cases head
    exact ⟨_, rfl⟩
  | cons first body =>
    cases head
    exact ⟨_, rfl⟩

variable {start : Position}

theorem blockCommentLoop_ok (words : Words) (here : At text before lexer) (next : lexer.rest = rest)
    (ran : blockCommentLoop start rest lexer = .ok lexer') :
    ∃ body tokens, EndsComment words text before body lexer lexer' tokens ∧ rest = body ++ ['*', '/'] ++ lexer'.rest := by
  induction rest, lexer using blockCommentLoop.induct generalizing before with
  | case1 rest lexer =>
    obtain rfl := Except.ok.inj ran
    have word : lexer.rest = ['*', '/'] ++ rest := next
    obtain ⟨reached, left, tokens⟩ := here.advances word (by decide)
    refine ⟨[], [], ⟨reached, ?_, Laid.nil, (fun _ member => nomatch member), ?_, ?_⟩, ?_⟩
    · rw [List.append_nil]
      exact tokens
    · decide
    · decide
    · exact congrArg (['*', '/'] ++ ·) left.symm
  | case2 => cases ran
  | case3 => cases ran
  | case4 rest lexer ih =>
    rw [blockCommentLoop] at ran
    obtain ⟨reached, left, stop, stops, tokens⟩ := here.newline next
    obtain ⟨body, more, ends, split⟩ := ih reached left ran
    refine ⟨'\n' :: body, _, ends.cons tokens ?_ ?_ nofun nofun, by rw [split]; rfl⟩
    · exact Laid.token (placed_newline (next ▸ here.split) stops) nofun rfl stops
    · intro token member
      rw [List.mem_singleton.1 member]
  | case5 rest lexer ih =>
    rw [blockCommentLoop] at ran
    obtain ⟨returned, after, same⟩ := here.advance next (by decide)
    obtain ⟨reached, left, stop, stops, tokens⟩ := returned.newline after
    obtain ⟨body, more, ends, split⟩ := ih reached left ran
    have newline : EndsComment words text (before ++ ['\r']) ('\n' :: body) lexer.advance lexer'
        ([⟨.newline, ⟨positionOf (before ++ ['\r']), stop⟩⟩] ++ more) := by
      refine ends.cons tokens ?_ ?_ nofun nofun
      · exact Laid.token (placed_newline (after ▸ returned.split) stops) nofun rfl stops
      · intro token member
        rw [List.mem_singleton.1 member]
    have kept : lexer.advance.tokens = lexer.tokens ++ [] := by rw [same, List.append_nil]
    refine ⟨'\r' :: '\n' :: body, _, newline.cons kept Laid.nil ?_ nofun nofun, ?_⟩
    · exact fun _ member => nomatch member
    · rw [split]
      rfl
  | case6 rest lexer bare =>
    rw [blockCommentLoop.eq_6 _ _ _ bare] at ran
    cases ran
  | case7 value rest lexer star slash newline crlf cr ih =>
    rw [blockCommentLoop.eq_7 _ _ _ _ star slash newline crlf cr] at ran
    obtain ⟨reached, left, same⟩ := here.advance next newline
    obtain ⟨body, more, ends, split⟩ := ih reached left ran
    have kept : lexer.advance.tokens = lexer.tokens ++ [] := by rw [same, List.append_nil]
    refine ⟨value :: body, _, ends.cons kept Laid.nil ?_ ?_ ?_, ?_⟩
    · exact fun _ member => nomatch member
    · intro first head
      obtain ⟨tail, second⟩ := head_of_body head
      exact star tail first (split.trans second)
    · intro first head
      obtain ⟨tail, second⟩ := head_of_body head
      exact slash tail first (split.trans second)
    · rw [split]
      rfl

theorem reads_blockComment (here : At text before lexer) (next : lexer.rest = '/' :: '*' :: rest)
    (ran : lexer.blockComment = .ok lexer') :
    ∃ word, word ≠ [] ∧ Reads words text before word lexer lexer' := by
  have word : lexer.rest = ['/', '*'] ++ rest := next
  obtain ⟨opened, left, same⟩ := here.advances word (by decide)
  rw [blockComment] at ran
  obtain ⟨body, tokens, ends, split⟩ := blockCommentLoop_ok words opened rfl ran
  have reached := ends.reached
  rw [List.append_assoc] at reached
  have opening : Laid words text before ['/', '*'] [] := Laid.nil
  have closing : Laid words text (before ++ (['/', '*'] ++ body)) ['*', '/'] [] := Laid.nil
  have laid := (opening.append ends.laid).append closing
  rw [List.append_nil, List.nil_append, List.append_assoc] at laid
  have chunk := Chunk.comment laid ends.breaks reached.split (.block ends.first ends.flat)
  exact ⟨['/', '*'] ++ (body ++ ['*', '/']), nofun, reached, tokens, _, same ▸ ends.added, chunk⟩

/-! ### Strings -/

theorem stringLoop_ok {value : String} (ran : stringLoop start rest value lexer = .ok lexer') :
    ∃ word result tail, rest = word ++ tail ∧ '\n' ∉ word ∧ word ≠ [] ∧
      ∀ start tail lexer, stringLoop start (word ++ tail) value lexer =
        .ok ((advances word.length lexer).push (.string result) start) := by
  induction rest, value, lexer using stringLoop.induct with
  | case1 => cases ran
  | case2 rest value lexer => exact ⟨['"'], value, rest, rfl, by decide, nofun, fun _ _ _ => rfl⟩
  | case3 rest value lexer ih =>
    obtain ⟨word, result, tail, rfl, plain, -, reads⟩ := ih ran
    refine ⟨'\\' :: '"' :: word, result, tail, rfl, ?_, nofun, fun start tail lexer => ?_⟩
    · exact List.not_mem_cons_of_ne_of_not_mem (by decide)
        (List.not_mem_cons_of_ne_of_not_mem (by decide) plain)
    · exact reads start tail lexer.advance.advance
  | case4 rest value lexer ih =>
    obtain ⟨word, result, tail, rfl, plain, -, reads⟩ := ih ran
    refine ⟨'\\' :: '\\' :: word, result, tail, rfl, ?_, nofun, fun start tail lexer => ?_⟩
    · exact List.not_mem_cons_of_ne_of_not_mem (by decide)
        (List.not_mem_cons_of_ne_of_not_mem (by decide) plain)
    · exact reads start tail lexer.advance.advance
  | case5 rest value lexer quote backslash =>
    rw [stringLoop.eq_5 _ _ _ _ quote backslash] at ran
    cases ran
  | case6 character rest value lexer quote escaped backslash bare breaks =>
    rw [stringLoop, if_pos breaks] at ran
    · cases ran
    all_goals assumption
  | case7 character rest value lexer quote escaped backslash bare breaks control =>
    rw [stringLoop, if_neg breaks, if_pos control] at ran
    · cases ran
    all_goals assumption
  | case8 character rest value lexer quote escaped backslash bare breaks control ih =>
    have unfolded : ∀ start rest lexer, stringLoop start (character :: rest) value lexer =
        stringLoop start rest (value.push character) lexer.advance := by
      intro start rest lexer
      rw [stringLoop, if_neg breaks, if_neg control]
      · exact quote
      · exact fun _ first _ => bare first
      · exact fun _ first _ => bare first
      · exact bare
    rw [unfolded] at ran
    obtain ⟨word, result, tail, rfl, plain, -, reads⟩ := ih ran
    refine ⟨character :: word, result, tail, rfl, ?_, nofun, fun start tail lexer => ?_⟩
    · exact List.not_mem_cons_of_ne_of_not_mem (fun same => breaks (.inl same.symm)) plain
    · rw [List.cons_append, unfolded]
      exact reads start tail lexer.advance

theorem reads_string (here : At text before lexer) (next : lexer.rest = '"' :: rest) (ran : lexer.string = .ok lexer') :
    ∃ word, word ≠ [] ∧ Reads words text before word lexer lexer' := by
  obtain ⟨opened, left, same⟩ := here.advance next (by decide)
  rw [string, left] at ran
  obtain ⟨word, result, tail, rfl, plain, some, reads⟩ := stringLoop_ok ran
  have plain' : '\n' ∉ '"' :: word := List.not_mem_cons_of_ne_of_not_mem (by decide) plain
  -- The loop reads the same word wherever it stands.
  have reading : ∀ {text before tail : List Char} {lexer : Lexer}, At text before lexer →
      lexer.rest = '"' :: (word ++ tail) → ∃ lexer', lexer.string = .ok lexer' ∧
        ReadsToken text before ('"' :: word) (.string result) lexer lexer' := by
    intro text before tail lexer here next
    obtain ⟨reached, -, tokens⟩ := here.advances (show lexer.rest = ('"' :: word) ++ tail from next) plain'
    refine ⟨_, ?_, reached.push (.string result) lexer.position, ?_⟩
    · rw [string, (here.advance next (by decide)).2.1, reads]
      rfl
    · rw [Lexer.push, Lexer.span, tokens, reached.position, here.position]
  obtain ⟨again, ran', scanned⟩ := reading here next
  rw [string, left, ran] at ran'
  obtain rfl := Except.ok.inj ran'
  refine scanned.reads nofun nofun ?_
  have alone : (Lexer.new ('"' :: word)).rest = '"' :: (word ++ []) := by
    rw [List.append_nil]
    rfl
  exact reading (at_new _) alone

/-! ### Numbers and words -/

theorem reads_takeWhile {text before word : List Char} {test : Char → Bool}
    (here : At text before lexer) (plain : test '\n' = false) (kind : TokenKind)
    (taken : lexer.rest.takeWhile test = word) :
    ReadsToken text before word kind lexer
      ((advanceWhile test lexer.rest lexer).push kind lexer.position) := by
  have free : ∀ value, test value = true → value ≠ '\n' := by
    rintro value passes rfl
    rw [plain] at passes
    cases passes
  obtain ⟨reached, -, tokens⟩ := here.advanceWhile free
  rw [taken] at reached
  refine ⟨reached.push _ _, ?_⟩
  rw [Lexer.push, Lexer.span, tokens, reached.position, here.position]

theorem isDigit_of_start (start : isIdentifierStart value = true) :
    value.isDigit = false := by
  by_contra digit
  have isUpper : value.isUpper = decide (value.val ≥ 65 ∧ value.val ≤ 90) := rfl
  have isLower : value.isLower = (decide (value.val ≥ 97) && decide (value.val ≤ 122)) := rfl
  have isAlpha : value.isAlpha = (value.isUpper || value.isLower) := rfl
  rw [Bool.not_eq_false, Char.isDigit, Bool.and_eq_true, decide_eq_true_iff, decide_eq_true_iff,
    ge_iff_le, UInt32.le_iff_toNat_le, UInt32.le_iff_toNat_le] at digit
  simp only [isIdentifierStart, isAlpha, isUpper, isLower, Bool.or_eq_true, Bool.and_eq_true,
    decide_eq_true_iff, ge_iff_le, UInt32.le_iff_toNat_le, beq_iff_eq] at start
  obtain ⟨low, high⟩ := digit
  rcases start with (⟨upper, -⟩ | ⟨lower, -⟩) | rfl
  · have bounds := Nat.le_trans upper high
    exact absurd bounds (by decide)
  · have bounds := Nat.le_trans lower high
    exact absurd bounds (by decide)
  · exact absurd high (by decide)

theorem turn_digit (next : lexer.rest = value :: rest)
    (digit : value.isDigit = true) : lexer.turn words = lexer.number := by
  rw [turn, next]
  split <;> simp_all

theorem turn_start (next : lexer.rest = value :: rest)
    (start : isIdentifierStart value = true) : lexer.turn words = .ok (lexer.identifier words) := by
  have notDigit := isDigit_of_start start
  rw [isIdentifierStart] at start
  rw [turn, next]
  split <;> simp_all [isIdentifierStart]

theorem number_eq (taken : lexer.rest.takeWhile isNumberPart = word) (valid : validNumber word = true) :
    lexer.number = .ok ((advanceWhile isNumberPart lexer.rest lexer).push (numberKind word) lexer.position) := by
  rw [number, taken, valid]
  rfl

theorem numberKind_ne_eof (word : List Char) : numberKind word ≠ .eof := by
  rw [numberKind]
  split <;> nofun

theorem reads_number (here : At text before lexer) (next : lexer.rest = value :: rest) (digit : value.isDigit = true)
    (ran : lexer.number = .ok lexer') :
    ∃ word, word ≠ [] ∧ Reads words text before word lexer lexer' := by
  have part : isNumberPart value = true := by
    rw [isNumberPart, Char.isAlphanum, digit]
    simp
  have first : lexer.rest.takeWhile isNumberPart = value :: rest.takeWhile isNumberPart := by
    rw [next, List.takeWhile_cons_of_pos part]
  generalize taken : lexer.rest.takeWhile isNumberPart = word at first
  have valid : validNumber word = true := by
    by_contra invalid
    rw [number, taken, if_pos (by simpa using invalid)] at ran
    cases ran
  obtain rfl := Except.ok.inj ((number_eq taken valid).symm.trans ran)
  have scanned := reads_takeWhile here (by decide) (numberKind word) taken
  refine scanned.reads (first ▸ nofun) (numberKind_ne_eof word) ?_
  have alone : (Lexer.new word).rest.takeWhile isNumberPart = word := taken ▸ List.takeWhile_idem ..
  refine ⟨_, ?_, reads_takeWhile (at_new word) (by decide) (numberKind word) alone⟩
  rw [turn_digit (show (Lexer.new word).rest = _ from first) digit, number_eq alone valid]

theorem wordKind_ne_eof (word : List Char) : wordKind words word ≠ .eof := by
  rw [wordKind]
  split
  · nofun
  · split <;> nofun

theorem reads_identifier (here : At text before lexer) (next : lexer.rest = value :: rest)
    (start : isIdentifierStart value = true) :
    ∃ word, word ≠ [] ∧ Reads words text before word lexer (lexer.identifier words) := by
  have part : isIdentifierContinue value = true := by rw [isIdentifierContinue, start, Bool.true_or]
  have first : lexer.rest.takeWhile isIdentifierContinue = value :: rest.takeWhile isIdentifierContinue := by
    rw [next, List.takeWhile_cons_of_pos part]
  generalize taken : lexer.rest.takeWhile isIdentifierContinue = word at first
  have scanned := reads_takeWhile here (by decide) (wordKind words word) taken
  rw [identifier, taken]
  refine scanned.reads (first ▸ nofun) (wordKind_ne_eof word) ?_
  have alone : (Lexer.new word).rest.takeWhile isIdentifierContinue = word := taken ▸ List.takeWhile_idem ..
  refine ⟨_, ?_, reads_takeWhile (at_new word) (by decide) (wordKind words word) alone⟩
  rw [turn_start (show (Lexer.new word).rest = _ from first) start, identifier, alone]

/-! ### Symbols -/

theorem turn_spelling (words : Words) : ∀ entry ∈ symbols, entry.1 ≠ [] ∧ '\n' ∉ entry.1 ∧ (Lexer.new entry.1).turn words =
      .ok ((advances entry.1.length (Lexer.new entry.1)).push (.symbol entry.2) ⟨0, 1, 1⟩) := by
  have spellings : ∀ entry ∈ symbols, entry.1 ≠ [] ∧ '\n' ∉ entry.1 := by decide
  have turns : ∀ entry ∈ symbols, (Lexer.new entry.1).turn words =
      .ok ((advances entry.1.length (Lexer.new entry.1)).push (.symbol entry.2) ⟨0, 1, 1⟩) := by
    simp only [symbols, List.forall_mem_cons]
    refine ⟨rfl, rfl, rfl, rfl, rfl, rfl, rfl, rfl, rfl, rfl, rfl, rfl, rfl, rfl, rfl, rfl, rfl, rfl,
      rfl, rfl, rfl, rfl, rfl, rfl, rfl, rfl, rfl, fun _ member => nomatch member⟩
  exact fun entry member => ⟨(spellings entry member).1, (spellings entry member).2, turns entry member⟩

theorem reads_advances {text before word rest : List Char} (here : At text before lexer)
    (next : lexer.rest = word ++ rest) (plain : '\n' ∉ word) (kind : TokenKind) :
    ReadsToken text before word kind lexer ((advances word.length lexer).push kind lexer.position) := by
  obtain ⟨reached, -, tokens⟩ := here.advances next plain
  refine ⟨reached.push _ _, ?_⟩
  rw [Lexer.push, Lexer.span, tokens, reached.position, here.position]

variable {text before : List Char}

theorem reads_symbol (here : At text before lexer) (some : lexer.rest ≠ []) (ran : lexer.symbol = .ok lexer') :
    ∃ word, word ≠ [] ∧ Reads words text before word lexer lexer' := by
  rw [symbol] at ran
  cases found : symbols.find? fun entry => entry.1.isPrefixOf lexer.rest with
  | none =>
    rw [found] at ran
    dsimp only at ran
    split at ran
    · cases ran
    · cases ran
    · exact absurd ‹_› some
  | some entry =>
    rw [found] at ran
    obtain rfl := Except.ok.inj ran
    obtain ⟨longer, plain, alone⟩ := turn_spelling words entry (List.mem_of_find?_eq_some found)
    have matched : entry.1.isPrefixOf lexer.rest = true := by
      have matched := List.find?_some found
      exact matched
    obtain ⟨rest, next⟩ := List.isPrefixOf_iff_prefix.1 matched
    have scanned := reads_advances here next.symm plain (.symbol entry.2)
    refine scanned.reads longer nofun ⟨_, alone, ?_⟩
    exact reads_advances (at_new entry.1) (List.append_nil _).symm plain (.symbol entry.2)

/-! ### The whole text -/

theorem turn_ok (here : At text before lexer) (some : lexer.rest ≠ []) (ran : lexer.turn words = .ok lexer') :
    ∃ word, word ≠ [] ∧ Reads words text before word lexer lexer' := by
  rw [turn] at ran
  split at ran
  next empty => exact absurd empty some
  next rest next =>
    obtain rfl := Except.ok.inj ran
    exact ⟨_, List.cons_ne_nil _ _, reads_blank here next (.inl rfl)⟩
  next rest next =>
    obtain rfl := Except.ok.inj ran
    exact ⟨_, List.cons_ne_nil _ _, reads_blank here next (.inr rfl)⟩
  next rest next =>
    obtain rfl := Except.ok.inj ran
    exact ⟨_, List.cons_ne_nil _ _, reads_newline here next⟩
  next rest next =>
    obtain rfl := Except.ok.inj ran
    exact ⟨_, List.cons_ne_nil _ _, reads_return here next⟩
  next => cases ran
  next rest next =>
    obtain rfl := Except.ok.inj ran
    exact reads_lineComment here next
  next rest next => exact reads_blockComment here next ran
  next rest next => exact reads_string here next ran
  next =>
    split at ran
    · cases ran
    · exact reads_symbol here some ran
  next character rest next =>
    split at ran
    next digit => exact reads_number here next digit ran
    next =>
      split at ran
      next start =>
        obtain rfl := Except.ok.inj ran
        exact reads_identifier here next start
      next => exact reads_symbol here some ran

variable {comments : List Comment}

theorem runLoop_ok {fuel : Nat} {tokens : List Token} (here : At text before lexer)
    (chunk : Chunk words text [] before lexer.tokens comments)
    (ran : runLoop words fuel lexer = .ok tokens) :
    ∃ last comments, At text text last ∧ Chunk words text [] text last.tokens comments ∧ tokens = last.finish := by
  induction fuel generalizing before lexer comments with
  | zero =>
    rw [runLoop] at ran
    split at ran
    next all =>
      obtain rfl := Except.ok.inj ran
      obtain rfl : text = before := by rw [here.split, all, List.append_nil]
      exact ⟨lexer, comments, here, chunk, rfl⟩
    next => cases ran
  | succ fuel ih =>
    rw [runLoop] at ran
    split at ran
    next all =>
      obtain rfl := Except.ok.inj ran
      obtain rfl : text = before := by rw [here.split, all, List.append_nil]
      exact ⟨lexer, comments, here, chunk, rfl⟩
    next some =>
      obtain ⟨lexer', turned, rest⟩ := bind_eq_ok.1 ran
      obtain ⟨word, -, reached, more, others, added, next⟩ := turn_ok here some turned
      exact ih reached (added ▸ chunk.append next) rest

/-- The tokens of a text: each spans a word of it and is read from that word alone, they follow each
other, what they leave out is blanks, comments and the carriage returns of line breaks, and only the last
one is the end of the file. -/
structure WellLexed (words : Words) (text : List Char) (tokens : List Token) : Prop where
  placed : ∀ token ∈ tokens, Placed words text token
  ordered : tokens.Pairwise fun first second => first.span.stop.offset ≤ second.span.start.offset
  covered : ∃ comments : List Comment, (∀ comment ∈ comments, comment.Placed text) ∧
    (comments.Pairwise fun first second => first.stop ≤ second.start) ∧
    (∀ comment ∈ comments, ∀ token ∈ tokens, token.kind = .newline ∨
      token.span.stop.offset ≤ comment.start ∨ comment.stop ≤ token.span.start.offset) ∧
    ∀ before value after, text = before ++ value :: after → Covered tokens comments before value after
  ended : ∃ others, tokens = others ++ [⟨.eof, positionOf text, positionOf text⟩] ∧ ∀ token ∈ others, token.kind ≠ .eof

theorem placed_end (text : List Char) (kind : TokenKind) :
    Placed words text ⟨kind, positionOf text, positionOf text⟩ := by
  refine ⟨text, [], [], by rw [List.append_nil, List.append_nil], rfl, ?_, fun none => absurd rfl none⟩
  rw [List.append_nil]
  rfl

theorem Chunk.wellLexed {text : List Char} {tokens : List Token} (chunk : Chunk words text [] text tokens comments) :
    WellLexed words text (tokens ++ [⟨.eof, positionOf text, positionOf text⟩]) where
  placed := by
    refine List.forall_mem_append.2 ⟨fun token member => (chunk.placed token member).1, ?_⟩
    intro token member
    rw [List.mem_singleton.1 member]
    exact placed_end text .eof
  ordered := by
    refine List.pairwise_append.2 ⟨chunk.ordered, List.pairwise_singleton _ _, ?_⟩
    intro token member last isLast
    rw [List.mem_singleton.1 isLast]
    exact (chunk.inside token member).2
  covered := by
    refine ⟨comments, fun comment member => (chunk.placedComments comment member).1,
      chunk.orderedComments, fun comment member => ?_, fun before value after split => ?_⟩
    · refine List.forall_mem_append.2 ⟨chunk.apart comment member, fun token last => ?_⟩
      rw [List.mem_singleton.1 last]
      exact .inr (.inr (chunk.placedComments comment member).2.2)
    · exact (chunk.covered before value after split).mono (fun _ member => List.mem_append_left _ member)
        (fun _ member => member) (List.prefix_refl after)
  ended := ⟨tokens, rfl, fun token member => (chunk.placed token member).2⟩

theorem finish_wellLexed {text : List Char}
    (here : At text text lexer) (chunk : Chunk words text [] text lexer.tokens comments) :
    WellLexed words text lexer.finish := by
  have broken : Chunk words text [] text
      (lexer.tokens ++ [⟨.newline, positionOf text, positionOf text⟩]) comments := by
    have one : Chunk words text ([] ++ text) [] [⟨.newline, positionOf text, positionOf text⟩] [] :=
      Chunk.token (placed_end text .newline) nofun rfl (by rw [List.append_nil]; rfl)
    have both := chunk.append one
    rwa [List.append_nil, List.append_nil] at both
  have ended : ∀ lexer' : Lexer, lexer'.position = positionOf text → (lexer'.push .eof lexer'.position).tokens =
        lexer'.tokens ++ [⟨.eof, positionOf text, positionOf text⟩] := by
    intro lexer' same
    rw [Lexer.push, Lexer.span, same]
  have line : (lexer.push .newline lexer.position).tokens =
      lexer.tokens ++ [⟨.newline, positionOf text, positionOf text⟩] := by
    rw [Lexer.push, Lexer.span, here.position]
  rw [finish]
  cases lexer.tokens.getLast? with
  | none =>
    rw [ended lexer here.position]
    exact chunk.wellLexed
  | some token =>
    dsimp only
    split
    · rw [ended lexer here.position]
      exact chunk.wellLexed
    · rw [ended (lexer.push .newline lexer.position) here.position, line]
      exact broken.wellLexed

/-- The lexer accepts a text only with tokens that span it in order. -/
theorem lex_wellLexed {text : String} {tokens : List Token} (accepted : lex words text = .ok tokens) :
    WellLexed words text.toList tokens := by
  obtain ⟨last, comments, reached, chunk, rfl⟩ := runLoop_ok (at_new text.toList) Chunk.nil accepted
  exact finish_wellLexed reached chunk

theorem lex_wellLexed_comments :
    WellLexed ⟨["LET"], ["INF"]⟩ "LET x=0x1F // é\r\n\"\\\"\"/*\n*/<>".toList
      [⟨.keyword "LET", ⟨0, 1, 1⟩, ⟨3, 1, 4⟩⟩, ⟨.identifier "x", ⟨4, 1, 5⟩, ⟨5, 1, 6⟩⟩,
        ⟨.symbol .assign, ⟨5, 1, 6⟩, ⟨6, 1, 7⟩⟩, ⟨.integer "0x1F", ⟨6, 1, 7⟩, ⟨10, 1, 11⟩⟩,
        ⟨.newline, ⟨17, 1, 17⟩, ⟨18, 1, 18⟩⟩, ⟨.string "\"", ⟨18, 2, 1⟩, ⟨22, 2, 5⟩⟩,
        ⟨.newline, ⟨24, 2, 7⟩, ⟨25, 2, 8⟩⟩, ⟨.symbol .notEqual, ⟨27, 3, 3⟩, ⟨29, 3, 5⟩⟩,
        ⟨.newline, ⟨29, 3, 5⟩, ⟨29, 3, 5⟩⟩, ⟨.eof, ⟨29, 3, 5⟩, ⟨29, 3, 5⟩⟩] :=
  lex_wellLexed rfl

/-! ### The fuel suffices -/

theorem blockCommentLoop_ne_outOfFuel :
    blockCommentLoop start rest lexer ≠ .error .outOfFuel := by
  induction rest, lexer using blockCommentLoop.induct with
  | case4 rest lexer ih => rwa [blockCommentLoop]
  | case5 rest lexer ih => rwa [blockCommentLoop]
  | case6 rest lexer bare =>
    rw [blockCommentLoop.eq_6 _ _ _ bare]
    nofun
  | case7 value rest lexer star slash newline crlf cr ih =>
    rwa [blockCommentLoop.eq_7 _ _ _ _ star slash newline crlf cr]
  | _ => nofun

theorem stringLoop_ne_outOfFuel {value : String} :
    stringLoop start rest value lexer ≠ .error .outOfFuel := by
  induction rest, value, lexer using stringLoop.induct with
  | case3 rest value lexer ih => rwa [stringLoop]
  | case4 rest value lexer ih => rwa [stringLoop]
  | case5 rest value lexer quote backslash =>
    rw [stringLoop.eq_5 _ _ _ _ quote backslash]
    nofun
  | case6 character rest value lexer quote escaped backslash bare breaks =>
    rw [stringLoop, if_pos breaks]
    · nofun
    all_goals assumption
  | case7 character rest value lexer quote escaped backslash bare breaks control =>
    rw [stringLoop, if_neg breaks, if_pos control]
    · nofun
    all_goals assumption
  | case8 character rest value lexer quote escaped backslash bare breaks control ih =>
    rw [stringLoop, if_neg breaks, if_neg control]
    · exact ih
    all_goals assumption
  | _ => nofun

theorem symbol_ne_outOfFuel (lexer : Lexer) : lexer.symbol ≠ .error .outOfFuel := by
  rw [symbol]
  split
  · nofun
  · dsimp only
    split <;> nofun

theorem number_ne_outOfFuel (lexer : Lexer) : lexer.number ≠ .error .outOfFuel := by
  rw [number]
  split <;> nofun

theorem turn_ne_outOfFuel (lexer : Lexer) : lexer.turn words ≠ .error .outOfFuel := by
  rw [turn]
  split
  case h_8 => exact blockCommentLoop_ne_outOfFuel
  case h_9 => exact stringLoop_ne_outOfFuel
  case h_10 =>
    split
    · nofun
    · exact symbol_ne_outOfFuel lexer
  case h_11 =>
    split
    · exact number_ne_outOfFuel lexer
    · split
      · nofun
      · exact symbol_ne_outOfFuel lexer
  all_goals nofun

theorem runLoop_ne_outOfFuel {fuel : Nat} (here : At text before lexer) (enough : lexer.rest.length ≤ fuel) :
    runLoop words fuel lexer ≠ .error .outOfFuel := by
  induction fuel generalizing before lexer with
  | zero =>
    rw [runLoop, if_pos (List.length_eq_zero_iff.1 (Nat.le_zero.1 enough))]
    nofun
  | succ fuel ih =>
    rw [runLoop]
    split
    · nofun
    next some =>
      show (lexer.turn words >>= runLoop words fuel) ≠ _
      cases turned : lexer.turn words with
      | error diagnostic =>
        intro stuck
        exact turn_ne_outOfFuel lexer (turned.trans (congrArg Except.error (Except.error.inj stuck)))
      | ok lexer' =>
        obtain ⟨word, longer, reached, -⟩ := turn_ok here some turned
        have parts : lexer.rest = word ++ lexer'.rest := by
          have split := here.split.symm.trans reached.split
          rw [List.append_assoc] at split
          exact List.append_cancel_left split
        have positive : 0 < word.length := List.length_pos_iff.2 longer
        rw [parts, List.length_append] at enough
        exact ih reached (by omega)

theorem lex_ne_outOfFuel (text : String) : lex words text ≠ .error .outOfFuel :=
  runLoop_ne_outOfFuel (at_new text.toList) (Nat.le_refl _)

end BasicNext.Frontend
