import BasicNext.Frontend.Lexer

/-!
# The spans of the tokens

Every turn of the lexer reads a word of the text and adds the tokens of that word: this is a chunk, and
chunks of adjacent words are a chunk of both. So the whole text is one chunk, which says where every token
lies, what lies between the tokens, and that each token is the first one of its own text.
-/

namespace BasicNext.Frontend

open Lib

/-! ### Positions in a text -/

def bytes : List Char → Nat
  | [] => 0
  | value :: rest => value.utf8Size + bytes rest

/-- The position after the characters of a prefix: its bytes, and one more than its line breaks and than
the characters after the last of them. -/
def positionOf (before : List Char) : Position :=
  ⟨bytes before, 1 + before.count '\n', 1 + (before.reverse.takeWhile (· != '\n')).length⟩

theorem bytes_cons (value : Char) (rest : List Char) :
    bytes (value :: rest) = value.utf8Size + bytes rest := rfl

theorem bytes_append (first second : List Char) : bytes (first ++ second) = bytes first + bytes second := by
  induction first with
  | nil => rw [List.nil_append, bytes, Nat.zero_add]
  | cons value first ih => rw [List.cons_append, bytes_cons, bytes_cons, ih, Nat.add_assoc]

theorem bytes_concat (before : List Char) (value : Char) :
    bytes (before ++ [value]) = bytes before + value.utf8Size := by
  rw [bytes_append]
  rfl

theorem positionOf_concat {before : List Char} {value : Char} (plain : value ≠ '\n') :
    positionOf (before ++ [value]) =
      ⟨bytes before + value.utf8Size, (positionOf before).line, (positionOf before).column + 1⟩ := by
  have more : ((before ++ [value]).reverse.takeWhile (· != '\n')).length =
      (before.reverse.takeWhile (· != '\n')).length + 1 := by
    simp [plain]
  rw [positionOf, bytes_concat, more, List.count_append, List.count_singleton]
  simp [positionOf, plain]
  omega

theorem positionOf_newline (before : List Char) :
    positionOf (before ++ ['\n']) = ⟨bytes before + '\n'.utf8Size, (positionOf before).line + 1, 1⟩ := by
  rw [positionOf, bytes_concat, List.count_append]
  simp [positionOf]
  omega

/-! ### Moving over a text -/

/-- The lexer has read a prefix of the text and stands after it. -/
structure At (text before : List Char) (lexer : Lexer) : Prop where
  split : text = before ++ lexer.rest
  position : lexer.position = positionOf before

namespace At

variable {text before : List Char} {lexer : Lexer}

theorem offset (here : At text before lexer) : lexer.offset = bytes before := congrArg Position.offset here.position

theorem push (here : At text before lexer) (kind : TokenKind) (start : Position) :
    At text before (lexer.push kind start) := ⟨here.split, here.position⟩

theorem advance (here : At text before lexer) {value : Char} {rest : List Char}
    (next : lexer.rest = value :: rest) (plain : value ≠ '\n') :
    At text (before ++ [value]) lexer.advance ∧ lexer.advance.rest = rest ∧ lexer.advance.tokens = lexer.tokens := by
  have moved : lexer.advance = { lexer with
      rest := rest, offset := lexer.offset + value.utf8Size, column := lexer.column + 1 } := by
    rw [Lexer.advance, next]
  rw [moved]
  refine ⟨⟨?_, ?_⟩, rfl, rfl⟩
  · rw [here.split, next, List.append_assoc, List.singleton_append]
  · rw [positionOf_concat plain, ← here.position, ← here.offset]
    rfl

theorem newline (here : At text before lexer) {rest : List Char} (next : lexer.rest = '\n' :: rest) :
    At text (before ++ ['\n']) lexer.newline ∧ lexer.newline.rest = rest ∧ ∃ stop, stop.offset = bytes (before ++ ['\n']) ∧
        lexer.newline.tokens = lexer.tokens ++ [⟨.newline, positionOf before, stop⟩] := by
  have moved : lexer.newline = ⟨rest, lexer.offset + '\n'.utf8Size, lexer.line + 1, 1, lexer.tokens ++
      [⟨.newline, lexer.position, ⟨lexer.offset + '\n'.utf8Size, lexer.line, lexer.column + 1⟩⟩]⟩ := by
    rw [Lexer.newline, Lexer.advance, next]
    rfl
  rw [moved]
  refine ⟨⟨?_, ?_⟩, rfl, ⟨lexer.offset + '\n'.utf8Size, lexer.line, lexer.column + 1⟩, ?_, ?_⟩
  · rw [here.split, next, List.append_assoc, List.singleton_append]
  · rw [positionOf_newline, ← here.position, ← here.offset]
    rfl
  · rw [bytes_concat, ← here.offset]
  · rw [here.position]

theorem advanceWhile (here : At text before lexer) {test : Char → Bool}
    (plain : ∀ value, test value = true → value ≠ '\n') :
    At text (before ++ lexer.rest.takeWhile test) (Lexer.advanceWhile test lexer.rest lexer) ∧
      (Lexer.advanceWhile test lexer.rest lexer).rest = lexer.rest.dropWhile test ∧
      (Lexer.advanceWhile test lexer.rest lexer).tokens = lexer.tokens := by
  generalize left : lexer.rest = rest
  induction rest generalizing before lexer with
  | nil =>
    rw [Lexer.advanceWhile, List.takeWhile_nil, List.append_nil, List.dropWhile_nil]
    exact ⟨here, left, rfl⟩
  | cons value rest ih =>
    rw [Lexer.advanceWhile]
    by_cases passes : test value = true
    · obtain ⟨moved, after, same⟩ := here.advance left (plain value passes)
      obtain ⟨reached, remaining, kept⟩ := ih moved after
      rw [if_pos passes, List.takeWhile_cons_of_pos passes, List.dropWhile_cons_of_pos passes]
      rw [List.append_assoc, List.singleton_append] at reached
      exact ⟨reached, remaining, kept.trans same⟩
    · rw [if_neg passes, List.takeWhile_cons_of_neg passes, List.dropWhile_cons_of_neg passes, List.append_nil]
      exact ⟨here, left, rfl⟩

theorem advances (here : At text before lexer) {word rest : List Char} (next : lexer.rest = word ++ rest)
    (plain : '\n' ∉ word) :
    At text (before ++ word) (Lexer.advances word.length lexer) ∧ (Lexer.advances word.length lexer).rest = rest ∧
      (Lexer.advances word.length lexer).tokens = lexer.tokens := by
  induction word generalizing before lexer with
  | nil =>
    rw [List.append_nil]
    exact ⟨here, next, rfl⟩
  | cons value word ih =>
    have first : value ≠ '\n' := fun same => plain (same ▸ List.mem_cons_self)
    obtain ⟨moved, after, same⟩ := here.advance next first
    obtain ⟨reached, remaining, kept⟩ := ih moved after fun member => plain (List.mem_cons_of_mem _ member)
    rw [List.append_assoc, List.singleton_append] at reached
    exact ⟨reached, remaining, kept.trans same⟩

end At

/-! ### Chunks -/

variable (words : Words)

/-- Lexing the text of a token alone gives the token, at the start of that text, as the first one. -/
def Relexed (word : List Char) (kind : TokenKind) : Prop :=
  ∃ stop rest, stop.offset = bytes word ∧ lex words (String.ofList word) = .ok (⟨kind, positionOf [], stop⟩ :: rest)

def Placed (text : List Char) (token : Token) : Prop :=
  ∃ before word after, text = before ++ word ++ after ∧ token.span.start = positionOf before ∧
    token.span.stop.offset = bytes (before ++ word) ∧ (word ≠ [] → Relexed words word token.kind)

/-- From two slashes to before a line break, or from `/` and `*` to the first `*` and `/`. -/
inductive IsComment : List Char → Prop
  | line {body : List Char} : '\n' ∉ body → '\r' ∉ body → IsComment ('/' :: '/' :: body)
  | block {body : List Char} : ¬['*', '/'] <:+: body ++ ['*'] → ¬['/', '*'] <:+: body ++ ['*'] →
      IsComment ('/' :: '*' :: (body ++ ['*', '/']))

/-- The bytes of a comment in a text. -/
structure Comment where
  start : Nat
  stop : Nat

def Comment.Placed (text : List Char) (comment : Comment) : Prop :=
  ∃ before word after, text = before ++ word ++ after ∧ comment.start = bytes before ∧
    comment.stop = bytes (before ++ word) ∧ IsComment word

/-- A character, with what is before and after it, lies in a token or a comment, is a blank, or is the
carriage return of a line break. -/
def Covered (tokens : List Token) (comments : List Comment) (before : List Char) (value : Char)
    (after : List Char) : Prop :=
  (∃ token ∈ tokens, token.span.start.offset ≤ bytes before ∧ bytes before < token.span.stop.offset) ∨
    (∃ comment ∈ comments, comment.start ≤ bytes before ∧ bytes before < comment.stop) ∨
    value = ' ' ∨ value = '\t' ∨ (value = '\r' ∧ after.head? = some '\n')

/-- The tokens of a word of the text. -/
structure Laid (text before word : List Char) (tokens : List Token) : Prop where
  placed : ∀ token ∈ tokens, Placed words text token ∧ token.kind ≠ .eof
  inside : ∀ token ∈ tokens, bytes before ≤ token.span.start.offset ∧ token.span.stop.offset ≤ bytes (before ++ word)
  ordered : tokens.Pairwise fun first second => first.span.stop.offset ≤ second.span.start.offset

/-- The tokens and the comments of a word of the text. -/
structure Chunk (text before word : List Char) (tokens : List Token) (comments : List Comment) : Prop
    extends Laid words text before word tokens where
  placedComments : ∀ comment ∈ comments, comment.Placed text ∧
    bytes before ≤ comment.start ∧ comment.stop ≤ bytes (before ++ word)
  orderedComments : comments.Pairwise fun first second => first.stop ≤ second.start
  /-- Only line breaks are tokens within comments. -/
  apart : ∀ comment ∈ comments, ∀ token ∈ tokens, token.kind = .newline ∨
    token.span.stop.offset ≤ comment.start ∨ comment.stop ≤ token.span.start.offset
  covered : ∀ left value right, word = left ++ value :: right → Covered tokens comments (before ++ left) value right

theorem Covered.mono {tokens tokens' : List Token} {comments comments' : List Comment}
    {before after rest : List Char} {value : Char} (covered : Covered tokens comments before value after)
    (more : ∀ token ∈ tokens, token ∈ tokens') (others : ∀ comment ∈ comments, comment ∈ comments')
    (longer : after <+: rest) : Covered tokens' comments' before value rest := by
  obtain ⟨extra, rfl⟩ := longer
  rcases covered with ⟨token, member, here⟩ | ⟨comment, member, here⟩ | blank | tab | ⟨cr, lf⟩
  · exact .inl ⟨token, more token member, here⟩
  · exact .inr (.inl ⟨comment, others comment member, here⟩)
  · exact .inr (.inr (.inl blank))
  · exact .inr (.inr (.inr (.inl tab)))
  · refine .inr (.inr (.inr (.inr ⟨cr, ?_⟩)))
    cases after with
    | nil => cases lf
    | cons => exact lf

section

variable {words} {text before word word' : List Char} {tokens tokens' : List Token}
  {comments comments' : List Comment}

theorem Laid.nil : Laid words text before word [] where
  placed _ member := nomatch member
  inside _ member := nomatch member
  ordered := .nil

theorem Laid.append (first : Laid words text before word tokens) (second : Laid words text (before ++ word) word' tokens') :
    Laid words text before (word ++ word') (tokens ++ tokens') where
  placed := List.forall_mem_append.2 ⟨first.placed, second.placed⟩
  inside := by
    have grows := bytes_append (before ++ word) word'
    have starts := bytes_append before word
    rw [← List.append_assoc]
    refine List.forall_mem_append.2 ⟨fun token member => ?_, fun token member => ?_⟩
    · have here := first.inside token member
      omega
    · have here := second.inside token member
      omega
  ordered := by
    refine List.pairwise_append.2 ⟨first.ordered, second.ordered, fun token member other member' => ?_⟩
    exact Nat.le_trans (first.inside token member).2 (second.inside other member').1

theorem Laid.token {token : Token} (placed : Placed words text token) (notEof : token.kind ≠ .eof)
    (start : token.span.start.offset = bytes before)
    (stop : token.span.stop.offset = bytes (before ++ word)) :
    Laid words text before word [token] where
  placed := by
    intro other member
    obtain rfl := List.mem_singleton.1 member
    exact ⟨placed, notEof⟩
  inside := by
    intro other member
    obtain rfl := List.mem_singleton.1 member
    exact ⟨Nat.le_of_eq start.symm, Nat.le_of_eq stop⟩
  ordered := List.pairwise_singleton _ _

theorem Chunk.nil : Chunk words text before [] [] [] where
  toLaid := Laid.nil
  placedComments _ member := nomatch member
  orderedComments := .nil
  apart _ member := nomatch member
  covered left _ _ split := by cases left <;> cases split

theorem Chunk.append (first : Chunk words text before word tokens comments)
    (second : Chunk words text (before ++ word) word' tokens' comments') :
    Chunk words text before (word ++ word') (tokens ++ tokens') (comments ++ comments') where
  toLaid := first.toLaid.append second.toLaid
  placedComments := by
    have grows := bytes_append (before ++ word) word'
    have starts := bytes_append before word
    rw [← List.append_assoc]
    refine List.forall_mem_append.2 ⟨fun comment member => ?_, fun comment member => ?_⟩
    · obtain ⟨placed, low, high⟩ := first.placedComments comment member
      exact ⟨placed, low, by omega⟩
    · obtain ⟨placed, low, high⟩ := second.placedComments comment member
      exact ⟨placed, by omega, high⟩
  orderedComments := by
    refine List.pairwise_append.2 ⟨first.orderedComments, second.orderedComments, ?_⟩
    intro comment member other member'
    exact Nat.le_trans (first.placedComments comment member).2.2 (second.placedComments other member').2.1
  apart := by
    refine List.forall_mem_append.2 ⟨fun comment member => ?_, fun comment member => ?_⟩
    · refine List.forall_mem_append.2 ⟨first.apart comment member, fun token later => ?_⟩
      have ends := (first.placedComments comment member).2.2
      exact .inr (.inr (Nat.le_trans ends (second.inside token later).1))
    · refine List.forall_mem_append.2 ⟨fun token earlier => ?_, second.apart comment member⟩
      have begins := (second.placedComments comment member).2.1
      exact .inr (.inl (Nat.le_trans (first.inside token earlier).2 begins))
  covered := by
    intro left value right split
    rcases List.append_eq_append_iff.1 split with ⟨more, rfl, rest⟩ | ⟨more, rfl, rest⟩
    · rw [← List.append_assoc]
      have here := second.covered more value right rest
      exact here.mono (fun _ member => List.mem_append_right tokens member)
        (fun _ member => List.mem_append_right comments member) (List.prefix_refl right)
    · cases more with
      | nil =>
        rw [List.nil_append] at rest
        have here := second.covered [] value right rest.symm
        rw [List.append_nil, List.append_nil] at here
        exact here.mono (fun _ member => List.mem_append_right tokens member)
          (fun _ member => List.mem_append_right comments member) (List.prefix_refl right)
      | cons head tail =>
        cases rest
        exact (first.covered left value tail rfl).mono (fun _ member => List.mem_append_left _ member)
          (fun _ member => List.mem_append_left _ member) (List.prefix_append tail word')

theorem Chunk.blank {value : Char} (blank : value = ' ' ∨ value = '\t') :
    Chunk words text before [value] [] [] where
  toLaid := Laid.nil
  placedComments _ member := nomatch member
  orderedComments := .nil
  apart _ member := nomatch member
  covered left other right split := by
    cases left with
    | nil =>
      cases split
      rcases blank with space | tab
      · exact .inr (.inr (.inl space))
      · exact .inr (.inr (.inr (.inl tab)))
    | cons _ left => cases left <;> cases split

theorem Chunk.token {token : Token} (placed : Placed words text token) (notEof : token.kind ≠ .eof)
    (start : token.span.start.offset = bytes before)
    (stop : token.span.stop.offset = bytes (before ++ word)) :
    Chunk words text before word [token] [] where
  toLaid := Laid.token placed notEof start stop
  placedComments _ member := nomatch member
  orderedComments := .nil
  apart _ member := nomatch member
  covered := by
    rintro left value right rfl
    have positive := value.utf8Size_pos
    refine .inl ⟨token, List.mem_singleton_self token, ?_, ?_⟩
    · rw [start, bytes_append]
      omega
    · rw [stop, bytes_append before left, bytes_append before, bytes_append left, bytes_cons]
      omega

theorem Chunk.comment {after : List Char} (laid : Laid words text before word tokens)
    (breaks : ∀ token ∈ tokens, token.kind = .newline) (split : text = before ++ word ++ after)
    (comment : IsComment word) :
    Chunk words text before word tokens [⟨bytes before, bytes (before ++ word)⟩] where
  toLaid := laid
  placedComments := by
    intro other member
    obtain rfl := List.mem_singleton.1 member
    exact ⟨⟨before, word, after, split, rfl, rfl, comment⟩, Nat.le_refl _, Nat.le_refl _⟩
  orderedComments := List.pairwise_singleton _ _
  apart _ _ token member := .inl (breaks token member)
  covered := by
    rintro left value right rfl
    have positive := value.utf8Size_pos
    refine .inr (.inl ⟨_, List.mem_singleton_self _, ?_, ?_⟩)
    · show bytes before ≤ bytes (before ++ left)
      rw [bytes_append]
      omega
    · show bytes (before ++ left) < bytes (before ++ (left ++ value :: right))
      rw [bytes_append before left, bytes_append before, bytes_append left, bytes_cons]
      omega

end

end BasicNext.Frontend
