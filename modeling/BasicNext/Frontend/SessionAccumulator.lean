import BasicNext.Frontend.Lexer
import BasicNext.Log.Record
import Mathlib.Data.List.Flatten
import Mathlib.Data.List.Induction
import Mathlib.Data.List.Nodup

/-!
# The accumulator of an interactive session

Committed imports, constants and declarations stand as texts in three lists. A turn replaces the texts of its list whose
first name is its own, and these names are read back from the texts in upper case.
-/

namespace BasicNext.Frontend.SessionAccumulator

/-! ### What a text is -/

inductive TopLevelKind where
  | empty | import | constant | declaration | other
deriving DecidableEq, Repr

def toAsciiUppercase (text : String) : String := String.ofList (text.toList.map Char.toUpper)

def keywordAt (tokens : List Token) (index : Nat) : Option String :=
  match tokens[index]?.map Token.kind with
  | some (.keyword word) => some word
  | _ => none

def nameAt (tokens : List Token) (index : Nat) : Option String :=
  match tokens[index]?.map Token.kind with
  | some (.identifier name) => some (toAsciiUppercase name)
  | _ => none

def isMeaningful (token : Token) : Bool := token.kind != .newline && token.kind != .eof

def classifyTopLevelTokens (tokens : List Token) : TopLevelKind × Option String :=
  let meaningful := tokens.filter isMeaningful
  if meaningful.isEmpty then (.empty, none)
  else
    let index := if keywordAt meaningful 0 = some "EXPORT" then 1 else 0
    match keywordAt meaningful index with
    | none => (.other, none)
    | some word =>
      if word = "IMPORT" then (.import, none)
      else if word = "CONST" then (.constant, nameAt meaningful (index + 1))
      else if word = "ASYNC" then
        if keywordAt meaningful (index + 1) = some "FUNCTION" then (.declaration, nameAt meaningful (index + 2))
        else (.other, none)
      else if ["FUNCTION", "CLASS", "STRUCT", "INTERFACE", "ENUM"].contains word then
        (.declaration, nameAt meaningful (index + 1))
      else (.other, none)

variable (words : Words)

def classifyTopLevelSource (source : String) : TopLevelKind × Option String :=
  match lex words source with
  | .ok tokens => classifyTopLevelTokens tokens
  | .error _ => (.other, none)

def extractDeclName (source : String) : Option String :=
  let classified := classifyTopLevelSource words source
  if classified.1 = .declaration ∨ classified.1 = .constant then classified.2 else none

/-- `str::trim` -/
def trim (text : String) : String :=
  String.ofList (((text.toList.dropWhile Log.isWhitespace).reverse.dropWhile Log.isWhitespace).reverse)

/-! ### Turns -/

/-- The accumulator; its variables stand in the order of their names. -/
structure Accumulator where
  imports : List String
  constants : List String
  declarations : List String
  sessionVariables : List (String × String)
  history : List String
  turn : Nat
deriving DecidableEq, Repr

/-- A submission, with the variables that it has bound. -/
structure Turn where
  source : String
  newVariables : List (String × String)
deriving DecidableEq, Repr

def insertVariable (name ty : String) : List (String × String) → List (String × String)
  | [] => [(name, ty)]
  | variable' :: rest =>
    if name < variable'.1 then (name, ty) :: variable' :: rest
    else if name = variable'.1 then (name, ty) :: rest
    else variable' :: insertVariable name ty rest

namespace Accumulator

def new : Accumulator := ⟨[], [], [], [], [], 0⟩

def replace (texts : List String) (name : Option String) (text : String) : List String :=
  let kept := if name.isSome then texts.filter fun other => extractDeclName words other != name else texts
  kept ++ [text]

def commitTurn (accumulator : Accumulator) (turn : Turn) : Accumulator :=
  let classified := classifyTopLevelSource words turn.source
  let trimmed := trim turn.source
  let listed : Accumulator :=
    match classified.1 with
    | .import =>
      if accumulator.imports.contains trimmed then accumulator
      else { accumulator with imports := accumulator.imports ++ [trimmed] }
    | .constant => { accumulator with constants := replace words accumulator.constants classified.2 trimmed }
    | .declaration => { accumulator with declarations := replace words accumulator.declarations classified.2 trimmed }
    | .empty | .other => accumulator
  { listed with
    sessionVariables :=
      turn.newVariables.foldl (fun bindings bound => insertVariable bound.1 bound.2 bindings) listed.sessionVariables
    history := listed.history ++ [turn.source]
    turn := listed.turn + 1 }

def commits (turns : List Turn) : Accumulator := turns.foldl (commitTurn words) new

/-! ### Compiling -/

def lines (texts : List String) : String := String.join (texts.map (· ++ "\n"))

def synthesizeProgram (accumulator : Accumulator) (extraDecl startStatements : String) : String :=
  lines accumulator.imports ++ lines accumulator.constants ++ lines accumulator.declarations ++
    (if extraDecl = "" then "" else extraDecl ++ "\n") ++
    "FUNCTION __session_entry() AS VOID\n" ++
    String.join (accumulator.sessionVariables.map fun bound => "    LET " ++ bound.1 ++ " AS " ++ bound.2 ++ "\n") ++
    startStatements ++ "END FUNCTION\n"

/-- The rest of the compiler: whether it takes a program, and whether statements or an expression compile. -/
structure Compiler where
  prepare : String → Bool
  compileStatements : Accumulator → String → Bool

def compileSubmission (compiler : Compiler) (accumulator : Accumulator) (source : String) : Bool :=
  match (classifyTopLevelSource words source).1 with
  | .empty => compiler.prepare (accumulator.synthesizeProgram "" "")
  | .import | .constant | .declaration => compiler.prepare (accumulator.synthesizeProgram (trim source) "")
  | .other => compiler.compileStatements accumulator source

/-! ### What a session keeps -/

def texts (accumulator : Accumulator) : List String :=
  accumulator.imports ++ accumulator.constants ++ accumulator.declarations

end Accumulator

open Accumulator

variable {words}

def Turn.kind (words : Words) (turn : Turn) : TopLevelKind := (classifyTopLevelSource words turn.source).1

/-- Whether a turn is committed to a list. -/
def Turn.isListed (words : Words) (turn : Turn) : Bool :=
  match turn.kind words with
  | .import | .constant | .declaration => true
  | .empty | .other => false

/-- The names that a turn adds to a session, by what the parser says a text declares. -/
def Turn.names (words : Words) (declares : String → List String) (turn : Turn) : List String :=
  if turn.isListed words then declares (trim turn.source) else []

/-- Turns that compile one after another, each in the session that those before it have left. -/
def Compiled (words : Words) (compiler : Compiler) (turns : List Turn) : Prop :=
  ∀ before turn after, turns = before ++ turn :: after →
    (commits words before).compileSubmission words compiler turn.source = true

/-- The texts of the turns of a kind, in their order. -/
def committed (words : Words) (kind : TopLevelKind) (turns : List Turn) : List String :=
  (turns.filter fun turn => turn.kind words = kind).map fun turn => trim turn.source

/-- What a session is to keep of its turns: each name once unless a later turn declares it, and the order of the rest. -/
structure Keeps (words : Words) (declares : String → List String) (turns : List Turn) : Prop where
  once : ∀ before turn after name, turns = before ++ turn :: after → name ∈ turn.names words declares →
    (∀ later ∈ after, name ∉ later.names words declares) →
    ((commits words turns).texts.flatMap declares).count name = 1
  imports : (commits words turns).imports.Sublist (committed words .import turns)
  constants : (commits words turns).constants.Sublist (committed words .constant turns)
  declarations : (commits words turns).declarations.Sublist (committed words .declaration turns)

/-- Whether a turn replaces a text of its list: the first name of each is the same up to the case of its letters. -/
def Turn.replaces (words : Words) (turn : Turn) (text : String) : Bool :=
  let name := (classifyTopLevelSource words turn.source).2
  name.isSome && extractDeclName words text == name

/-- Of some texts a turn replaces only what it declares, and it declares nothing of the others. -/
def Turn.Yields (words : Words) (declares : String → List String) (turn : Turn) (texts : List String) : Prop :=
  ∀ text ∈ texts, if turn.replaces words text then declares text ⊆ turn.names words declares
    else (declares text).Disjoint (turn.names words declares)

def Turn.Apart (words : Words) (declares : String → List String) (turn : Turn) (texts : List String) : Prop :=
  ∀ text ∈ texts, (declares text).Disjoint (turn.names words declares)

/-- A turn that replaces what it declares, and nothing else. -/
structure Turn.Replaces (words : Words) (declares : String → List String) (accumulator : Accumulator) (turn : Turn) :
    Prop where
  once : (turn.names words declares).Nodup
  imports : turn.kind words = .import → trim turn.source ∈ accumulator.imports ∨ turn.Apart words declares accumulator.texts
  constants : turn.kind words = .constant → turn.Yields words declares accumulator.constants ∧
    turn.Apart words declares (accumulator.imports ++ accumulator.declarations)
  declarations : turn.kind words = .declaration → turn.Yields words declares accumulator.declarations ∧
    turn.Apart words declares (accumulator.imports ++ accumulator.constants)

section kept

variable {declares : String → List String} {turn : Turn} {accumulator : Accumulator}

/-- Each name once, and those of every turn. -/
structure Kept (words : Words) (declares : String → List String) (turns : List Turn) (accumulator : Accumulator) :
    Prop where
  nodup : (accumulator.texts.flatMap declares).Nodup
  committed : ∀ turn ∈ turns, ∀ name ∈ turn.names words declares, name ∈ accumulator.texts.flatMap declares

theorem replace_eq (texts : List String) : replace words texts (classifyTopLevelSource words turn.source).2 (trim turn.source) =
    (texts.filter fun text => !turn.replaces words text) ++ [trim turn.source] := by
  unfold replace Turn.replaces
  cases (classifyTopLevelSource words turn.source).2 with
  | none => simp
  | some name => rfl

theorem names_eq (listed : turn.isListed words = true) : turn.names words declares = declares (trim turn.source) :=
  if_pos listed

theorem replace_kept {rest same : List String} (once : (declares (trim turn.source)).Nodup)
    (names : turn.names words declares = declares (trim turn.source))
    (nodup : ((rest ++ same).flatMap declares).Nodup) (yields : turn.Yields words declares same)
    (apart : turn.Apart words declares rest) :
    ((rest ++ ((same.filter fun text => !turn.replaces words text) ++ [trim turn.source])).flatMap declares).Nodup ∧
    (∀ name ∈ (rest ++ same).flatMap declares,
      name ∈ (rest ++ ((same.filter fun text => !turn.replaces words text) ++ [trim turn.source])).flatMap declares) := by
  have shape : (rest ++ ((same.filter fun text => !turn.replaces words text) ++ [trim turn.source])).flatMap declares =
      (rest ++ same.filter fun text => !turn.replaces words text).flatMap declares ++ declares (trim turn.source) := by
    rw [← List.append_assoc, List.flatMap_append, List.flatMap_singleton]
  have fewer : (rest ++ same.filter fun text => !turn.replaces words text).Sublist (rest ++ same) :=
    List.Sublist.append (List.Sublist.refl _) List.filter_sublist
  rw [shape]
  constructor
  · refine (nodup.sublist (fewer.flatMap declares)).append once ?_
    intro name earlier own
    obtain ⟨text, listed, declared⟩ := List.mem_flatMap.1 earlier
    rw [← names] at own
    rcases List.mem_append.1 listed with other | filtered
    · exact apart text other declared own
    · obtain ⟨member, stays⟩ := List.mem_filter.1 filtered
      have yielded := yields text member
      rw [Bool.not_eq_true'] at stays
      rw [stays, if_neg Bool.false_ne_true] at yielded
      exact yielded declared own
  · intro name listed
    obtain ⟨text, member, declared⟩ := List.mem_flatMap.1 listed
    rw [List.mem_append]
    rcases List.mem_append.1 member with other | member
    · exact .inl (List.mem_flatMap.2 ⟨text, List.mem_append_left _ other, declared⟩)
    · by_cases goes : turn.replaces words text = true
      · have yielded := yields text member
        rw [if_pos goes, names] at yielded
        exact .inr (yielded declared)
      · have stays : (!turn.replaces words text) = true := by rw [Bool.eq_false_iff.2 goes]; rfl
        exact .inl (List.mem_flatMap.2 ⟨text, List.mem_append_right _ (List.mem_filter.2 ⟨member, stays⟩), declared⟩)

/-- The three lists. -/
def Accumulator.lists (accumulator : Accumulator) : List String × List String × List String :=
  (accumulator.imports, accumulator.constants, accumulator.declarations)

theorem texts_of_lists {accumulator : Accumulator} {imports constants declarations : List String}
    (lists : accumulator.lists = (imports, constants, declarations)) :
    accumulator.texts = imports ++ constants ++ declarations := by
  cases lists
  rfl

theorem commitTurn_import (accumulator : Accumulator) (kind : turn.kind words = .import) : (accumulator.commitTurn words turn).lists =
    (if accumulator.imports.contains (trim turn.source) then accumulator.imports
      else accumulator.imports ++ [trim turn.source], accumulator.constants, accumulator.declarations) := by
  unfold Turn.kind at kind
  unfold commitTurn lists
  dsimp only
  rw [kind]
  by_cases known : accumulator.imports.contains (trim turn.source) = true
  · rw [if_pos known, if_pos known]
  · rw [if_neg known, if_neg known]

theorem commitTurn_constant (kind : turn.kind words = .constant) : (accumulator.commitTurn words turn).lists =
    (accumulator.imports, (accumulator.constants.filter fun text => !turn.replaces words text) ++ [trim turn.source],
      accumulator.declarations) := by
  unfold Turn.kind at kind
  rw [← replace_eq]
  unfold commitTurn lists
  dsimp only
  rw [kind]

theorem commitTurn_declaration (kind : turn.kind words = .declaration) : (accumulator.commitTurn words turn).lists =
    (accumulator.imports, accumulator.constants,
      (accumulator.declarations.filter fun text => !turn.replaces words text) ++ [trim turn.source]) := by
  unfold Turn.kind at kind
  rw [← replace_eq]
  unfold commitTurn lists
  dsimp only
  rw [kind]

theorem commitTurn_other (other : turn.isListed words = false) :
    (accumulator.commitTurn words turn).lists = accumulator.lists := by
  unfold Turn.isListed Turn.kind at other
  unfold commitTurn lists
  dsimp only
  cases kind : (classifyTopLevelSource words turn.source).1 with
  | empty => rfl
  | other => rfl
  | «import» | constant | declaration =>
    rw [kind] at other
    cases other

theorem perm_swap (front middle back : List String) : (front ++ middle ++ back).Perm (front ++ back ++ middle) := by
  rw [List.append_assoc, List.append_assoc]
  exact List.perm_append_comm.append_left front

theorem Kept.replace {turns : List Turn} {accumulator' : Accumulator} {rest same : List String}
    (kept : Kept words declares turns accumulator) (listed : turn.isListed words = true)
    (once : (turn.names words declares).Nodup) (before : accumulator.texts.Perm (rest ++ same))
    (after : accumulator'.texts.Perm
      (rest ++ ((same.filter fun text => !turn.replaces words text) ++ [trim turn.source])))
    (yields : turn.Yields words declares same) (apart : turn.Apart words declares rest) :
    Kept words declares (turns ++ [turn]) accumulator' := by
  have names : turn.names words declares = declares (trim turn.source) := names_eq listed
  have nodup := (before.flatMap_right declares).nodup kept.nodup
  obtain ⟨nodup', members⟩ := replace_kept (names ▸ once) names nodup yields apart
  refine ⟨(after.flatMap_right declares).symm.nodup nodup', ?_⟩
  intro other member name declared
  apply (after.flatMap_right declares).mem_iff.2
  rcases List.mem_append.1 member with earlier | last
  · exact members name ((before.flatMap_right declares).mem_iff.1 (kept.committed other earlier name declared))
  · rw [List.mem_singleton.1 last, names] at declared
    exact List.mem_flatMap.2 ⟨trim turn.source, by simp, declared⟩

theorem Kept.commit {turns : List Turn} (kept : Kept words declares turns accumulator)
    (replaces : turn.Replaces words declares accumulator) :
    Kept words declares (turns ++ [turn]) (accumulator.commitTurn words turn) := by
  cases listed : turn.isListed words with
  | false =>
    have same : (accumulator.commitTurn words turn).texts = accumulator.texts := texts_of_lists (commitTurn_other listed)
    have nothing : turn.names words declares = [] := if_neg (Bool.eq_false_iff.1 listed)
    refine ⟨same ▸ kept.nodup, fun other member name declared => ?_⟩
    rw [same]
    rcases List.mem_append.1 member with earlier | last
    · exact kept.committed other earlier name declared
    · rw [List.mem_singleton.1 last, nothing] at declared
      cases declared
  | true =>
    cases kind : turn.kind words with
    | empty | other =>
      rw [Turn.isListed, kind] at listed
      cases listed
    | «import» =>
      have lists := commitTurn_import accumulator kind
      by_cases known : trim turn.source ∈ accumulator.imports
      · rw [if_pos (List.contains_iff_mem.2 known)] at lists
        have same : (accumulator.commitTurn words turn).texts = accumulator.texts := texts_of_lists lists
        refine ⟨same ▸ kept.nodup, fun other member name declared => ?_⟩
        rw [same]
        rcases List.mem_append.1 member with earlier | last
        · exact kept.committed other earlier name declared
        · rw [List.mem_singleton.1 last, names_eq listed] at declared
          exact List.mem_flatMap.2 ⟨_, List.mem_append_left _ (List.mem_append_left _ known), declared⟩
      · rw [if_neg fun contained => known (List.contains_iff_mem.1 contained)] at lists
        have apart := (replaces.imports kind).resolve_left known
        have before : accumulator.texts.Perm (accumulator.texts ++ []) := by rw [List.append_nil]
        refine kept.replace listed replaces.once before ?_ (fun text member => absurd member List.not_mem_nil) apart
        rw [texts_of_lists lists, List.filter_nil, List.nil_append]
        exact ((perm_swap _ _ _).append_right _).trans (perm_swap _ _ _)
    | constant =>
      obtain ⟨yields, apart⟩ := replaces.constants kind
      refine kept.replace listed replaces.once (perm_swap _ _ _) ?_ yields apart
      rw [texts_of_lists (commitTurn_constant kind)]
      exact perm_swap _ _ _
    | declaration =>
      obtain ⟨yields, apart⟩ := replaces.declarations kind
      refine kept.replace listed replaces.once (List.Perm.refl _) ?_ yields apart
      rw [texts_of_lists (commitTurn_declaration kind)]

/-- The lists stand in the order of their turns. -/
structure Ordered (words : Words) (turns : List Turn) (accumulator : Accumulator) : Prop where
  imports : accumulator.imports.Sublist (committed words .import turns)
  constants : accumulator.constants.Sublist (committed words .constant turns)
  declarations : accumulator.declarations.Sublist (committed words .declaration turns)

theorem committed_concat (kind : TopLevelKind) (turns : List Turn) : committed words kind (turns ++ [turn]) =
    committed words kind turns ++ if turn.kind words = kind then [trim turn.source] else [] := by
  unfold committed
  rw [List.filter_append, List.map_append]
  by_cases same : turn.kind words = kind <;> simp [same]

theorem committed_sublist (turn : Turn) (kind : TopLevelKind) (turns : List Turn) :
    (committed words kind turns).Sublist (committed words kind (turns ++ [turn])) := by
  rw [committed_concat]
  exact List.sublist_append_left _ _

theorem sublist_committed {turns : List Turn} {texts texts' : List String} {kind : TopLevelKind}
    (earlier : texts.Sublist (committed words kind turns)) (same : turn.kind words = kind) (fewer : texts'.Sublist texts) :
    (texts' ++ [trim turn.source]).Sublist (committed words kind (turns ++ [turn])) := by
  rw [committed_concat, if_pos same]
  exact (fewer.trans earlier).append (List.Sublist.refl _)

theorem Ordered.of_lists {turns : List Turn} {imports constants declarations : List String}
    (lists : accumulator.lists = (imports, constants, declarations))
    (first : imports.Sublist (committed words .import turns)) (second : constants.Sublist (committed words .constant turns))
    (third : declarations.Sublist (committed words .declaration turns)) : Ordered words turns accumulator := by
  cases lists
  exact ⟨first, second, third⟩

theorem Ordered.commit {turns : List Turn} (ordered : Ordered words turns accumulator) :
    Ordered words (turns ++ [turn]) (accumulator.commitTurn words turn) := by
  have imports := ordered.imports.trans (committed_sublist turn .import turns)
  have constants := ordered.constants.trans (committed_sublist turn .constant turns)
  have declarations := ordered.declarations.trans (committed_sublist turn .declaration turns)
  cases kind : turn.kind words with
  | empty | other =>
    exact .of_lists (commitTurn_other (by rw [Turn.isListed, kind])) imports constants declarations
  | «import» =>
    refine .of_lists (commitTurn_import accumulator kind) ?_ constants declarations
    split
    · exact imports
    · exact sublist_committed ordered.imports kind (List.Sublist.refl _)
  | constant =>
    exact .of_lists (commitTurn_constant kind) imports (sublist_committed ordered.constants kind List.filter_sublist)
      declarations
  | declaration =>
    exact .of_lists (commitTurn_declaration kind) imports constants
      (sublist_committed ordered.declarations kind List.filter_sublist)

theorem commits_concat (turns : List Turn) (turn : Turn) :
    commits words (turns ++ [turn]) = (commits words turns).commitTurn words turn := by
  rw [commits, List.foldl_append]
  rfl

theorem commits_kept {turns : List Turn} (replaces : ∀ before turn after, turns = before ++ turn :: after →
      turn.Replaces words declares (commits words before)) :
    Kept words declares turns (commits words turns) ∧ Ordered words turns (commits words turns) := by
  induction turns using List.reverseRecOn with
  | nil =>
    exact ⟨⟨List.nodup_nil, fun turn member => absurd member List.not_mem_nil⟩,
      ⟨List.nil_sublist _, List.nil_sublist _, List.nil_sublist _⟩⟩
  | append_singleton turns turn ih =>
    obtain ⟨kept, ordered⟩ := ih fun before earlier after shape =>
      replaces before earlier (after ++ [turn]) (by rw [shape, List.append_assoc, List.cons_append])
    rw [commits_concat]
    exact ⟨kept.commit (replaces turns turn [] rfl), ordered.commit⟩

end kept

/-- Turns that replace what they declare and nothing else keep what was committed. -/
theorem commits_keep (words : Words) (declares : String → List String) (turns : List Turn)
    (replaces : ∀ before turn after, turns = before ++ turn :: after →
      turn.Replaces words declares (commits words before)) : Keeps words declares turns := by
  obtain ⟨kept, ordered⟩ := commits_kept replaces
  refine ⟨?_, ordered.imports, ordered.constants, ordered.declarations⟩
  intro before turn after name shape declared _
  have member : turn ∈ turns := shape ▸ List.mem_append_right _ List.mem_cons_self
  exact List.count_eq_one_of_mem kept.nodup (kept.committed turn member name declared)

section constants

def constWords : Words := ⟨["CONST"], []⟩

def lowerTurn : Turn := ⟨"CONST a = 1", []⟩

def upperTurn : Turn := ⟨"CONST A = 2", []⟩

def otherTurn : Turn := ⟨"CONST b = 2", []⟩

def constNames (text : String) : List String :=
  if text = "CONST a = 1" then ["a"]
  else if text = "CONST A = 2" then ["A"]
  else if text = "CONST b = 2" then ["b"]
  else []

/-- A compiler for the programs of these turns. -/
def constCompiler : Compiler where
  prepare text := [new.synthesizeProgram "CONST a = 1" "",
    { new with constants := ["CONST a = 1"] : Accumulator }.synthesizeProgram "CONST A = 2" ""].contains text
  compileStatements _ _ := false

theorem forall_two {first second : Turn} {P : List Turn → Turn → Prop} (here : P [] first) (there : P [first] second) :
    ∀ before turn after, [first, second] = before ++ turn :: after → P before turn := by
  intro before turn after shape
  cases before with
  | nil =>
    cases shape
    exact here
  | cons one before =>
    cases before with
    | nil =>
      cases shape
      exact there
    | cons two before =>
      have lengths := congrArg List.length shape
      simp at lengths

theorem otherTurn_replaces : otherTurn.Replaces constWords constNames (commits constWords [lowerTurn]) := by
  have kind : otherTurn.kind constWords = .constant := by decide +kernel
  have names : otherTurn.names constWords constNames = ["b"] := by decide +kernel
  have constants : (commits constWords [lowerTurn]).constants = ["CONST a = 1"] := by decide +kernel
  have others : (commits constWords [lowerTurn]).imports ++ (commits constWords [lowerTurn]).declarations = [] := by
    decide +kernel
  have stays : otherTurn.replaces constWords "CONST a = 1" = false := by decide +kernel
  refine ⟨names ▸ List.nodup_singleton _, ?_, fun _ => ⟨?_, ?_⟩, ?_⟩
  · intro same
    rw [kind] at same
    cases same
  · intro text member
    rw [constants] at member
    have declared : constNames "CONST a = 1" = ["a"] := by decide +kernel
    rw [List.mem_singleton.1 member, stays, if_neg Bool.false_ne_true, names, declared]
    exact List.disjoint_singleton.2 (by decide)
  · intro text member
    rw [others] at member
    cases member
  · intro same
    rw [kind] at same
    cases same

theorem lowerTurn_replaces : lowerTurn.Replaces constWords constNames (commits constWords []) := by
  have kind : lowerTurn.kind constWords = .constant := by decide +kernel
  have names : lowerTurn.names constWords constNames = ["a"] := by decide +kernel
  refine ⟨names ▸ List.nodup_singleton _, ?_, fun _ => ⟨?_, ?_⟩, ?_⟩
  · intro same
    rw [kind] at same
    cases same
  · intro text member
    cases member
  · intro text member
    cases member
  · intro same
    rw [kind] at same
    cases same

theorem commits_keep_constants : Keeps constWords constNames [lowerTurn, otherTurn] :=
  commits_keep constWords constNames [lowerTurn, otherTurn] (forall_two lowerTurn_replaces otherTurn_replaces)

/-- A constant is dropped for one whose name differs in the case of its letter. -/
theorem not_commits_keep : ¬∀ (words : Words) (compiler : Compiler) (declares : String → List String) (turns : List Turn),
    Compiled words compiler turns → Keeps words declares turns := by
  intro always
  have compiled : Compiled constWords constCompiler [lowerTurn, upperTurn] :=
    forall_two (by decide +kernel) (by decide +kernel)
  have keeps := always constWords constCompiler constNames [lowerTurn, upperTurn] compiled
  have once := keeps.once [] lowerTurn [upperTurn] "a" rfl (by decide +kernel) (by decide +kernel)
  exact absurd once (by decide +kernel)

end constants

end BasicNext.Frontend.SessionAccumulator
