import BasicNext.Frontend.Lexer
import Mathlib.Data.Finset.Erase
import Mathlib.Data.Finset.Insert

/-!
# Frontend sessions

The snapshots of the open sources and which of them are stale (`bn_frontend::frontend_session`). Source identifiers and
revisions are `u64`; the counters saturate.
-/

namespace BasicNext.Lsp

abbrev SourceId := Nat

abbrev Revision := Nat

def maxU64 : Nat := 2 ^ 64 - 1

/-- `value.saturating_add(1).max(1)` -/
def nextNumber (value : Nat) : Nat := max (min (value + 1) maxU64) 1

structure Snapshot where
  source : SourceId
  revision : Revision
  text : String
deriving DecidableEq, Repr

structure AnalysisRequest where
  source : SourceId
  revision : Revision
deriving DecidableEq, Repr

structure FrontendSession where
  nextSource : Nat := 0
  nextRevision : SourceId → Nat := fun _ => 0
  snapshots : SourceId → Option Snapshot := fun _ => none
  /-- Each imported source with an importer. -/
  dependents : List (SourceId × SourceId) := []
  stale : Finset SourceId := ∅

namespace FrontendSession

/-- The importers of the source, and the entries of the other sources. -/
def importers (dependents : List (SourceId × SourceId)) (source : SourceId) : List SourceId :=
  (dependents.filter (·.1 == source)).map Prod.snd

def others (dependents : List (SourceId × SourceId)) (source : SourceId) : List (SourceId × SourceId) :=
  dependents.filter (!·.1 == source)

theorem length_importers (dependents : List (SourceId × SourceId)) (source : SourceId) :
    (importers dependents source).length + (others dependents source).length = dependents.length := by
  rw [importers, others, List.length_map, ← List.length_append]
  exact (List.filter_append_perm _ _).length_eq

/-- `while let Some(source) = pending.pop_front()`; the entries of a source that is stale are not read again. -/
def invalidateLoop (dependents : List (SourceId × SourceId)) (stale : Finset SourceId) : List SourceId → Finset SourceId
  | [] => stale
  | source :: pending =>
    if source ∈ stale then invalidateLoop dependents stale pending
    else
      invalidateLoop (others dependents source) (insert source stale) (pending ++ importers dependents source)
termination_by pending => dependents.length + pending.length
decreasing_by
  · simp
  · have := length_importers dependents source
    simp only [List.length_append, List.length_cons]
    omega

def invalidate (session : FrontendSession) (source : SourceId) : FrontendSession :=
  { session with stale := invalidateLoop session.dependents session.stale [source] }

/-- The source that a text is kept under; a new one where none is known. -/
def sourceFor (session : FrontendSession) (source : Option SourceId) : SourceId × Nat :=
  match source with
  | some source => (source, session.nextSource)
  | none => (nextNumber session.nextSource, nextNumber session.nextSource)

def upsert (session : FrontendSession) (source : Option SourceId) (text : String) : Snapshot × FrontendSession :=
  let (source, nextSource) := session.sourceFor source
  let revision := nextNumber (session.nextRevision source)
  let snapshot : Snapshot := ⟨source, revision, text⟩
  let existed := (session.snapshots source).isSome
  let session :=
    { session with
      nextSource
      nextRevision := Function.update session.nextRevision source revision
      snapshots := Function.update session.snapshots source (some snapshot)
      stale := session.stale.erase source }
  if existed then
    let session := session.invalidate source
    (snapshot, { session with stale := session.stale.erase source })
  else (snapshot, session)

def request (session : FrontendSession) (source : SourceId) : Option AnalysisRequest := do
  let snapshot ← session.snapshots source
  if source ∈ session.stale then none else some ⟨source, snapshot.revision⟩

def accept (session : FrontendSession) (request : AnalysisRequest) : Option Snapshot := do
  let snapshot ← session.snapshots request.source
  if snapshot.revision = request.revision ∧ request.source ∉ session.stale then some snapshot else none

def remove (session : FrontendSession) (source : SourceId) : Option Snapshot × FrontendSession :=
  let snapshot := session.snapshots source
  let session := { session with snapshots := Function.update session.snapshots source none }
  (snapshot, if snapshot.isSome then session.invalidate source else session)

/-! ### A kept text is fresh -/

variable (session : FrontendSession) (source : Option SourceId) (text : String)

theorem upsert_snapshot : (session.upsert source text).2.snapshots (session.upsert source text).1.source =
      some (session.upsert source text).1 := by
  unfold upsert
  cases existed : (session.snapshots (session.sourceFor source).1).isSome <;> simp [existed, invalidate]

theorem upsert_fresh : (session.upsert source text).1.source ∉ (session.upsert source text).2.stale := by
  unfold upsert
  cases existed : (session.snapshots (session.sourceFor source).1).isSome <;> simp [existed]

theorem request_upsert : (session.upsert source text).2.request (session.upsert source text).1.source =
      some ⟨(session.upsert source text).1.source, (session.upsert source text).1.revision⟩ := by
  rw [request, upsert_snapshot]
  exact if_neg (upsert_fresh session source text)

theorem accept_upsert : (session.upsert source text).2.accept
        ⟨(session.upsert source text).1.source, (session.upsert source text).1.revision⟩ =
      some (session.upsert source text).1 := by
  rw [accept, upsert_snapshot]
  exact if_pos ⟨rfl, upsert_fresh session source text⟩

end FrontendSession

end BasicNext.Lsp

/-!
## The language server

The message loop of `bn_lsp` after initialisation, its handlers and the publication of diagnostics. A handler that fails
ends the loop. What the frontend and the editor features compute from a text is a parameter; which document they are
asked about, and what is answered when they fail, is the server's. Messages are well formed: their parameters are
decoded. Hash maps are association lists, and writing to the client does not fail.
-/

namespace BasicNext.Lsp

/-! ### Texts and places -/

structure Position where
  line : Nat
  character : Nat
deriving DecidableEq, Repr

structure Range where
  start : Position
  stop : Position
deriving DecidableEq, Repr

/-- `u32::try_from(value.saturating_sub(1)).unwrap_or(u32::MAX)` -/
def zeroBased (value : Nat) : Nat := min (value - 1) (2 ^ 32 - 1)

def lspRange (startLine startColumn endLine endColumn : Nat) : Range :=
  ⟨⟨zeroBased startLine, zeroBased startColumn⟩, ⟨zeroBased endLine, zeroBased endColumn⟩⟩

structure SourceFile where
  name : String
  text : String
deriving DecidableEq, Repr

/-- The open documents, by the text of their URI. -/
abbrev Documents := List (String × SourceFile)

namespace Documents

def get (documents : Documents) (key : String) : Option SourceFile := List.lookup key documents

def erase (documents : Documents) (key : String) : Documents := documents.filter (·.1 != key)

def insert (documents : Documents) (key : String) (source : SourceFile) : Documents := (key, source) :: documents.erase key

def keys (documents : Documents) : List String := documents.map Prod.fst

end Documents

/-- `MAX_DOCUMENT_BYTES` -/
def maxDocumentBytes : Nat := 8 * 1024 * 1024

/-! ### Diagnostics -/

inductive Severity where
  | error | warning
deriving DecidableEq, Repr

structure LspDiagnostic where
  range : Range
  severity : Severity
  code : Option String
  source : String
  message : String
deriving DecidableEq, Repr

def oversizeDiagnostic : LspDiagnostic where
  range := lspRange 1 1 1 1
  severity := .error
  code := none
  source := "bn"
  message := "document exceeds 8 MiB"

inductive DeclarationKind where
  | function | «class» | struct | interface
deriving DecidableEq, Repr

def DeclarationKind.symbolKind : DeclarationKind → Nat
  | function => 12
  | «class» => 5
  | struct => 23
  | interface => 11

structure DocumentSymbol where
  name : String
  kind : Nat
  range : Range
  selectionRange : Range
deriving DecidableEq, Repr

structure Declaration where
  kind : DeclarationKind
  name : String
  span : Frontend.Span

def Declaration.symbol (declaration : Declaration) : DocumentSymbol :=
  let range := lspRange declaration.span.start.line declaration.span.start.column declaration.span.stop.line
    declaration.span.stop.column
  ⟨declaration.name, declaration.kind.symbolKind, range, range⟩

/-- A diagnostic of the frontend: its source, and what is published for it under a URI and an open document. -/
structure Finding where
  source : SourceId
  publish : String → Option SourceFile → LspDiagnostic

/-! ### What the server is built on -/

/-- The frontend and the editor features. -/
structure Features where
  Navigation : Type
  emptyNavigation : Navigation
  Completion : Type
  Location : Type
  FoldingRange : Type
  words : Frontend.Words
  /-- The declarations of a program, in order; or why it does not parse. -/
  parse : List Frontend.Token → String → Except String (List Declaration)
  completionItems : SourceFile → Position → Documents → List Completion
  hover : Navigation → String → Position → Option String
  definition : Navigation → String → Position → List Location
  references : Navigation → String → Position → Bool → List Location
  foldingRanges : SourceFile → List FoldingRange
  /-- The texts that are URIs. -/
  isUri : String → Bool
  /-- `file_uri_to_path`, then the canonical path where the file system knows one. -/
  canonicalPath : String → Option String
  sourceOfPath : String → SourceId
  /-- Loading, semantic analysis and lowering of the entry with the open documents over the files. -/
  check : String → Documents → FrontendSession → List Finding × Navigation × FrontendSession

variable (features : Features)

/-- `lsp_types::Uri`: parsing a text and printing it again gives the text. -/
abbrev Uri := {text : String // features.isUri text = true}

variable {features}

def parseUri (text : String) : Option (Uri features) :=
  if valid : features.isUri text = true then some ⟨text, valid⟩ else none

/-! ### Messages -/

inductive RequestId where
  | number (value : Int)
  | text (value : String)
deriving DecidableEq, Repr

variable (features) in
inductive RequestKind where
  | shutdown
  | completion (uri : Uri features) (position : Position)
  | definition (uri : Uri features) (position : Position)
  | references (uri : Uri features) (position : Position) (includeDeclaration : Bool)
  | hover (uri : Uri features) (position : Position)
  | documentSymbol (uri : Uri features)
  | foldingRange (uri : Uri features)
  | other (method : String)

variable (features) in
inductive Message where
  | request (id : RequestId) (kind : RequestKind features)
  | exit
  | didOpen (uri : Uri features) (text : String)
  | didChange (uri : Uri features) (contentChanges : List String)
  | didClose (uri : Uri features)
  /-- Other notifications, and responses. -/
  | other (method : String)

variable (features) in
inductive Result where
  | null
  | completions (items : List features.Completion)
  | hover (text : Option String)
  | locations (locations : List features.Location)
  | symbols (symbols : List DocumentSymbol)
  | ranges (ranges : List features.FoldingRange)

structure ResponseError where
  code : Int
  message : String
deriving DecidableEq, Repr

variable (features) in
inductive Outgoing where
  | response (id : RequestId) (result : Except ResponseError (Result features))
  | publishDiagnostics (uri : Uri features) (diagnostics : List LspDiagnostic)

/-- Why a handler ends the loop. -/
inductive Failure where
  | lexer (diagnostic : Frontend.Diagnostic)
  | parser (message : String)
  | staleSnapshot
  | invalidUri
deriving DecidableEq, Repr

variable (features) in
structure Server where
  documents : Documents := []
  sourceIds : String → Option SourceId := fun _ => none
  session : FrontendSession := {}
  navigation : features.Navigation := features.emptyNavigation

namespace Server

variable (server : Server features)

/-! ### Requests -/

def documentSymbols (uri : Uri features) : Except Failure (List DocumentSymbol) :=
  match server.documents.get uri with
  | none => .ok []
  | some source =>
    match Frontend.lex features.words source.text with
    | .error diagnostic => .error (.lexer diagnostic)
    | .ok tokens =>
      match features.parse tokens source.name with
      | .error message => .error (.parser message)
      | .ok declarations => .ok (declarations.map Declaration.symbol)

/-- The answer to a request; the server itself stays as it is. -/
def respond : RequestKind features → Except Failure (Except ResponseError (Result features))
  | .shutdown => .ok (.ok .null)
  | .completion uri position =>
    .ok (.ok (.completions
      (((server.documents.get uri).map fun source => features.completionItems source position server.documents).getD [])))
  | .definition uri position => .ok (.ok (.locations (features.definition server.navigation uri position)))
  | .references uri position includeDeclaration =>
    .ok (.ok (.locations (features.references server.navigation uri position includeDeclaration)))
  | .hover uri position => .ok (.ok (.hover (features.hover server.navigation uri position)))
  | .documentSymbol uri => do
    let symbols ← server.documentSymbols uri
    return .ok (.symbols symbols)
  | .foldingRange uri => .ok (.ok (.ranges (((server.documents.get uri).map features.foldingRanges).getD [])))
  | .other _ => .ok (.error ⟨-32601, "method not implemented"⟩)

/-! ### Publication of diagnostics -/

/-- Diagnostics by the URI of the open document that owns them. -/
abbrev Diagnostics := List (String × List LspDiagnostic)

/-- `result.entry(uri).or_default().push(published)` -/
def push (diagnostics : Diagnostics) (uri : String) (published : LspDiagnostic) : Diagnostics :=
  if diagnostics.any (·.1 == uri) then
    diagnostics.map fun (key, list) => if key == uri then (key, list ++ [published]) else (key, list)
  else diagnostics ++ [(uri, [published])]

variable (features) in
/-- The open document that a source belongs to: by its own path, or by the path of the entry. -/
def owner (documents : Documents) (target : String) (source : SourceId) : Option String :=
  let known := documents.keys.find? fun key =>
    match (parseUri key : Option (Uri features)), features.canonicalPath key with
    | some _, some path => features.sourceOfPath path == source
    | _, _ => false
  known <|>
    if source = features.sourceOfPath target then
      documents.keys.find? fun key => features.canonicalPath key == some target
    else none

variable (features) in
/-- `add` -/
def addFinding (documents : Documents) (target : String) (diagnostics : Diagnostics) (finding : Finding) : Diagnostics :=
  match owner features documents target finding.source with
  | none => diagnostics
  | some uri =>
    if features.isUri uri then push diagnostics uri (finding.publish uri (documents.get uri)) else diagnostics

variable (features) in
/-- `analyze_documents` -/
def analyzeDocuments (target : String) (documents : Documents) (session : FrontendSession) :
    Diagnostics × features.Navigation × FrontendSession :=
  let (findings, navigation, session) := features.check target documents session
  let initial := documents.keys.filterMap fun key => (parseUri key : Option (Uri features)).map fun uri => (uri.1, [])
  (findings.foldl (addFinding features documents target) initial, navigation, session)

/-- `for (open_uri, diagnostics) in analyzed.diagnostics` -/
def publications : Diagnostics → Except Failure (List (Outgoing features))
  | [] => .ok []
  | (uri, diagnostics) :: rest =>
    match parseUri uri with
    | none => .error .invalidUri
    | some uri => do
      let published ← publications rest
      return .publishDiagnostics uri diagnostics :: published

/-- `publish` -/
def publish (uri : Uri features) (text : String) : Except Failure (Server features × List (Outgoing features)) := do
  let (snapshot, session) := server.session.upsert (server.sourceIds uri) text
  let server := { server with session, sourceIds := Function.update server.sourceIds uri (some snapshot.source) }
  match session.request snapshot.source with
  | none => .error .staleSnapshot
  | some request =>
    if maxDocumentBytes < text.utf8ByteSize then
      let server := { server with navigation := features.emptyNavigation }
      match session.accept request with
      | none => return (server, [])
      | some _ => return (server, [.publishDiagnostics uri [oversizeDiagnostic]])
    else
      let server := { server with documents := server.documents.insert uri ⟨uri, text⟩ }
      match session.accept request with
      | none => return (server, [])
      | some _ =>
        match features.canonicalPath uri with
        | none => return (server, [])
        | some entry =>
          let (diagnostics, navigation, session) := analyzeDocuments features entry server.documents session
          let published ← publications diagnostics
          return ({ server with navigation, session }, published)

/-- `textDocument/didClose` -/
def close (uri : Uri features) : Server features × List (Outgoing features) :=
  let session := match server.sourceIds uri with
    | some source => (server.session.remove source).2
    | none => server.session
  ({ server with
      documents := server.documents.erase uri
      sourceIds := Function.update server.sourceIds uri none
      session },
    [.publishDiagnostics uri []])

/-! ### The loop -/

/-- One message other than `exit`. -/
def handle : Message features → Except Failure (Server features × List (Outgoing features))
  | .request id kind => do
    let result ← server.respond kind
    return (server, [.response id result])
  | .didOpen uri text => server.publish uri text
  | .didChange uri contentChanges =>
    match contentChanges.getLast? with
    | none => .ok (server, [])
    | some text => server.publish uri text
  | .didClose uri => .ok (server.close uri)
  | .exit | .other _ => .ok (server, [])

end Server

/-- How the loop ends. -/
inductive Ending where
  | exit
  | endOfInput
  /-- The reader refused a message, and nothing more is read. -/
  | refused
  | failed (failure : Failure)
deriving DecidableEq, Repr

/-- `for message in &connection.receiver`, over the messages that arrive before the channel closes. -/
def Server.serve (closing : Ending) : Server features → List (Message features) → List (Outgoing features) × Ending
  | _, [] => ([], closing)
  | _, .exit :: _ => ([], .exit)
  | server, message :: messages =>
    match server.handle message with
    | .error failure => ([], .failed failure)
    | .ok (server, sent) =>
      let (later, ending) := serve closing server messages
      (sent ++ later, ending)

variable (features) in
/-- A message, and the bytes of its payload. -/
structure Frame where
  length : Nat
  message : Message features

/-- The reader thread: it stops after `exit`, and at a payload over the limit. -/
def readAll : List (Frame features) → List (Message features) × Ending
  | [] => ([], .endOfInput)
  | frame :: frames =>
    if maxDocumentBytes < frame.length then ([], .refused)
    else
      match frame.message with
      | .exit => ([.exit], .endOfInput)
      | message =>
        let (messages, closing) := readAll frames
        (message :: messages, closing)

/-- What the server sends after initialisation, and how it ends. -/
def runStdio (frames : List (Frame features)) : List (Outgoing features) × Ending :=
  let (messages, closing) := readAll frames
  Server.serve closing {} messages

end BasicNext.Lsp
