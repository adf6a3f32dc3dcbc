import BasicNext.Lsp.Server

/-!
# Answers to requests

Every request is answered once and in order as long as the loop runs, and the loop ends early in two cases only: the
symbols of a document are asked for whose text does not lex or parse, and a message is over the limit of the transport.
No other handler fails: a text that was just kept is fresh, and diagnostics are kept for texts that are URIs.
-/

namespace BasicNext.Lsp

variable {features : Features}

/-! ### What is asked and answered -/

namespace Message

def isExit : Message features → Bool
  | .exit => true
  | _ => false

def requestId : Message features → Option RequestId
  | .request id _ => some id
  | _ => none

end Message

def Outgoing.responseId : Outgoing features → Option RequestId
  | .response id _ => some id
  | .publishDiagnostics _ _ => none

/-- The requests before `exit`. -/
def requested (frames : List (Frame features)) : List RequestId :=
  ((frames.map Frame.message).takeWhile fun message => !message.isExit).filterMap Message.requestId

/-- Every request before `exit` gets one response, in order, and the loop ends on `exit` or at the end of the input. -/
structure Answered (frames : List (Frame features)) : Prop where
  responses : (runStdio frames).1.filterMap Outgoing.responseId = requested frames
  ended : (runStdio frames).2 = .exit ∨ (runStdio frames).2 = .endOfInput

namespace Documents

/-- A text over the limit is not kept. -/
def keep (documents : Documents) (uri text : String) : Documents :=
  if maxDocumentBytes < text.utf8ByteSize then documents else documents.insert uri ⟨uri, text⟩

def after (documents : Documents) : Message features → Documents
  | .didOpen uri text => keep documents uri text
  | .didChange uri contentChanges => (contentChanges.getLast?.map (keep documents uri)).getD documents
  | .didClose uri => documents.erase uri
  | _ => documents

end Documents

def Legible (features : Features) (source : SourceFile) : Prop :=
  ∃ tokens declarations,
    Frontend.lex features.words source.text = .ok tokens ∧ features.parse tokens source.name = .ok declarations

/-- The symbols are asked for of no document that does not lex or parse. -/
def Message.Fits (documents : Documents) : Message features → Prop
  | .request _ (.documentSymbol uri) => ∀ source, documents.get uri = some source → Legible features source
  | _ => True

/-- Up to `exit`, every message is within the limit and fits the documents that are open. -/
def Admissible : Documents → List (Frame features) → Prop
  | _, [] => True
  | documents, frame :: frames =>
    frame.length ≤ maxDocumentBytes ∧ (frame.message.isExit = true ∨
        frame.message.Fits documents ∧ Admissible (documents.after frame.message) frames)

/-! ### Publication never fails -/

namespace Server

theorem parseUri_valid {text : String} (valid : features.isUri text = true) : parseUri text = some (⟨text, valid⟩ : Uri features) :=
  dif_pos valid

theorem publications_ok {diagnostics : Diagnostics} (valid : ∀ entry ∈ diagnostics, features.isUri entry.1 = true) :
    ∃ published : List (Outgoing features), publications diagnostics = .ok published ∧
      published.filterMap Outgoing.responseId = [] := by
  induction diagnostics with
  | nil => exact ⟨[], rfl, rfl⟩
  | cons entry rest ih =>
    obtain ⟨published, ok, none⟩ := ih fun entry member => valid entry (List.mem_cons_of_mem _ member)
    refine ⟨.publishDiagnostics ⟨entry.1, valid entry List.mem_cons_self⟩ entry.2 :: published, ?_, none⟩
    rw [publications, parseUri_valid (valid entry List.mem_cons_self), ok]
    rfl

theorem push_valid {diagnostics : Diagnostics} {uri : String} {published : LspDiagnostic}
    (known : features.isUri uri = true) (valid : ∀ entry ∈ diagnostics, features.isUri entry.1 = true) :
    ∀ entry ∈ push diagnostics uri published, features.isUri entry.1 = true := by
  intro entry member
  rw [push] at member
  split at member
  · obtain ⟨⟨key, list⟩, old, rfl⟩ := List.mem_map.1 member
    have := valid _ old
    dsimp only
    split <;> exact this
  · obtain old | rfl := by simpa using member
    · exact valid _ old
    · exact known

theorem addFinding_valid {documents : Documents} {target : String} {diagnostics : Diagnostics} {finding : Finding}
    (valid : ∀ entry ∈ diagnostics, features.isUri entry.1 = true) :
    ∀ entry ∈ addFinding features documents target diagnostics finding, features.isUri entry.1 = true := by
  rw [addFinding]
  split
  · exact valid
  · split
    · exact push_valid ‹_› valid
    · exact valid

theorem foldl_addFinding_valid {documents : Documents} {target : String} {findings : List Finding}
    {diagnostics : Diagnostics} (valid : ∀ entry ∈ diagnostics, features.isUri entry.1 = true) :
    ∀ entry ∈ findings.foldl (addFinding features documents target) diagnostics, features.isUri entry.1 = true := by
  induction findings generalizing diagnostics with
  | nil => exact valid
  | cons finding findings ih => exact ih (addFinding_valid valid)

theorem analyzeDocuments_valid (target : String) (documents : Documents) (session : FrontendSession) :
    ∀ entry ∈ (analyzeDocuments features target documents session).1, features.isUri entry.1 = true := by
  refine foldl_addFinding_valid fun entry member => ?_
  obtain ⟨key, -, parsed⟩ := List.mem_filterMap.1 member
  obtain ⟨uri, -, rfl⟩ := Option.map_eq_some_iff.1 parsed
  exact uri.2

variable (server : Server features)

theorem publish_ok (uri : Uri features) (text : String) :
    ∃ next sent, server.publish uri text = .ok (next, sent) ∧
      next.documents = server.documents.keep uri text ∧ sent.filterMap Outgoing.responseId = [] := by
  simp only [publish, FrontendSession.request_upsert, FrontendSession.accept_upsert, Documents.keep]
  split
  · exact ⟨_, _, rfl, rfl, rfl⟩
  · cases features.canonicalPath uri with
    | none => exact ⟨_, _, rfl, rfl, rfl⟩
    | some entry =>
      obtain ⟨published, ok, none⟩ := publications_ok (analyzeDocuments_valid entry
        (server.documents.insert uri ⟨uri, text⟩) (server.session.upsert (server.sourceIds uri) text).2)
      exact ⟨_, _, by simp only [ok]; rfl, rfl, none⟩

/-! ### One message -/

theorem documentSymbols_ok_iff (uri : Uri features) : (∃ symbols, server.documentSymbols uri = .ok symbols) ↔
      ∀ source, server.documents.get uri = some source → Legible features source := by
  rw [documentSymbols]
  cases server.documents.get uri with
  | none => simp
  | some source =>
    simp only [Option.some.injEq, forall_eq', Legible]
    cases Frontend.lex features.words source.text with
    | error diagnostic => simp
    | ok tokens => cases parsed : features.parse tokens source.name <;> simp [parsed]

theorem handle_ok {message : Message features} {next : Server features} {sent : List (Outgoing features)}
    (ok : server.handle message = .ok (next, sent)) :
    sent.filterMap Outgoing.responseId = message.requestId.toList ∧ next.documents = server.documents.after message := by
  cases message with
  | request id kind =>
    rw [handle] at ok
    cases respond : server.respond kind with
    | error failure => simp [respond] at ok
    | ok result =>
      rw [respond] at ok
      obtain ⟨rfl, rfl⟩ := Prod.mk.inj (Except.ok.inj ok)
      exact ⟨rfl, rfl⟩
  | didOpen uri text =>
    obtain ⟨server', sent', published, documents, none⟩ := server.publish_ok uri text
    obtain ⟨rfl, rfl⟩ := Prod.mk.inj (Except.ok.inj (published.symm.trans ok))
    exact ⟨none, documents⟩
  | didChange uri contentChanges =>
    rw [handle] at ok
    rw [Documents.after]
    cases last : contentChanges.getLast? with
    | none =>
      rw [last] at ok
      obtain ⟨rfl, rfl⟩ := Prod.mk.inj (Except.ok.inj ok)
      exact ⟨rfl, rfl⟩
    | some text =>
      obtain ⟨server', sent', published, documents, none⟩ := server.publish_ok uri text
      rw [last] at ok
      obtain ⟨rfl, rfl⟩ := Prod.mk.inj (Except.ok.inj (published.symm.trans ok))
      exact ⟨none, documents⟩
  | didClose uri | exit | other =>
    obtain ⟨rfl, rfl⟩ := Prod.mk.inj (Except.ok.inj ok)
    exact ⟨rfl, rfl⟩

theorem handle_isOk_iff (message : Message features) :
    (∃ outcome, server.handle message = .ok outcome) ↔ message.Fits server.documents := by
  cases message with
  | request id kind =>
    rw [handle]
    cases kind with
    | documentSymbol uri =>
      rw [Message.Fits, ← server.documentSymbols_ok_iff uri, respond]
      cases server.documentSymbols uri <;> simp
    | shutdown | completion | definition | references | hover | foldingRange | other =>
      exact iff_of_true ⟨_, rfl⟩ trivial
  | didOpen uri text =>
    obtain ⟨server', sent, published, -⟩ := server.publish_ok uri text
    exact iff_of_true ⟨_, published⟩ trivial
  | didChange uri contentChanges =>
    refine iff_of_true ?_ trivial
    rw [handle]
    cases contentChanges.getLast? with
    | none => exact ⟨_, rfl⟩
    | some text =>
      obtain ⟨server', sent, published, -⟩ := server.publish_ok uri text
      exact ⟨_, published⟩
  | didClose | exit | other => exact iff_of_true ⟨_, rfl⟩ trivial

/-! ### The run -/

theorem serve_cons {closing : Ending} {message : Message features} (further : message.isExit = false)
    (messages : List (Message features)) :
    server.serve closing (message :: messages) = match server.handle message with
      | .error failure => ([], .failed failure)
      | .ok (server, sent) => (sent ++ (server.serve closing messages).1, (server.serve closing messages).2) := by
  cases message with
  | exit => simp [Message.isExit] at further
  | request | didOpen | didChange | didClose | other => rfl

end Server

theorem readAll_cons {frame : Frame features} {frames : List (Frame features)} (small : frame.length ≤ maxDocumentBytes)
    (further : frame.message.isExit = false) :
    readAll (frame :: frames) = (frame.message :: (readAll frames).1, (readAll frames).2) := by
  rw [readAll, if_neg (Nat.not_lt.2 small)]
  cases message : frame.message with
  | exit => simp [message, Message.isExit] at further
  | request | didOpen | didChange | didClose | other => rfl

theorem requested_cons {frame : Frame features} (frames : List (Frame features)) (further : frame.message.isExit = false) :
    requested (frame :: frames) = frame.message.requestId.toList ++ requested frames := by
  rw [requested, List.map_cons, List.takeWhile_cons_of_pos (by simp [further]), requested]
  cases id : frame.message.requestId <;> simp [id]

theorem serve_answers_iff (server : Server features) (frames : List (Frame features)) :
    (server.serve (readAll frames).2 (readAll frames).1).1.filterMap Outgoing.responseId = requested frames ∧
        ((server.serve (readAll frames).2 (readAll frames).1).2 = .exit ∨
          (server.serve (readAll frames).2 (readAll frames).1).2 = .endOfInput) ↔
      Admissible server.documents frames := by
  induction frames generalizing server with
  | nil => exact iff_of_true ⟨rfl, .inr rfl⟩ trivial
  | cons frame frames ih =>
    rw [Admissible]
    by_cases small : frame.length ≤ maxDocumentBytes
    swap
    · rw [readAll, if_pos (Nat.not_le.1 small)]
      exact iff_of_false (by rintro ⟨-, ended | ended⟩ <;> cases ended) fun admissible => small admissible.1
    cases further : frame.message.isExit with
    | true =>
      refine iff_of_true ?_ ⟨small, .inl rfl⟩
      rw [readAll, if_neg (Nat.not_lt.2 small), requested, List.map_cons, List.takeWhile_cons_of_neg (by simp [further])]
      cases message : frame.message with
      | exit => exact ⟨rfl, .inl rfl⟩
      | request | didOpen | didChange | didClose | other => simp [message, Message.isExit] at further
    | false =>
      rw [readAll_cons small further, server.serve_cons further, requested_cons frames further, ← server.handle_isOk_iff]
      cases outcome : server.handle frame.message with
      | error failure =>
        refine iff_of_false ?_ ?_
        · rintro ⟨-, ended | ended⟩ <;> cases ended
        · rintro ⟨-, exit | ⟨⟨_, ok⟩, -⟩⟩
          · exact absurd exit (by simp)
          · exact absurd ok (by simp)
      | ok result =>
        obtain ⟨next, sent⟩ := result
        obtain ⟨answers, documents⟩ := server.handle_ok outcome
        rw [List.filterMap_append, answers, List.append_cancel_left_eq, ih next, documents]
        simp [small]

/-- All requests are answered exactly if every message is within the limit and the symbols are asked for of no
document that does not lex or parse. -/
theorem answered_iff (frames : List (Frame features)) : Answered frames ↔ Admissible [] frames := by
  rw [← serve_answers_iff {} frames]
  exact ⟨fun answered => ⟨answered.responses, answered.ended⟩, fun answered => ⟨answered.1, answered.2⟩⟩

/-! ### A document that does not lex -/

/-- An editor without a file system. -/
def untitledFeatures : Features where
  Navigation := Unit
  emptyNavigation := ()
  Completion := String
  Location := String
  FoldingRange := String
  words := ⟨[], []⟩
  parse _ _ := .ok []
  completionItems _ _ _ := []
  hover _ _ _ := none
  definition _ _ _ := []
  references _ _ _ _ := []
  foldingRanges _ := []
  isUri text := text == "untitled:Untitled-1"
  canonicalPath _ := none
  sourceOfPath _ := 0
  check _ _ session := ([], (), session)

def untitled : Uri untitledFeatures := ⟨"untitled:Untitled-1", by simp [untitledFeatures]⟩

def openString : List (Frame untitledFeatures) :=
  [⟨200, .didOpen untitled "\""⟩, ⟨150, .request (.number 1) (.documentSymbol untitled)⟩, ⟨50, .exit⟩]

/-- The request is not answered, and the server ends before `exit`. -/
theorem openString_unanswered : ¬Answered openString := by
  rw [answered_iff]
  rintro ⟨-, exit | ⟨-, -, exit | ⟨fits, -⟩⟩⟩
  · exact absurd exit (by simp [Message.isExit])
  · exact absurd exit (by simp [Message.isExit])
  · have opened : (Documents.after [] (.didOpen untitled "\"")).get untitled.1 = some ⟨"untitled:Untitled-1", "\""⟩ := rfl
    have unlexed : ∀ tokens, Frontend.lex ⟨[], []⟩ "\"" ≠ .ok tokens := by
      intro tokens lexed
      cases lexed
    obtain ⟨tokens, declarations, lexed, -⟩ := fits _ opened
    exact unlexed tokens lexed

end BasicNext.Lsp
