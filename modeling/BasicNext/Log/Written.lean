import BasicNext.Log.Record

/-!
# The text of a line

A line that is built piece by piece fails exactly when its whole text is too long; so each writer is one push
of the text it writes, and a line is that text if it is within the limit.
-/

namespace BasicNext.Log

open Lib Text

/-! ### Writers that only push -/

theorem push_bind_push (first second : String) : (push first >>= fun _ => push second) = push (first ++ second) := by
  funext line
  simp only [bind, StateT.bind, push, Except.bind]
  by_cases within : line.text.utf8ByteSize + first.utf8ByteSize ≤ maxRecordBytes
  · simp only [within, dif_pos, String.utf8ByteSize_append, String.append_assoc, Nat.add_assoc]
  · simp only [within, dif_neg, String.utf8ByteSize_append, not_false_eq_true]
    rw [dif_neg (by omega)]

theorem push_bind_assoc {α : Type} (first second : String) (rest : Unit → Writer α) :
    (push first >>= fun _ => push second >>= rest) = (push (first ++ second) >>= rest) := by
  rw [← push_bind_push, bind_assoc]

theorem pure_eq_push : (pure () : Writer Unit) = push "" := by
  funext line
  obtain ⟨text, within⟩ := line
  change Except.ok ((), Line.mk text within) = push "" (Line.mk text within)
  simp [push, within]

theorem forM_eq_push {α : Type} {l : List α} {write : α → Writer Unit} {text : α → String}
    (each : ∀ a, write a = push (text a)) : l.forM write = push (String.join (l.map text)) := by
  induction l with
  | nil => rw [List.map_nil, String.join_nil, ← pure_eq_push, List.forM_eq_forM, List.forM_nil]
  | cons a l ih =>
    rw [List.forM_eq_forM] at ih
    rw [List.forM_eq_forM, List.forM_cons, each, ih, push_bind_push, List.map_cons, String.join_cons]

/-! ### The texts -/

def jsonCharacter (character : Char) : String :=
  if character = '"' then "\\\""
  else if character = '\\' then "\\\\"
  else if character = '\n' then "\\n"
  else if character = '\r' then "\\r"
  else if character = '\t' then "\\t"
  else if isControl character then "\\u" ++ padded 16 4 character.toNat
  else String.singleton character

def jsonText (value : String) : String := "\"" ++ String.join (value.toList.map jsonCharacter) ++ "\""

theorem jsonString_eq_push (value : String) : jsonString value = push (jsonText value) := by
  have each (character : Char) :
      (if character = '"' then push "\\\""
        else if character = '\\' then push "\\\\"
        else if character = '\n' then push "\\n"
        else if character = '\r' then push "\\r"
        else if character = '\t' then push "\\t"
        else if isControl character then push ("\\u" ++ padded 16 4 character.toNat)
        else pushChar character) = push (jsonCharacter character) := by
    simp only [jsonCharacter, pushChar, ← apply_ite push]
  simp only [jsonString, forM_eq_push each, push_bind_push, jsonText, String.append_assoc]

def plainCharacter (character : Char) : String :=
  if character = '\n' ∨ character = '\r' ∨ character = '\t' then " "
  else if isControl character then "?"
  else String.singleton character

def plainText (value : String) : String := String.join (value.toList.map plainCharacter)

theorem plain_eq_push (value : String) : plain value = push (plainText value) := by
  refine forM_eq_push fun character => ?_
  simp only [plainCharacter, pushChar, ← apply_ite push]

def quotedCharacter (character : Char) : String :=
  if character = '"' then "\\\""
  else if character = '\\' then "\\\\"
  else if isControl character then
    String.join ((String.utf8EncodeChar character).map fun byte => "\\x" ++ padded 16 2 byte.toNat)
  else String.singleton character

def quotedText (value : String) : String := String.join (value.toList.map quotedCharacter)

theorem quoted_eq_push (value : String) : quoted value = push (quotedText value) := by
  refine forM_eq_push fun character => ?_
  have bytes : ((String.utf8EncodeChar character).forM fun byte => push ("\\x" ++ padded 16 2 byte.toNat))
      = push (String.join ((String.utf8EncodeChar character).map fun byte => "\\x" ++ padded 16 2 byte.toNat)) :=
    forM_eq_push fun _ => rfl
  simp only [bytes, quotedCharacter, pushChar, ← apply_ite push]

namespace Record

variable (record : Record)

/-- One field of a JSON line, with the comma in front of all but the first. -/
def jsonMember (field : (String × String) × Nat) : String :=
  (if field.2 > 0 then "," else "") ++ (jsonText field.1.1 ++ (":" ++ jsonText field.1.2))

def jsonMembers : String := String.join (record.writtenFields.zipIdx.map jsonMember)

def jsonLine : String :=
  "\x7b\"fields\":\x7b" ++ (record.jsonMembers ++ ("\x7d,\"label\":" ++ (jsonText record.label ++
    (",\"level\":" ++ (jsonText record.level.name ++ (",\"message\":" ++ (jsonText record.message ++
      (",\"timestamp\":" ++ (jsonText record.timestamp ++ "\x7d")))))))))

theorem jsonField_eq_push (field : (String × String) × Nat) : jsonField field = push (jsonMember field) := by
  unfold jsonField jsonMember
  simp only [jsonString_eq_push, push_bind_push]
  by_cases first : field.2 > 0
  · simp only [first, if_true]
  · simp only [first, if_false, String.empty_append]

theorem json_eq_push : record.json = push record.jsonLine := by
  unfold json
  simp only [jsonString_eq_push, forM_eq_push jsonField_eq_push, push_bind_push]
  rfl

def syslogMember (field : String × String) : String := " " ++ (plainText field.1 ++ ("=" ++ plainText field.2))

/-- What a SYSLOG line begins with, before the time is looked at. -/
def syslogPriority : String := "<" ++ toString (syslogFacilityUser * 8 + record.level.syslogSeverity) ++ ">1 "

/-- What follows, with or without the time of the record. -/
def syslogRest (validTime : Bool) : String :=
  (if validTime then record.timestamp else syslogNil) ++ (" " ++ ((syslogHeader record.host 255).getD syslogNil ++
    (" " ++ ((syslogHeader record.label 48).getD syslogNil ++ (" " ++ (toString record.process.toNat ++ (" " ++
      (syslogNil ++ (" " ++ (syslogNil ++ (" " ++ (plainText record.message ++
        String.join (record.writtenFields.map syslogMember)))))))))))))

theorem syslogField_eq_push (field : String × String) : syslogField field = push (syslogMember field) := by
  simp only [syslogField, plain_eq_push, push_bind_push, syslogMember]

theorem syslog_eq :
    record.syslog = push record.syslogPriority >>= fun _ =>
      orPanic (parseRfc3339 (asBytes record.timestamp)).run >>= fun time => push (record.syslogRest time.isSome) := by
  unfold syslog
  simp only [plain_eq_push, forM_eq_push syslogField_eq_push, push_bind_push]
  rfl

def request : String :=
  " ".intercalate ([record.field "http.method", record.field "http.path", record.field "http.protocol"].filterMap id)

/-- What an APACHE line begins with, before the time is looked at. -/
def apacheRemote : String :=
  plainText ((record.field "http.remote").getD apacheAbsent) ++ (" " ++ (apacheAbsent ++ (" " ++ (apacheAbsent ++ " ["))))

/-- What follows the time. -/
def apacheRest : String :=
  "] \"" ++ (quotedText (if record.request = "" then apacheAbsent else record.request) ++ ("\" " ++
    (plainText ((record.field "http.status").getD apacheAbsent) ++ (" " ++
      (plainText ((record.field "http.bytes_sent").getD apacheAbsent) ++ (" \"" ++
        (quotedText ((record.field "http.referrer").getD apacheAbsent) ++ ("\" \"" ++
          (quotedText ((record.field "http.user_agent").getD apacheAbsent) ++ "\"")))))))))

theorem apache_eq :
    record.apache = push record.apacheRemote >>= fun _ => orPanic (apacheTime record.timestamp) >>= fun time =>
      push (time.getD apacheAbsent ++ record.apacheRest) := by
  unfold apache apacheRemote apacheRest request
  simp only [plain_eq_push, quoted_eq_push, push_bind_push, push_bind_assoc]

/-! ### The outcome -/

/-- A line with this text, if it is within the limit. -/
def finished (text : String) : Except Stop String :=
  if text.utf8ByteSize ≤ maxRecordBytes then .ok text else .error (.failed recordTooLong)

def emptyLine : Line := { text := "", within := empty_within }

theorem push_run (text : String) : (fun result => result.2.text) <$> push text emptyLine = finished text := by
  by_cases within : text.utf8ByteSize ≤ maxRecordBytes
  · simp [push, finished, emptyLine, within, Functor.map, Except.map]
  · simp [push, finished, emptyLine, within, Functor.map, Except.map]

theorem push_orPanic_run {α : Type} (first : String) (call : Except Panic α) (rest : α → String) :
    (fun result => result.2.text) <$> (push first >>= fun _ => orPanic call >>= fun value => push (rest value)) emptyLine
      = call.casesOn
          (fun _ => if first.utf8ByteSize ≤ maxRecordBytes then .error .panicked else .error (.failed recordTooLong))
          (fun value => finished (first ++ rest value)) := by
  cases call with
  | ok value =>
    have run := push_run (first ++ rest value)
    rw [← push_bind_push] at run
    exact run
  | error _ =>
    by_cases within : first.utf8ByteSize ≤ maxRecordBytes
    · simp [bind, StateT.bind, push, emptyLine, within, orPanic, Except.bind, Functor.map, Except.map]
    · simp [bind, StateT.bind, push, emptyLine, within, Except.bind, Functor.map, Except.map]

theorem line_json : record.line .json = finished record.withoutQueries.jsonLine := by
  rw [← push_run, ← json_eq_push]
  rfl

theorem syslogPriority_fits : record.syslogPriority.utf8ByteSize ≤ maxRecordBytes := by
  unfold syslogPriority
  cases record.level <;> decide

theorem line_syslog :
    record.line .syslog = (parseRfc3339 (asBytes record.timestamp)).run.casesOn (fun _ => .error .panicked)
        (fun time => finished (record.withoutQueries.syslogPriority ++ record.withoutQueries.syslogRest time.isSome)) := by
  have run := push_orPanic_run record.withoutQueries.syslogPriority (parseRfc3339 (asBytes record.timestamp)).run
    (fun time => record.withoutQueries.syslogRest time.isSome)
  rw [if_pos record.withoutQueries.syslogPriority_fits] at run
  rw [← run, ← show record.withoutQueries.timestamp = record.timestamp from rfl, ← syslog_eq]
  rfl

theorem line_apache :
    record.line .apache = (apacheTime record.timestamp).casesOn
        (fun _ => if record.withoutQueries.apacheRemote.utf8ByteSize ≤ maxRecordBytes then .error .panicked
          else .error (.failed recordTooLong))
        (fun time => finished
          (record.withoutQueries.apacheRemote ++ (time.getD apacheAbsent ++ record.withoutQueries.apacheRest))) := by
  have run := push_orPanic_run record.withoutQueries.apacheRemote (apacheTime record.timestamp)
    (fun time => time.getD apacheAbsent ++ record.withoutQueries.apacheRest)
  rw [← run, ← show record.withoutQueries.timestamp = record.timestamp from rfl, ← apache_eq]
  rfl

end Record

theorem apacheTime_eq_error {timestamp : String} {panic : Panic} :
    apacheTime timestamp = .error panic ↔ (parseRfc3339 (asBytes timestamp)).run = .error panic := by
  unfold apacheTime
  cases parsed : (parseRfc3339 (asBytes timestamp)).run with
  | error _ => simp [bind, Except.bind]
  | ok time =>
    simp only [bind, Except.bind, reduceCtorEq, iff_false]
    cases time with
    | none => simp [pure, Except.pure]
    | some time =>
      simp only
      cases split time with
      | none => simp [pure, Except.pure]
      | some date =>
        simp only
        split <;> simp [pure, Except.pure]

end BasicNext.Log
