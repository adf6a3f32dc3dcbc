import BasicNext.Lib.SplitOnce
import BasicNext.Text.Temporal
import Mathlib.Data.String.Basic

/-!
# Log records

`Record::line` of the log library: one record as one line of text in the formats JSON, SYSLOG and APACHE. A
line is built piece by piece and stays within a limit; fields with a sensitive key are not written. The texts
of the catalogue that the writers use are constants here.
-/

namespace BasicNext.Log

open Lib Text

def maxRecordBytes : Nat := 64 * 1024

def recordTooLong : String := "serialized log record exceeds 64 KiB"

/-! ### Levels and records -/

inductive Level where
  | error
  | warn
  | info
  | http
  | verbose
  | debug
  | silly
deriving DecidableEq, Repr

def Level.syslogSeverity : Level → Nat
  | .error => 3
  | .warn => 4
  | .info | .http => 6
  | .verbose | .debug | .silly => 7

def Level.name : Level → String
  | .error => "ERROR"
  | .warn => "WARN"
  | .info => "INFO"
  | .http => "HTTP"
  | .verbose => "VERBOSE"
  | .debug => "DEBUG"
  | .silly => "SILLY"

/-- A map from texts to texts in the order of its keys. -/
structure Fields where
  entries : List (String × String)
  sorted : entries.Pairwise fun first second => first.1 < second.1

namespace Fields

def get? (fields : Fields) (key : String) : Option String := (fields.entries.find? fun entry => entry.1 == key).map Prod.snd

/-- What `get_mut` is used for: the value of a key, if it is there, is replaced. -/
def modify (fields : Fields) (key : String) (change : String → String) : Fields where
  entries := fields.entries.map fun entry => if entry.1 = key then (entry.1, change entry.2) else entry
  sorted := by
    rw [List.pairwise_map]
    refine fields.sorted.imp fun before => ?_
    split <;> split <;> exact before

end Fields

structure Record where
  timestamp : String
  label : String
  level : Level
  message : String
  fields : Fields
  host : String
  process : UInt32

inductive Format where
  | json
  | syslog
  | apache
deriving DecidableEq, Repr

/-! ### Characters -/

/-- `char::is_control`: the general category `Cc`. -/
def isControl (c : Char) : Bool := c.toNat < 0x20 || (0x7F ≤ c.toNat && c.toNat < 0xA0)

/-- `char::is_whitespace`: the property `White_Space`. -/
def isWhitespace (c : Char) : Bool :=
  (9 ≤ c.toNat && c.toNat ≤ 13) || c.toNat == 0x20 || c.toNat == 0x85 || c.toNat == 0xA0 || c.toNat == 0x1680
    || (0x2000 ≤ c.toNat && c.toNat ≤ 0x200A) || c.toNat == 0x2028 || c.toNat == 0x2029 || c.toNat == 0x202F
    || c.toNat == 0x205F || c.toNat == 0x3000

def toAsciiLowercase (c : Char) : Char :=
  if 'A' ≤ c ∧ c ≤ 'Z' then Char.ofNat (c.toNat + 32) else c

/-- `{n:0width}` in the given base, of a number that is not negative. -/
def padded (base width n : Nat) : String :=
  let digits := Nat.toDigits base n
  String.ofList (List.replicate (width - digits.length) '0' ++ digits)

/-! ### Sensitive keys -/

def sensitiveExact : List String := ["query", "body", "passwd", "tls_key"]

def sensitiveMarker : List String :=
  ["authorization", "cookie", "session", "password", "secret", "token", "api_key", "apikey", "access_key",
    "private_key", "credential", "bearer", "jwt", "signature"]

/-- The inner loop of `sensitive_segments`: the segments from a start on, joined one by one. -/
def joinsToName (names : List (List Char)) (joined : List Char) (offset : Nat) : List (List Char) → Bool
  | [] => false
  | segment :: rest =>
    let joined := (if offset ≠ 0 then joined ++ ['_'] else joined) ++ segment
    names.contains joined || joinsToName names joined (offset + 1) rest

def sensitiveSegments (normalized : List Char) : Bool :=
  let segments := (normalized.splitOnP fun c => c == '_').filter fun segment => segment ≠ []
  let names := sensitiveExact.map String.toList
  (List.range segments.length).any fun start => joinsToName names [] 0 (segments.drop start)

def normalizeKey (c : Char) : Char :=
  match toAsciiLowercase c with
  | '-' | '.' => '_'
  | c => c

def isSensitive (key : String) : Bool :=
  let normalized := key.toList.map normalizeKey
  sensitiveMarker.any (fun marker => normalized.tails.any (marker.toList.isPrefixOf ·)) || sensitiveSegments normalized

def withoutQuery (value : String) : String :=
  let parts := (value.toList.splitOnP isWhitespace).filter fun part => part ≠ []
  let paths := parts.map fun part =>
    match splitOnce ['?'] part with
    | some (path, _) => path
    | none => part
  " ".intercalate (paths.map String.ofList)

/-! ### Lines -/

/-- A failure that `line` returns, or a panic. -/
inductive Stop where
  | failed (message : String)
  | panicked
deriving DecidableEq, Repr

/-- A line under construction. -/
structure Line where
  text : String
  within : text.utf8ByteSize ≤ maxRecordBytes

theorem empty_within : "".utf8ByteSize ≤ maxRecordBytes := by decide

/-- The state is the line that `&mut Line` stands for. -/
abbrev Writer := StateT Line (Except Stop)

def push (part : String) : Writer Unit := fun line =>
  if within : line.text.utf8ByteSize + part.utf8ByteSize ≤ maxRecordBytes then
    .ok ((), { text := line.text ++ part, within := String.utf8ByteSize_append ▸ within })
  else .error (.failed recordTooLong)

def pushChar (c : Char) : Writer Unit := push (String.singleton c)

def jsonString (value : String) : Writer Unit := do
  push "\""
  value.toList.forM fun character =>
    if character = '"' then push "\\\""
    else if character = '\\' then push "\\\\"
    else if character = '\n' then push "\\n"
    else if character = '\r' then push "\\r"
    else if character = '\t' then push "\\t"
    else if isControl character then push ("\\u" ++ padded 16 4 character.toNat)
    else pushChar character
  push "\""

/-- Text outside quotes. -/
def plain (value : String) : Writer Unit :=
  value.toList.forM fun character =>
    if character = '\n' ∨ character = '\r' ∨ character = '\t' then push " "
    else if isControl character then push "?"
    else pushChar character

/-- Text inside an Apache quoted field. -/
def quoted (value : String) : Writer Unit :=
  value.toList.forM fun character =>
    if character = '"' then push "\\\""
    else if character = '\\' then push "\\\\"
    else if isControl character then
      (String.utf8EncodeChar character).forM fun byte => push ("\\x" ++ padded 16 2 byte.toNat)
    else pushChar character

/-- The result of a function that may panic. -/
def orPanic {α : Type} (result : Except Panic α) : Writer α := fun line =>
  match result with
  | .ok value => .ok (value, line)
  | .error _ => .error .panicked

/-! ### Formats -/

def syslogNil : String := "-"

def syslogFacilityUser : Nat := 1

/-- A header field of SYSLOG, or nothing. -/
def syslogHeader (value : String) (max : Nat) : Option String :=
  if value ≠ "" ∧ value.utf8ByteSize ≤ max ∧ (asBytes value).all (fun byte => 33 ≤ byte && byte ≤ 126) then some value
  else none

def apacheAbsent : String := "-"

def apacheZone : String := "+0000"

def apacheMonth : List String := ["Jan", "Feb", "Mar", "Apr", "May", "Jun", "Jul", "Aug", "Sep", "Oct", "Nov", "Dec"]

/-- `dd/Mon/yyyy:HH:MM:SS +0000`. -/
def apacheTime (timestamp : String) : Except Panic (Option String) := do
  match ← (parseRfc3339 (asBytes timestamp)).run with
  | none => return none
  | some time =>
    match split time with
    | none => return none
    | some (days, millis) =>
      let date := civilFromDays days
      match apacheMonth[(date.month - 1).toNat]? with
      | none => return none
      | some month =>
        let seconds := millis / 1000
        return some (padded 10 2 date.day.toNat ++ "/" ++ month ++ "/" ++ padded 10 4 date.year.toNat ++ ":"
          ++ padded 10 2 (seconds / 3600).toNat ++ ":" ++ padded 10 2 (seconds / 60 % 60).toNat ++ ":"
          ++ padded 10 2 (seconds % 60).toNat ++ " " ++ apacheZone)

namespace Record

variable (record : Record)

def withoutQueries : Record :=
  { record with fields := (record.fields.modify "http.path" withoutQuery).modify "http.referrer" withoutQuery }

def writtenFields : List (String × String) := record.fields.entries.filter fun entry => !isSensitive entry.1

/-- The body of the loop over the fields. -/
def jsonField (field : (String × String) × Nat) : Writer Unit := do
  if field.2 > 0 then push ","
  jsonString field.1.1
  push ":"
  jsonString field.1.2

def json : Writer Unit := do
  push "\x7b\"fields\":\x7b"
  record.writtenFields.zipIdx.forM jsonField
  push "\x7d,\"label\":"
  jsonString record.label
  push ",\"level\":"
  jsonString record.level.name
  push ",\"message\":"
  jsonString record.message
  push ",\"timestamp\":"
  jsonString record.timestamp
  push "\x7d"

def syslogField (field : String × String) : Writer Unit := do
  push " "
  plain field.1
  push "="
  plain field.2

def syslog : Writer Unit := do
  let priority := syslogFacilityUser * 8 + record.level.syslogSeverity
  push ("<" ++ toString priority ++ ">1 ")
  let validTime := (← orPanic (parseRfc3339 (asBytes record.timestamp)).run).isSome
  push (if validTime then record.timestamp else syslogNil)
  push " "
  push ((syslogHeader record.host 255).getD syslogNil)
  push " "
  push ((syslogHeader record.label 48).getD syslogNil)
  push " "
  push (toString record.process.toNat)
  push " "
  push syslogNil
  push " "
  push syslogNil
  push " "
  plain record.message
  record.writtenFields.forM syslogField

/-- The value of a field that is there and not empty. -/
def field (key : String) : Option String := (record.fields.get? key).filter fun value => value ≠ ""

def apache : Writer Unit := do
  let request := " ".intercalate
    ([record.field "http.method", record.field "http.path", record.field "http.protocol"].filterMap id)
  plain ((record.field "http.remote").getD apacheAbsent)
  push " "
  push apacheAbsent
  push " "
  push apacheAbsent
  push " ["
  push ((← orPanic (apacheTime record.timestamp)).getD apacheAbsent)
  push "] \""
  quoted (if request = "" then apacheAbsent else request)
  push "\" "
  plain ((record.field "http.status").getD apacheAbsent)
  push " "
  plain ((record.field "http.bytes_sent").getD apacheAbsent)
  push " \""
  quoted ((record.field "http.referrer").getD apacheAbsent)
  push "\" \""
  quoted ((record.field "http.user_agent").getD apacheAbsent)
  push "\""

def line (format : Format) : Except Stop String := do
  let record := record.withoutQueries
  let empty : Line := { text := "", within := empty_within }
  let ((), line) ← (match format with
    | .json => record.json
    | .syslog => record.syslog
    | .apache => record.apache).run empty
  return line.text

end Record

end BasicNext.Log
