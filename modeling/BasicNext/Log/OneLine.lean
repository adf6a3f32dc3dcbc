import BasicNext.Lib.JsonText
import BasicNext.Log.Written
import BasicNext.Text.TemporalBytes

/-!
# One record, one line

No writer puts a control character into a line, no line tells anything about the values of sensitive fields,
and a JSON line gives back what was logged. A line that is not written is refused for its length, unless the
parser of timestamps panics.
-/

namespace BasicNext.Log

open Lib Text

/-! ### No control characters -/

def NoControl (text : String) : Prop := ∀ c ∈ text.toList, isControl c = false

instance (text : String) : Decidable (NoControl text) := List.decidableBAll (fun c => isControl c = false) text.toList

@[simp] theorem noControl_append {first second : String} :
    NoControl (first ++ second) ↔ NoControl first ∧ NoControl second := by
  simp [NoControl, or_imp, forall_and]

theorem noControl_join {texts : List String} : NoControl (String.join texts) ↔ ∀ text ∈ texts, NoControl text := by
  simp only [NoControl, String.toList_join, List.mem_flatMap]
  constructor
  · intro all text member c inside
    exact all c ⟨text, member, inside⟩
  · rintro all c ⟨text, member, inside⟩
    exact all text member c inside

theorem noControl_singleton {c : Char} : NoControl (String.singleton c) ↔ isControl c = false := by
  simp [NoControl]

theorem isControl_of_range {c : Char} (low : 0x20 ≤ c.toNat) (high : c.toNat < 0x7F) : isControl c = false := by
  simp only [isControl, Bool.or_eq_false_iff, Bool.and_eq_false_iff, decide_eq_false_iff_not]
  omega

theorem mem_toDigits {base n : Nat} (big : 1 < base) {c : Char} (member : c ∈ Nat.toDigits base n) :
    ∃ digit < base, c = Nat.digitChar digit := by
  induction n using Nat.strongRecOn with
  | ind n ih =>
    by_cases small : n < base
    · rw [Nat.toDigits_of_lt_base small, List.mem_singleton] at member
      exact ⟨n, small, member⟩
    · rw [Nat.toDigits_of_base_le big (by omega), List.mem_append, List.mem_singleton] at member
      rcases member with front | last
      · exact ih (n / base) (Nat.div_lt_self (by omega) big) front
      · exact ⟨n % base, Nat.mod_lt _ (by omega), last⟩

theorem isControl_digitChar : ∀ digit < 16, isControl (Nat.digitChar digit) = false := by decide

theorem noControl_digits {base : Nat} (big : 1 < base) (hexadecimal : base ≤ 16) (n : Nat) :
    ∀ c ∈ Nat.toDigits base n, isControl c = false := by
  intro c member
  obtain ⟨digit, small, rfl⟩ := mem_toDigits big member
  exact isControl_digitChar digit (by omega)

@[simp] theorem noControl_decimal (n : Nat) : NoControl (toString n) := by
  rw [Nat.toString_eq_ofList_toDigits, NoControl, String.toList_ofList]
  exact noControl_digits (by omega) (by omega) n

theorem noControl_padded {base : Nat} (big : 1 < base) (hexadecimal : base ≤ 16) (width n : Nat) :
    NoControl (padded base width n) := by
  intro c member
  simp only [padded, String.toList_ofList, List.mem_append, List.mem_replicate] at member
  rcases member with ⟨-, rfl⟩ | digit
  · decide
  · exact noControl_digits big hexadecimal n c digit

theorem noControl_jsonCharacter (c : Char) : NoControl (jsonCharacter c) := by
  unfold jsonCharacter
  split_ifs with quote backslash line return' tab control
  · decide
  · decide
  · decide
  · decide
  · decide
  · rw [noControl_append]
    exact ⟨by decide, noControl_padded (by omega) (by omega) 4 c.toNat⟩
  · exact noControl_singleton.2 (by simpa using control)

theorem noControl_plainCharacter (c : Char) : NoControl (plainCharacter c) := by
  unfold plainCharacter
  split_ifs with space control
  · decide
  · decide
  · exact noControl_singleton.2 (by simpa using control)

theorem noControl_quotedCharacter (c : Char) : NoControl (quotedCharacter c) := by
  unfold quotedCharacter
  split_ifs with quote backslash control
  · decide
  · decide
  · rw [noControl_join]
    intro text member
    obtain ⟨byte, -, rfl⟩ := List.mem_map.1 member
    rw [noControl_append]
    exact ⟨by decide, noControl_padded (by omega) (by omega) 2 byte.toNat⟩
  · exact noControl_singleton.2 (by simpa using control)

theorem noControl_characters {write : Char → String} (each : ∀ c, NoControl (write c)) (value : String) :
    NoControl (String.join (value.toList.map write)) := by
  rw [noControl_join]
  intro text member
  obtain ⟨c, -, rfl⟩ := List.mem_map.1 member
  exact each c

@[simp] theorem noControl_jsonText (value : String) : NoControl (jsonText value) := by
  simp only [jsonText, noControl_append]
  exact ⟨⟨by decide, noControl_characters noControl_jsonCharacter value⟩, by decide⟩

@[simp] theorem noControl_plainText (value : String) : NoControl (plainText value) :=
  noControl_characters noControl_plainCharacter value

@[simp] theorem noControl_quotedText (value : String) : NoControl (quotedText value) :=
  noControl_characters noControl_quotedCharacter value

theorem noControl_of_parseRfc3339 {timestamp : String} {time : Int}
    (parsed : (parseRfc3339 (asBytes timestamp)).run = .ok (some time)) : NoControl timestamp := by
  intro c member
  obtain ⟨low, high⟩ := printable_characters (printable_of_parseRfc3339 parsed) c member
  exact isControl_of_range low high

theorem noControl_syslogHeader {value header : String} {max : Nat} (found : syslogHeader value max = some header) :
    NoControl header := by
  unfold syslogHeader at found
  split_ifs at found with valid
  obtain rfl := Option.some.inj found
  intro c member
  have printable : ∀ byte ∈ asBytes value, isPrintable byte = true := by
    intro byte inside
    have range := List.all_eq_true.1 valid.2.2 byte inside
    simp only [Bool.and_eq_true, decide_eq_true_eq, UInt8.le_iff_toNat_le] at range
    simp only [isPrintable, Bool.and_eq_true, decide_eq_true_eq, UInt8.le_iff_toNat_le, UInt8.lt_iff_toNat_lt]
    simp only [UInt8.reduceToNat] at range ⊢
    omega
  obtain ⟨low, high⟩ := printable_characters printable c member
  exact isControl_of_range low high

theorem noControl_getD {text : Option String} {absent : String} (present : ∀ value, text = some value → NoControl value)
    (otherwise : NoControl absent) : NoControl (text.getD absent) := by
  cases text with
  | none => exact otherwise
  | some value => exact present value rfl

theorem noControl_apacheTime {timestamp time : String} (formatted : apacheTime timestamp = .ok (some time)) :
    NoControl time := by
  unfold apacheTime at formatted
  obtain ⟨parsed, -, formatted⟩ := bind_eq_ok.1 formatted
  cases parsed with
  | none => cases formatted
  | some parsed =>
    simp only at formatted
    cases found : split parsed with
    | none =>
      rw [found] at formatted
      cases formatted
    | some date =>
      rw [found] at formatted
      simp only at formatted
      cases month : apacheMonth[((civilFromDays date.1).month - 1).toNat]? with
      | none =>
        rw [month] at formatted
        cases formatted
      | some name =>
        rw [month] at formatted
        simp only [pure, Except.pure, Except.ok.injEq, Option.some.injEq] at formatted
        have printable : ∀ name ∈ apacheMonth, NoControl name := by decide
        have decimal (width n : Nat) : NoControl (padded 10 width n) := noControl_padded (by omega) (by omega) width n
        rw [← formatted]
        simp only [noControl_append, decimal, printable name (List.mem_of_getElem? month), true_and, and_true]
        decide

namespace Record

variable (record : Record)

theorem noControl_jsonLine : NoControl record.jsonLine := by
  have members : NoControl record.jsonMembers := by
    rw [jsonMembers, noControl_join]
    intro text member
    obtain ⟨field, -, rfl⟩ := List.mem_map.1 member
    simp only [jsonMember, noControl_append, noControl_jsonText, and_true]
    refine ⟨?_, by decide⟩
    split <;> decide
  simp only [jsonLine, noControl_append, noControl_jsonText, members, true_and]
  decide

theorem noControl_syslogPriority : NoControl record.syslogPriority := by
  simp only [syslogPriority, noControl_append, noControl_decimal, and_true]
  decide

theorem noControl_syslogRest {time : Option Int} (parsed : (parseRfc3339 (asBytes record.timestamp)).run = .ok time) :
    NoControl (record.syslogRest time.isSome) := by
  have written : NoControl (if time.isSome then record.timestamp else syslogNil) := by
    cases time with
    | none => exact (show NoControl syslogNil by decide)
    | some time => exact noControl_of_parseRfc3339 parsed
  have members : NoControl (String.join (record.writtenFields.map syslogMember)) := by
    rw [noControl_join]
    intro text member
    obtain ⟨field, -, rfl⟩ := List.mem_map.1 member
    simp only [syslogMember, noControl_append, noControl_plainText, true_and, and_true]
    decide
  have header (value : String) (max : Nat) : NoControl ((syslogHeader value max).getD syslogNil) :=
    noControl_getD (fun _ found => noControl_syslogHeader found) (by decide)
  simp only [syslogRest, noControl_append, noControl_plainText, noControl_decimal, written, members, header, true_and,
    and_true]
  decide

theorem noControl_apacheRemote : NoControl record.apacheRemote := by
  simp only [apacheRemote, noControl_append, noControl_plainText, true_and]
  decide

theorem noControl_apacheRest : NoControl record.apacheRest := by
  simp only [apacheRest, noControl_append, noControl_plainText, noControl_quotedText, true_and]
  decide

end Record

/-! ### Sensitive values -/

/-- The same keys, and the same values where the key is not sensitive. -/
def SameShown (entries others : List (String × String)) : Prop :=
  List.Forall₂ (fun entry other => entry.1 = other.1 ∧ (isSensitive entry.1 = false → entry.2 = other.2)) entries others

section SameShown

variable {entries others : List (String × String)} (same : SameShown entries others)

include same

theorem SameShown.filter : (entries.filter fun entry => !isSensitive entry.1)
    = others.filter fun entry => !isSensitive entry.1 := by
  induction same with
  | nil => rfl
  | @cons entry other entries others here _ ih =>
    obtain ⟨name, value⟩ := entry
    obtain ⟨name', value'⟩ := other
    obtain ⟨sameName, sameValue⟩ := here
    obtain rfl : name = name' := sameName
    cases shown : isSensitive name with
    | true => simp [shown, ih]
    | false => simp [shown, ih, show value = value' from sameValue shown]

theorem SameShown.find {key : String} (shown : isSensitive key = false) :
    (entries.find? fun entry => entry.1 == key) = others.find? fun entry => entry.1 == key := by
  induction same with
  | nil => rfl
  | @cons entry other entries others here _ ih =>
    obtain ⟨name, value⟩ := entry
    obtain ⟨name', value'⟩ := other
    obtain ⟨sameName, sameValue⟩ := here
    obtain rfl : name = name' := sameName
    by_cases found : name = key
    · subst found
      simp [show value = value' from sameValue shown]
    · simpa [found] using ih

theorem SameShown.change (key : String) (change : String → String) :
    SameShown (entries.map fun entry => if entry.1 = key then (entry.1, change entry.2) else entry)
      (others.map fun entry => if entry.1 = key then (entry.1, change entry.2) else entry) := by
  unfold SameShown at same ⊢
  rw [List.forall₂_map_left_iff, List.forall₂_map_right_iff]
  refine same.imp ?_
  rintro ⟨name, value⟩ ⟨name', value'⟩ ⟨sameName, sameValue⟩
  obtain rfl : name = name' := sameName
  by_cases here : name = key
  · simp only [here, if_true, true_and] at sameValue ⊢
    intro shown
    rw [sameValue shown]
  · simp only [here, if_false, true_and]
    exact sameValue

end SameShown

namespace Record

/-- The records differ at most in the values of fields whose key is sensitive. -/
structure SameButSensitive (first second : Record) : Prop where
  timestamp : first.timestamp = second.timestamp
  label : first.label = second.label
  level : first.level = second.level
  message : first.message = second.message
  host : first.host = second.host
  process : first.process = second.process
  fields : SameShown first.fields.entries second.fields.entries

variable {first second : Record}

theorem SameButSensitive.withoutQueries (same : SameButSensitive first second) :
    SameButSensitive first.withoutQueries second.withoutQueries :=
  { same with fields := (same.fields.change "http.path" withoutQuery).change "http.referrer" withoutQuery }

theorem SameButSensitive.writtenFields (same : SameButSensitive first second) :
    first.writtenFields = second.writtenFields :=
  same.fields.filter

theorem SameButSensitive.field (same : SameButSensitive first second) {key : String}
    (shown : isSensitive key = false) : first.field key = second.field key := by
  rw [Record.field, Record.field, Fields.get?, Fields.get?, same.fields.find shown]

theorem isSensitive_read : ∀ key ∈ ["http.remote", "http.method", "http.path", "http.protocol", "http.status",
    "http.bytes_sent", "http.referrer", "http.user_agent"], isSensitive key = false := by
  decide

theorem line_same (same : SameButSensitive first second) (format : Format) :
    first.line format = second.line format := by
  have written := same.withoutQueries
  cases format with
  | json =>
    rw [line_json, line_json]
    simp only [jsonLine, jsonMembers, written.writtenFields, written.label, written.level, written.message,
      written.timestamp]
  | syslog =>
    rw [line_syslog, line_syslog, same.timestamp]
    simp only [syslogPriority, syslogRest, written.writtenFields, written.label, written.level, written.message,
      written.timestamp, written.host, written.process]
  | apache =>
    have read (key : String) (member : key ∈ ["http.remote", "http.method", "http.path", "http.protocol",
        "http.status", "http.bytes_sent", "http.referrer", "http.user_agent"]) :=
      written.field (isSensitive_read key member)
    have request : first.withoutQueries.request = second.withoutQueries.request := by
      rw [Record.request, read "http.method" (by simp), read "http.path" (by simp), read "http.protocol" (by simp)]
      rfl
    have rest : first.withoutQueries.apacheRest = second.withoutQueries.apacheRest := by
      rw [apacheRest, request, read "http.status" (by simp), read "http.bytes_sent" (by simp),
        read "http.referrer" (by simp), read "http.user_agent" (by simp)]
      rfl
    have remote : first.withoutQueries.apacheRemote = second.withoutQueries.apacheRemote := by
      rw [apacheRemote, read "http.remote" (by simp)]
      rfl
    rw [line_apache, line_apache, same.timestamp, remote, rest]

end Record

/-! ### Reading a JSON line -/

theorem hexValue_digitChar : ∀ digit < 16, JsonText.hexValue (Nat.digitChar digit) = some digit := by decide

theorem padded_byte {n : Nat} (small : n < 256) :
    (padded 16 4 n).toList = ['0', '0', Nat.digitChar (n / 16), Nat.digitChar (n % 16)] := by
  rw [padded, String.toList_ofList]
  by_cases one : n < 16
  · rw [Nat.toDigits_of_lt_base one, Nat.div_eq_of_lt one, Nat.mod_eq_of_lt one]
    rfl
  · rw [Nat.toDigits_of_base_le (by omega) (by omega), Nat.toDigits_of_lt_base (by omega)]
    rfl

theorem encodes_jsonCharacter (c : Char) : JsonText.Encodes c (jsonCharacter c).toList := by
  unfold jsonCharacter
  split_ifs with quote backslash line return' tab control
  · subst quote
    exact .escaped (by decide) (by decide)
  · subst backslash
    exact .escaped (by decide) (by decide)
  · subst line
    exact .escaped (by decide) (by decide)
  · subst return'
    exact .escaped (by decide) (by decide)
  · subst tab
    exact .escaped (by decide) (by decide)
  · have small : c.toNat < 256 := by
      simp only [isControl, Bool.or_eq_true, Bool.and_eq_true, decide_eq_true_eq] at control
      omega
    rw [String.toList_append, padded_byte small]
    refine .unit ?_ (by omega)
    rw [JsonText.codeUnit, hexValue_digitChar _ (by omega), hexValue_digitChar _ (by omega),
      show JsonText.hexValue '0' = some 0 by decide]
    simp only [Option.some.injEq]
    omega
  · rw [String.toList_singleton]
    refine .plain quote backslash ?_
    simp only [isControl, Bool.or_eq_true, decide_eq_true_eq, not_or] at control
    omega

theorem encodes_characters (characters : List Char) :
    JsonText.EncodesAll characters (String.join (characters.map jsonCharacter)).toList := by
  induction characters with
  | nil => exact .nil
  | cons c characters ih =>
    rw [List.map_cons, String.join_cons, String.toList_append]
    exact .cons (encodes_jsonCharacter c) ih

theorem toList_jsonText (value : String) :
    (jsonText value).toList = '"' :: (String.join (value.toList.map jsonCharacter)).toList ++ ['"'] := by
  rw [jsonText, String.toList_append, String.toList_append]
  rfl

theorem writes_jsonText (value : String) : JsonText.Writes (.string value.toList) (jsonText value).toList := by
  rw [toList_jsonText]
  exact .string (encodes_characters value.toList)

namespace Record

/-- A member of an object whose value is a text. -/
def jsonPair (entry : String × String) : List Char × JsonText.Value := (entry.1.toList, .string entry.2.toList)

/-- What a JSON line says: the label, the level, the message, the timestamp and the fields that are written. -/
def jsonValue (record : Record) : JsonText.Value :=
  .object
    [("fields".toList, .object (record.writtenFields.map jsonPair)),
      ("label".toList, .string record.label.toList), ("level".toList, .string record.level.name.toList),
      ("message".toList, .string record.message.toList), ("timestamp".toList, .string record.timestamp.toList)]

/-- A key and its value, as every member of an object is written. -/
def memberText (entry : String × String) : String := jsonText entry.1 ++ (":" ++ jsonText entry.2)

theorem toList_memberText (entry : String × String) :
    (memberText entry).toList = '"' :: (String.join (entry.1.toList.map jsonCharacter)).toList ++
      '"' :: ':' :: (jsonText entry.2).toList := by
  rw [memberText, String.toList_append, String.toList_append, toList_jsonText]
  simp

theorem writesMembers_fields (entry : String × String) (rest : List (String × String)) (position : Nat) :
    JsonText.WritesMembers ((entry :: rest).map jsonPair)
      (memberText entry ++ String.join ((rest.zipIdx (position + 1)).map jsonMember)).toList := by
  induction rest generalizing entry position with
  | nil =>
    rw [List.zipIdx_nil, List.map_nil, String.join_nil, String.append_empty, toList_memberText]
    exact .one (encodes_characters _) (writes_jsonText _)
  | cons next rest ih =>
    have comma : jsonMember (next, position + 1) = "," ++ memberText next := by
      simp [jsonMember, memberText]
    rw [List.zipIdx_cons, List.map_cons (f := jsonMember), String.join_cons, comma, String.append_assoc, String.toList_append,
      toList_memberText, String.toList_append]
    exact .more (encodes_characters _) (writes_jsonText _) (ih next (position + 1))

variable (record : Record)

theorem writes_fields :
    JsonText.Writes (.object (record.writtenFields.map jsonPair)) ("\x7b" ++ (record.jsonMembers ++ "\x7d")).toList := by
  unfold jsonMembers
  rw [String.toList_append, String.toList_append]
  cases record.writtenFields with
  | nil => exact .empty
  | cons entry rest =>
    have members := writesMembers_fields entry rest 0
    rw [List.zipIdx_cons, List.map_cons (f := jsonMember), String.join_cons,
      show jsonMember (entry, 0) = memberText entry by simp [jsonMember, memberText]]
    exact .object members

theorem writesMembers_more {key : List Char} {value : JsonText.Value} {text rest : List Char}
    {members : List (List Char × JsonText.Value)} (encodes : JsonText.EncodesAll key key)
    (writes : JsonText.Writes value text) (others : JsonText.WritesMembers members rest) :
    JsonText.WritesMembers ((key, value) :: members) ('"' :: (key ++ '"' :: ':' :: (text ++ ',' :: rest))) := by
  have more := JsonText.WritesMembers.more encodes writes others
  simpa using more

theorem encodes_letters {key : List Char} (letters : (String.join (key.map jsonCharacter)).toList = key) :
    JsonText.EncodesAll key key := by
  have encodes := encodes_characters key
  rwa [letters] at encodes

theorem writes_jsonLine : JsonText.Writes record.jsonValue record.jsonLine.toList := by
  have last : JsonText.WritesMembers [("timestamp".toList, .string record.timestamp.toList)]
      ('"' :: ("timestamp".toList ++ '"' :: ':' :: (jsonText record.timestamp).toList)) :=
    .one (encodes_letters (by decide)) (writes_jsonText record.timestamp)
  have message := writesMembers_more (encodes_letters (show _ = "message".toList by decide))
    (writes_jsonText record.message) last
  have level := writesMembers_more (encodes_letters (show _ = "level".toList by decide))
    (writes_jsonText record.level.name) message
  have label := writesMembers_more (encodes_letters (show _ = "label".toList by decide))
    (writes_jsonText record.label) level
  have fields := writesMembers_more (encodes_letters (show _ = "fields".toList by decide)) record.writes_fields label
  have whole := JsonText.Writes.object fields
  simp only [jsonLine, jsonValue, String.toList_append] at whole ⊢
  simpa using whole

/-! ### The property -/

/-- The line of a record in a format: it is refused, or it is one line within the limit; it does not depend
on the values of sensitive fields; and in JSON it says what was logged. -/
structure OneLine (record : Record) (format : Format) : Prop where
  outcome : (∃ message, record.line format = .error (.failed message))
    ∨ ∃ text, record.line format = .ok text ∧ text.utf8ByteSize ≤ 64 * 1024 ∧ NoControl text
  redacted : ∀ other, SameButSensitive record other → other.line format = record.line format
  decoded : format = .json → ∀ text, record.line format = .ok text →
    JsonText.decode text.toList = some record.withoutQueries.jsonValue

/-- The timestamp is parsed, and the end of its seconds is inside a character. -/
def CutsTimestamp (record : Record) : Prop := ∃ separator time, Cuts (asBytes record.timestamp) separator time

/-- The format reads the time, and what an APACHE line has in front of it is within the limit. -/
def ReadsTime (record : Record) : Format → Prop
  | .json => False
  | .syslog => True
  | .apache => record.withoutQueries.apacheRemote.utf8ByteSize ≤ maxRecordBytes

theorem finished_outcome {text : String} (clean : NoControl text) : (∃ message, finished text = .error (.failed message))
      ∨ ∃ line, finished text = .ok line ∧ line.utf8ByteSize ≤ 64 * 1024 ∧ NoControl line := by
  unfold finished
  split_ifs with within
  · exact .inr ⟨text, rfl, within, clean⟩
  · exact .inl ⟨_, rfl⟩

theorem decode_line {text : String} (written : record.line .json = .ok text) :
    JsonText.decode text.toList = some record.withoutQueries.jsonValue := by
  rw [line_json, finished] at written
  split_ifs at written
  obtain rfl := Except.ok.inj written
  exact JsonText.decode_writes record.withoutQueries.writes_jsonLine

theorem line_outcome (format : Format) :
    record.ReadsTime format ∧ record.CutsTimestamp ∧ record.line format = .error .panicked
      ∨ ¬ (record.ReadsTime format ∧ record.CutsTimestamp)
        ∧ ((∃ message, record.line format = .error (.failed message))
          ∨ ∃ text, record.line format = .ok text ∧ text.utf8ByteSize ≤ 64 * 1024 ∧ NoControl text) := by
  have cuts := parseRfc3339_eq_error (nextStarts_asBytes record.timestamp)
  have whole {time : Option Int} (parsed : (parseRfc3339 (asBytes record.timestamp)).run = .ok time) :
      ¬ record.CutsTimestamp := by
    intro cut
    obtain ⟨panic, failed⟩ := cuts.2 cut
    rw [failed] at parsed
    cases parsed
  cases format with
  | json =>
    refine .inr ⟨fun both => both.1, ?_⟩
    rw [line_json]
    exact finished_outcome record.withoutQueries.noControl_jsonLine
  | syslog =>
    rw [line_syslog]
    cases parsed : (parseRfc3339 (asBytes record.timestamp)).run with
    | error panic => exact .inl ⟨trivial, cuts.1 ⟨panic, parsed⟩, rfl⟩
    | ok time =>
      refine .inr ⟨fun both => whole parsed both.2, ?_⟩
      exact finished_outcome (noControl_append.2
        ⟨record.withoutQueries.noControl_syslogPriority, record.withoutQueries.noControl_syslogRest parsed⟩)
  | apache =>
    rw [line_apache]
    cases formatted : apacheTime record.timestamp with
    | error panic =>
      by_cases within : record.withoutQueries.apacheRemote.utf8ByteSize ≤ maxRecordBytes
      · exact .inl ⟨within, cuts.1 ⟨panic, apacheTime_eq_error.1 formatted⟩, if_pos within⟩
      · exact .inr ⟨fun both => within both.1, .inl ⟨_, if_neg within⟩⟩
    | ok time =>
      have parsed : ∃ result, (parseRfc3339 (asBytes record.timestamp)).run = .ok result := by
        cases found : (parseRfc3339 (asBytes record.timestamp)).run with
        | error panic =>
          rw [apacheTime_eq_error.2 found] at formatted
          cases formatted
        | ok result => exact ⟨result, rfl⟩
      obtain ⟨result, parsed⟩ := parsed
      refine .inr ⟨fun both => whole parsed both.2, ?_⟩
      have clean : NoControl (time.getD apacheAbsent) :=
        noControl_getD (fun value present => noControl_apacheTime (present ▸ formatted)) (by decide)
      exact finished_outcome (noControl_append.2 ⟨record.withoutQueries.noControl_apacheRemote,
        noControl_append.2 ⟨clean, record.withoutQueries.noControl_apacheRest⟩⟩)

end Record

/-- A record gives one line in a format exactly when the format does not read its time, or reads it and need
not slice inside a character. -/
theorem oneLine_iff (record : Record) (format : Format) :
    record.OneLine format ↔ ¬ (record.ReadsTime format ∧ record.CutsTimestamp) := by
  rcases record.line_outcome format with ⟨reads, cuts, panics⟩ | ⟨whole, outcome⟩
  · refine ⟨fun oneLine => ?_, fun whole => absurd ⟨reads, cuts⟩ whole⟩
    rcases oneLine.outcome with ⟨message, failed⟩ | ⟨text, written, -⟩
    · rw [panics] at failed
      cases failed
    · rw [panics] at written
      cases written
  · refine ⟨fun _ => whole, fun _ => ⟨outcome, fun other same => (Record.line_same same format).symm, ?_⟩⟩
    rintro rfl text written
    exact record.decode_line written

/-- A record whose seconds end inside a character. -/
def cutRecord : Record where
  timestamp := "2026-10-08T12:34:5éZ"
  label := "web"
  level := .info
  message := "hit"
  fields := { entries := [], sorted := .nil }
  host := "web01"
  process := 4242

theorem oneLine_not_always : ¬ ∀ (record : Record) (format : Format), record.OneLine format := by
  intro all
  have outcome := (all cutRecord .syslog).outcome
  have panics : cutRecord.line .syslog = .error .panicked := by decide
  rw [panics] at outcome
  rcases outcome with ⟨message, failed⟩ | ⟨text, written, -⟩
  · cases failed
  · cases written

end BasicNext.Log
