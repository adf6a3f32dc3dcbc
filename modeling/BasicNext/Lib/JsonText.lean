import Mathlib.Data.List.Basic

/-!
# Reading JSON texts

A reader for the JSON texts that are made of objects and strings (with every escape of a string), and the
texts that writers without white space give. Reading such a text gives back the value it was written from.
-/

namespace BasicNext.Lib.JsonText

inductive Value where
  | string (text : List Char)
  | object (members : List (List Char × Value))

/-! ### The reader -/

def hexValue (c : Char) : Option Nat :=
  if '0' ≤ c ∧ c ≤ '9' then some (c.toNat - '0'.toNat)
  else if 'a' ≤ c ∧ c ≤ 'f' then some (c.toNat - 'a'.toNat + 10)
  else if 'A' ≤ c ∧ c ≤ 'F' then some (c.toNat - 'A'.toNat + 10)
  else none

/-- The unit that four hexadecimal digits stand for. -/
def codeUnit (a b c d : Char) : Option Nat :=
  match hexValue a, hexValue b, hexValue c, hexValue d with
  | some a, some b, some c, some d => some (((a * 16 + b) * 16 + c) * 16 + d)
  | _, _, _, _ => none

/-- The character after a backslash. -/
def escape (c : Char) : Option Char :=
  if c = '"' ∨ c = '\\' ∨ c = '/' then some c
  else if c = 'b' then some (Char.ofNat 8)
  else if c = 'f' then some (Char.ofNat 12)
  else if c = 'n' then some '\n'
  else if c = 'r' then some '\r'
  else if c = 't' then some '\t'
  else none

def isHigh (unit : Nat) : Bool := decide (0xD800 ≤ unit ∧ unit ≤ 0xDBFF)

def isLow (unit : Nat) : Bool := decide (0xDC00 ≤ unit ∧ unit ≤ 0xDFFF)

/-- The characters up to the closing quote, and the text behind it. -/
def readString : List Char → Option (List Char × List Char)
  | [] => none
  | c :: rest =>
    if c = '"' then some ([], rest)
    else if c = '\\' then
      match rest with
      | [] => none
      | escaped :: rest =>
        if escaped = 'u' then
          match rest with
          | a :: b :: c :: d :: rest =>
            match codeUnit a b c d with
            | none => none
            | some unit =>
              if isHigh unit then
                match rest with
                | back :: u :: a :: b :: c :: d :: rest =>
                  match codeUnit a b c d with
                  | none => none
                  | some low =>
                    if back = '\\' ∧ u = 'u' ∧ isLow low then
                      (readString rest).map fun (text, rest) =>
                        (Char.ofNat (0x10000 + (unit - 0xD800) * 0x400 + (low - 0xDC00)) :: text, rest)
                    else none
                | _ => none
              else if isLow unit then none
              else (readString rest).map fun (text, rest) => (Char.ofNat unit :: text, rest)
          | _ => none
        else
          match escape escaped with
          | none => none
          | some c => (readString rest).map fun (text, rest) => (c :: text, rest)
    else if c.toNat < 0x20 then none
    else (readString rest).map fun (text, rest) => (c :: text, rest)

def isSpace (c : Char) : Bool := c = ' ' ∨ c = '\t' ∨ c = '\n' ∨ c = '\r'

def skip (text : List Char) : List Char := text.dropWhile isSpace

mutual

def readValue : Nat → List Char → Option (Value × List Char)
  | 0, _ => none
  | fuel + 1, text =>
    match skip text with
    | '"' :: rest => (readString rest).map fun (text, rest) => (.string text, rest)
    | '{' :: rest =>
      match skip rest with
      | '}' :: rest => some (.object [], rest)
      | rest => (readMembers fuel rest).map fun (members, rest) => (.object members, rest)
    | _ => none

/-- The members of an object, up to its closing brace. -/
def readMembers : Nat → List Char → Option (List (List Char × Value) × List Char)
  | 0, _ => none
  | fuel + 1, text =>
    match skip text with
    | '"' :: rest =>
      match readString rest with
      | none => none
      | some (key, rest) =>
        match skip rest with
        | ':' :: rest =>
          match readValue fuel rest with
          | none => none
          | some (value, rest) =>
            match skip rest with
            | ',' :: rest => (readMembers fuel rest).map fun (members, rest) => ((key, value) :: members, rest)
            | '}' :: rest => some ([(key, value)], rest)
            | _ => none
        | _ => none
    | _ => none

end

def decode (text : List Char) : Option Value :=
  match readValue (text.length + 1) text with
  | some (value, rest) => if skip rest = [] then some value else none
  | none => none

/-! ### Written strings -/

/-- What may stand for a character inside the quotes. -/
inductive Encodes : Char → List Char → Prop
  | plain {c : Char} : c ≠ '"' → c ≠ '\\' → 0x20 ≤ c.toNat → Encodes c [c]
  | escaped {c e : Char} : e ≠ 'u' → escape e = some c → Encodes c ['\\', e]
  | unit {x a b d e : Char} : codeUnit a b d e = some x.toNat → x.toNat < 0xD800 → Encodes x ['\\', 'u', a, b, d, e]

inductive EncodesAll : List Char → List Char → Prop
  | nil : EncodesAll [] []
  | cons {c : Char} {text encoded rest : List Char} :
      Encodes c encoded → EncodesAll text rest → EncodesAll (c :: text) (encoded ++ rest)

theorem readString_encodes {c : Char} {encoded : List Char} (encodes : Encodes c encoded) (rest : List Char) :
    readString (encoded ++ rest) = (readString rest).map fun (text, rest) => (c :: text, rest) := by
  cases encodes with
  | plain quote backslash printable =>
    rw [List.singleton_append, readString.eq_def]
    simp only [if_neg quote, if_neg backslash, if_neg (show ¬ c.toNat < 0x20 by omega)]
  | escaped notUnit escaped =>
    simp only [List.cons_append, List.nil_append]
    rw [readString.eq_def]
    simp only [Char.reduceEq, if_false, if_true, if_neg notUnit, escaped]
  | unit unit low =>
    have notHigh : isHigh c.toNat = false := by
      simp only [isHigh, decide_eq_false_iff_not]
      omega
    have notLow : isLow c.toNat = false := by
      simp only [isLow, decide_eq_false_iff_not]
      omega
    simp only [List.cons_append, List.nil_append]
    rw [readString.eq_def]
    simp only [Char.reduceEq, if_false, if_true, unit, notHigh, notLow, Bool.false_eq_true, Char.ofNat_toNat]

theorem readString_encodesAll {text encoded : List Char} (encodes : EncodesAll text encoded) (rest : List Char) :
    readString (encoded ++ '"' :: rest) = some (text, rest) := by
  induction encodes with
  | nil =>
    rw [List.nil_append, readString.eq_def]
    simp only [if_true]
  | cons first _ ih => rw [List.append_assoc, readString_encodes first, ih, Option.map_some]

/-! ### Written values -/

mutual

/-- The texts that stand for a value, without white space. -/
inductive Writes : Value → List Char → Prop
  | string {text encoded : List Char} : EncodesAll text encoded → Writes (.string text) ('"' :: encoded ++ ['"'])
  | empty : Writes (.object []) ['{', '}']
  | object {members : List (List Char × Value)} {text : List Char} :
      WritesMembers members text → Writes (.object members) ('{' :: text ++ ['}'])

inductive WritesMembers : List (List Char × Value) → List Char → Prop
  | one {key encoded text : List Char} {value : Value} : EncodesAll key encoded → Writes value text →
      WritesMembers [(key, value)] ('"' :: encoded ++ '"' :: ':' :: text)
  | more {key encoded text rest : List Char} {value : Value} {members : List (List Char × Value)} :
      EncodesAll key encoded → Writes value text → WritesMembers members rest →
      WritesMembers ((key, value) :: members) ('"' :: encoded ++ '"' :: ':' :: text ++ ',' :: rest)

end

theorem skip_cons {c : Char} (solid : isSpace c = false) (rest : List Char) : skip (c :: rest) = c :: rest := by
  simp [skip, solid]

theorem WritesMembers.head {members : List (List Char × Value)} {text : List Char}
    (writes : WritesMembers members text) : ∃ rest, text = '"' :: rest := by
  cases writes with
  | one _ _ => exact ⟨_, rfl⟩
  | more _ _ _ => exact ⟨_, rfl⟩

theorem readMembers_key {fuel : Nat} {key encoded text rest : List Char} {value : Value}
    (encodes : EncodesAll key encoded) (reads : readValue fuel (text ++ rest) = some (value, rest)) :
    readMembers (fuel + 1) ('"' :: encoded ++ '"' :: ':' :: text ++ rest) = match skip rest with
      | ',' :: rest => (readMembers fuel rest).map fun (members, rest) => ((key, value) :: members, rest)
      | '}' :: rest => some ([(key, value)], rest)
      | _ => none := by
  rw [readMembers, List.cons_append, List.cons_append, skip_cons (by decide)]
  simp only [List.append_assoc, List.cons_append, readString_encodesAll encodes]
  rw [skip_cons (by decide)]
  simp only [reads]

theorem read_writes (fuel : Nat) :
    (∀ value text rest, Writes value text → text.length < fuel → readValue fuel (text ++ rest) = some (value, rest))
      ∧ ∀ members text rest, WritesMembers members text → text.length < fuel →
          readMembers fuel (text ++ '}' :: rest) = some (members, rest) := by
  induction fuel with
  | zero => simp
  | succ fuel ih =>
    refine ⟨fun value text rest writes bound => ?_, fun members text rest writes bound => ?_⟩
    · cases writes with
      | string encodes =>
        rw [readValue, List.cons_append, List.cons_append, skip_cons (by decide)]
        simp only [List.append_assoc, List.singleton_append, readString_encodesAll encodes, Option.map_some]
      | empty =>
        rw [readValue, List.cons_append, skip_cons (by decide)]
        simp only [List.cons_append, List.nil_append]
        rw [skip_cons (by decide)]
        rfl
      | @object _ inner inside =>
        have read := ih.2 _ _ rest inside (by simp at bound; omega)
        obtain ⟨tail, rfl⟩ := inside.head
        rw [readValue, List.cons_append, List.cons_append, skip_cons (by decide)]
        simp only [List.append_assoc, List.cons_append, List.nil_append] at read ⊢
        rw [skip_cons (by decide)]
        exact congrArg (Option.map fun (members, rest) => (Value.object members, rest)) read
    · cases writes with
      | one encodes inside =>
        rw [readMembers_key encodes (ih.1 _ _ _ inside (by simp at bound; omega)), skip_cons (by decide)]
        rfl
      | @more _ _ _ rest' _ _ encodes inside others =>
        have shorter : (rest'.length) < fuel := by simp at bound; omega
        rw [List.append_assoc (_ ++ _), readMembers_key encodes (ih.1 _ _ _ inside (by simp at bound; omega))]
        rw [List.cons_append, skip_cons (by decide)]
        simp only [ih.2 _ _ rest others shorter, Option.map_some]

theorem decode_writes {value : Value} {text : List Char} (writes : Writes value text) : decode text = some value := by
  have read := (read_writes (text.length + 1)).1 value text [] writes (Nat.lt_succ_self _)
  rw [List.append_nil] at read
  simp [decode, read, skip]

end BasicNext.Lib.JsonText
