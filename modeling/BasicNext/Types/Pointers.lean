import BasicNext.Types.Ty

/-!
# Type tests by name

What the names of type tests denote (`bn_types::scalar_test_type`), the codes of the members of
alternative types (`bn_types::alternatives`) and the tests of pointers, which read the element and the
length of an allocation (`bn_types::pointers`).
-/

namespace BasicNext

def scalarTestType (test : String) : Option Ty :=
  if test = "INTEGER" ∨ test = "INT32" then some (.integer .int32)
  else if test = "BYTE" then some (.integer .byte)
  else if test = "INT8" then some (.integer .int8)
  else if test = "INT16" then some (.integer .int16)
  else if test = "INT64" ∨ test = "TIMESTAMP" then some (.integer .int64)
  else if test = "UINT16" then some (.integer .uint16)
  else if test = "UINT32" then some (.integer .uint32)
  else if test = "UINT64" then some (.integer .uint64)
  else if test = "FLOAT" ∨ test = "FLOAT64" then some (.float .float64)
  else if test = "FLOAT32" then some (.float .float32)
  else if test = "BOOLEAN" then some .boolean
  else if test = "STRING" then some .string
  else none

/-! ### Codes of members -/

def objectCode : Nat := 0x20

def functionCode : Nat := 0x21

def vectorCode : Nat := 0x100

def pointerCode : Nat := 0x200

def integerCode : IntegerType → Nat
  | .byte => 0x01
  | .int8 => 0x02
  | .int16 => 0x03
  | .int32 => 0x04
  | .int64 => 0x05
  | .uint16 => 0x06
  | .uint32 => 0x07
  | .uint64 => 0x08

def namedCode (name : String) : Nat :=
  if name = "Error" then 0x10
  else if name = "DATE" then 0x11
  else if name = "TIME" then 0x12
  else if name = "TIMEZONE" then 0x13
  else objectCode

def memberCode : Ty → Option Nat
  | .integer kind => some (integerCode kind)
  | .float .float32 => some 0x09
  | .float .float64 => some 0x0A
  | .boolean => some 0x0B
  | .string => some 0x0C
  | .null => some 0x0D
  | .notAvailable => some 0x0E
  | .endOfFile => some 0x0F
  | .named name | .typeName name => some (namedCode name)
  | .importedNamed _ name | .importedTypeName _ name =>
    some (if name = "Error" then 0x10 else objectCode)
  | .function _ _ => some functionCode
  | .vector element _ =>
    ((memberCode element).filter fun code => code < vectorCode).map (vectorCode + ·)
  | .pointer element _ =>
    ((memberCode element).filter fun code => code < vectorCode).map (pointerCode + ·)
  | _ => none

/-! ### Pointer tests -/

inductive RestoreCheck where
  | ok | typeMismatch | lengthMismatch
deriving DecidableEq, Repr

/-- Whether an allocation with a code and a length is one of another code and perhaps a length. -/
def checkRestore (fromCode fromLength toCode : Nat) (toLength : Option Nat) : RestoreCheck :=
  if fromCode ≠ toCode then .typeMismatch
  else
    match toLength with
    | some expected => if fromLength ≠ expected then .lengthMismatch else .ok
    | none => .ok

structure PointerIsTest where
  void : Bool
  element : Ty
  length : PointerLength

def replaceSpelling (spelling : List Char) (mark : Char) : Nat → List Char → List Char
  | 0, text => text
  | _, [] => []
  | fuel + 1, value :: rest =>
    if spelling.isPrefixOf (value :: rest) then
      mark :: replaceSpelling spelling mark fuel ((value :: rest).drop spelling.length)
    else value :: replaceSpelling spelling mark fuel rest

/-- The blanks of a text, one each and none beside a bracket; the list before is the text behind the
current character, backwards. -/
def compactBlanks : List Char → List Char → List Char → List Char
  | _, compact, [] => compact.reverse
  | before, compact, value :: rest =>
    if value.isWhitespace then
      let bracket := fun other : Option Char => other = some '[' ∨ other = some ']'
      if bracket (before.find? fun item => !item.isWhitespace) ∨ bracket (rest.find? fun item => !item.isWhitespace) then
        compactBlanks (value :: before) compact rest
      else if compact.head? ≠ some ' ' then compactBlanks (value :: before) (' ' :: compact) rest
      else compactBlanks (value :: before) compact rest
    else compactBlanks (value :: before) (value :: compact) rest

def compactPointerTest (test : List Char) : List Char :=
  let opened := replaceSpelling "LeftBracket".toList '[' test.length test
  let spelled := replaceSpelling "RightBracket".toList ']' opened.length opened
  compactBlanks [] [] spelled

/-- The number that decimal digits write, below a bound. -/
def parseDigits (bound : Nat) (digits : List Char) : Option Nat :=
  let number := digits.foldl (fun sum digit => sum * 10 + (digit.toNat - '0'.toNat)) 0
  if !digits.isEmpty && digits.all Char.isDigit && number < bound then some number else none

/-- The element name and the length of a pointer test, after the words `POINTER TO`. -/
def pointerLengthOf (rest : List Char) : Option (List Char × PointerLength) :=
  if "[]".toList.isSuffixOf rest then some (rest.dropLast.dropLast, .dynamic)
  else
    let bracket := (rest.reverse.takeWhile (· ≠ '[')).reverse
    let name := ((rest.reverse.dropWhile (· ≠ '[')).drop 1).reverse
    if rest.contains '[' then
      if bracket.getLast? = some ']' ∧ name ≠ [] ∧ bracket.dropLast ≠ [] ∧ bracket.dropLast.all Char.isDigit then
        (parseDigits (2 ^ 64) bracket.dropLast).map fun length => (name, .fixed length)
      else none
    else some (rest, .one)

def parsePointerIs (test : String) : Option PointerIsTest :=
  let compact := compactPointerTest test.toList
  let words := "POINTER TO ".toList
  if !words.isPrefixOf compact then none
  else
    let rest := compact.drop words.length
    if rest = [] then none
    else if rest = "VOID".toList then some ⟨true, .named "VOID", .dynamic⟩
    else do
      let (name, length) ← pointerLengthOf rest
      if name = [] then none
      else
        let name := String.ofList name
        some ⟨false, (scalarTestType name).getD (.named name), length⟩

/-- Whether an allocation satisfies a test; `none` for a test that is not of pointers. -/
def pointerIsHolds (fromCode fromLength : Nat) (test : String) : Option Bool := do
  let spec ← parsePointerIs test
  if spec.void then some true
  else
    let toCode := (memberCode spec.element).getD (2 ^ 32 - 1)
    let toLength := match spec.length with
      | .fixed length => some length
      | .one => some 1
      | .dynamic => none
    some (checkRestore fromCode fromLength toCode toLength = .ok)

end BasicNext
