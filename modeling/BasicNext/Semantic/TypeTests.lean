import BasicNext.Semantic.Compatible

/-!
# Type tests, resolved and lowered

A type test goes two ways: semantic analysis resolves the type that it names, and lowering writes the text
that the interpreter tests values against. The text is made from the tokens, from the resolved type for
host and imported types, and in an imported module it is qualified in the end.
-/

namespace BasicNext.Semantic

open Frontend

/-! ### Resolution -/

/-- What resolution knows: the types of the module's global names and the exports of its imports. -/
structure TypeScope where
  globals : String → Option Ty := fun _ => none
  moduleExports : ModuleId → String → Option Ty := fun _ _ => none

/-- `name.split_once('.')` -/
def splitOnce (name : String) : Option (String × String) :=
  if name.toList.contains '.' then
    some (String.ofList (name.toList.takeWhile (· ≠ '.')), String.ofList ((name.toList.dropWhile (· ≠ '.')).drop 1))
  else none

/-- A name that begins with the alias of an import. -/
def resolveQualified (scope : TypeScope) (qualifier exportedName : String) : Option Ty :=
  match scope.globals qualifier with
  | some .hostNet => some (.named ("HOST.Net." ++ exportedName))
  | some .hostExec => some (.named ("HOST.Exec." ++ exportedName))
  | some .hostEnv => some (.named ("HOST.Env." ++ exportedName))
  | some .hostFileSystem => if exportedName = "File" then some (.named "FS.File") else none
  | some (.module module) =>
    match scope.moduleExports module exportedName with
    | some (.importedTypeName _ _) => some (.importedNamed module exportedName)
    | _ => none
  | _ => none

def resolveName (scope : TypeScope) (name : String) : Ty :=
  match (splitOnce name).bind fun (qualifier, exportedName) => resolveQualified scope qualifier exportedName with
  | some ty => ty
  | none =>
    match scope.globals name with
    | some (.importedTypeName module exportedName) => .importedNamed module exportedName
    | _ => .named name

mutual

def resolveType (scope : TypeScope) : Ty → Ty
  | .named name => resolveName scope name
  | .alternative types => .alternative (resolveTypes scope types)
  | .function parameters returnType =>
    .function (resolveTypes scope parameters) (resolveType scope returnType)
  | .vector element dimensions => .vector (resolveType scope element) dimensions
  | .pointer element length => .pointer (resolveType scope element) length
  | ty => ty

def resolveTypes (scope : TypeScope) : List Ty → List Ty
  | [] => []
  | ty :: types => resolveType scope ty :: resolveTypes scope types

end

/-! ### Names of types -/

def integerTypeName : IntegerType → String
  | .byte => "BYTE"
  | .int8 => "INT8"
  | .int16 => "INT16"
  | .int32 => "INT32"
  | .int64 => "INT64"
  | .uint16 => "UINT16"
  | .uint32 => "UINT32"
  | .uint64 => "UINT64"

mutual

def display : Ty → String
  | .named name | .typeName name => name
  | .importedNamed module name | .importedTypeName module name =>
    "MODULE#" ++ toString module ++ "." ++ name
  | .boolean => "BOOLEAN"
  | .integer kind => integerTypeName kind
  | .integerLiteral _ => "INT32"
  | .float .float32 => "FLOAT32"
  | .float .float64 | .floatLiteral => "FLOAT64"
  | .string => "STRING"
  | .null => "NULL"
  | .notAvailable => "NA"
  | .endOfFile => "EOF"
  | .hostArgs => "HOST.Args"
  | .unknown => "UNKNOWN"
  | .hostClock => "HOST.Clock"
  | .hostRandom => "HOST.Random"
  | .hostConsole => "HOST.Console"
  | .hostFileSystem => "HOST.FileSystem"
  | .hostNet => "HOST.Net"
  | .hostExec => "HOST.Exec"
  | .hostEnv => "HOST.Env"
  | .module id => "MODULE " ++ toString id
  | .alternative members => " OR ".intercalate (displayAll members)
  | .function parameters returnType =>
    "FUNCTION(" ++ ", ".intercalate (displayAll parameters) ++ ") AS " ++ display returnType
  | .vector element dimensions =>
    dimensions.foldl (fun name dimension =>
      name ++ if dimension = 2 ^ 64 - 1 then "[]" else "[" ++ toString dimension ++ "]") (display element)
  | .pointer element .one => "POINTER TO " ++ display element
  | .pointer element (.fixed length) => "POINTER TO " ++ display element ++ "[" ++ toString length ++ "]"
  | .pointer element .dynamic => "POINTER TO " ++ display element ++ "[]"

def displayAll : List Ty → List String
  | [] => []
  | ty :: types => display ty :: displayAll types

end

/-! ### Texts of tests -/

/-- Dots join a qualified name; anything else stays spaced. -/
def joinTypeParts (parts : List String) : String :=
  let isDot := fun part : String => part == "." || part == "Dot"
  let names := parts.filter fun part => !isDot part
  if parts.any isDot then ".".intercalate names else " ".intercalate names

/-- `type_test_name` -/
def typeTestName (atom : TypeAtom) : String :=
  if atom.dimensions ≠ [] then
    atom.dimensions.foldl (fun name value => name ++ "[" ++ value ++ "]") atom.name
  else if atom.name = "POINTER" ∧ atom.parts.head? = some "TO" then
    "POINTER TO " ++ joinTypeParts atom.parts.tail
  else joinTypeParts (atom.name :: atom.parts)

def pointerTestWithIdentity (written identity : String) : String :=
  if "POINTER TO ".toList.isPrefixOf written.toList then
    let rest := written.toList.drop "POINTER TO ".length
    "POINTER TO " ++ identity ++ String.ofList (rest.dropWhile fun c => c ≠ ' ' ∧ c ≠ '[')
  else written

/-- What lowering knows of the module it lowers: its number and the types that it declares (an entry
module has no number), and which modules are standard ones. -/
structure LoweringScope where
  module : Option ModuleId := none
  declared : List String := []
  standardModules : List ModuleId := []

def importedIdentity (scope : LoweringScope) (module : ModuleId) (name : String) : String :=
  if module ∈ scope.standardModules then name else "#" ++ toString module ++ "." ++ name

/-- The text of an atom whose resolved type is `resolved`. -/
def loweredAtom (scope : LoweringScope) (resolved : Ty) (atom : TypeAtom) : String :=
  if "HOST.".toList.isPrefixOf (display resolved).toList ∨ display resolved = "FS.File" then display resolved
  else
    match resolved with
    | .importedNamed module name => importedIdentity scope module name
    | .pointer (.importedNamed module name) _ =>
      pointerTestWithIdentity (typeTestName atom) (importedIdentity scope module name)
    | _ => typeTestName atom

/-- `type_test`: the text of a test whose resolved type is `resolved`; `none` is an error of lowering. -/
def loweredTypeTest (scope : LoweringScope) (resolved : Ty) : Expression → Option String
  | .typeTest atom => some (loweredAtom scope resolved atom)
  | .name name | .literal (.typeName name) => some name
  | .literal .null => some "NULL"
  | .literal .notAvailable => some "NA"
  | .literal .endOfFile => some "EOF"
  | .literal (.special value) => some value
  | .unary operator (.literal (.special value)) => if operator = "Minus" then some ("-" ++ value) else none
  | _ => none

/-- The canonical name of a type that an imported module declares. -/
def qualifyName (scope : LoweringScope) (declared name : String) : String :=
  match scope.module with
  | some module => if declared ∈ scope.declared then "#" ++ toString module ++ "." ++ name else name
  | none => name

/-- `qualify_test_name`: a type name, or a vector of one. -/
def qualifyTestName (scope : LoweringScope) (name : String) : String :=
  qualifyName scope (String.ofList (name.toList.takeWhile (· ≠ '['))) name

/-- The text that values are tested against. -/
def testText (scope : LoweringScope) (resolved : Ty) (test : Expression) : Option String :=
  (loweredTypeTest scope resolved test).map (qualifyTestName scope)

end BasicNext.Semantic
