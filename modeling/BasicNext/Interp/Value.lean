import BasicNext.Types.ClassModel
import BasicNext.Types.Pointers

/-!
# Runtime values

`bn_value::Value` and the comparisons of `bn_interp::compare`: equality and the `IS` test. Shared and
copy-on-write data is the data; a value that a host or a native module keeps by a number is its kind with
the number.
-/

namespace BasicNext.Interp

structure ObjectHandle where
  slot : UInt32
  generation : UInt32
deriving DecidableEq, Repr

/-- The values that hosts and native modules keep. -/
inductive Resource where
  | tcpStream | tcpListener | udpSocket
  | logFields | logEntry | logLogger
  | json
  | cryptoBytes | cryptoKey
  | compressBytes | compressZip
  | dispatchQueue | dispatchTicket | dispatchGroup | dispatchBarrier | dispatchSemaphore | dispatchMutex
  | file | dataFrame
deriving DecidableEq, Repr

inductive Value where
  | integer (value : Int) (kind : IntegerType)
  | float (value : Float) (kind : FloatType)
  | boolean (value : Bool)
  | string (text : String)
  | vector (elements : List Value)
  | function (name : String)
  | type (name : String)
  | null
  | notAvailable
  | endOfFile
  | error (code : Int) (message operation cause : String)
  | hostConsole
  | hostArgs
  | resource (kind : Resource) (id : UInt64)
  | handle (typeName : String)
  | record (typeName : String) (fields : List Value)
  | object (handle : ObjectHandle) (className : String)
  | pointer (handle : ObjectHandle) (element : Nat)
  | date (days : Int)
  | time (milliseconds : Nat)
  | timeZone (name : String)

namespace Value

/-! ### Equality -/

mutual

def equals : Value → Value → Bool
  | .integer left _, .integer right _ => left == right
  | .float left _, .float right _ => left == right
  | .integer left _, .float right _ => Float.ofInt left == right
  | .float left _, .integer right _ => left == Float.ofInt right
  | .boolean left, .boolean right => left == right
  | .string left, .string right => left == right
  | .function left, .function right => left == right
  | .null, .null => true
  | .notAvailable, .notAvailable => true
  | .endOfFile, .endOfFile => true
  | .hostConsole, .hostConsole => true
  | .handle left, .handle right => left == right
  | .resource .file left, .resource .file right => left == right
  | .resource .dataFrame left, .resource .dataFrame right => left == right
  | .error left message _ _, .error right message' _ _ => left == right && message == message'
  | .object left _, .object right _ => left == right
  | .pointer left _, .pointer right _ => left == right
  | .date left, .date right => left == right
  | .time left, .time right => left == right
  | .timeZone left, .timeZone right => left == right
  | .record left fields, .record right fields' => left == right && equalsAll fields fields'
  | .vector elements, .vector elements' => equalsAll elements elements'
  | _, _ => false

/-- Lists of one length with equal members. -/
def equalsAll : List Value → List Value → Bool
  | [], [] => true
  | left :: lefts, right :: rights => equals left right && equalsAll lefts rights
  | _, _ => false

end

/-! ### The `IS` test -/

def isHostFileType (name : String) : Bool :=
  name == "FS.File" || (".File".toList.isSuffixOf name.toList && name.toList.head? != some '#')

def resourceTest : Resource → String → Bool
  | .file, test => isHostFileType test
  | .dataFrame, test =>
    test == "DataFrame" || (".DataFrame".toList.isSuffixOf test.toList && test.toList.head? != some '#')
  | .logFields, test => test == "BNLog.Fields" || test == "Fields"
  | .logEntry, test => test == "BNLog.Entry" || test == "Entry"
  | .logLogger, test => test == "BNLog.Logger" || test == "Logger"
  | .json, test => test == "BNJson.Json" || test == "Json"
  | .cryptoBytes, test => test == "BNCrypto.Bytes" || test == "Bytes" || test == "BNCompress.Bytes"
  | .cryptoKey, test => test == "BNCrypto.Key" || test == "Key"
  | .compressBytes, test => test == "BNCompress.Bytes" || test == "Bytes" || test == "BNCrypto.Bytes"
  | .compressZip, test => test == "BNCompress.ZipArchive" || test == "ZipArchive"
  | .dispatchQueue, test => test == "BNDispatch.Queue" || test == "Queue"
  | .dispatchTicket, test => test == "BNDispatch.Ticket" || test == "Ticket"
  | .dispatchGroup, test => test == "BNDispatch.Group" || test == "Group"
  | .dispatchBarrier, test => test == "BNDispatch.Barrier" || test == "Barrier"
  | .dispatchSemaphore, test => test == "BNDispatch.Semaphore" || test == "Semaphore"
  | .dispatchMutex, test => test == "BNDispatch.Mutex" || test == "Mutex"
  | .tcpStream, test => test == "HOST.Net.TCPStream"
  | .tcpListener, test => test == "HOST.Net.TCPListener"
  | .udpSocket, test => test == "HOST.Net.UDPSocket"

def scalarType : Value → Option Ty
  | .integer _ kind => some (.integer kind)
  | .float _ kind => some (.float kind)
  | .boolean _ => some .boolean
  | .string _ => some .string
  | _ => none

def lastPart (name : String) : String := String.ofList ((name.toList.reverse.takeWhile (· != '.')).reverse)

/-- The element test and the length text of a vector test `ELEMENT[n][m]`. -/
def vectorTest (test : String) : Option (String × List Char) :=
  if test.toList.getLast? = some ']' ∧ '[' ∈ test.toList then
    let element := test.toList.takeWhile (· != '[')
    let rest := (test.toList.dropWhile (· != '[')).drop 1
    some (String.ofList (element ++ (rest.dropWhile (· != ']')).drop 1), rest.takeWhile (· != ']'))
  else none

/-- `str::parse::<usize>`. -/
def parseLength : List Char → Option Nat
  | '+' :: digits => parseDigits (2 ^ 64) digits
  | digits => parseDigits (2 ^ 64) digits

/-- The tests that name no scalar, pointer or vector. -/
def isNamed (classes : ClassModel) (test : String) : Value → Bool
  | .resource kind _ => resourceTest kind test
  | .object _ className => className == test || lastPart className == test || classes.isUpcast className test
  | .record typeName _ => typeName == test
  | _ => false

def isMarked : Value → String → Option Bool
  | value, "NAN" => some (match value with | .float value _ => value.isNaN | _ => false)
  | value, "INF" => some (match value with | .float value _ => value == 1 / 0 | _ => false)
  | value, "-INF" => some (match value with | .float value _ => value == -1 / 0 | _ => false)
  | value, "NULL" => some (match value with | .null => true | _ => false)
  | value, "NA" => some (match value with | .notAvailable => true | _ => false)
  | value, "EOF" => some (match value with | .endOfFile => true | _ => false)
  | value, "Error" => some (match value with | .error .. => true | _ => false)
  | value, "DATE" => some (match value with | .date _ => true | _ => false)
  | value, "TIME" => some (match value with | .time _ => true | _ => false)
  | value, "TIMEZONE" => some (match value with | .timeZone _ => true | _ => false)
  | _, _ => none

mutual

def isValue (classes : ClassModel) (value : Value) (test : String) (pointerLength : Option Nat) : Bool :=
  match scalarTestType test with
  | some ty =>
    match scalarType value with
    | some actual => actual == ty
    | none => false
  | none =>
    match isMarked value test with
    | some answer => answer
    | none =>
      if "POINTER TO ".toList.isPrefixOf test.toList then
        match value with
        | .pointer _ element => (pointerIsHolds element (pointerLength.getD 0) test).getD false
        | _ => false
      else
        match vectorTest test with
        | some (element, length) =>
          match value with
          | .vector items => parseLength length == some items.length && areValues classes items element
          | _ => false
        | none => isNamed classes test value

def areValues (classes : ClassModel) (values : List Value) (test : String) : Bool :=
  match values with
  | [] => true
  | value :: rest => isValue classes value test none && areValues classes rest test

end

end Value

end BasicNext.Interp
