import BasicNext.Interp.Value
import BasicNext.Ir.VirtualDispatch
import BasicNext.Lib.SplitOnce

/-!
# Callees without a body

Before either back end looks for a function of the module it compares the callee's name, its `@super:` included,
with the names of intrinsics, of host calls and of the members of standard libraries
(`bn_interp::executor::part3::call_named`, `bn_llvm::llvm::call_emission`).
-/

namespace BasicNext.Ir

open Lib

/-- The part of a name behind its last dot. -/
def methodName (name : String) : String := String.ofList (name.toList.reverse.takeWhile (· ≠ '.')).reverse

/-- The part of a name before its last dot, if it has one. -/
def ownerOf (name : String) : Option String :=
  match name.toList.reverse.dropWhile (· ≠ '.') with
  | [] => none
  | _ :: owner => some (String.ofList owner.reverse)

def superPrefix : String := "@super:"

/-- `str::parse::<u32>` -/
def parseModuleId (text : List Char) : Option ModuleId :=
  match text with
  | '+' :: digits => parseDigits (2 ^ 32) digits
  | digits => parseDigits (2 ^ 32) digits

/-- `#id.member`, cut at the first dot. -/
def importedMember (name : String) : Option (List Char × String) :=
  match name.toList with
  | '#' :: rest => (splitOnce ['.'] rest).map fun parts => (parts.1, String.ofList parts.2)
  | _ => none

def startsWith (mark name : String) : Bool := mark.toList.isPrefixOf name.toList

def endsWith (mark name : String) : Bool := mark.toList.isSuffixOf name.toList

/-- `INTRINSICS` -/
def intrinsics : List String := ["$for_condition", "$for_fits", "$stopping", "$stop_code"]

/-- Functions of the language that have no body. -/
def languageFunctions : List String := ["ASC", "CHAR", "TOLOWER", "TOUPPER"]

/-- `is_temporal_builtin` -/
def temporalFunctions : List String := ["Date.Parse", "Time.Parse", "TimeZone.Parse", "TimeZone.Offset",
  "TimeZone.IsDST", "Timestamp.Parse", "Timestamp.Format", "Timestamp.AtZone", "Timestamp.FromLocal"]

end BasicNext.Ir

namespace BasicNext.Interp

open Ir

variable (module : Module)

/-- `is_host_file_method` -/
def isHostFileMethod (name : String) : Bool :=
  (ownerOf name).any Value.isHostFileType && (methodName name ∈
    ["Close", "ReadLine", "ReadAll", "Write", "ReadBytes", "WriteBytes", "WriteLine"])

/-- `library_callee` -/
def isLibraryCallee (name : String) : Bool :=
  (importedMember name).any fun parts => ((parseModuleId parts.1).bind module.standardLibraryOf).isSome

/-- The callees that `call_named` answers itself or through a host or a library. -/
def answers (name : String) : Bool :=
  name ∈ intrinsics || name ∈ languageFunctions || startsWith "HOST." name || isHostFileMethod name ||
    (isLibraryCallee module name && (findFunction module name).isNone) || name ∈ temporalFunctions

end BasicNext.Interp

namespace BasicNext.Native

open Ir

variable (module : Module)

/-- The members of `DataFrame` in `is_bndata_dataframe_call`. -/
def dataframeMembers : List String := ["CONSTRUCTOR", "RowCount", "ColumnCount", "AddStringColumn",
  "AddIntegerColumn", "AddFloatColumn", "AddBooleanColumn", "ColumnName", "SetLabel", "GetString", "GetInteger",
  "GetFloat", "GetBoolean", "Mean", "Median", "Quartile1", "Quartile3", "Mode", "Stdev", "Variance", "Range", "Min",
  "Max", "ZScore", "CopyIntegerColumn", "CopyFloatColumn", "Select", "Slice", "Transpose", "AppendRows",
  "AppendColumns", "Join", "LeftJoin", "RightJoin", "FullJoin", "ConvertToInteger", "ConvertToFloat", "CountNA",
  "DropNA", "FillNA"]

/-- The members of `bnlog_method`. -/
def logMembers : List String := ["Error", "Warn", "Info", "Http", "Verbose", "Debug", "Silly", "New", "Access",
  "SetLevel", "SetDefaults", "SetAccessDefaults", "Flush", "Close"].map ("Logger." ++ ·)

/-- The members of `bnweb_method`. -/
def webMembers : List String := ["Response.CONSTRUCTOR", "Response.SetStatus", "Response.Status", "Response.SetHeader",
  "Response.Header", "Response.SetCookie", "Response.SetCookieWithPolicy", "Response.ClearCookie", "Response.Write",
  "Response.Commit", "Response.IsCommitted", "Response.Close", "Request.CONSTRUCTOR", "Request.Method",
  "Request.Target", "Request.Header", "Request.Param", "Request.Cookie", "Request.Body", "Server.CONSTRUCTOR",
  "Server.AddFilter", "Server.Route", "Server.Static", "Server.Start", "Server.StartTLS", "Server.Dispatch",
  "Server.UseSessions", "Server.Stop", "Server.Close", "TLSConfig.FromPEM", "CookieJar.CONSTRUCTOR", "CookieJar.Set",
  "CookieJar.SetWithPolicy", "CookieJar.Get", "CookieJar.Count", "SessionStore.New", "SessionStore.Create",
  "SessionStore.Get", "Scraper.CONSTRUCTOR", "Scraper.Text", "ACL.CONSTRUCTOR", "ACL.Allow", "ACL.Deny", "ACL.Check",
  "EgressPolicy.New", "Client.CONSTRUCTOR", "Client.New", "Client.Request", "Client.RequestWithPolicy",
  "Client.Close"]

/-- The members of `bnmath_method`. -/
def mathMembers : List String := ["VAL", "TOHOUR", "TOWEEKDAY", "TODATE", "TOTIME", "TOTIMESTAMP", "ABS", "SIGN",
  "FLOOR", "CEIL", "TRUNC", "EXP", "LOG", "LOG10", "LOG2", "SIN", "COS", "TAN", "ASIN", "ACOS", "ATAN", "SQRT",
  "DegreeToRad", "RadToDegree", "Gcd", "Lcm", "MIN", "MAX", "MEAN", "MEDIAN", "QUARTILE1", "QUARTILE3", "RANGE",
  "STDEV", "VARIANCE", "PVariance", "PStdev", "Skewness", "Kurtosis", "PSkewness", "PKurtosis", "Quantile",
  "Covariance", "Correlation", "Dot", "Sum", "Product", "StudentT", "StudentTPvalue", "StudentTQuantile", "MODE",
  "POW", "ATAN2", "HYPOT", "ROUND", "FMA"]

/-- `is_bn_rt_host_call`: `FS_CALLS`, `DirectoryCall`, `NetMember` and the calls it lists. -/
def hostCalls : List String := ["HOST.FileSystem.Open", "HOST.FileSystem.Exists", "HOST.FileSystem.DeleteFile",
  "FS.File.Close", "FS.File.ReadAll", "FS.File.ReadLine", "FS.File.Write", "FS.File.WriteLine", "FS.File.ReadBytes",
  "FS.File.WriteBytes", "HOST.FileSystem.GetCurrentDirectory", "HOST.FileSystem.SetCurrentDirectory",
  "HOST.FileSystem.CreateDirectory", "HOST.FileSystem.RemoveDirectory", "HOST.FileSystem.IsDirectory",
  "HOST.FileSystem.OpenNew", "HOST.FileSystem.Copy", "HOST.FileSystem.Move", "HOST.Net.Address.IsIPv4",
  "HOST.Net.Address.IsIPv6", "HOST.Net.Address.IsLoopback", "HOST.Net.Address.IsPrivate",
  "HOST.Net.Address.IsLinkLocal", "HOST.Net.Address.IsMulticast", "HOST.Net.CIDR.Parse", "HOST.Net.CIDR.Contains",
  "HOST.Net.CIDR.Network", "HOST.Net.CIDR.PrefixLength", "HOST.Net.TCPStream.SetTimeouts",
  "HOST.Net.TCPStream.ShutdownRead", "HOST.Net.TCPStream.ShutdownWrite", "HOST.NumProcs", "HOST.Clock.Now",
  "HOST.Clock.Timer", "HOST.Console.Cls", "HOST.Console.Beep", "HOST.Console.PrintAt", "HOST.Console.NumCols",
  "HOST.Console.NumRows", "HOST.Env.Get", "HOST.Env.Has", "HOST.Exec.Run", "HOST.Exec.Result.ReturnCode",
  "HOST.Exec.Result.Stdout", "HOST.Exec.Result.Stderr", "HOST.Exec.Result.Close", "HOST.Net.Address.Parse",
  "HOST.Net.Address.ToString", "HOST.Net.Endpoint.Create", "HOST.Net.Endpoint.Port", "HOST.Net.Endpoint.Address",
  "HOST.Net.UDPBind", "HOST.Net.TCPConnect", "HOST.Net.TCPListen", "HOST.Net.TCPListener.Accept",
  "HOST.Net.TCPListener.LocalEndpoint", "HOST.Net.TCPStream.Write", "HOST.Net.TCPStream.Read",
  "HOST.Net.TCPStream.LocalEndpoint", "HOST.Net.TCPStream.RemoteEndpoint", "HOST.Net.TCPStream.Close",
  "HOST.Net.TCPListener.Close", "HOST.Net.UDPSocket.Close", "HOST.Net.UDPSocket.LocalEndpoint",
  "HOST.Net.UDPSocket.SendTo", "HOST.Net.UDPSocket.Receive", "HOST.Net.UDPPacket.Size",
  "HOST.Net.UDPPacket.WasTruncated", "HOST.Net.UDPPacket.CopyTo", "HOST.Net.UDPPacket.Source", "HOST.Net.Ping",
  "HOST.Net.Reverse", "HOST.Net.Neighbor", "HOST.Net.Resolve", "HOST.Net.Addresses.Count", "HOST.Net.Addresses.Get",
  "HOST.Net.PingReply.RoundTripMicroseconds", "HOST.Net.PingReply.Address"]

/-- The ends of the names that go to `lower_bn_dispatch_call`. -/
def dispatchMembers : List String := [".Queue.Concurrent", ".Queue.Serial", ".Queue.Auto", ".Queue.Join",
  ".Queue.Close", ".Ticket.Close", ".Ticket.Id", ".Ticket.Status", ".Ticket.Wait", ".Ticket.Cancel", ".Ticket.Error",
  ".Ticket.IsDone", ".Group.New", ".Group.Enter", ".Group.Leave", ".Group.Wait", ".Barrier.New", ".Barrier.Wait",
  ".Semaphore.New", ".Semaphore.Acquire", ".Semaphore.Release", ".Mutex.New", ".Mutex.Lock", ".Mutex.Unlock"]

/-- The members of `bnjson_member`. -/
def jsonMembers : List String := ["Parse", "Stringify", "Object", "Array", "Kind", "Has", "Length", "Clone", "SetString",
  "SetInteger", "SetFloat", "SetBoolean", "SetNull", "SetJson", "GetString", "GetInteger", "GetFloat", "GetBoolean",
  "GetJson", "AppendString", "AppendInteger", "AppendFloat", "AppendBoolean", "AppendNull", "AppendJson",
  "GetStringAt", "GetIntegerAt", "GetFloatAt", "GetBooleanAt", "GetJsonAt", "SetStringAt", "SetIntegerAt",
  "SetFloatAt", "SetBooleanAt", "SetNullAt", "SetJsonAt"]

/-- The members of `bncrypto_method`. -/
def cryptoMembers : List String := ["SHA256", "SHA512", "FromText", "FromHex", "Length", "ToHex", "SealAesGcm",
  "OpenAesGcm", "SealChaCha20", "OpenChaCha20", "HmacSha256", "VerifyHmacSha256", "Argon2id", "Ed25519PublicKey",
  "Ed25519Sign", "Ed25519Verify", "EcdsaP256PublicKey", "EcdsaP256Sign", "EcdsaP256Verify", "Slice", "MlKemKeypair",
  "MlKemEncapsulate", "MlKemDecapsulate", "MlDsaKeypair", "MlDsaSign", "MlDsaVerify", "RandomBytes", "GenerateNonce",
  "GenerateKey", "ImportKey", "Algorithm", "Zeroize"]

/-- The members of `bncompress_method`. -/
def compressMembers : List String := ["Deflate", "Inflate", "Gzip", "Gunzip", "DeflateText", "InflateText", "GzipText",
  "GunzipText", "FromText", "FromHex", "Length", "ToHex", "ToText", "Create", "Open", "AddFile", "AddText",
  "AddStoredText", "AddBytes", "AddStoredBytes", "ExtractAll", "ExtractFile", "ExtractText", "ExtractBytes",
  "EntryCount", "EntryName", "Close"]

/-- The members of `bnsqlite_method`. -/
def sqliteMembers : List String := ["Open", "OpenReadOnly", "OpenExisting", "Exec", "Query", "Begin", "Commit",
  "Rollback", "Changes", "LastInsertRowId", "Close"]

/-- `is_bndata_dataframe_call`; the number before the member is not read. -/
def isDataframeCall (name : String) : Bool :=
  (importedMember name).any fun parts => dataframeMembers.any fun member => parts.2 == "DataFrame." ++ member

/-- A member of a library that one of `providers` is named as. -/
def isMemberOf (providers : Finset ModuleId) (members : List String) (name : String) : Bool :=
  (importedMember name).any fun parts =>
    (parseModuleId parts.1).any (· ∈ providers) && (members.isEmpty || parts.2 ∈ members)

/-- A name that ends in a member of a library that the module imports. -/
def endsInMember (providers : Finset ModuleId) (members : List String) (name : String) : Bool :=
  providers ≠ ∅ && methodName name ∈ members

/-- `provider_name`; it needs no dot. -/
def providerName (name : String) : Option String :=
  match name.toList with
  | '#' :: rest => (parseModuleId (rest.takeWhile (· ≠ '.'))).bind fun id =>
    [(module.bnwebProviders, "BNWeb"), (module.bndispatchProviders, "BNDispatch"), (module.bnmathProviders, "BNMath"),
      (module.bncryptoProviders, "BNCrypto"), (module.bncompressProviders, "BNCompress"),
      (module.bnjsonProviders, "BNJson"), (module.bnsqliteProviders, "BNSqlite")].findSome?
      fun (providers, library) => if id ∈ providers then some library else none
  | _ => none

/-- `bncrypto_method`, `bncompress_method`: a name with a number is of the library's own module. -/
def isOwnMember (providers : Finset ModuleId) (members : List String) (library name : String) : Bool :=
  !(startsWith "#" name && providerName module name ≠ some library) && endsInMember providers members name

/-- The callees that `lower_call_instruction` and the arms before it lower to a call of the runtime. -/
def answers (name : String) : Bool :=
  name ∈ intrinsics || isDataframeCall name || methodName name ∈ ["ReadCSV", "WriteCSV"] ||
    isMemberOf module.bnlogProviders logMembers name || isMemberOf module.bnwebProviders webMembers name ||
    endsInMember module.bnmathProviders mathMembers name || name ∈ hostCalls ||
    (dispatchMembers.any fun member => endsWith member name) || name ∈ temporalFunctions ||
    endsInMember module.bnjsonProviders jsonMembers name ||
    isOwnMember module module.bncryptoProviders cryptoMembers "BNCrypto" name ||
    isOwnMember module module.bncompressProviders compressMembers "BNCompress" name ||
    endsInMember module.bnsqliteProviders sqliteMembers name || isMemberOf module.bnffiProviders [] name ||
    name ∈ languageFunctions

end BasicNext.Native
