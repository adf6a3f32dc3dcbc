import BasicNext.Lib.Except
import BasicNext.Lib.MaxBy
import Mathlib.Data.UInt

/-!
# The execution policy

What a program may do through its hosts (`bn_rt::policy`): capability bits under a ceiling, the two ceilings
of HOST.Exec, and the paths that the file system host may read and write. The environment narrows a policy
by five variables.
-/

namespace BasicNext.Rt

open Lib

/-! ### The file system -/

/-- What the policy asks of the operating system about a directory root. `newRoot` stands for
`RootedDir::new`; the answers may be others at every call. -/
structure Files (Root : Type) where
  newRoot : String → Option Root
  covers : Root → String → Bool
  contains : Root → String → Bool
  containsResolved : Root → String → Bool
  components : Root → Nat

inductive Scope (Root : Type) where
  | unrestricted
  | rooted (roots : List Root)

def fsOutsidePolicy : String := "filesystem path is outside execution policy"

def fsWritesDenied : String := "filesystem writes are denied by execution policy"

namespace Scope

variable {Root : Type} (files : Files Root)

def deniesEverything : Scope Root → Bool
  | .unrestricted => false
  | .rooted roots => roots.isEmpty

def namesARoot (path : String) : Scope Root → Bool
  | .unrestricted => false
  | .rooted roots => roots.any fun root => files.covers root path && !files.contains root path

def rootFor (path : String) : Scope Root → Except String (Option Root)
  | .unrestricted => .ok none
  | .rooted roots =>
    match maxBy files.components (roots.filter fun root => files.covers root path) with
    | some root => .ok (some root)
    | none => .error fsOutsidePolicy

def allows (path : String) : Scope Root → Bool
  | .unrestricted => true
  | .rooted roots => roots.any fun root => files.containsResolved root path

def addRoot (root : Root) : Scope Root → Scope Root
  | .unrestricted => .rooted [root]
  | .rooted roots => .rooted (roots ++ [root])

end Scope

structure FsPolicy (Root : Type) where
  read : Scope Root
  write : Scope Root
  readOnly : Bool

namespace FsPolicy

variable {Root : Type}

def unrestricted : FsPolicy Root := { read := .unrestricted, write := .unrestricted, readOnly := false }

def denied : FsPolicy Root := { read := .rooted [], write := .rooted [], readOnly := false }

def rooted (readRoots writeRoots : List Root) : FsPolicy Root :=
  { read := .rooted readRoots, write := .rooted writeRoots, readOnly := false }

variable (policy : FsPolicy Root)

def addRoot (write : Bool) (root : Root) : FsPolicy Root :=
  if write then { policy with write := policy.write.addRoot root }
  else { policy with read := policy.read.addRoot root }

def setReadOnly : FsPolicy Root := { policy with readOnly := true }

def scope (write : Bool) : Scope Root := if write then policy.write else policy.read

def allowsCapability : Bool := !policy.read.deniesEverything || !(policy.readOnly || policy.write.deniesEverything)

def allowsPath (files : Files Root) (path : String) (write : Bool) : Bool :=
  if write && policy.readOnly then false else (policy.scope write).allows files path

/-- The decision that `open`, `remove_file`, `create_dir_all` and `anchor` begin with: the root the
operation is carried out below, or none where the scope is unrestricted. -/
def anchor (files : Files Root) (path : String) (write : Bool) : Except String (Option Root) :=
  if write && policy.readOnly then .error fsWritesDenied else (policy.scope write).rootFor files path

def namesARoot (files : Files Root) (path : String) : Bool :=
  policy.read.namesARoot files path || policy.write.namesARoot files path

end FsPolicy

/-! ### The policy -/

def policyClock : UInt64 := (1 : UInt64) <<< 0
def policyConsole : UInt64 := (1 : UInt64) <<< 1
def policyFilesystem : UInt64 := (1 : UInt64) <<< 2
def policyNet : UInt64 := (1 : UInt64) <<< 3
def policyDispatch : UInt64 := (1 : UInt64) <<< 4
def policyRandom : UInt64 := (1 : UInt64) <<< 5
def policyExec : UInt64 := (1 : UInt64) <<< 6
def policyEnv : UInt64 := (1 : UInt64) <<< 7

def policyAll : UInt64 :=
  policyClock ||| policyConsole ||| policyFilesystem ||| policyNet ||| policyDispatch ||| policyRandom
    ||| policyExec ||| policyEnv

def policyVersion : UInt32 := 1

def execCaptureDefault : Nat := 16 * 1024 * 1024

/-- In nanoseconds, as every duration here. -/
def execTimeoutDefault : Nat := 60 * 1000 * 1000 * 1000

structure PolicyError where
  variable' : String
  value : String
  expected : String
deriving DecidableEq, Repr

namespace PolicyError

def message (error : PolicyError) : String :=
  "invalid " ++ error.variable' ++ " '" ++ error.value ++ "' (expected " ++ error.expected ++ ")"

end PolicyError

structure Policy (Root : Type) where
  ceiling : UInt64
  effective : UInt64
  execTimeout : Nat
  execCaptureLimit : Nat
  fs : FsPolicy Root

/-- `bn_host_exec::Policy`. -/
structure ExecPolicy where
  allowed : Bool
  timeout : Nat
  captureLimit : Nat
deriving DecidableEq, Repr

namespace Policy

variable {Root : Type}

def unrestricted : Policy Root where
  ceiling := policyAll
  effective := policyAll
  execTimeout := execTimeoutDefault
  execCaptureLimit := execCaptureDefault
  fs := .unrestricted

variable (policy : Policy Root)

def allows (capability : UInt64) : Bool := policy.effective &&& capability == capability

def exec : ExecPolicy where
  allowed := policy.allows policyExec
  timeout := policy.execTimeout
  captureLimit := policy.execCaptureLimit

/-- `bn_host_env::Policy` has only this field. -/
def env : Bool := policy.allows policyEnv

def installCeiling (ceiling : UInt64) : Policy Root :=
  { policy with
    ceiling := policy.ceiling &&& ceiling
    effective := policy.effective &&& (policy.ceiling &&& ceiling) }

def restrict (mask : UInt64) : Policy Root := { policy with effective := policy.effective &&& (mask &&& policy.ceiling) }

def denyExec : Policy Root := policy.restrict (~~~policyExec)

def denyEnv : Policy Root := policy.restrict (~~~policyEnv)

def denyFilesystem : Policy Root := { policy.restrict (~~~policyFilesystem) with fs := .denied }

def reduceExecTimeout (timeout : Nat) : Policy Root := { policy with execTimeout := min policy.execTimeout timeout }

def reduceExecCaptureLimit (bytes : Nat) : Policy Root :=
  if bytes < policy.execCaptureLimit then { policy with execCaptureLimit := bytes } else policy

end Policy

/-! ### Narrowing from the environment -/

/-- `str::parse::<u64>`. -/
def parseU64 (text : String) : Option Nat :=
  let digits := match text.toList with
    | '+' :: rest => rest
    | characters => characters
  if digits ≠ [] ∧ digits.all Char.isDigit then
    let value := digits.foldl (fun value digit => value * 10 + (digit.toNat - '0'.toNat)) 0
    if value < 2 ^ 64 then some value else none
  else none

def usizeMax : Nat := 2 ^ 64 - 1

section Environment

variable (get : String → Option String)

/-- An empty variable counts as absent. -/
def envText (name : String) : Option String := (get name).filter fun value => value ≠ ""

def fsInput : Except PolicyError (Option Bool) :=
  match envText get "BN_FS_POLICY" with
  | none => .ok none
  | some value =>
    if value = "deny" then .ok (some true)
    else if value = "read-only" then .ok (some false)
    else .error { variable' := "BN_FS_POLICY", value, expected := "deny or read-only" }

def denyInput (name : String) : Except PolicyError Bool :=
  match envText get name with
  | none => .ok false
  | some value =>
    if value = "deny" then .ok true else .error { variable' := name, value, expected := "deny" }

def integerInput (name : String) : Except PolicyError (Option Nat) :=
  match envText get name with
  | none => .ok none
  | some value =>
    match parseU64 value with
    | some number => .ok (some number)
    | none => .error { variable' := name, value, expected := "a non-negative integer" }

end Environment

namespace Policy

variable {Root : Type}

/-- The state is the policy that `&mut self` stands for: what was written before an error stays. -/
abbrev Update (Root : Type) := ExceptT PolicyError (StateM (Policy Root))

def narrowFromEnv (get : String → Option String) : Update Root Unit := do
  let fs ← fsInput get
  let execDenied ← denyInput get "BN_EXEC_POLICY"
  let envDenied ← denyInput get "BN_ENV_POLICY"
  let captureLimit ← integerInput get "BN_EXEC_CAPTURE_LIMIT"
  let timeoutMs ← integerInput get "BN_EXEC_TIMEOUT_MS"
  match fs with
  | some true => modify fun policy => { policy with fs := .denied }
  | some false => modify fun policy => { policy with fs := policy.fs.setReadOnly }
  | none => pure ()
  if execDenied then modify denyExec
  if envDenied then modify denyEnv
  if let some bytes := captureLimit then
    modify fun policy => policy.reduceExecCaptureLimit (min bytes usizeMax)
  if let some ms := timeoutMs then
    modify fun policy => policy.reduceExecTimeout (ms * 1000 * 1000)

/-- The outcome of narrowing and the policy it leaves. -/
def narrowed (get : String → Option String) (policy : Policy Root) : Except PolicyError Unit × Policy Root :=
  (narrowFromEnv get).run policy

end Policy

/-! ### The policy of a compiled image -/

def policyOk : Int32 := 0

def policyInvalid : Int32 := 2

section Image

variable {Root : Type} (get : String → Option String)

/-- `bn_rt_policy_init`: its status and the policy in force after it. -/
def policyInit (version : UInt32) (ceiling : UInt64) (policy : Policy Root) : Int32 × Policy Root :=
  if version ≠ policyVersion ∨ ceiling &&& ~~~policyAll ≠ 0 then (policyInvalid, policy)
  else
    match (policy.installCeiling ceiling).narrowed get with
    | (.error _, _) => (policyInvalid, policy)
    | (.ok (), next) => (policyOk, next)

/-- `bn_rt_policy_filesystem_sandboxed`. -/
def policyFilesystemSandboxed (policy : Policy Root) : Int32 × Policy Root :=
  (policyOk, (Policy.narrowed get { policy with fs := .denied }).2)

/-- `bn_rt_policy_filesystem_root`; the path is what `path_text` reads. -/
def policyFilesystemRoot (files : Files Root) (write : Int32) (path : Option String) (policy : Policy Root) :
    Int32 × Policy Root :=
  match path with
  | none => (policyInvalid, policy)
  | some path =>
    match files.newRoot path with
    | none => (policyInvalid, policy)
    | some root =>
      (policyOk, (Policy.narrowed get { policy with fs := policy.fs.addRoot (write != 0) root }).2)

end Image

end BasicNext.Rt
