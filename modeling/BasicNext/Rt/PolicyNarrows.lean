import BasicNext.Rt.Policy

/-!
# The execution policy only narrows

Over every sequence of policy steps in one environment: the capabilities that are allowed and the ceilings
of HOST.Exec only shrink; what the environment denies of the file system stays denied, also where a step
replaces the whole file system policy; and an input that is malformed changes nothing.
-/

namespace BasicNext.Rt

open Lib

variable {Root : Type}

/-! ### What the environment asks for -/

/-- Every input is absent, empty or in its domain. -/
structure WellFormed (get : String → Option String) : Prop where
  fs : ∀ value, envText get "BN_FS_POLICY" = some value → value = "deny" ∨ value = "read-only"
  exec : ∀ value, envText get "BN_EXEC_POLICY" = some value → value = "deny"
  env : ∀ value, envText get "BN_ENV_POLICY" = some value → value = "deny"
  captureLimit : ∀ value, envText get "BN_EXEC_CAPTURE_LIMIT" = some value → (parseU64 value).isSome
  timeoutMs : ∀ value, envText get "BN_EXEC_TIMEOUT_MS" = some value → (parseU64 value).isSome

structure Inputs where
  fs : Option Bool
  execDenied : Bool
  envDenied : Bool
  captureLimit : Option Nat
  timeoutMs : Option Nat

def policyInputs (get : String → Option String) : Except PolicyError Inputs := do
  let fs ← fsInput get
  let execDenied ← denyInput get "BN_EXEC_POLICY"
  let envDenied ← denyInput get "BN_ENV_POLICY"
  let captureLimit ← integerInput get "BN_EXEC_CAPTURE_LIMIT"
  let timeoutMs ← integerInput get "BN_EXEC_TIMEOUT_MS"
  pure { fs, execDenied, envDenied, captureLimit, timeoutMs }

section Inputs

variable {get : String → Option String} {name : String}

theorem fsInput_isOk : (∃ fs, fsInput get = .ok fs)
      ↔ ∀ value, envText get "BN_FS_POLICY" = some value → value = "deny" ∨ value = "read-only" := by
  unfold fsInput
  cases read : envText get "BN_FS_POLICY" with
  | none => simp
  | some value =>
    by_cases deny : value = "deny"
    · simp [deny]
    · by_cases readOnly : value = "read-only" <;> simp [deny, readOnly]

theorem denyInput_isOk :
    (∃ denied, denyInput get name = .ok denied) ↔ ∀ value, envText get name = some value → value = "deny" := by
  unfold denyInput
  cases read : envText get name with
  | none => simp
  | some value =>
    by_cases deny : value = "deny" <;> simp [deny]

theorem integerInput_isOk : (∃ number, integerInput get name = .ok number)
      ↔ ∀ value, envText get name = some value → (parseU64 value).isSome := by
  unfold integerInput
  cases read : envText get name with
  | none => simp
  | some value =>
    cases parsed : parseU64 value <;> simp [parsed]

theorem policyInputs_isOk : (∃ inputs, policyInputs get = .ok inputs) ↔ WellFormed get := by
  constructor
  · rintro ⟨inputs, read⟩
    obtain ⟨fs, readFs, read⟩ := bind_eq_ok.1 read
    obtain ⟨exec, readExec, read⟩ := bind_eq_ok.1 read
    obtain ⟨env, readEnv, read⟩ := bind_eq_ok.1 read
    obtain ⟨limit, readLimit, read⟩ := bind_eq_ok.1 read
    obtain ⟨timeout, readTimeout, -⟩ := bind_eq_ok.1 read
    exact ⟨fsInput_isOk.1 ⟨fs, readFs⟩, denyInput_isOk.1 ⟨exec, readExec⟩, denyInput_isOk.1 ⟨env, readEnv⟩,
      integerInput_isOk.1 ⟨limit, readLimit⟩, integerInput_isOk.1 ⟨timeout, readTimeout⟩⟩
  · intro wellFormed
    obtain ⟨fs, readFs⟩ := fsInput_isOk.2 wellFormed.fs
    obtain ⟨exec, readExec⟩ := denyInput_isOk.2 wellFormed.exec
    obtain ⟨env, readEnv⟩ := denyInput_isOk.2 wellFormed.env
    obtain ⟨limit, readLimit⟩ := integerInput_isOk.2 wellFormed.captureLimit
    obtain ⟨timeout, readTimeout⟩ := integerInput_isOk.2 wellFormed.timeoutMs
    refine ⟨⟨fs, exec, env, limit, timeout⟩, ?_⟩
    simp only [policyInputs, readFs, readExec, readEnv, readLimit, readTimeout]
    rfl

end Inputs

/-- What `narrow_from_env` does with the inputs it has read. -/
def Policy.applyInputs (inputs : Inputs) (policy : Policy Root) : Policy Root :=
  let policy := match inputs.fs with
    | some true => { policy with fs := .denied }
    | some false => { policy with fs := policy.fs.setReadOnly }
    | none => policy
  let policy := if inputs.execDenied then policy.denyExec else policy
  let policy := if inputs.envDenied then policy.denyEnv else policy
  let policy := match inputs.captureLimit with
    | some bytes => policy.reduceExecCaptureLimit (min bytes usizeMax)
    | none => policy
  match inputs.timeoutMs with
  | some ms => policy.reduceExecTimeout (ms * 1000 * 1000)
  | none => policy

theorem narrowed_eq (get : String → Option String) (policy : Policy Root) :
    policy.narrowed get = (policyInputs get).casesOn (fun error => (.error error, policy))
        fun inputs => (.ok (), policy.applyInputs inputs) := by
  unfold Policy.narrowed Policy.narrowFromEnv policyInputs
  cases fsInput get with
  | error error => rfl
  | ok fs =>
    cases denyInput get "BN_EXEC_POLICY" with
    | error error => rfl
    | ok exec =>
      cases denyInput get "BN_ENV_POLICY" with
      | error error => rfl
      | ok env =>
        cases integerInput get "BN_EXEC_CAPTURE_LIMIT" with
        | error error => rfl
        | ok limit =>
          cases integerInput get "BN_EXEC_TIMEOUT_MS" with
          | error error => rfl
          | ok timeout =>
            rcases fs with _ | _ | _ <;> cases exec <;> cases env <;> cases limit <;> cases timeout <;> rfl

theorem narrowed_error {get : String → Option String} {policy : Policy Root} {error : PolicyError}
    (failed : (policy.narrowed get).1 = .error error) : (policy.narrowed get).2 = policy := by
  rw [narrowed_eq] at failed ⊢
  cases read : policyInputs get with
  | error _ => rfl
  | ok inputs => simp [read] at failed

theorem narrowed_ok {get : String → Option String} {inputs : Inputs} (read : policyInputs get = .ok inputs)
    (policy : Policy Root) : policy.narrowed get = (.ok (), policy.applyInputs inputs) := by
  rw [narrowed_eq, read]

/-! ### Narrower policies -/

/-- What the first policy allows, the second allows too, and no ceiling of HOST.Exec is higher in the first. -/
structure Narrower (narrow wide : Policy Root) : Prop where
  allows : ∀ capability, narrow.allows capability = true → wide.allows capability = true
  timeout : narrow.exec.timeout ≤ wide.exec.timeout
  captureLimit : narrow.exec.captureLimit ≤ wide.exec.captureLimit

namespace Narrower

theorem refl (policy : Policy Root) : Narrower policy policy := ⟨fun _ allowed => allowed, le_rfl, le_rfl⟩

theorem trans {narrow middle wide : Policy Root} (first : Narrower narrow middle)
    (second : Narrower middle wide) : Narrower narrow wide :=
  ⟨fun capability allowed => second.allows capability (first.allows capability allowed),
    first.timeout.trans second.timeout, first.captureLimit.trans second.captureLimit⟩

theorem of_mask {narrow wide : Policy Root} (mask : UInt64) (effective : narrow.effective = wide.effective &&& mask)
    (timeout : narrow.execTimeout = wide.execTimeout)
    (captureLimit : narrow.execCaptureLimit = wide.execCaptureLimit) : Narrower narrow wide := by
  refine ⟨fun capability allowed => ?_, timeout.le, captureLimit.le⟩
  simp only [Policy.allows, effective, beq_iff_eq] at allowed ⊢
  have within : wide.effective &&& (wide.effective &&& mask &&& capability) = wide.effective &&& mask &&& capability := by
    rw [UInt64.and_assoc, ← UInt64.and_assoc, UInt64.and_self]
  rwa [allowed] at within

end Narrower

namespace Policy

variable (policy : Policy Root)

theorem narrower_installCeiling (ceiling : UInt64) : Narrower (policy.installCeiling ceiling) policy :=
  .of_mask (policy.ceiling &&& ceiling) rfl rfl rfl

theorem narrower_restrict (mask : UInt64) : Narrower (policy.restrict mask) policy :=
  .of_mask (mask &&& policy.ceiling) rfl rfl rfl

theorem narrower_denyFilesystem : Narrower policy.denyFilesystem policy :=
  .of_mask (~~~policyFilesystem &&& policy.ceiling) rfl rfl rfl

theorem narrower_reduceExecTimeout (timeout : Nat) : Narrower (policy.reduceExecTimeout timeout) policy :=
  ⟨fun _ allowed => allowed, min_le_left _ _, le_rfl⟩

theorem narrower_reduceExecCaptureLimit (bytes : Nat) : Narrower (policy.reduceExecCaptureLimit bytes) policy := by
  unfold reduceExecCaptureLimit
  split
  · next below => exact ⟨fun _ allowed => allowed, le_rfl, below.le⟩
  · exact .refl policy

theorem narrower_fs (fs : FsPolicy Root) : Narrower { policy with fs } policy := ⟨fun _ allowed => allowed, le_rfl, le_rfl⟩

theorem narrower_applyInputs (inputs : Inputs) : Narrower (policy.applyInputs inputs) policy := by
  obtain ⟨fs, exec, env, limit, timeout⟩ := inputs
  have first : Narrower (applyInputs ⟨fs, false, false, none, none⟩ policy) policy := by
    rcases fs with _ | _ | _
    · exact .refl policy
    · exact policy.narrower_fs _
    · exact policy.narrower_fs _
  have second : Narrower (applyInputs ⟨fs, exec, false, none, none⟩ policy) policy := by
    cases exec
    · exact first
    · exact (narrower_restrict _ _).trans first
  have third : Narrower (applyInputs ⟨fs, exec, env, none, none⟩ policy) policy := by
    cases env
    · exact second
    · exact (narrower_restrict _ _).trans second
  have fourth : Narrower (applyInputs ⟨fs, exec, env, limit, none⟩ policy) policy := by
    cases limit
    · exact third
    · exact (narrower_reduceExecCaptureLimit _ _).trans third
  cases timeout
  · exact fourth
  · exact (narrower_reduceExecTimeout _ _).trans fourth

theorem narrower_narrowed (get : String → Option String) : Narrower (policy.narrowed get).2 policy := by
  rw [narrowed_eq]
  cases policyInputs get with
  | error _ => exact .refl policy
  | ok inputs => exact policy.narrower_applyInputs inputs

end Policy

/-! ### Steps -/

inductive Step (Root : Type) where
  | installCeiling (ceiling : UInt64)
  | restrict (mask : UInt64)
  | denyExec
  | denyEnv
  | denyFilesystem
  | reduceExecTimeout (timeout : Nat)
  | reduceExecCaptureLimit (bytes : Nat)
  | setReadOnly
  | narrowFromEnv
  | init (version : UInt32) (ceiling : UInt64)
  | filesystemSandboxed
  | filesystemRoot (files : Files Root) (write : Int32) (path : Option String)

namespace Step

def apply (get : String → Option String) (step : Step Root) (policy : Policy Root) : Policy Root :=
  match step with
  | installCeiling ceiling => policy.installCeiling ceiling
  | restrict mask => policy.restrict mask
  | denyExec => policy.denyExec
  | denyEnv => policy.denyEnv
  | denyFilesystem => policy.denyFilesystem
  | reduceExecTimeout timeout => policy.reduceExecTimeout timeout
  | reduceExecCaptureLimit bytes => policy.reduceExecCaptureLimit bytes
  | setReadOnly => { policy with fs := policy.fs.setReadOnly }
  | narrowFromEnv => (policy.narrowed get).2
  | init version ceiling => (policyInit get version ceiling policy).2
  | filesystemSandboxed => (policyFilesystemSandboxed get policy).2
  | filesystemRoot files write path => (policyFilesystemRoot get files write path policy).2

def ReadsEnv : Step Root → Prop
  | narrowFromEnv => True
  | init version ceiling => version = policyVersion ∧ ceiling &&& ~~~policyAll = 0
  | filesystemSandboxed => True
  | filesystemRoot files _ path => (path.bind files.newRoot).isSome
  | _ => False

/-- The policies a program is run under, one after another. -/
def run (get : String → Option String) (policy : Policy Root) (steps : List (Step Root)) : Policy Root :=
  steps.foldl (fun policy step => step.apply get policy) policy

variable {get : String → Option String}

theorem narrower_apply (step : Step Root) (policy : Policy Root) : Narrower (step.apply get policy) policy := by
  cases step with
  | installCeiling ceiling => exact policy.narrower_installCeiling ceiling
  | restrict mask => exact policy.narrower_restrict mask
  | denyExec => exact policy.narrower_restrict _
  | denyEnv => exact policy.narrower_restrict _
  | denyFilesystem => exact policy.narrower_denyFilesystem
  | reduceExecTimeout timeout => exact policy.narrower_reduceExecTimeout timeout
  | reduceExecCaptureLimit bytes => exact policy.narrower_reduceExecCaptureLimit bytes
  | setReadOnly => exact policy.narrower_fs _
  | narrowFromEnv => exact policy.narrower_narrowed get
  | init version ceiling =>
    simp only [apply, policyInit]
    split
    · exact .refl policy
    · have narrowed := (policy.installCeiling ceiling).narrower_narrowed get
      split
      · exact .refl policy
      · next next reads =>
        rw [reads] at narrowed
        exact narrowed.trans (policy.narrower_installCeiling ceiling)
  | filesystemSandboxed => exact (Policy.narrower_narrowed _ get).trans (policy.narrower_fs _)
  | filesystemRoot files write path =>
    simp only [apply, policyFilesystemRoot]
    split
    · exact .refl policy
    · split
      · exact .refl policy
      · exact (Policy.narrower_narrowed _ get).trans (policy.narrower_fs _)

theorem narrower_run (policy : Policy Root) (steps : List (Step Root)) : Narrower (run get policy steps) policy := by
  induction steps generalizing policy with
  | nil => exact .refl policy
  | cons step steps ih => exact (ih (step.apply get policy)).trans (step.narrower_apply policy)

end Step

/-! ### What the environment denies -/

section Denied

variable {get : String → Option String} {inputs : Inputs}

theorem Step.apply_holds {P : FsPolicy Root → Prop} (read : policyInputs get = .ok inputs)
    (narrows : ∀ policy : Policy Root, P (policy.applyInputs inputs).fs) (denied : P .denied)
    (setReadOnly : ∀ fs, P fs → P fs.setReadOnly) (step : Step Root) (policy : Policy Root)
    (here : P policy.fs ∨ step.ReadsEnv) : P (step.apply get policy).fs := by
  have narrowed (policy : Policy Root) : P (policy.narrowed get).2.fs := by
    rw [narrowed_ok read]
    exact narrows policy
  cases step with
  | denyFilesystem => exact denied
  | setReadOnly => exact setReadOnly _ (here.resolve_right id)
  | reduceExecCaptureLimit bytes =>
    have before := here.resolve_right id
    simp only [apply, Policy.reduceExecCaptureLimit]
    split <;> exact before
  | narrowFromEnv => exact narrowed policy
  | init version ceiling =>
    simp only [apply, policyInit]
    split
    · next invalid =>
      refine here.resolve_right fun valid => ?_
      rcases invalid with other | outside
      · exact other valid.1
      · exact outside valid.2
    · rw [narrowed_ok read]
      exact narrows _
  | filesystemSandboxed => exact narrowed _
  | filesystemRoot files write path =>
    simp only [apply, policyFilesystemRoot]
    cases path with
    | none => exact here.resolve_right (by simp [ReadsEnv])
    | some path =>
      cases opened : files.newRoot path with
      | none =>
        simp only [opened]
        exact here.resolve_right (by simp [ReadsEnv, opened])
      | some root =>
        simp only [opened]
        exact narrowed _
  | _ => exact here.resolve_right id

theorem Step.run_holds {P : FsPolicy Root → Prop} (read : policyInputs get = .ok inputs)
    (narrows : ∀ policy : Policy Root, P (policy.applyInputs inputs).fs) (denied : P .denied)
    (setReadOnly : ∀ fs, P fs → P fs.setReadOnly) (policy : Policy Root) (before : P policy.fs)
    (steps : List (Step Root)) : P (run get policy steps).fs := by
  induction steps generalizing policy with
  | nil => exact before
  | cons step steps ih => exact ih _ (step.apply_holds read narrows denied setReadOnly policy (.inl before))

/-- No path may be read (or written), at the decision itself and at the start of every operation. -/
def FsPolicy.Denies (policy : FsPolicy Root) (write : Bool) : Prop :=
  ∀ (files : Files Root) (path : String),
    policy.allowsPath files path write = false ∧ ∃ reason, policy.anchor files path write = .error reason

theorem denies_of_rooted_nil {policy : FsPolicy Root} {write : Bool} (empty : policy.scope write = .rooted []) :
    policy.Denies write := by
  intro files path
  simp only [FsPolicy.allowsPath, FsPolicy.anchor, empty]
  split
  · exact ⟨rfl, _, rfl⟩
  · exact ⟨rfl, _, rfl⟩

def FsPolicy.NoWrites (policy : FsPolicy Root) : Prop := policy.readOnly = true ∨ policy.write = .rooted []

def FsPolicy.NoPaths (policy : FsPolicy Root) : Prop := policy.read = .rooted [] ∧ policy.write = .rooted []

theorem FsPolicy.NoWrites.denies {policy : FsPolicy Root} (noWrites : policy.NoWrites) : policy.Denies true := by
  rcases noWrites with readOnly | empty
  · intro files path
    simp [allowsPath, anchor, readOnly]
  · exact denies_of_rooted_nil empty

theorem FsPolicy.NoPaths.denies {policy : FsPolicy Root} (noPaths : policy.NoPaths) (write : Bool) :
    policy.Denies write := by
  cases write
  · exact denies_of_rooted_nil noPaths.1
  · exact denies_of_rooted_nil noPaths.2

@[simp] theorem Policy.restrict_fs (policy : Policy Root) (mask : UInt64) : (policy.restrict mask).fs = policy.fs := rfl

@[simp] theorem Policy.reduceExecCaptureLimit_fs (policy : Policy Root) (bytes : Nat) :
    (policy.reduceExecCaptureLimit bytes).fs = policy.fs := by
  unfold reduceExecCaptureLimit
  split <;> rfl

theorem Policy.applyInputs_fs (policy : Policy Root) : (policy.applyInputs inputs).fs =
      inputs.fs.casesOn policy.fs fun denied => if denied then .denied else policy.fs.setReadOnly := by
  obtain ⟨fs, exec, env, limit, timeout⟩ := inputs
  simp only [applyInputs]
  rcases fs with _ | _ | _ <;> cases exec <;> cases env <;> cases limit <;> cases timeout <;>
    simp [denyExec, denyEnv, reduceExecTimeout]

theorem policyInputs_fs (read : policyInputs get = .ok inputs) : fsInput get = .ok inputs.fs := by
  obtain ⟨fs, readFs, read⟩ := bind_eq_ok.1 read
  obtain ⟨exec, -, read⟩ := bind_eq_ok.1 read
  obtain ⟨env, -, read⟩ := bind_eq_ok.1 read
  obtain ⟨limit, -, read⟩ := bind_eq_ok.1 read
  obtain ⟨timeout, -, read⟩ := bind_eq_ok.1 read
  rw [← pure_eq_ok.1 read]
  exact readFs

theorem inputs_fs_of_readOnly (read : policyInputs get = .ok inputs) (asks : get "BN_FS_POLICY" = some "read-only") :
    inputs.fs = some false := by
  have same := policyInputs_fs read
  simp only [fsInput, envText, asks] at same
  exact (Except.ok.inj same).symm

theorem inputs_fs_of_deny (read : policyInputs get = .ok inputs) (asks : get "BN_FS_POLICY" = some "deny") :
    inputs.fs = some true := by
  have same := policyInputs_fs read
  simp only [fsInput, envText, asks] at same
  exact (Except.ok.inj same).symm

theorem noWrites_run (read : policyInputs get = .ok inputs) (asks : get "BN_FS_POLICY" = some "read-only")
    (policy : Policy Root) {step : Step Root} (reads : step.ReadsEnv) (steps : List (Step Root)) :
    (Step.run get (step.apply get policy) steps).fs.NoWrites := by
  have narrows (policy : Policy Root) : (policy.applyInputs inputs).fs.NoWrites := by
    rw [Policy.applyInputs_fs, inputs_fs_of_readOnly read asks]
    exact .inl rfl
  have setReadOnly (fs : FsPolicy Root) (_ : fs.NoWrites) : fs.setReadOnly.NoWrites := .inl rfl
  exact Step.run_holds read narrows (.inr rfl) setReadOnly _
    (step.apply_holds read narrows (.inr rfl) setReadOnly policy (.inr reads)) steps

theorem noPaths_run (read : policyInputs get = .ok inputs) (asks : get "BN_FS_POLICY" = some "deny")
    (policy : Policy Root) {step : Step Root} (reads : step.ReadsEnv) (steps : List (Step Root)) :
    (Step.run get (step.apply get policy) steps).fs.NoPaths := by
  have narrows (policy : Policy Root) : (policy.applyInputs inputs).fs.NoPaths := by
    rw [Policy.applyInputs_fs, inputs_fs_of_deny read asks]
    exact ⟨rfl, rfl⟩
  have setReadOnly (fs : FsPolicy Root) (before : fs.NoPaths) : fs.setReadOnly.NoPaths := before
  exact Step.run_holds read narrows ⟨rfl, rfl⟩ setReadOnly _
    (step.apply_holds read narrows ⟨rfl, rfl⟩ setReadOnly policy (.inr reads)) steps

end Denied

theorem policyInit_failed {get : String → Option String} {version : UInt32} {ceiling : UInt64}
    {policy : Policy Root} (failed : (policyInit get version ceiling policy).1 ≠ policyOk) :
    (policyInit get version ceiling policy).2 = policy := by
  unfold policyInit at failed ⊢
  split
  · rfl
  · next valid =>
    rw [if_neg valid] at failed
    split
    · rfl
    · next reads =>
      rw [reads] at failed
      exact absurd rfl failed

/-- In a fixed, well-formed environment: every run of policy steps only narrows the capabilities and the
ceilings of HOST.Exec; once a step has read an environment that asks for read-only (deny), no later policy
allows a write (any path). In every environment, a narrowing that reports an input leaves the policy as it
was. -/
theorem policy_narrows (get : String → Option String) (wellFormed : WellFormed get) :
    (∀ (policy : Policy Root) (steps : List (Step Root)), Narrower (Step.run get policy steps) policy)
      ∧ (∀ (policy : Policy Root) (step : Step Root) (steps : List (Step Root)), step.ReadsEnv →
          (get "BN_FS_POLICY" = some "read-only" → (Step.run get (step.apply get policy) steps).fs.Denies true)
          ∧ (get "BN_FS_POLICY" = some "deny" → ∀ write, (Step.run get (step.apply get policy) steps).fs.Denies write))
      ∧ (∀ (get : String → Option String) (policy : Policy Root) (error : PolicyError),
          (policy.narrowed get).1 = .error error → (policy.narrowed get).2 = policy)
      ∧ ∀ (get : String → Option String) (policy : Policy Root) (version : UInt32) (ceiling : UInt64),
          (policyInit get version ceiling policy).1 ≠ policyOk → (policyInit get version ceiling policy).2 = policy := by
  obtain ⟨inputs, read⟩ := policyInputs_isOk.2 wellFormed
  refine ⟨fun policy steps => Step.narrower_run policy steps, fun policy step steps reads => ⟨?_, ?_⟩,
    fun get policy error failed => narrowed_error failed,
    fun get policy version ceiling failed => policyInit_failed failed⟩
  · intro asks
    exact (noWrites_run read asks policy reads steps).denies
  · intro asks
    exact (noPaths_run read asks policy reads steps).denies

/-- The sandbox replaces the file system policy, and the environment denies writes again. -/
theorem policy_narrows_sandboxed :
    let get := fun name => if name = "BN_FS_POLICY" then some "read-only" else none
    let files : Files Nat := ⟨fun _ => some 0, fun _ _ => true, fun _ _ => true, fun _ _ => true, fun _ => 1⟩
    (Step.run get ((Step.narrowFromEnv).apply get .unrestricted)
      [.filesystemSandboxed, .filesystemRoot files 1 (some "/data")]).fs.Denies true := by
  intro get files
  have wellFormed : WellFormed get := by
    constructor <;> simp [get, envText]
  exact ((policy_narrows get wellFormed).2.1 .unrestricted .narrowFromEnv _ trivial).1 rfl

end BasicNext.Rt
