import BasicNext.Ir.Activations
import BasicNext.Ir.Check

/-!
# Class initialisation

The interpreter keeps a table of the classes whose initialisers run or have run and stops a function at once when
a `STOP` comes out of an instruction that no `$stopping` check follows (`bn_interp::executor::part1`). Native code
keeps one flag for each class, set before its initialiser is called, and looks at a `STOP` at the checks only
(`bn_llvm::llvm::ownership_emission`), and traps on an exit code outside 0..255 in the function that stops.
-/

namespace BasicNext.Interp

open Ir

inductive ClassInit
  | running
  | ready
deriving DecidableEq, Repr

structure ClassRegisters where
  classInit : String → Option ClassInit
  stopCode : Option Int
  unwinding : Option Int

namespace ClassRegisters

/-- `ensure_class`, up to the call of the initialiser. -/
def ensureClass (className : String) (registers : ClassRegisters) : Entry ClassRegisters :=
  match registers.classInit className with
  | some .ready => .ready
  | some .running => .reentered
  | none => .start { registers with classInit := Function.update registers.classInit className (some .running) }

/-- `ensure_class`, after the initialiser. -/
def initialised (className : String) (registers : ClassRegisters) : ClassRegisters :=
  { registers with classInit := Function.update registers.classInit className (some .ready) }

/-- `call_named` and `ensure_class` keep the code of a `STOP`. -/
def stop (code : Int) (registers : ClassRegisters) : ClassRegisters := { registers with stopCode := some code }

/-- A `STOP` stops the function at once after an instruction that is no stop check and comes before none. -/
def interrupts (checked : Bool) (registers : ClassRegisters) : Option (Int × ClassRegisters) :=
  match registers.stopCode, checked with
  | some code, false => some (code, { registers with stopCode := none })
  | _, _ => none

/-- `$stopping` -/
def stopping (registers : ClassRegisters) : Bool × ClassRegisters :=
  (registers.stopCode.isSome, { registers with stopCode := none, unwinding := registers.stopCode })

/-- `$stop_code` -/
def takeStopCode (registers : ClassRegisters) : Int × ClassRegisters :=
  (registers.unwinding.getD 0, { registers with unwinding := none })

end ClassRegisters

open ClassRegisters in
def classes : BackEnd ClassRegisters where
  initial := { classInit := fun _ => none, stopCode := none, unwinding := none }
  ensureClass := ensureClass
  initialised := initialised
  stop := stop
  interrupts := interrupts
  stopping := stopping
  stopCode := takeStopCode
  exits _ := false
  refuses _ _ _ := false

end BasicNext.Interp

namespace BasicNext.Native

open Ir
open Interp (ClassInit ClassRegisters)

/-- `sanitize_symbol` -/
def sanitizeSymbol (name : String) : String := name.map fun ch => if ch.isAlphanum || ch == '_' then ch else '_'

/-- `class_init_flag` -/
def classInitFlag (className : String) : String := "@bn_init_" ++ sanitizeSymbol className

/-- The flags of the classes, and the globals of `STOP`. -/
structure ClassGlobals where
  flags : String → Bool
  stopping : Bool
  stopCode : Int

namespace ClassGlobals

/-- `EnsureClass`: the flag is set before the initialiser is called. -/
def ensureClass (className : String) (globals : ClassGlobals) : Entry ClassGlobals :=
  if globals.flags (classInitFlag className) then .ready
  else .start { globals with flags := Function.update globals.flags (classInitFlag className) true }

/-- A `STOP` outside `Start` -/
def stop (code : Int) (globals : ClassGlobals) : ClassGlobals := { globals with stopping := true, stopCode := code }

/-- `$stopping` -/
def takeStopping (globals : ClassGlobals) : Bool × ClassGlobals := (globals.stopping, { globals with stopping := false })

end ClassGlobals

open ClassGlobals in
def classes : BackEnd ClassGlobals where
  initial := { flags := fun _ => false, stopping := false, stopCode := 0 }
  ensureClass := ensureClass
  initialised _ globals := globals
  stop := stop
  interrupts _ _ := none
  stopping := takeStopping
  stopCode globals := (globals.stopCode, globals)
  exits kind := kind == .entry
  -- `emit_exit_range_check`
  refuses stops kind status := (stops || kind == .entry) && status.any fun code => !decide (IsExitCode code)

/-! ### What is proved -/

section

variable {D : Type*} (module : Module) (semantics : Semantics D) (entry : Function) (data : D)

def interpreted (steps : Nat) : Run D ClassRegisters := Run.after module semantics Interp.classes entry data steps

/-- The run of the native program after a number of steps. -/
def compiled (steps : Nat) : Run D ClassGlobals := Run.after module semantics classes entry data steps

/-- The exit status that native code checks at the end of a function. -/
def checkedStatus (kind : FunctionKind) (data : D) : Terminator → Option Int
  | .stop value => some (semantics.exitCode value data)
  | .return value => if kind = .entry then semantics.returned value data else none
  | _ => none

/-- The step is one on which the back ends agree. -/
structure Agreeing (run : Run D ClassRegisters) : Prop where
  /-- No class is entered while its initialiser runs. -/
  noReentry : ∀ className, run.Ensures className → run.registers.classInit className ≠ some .running
  /-- The class shares its flag with no class entered before. -/
  ownFlag : ∀ className, run.Ensures className → ∀ other, run.registers.classInit other ≠ none →
    classInitFlag other = classInitFlag className → other = className
  /-- A `STOP` comes out of an instruction that a `$stopping` check follows. -/
  checked : ∀ activation callers, run.At true activation callers → run.registers.stopCode.isSome → activation.checked = true
  /-- `$stop_code` is read after a `$stopping` check that found a `STOP`. -/
  taken : ∀ instruction activation callers answer, run.At false activation callers →
    activation.place = .instruction instruction → semantics.execute instruction run.data = .stopCode answer →
    run.registers.stopCode = none ∧ run.registers.unwinding.isSome
  /-- `Start` is the outermost function. -/
  outermost : ∀ value activation callers, run.At false activation callers →
    activation.place = .terminator (.stop value) → activation.function.kind = .entry → callers = []
  /-- A function that another one called ends with no status outside 0..255. -/
  inRange : ∀ terminator activation callers status, run.At false activation callers →
    activation.place = .terminator terminator →
    checkedStatus semantics activation.function.kind run.data terminator = some status →
    callers = [] ∨ IsExitCode status

/-- Both back ends initialise every class once, the same classes in the same order, and end in the same way. -/
structure InitialiseAlike (interpreted : Run D ClassRegisters) (compiled : Run D ClassGlobals) : Prop where
  interpreter : InitialisesOnce module semantics Interp.classes interpreted
  native : InitialisesOnce module semantics classes compiled
  started : interpreted.started = compiled.started
  outcome : interpreted.outcome = compiled.outcome

end

/-! ### The interpreter -/

section

variable {D : Type*} {module : Module} {semantics : Semantics D} {entry : Function} {data : D}
  {run : Run D ClassRegisters} {activation : Activation} {callers : List Activation}

theorem update_ne_none {table : String → Option ClassInit} {className other : String} {status : ClassInit}
    (entered : table other ≠ none) : Function.update table className (some status) other ≠ none := by
  by_cases same : other = className
  · simp [same]
  · rwa [Function.update_of_ne same]

theorem interp_marks : Run.Marks Interp.classes fun registers className => registers.classInit className ≠ none where
  start className registers next started := by
    simp only [Interp.classes, ClassRegisters.ensureClass] at started
    split at started
    · cases started
    · cases started
    · next fresh =>
      cases started
      refine ⟨fun entered => entered fresh, by simp, fun other entered => ?_⟩
      exact update_ne_none entered
  initialised className registers other entered := update_ne_none entered
  stop code registers other entered := entered
  interrupts checked registers code next other interrupts entered := by
    simp only [Interp.classes, ClassRegisters.interrupts] at interrupts
    split at interrupts
    · cases interrupts
      exact entered
    · cases interrupts
  stopping registers other entered := entered
  stopCode registers other entered := entered

/-- The classes that the table has as running are those whose initialisers are on the stack, each once. -/
structure Tabled (run : Run D ClassRegisters) : Prop where
  running : ∀ className, run.registers.classInit className = some .running ↔ className ∈ run.initialising
  nodup : run.initialising.Nodup

theorem initialising_cons {run : Run D K} (stack : run.stack = activation :: callers) :
    run.initialising = activation.initialises.toList ++ callers.filterMap Activation.initialises := by
  rw [Run.initialising, stack, List.filterMap_cons]
  cases activation.initialises <;> rfl

theorem initialising_moved {run next : Run D K} {other : Activation} (stack : run.stack = activation :: callers)
    (moved : next.stack = other :: callers) (same : other.initialises = activation.initialises) :
    next.initialising = run.initialising := by
  rw [initialising_cons stack, initialising_cons moved, same]

theorem Tabled.of_eq {next : Run D ClassRegisters} (tabled : Tabled run)
    (table : next.registers.classInit = run.registers.classInit) (stack : next.initialising = run.initialising) :
    Tabled next := by
  refine ⟨fun className => ?_, stack ▸ tabled.nodup⟩
  rw [table, stack]
  exact tabled.running className

theorem Tabled.leave (tabled : Tabled run) (stack : run.stack = activation :: callers) (code status : Option Int) :
    Tabled (run.leave Interp.classes activation callers code status) := by
  have before := initialising_cons stack
  have table : ∀ code : Option Int, (code.elim run.registers fun code =>
      Interp.classes.stop code run.registers).classInit = run.registers.classInit := by
    intro code
    cases code <;> rfl
  cases initialises : activation.initialises with
  | none =>
    apply tabled.of_eq
    · simp only [Run.leave, initialises, Option.elim_none, table]
    · rw [before, initialises]
      rfl
  | some className =>
    rw [initialises, Option.toList_some, List.singleton_append] at before
    have nodup := before ▸ tabled.nodup
    obtain ⟨left, rest⟩ := List.nodup_cons.1 nodup
    have after : (run.leave Interp.classes activation callers code status).initialising =
        callers.filterMap Activation.initialises := rfl
    refine ⟨fun other => ?_, after ▸ rest⟩
    have known := tabled.running other
    rw [before, List.mem_cons] at known
    rw [after]
    simp only [Run.leave, initialises, Option.elim_some, Interp.classes, ClassRegisters.initialised]
    by_cases same : other = className
    · subst same
      simp [left]
    · rw [Function.update_of_ne same]
      have table := table code
      simp only [Interp.classes] at table
      rw [table, known]
      simp [same]

theorem Tabled.finish (tabled : Tabled run) (stack : run.stack = activation :: callers) (data : D)
    (code status : Option Int) : Tabled (run.finish Interp.classes activation callers data code status) := by
  have kept : Tabled { run with data := data } := tabled.of_eq rfl rfl
  exact kept.leave stack code status

theorem Tabled.step (tabled : Tabled run) : Tabled (run.step module semantics Interp.classes) := by
  cases run.turn with
  | finished finished =>
    rw [Run.step_finished finished]
    exact tabled
  | completed activation callers here =>
    rw [Run.step_completed here, Run.complete]
    split
    · next code registers interrupts =>
      simp only [Interp.classes, ClassRegisters.interrupts] at interrupts
      split at interrupts
      · cases interrupts
        have kept : Tabled { run with
            data := semantics.stops run.data
            registers := { run.registers with stopCode := none } } := tabled.of_eq rfl rfl
        exact kept.leave here.stack _ _
      · cases interrupts
    · exact tabled.of_eq rfl (initialising_moved here.stack rfl rfl)
  | ensures className span activation callers here place =>
    rw [Run.step_ensures here place, Run.ensureClass]
    split
    · exact tabled.of_eq rfl rfl
    · exact tabled.of_eq rfl rfl
    · next registers started =>
      simp only [Interp.classes, ClassRegisters.ensureClass] at started
      split at started
      · cases started
      · cases started
      · next fresh =>
        cases started
        have absent : className ∉ run.initialising := by
          rw [← tabled.running, fresh]
          simp
        split
        · refine ⟨fun other => ?_, List.nodup_cons.2 ⟨absent, tabled.nodup⟩⟩
          have known := tabled.running other
          by_cases same : other = className
          · simp [same, Run.initialising, Activation.enter]
          · simp only [Function.update_of_ne same, known]
            simp [Run.initialising, Activation.enter, same]
        · refine ⟨fun other => ?_, tabled.nodup⟩
          have known := tabled.running other
          simp only [Interp.classes, ClassRegisters.initialised]
          by_cases same : other = className
          · subst same
            simpa [Run.initialising] using absent
          · rw [Function.update_of_ne same, Function.update_of_ne same, known]
            rfl
  | executes instruction activation callers here place other =>
    rw [Run.step_executes here place other, Run.execute]
    split <;> exact tabled.of_eq rfl rfl
  | terminates terminator activation callers here place =>
    rw [Run.step_terminates here place]
    cases terminator with
    | jump target => exact tabled.of_eq rfl (initialising_moved here.stack rfl rfl)
    | branch condition thenBlock elseBlock => exact tabled.of_eq rfl (initialising_moved here.stack rfl rfl)
    | «return» value => exact tabled.finish here.stack ..
    | stop value => exact tabled.finish here.stack ..
  | missing activation callers here place =>
    rw [Run.step_missing here place]
    exact tabled.of_eq rfl rfl

theorem tabled_interpreted (steps : Nat) : Tabled (interpreted module semantics entry data steps) := by
  induction steps with
  | zero =>
    refine ⟨fun className => ⟨fun running => ?_, fun member => absurd member List.not_mem_nil⟩, List.nodup_nil⟩
    cases running
  | succ steps ih =>
    rw [interpreted, Run.after_succ]
    exact ih.step

theorem interpreter_initialisesOnce (steps : Nat) :
    InitialisesOnce module semantics Interp.classes (interpreted module semantics entry data steps) := by
  have tabled : Tabled (interpreted module semantics entry data steps) := tabled_interpreted steps
  refine ⟨(Run.StartedOnce.after interp_marks entry data steps).nodup, fun className takes => ?_,
    fun className reenters => ?_⟩
  · obtain ⟨-, ready⟩ := takes
    rw [← tabled.running]
    intro running
    simp only [Interp.classes, ClassRegisters.ensureClass, running] at ready
    cases ready
  · obtain ⟨⟨activation, callers, span, here, place⟩, member⟩ := reenters
    have running := (tabled.running className).2 member
    rw [Run.step_ensures here place, Run.ensureClass]
    simp only [Interp.classes, ClassRegisters.ensureClass, running]
    rfl

end

/-! ### Native code -/

section

variable {D : Type*} {module : Module} {semantics : Semantics D} {entry : Function} {data : D}

theorem native_marks :
    Run.Marks classes fun globals className => globals.flags (classInitFlag className) = true where
  start className globals next started := by
    simp only [classes, ClassGlobals.ensureClass] at started
    split at started
    · cases started
    · next fresh =>
      cases started
      refine ⟨fresh, Function.update_self .., fun other entered => ?_⟩
      by_cases same : classInitFlag other = classInitFlag className
      · simp [same]
      · exact (Function.update_of_ne same ..).trans entered
  initialised className globals other entered := entered
  stop code globals other entered := entered
  interrupts checked globals code next other interrupts entered := by cases interrupts
  stopping globals other entered := entered
  stopCode globals other entered := entered

theorem compiled_started_nodup (steps : Nat) : (compiled module semantics entry data steps).started.Nodup :=
  (Run.StartedOnce.after native_marks entry data steps).nodup

theorem finish_ne_cycle {run : Run D ClassGlobals} {activation : Activation} {callers : List Activation}
    {code status : Option Int} {className : String} :
    (run.finish classes activation callers data code status).outcome ≠
      some (.failed (.staticInitializationCycle className)) := by
  rw [Run.finish]
  split
  · simp [Run.fail]
  · rw [Run.leave]
    dsimp only
    split
    · cases status with
      | none => simp [Outcome.ofStatus]
      | some code =>
        rw [Outcome.ofStatus]
        split <;> simp
    · simp

theorem step_ne_cycle {run : Run D ClassGlobals} {className : String}
    (before : run.outcome ≠ some (.failed (.staticInitializationCycle className))) :
    (run.step module semantics classes).outcome ≠ some (.failed (.staticInitializationCycle className)) := by
  cases run.turn with
  | finished finished => rwa [Run.step_finished finished]
  | completed activation callers here =>
    rw [Run.step_completed here]
    exact before
  | ensures other span activation callers here place =>
    rw [Run.step_ensures here place, Run.ensureClass]
    split
    · exact before
    · next reentered =>
      simp only [classes, ClassGlobals.ensureClass] at reentered
      split at reentered <;> cases reentered
    · split <;> exact before
  | executes instruction activation callers here place other =>
    rw [Run.step_executes here place other, Run.execute]
    split
    · exact before
    · exact before
    · exact before
    · exact before
    · simp [Run.fail]
  | terminates terminator activation callers here place =>
    rw [Run.step_terminates here place]
    cases terminator with
    | jump target => exact before
    | branch condition thenBlock elseBlock => exact before
    | «return» value => exact finish_ne_cycle
    | stop value => exact finish_ne_cycle
  | missing activation callers here place => simp [Run.step_missing here place, Run.fail]

theorem compiled_ne_cycle (steps : Nat) (className : String) :
    (compiled module semantics entry data steps).outcome ≠ some (.failed (.staticInitializationCycle className)) := by
  induction steps with
  | zero => simp [compiled, Run.after, Run.start]
  | succ steps ih =>
    rw [compiled, Run.after_succ]
    exact step_ne_cycle ih

end

/-! ### Both in lock-step -/

section

variable {D : Type*} {module : Module} {semantics : Semantics D} {entry : Function} {data : D}
  {run : Run D ClassRegisters} {native : Run D ClassGlobals} {registers : ClassRegisters} {globals : ClassGlobals}
  {activation : Activation} {callers : List Activation}

/-- The flags are set for the classes of the table, and the globals of `STOP` have what the interpreter keeps. -/
structure RegistersAlike (registers : ClassRegisters) (globals : ClassGlobals) : Prop where
  flags : ∀ flag, globals.flags flag = true ↔
    ∃ className, classInitFlag className = flag ∧ registers.classInit className ≠ none
  stopping : globals.stopping = registers.stopCode.isSome
  code : ∀ code, registers.stopCode = some code → globals.stopCode = code
  taken : registers.stopCode = none → ∀ code, registers.unwinding = some code → globals.stopCode = code

/-- Two runs that go on are at the same place. -/
structure SamePlace (run : Run D ClassRegisters) (native : Run D ClassGlobals) : Prop where
  stack : native.stack = run.stack
  completed : native.completed = run.completed
  data : native.data = run.data
  registers : RegistersAlike run.registers native.registers

structure Alike (run : Run D ClassRegisters) (native : Run D ClassGlobals) : Prop where
  started : native.started = run.started
  outcome : native.outcome = run.outcome
  place : run.outcome = none → SamePlace run native

theorem Alike.at (alike : Alike run native) {completed : Bool} (here : run.At completed activation callers) :
    native.At completed activation callers := by
  have same := alike.place here.going
  exact ⟨alike.outcome.trans here.going, same.completed.trans here.completed, same.stack.trans here.stack⟩

theorem Alike.at_back (alike : Alike run native) {completed : Bool} (here : native.At completed activation callers) :
    run.At completed activation callers := by
  have going := alike.outcome.symm.trans here.going
  have same := alike.place going
  exact ⟨going, same.completed.symm.trans here.completed, same.stack.symm.trans here.stack⟩

theorem RegistersAlike.stop (alike : RegistersAlike registers globals) (code : Int) :
    RegistersAlike (registers.stop code) (globals.stop code) where
  flags := alike.flags
  stopping := rfl
  code other same := Option.some.inj same
  taken absent := by cases absent

theorem RegistersAlike.initialised (alike : RegistersAlike registers globals) {className : String}
    (entered : registers.classInit className ≠ none) :
    RegistersAlike (registers.initialised className) globals where
  flags flag := by
    rw [alike.flags]
    refine exists_congr fun other => and_congr_right fun _ => ?_
    simp only [ClassRegisters.initialised]
    by_cases same : other = className
    · subst same
      simp [entered]
    · rw [Function.update_of_ne same]
  stopping := alike.stopping
  code := alike.code
  taken := alike.taken

theorem RegistersAlike.start (alike : RegistersAlike registers globals) (className : String) :
    RegistersAlike { registers with classInit := Function.update registers.classInit className (some .running) }
      { globals with flags := Function.update globals.flags (classInitFlag className) true } where
  flags flag := by
    have before := alike.flags flag
    by_cases own : flag = classInitFlag className
    · subst own
      simp only [Function.update_self, true_iff]
      exact ⟨className, rfl, by simp⟩
    · simp only [Function.update_of_ne own]
      rw [before]
      refine exists_congr fun other => and_congr_right fun named => ?_
      have different : other ≠ className := by
        rintro rfl
        exact own named.symm
      rw [Function.update_of_ne different]
  stopping := alike.stopping
  code := alike.code
  taken := alike.taken

theorem RegistersAlike.takeStopping (alike : RegistersAlike registers globals) :
    registers.stopping.1 = globals.takeStopping.1 ∧ RegistersAlike registers.stopping.2 globals.takeStopping.2 := by
  refine ⟨alike.stopping.symm, ⟨alike.flags, rfl, fun code absent => ?_, fun _ code taken => alike.code code taken⟩⟩
  cases absent

theorem RegistersAlike.takeStopCode (alike : RegistersAlike registers globals) (pending : registers.stopCode = none)
    (taken : registers.unwinding.isSome) :
    registers.takeStopCode.1 = globals.stopCode ∧ RegistersAlike registers.takeStopCode.2 globals := by
  obtain ⟨code, found⟩ := Option.isSome_iff_exists.1 taken
  refine ⟨?_, ⟨alike.flags, alike.stopping, alike.code, fun _ code absent => ?_⟩⟩
  · simp only [ClassRegisters.takeStopCode, found, Option.getD_some]
    exact (alike.taken pending code found).symm
  · cases absent

theorem Alike.leave (started : native.started = run.started) (same : SamePlace run native) (tabled : Tabled run)
    (stack : run.stack = activation :: callers) (code status : Option Int) :
    Alike (run.leave Interp.classes activation callers code status)
      (native.leave classes activation callers code status) := by
  refine ⟨started, rfl, fun _ => ⟨rfl, rfl, same.data, ?_⟩⟩
  have stopped : RegistersAlike (code.elim run.registers fun code => Interp.classes.stop code run.registers)
      (code.elim native.registers fun code => classes.stop code native.registers) := by
    cases code with
    | none => exact same.registers
    | some code => exact same.registers.stop code
  cases initialises : activation.initialises with
  | none =>
    simp only [Run.leave, initialises, Option.elim_none]
    exact stopped
  | some className =>
    simp only [Run.leave, initialises, Option.elim_some]
    refine stopped.initialised ?_
    have running : run.registers.classInit className = some .running := by
      rw [tabled.running, initialising_cons stack, initialises]
      exact List.mem_cons_self ..
    cases code <;> simp [Interp.classes, ClassRegisters.stop, running]

/-- Where native code traps at the end of the outermost function, the interpreter refuses the same status. -/
theorem Alike.finish (started : native.started = run.started) (same : SamePlace run native) (tabled : Tabled run)
    (stack : run.stack = activation :: callers) (data : D) (code status : Option Int)
    (inRange : classes.refuses code.isSome activation.function.kind status = true → callers = []) :
    Alike (run.finish Interp.classes activation callers data code status)
      (native.finish classes activation callers data code status) := by
  have left : Alike (run.finish Interp.classes activation callers data code status)
      ({ native with data := data }.leave classes activation callers code status) := by
    apply Alike.leave
    · exact started
    · exact ⟨same.stack, same.completed, rfl, same.registers⟩
    · exact tabled.of_eq rfl rfl
    · exact stack
  by_cases refused : classes.refuses code.isSome activation.function.kind status = true
  · obtain rfl := inRange refused
    have trapped : native.finish classes activation [] data code status = native.fail .invalidExitCode := if_pos refused
    have failed : Outcome.ofStatus status = .failed .invalidExitCode := by
      have out := (Bool.and_eq_true_iff.1 refused).2
      obtain ⟨code, rfl, out⟩ := (Option.any_eq_true _ _).1 out
      exact if_neg (by simpa using out)
    have ended : (run.finish Interp.classes activation [] data code status).outcome =
        some (.failed .invalidExitCode) := congrArg some failed
    rw [trapped]
    refine ⟨started, ended.symm, fun going => ?_⟩
    rw [ended] at going
    cases going
  · have leaves : native.finish classes activation callers data code status =
        { native with data := data }.leave classes activation callers code status := if_neg refused
    rw [leaves]
    exact left

theorem Alike.ensureClass {className : String} {span : Span} (alike : Alike run native) (agreeing : Agreeing semantics run)
    (here : run.At false activation callers) (place : activation.place = .instruction (.ensureClass className span)) :
    Alike (run.ensureClass module Interp.classes className) (native.ensureClass module classes className) := by
  have same := alike.place here.going
  have before := same.registers
  have ensures : run.Ensures className := ⟨activation, callers, span, here, place⟩
  rw [Run.ensureClass, Run.ensureClass]
  cases entered : run.registers.classInit className with
  | some status =>
    have set : native.registers.flags (classInitFlag className) = true := by
      rw [before.flags]
      exact ⟨className, rfl, by simp [entered]⟩
    have ready : status = .ready := by
      cases status with
      | running => exact absurd entered (agreeing.noReentry className ensures)
      | ready => rfl
    simp only [Interp.classes, classes, ClassRegisters.ensureClass, ClassGlobals.ensureClass, entered, ready, set,
      if_true]
    exact ⟨alike.started, alike.outcome, fun _ => ⟨same.stack, rfl, same.data, before⟩⟩
  | none =>
    have unset : native.registers.flags (classInitFlag className) = false := by
      rw [← Bool.not_eq_true, before.flags]
      rintro ⟨other, named, known⟩
      rw [agreeing.ownFlag className ensures other known named] at known
      exact known entered
    have started := before.start className
    simp only [Interp.classes, classes, ClassRegisters.ensureClass, ClassGlobals.ensureClass, entered, unset,
      Bool.false_eq_true, if_false]
    split
    · exact ⟨congrArg _ alike.started, alike.outcome,
        fun _ => ⟨congrArg _ same.stack, same.completed, same.data, started⟩⟩
    · refine ⟨alike.started, alike.outcome, fun _ => ⟨same.stack, rfl, same.data, started.initialised ?_⟩⟩
      simp

theorem Alike.terminate {terminator : Terminator} (alike : Alike run native) (tabled : Tabled run)
    (agreeing : Agreeing semantics run) (here : run.At false activation callers)
    (place : activation.place = .terminator terminator) :
    Alike (run.terminate semantics Interp.classes activation callers terminator)
      (native.terminate semantics classes activation callers terminator) := by
  have same := alike.place here.going
  have refused (stops : Bool) (status : Option Int)
      (checked : (stops || activation.function.kind == .entry) = true →
        checkedStatus semantics activation.function.kind run.data terminator = status) :
      classes.refuses stops activation.function.kind status = true → callers = [] := by
    intro refuses
    obtain ⟨checks, out⟩ := Bool.and_eq_true_iff.1 refuses
    obtain ⟨code, rfl, out⟩ := (Option.any_eq_true _ _).1 out
    refine (agreeing.inRange terminator activation callers code here place (checked checks)).resolve_right ?_
    simpa using out
  cases terminator with
  | jump target =>
    exact ⟨alike.started, alike.outcome, fun _ => ⟨rfl, same.completed, congrArg _ same.data, same.registers⟩⟩
  | branch condition thenBlock elseBlock =>
    rw [Run.terminate, Run.terminate, same.data]
    exact ⟨alike.started, alike.outcome, fun _ => ⟨rfl, same.completed, congrArg _ same.data, same.registers⟩⟩
  | «return» value =>
    rw [Run.terminate, Run.terminate, same.data]
    exact Alike.finish alike.started same tabled here.stack _ _ _
      (refused false _ fun entry => if_pos (beq_iff_eq.1 entry))
  | stop value =>
    have stays : (if classes.exits activation.function.kind = true then [] else callers) = callers := by
      split
      · next exits => exact (agreeing.outermost value activation callers here place (beq_iff_eq.1 exits)).symm
      · rfl
    rw [Run.terminate, Run.terminate, stays, same.data]
    exact Alike.finish alike.started same tabled here.stack _ _ _ (refused true _ fun _ => rfl)

theorem Alike.step (alike : Alike run native) (tabled : Tabled run) (agreeing : Agreeing semantics run) :
    Alike (run.step module semantics Interp.classes) (native.step module semantics classes) := by
  cases run.turn with
  | finished finished =>
    have same : native.outcome ≠ none ∨ native.stack = [] := by
      by_cases going : run.outcome = none
      · exact .inr ((alike.place going).stack.trans (finished.resolve_left (not_not.2 going)))
      · exact .inl (alike.outcome ▸ going)
    rw [Run.step_finished finished, Run.step_finished same]
    exact alike
  | completed activation callers here =>
    have checked := agreeing.checked activation callers here
    have goesOn : Interp.classes.interrupts activation.checked run.registers = none := by
      simp only [Interp.classes, ClassRegisters.interrupts]
      split
      · next code pending unchecked =>
        rw [unchecked, pending] at checked
        cases checked rfl
      · rfl
    have same := alike.place here.going
    rw [Run.step_completed here, Run.step_completed (alike.at here), Run.complete, Run.complete, goesOn]
    exact ⟨alike.started, alike.outcome, fun _ => ⟨rfl, rfl, same.data, same.registers⟩⟩
  | ensures className span activation callers here place =>
    rw [Run.step_ensures here place, Run.step_ensures (alike.at here) place]
    exact alike.ensureClass agreeing here place
  | executes instruction activation callers here place other =>
    have same := alike.place here.going
    rw [Run.step_executes here place other, Run.step_executes (alike.at here) place other, Run.execute, Run.execute,
      same.data]
    cases acts : semantics.execute instruction run.data with
    | done data => exact ⟨alike.started, alike.outcome, fun _ => ⟨same.stack, rfl, rfl, same.registers⟩⟩
    | call callee data =>
      exact ⟨alike.started, alike.outcome,
        fun _ => ⟨congrArg _ same.stack, same.completed, rfl, same.registers⟩⟩
    | stopping answer =>
      obtain ⟨answered, kept⟩ := same.registers.takeStopping
      exact ⟨alike.started, alike.outcome, fun _ => ⟨same.stack, rfl, congrArg answer answered.symm, kept⟩⟩
    | stopCode answer =>
      obtain ⟨pending, found⟩ := agreeing.taken instruction activation callers answer here place acts
      obtain ⟨code, kept⟩ := same.registers.takeStopCode pending found
      exact ⟨alike.started, alike.outcome, fun _ => ⟨same.stack, rfl, congrArg answer code.symm, kept⟩⟩
    | fail error => exact ⟨alike.started, rfl, fun ended => by cases ended⟩
  | terminates terminator activation callers here place =>
    rw [Run.step_terminates here place, Run.step_terminates (alike.at here) place]
    exact alike.terminate tabled agreeing here place
  | missing activation callers here place =>
    rw [Run.step_missing here place, Run.step_missing (alike.at here) place]
    exact ⟨alike.started, rfl, fun ended => by cases ended⟩

theorem alike_of_agreeing (steps : Nat)
    (agreeing : ∀ step < steps, Agreeing semantics (interpreted module semantics entry data step)) :
    Alike (interpreted module semantics entry data steps) (compiled module semantics entry data steps) := by
  induction steps with
  | zero =>
    refine ⟨rfl, rfl, fun _ => ⟨rfl, rfl, rfl, fun flag => ⟨fun set => ?_, ?_⟩, rfl, ?_, ?_⟩⟩
    · cases set
    · rintro ⟨className, -, known⟩
      exact absurd rfl known
    · intro code pending
      cases pending
    · intro _ code found
      cases found
  | succ steps ih =>
    have before := ih fun step earlier => agreeing step (by omega)
    rw [interpreted, compiled, Run.after_succ, Run.after_succ]
    exact before.step (tabled_interpreted steps) (agreeing steps (by omega))

theorem Alike.ensures (alike : Alike run native) {className : String} (ensures : native.Ensures className) :
    run.Ensures className := by
  obtain ⟨activation, callers, span, here, place⟩ := ensures
  exact ⟨activation, callers, span, alike.at_back here, place⟩

theorem Alike.initialisesOnce (alike : Alike run native) (tabled : Tabled run) (agreeing : Agreeing semantics run)
    (once : native.started.Nodup) : InitialisesOnce module semantics classes native := by
  have running {className : String} (ensures : native.Ensures className) (member : className ∈ native.initialising) :
      run.registers.classInit className = some .running := by
    obtain ⟨activation, callers, span, here, place⟩ := alike.ensures ensures
    rw [tabled.running, Run.initialising, ← (alike.place here.going).stack]
    exact member
  refine ⟨once, fun className takes member => ?_, fun className reenters => ?_⟩
  · exact agreeing.noReentry className (alike.ensures takes.1) (running takes.1 member)
  · exact absurd (running reenters.1 reenters.2) (agreeing.noReentry className (alike.ensures reenters.1))

/-- In every run whose steps are such that the back ends agree on them, both initialise alike. The interpreter
initialises every class once in all runs; native code starts no initialiser twice, but once the interpreter
reports a re-entry native code does not. -/
theorem classInitialisation_agrees (module : Module) (semantics : Semantics D) (entry : Function) (data : D) :
    (∀ steps, (∀ step ≤ steps, Agreeing semantics (interpreted module semantics entry data step)) →
      InitialiseAlike module semantics (interpreted module semantics entry data steps)
        (compiled module semantics entry data steps)) ∧
    (∀ steps, InitialisesOnce module semantics Interp.classes (interpreted module semantics entry data steps)) ∧
    (∀ steps, (compiled module semantics entry data steps).started.Nodup) ∧
    ∀ steps className, (interpreted module semantics entry data steps).Reenters className →
      ∀ later, (interpreted module semantics entry data (steps + 1)).outcome ≠
        (compiled module semantics entry data later).outcome := by
  refine ⟨fun steps agreeing => ?_, interpreter_initialisesOnce, compiled_started_nodup, ?_⟩
  · have alike : Alike (interpreted module semantics entry data steps)
        (compiled module semantics entry data steps) :=
      alike_of_agreeing steps fun step earlier => agreeing step (by omega)
    exact ⟨interpreter_initialisesOnce steps,
      alike.initialisesOnce (tabled_interpreted steps) (agreeing steps le_rfl) (compiled_started_nodup steps),
      alike.started.symm, alike.outcome.symm⟩
  · intro steps className reenters later same
    have reported := (interpreter_initialisesOnce steps).reported className reenters
    rw [interpreted, Run.after_succ] at same
    exact compiled_ne_cycle later className (same.symm.trans reported)

end

/-! ### Two programs -/

def oneBlock (name : String) (kind : FunctionKind) (owner : Option String) (instructions : List Instruction)
    (terminator : Terminator) : Function where
  name := name
  kind := kind
  owner := owner
  parameters := []
  weakSymbols := ∅
  returnType := .named "VOID"
  entry := 0
  blocks := [{ id := 0, instructions := instructions, terminator := terminator }]
  span := defaultModuleSpan

/-- What the initialisers need of the data, which is nothing. -/
def plainSemantics : Semantics Unit where
  execute _ _ := .done ()
  branch _ _ := false
  exitCode _ _ := 3
  returned _ _ := none
  edge _ _ _ := ()
  returns _ _ := ()
  stops _ := ()

/-- `Start` uses `A`, whose initialiser uses `A`. -/
def cycleStart : Function := oneBlock "Start" .entry none [.ensureClass "A" defaultModuleSpan] (.return none)

def cycleModule : Module where
  functions := [cycleStart, oneBlock "A.$init" .init (some "A") [.ensureClass "A" defaultModuleSpan] (.return none)]

/-- `Start` uses `A`, whose initialiser stops the program, and then `B`. -/
def stopStart : Function :=
  oneBlock "Start" .entry none [.ensureClass "A" defaultModuleSpan, .ensureClass "B" defaultModuleSpan] (.return none)

def stopModule : Module where
  functions := [stopStart, oneBlock "A.$init" .init (some "A") [] (.stop 0), oneBlock "B.$init" .init (some "B") []
    (.return none)]

/-- A re-entry that only the interpreter reports, and a `STOP` in an initialiser that only the interpreter
carries out. -/
theorem classInitialisation_differs :
    (¬InitialiseAlike cycleModule plainSemantics (interpreted cycleModule plainSemantics cycleStart () 6)
        (compiled cycleModule plainSemantics cycleStart () 6) ∧
      (interpreted cycleModule plainSemantics cycleStart () 6).outcome = some (.failed (.staticInitializationCycle "A")) ∧
      (compiled cycleModule plainSemantics cycleStart () 6).outcome = some .returned) ∧
    (interpreted stopModule plainSemantics stopStart () 8).started = ["A"] ∧
      (interpreted stopModule plainSemantics stopStart () 8).outcome = some (.exited 3) ∧
      (compiled stopModule plainSemantics stopStart () 8).started = ["B", "A"] ∧
      (compiled stopModule plainSemantics stopStart () 8).outcome = some .returned := by
  have reported : (interpreted cycleModule plainSemantics cycleStart () 6).outcome =
      some (.failed (.staticInitializationCycle "A")) := by decide
  have unreported : (compiled cycleModule plainSemantics cycleStart () 6).outcome = some .returned := by decide +kernel
  refine ⟨⟨fun alike => ?_, reported, unreported⟩, by decide, by decide, by decide +kernel, by decide +kernel⟩
  have same := alike.outcome
  rw [reported, unreported] at same
  cases same

end BasicNext.Native
