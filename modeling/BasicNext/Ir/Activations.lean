import BasicNext.Ir.Model

/-!
# Runs of a module

A run is a stack of activations over the blocks of the functions, the data that the instructions work on, and
what a back end keeps of class initialisation and of `STOP`. The two back ends differ in the latter only
(`BackEnd`): what every other instruction does to the data is a parameter (`Semantics`).
-/

namespace BasicNext.Ir

variable {D K : Type*}

/-! ### Instructions -/

/-- What an instruction that initialises no class does next. After a call the instruction is asked again. -/
inductive Action (D : Type*)
  | done (data : D)
  | call (callee : Function) (data : D)
  /-- `$stopping`, with the data for each answer. -/
  | stopping (answer : Bool → D)
  /-- `$stop_code`, with the data for each code. -/
  | stopCode (answer : Int → D)
  | fail (error : String)

structure Semantics (D : Type*) where
  execute : Instruction → D → Action D
  branch : ValueId → D → Bool
  exitCode : ValueId → D → Int
  /-- What a function returns, where it is an `INTEGER`. -/
  returned : Option ValueId → D → Option Int
  /-- Control goes from one block to another. -/
  edge : BlockId → BlockId → D → D
  returns : Option ValueId → D → D
  /-- The frame of a function that stops is given back. -/
  stops : D → D

inductive Failure
  | staticInitializationCycle (className : String)
  | invalidExitCode
  | runtime (error : String)
deriving DecidableEq

inductive Outcome
  | returned
  | exited (code : Int)
  | failed (failure : Failure)
deriving DecidableEq

/-- The numbers that a program can exit with. -/
def IsExitCode (code : Int) : Prop := 0 ≤ code ∧ code ≤ 255

instance : DecidablePred IsExitCode := fun code => inferInstanceAs (Decidable (0 ≤ code ∧ code ≤ 255))

/-- `exit_code`, of the code of a `STOP` or the number that `Start` returns. -/
def Outcome.ofStatus : Option Int → Outcome
  | none => .returned
  | some code => if IsExitCode code then .exited code else .failed .invalidExitCode

/-! ### Activations -/

/-- A place in a function, and the class whose initialiser the function is run as. -/
structure Activation where
  function : Function
  block : BlockId
  index : Nat
  initialises : Option String

inductive Place
  | instruction (instruction : Instruction)
  | terminator (terminator : Terminator)
  | missing

namespace Activation

def enter (function : Function) (initialises : Option String) : Activation where
  function := function
  block := function.entry
  index := 0
  initialises := initialises

/-- `find_block` -/
def findBlock (activation : Activation) : Option BasicBlock :=
  activation.function.blocks.find? fun block => block.id == activation.block

def place (activation : Activation) : Place :=
  match activation.findBlock with
  | none => .missing
  | some block =>
    match block.instructions[activation.index]? with
    | some instruction => .instruction instruction
    | none => .terminator block.terminator

def advance (activation : Activation) : Activation := { activation with index := activation.index + 1 }

def goTo (activation : Activation) (block : BlockId) : Activation := { activation with block := block, index := 0 }

end Activation

/-- `is_stop_check`: the function constant of a `$stopping` check. -/
def isStopCheck : Instruction → Bool
  | .constant _ (.function name) _ _ => name == "$stopping"
  | _ => false

/-- The instruction of a place is a stop check or comes right before one. -/
def Activation.checked (activation : Activation) : Bool :=
  match activation.findBlock with
  | none => false
  | some block =>
    block.instructions[activation.index]?.any isStopCheck || block.instructions[activation.index + 1]?.any isStopCheck

/-! ### Back ends -/

/-- The answer of a back end to an `EnsureClass`. -/
inductive Entry (K : Type*)
  | ready
  | reentered
  | start (registers : K)

/-- What a back end keeps of class initialisation and of `STOP`. -/
structure BackEnd (K : Type*) where
  initial : K
  ensureClass : String → K → Entry K
  /-- The initialiser of a class is left. -/
  initialised : String → K → K
  /-- A function is left with `STOP`. -/
  stop : Int → K → K
  /-- After an instruction, checked or not, the function is left with `STOP`. -/
  interrupts : Bool → K → Option (Int × K)
  stopping : K → Bool × K
  stopCode : K → Int × K
  /-- A `STOP` in a function of this kind ends the program, whatever called it. -/
  exits : FunctionKind → Bool
  /-- A function, left with `STOP` or not, traps on a status that is no exit code, before the program ends. -/
  refuses : Bool → FunctionKind → Option Int → Bool

/-- The innermost activation comes first; `completed` says that its instruction is carried out. `started` lists
the classes whose initialisers were started, the last one first. -/
structure Run (D K : Type*) where
  stack : List Activation
  completed : Bool
  data : D
  registers : K
  started : List String
  outcome : Option Outcome

namespace Run

variable (module : Module) (semantics : Semantics D) (backEnd : BackEnd K)

def fail (run : Run D K) (failure : Failure) : Run D K := { run with outcome := some (.failed failure) }

/-- The innermost activation is left, with the code of a `STOP` or without; the outermost one gives the status of the
program. -/
def leave (run : Run D K) (activation : Activation) (callers : List Activation) (code status : Option Int) :
    Run D K where
  stack := callers
  completed := activation.initialises.isSome
  data := run.data
  registers :=
    let registers := code.elim run.registers fun code => backEnd.stop code run.registers
    activation.initialises.elim registers fun className => backEnd.initialised className registers
  started := run.started
  outcome := if callers.isEmpty then some (.ofStatus status) else none

/-- The instruction is carried out: on to the next one, unless the back end stops here. -/
def complete (run : Run D K) (activation : Activation) (callers : List Activation) : Run D K :=
  match backEnd.interrupts activation.checked run.registers with
  | some (code, registers) =>
    leave backEnd { run with registers := registers, data := semantics.stops run.data } activation callers (some code)
      (some code)
  | none => { run with stack := activation.advance :: callers, completed := false }

/-- `EnsureClass` -/
def ensureClass (run : Run D K) (className : String) : Run D K :=
  match backEnd.ensureClass className run.registers with
  | .ready => { run with completed := true }
  | .reentered => run.fail (.staticInitializationCycle className)
  | .start registers =>
    match module.functionOfKind .init className with
    | some function =>
      { run with
        stack := .enter function (some className) :: run.stack
        registers := registers
        started := className :: run.started }
    | none => { run with registers := backEnd.initialised className registers, completed := true }

def execute (run : Run D K) (instruction : Instruction) : Run D K :=
  match semantics.execute instruction run.data with
  | .done data => { run with data := data, completed := true }
  | .call callee data => { run with stack := .enter callee none :: run.stack, data := data }
  | .stopping answer =>
    let (answered, registers) := backEnd.stopping run.registers
    { run with data := answer answered, registers := registers, completed := true }
  | .stopCode answer =>
    let (code, registers) := backEnd.stopCode run.registers
    { run with data := answer code, registers := registers, completed := true }
  | .fail error => run.fail (.runtime error)

def jump (run : Run D K) (activation : Activation) (callers : List Activation) (target : BlockId) : Run D K :=
  { run with
    stack := activation.goTo target :: callers
    data := semantics.edge activation.block target run.data }

/-- The function ends. -/
def finish (run : Run D K) (activation : Activation) (callers : List Activation) (data : D) (code status : Option Int) :
    Run D K :=
  if backEnd.refuses code.isSome activation.function.kind status then run.fail .invalidExitCode
  else leave backEnd { run with data := data } activation callers code status

def terminate (run : Run D K) (activation : Activation) (callers : List Activation) : Terminator → Run D K
  | .jump target => run.jump semantics activation callers target
  | .branch condition thenBlock elseBlock =>
    run.jump semantics activation callers (if semantics.branch condition run.data then thenBlock else elseBlock)
  | .return value =>
    run.finish backEnd activation callers (semantics.returns value run.data) none (semantics.returned value run.data)
  | .stop value =>
    let callers := if backEnd.exits activation.function.kind then [] else callers
    let code := some (semantics.exitCode value run.data)
    run.finish backEnd activation callers (semantics.stops run.data) code code

def step (run : Run D K) : Run D K :=
  match run.outcome, run.stack with
  | none, activation :: callers =>
    if run.completed then run.complete semantics backEnd activation callers
    else
      match activation.place with
      | .instruction (.ensureClass className _) => run.ensureClass module backEnd className
      | .instruction instruction => run.execute semantics backEnd instruction
      | .terminator terminator => run.terminate semantics backEnd activation callers terminator
      | .missing => run.fail (.runtime "INVALID_IR")
  | _, _ => run

/-- The program is at the beginning of its entry function. -/
def start (entry : Function) (data : D) : Run D K where
  stack := [.enter entry none]
  completed := false
  data := data
  registers := backEnd.initial
  started := []
  outcome := none

def after (entry : Function) (data : D) (steps : Nat) : Run D K :=
  (step module semantics backEnd)^[steps] (start backEnd entry data)

/-! ### What a run is about to do -/

/-- The run is at a place with an innermost activation, whose instruction is carried out or not. -/
structure At (run : Run D K) (completed : Bool) (activation : Activation) (callers : List Activation) : Prop where
  going : run.outcome = none
  completed : run.completed = completed
  stack : run.stack = activation :: callers

/-- The next step is an `EnsureClass` of a class. -/
def Ensures (run : Run D K) (className : String) : Prop :=
  ∃ activation callers span, run.At false activation callers ∧ activation.place = .instruction (.ensureClass className span)

/-- The classes whose initialisers run, the innermost first. -/
def initialising (run : Run D K) : List String := run.stack.filterMap Activation.initialises

/-- The next step enters a class again whose initialiser runs. -/
def Reenters (run : Run D K) (className : String) : Prop := run.Ensures className ∧ className ∈ run.initialising

def TakesReady (run : Run D K) (className : String) : Prop :=
  run.Ensures className ∧ backEnd.ensureClass className run.registers = .ready

end Run

/-- Class initialisation as it should be: an initialiser starts once, a class is not taken for ready before its
initialiser has returned, and a re-entry is reported. -/
structure InitialisesOnce (module : Module) (semantics : Semantics D) (backEnd : BackEnd K) (run : Run D K) :
    Prop where
  once : run.started.Nodup
  waits : ∀ className, run.TakesReady backEnd className → className ∉ run.initialising
  reported : ∀ className, run.Reenters className →
    (run.step module semantics backEnd).outcome = some (.failed (.staticInitializationCycle className))

/-! ### Steps -/

namespace Run

variable {module : Module} {semantics : Semantics D} {backEnd : BackEnd K} {run : Run D K}
  {activation : Activation} {callers : List Activation}

/-- The kinds of a step. -/
inductive Turn (run : Run D K) : Prop
  | finished : run.outcome ≠ none ∨ run.stack = [] → Turn run
  | completed (activation : Activation) (callers : List Activation) : run.At true activation callers → Turn run
  | ensures (className : String) (span : Span) (activation : Activation) (callers : List Activation) :
      run.At false activation callers → activation.place = .instruction (.ensureClass className span) → Turn run
  | executes (instruction : Instruction) (activation : Activation) (callers : List Activation) :
      run.At false activation callers → activation.place = .instruction instruction →
      (∀ className span, instruction ≠ .ensureClass className span) → Turn run
  | terminates (terminator : Terminator) (activation : Activation) (callers : List Activation) :
      run.At false activation callers → activation.place = .terminator terminator → Turn run
  | missing (activation : Activation) (callers : List Activation) :
      run.At false activation callers → activation.place = .missing → Turn run

theorem turn (run : Run D K) : Turn run := by
  by_cases going : run.outcome = none
  · cases stack : run.stack with
    | nil => exact .finished (.inr stack)
    | cons activation callers =>
      cases completed : run.completed with
      | true => exact .completed activation callers ⟨going, completed, stack⟩
      | false =>
        have here : run.At false activation callers := ⟨going, completed, stack⟩
        cases place : activation.place with
        | terminator terminator => exact .terminates terminator activation callers here place
        | missing => exact .missing activation callers here place
        | instruction instruction =>
          by_cases ensures : ∃ className span, instruction = .ensureClass className span
          · obtain ⟨className, span, rfl⟩ := ensures
            exact .ensures className span activation callers here place
          · push Not at ensures
            exact .executes instruction activation callers here place ensures
  · exact .finished (.inl going)

theorem step_finished (finished : run.outcome ≠ none ∨ run.stack = []) :
    run.step module semantics backEnd = run := by
  unfold step
  split
  · next going stack => rcases finished with h | h <;> simp_all
  · rfl

theorem step_completed (here : run.At true activation callers) :
    run.step module semantics backEnd = run.complete semantics backEnd activation callers := by
  rw [step, here.going, here.stack]
  simp only [here.completed, if_true]

theorem step_ensures {className : String} {span : Span} (here : run.At false activation callers)
    (place : activation.place = .instruction (.ensureClass className span)) :
    run.step module semantics backEnd = run.ensureClass module backEnd className := by
  rw [step, here.going, here.stack]
  simp only [here.completed, Bool.false_eq_true, if_false, place]

theorem step_executes {instruction : Instruction} (here : run.At false activation callers)
    (place : activation.place = .instruction instruction)
    (other : ∀ className span, instruction ≠ .ensureClass className span) :
    run.step module semantics backEnd = run.execute semantics backEnd instruction := by
  rw [step, here.going, here.stack]
  simp only [here.completed, Bool.false_eq_true, if_false, place]

theorem step_terminates {terminator : Terminator} (here : run.At false activation callers)
    (place : activation.place = .terminator terminator) :
    run.step module semantics backEnd = run.terminate semantics backEnd activation callers terminator := by
  rw [step, here.going, here.stack]
  simp only [here.completed, Bool.false_eq_true, if_false, place]

theorem step_missing (here : run.At false activation callers) (place : activation.place = .missing) :
    run.step module semantics backEnd = run.fail (.runtime "INVALID_IR") := by
  rw [step, here.going, here.stack]
  simp only [here.completed, Bool.false_eq_true, if_false, place]

theorem after_succ (entry : Function) (data : D) (steps : Nat) :
    after module semantics backEnd entry data (steps + 1) =
      (after module semantics backEnd entry data steps).step module semantics backEnd :=
  Function.iterate_succ_apply' ..

/-! ### An initialiser starts once -/

/-- What the registers say of the classes whose initialisers were started. -/
structure Marks (backEnd : BackEnd K) (entered : K → String → Prop) : Prop where
  start : ∀ className registers next, backEnd.ensureClass className registers = .start next →
    ¬entered registers className ∧ entered next className ∧ ∀ other, entered registers other → entered next other
  initialised : ∀ className registers other, entered registers other →
    entered (backEnd.initialised className registers) other
  stop : ∀ code registers other, entered registers other → entered (backEnd.stop code registers) other
  interrupts : ∀ checked registers code next other, backEnd.interrupts checked registers = some (code, next) →
    entered registers other → entered next other
  stopping : ∀ registers other, entered registers other → entered (backEnd.stopping registers).2 other
  stopCode : ∀ registers other, entered registers other → entered (backEnd.stopCode registers).2 other

/-- Every initialiser was started once, and is marked. -/
structure StartedOnce (entered : K → String → Prop) (run : Run D K) : Prop where
  nodup : run.started.Nodup
  marked : ∀ className ∈ run.started, entered run.registers className

variable {entered : K → String → Prop}

theorem StartedOnce.leave (marks : Marks backEnd entered) (once : StartedOnce entered run) (code status : Option Int) :
    StartedOnce entered (run.leave backEnd activation callers code status) := by
  refine ⟨once.nodup, fun className member => ?_⟩
  have marked := once.marked className member
  have stopped : entered (code.elim run.registers fun code => backEnd.stop code run.registers) className := by
    cases code with
    | none => exact marked
    | some code => exact marks.stop code _ _ marked
  unfold Run.leave
  cases activation.initialises with
  | none => exact stopped
  | some other => exact marks.initialised other _ _ stopped

theorem StartedOnce.finish (marks : Marks backEnd entered) (once : StartedOnce entered run) (data : D)
    (code status : Option Int) : StartedOnce entered (run.finish backEnd activation callers data code status) := by
  rw [Run.finish]
  split
  · exact ⟨once.nodup, once.marked⟩
  · apply StartedOnce.leave marks
    exact ⟨once.nodup, once.marked⟩

theorem StartedOnce.step (marks : Marks backEnd entered) (once : StartedOnce entered run) :
    StartedOnce entered (run.step module semantics backEnd) := by
  cases run.turn with
  | finished finished =>
    rw [step_finished finished]
    exact once
  | completed activation callers here =>
    rw [step_completed here, complete]
    split
    · next code registers interrupts =>
      apply StartedOnce.leave marks
      exact ⟨once.nodup, fun className member =>
        marks.interrupts _ _ _ _ _ interrupts (once.marked className member)⟩
    · exact ⟨once.nodup, once.marked⟩
  | ensures className span activation callers here place =>
    rw [step_ensures here place, Run.ensureClass]
    split
    · exact ⟨once.nodup, once.marked⟩
    · exact ⟨once.nodup, once.marked⟩
    · next registers started =>
      obtain ⟨fresh, marked, grows⟩ := marks.start _ _ _ started
      split
      · refine ⟨List.nodup_cons.2 ⟨fun member => fresh (once.marked _ member), once.nodup⟩, ?_⟩
        intro other member
        rcases List.mem_cons.1 member with rfl | earlier
        · exact marked
        · exact grows _ (once.marked _ earlier)
      · exact ⟨once.nodup, fun other member => marks.initialised _ _ _ (grows _ (once.marked _ member))⟩
  | executes instruction activation callers here place other =>
    rw [step_executes here place other, Run.execute]
    split
    · exact ⟨once.nodup, once.marked⟩
    · exact ⟨once.nodup, once.marked⟩
    · exact ⟨once.nodup, fun className member => marks.stopping _ _ (once.marked className member)⟩
    · exact ⟨once.nodup, fun className member => marks.stopCode _ _ (once.marked className member)⟩
    · exact ⟨once.nodup, once.marked⟩
  | terminates terminator activation callers here place =>
    rw [step_terminates here place]
    cases terminator with
    | jump target => exact ⟨once.nodup, once.marked⟩
    | branch condition thenBlock elseBlock => exact ⟨once.nodup, once.marked⟩
    | «return» value => exact once.finish marks ..
    | stop value => exact once.finish marks ..
  | missing activation callers here place =>
    rw [step_missing here place]
    exact ⟨once.nodup, once.marked⟩

theorem StartedOnce.after (marks : Marks backEnd entered) (entry : Function) (data : D) (steps : Nat) :
    StartedOnce entered (after module semantics backEnd entry data steps) := by
  induction steps with
  | zero => exact ⟨List.nodup_nil, fun className member => absurd member List.not_mem_nil⟩
  | succ steps ih => exact after_succ entry data steps ▸ ih.step marks

end Run

end BasicNext.Ir
