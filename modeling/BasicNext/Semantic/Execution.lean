import BasicNext.Semantic.Flow
import BasicNext.Semantic.NarrowingSound

/-!
# Executions of function bodies

A body runs on slots: each local that is declared has one, with the type of its declaration and a value of
that type. What an expression is worth is left open as far as types and narrowing allow, so every run of a
program is among the executions here; `RELEASE` ends a binding, and a run that uses it afterwards stops,
where the executions go on with its last value. A local changes by assignment, or reads `NULL` since its object
died. `Executes` is about what completes and `Reaches` about every
statement and condition on the way, also in runs that never end.
-/

namespace BasicNext.Semantic

open Frontend Interp

/-- The slot of a declared local. -/
structure Slot (world : World) where
  declared : Ty
  value : Value
  inhabits : Inhabits world value declared

/-- The locals that are declared and initialised. -/
abbrev Store (world : World) := String → Option (Slot world)

variable {world : World}

namespace Store

def values (store : Store world) : String → Option Value := fun name => (store name).map Slot.value

def set (store : Store world) (name : String) (slot : Slot world) : Store world :=
  fun other => if other = name then some slot else store other

/-- The bindings of a block end with it: those of `outer` are left. -/
def within (store outer : Store world) : Store world :=
  fun name => if (outer name).isSome then store name else none

/-- Expressions may count locals up and down, and their values stay of the types that they are of. -/
def Evolves (store after : Store world) : Prop :=
  (∀ name, store name = none → after name = none) ∧ ∀ name slot, store name = some slot → ∃ slot', after name = some slot' ∧
      slot'.declared = slot.declared ∧ ∀ ty, Inhabits world slot.value ty ↔ Inhabits world slot'.value ty

/-- The object of a local dies. Only an `AS WEAK` local outlives its object, and reads `NULL` from there on
(`weak_read`); which locals are weak their types do not say, so it may be any here whose type has `NULL`. -/
def Dies (mayDie : String → Prop) (store after : Store world) : Prop :=
  ∃ (name : String) (slot : Slot world) (nullable : Inhabits world .null slot.declared), store name = some slot ∧
    (∃ handle className, slot.value = .object handle className) ∧ mayDie name ∧
      after = store.set name { slot with value := .null, inhabits := nullable }

end Store

/-- What restricts the steps of an execution. -/
structure Guard (world : World) where
  /-- Asked at a `CONTINUE REPEAT`, with the statements of the body from the one that control leaves on, and with the
  slots there. -/
  continues : Block Locals → Store world → Prop
  /-- Asked of a local whose object dies, with the locals that are found not to be `NULL` on the way there. -/
  dies : List String → String → Prop

/-- Every local that is listed is declared and initialised, with a value of its type. -/
def Holds (store : Store world) (locals : Locals) : Prop :=
  ∀ (name : String) (symbol : Symbol), locals[name]? = some symbol →
    ∃ slot, store name = some slot ∧ slot.declared = symbol.declaredTy ∧ Inhabits world slot.value symbol.ty

/-! ### Expressions -/

/-- Conditions with short circuits. A test of a local is decided by its value; a part that settles no test may have
either value. -/
inductive Evaluates (scope : TypeScope) (mayDie : String → Prop) :
    Expression → Store world → Bool → Store world → Prop
  | not {operator operand store truth after} : operator = "NOT" →
      Evaluates scope mayDie operand store truth after →
      Evaluates scope mayDie (.unary operator operand) store (!truth) after
  | andLeft {operator left right store after} : operator = "AND" →
      Evaluates scope mayDie left store false after →
      Evaluates scope mayDie (.binary operator left right) store false after
  | andRight {operator left right store middle truth after} : operator = "AND" →
      Evaluates scope mayDie left store true middle →
      Evaluates scope mayDie right middle truth after →
      Evaluates scope mayDie (.binary operator left right) store truth after
  | orLeft {operator left right store after} : operator = "OR" →
      Evaluates scope mayDie left store true after →
      Evaluates scope mayDie (.binary operator left right) store true after
  | orRight {operator left right store middle truth after} : operator = "OR" →
      Evaluates scope mayDie left store false middle →
      Evaluates scope mayDie right middle truth after →
      Evaluates scope mayDie (.binary operator left right) store truth after
  | test {operator name right store truth after} (run : Evaluation) : isTestOperator operator = true →
      run.world = world → run.scope = scope → run.values = store.values →
      run.test operator (.name name) right = some truth → store.Evolves after →
      Evaluates scope mayDie (.binary operator (.name name) right) store truth after
  | free {condition store truth after} : narrowings condition true = [] → narrowings condition false = [] →
      store.Evolves after → Evaluates scope mayDie condition store truth after
  | dies {condition store middle truth after} : store.Dies mayDie middle →
      Evaluates scope mayDie condition middle truth after →
      Evaluates scope mayDie condition store truth after

/-- Each declaration in turn initialises its slot with a value of its type. -/
inductive Binds : List (String × DeclaredType) → Store world → Store world → Prop
  | nil {store} : Binds [] store store
  | cons {name declared rest store middle after} {slot : Slot world} : store.Evolves middle →
      slot.declared = declared.ty → Binds rest (middle.set name slot) after →
      Binds ((name, declared) :: rest) store after

/-- An assignment stores a value of the declared type in a local, or of the type that its place has in
`locals` in a part of it; anything else that it writes is no local. -/
inductive Writes (locals : Locals) : Target → Store world → Store world → Prop
  | name {name store} {slot slot' : Slot world} : store name = some slot →
      slot'.declared = slot.declared → Writes locals (.name name) store (store.set name slot')
  | global {name store} : store name = none → Writes locals (.name name) store store
  | part {root expression store} {slot slot' : Slot world} : store root = some slot → slot'.declared = slot.declared →
      (∀ symbol : Symbol, locals[root]? = some symbol → Inhabits world slot'.value symbol.ty) →
      Writes locals (.part (some root) expression) store (store.set root slot')
  | elsewhere {root expression store} : Writes locals (.part root expression) store store

/-! ### Locals found not to be `NULL` -/

/-- Whether a test that is settled leaves `NULL` out. -/
def leavesOutNull (scope : TypeScope) (test : Narrowing) : Bool :=
  match narrowingType scope test.operator test.right with
  | .ok (some testType) => compatible .null testType != testHolds test.operator test.truth
  | _ => false

/-- The locals that the value of a condition shows not to be `NULL`. -/
def foundNames (scope : TypeScope) (condition : Expression) (truth : Bool) : List String :=
  ((narrowings condition truth).filter (leavesOutNull scope)).map Narrowing.name

/-- What is found and not written since. -/
def stillFound (written found : List String) : List String := found.filter fun name => !written.contains name

/-- The locals that are found not to be `NULL` on the way to what follows a statement. Behind an `IF` that only its
untaken path leaves, these are what its conditions find too. -/
def foundBehind (scope : TypeScope) (found : List String) : Statement Locals → List String
  | .if_ _ branches =>
    if onlyUntaken branches then branches.conditions.flatMap (foundNames scope · false) ++ found
    else stillFound branches.written found
  | statement => stillFound statement.written found

def foundAtEnd (scope : TypeScope) (found : List String) : Block Locals → List String
  | .nil _ => found
  | .cons first rest =>
    if terminates first then foundBehind scope found first else foundAtEnd scope (foundBehind scope found first) rest

/-- The locals that are found not to be `NULL` where the body of a loop begins. -/
def foundIn (scope : TypeScope) (found : List String) : LoopHead Locals → List String
  | .while_ condition _ => foundNames scope condition true ++ found
  | _ => found

/-! ### Loops -/

/-- A loop begins an iteration. -/
def Enters (scope : TypeScope) (mayDie : String → Prop) (head : LoopHead Locals)
    (store after : Store world) : Prop :=
  match head with
  | .while_ condition _ => Evaluates scope mayDie condition store true after
  | .repeat_ .. => after = store
  | .for_ header => ∃ slot : Slot world, slot.declared = header.ty.ty ∧ after = store.set header.name slot

/-- A loop ends instead of an iteration. -/
def Ends (scope : TypeScope) (mayDie : String → Prop) (head : LoopHead Locals)
    (store after : Store world) : Prop :=
  match head with
  | .while_ condition _ => Evaluates scope mayDie condition store false after
  | .repeat_ .. => False
  | .for_ _ => after = store

/-- A loop goes on after an iteration. -/
def Repeats (scope : TypeScope) (mayDie : String → Prop) (head : LoopHead Locals)
    (store after : Store world) : Prop :=
  match head with
  | .repeat_ condition _ => Evaluates scope mayDie condition store false after
  | _ => after = store

/-- A loop ends after an iteration: `UNTIL` is true. -/
def Completes (scope : TypeScope) (mayDie : String → Prop) (head : LoopHead Locals)
    (store after : Store world) : Prop :=
  match head with
  | .repeat_ condition _ => Evaluates scope mayDie condition store true after
  | _ => False

/-- How control leaves a statement or a block. -/
inductive Outcome where
  | normal
  | jump (kind : Jump) (target : LoopKind)
  | returned
  | stopped
deriving DecidableEq

namespace Outcome

/-- Whether the body of a loop has come to the end of an iteration; `CONTINUE REPEAT` goes to `UNTIL`. -/
def EndsIteration (kind : LoopKind) (outcome : Outcome) : Prop := outcome = .normal ∨ outcome = .jump .continue_ kind

/-- How control leaves a loop whose body it leaves so. -/
def ofLoop (kind : LoopKind) (outcome : Outcome) : Outcome :=
  if outcome = .jump .exit kind then .normal else outcome

end Outcome

/-! ### Statements -/

inductive Task where
  | statement (statement : Statement Locals)
  /-- A block, with the loop whose body it is. -/
  | block (loop : Option LoopKind) (block : Block Locals)
  | branches (branches : Branches Locals)
  | loop (head : LoopHead Locals) (body : Block Locals)

inductive Executes (scope : TypeScope) (guard : Guard world) :
    List String → Task → Store world → Outcome → Store world → Prop
  | binding {found locals constant ty names store after} :
      Binds (names.map fun declared : Declared => (declared.name, ty)) store after →
      Executes scope guard found (.statement (.binding locals constant ty names)) store .normal after
  | destructuring {found locals bindings source store after} : Binds bindings store after →
      Executes scope guard found (.statement (.destructuring locals bindings source)) store .normal after
  | assignment {found locals target value store middle after} : store.Evolves middle → Writes locals target middle after →
      Executes scope guard found (.statement (.assignment locals target value)) store .normal after
  | input {found locals prompt target store middle after} : store.Evolves middle → Writes locals target middle after →
      Executes scope guard found (.statement (.input locals prompt target)) store .normal after
  | print {found locals values store after} : store.Evolves after →
      Executes scope guard found (.statement (.print locals values)) store .normal after
  | call {found locals expression store after} : store.Evolves after →
      Executes scope guard found (.statement (.call locals expression)) store .normal after
  | release {found locals value store after} : store.Evolves after →
      Executes scope guard found (.statement (.release locals value)) store .normal after
  | return_ {found locals value store after} : store.Evolves after →
      Executes scope guard found (.statement (.return_ locals value)) store .returned after
  | stop {found locals code store after} : store.Evolves after →
      Executes scope guard found (.statement (.stop locals code)) store .stopped after
  | control {found locals kind target store} :
      Executes scope guard found (.statement (.control locals kind target)) store (.jump kind target) store
  | if_ {found locals branches store outcome after} : Executes scope guard found (.branches branches) store outcome after →
      Executes scope guard found (.statement (.if_ locals branches)) store outcome after
  | loop {found locals head body store middle outcome after} : store.Evolves middle →
      Executes scope guard (stillFound body.written found) (.loop head body) middle outcome after →
      Executes scope guard found (.statement (.loop locals head body)) store outcome after
  | nil {found loop note store} : Executes scope guard found (.block loop (.nil note)) store .normal store
  | cons {found loop first rest store middle outcome after} :
      Executes scope guard found (.statement first) store .normal middle →
      Executes scope guard (foundBehind scope found first) (.block loop rest) middle outcome after →
      Executes scope guard found (.block loop (.cons first rest)) store outcome after
  | leave {found loop first rest store outcome after} : Executes scope guard found (.statement first) store outcome after →
      outcome ≠ .normal →
      (loop = some .repeat_ → outcome = .jump .continue_ .repeat_ → guard.continues (.cons first rest) after) →
      Executes scope guard found (.block loop (.cons first rest)) store outcome after
  | dies {found task store middle outcome after} : (∀ statement, task ≠ .statement statement) →
      store.Dies (guard.dies found) middle → Executes scope guard found task middle outcome after →
      Executes scope guard found task store outcome after
  | untaken {found note store} : Executes scope guard found (.branches (.untaken note)) store .normal store
  | otherwise {found body store outcome after} : Executes scope guard found (.block none body) store outcome after →
      Executes scope guard found (.branches (.otherwise body)) store outcome (after.within store)
  | taken {found note condition body rest store middle outcome after} :
      Evaluates scope (guard.dies (foundNames scope condition true ++ found)) condition store true middle →
      Executes scope guard (foundNames scope condition true ++ found) (.block none body) middle outcome after →
      Executes scope guard found (.branches (.branch note condition body rest)) store outcome (after.within store)
  | next {found note condition body rest store middle outcome after} :
      Evaluates scope (guard.dies (foundNames scope condition false ++ found)) condition store false middle →
      Executes scope guard (foundNames scope condition false ++ found) (.branches rest) middle outcome after →
      Executes scope guard found (.branches (.branch note condition body rest)) store outcome after
  | ends {found head body store after} : Ends scope (guard.dies found) head store after →
      Executes scope guard found (.loop head body) store .normal after
  | left {found head body store entered outcome after} :
      Enters scope (guard.dies (foundIn scope found head)) head store entered →
      Executes scope guard (foundIn scope found head) (.block (some head.kind) body) entered outcome after →
      ¬outcome.EndsIteration head.kind →
      Executes scope guard found (.loop head body) store (outcome.ofLoop head.kind) (after.within store)
  | completes {found head body store entered outcome middle after} :
      Enters scope (guard.dies (foundIn scope found head)) head store entered →
      Executes scope guard (foundIn scope found head) (.block (some head.kind) body) entered outcome middle →
      outcome.EndsIteration head.kind →
      Completes scope (guard.dies (foundAtEnd scope (foundIn scope found head) body)) head middle after →
      Executes scope guard found (.loop head body) store .normal (after.within store)
  | repeats {found head body store entered outcome middle again outcome' after} :
      Enters scope (guard.dies (foundIn scope found head)) head store entered →
      Executes scope guard (foundIn scope found head) (.block (some head.kind) body) entered outcome middle →
      outcome.EndsIteration head.kind →
      Repeats scope (guard.dies (foundAtEnd scope (foundIn scope found head) body)) head middle again →
      Executes scope guard found (.loop head body) (again.within store) outcome' after →
      Executes scope guard found (.loop head body) store outcome' after

/-- An execution of a task comes to a statement, a condition or the end of a block with this note, and
these slots. -/
inductive Reaches (scope : TypeScope) (guard : Guard world) :
    List String → Task → Store world → Locals → Store world → Prop
  | statement {found statement store} : Reaches scope guard found (.statement statement) store statement.note store
  | if_ {found locals branches store note reached} : Reaches scope guard found (.branches branches) store note reached →
      Reaches scope guard found (.statement (.if_ locals branches)) store note reached
  | loop {found locals head body store middle note reached} : store.Evolves middle →
      Reaches scope guard (stillFound body.written found) (.loop head body) middle note reached →
      Reaches scope guard found (.statement (.loop locals head body)) store note reached
  | nil {found loop note store} : Reaches scope guard found (.block loop (.nil note)) store note store
  | first {found loop first rest store note reached} : Reaches scope guard found (.statement first) store note reached →
      Reaches scope guard found (.block loop (.cons first rest)) store note reached
  | rest {found loop first rest store middle note reached} :
      Executes scope guard found (.statement first) store .normal middle →
      Reaches scope guard (foundBehind scope found first) (.block loop rest) middle note reached →
      Reaches scope guard found (.block loop (.cons first rest)) store note reached
  | condition {found note condition body rest store} :
      Reaches scope guard found (.branches (.branch note condition body rest)) store note store
  | otherwise {found body store note reached} : Reaches scope guard found (.block none body) store note reached →
      Reaches scope guard found (.branches (.otherwise body)) store note reached
  | taken {found note condition body rest store middle listed reached} :
      Evaluates scope (guard.dies (foundNames scope condition true ++ found)) condition store true middle →
      Reaches scope guard (foundNames scope condition true ++ found) (.block none body) middle listed reached →
      Reaches scope guard found (.branches (.branch note condition body rest)) store listed reached
  | next {found note condition body rest store middle listed reached} :
      Evaluates scope (guard.dies (foundNames scope condition false ++ found)) condition store false middle →
      Reaches scope guard (foundNames scope condition false ++ found) (.branches rest) middle listed reached →
      Reaches scope guard found (.branches (.branch note condition body rest)) store listed reached
  | whileCondition {found condition note body store} :
      Reaches scope guard found (.loop (.while_ condition note) body) store note store
  | body {found head body store entered note reached} :
      Enters scope (guard.dies (foundIn scope found head)) head store entered →
      Reaches scope guard (foundIn scope found head) (.block (some head.kind) body) entered note reached →
      Reaches scope guard found (.loop head body) store note reached
  | untilCondition {found condition note body store outcome middle reached} :
      Executes scope guard found (.block (some .repeat_) body) store outcome middle →
      outcome.EndsIteration .repeat_ → Relation.ReflTransGen (Store.Dies (guard.dies (foundAtEnd scope found body))) middle reached →
      Reaches scope guard found (.loop (.repeat_ condition note) body) store note reached
  | again {found head body store entered outcome middle next note reached} :
      Enters scope (guard.dies (foundIn scope found head)) head store entered →
      Executes scope guard (foundIn scope found head) (.block (some head.kind) body) entered outcome middle →
      outcome.EndsIteration head.kind →
      Repeats scope (guard.dies (foundAtEnd scope (foundIn scope found head) body)) head middle next →
      Reaches scope guard found (.loop head body) (next.within store) note reached →
      Reaches scope guard found (.loop head body) store note reached
  | dies {found task store middle note reached} : (∀ statement, task ≠ .statement statement) →
      store.Dies (guard.dies found) middle → Reaches scope guard found task middle note reached →
      Reaches scope guard found task store note reached

end BasicNext.Semantic
