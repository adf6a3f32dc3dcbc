import BasicNext.Interp.Executor
import BasicNext.Ir.DefiniteAssignment
import BasicNext.Lib.ParallelMoves
import BasicNext.Lib.Transition

/-!
# Phis

On the way into a block the interpreter carries out the phis of the block one after the other
(`bn_interp::executor::part1`). In native code a phi names the label at which the code of a predecessor ends
(`bn_llvm::llvm::control_flow`), and all phis of a block read the registers as they were at that end.
-/

namespace BasicNext.Interp

open Ir

variable {V : Type*}

/-- `value`: the slot of a value. -/
def readValue (values : ValueId → Option V) (id : ValueId) : Except RuntimeError V :=
  match values id with
  | some value => .ok value
  | none => .error (.invalidIr ("value %" ++ toString id ++ " is undefined"))

/-- The operand of a phi for a predecessor. -/
def incomingValue (incoming : List (BlockId × ValueId)) (predecessor : BlockId) : Option ValueId :=
  (incoming.find? fun candidate => candidate.1 = predecessor).map Prod.snd

/-- A phi of the control-flow loop; other instructions are executed elsewhere. -/
def executePhi (previousBlock : Option BlockId) (values : ValueId → Option V) (instruction : Instruction) :
    Except RuntimeError (ValueId → Option V) :=
  match instruction with
  | .phi destination incoming _ _ =>
    match previousBlock with
    | none => .error (.invalidIr "Phi cannot execute in the function entry block")
    | some predecessor =>
      match incomingValue incoming predecessor with
      | none => .error (.invalidIr "Phi has no incoming value for the predecessor block")
      | some source => do
        let selected ← readValue values source
        .ok (Function.update values destination (some selected))
  | _ => .ok values

/-- The phis of a block, one after the other. -/
def executePhis (previousBlock : Option BlockId) (phis : List Instruction) (values : ValueId → Option V) :
    Except RuntimeError (ValueId → Option V) :=
  phis.foldlM (executePhi previousBlock) values

end BasicNext.Interp

namespace BasicNext.Native

open Ir Lib
open Interp (executePhi executePhis incomingValue readValue)

variable {V : Type*}

/-! ### Phis of LLVM -/

/-- The labels at which the code of the blocks ends. A label is used once, and every block that is emitted is
finished. -/
structure Exits (function : Function) where
  exits : BlockId → Option String
  finished : ∀ path index, function.IsPath path index → (exits index).isSome
  distinct : ∀ block other label, exits block = some label → exits other = some label → block = other

/-- `resolve`: the registers of a phi with the labels they come from. -/
def resolve {function : Function} (labels : Exits function) (incoming : List (BlockId × ValueId)) :
    List (ValueId × String) :=
  incoming.filterMap fun (block, value) => (labels.exits block).map fun label => (value, label)

/-- The register that a phi of LLVM reads when control comes from a label. -/
def selected (incoming : List (ValueId × String)) (label : String) : Option ValueId :=
  (incoming.find? fun candidate => candidate.2 = label).map Prod.fst

/-- The moves of the phis of a block, for the label at the end of a predecessor. -/
def llvmMoves {function : Function} (labels : Exits function) (label : String) (phis : List Instruction) :
    List (ValueId × ValueId) :=
  phis.filterMap fun
    | .phi destination incoming _ _ => (selected (resolve labels incoming) label).map fun source => (destination, source)
    | _ => none

/-- All phis of a block read the registers at the end of the predecessor. -/
def llvmPhis {function : Function} (labels : Exits function) (label : String) (phis : List Instruction)
    (registers : ValueId → Option V) : ValueId → Option V :=
  simultaneous (llvmMoves labels label phis) registers

/-! ### Runs of the interpreter -/

/-- The phis with which a block begins. -/
def phisAt (function : Function) (index : Nat) : List Instruction :=
  (function.instructionsAt index).takeWhile Instruction.isPhi

/-- A place in a function: the instructions of the block that are done, those that are left, and the slots. -/
structure PhiRun (V : Type*) where
  block : Nat
  done : List Instruction
  rest : List Instruction
  values : ValueId → Option V

/-- The runs of a function: on the way into a block its phis are executed, any other instruction that does not
fail sets the value it defines. -/
def phiRuns (V : Type*) (function : Function) : System (PhiRun V) Unit where
  initial run := run.block = function.entry ∧ run.done = [] ∧ run.rest = function.instructionsAt function.entry ∧
    ∀ value, run.values value = none
  step run _ next :=
    (∃ instruction, instruction.isPhi = false ∧ run.rest = instruction :: next.rest ∧
        next.done = run.done ++ [instruction] ∧ next.block = run.block ∧
        ∀ value, if instructionDefines instruction = some value then (next.values value).isSome
          else next.values value = run.values value) ∨
      (run.rest = [] ∧ function.Edge run.block next.block ∧ next.done = phisAt function next.block ∧
        next.rest = (function.instructionsAt next.block).dropWhile Instruction.isPhi ∧
        executePhis (some run.block) (phisAt function next.block) run.values = .ok next.values)

/-- Every phi of a block gets the value that its operand had at the end of the predecessor, in the interpreter
and in native code. -/
def PhisAgree {function : Function} (labels : Exits function) (predecessor target : Nat)
    (values : ValueId → Option V) : Prop :=
  ∃ next label, labels.exits predecessor = some label ∧
    executePhis (some predecessor) (phisAt function target) values = .ok next ∧
    llvmPhis labels label (phisAt function target) values = next ∧
    ∀ destination incoming ty span, .phi destination incoming ty span ∈ phisAt function target →
      ∃ source, incomingValue incoming predecessor = some source ∧ next destination = values source

/-! ### The moves of the phis -/

def phiMoves (predecessor : BlockId) (phis : List Instruction) : List (ValueId × ValueId) :=
  phis.filterMap fun
    | .phi destination incoming _ _ => (incomingValue incoming predecessor).map fun source => (destination, source)
    | _ => none

/-- No phi takes for the predecessor the destination of an earlier phi of the block, unless that phi leaves its
slot as it is. -/
def NoStalePhi (function : Function) (predecessor target : Nat) (values : ValueId → Option V) : Prop :=
  (phiMoves predecessor (phisAt function target)).Pairwise fun first later =>
    later.2 = first.1 → values first.2 = values first.1

section

variable {function : Function} {predecessor target : Nat} {values : ValueId → Option V} {phis : List Instruction}
  {label : String}

def Ready (predecessor : BlockId) (values : ValueId → Option V) (instruction : Instruction) : Prop :=
  ∃ destination incoming ty span source, instruction = .phi destination incoming ty span ∧
    incomingValue incoming predecessor = some source ∧ (values source).isSome

theorem phiMoves_cons {destination source : ValueId} {incoming : List (BlockId × ValueId)} {ty : Ty} {span : Span}
    (found : incomingValue incoming predecessor = some source) :
    phiMoves predecessor (.phi destination incoming ty span :: phis) = (destination, source) :: phiMoves predecessor phis :=
  List.filterMap_cons_some (by simp only; rw [found]; rfl)

theorem executePhis_eq (ready : ∀ phi ∈ phis, Ready predecessor values phi) :
    executePhis (some predecessor) phis values = .ok (sequential (phiMoves predecessor phis) values) := by
  induction phis generalizing values with
  | nil => rfl
  | cons phi phis ih =>
    obtain ⟨destination, incoming, ty, span, source, rfl, found, present⟩ := ready phi List.mem_cons_self
    obtain ⟨selected, holds⟩ := Option.isSome_iff_exists.1 present
    have first : executePhi (some predecessor) values (.phi destination incoming ty span) =
        .ok (Function.update values destination (values source)) := by
      rw [executePhi, found]
      simp only
      rw [readValue, holds]
      rfl
    have later : ∀ phi ∈ phis, Ready predecessor (Function.update values destination (values source)) phi := by
      intro phi member
      obtain ⟨destination', incoming', ty', span', source', same, found', present'⟩ :=
        ready phi (List.mem_cons_of_mem _ member)
      refine ⟨destination', incoming', ty', span', source', same, found', ?_⟩
      rw [Function.update_apply]
      split
      · exact present
      · exact present'
    rw [executePhis, List.foldlM_cons, first, phiMoves_cons found]
    exact ih later

theorem selected_resolve (labels : Exits function) (exit : labels.exits predecessor = some label)
    (incoming : List (BlockId × ValueId)) :
    selected (resolve labels incoming) label = incomingValue incoming predecessor := by
  induction incoming with
  | nil => rfl
  | cons edge incoming ih =>
    obtain ⟨block, value⟩ := edge
    rw [selected, incomingValue] at *
    by_cases here : block = predecessor
    · subst here
      rw [resolve, List.filterMap_cons_some (by simp only; rw [exit]; rfl), List.find?_cons_of_pos (by simp),
        List.find?_cons_of_pos (by simp)]
      rfl
    · rw [List.find?_cons_of_neg (by simpa using here)]
      cases other : labels.exits block with
      | none =>
        rw [resolve, List.filterMap_cons_none (by simp only; rw [other]; rfl)]
        exact ih
      | some label' =>
        have apart : label' ≠ label := by
          rintro rfl
          exact here (labels.distinct block predecessor _ other exit)
        rw [resolve, List.filterMap_cons_some (by simp only; rw [other]; rfl), List.find?_cons_of_neg (by simpa using apart)]
        exact ih

theorem llvmMoves_eq (labels : Exits function) (exit : labels.exits predecessor = some label) :
    llvmMoves labels label phis = phiMoves predecessor phis := by
  rw [llvmMoves, phiMoves]
  apply List.filterMap_congr
  intro phi _
  cases phi with
  | phi destination incoming ty span =>
    simp only
    rw [selected_resolve labels exit]
  | _ => rfl

theorem phiMoves_distinct (once : function.DefinesOnce) {block : BasicBlock} (found : function.blocks[target]? = some block) :
    ((phiMoves predecessor (phisAt function target)).map Prod.fst).Nodup := by
  have distinct := once.block_nodup found
  have within : ((phiMoves predecessor (phisAt function target)).map Prod.fst).Sublist
      (block.instructions.filterMap instructionDefines) := by
    have prefix_ : (phisAt function target).Sublist block.instructions := by
      rw [phisAt, Function.instructionsAt, found]
      exact List.takeWhile_sublist _
    refine List.Sublist.trans ?_ (prefix_.filterMap instructionDefines)
    generalize phisAt function target = phis
    induction phis with
    | nil => exact List.Sublist.refl _
    | cons phi phis ih =>
      have skipped (other : phiMoves predecessor (phi :: phis) = phiMoves predecessor phis) :
          ((phiMoves predecessor (phi :: phis)).map Prod.fst).Sublist ((phi :: phis).filterMap instructionDefines) := by
        rw [other]
        exact ih.trans ((List.sublist_cons_self phi phis).filterMap instructionDefines)
      cases phi with
      | phi destination incoming ty span =>
        cases source : incomingValue incoming predecessor with
        | none => exact skipped (List.filterMap_cons_none (by simp only; rw [source]; rfl))
        | some source' =>
          rw [phiMoves_cons source]
          exact ih.cons_cons destination
      | _ => exact skipped (List.filterMap_cons_none rfl)
  exact distinct.sublist within

theorem mem_phiMoves {destination source : ValueId} {incoming : List (BlockId × ValueId)} {ty : Ty} {span : Span}
    (member : .phi destination incoming ty span ∈ phis) (found : incomingValue incoming predecessor = some source) :
    (destination, source) ∈ phiMoves predecessor phis :=
  List.mem_filterMap.2 ⟨_, member, by simp only; rw [found]; rfl⟩

theorem phisAgree_iff_noStalePhi (once : function.DefinesOnce) {block : BasicBlock}
    (target_ : function.blocks[target]? = some block) (labels : Exits function)
    (exit : labels.exits predecessor = some label)
    (ready : ∀ phi ∈ phisAt function target, Ready predecessor values phi) :
    PhisAgree labels predecessor target values ↔ NoStalePhi function predecessor target values := by
  have distinct : ((phiMoves predecessor (phisAt function target)).map Prod.fst).Nodup := phiMoves_distinct once target_
  have independent := @sequential_eq_simultaneous_iff ValueId (Option V) _ _ values distinct
  have native : llvmPhis labels label (phisAt function target) values =
      simultaneous (phiMoves predecessor (phisAt function target)) values := by
    rw [llvmPhis, llvmMoves_eq labels exit]
  constructor
  · rintro ⟨next, label', exit', executed, same, -⟩
    obtain rfl := Option.some.inj (exit.symm.trans exit')
    rw [executePhis_eq ready] at executed
    obtain rfl := Except.ok.inj executed
    exact independent.1 (same.symm.trans native)
  · intro noStale
    refine ⟨_, label, exit, executePhis_eq ready, native.trans (independent.2 noStale).symm, ?_⟩
    intro destination incoming ty span member
    obtain ⟨destination', incoming', ty', span', source, same, found, -⟩ := ready _ member
    cases same
    refine ⟨source, found, ?_⟩
    rw [independent.2 noStale]
    exact simultaneous_of_mem distinct (mem_phiMoves member found) values

end

/-! ### Runs -/

section

variable {module : Module} {function : Function} {reachable : Finset Nat} {sets : MustDefined}
  {run next : PhiRun V} {predecessor target : Nat} {path : List Nat}

theorem validateIncoming_mem {context : PhiContext} {block : Nat} {span : Span} {seen result : Finset Nat}
    {incoming : List (BlockId × ValueId)} (checked : validateIncoming context block span seen incoming = .ok result)
    (member : predecessor ∈ result) : predecessor ∈ seen ∨ ∃ value, (predecessor, value) ∈ incoming := by
  induction incoming generalizing seen with
  | nil =>
    obtain rfl := Except.ok.inj checked
    exact .inl member
  | cons edge incoming ih =>
    obtain ⟨block', value⟩ := edge
    obtain ⟨⟨⟩, -, rest⟩ := bind_eq_ok.1 checked
    rcases ih rest with known | ⟨value', later⟩
    · rcases Finset.mem_insert.1 known with rfl | earlier
      · exact .inr ⟨value, List.mem_cons_self⟩
      · exact .inl earlier
    · exact .inr ⟨value', List.mem_cons_of_mem _ later⟩

theorem phi_operand (checked : Checked module function reachable sets) (walk : function.IsPath path predecessor)
    (edge : function.Edge predecessor target) {phi : Instruction} (member : phi ∈ phisAt function target) :
    ∃ destination incoming ty span source, phi = .phi destination incoming ty span ∧
      incomingValue incoming predecessor = some source ∧ source ∈ sets.outgoing predecessor := by
  obtain ⟨block, found⟩ := checked.block_of_path (walk.step edge)
  have isPhi := List.all_eq_true.1 List.all_takeWhile phi member
  have within : phi ∈ block.instructions := by
    have whole := (List.takeWhile_sublist Instruction.isPhi).mem member
    rwa [Function.instructionsAt, found] at whole
  cases phi with
  | phi destination incoming ty span =>
    refine ⟨destination, incoming, ty, span, ?_⟩
    obtain ⟨earlier, later, split⟩ := List.append_of_mem within
    have operands := ((checked.operands (walk.step edge) found).1 earlier _ later split)
    obtain ⟨fuel, body⟩ := checked.body
    have passes := body target block found (checked.mem_of_path (walk.step edge)).1
    simp only [validateBlockBody, (checked.mem_of_path (walk.step edge)).1, not_true_eq_false, if_false, bind_eq_ok,
      split] at passes
    obtain ⟨final, instructions, -⟩ := passes
    obtain ⟨middle, -, rest⟩ := foldlM_append_eq_ok.1 instructions
    obtain ⟨following, here, -⟩ := foldlM_cons_eq_ok.1 rest
    simp only [validateInstruction, validatePhi, bind_eq_ok, rejectIf_eq_ok] at here
    obtain ⟨-, -, -, ⟨actual, edges, -, same, -⟩, -⟩ := here
    have exact_ : actual = ((function.predecessors target).filter (· ∈ reachable)).toFinset := by simpa using same
    have listed : predecessor ∈ actual := by
      rw [exact_]
      have known := checked.mem_of_path walk
      simpa using ⟨mem_predecessors known.2 edge, known.1⟩
    obtain ⟨value, mentioned⟩ := (validateIncoming_mem edges listed).resolve_left (Finset.notMem_empty _)
    obtain ⟨candidate, first⟩ : ∃ candidate, incoming.find? (fun candidate => candidate.1 = predecessor) = some candidate := by
      rw [← Option.isSome_iff_exists, List.find?_isSome]
      exact ⟨_, mentioned, by simp⟩
    obtain ⟨block', source⟩ := candidate
    have here := List.find?_some first
    obtain rfl : block' = predecessor := by simpa using here
    refine ⟨source, rfl, ?_, (operands block' source (List.mem_of_find?_eq_some first)).2⟩
    rw [incomingValue, first]
    rfl
  | _ => cases isPhi

/-- What holds at every place of a run: what must be defined there has a value. -/
structure Filled (function : Function) (sets : MustDefined) (run : PhiRun V) : Prop where
  walk : ∃ path, function.IsPath path run.block
  whole : run.done ++ run.rest = function.instructionsAt run.block
  filled : ∀ value ∈ defineAll run.done (sets.incoming run.block), (run.values value).isSome

theorem Filled.ready (checked : Checked module function reachable sets) (filled : Filled function sets run)
    (atEnd : run.rest = []) (edge : function.Edge run.block target) :
    ∀ phi ∈ phisAt function target, Ready run.block run.values phi := by
  intro phi member
  obtain ⟨path, walk⟩ := filled.walk
  obtain ⟨destination, incoming, ty, span, source, same, found, outgoing⟩ := phi_operand checked walk edge member
  refine ⟨destination, incoming, ty, span, source, same, found, filled.filled source ?_⟩
  have whole := filled.whole
  rw [atEnd, List.append_nil] at whole
  rw [whole]
  rwa [(checked.solves run.block (checked.mem_of_path walk).2 (checked.mem_of_path walk).1).2] at outgoing

theorem sequential_isSome {moves : List (ValueId × ValueId)} {values : ValueId → Option V} {value : ValueId}
    (sources : ∀ move ∈ moves, (values move.2).isSome)
    (present : (values value).isSome ∨ value ∈ moves.map Prod.fst) : (sequential moves values value).isSome := by
  induction moves generalizing values with
  | nil => simpa [sequential] using present
  | cons move moves ih =>
    have source := sources move List.mem_cons_self
    have kept : ∀ other, (values other).isSome ∨ other = move.1 →
        (Function.update values move.1 (values move.2) other).isSome := by
      intro other isSet
      rw [Function.update_apply]
      split
      next => exact source
      next apart => exact isSet.resolve_right apart
    refine ih (fun later member => kept _ (.inl (sources later (List.mem_cons_of_mem _ member)))) ?_
    rcases present with isSet | moved
    · exact .inl (kept value (.inl isSet))
    · rcases List.mem_cons.1 moved with here | later
      · exact .inl (kept value (.inr here))
      · exact .inr later

theorem Filled.execute (filled : Filled function sets run) {instruction : Instruction}
    (here : run.rest = instruction :: next.rest) (done : next.done = run.done ++ [instruction])
    (block : next.block = run.block)
    (sets_ : ∀ value, if instructionDefines instruction = some value then (next.values value).isSome
      else next.values value = run.values value) : Filled function sets next := by
  refine ⟨block ▸ filled.walk, ?_, fun value defined => ?_⟩
  · rw [done, block, ← filled.whole, here, List.append_assoc]
    rfl
  · have set := sets_ value
    split at set
    next => exact set
    next other =>
      rw [set]
      refine filled.filled value ?_
      rw [block, mem_defineAll, done] at defined
      rw [mem_defineAll]
      refine defined.imp_right ?_
      rintro ⟨definer, member, defines⟩
      rcases List.mem_append.1 member with earlier | last
      · exact ⟨definer, earlier, defines⟩
      · rw [List.mem_singleton.1 last] at defines
        exact absurd defines other

theorem Filled.enter (checked : Checked module function reachable sets) (filled : Filled function sets run)
    (atEnd : run.rest = []) (edge : function.Edge run.block next.block) (done : next.done = phisAt function next.block)
    (rest : next.rest = (function.instructionsAt next.block).dropWhile Instruction.isPhi)
    (executed : executePhis (some run.block) (phisAt function next.block) run.values = .ok next.values) :
    Filled function sets next := by
  obtain ⟨path, walk⟩ := filled.walk
  have ready := filled.ready checked atEnd edge
  rw [executePhis_eq ready] at executed
  have values : sequential (phiMoves run.block (phisAt function next.block)) run.values = next.values :=
    Except.ok.inj executed
  have sources : ∀ move ∈ phiMoves run.block (phisAt function next.block), (run.values move.2).isSome := by
    intro move member
    obtain ⟨phi, within, same⟩ := List.mem_filterMap.1 member
    obtain ⟨destination, incoming, ty, span, source, rfl, found, present⟩ := ready phi within
    simp only at same
    rw [found] at same
    obtain rfl := Option.some.inj same
    exact present
  refine ⟨⟨_, walk.step edge⟩, ?_, fun value defined => ?_⟩
  · rw [done, rest, phisAt, List.takeWhile_append_dropWhile]
  · rw [← values]
    rcases mem_defineAll.1 defined with incoming | ⟨phi, within, defines⟩
    · refine sequential_isSome sources (.inl (filled.filled value ?_))
      obtain ⟨known, bound⟩ := checked.mem_of_path walk
      obtain ⟨known', bound'⟩ := checked.mem_of_path (walk.step edge)
      rw [(checked.solves next.block bound' known').1] at incoming
      have atEnd' := nextIncoming_subset (mem_predecessors bound edge) known incoming
      have whole := filled.whole
      rw [atEnd, List.append_nil] at whole
      rw [whole]
      rwa [(checked.solves run.block bound known).2] at atEnd'
    · rw [done] at within
      obtain ⟨destination, incoming, ty, span, source, rfl, found, present⟩ := ready phi within
      obtain rfl : destination = value := Option.some.inj defines
      exact sequential_isSome sources (.inr (List.mem_map_of_mem (mem_phiMoves within found)))

theorem filled_of_reachable (checked : Checked module function reachable sets)
    (reached : (phiRuns V function).Reachable run) : Filled function sets run := by
  refine reached.invariant ?_ ?_
  · rintro run ⟨entry, done, rest, -⟩
    refine ⟨⟨[], entry ▸ .refl⟩, by rw [done, rest, entry]; rfl, fun value defined => ?_⟩
    rw [entry, done, (checked.solves _ checked.entry_lt checked.entry_mem).1, nextIncoming_entry] at defined
    simp [defineAll] at defined
  · rintro run ⟨⟩ next filled (⟨instruction, -, here, done, block, sets_⟩ | ⟨atEnd, edge, done, rest, executed⟩)
    · exact filled.execute here done block sets_
    · exact filled.enter checked atEnd edge done rest executed

/-- At every edge that a run of an accepted function takes, all phis of the block get the values that their
operands had at the end of the predecessor, in the interpreter and in native code, exactly if no phi is stale. -/
theorem phisSimultaneous_iff (accepted : module.Accepted) (member : function ∈ module.functions)
    (labels : Exits function) (reached : (phiRuns V function).Reachable run) (atEnd : run.rest = [])
    (edge : function.Edge run.block target) :
    PhisAgree labels run.block target run.values ↔ NoStalePhi function run.block target run.values := by
  obtain ⟨⟨reachable, sets, checked⟩, -⟩ := accepted.checked member
  have filled := filled_of_reachable checked reached
  obtain ⟨path, walk⟩ := filled.walk
  obtain ⟨block, found⟩ := checked.block_of_path (walk.step edge)
  obtain ⟨label, exit⟩ := Option.isSome_iff_exists.1 (labels.finished path run.block walk)
  exact phisAgree_iff_noStalePhi checked.definesOnce found labels exit (filled.ready checked atEnd edge)

end

/-! ### A phi of a phi -/

/-- A loop whose second phi takes the first one of the round before. -/
def delayed : Function :=
  { name := "Work", kind := .user, owner := none, parameters := [], weakSymbols := ∅,
    returnType := .named "VOID", entry := 0,
    blocks := [
      ⟨0, [.constant 0 (.boolean true) .boolean defaultModuleSpan, .constant 1 (.boolean false) .boolean defaultModuleSpan],
        .jump 1⟩,
      ⟨1, [.phi 2 [(0, 0), (1, 1)] .boolean defaultModuleSpan, .phi 3 [(0, 0), (1, 2)] .boolean defaultModuleSpan],
        .branch 3 1 2⟩,
      ⟨2, [], .return none⟩],
    span := defaultModuleSpan }

def delayedModule : Module := { functions := [delayed] }

theorem delayedModule_accepted : delayedModule.Accepted := ⟨20, by decide⟩

/-- Each block ends at its own label. -/
def delayedExits : Exits delayed where
  exits
    | 0 => some "b0"
    | 1 => some "b1"
    | 2 => some "b2"
    | _ => none
  finished path index walk := by
    obtain ⟨⟨reachable, sets, checked⟩, -⟩ := delayedModule_accepted.checked List.mem_cons_self
    have bound : index < 3 := (checked.mem_of_path walk).2
    rcases index with _ | _ | _ | index
    · rfl
    · rfl
    · rfl
    · omega
  distinct block other label exit exit' := by
    split at exit <;> split at exit' <;>
      first
        | rfl
        | (cases exit; done)
        | (cases exit'; done)
        | exact absurd (exit.trans exit'.symm) (by decide)

/-- The end of block 0. -/
def delayedStart : PhiRun Bool where
  block := 0
  done := delayed.instructionsAt 0
  rest := []
  values
    | 0 => some true
    | 1 => some false
    | _ => none

theorem delayedStart_reached : (phiRuns Bool delayed).Reachable delayedStart := by
  let first : PhiRun Bool :=
    ⟨0, (delayed.instructionsAt 0).take 1, (delayed.instructionsAt 0).drop 1, fun | 0 => some true | _ => none⟩
  have start : (phiRuns Bool delayed).Reachable ⟨0, [], delayed.instructionsAt 0, fun _ => none⟩ :=
    .initial ⟨rfl, rfl, rfl, fun _ => rfl⟩
  have one : (phiRuns Bool delayed).step ⟨0, [], delayed.instructionsAt 0, fun _ => none⟩ () first := by
    refine .inl ⟨_, rfl, rfl, rfl, rfl, fun value => ?_⟩
    rcases value with _ | value <;> rfl
  have two : (phiRuns Bool delayed).step first () delayedStart := by
    refine .inl ⟨_, rfl, rfl, rfl, rfl, fun value => ?_⟩
    rcases value with _ | _ | value <;> rfl
  exact (start.step one).step two

/-- The end of block 1, in the first round. -/
def delayedRound : PhiRun Bool where
  block := 1
  done := delayed.instructionsAt 1
  rest := []
  values
    | 0 | 2 | 3 => some true
    | 1 => some false
    | _ => none

theorem delayedRound_reached : (phiRuns Bool delayed).Reachable delayedRound := by
  have into : (phiRuns Bool delayed).step delayedStart () delayedRound := by
    refine .inr ⟨rfl, by decide, rfl, rfl, ?_⟩
    show Except.ok (Function.update (Function.update delayedStart.values 2 (some true)) 3 (some true)) = _
    refine congrArg Except.ok (funext fun value => ?_)
    rcases value with _ | _ | _ | _ | value <;> rfl
  exact delayedStart_reached.step into

/-- In the second round the interpreter gives the second phi the new value of the first one, native code the old
one. -/
theorem delayed_disagrees :
    delayedModule.Accepted ∧ delayed ∈ delayedModule.functions ∧ (phiRuns Bool delayed).Reachable delayedRound ∧
      delayedRound.rest = [] ∧ delayed.Edge delayedRound.block 1 ∧
      ¬PhisAgree delayedExits delayedRound.block 1 delayedRound.values := by
  refine ⟨delayedModule_accepted, List.mem_cons_self, delayedRound_reached, rfl, by decide, ?_⟩
  rintro ⟨next, label, exit, executed, -, operands⟩
  obtain ⟨source, found, same⟩ :=
    operands 3 [(0, 0), (1, 2)] .boolean defaultModuleSpan (List.mem_cons_of_mem _ List.mem_cons_self)
  obtain rfl : 2 = source := Option.some.inj found
  have updated : Except.ok (Function.update (Function.update delayedRound.values 2 (some false)) 3 (some false)) =
      Except.ok next := executed
  rw [← Except.ok.inj updated, Function.update_self] at same
  cases same

theorem phisSimultaneous_iff_delayed :
    PhisAgree delayedExits delayedStart.block 1 delayedStart.values ↔
      NoStalePhi delayed delayedStart.block 1 delayedStart.values :=
  phisSimultaneous_iff delayedModule_accepted List.mem_cons_self delayedExits delayedStart_reached rfl (by decide)

end BasicNext.Native
