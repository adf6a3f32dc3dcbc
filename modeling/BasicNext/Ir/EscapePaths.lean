import BasicNext.Ir.Escape

/-!
# Escape along paths

Along a path every value is of one symbol or of none: of the one that its content was read out of, through copies,
phis, retains and text casts. A use that may keep a value of a symbol lets the content of the symbol escape. The phis
of a block are run one after another, as the interpreter does, or all at once. The analysis follows what loads and takes
read out of a symbol, but not the previous content that a store moves out of it.
-/

namespace BasicNext.Ir

open Lib

/-! ### What values hold -/

/-- A function that a constant has named, or anything else. -/
inductive Held where
  | function (name : String)
  | other
deriving DecidableEq

/-- A symbol, and whether its content was moved out by a store as the previous content, or read by a load or a take. Only
the content as a whole counts: an element or a field read out of it is content of an object. -/
structure Source where
  symbol : SymbolId
  moved : Bool
deriving DecidableEq

/-- Where the content of a value comes from, and what the value holds, once it is defined. -/
structure Trail where
  source : ValueId → Option Source := fun _ => none
  held : ValueId → Option Held := fun _ => none

namespace Trail

def define (trail : Trail) (value : ValueId) (source : Option Source) (held : Held) : Trail where
  source := Function.update trail.source value source
  held := Function.update trail.held value (some held)

def defineResult (trail : Trail) : Option ValueId → Trail
  | some value => trail.define value none .other
  | none => trail

section define

variable (trail : Trail) (source : Option Source) (held : Held) {value other : ValueId}

@[simp] theorem define_source_self : (trail.define value source held).source value = source := Function.update_self ..

@[simp] theorem define_held_self : (trail.define value source held).held value = some held := Function.update_self ..

@[simp] theorem define_source_of_ne (ne : other ≠ value) :
    (trail.define value source held).source other = trail.source other := Function.update_of_ne ne ..

@[simp] theorem define_held_of_ne (ne : other ≠ value) :
    (trail.define value source held).held other = trail.held other := Function.update_of_ne ne ..

end define

/-- One instruction, where phis read their operands in `entered`. -/
def step (origin : Option BlockId) (trail entered : Trail) : Instruction → Trail
  | .constant destination (.function name) .. => trail.define destination none (.function name)
  | .load destination symbol .. | .take destination symbol .. => trail.define destination (some ⟨symbol, false⟩) .other
  | .store symbol _ (some previous) .. => trail.define previous (some ⟨symbol, true⟩) .other
  | .copy destination value .. | .retain destination value .. => trail.define destination (trail.source value) .other
  | .phi destination incoming .. =>
    trail.define destination
      ((incoming.find? fun entry => some entry.1 = origin).bind fun entry => entered.source entry.2) .other
  | .cast destination value ty _ =>
    trail.define destination (if carriesText ty then trail.source value else none) .other
  | instruction => trail.defineResult (instructionDefines instruction)

/-- The instructions of a block up to some of them. -/
def run (atOnce : Bool) (origin : Option BlockId) (entered : Trail) (instructions : List Instruction) : Trail :=
  instructions.foldl
    (fun trail instruction => trail.step origin (if atOnce then entered else trail) instruction) entered

/-- The blocks of a path, one after another. -/
def along (atOnce : Bool) (function : Function) : Option BlockId → Trail → List Nat → Trail
  | _, trail, [] => trail
  | origin, trail, index :: path =>
    along atOnce function (some index) (run atOnce origin trail (function.instructionsAt index)) path

end Trail

/-- The callee of a call may have a body. -/
def Held.mayHaveBody (module : Module) : Held → Prop
  | .function name => module.hasBody name = true
  | .other => True

/-- An instruction may keep an operand of a symbol beyond the life of the binding. -/
def MayKeep (module : Module) (trail : Trail) (symbol : SymbolId) : Instruction → Prop
  | .store target .. => target ≠ symbol
  | .call _ callee .. => ∃ held, trail.held callee = some held ∧ held.mayHaveBody module
  | .copy .. | .phi .. | .retain .. | .cast .. => False
  | .print .. | .binary .. | .unary .. | .length .. | .index .. | .release .. => False
  | _ => True

/-- Content of a symbol reaches a use on some path that may keep it. -/
def Leaves (module : Module) (function : Function) (source : Source) : Prop :=
  ∃ (atOnce : Bool) (path : List Nat) (last : Nat) (block : BasicBlock), function.IsPath path last ∧
    function.blocks[last]? = some block ∧
    let at' := (Trail.along atOnce function none {} path).run atOnce path.getLast?
    (∃ earlier instruction later value, block.instructions = earlier ++ instruction :: later ∧
      value ∈ instructionReads path.getLast? instruction ∧ (at' earlier).source value = some source ∧
      MayKeep module (at' earlier) source.symbol instruction) ∨
    ∃ value, block.terminator = .return (some value) ∧ (at' block.instructions).source value = some source

def Escapes (module : Module) (function : Function) (symbol : SymbolId) : Prop := ∃ moved, Leaves module function ⟨symbol, moved⟩

/-- No value is defined twice, and where content that a store moved out of a symbol may be kept, so is content that was
read out of the symbol. -/
structure Followed (module : Module) (function : Function) (symbols : Finset SymbolId) : Prop where
  once : function.DefinesOnce
  moved : ∀ symbol ∈ symbols, Leaves module function ⟨symbol, true⟩ → Leaves module function ⟨symbol, false⟩

/-! ### What the analysis knows of a trail -/

variable {module : Module} {function : Function} {symbols : Finset SymbolId} {state : EscapeState}
  {instruction : Instruction} {trail entered : Trail}

theorem mem_callees {value : ValueId} {name : String} (named : function.callees value = some name) :
    ∃ instruction ∈ function.instructions, functionConstant instruction = some (value, name) := by
  have scan (entries : List (ValueId × String)) (callees : ValueId → Option String)
      (named : entries.foldl (fun (callees : ValueId → Option String) entry => Function.update callees entry.1 (some entry.2))
        callees value = some name) :
      callees value = some name ∨ (value, name) ∈ entries := by
    induction entries generalizing callees with
    | nil => exact .inl named
    | cons entry entries ih =>
      rcases ih _ named with before | later
      · dsimp only at before
        by_cases same : value = entry.1
        · subst same
          rw [Function.update_self] at before
          cases before
          exact .inr List.mem_cons_self
        · rw [Function.update_of_ne same] at before
          exact .inl before
      · exact .inr (List.mem_cons_of_mem _ later)
  rcases scan _ _ named with none_ | listed
  · cases none_
  · exact List.mem_filterMap.1 listed

theorem functionConstant_defines {value : ValueId} {name : String}
    (constant : functionConstant instruction = some (value, name)) : instructionDefines instruction = some value := by
  unfold functionConstant at constant
  split at constant
  next => cases constant; rfl
  next => cases constant

/-- What was read is known, and what the values of a trail hold is what defines them. -/
structure Trail.Traced (function : Function) (symbols : Finset SymbolId) (state : EscapeState) (trail : Trail) : Prop where
  source : ∀ value symbol, trail.source value = some ⟨symbol, false⟩ → symbol ∈ symbols → (value, symbol) ∈ state.origin
  named : ∀ value name, trail.held value = some (.function name) →
    ∃ instruction ∈ function.instructions, functionConstant instruction = some (value, name)
  other : ∀ value, trail.held value = some .other →
    ∃ instruction ∈ function.instructions, instructionDefines instruction = some value ∧ functionConstant instruction = none

namespace Trail.Traced

theorem empty : ({} : Trail).Traced function symbols state := ⟨nofun, nofun, nofun⟩

theorem define (traced : trail.Traced function symbols state) {value : ValueId} {source : Option Source} {held : Held}
    (known : ∀ symbol, source = some ⟨symbol, false⟩ → symbol ∈ symbols → (value, symbol) ∈ state.origin)
    (named : ∀ name, held = .function name →
      ∃ instruction ∈ function.instructions, functionConstant instruction = some (value, name))
    (other : held = .other → ∃ instruction ∈ function.instructions, instructionDefines instruction = some value ∧
      functionConstant instruction = none) : (trail.define value source held).Traced function symbols state := by
  constructor
  · intro value' symbol
    by_cases same : value' = value
    · subst same
      rw [define_source_self]
      exact known symbol
    · rw [define_source_of_ne _ _ _ same]
      exact traced.source value' symbol
  · intro value' name
    by_cases same : value' = value
    · subst same
      rw [define_held_self, Option.some.injEq]
      exact named name
    · rw [define_held_of_ne _ _ _ same]
      exact traced.named value' name
  · intro value'
    by_cases same : value' = value
    · subst same
      rw [define_held_self, Option.some.injEq]
      exact other
    · rw [define_held_of_ne _ _ _ same]
      exact traced.other value'

theorem definePlain (traced : trail.Traced function symbols state) {value : ValueId} {source : Option Source}
    (listed : instruction ∈ function.instructions) (defines : instructionDefines instruction = some value)
    (plain : functionConstant instruction = none)
    (known : ∀ symbol, source = some ⟨symbol, false⟩ → symbol ∈ symbols → (value, symbol) ∈ state.origin) :
    (trail.define value source .other).Traced function symbols state :=
  traced.define known nofun fun _ => ⟨instruction, listed, defines, plain⟩

theorem defineResult (traced : trail.Traced function symbols state) (listed : instruction ∈ function.instructions)
    (plain : functionConstant instruction = none) :
    (trail.defineResult (instructionDefines instruction)).Traced function symbols state := by
  cases defines : instructionDefines instruction with
  | none => exact traced
  | some value => exact traced.definePlain listed defines plain nofun

theorem step (closed : state.Closed module function symbols) (traced : trail.Traced function symbols state)
    (phis : entered.Traced function symbols state) (listed : instruction ∈ function.instructions)
    (origin : Option BlockId) : (trail.step origin entered instruction).Traced function symbols state := by
  have unknown {value : ValueId} (symbol : SymbolId) : (none : Option Source) = some ⟨symbol, false⟩ → symbol ∈ symbols →
      (value, symbol) ∈ state.origin := nofun
  -- What is carried comes from an operand.
  have carry {reading : Trail} (reads : reading.Traced function symbols state) {value destination : ValueId}
      (used : value ∈ instructionUses instruction) (carries : carried instruction = some destination)
      (symbol : SymbolId) (source : reading.source value = some ⟨symbol, false⟩) (asked : symbol ∈ symbols) :
      (destination, symbol) ∈ state.origin :=
    closed.carries instruction listed value used destination symbol carries (reads.source value symbol source asked)
  cases instruction with
  | constant destination value ty span =>
    cases value with
    | function name =>
      apply traced.define
      · exact unknown
      · intro other same
        cases same
        exact ⟨_, listed, rfl⟩
      · exact nofun
    | _ => exact traced.definePlain listed rfl rfl unknown
  | load destination symbol ty span =>
    apply traced.definePlain listed rfl rfl
    intro symbol' same asked
    cases same
    exact closed.reads _ _ asked ⟨_, listed, rfl⟩
  | take destination symbol ty span =>
    apply traced.definePlain listed rfl rfl
    intro symbol' same asked
    cases same
    exact closed.reads _ _ asked ⟨_, listed, rfl⟩
  | copy destination value ty span => exact traced.definePlain listed rfl rfl (carry traced List.mem_cons_self rfl)
  | retain destination value ty span => exact traced.definePlain listed rfl rfl (carry traced List.mem_cons_self rfl)
  | phi destination incoming ty span =>
    apply traced.definePlain listed rfl rfl
    intro symbol source asked
    obtain ⟨entry, found, source⟩ := Option.bind_eq_some_iff.1 source
    have used : entry.2 ∈ incoming.map Prod.snd := List.mem_map_of_mem (List.mem_of_find?_eq_some found)
    exact carry phis used rfl symbol source asked
  | cast destination value ty span =>
    apply traced.definePlain listed rfl rfl
    intro symbol source asked
    by_cases text : carriesText ty = true
    · rw [if_pos text] at source
      exact carry traced List.mem_cons_self (if_pos text) symbol source asked
    · rw [if_neg text] at source
      cases source
  | store symbol value previous ty span =>
    cases previous with
    | none => exact traced
    | some previous => exact traced.definePlain listed rfl rfl nofun
  | _ => exact traced.defineResult listed rfl

theorem run (closed : state.Closed module function symbols) (traced : entered.Traced function symbols state)
    {instructions : List Instruction} (listed : ∀ instruction ∈ instructions, instruction ∈ function.instructions)
    (atOnce : Bool) (origin : Option BlockId) : (entered.run atOnce origin instructions).Traced function symbols state := by
  have fold (trail : Trail) (known : trail.Traced function symbols state) :
      (instructions.foldl (fun trail instruction => trail.step origin (if atOnce then entered else trail) instruction)
        trail).Traced function symbols state := by
    induction instructions generalizing trail with
    | nil => exact known
    | cons instruction instructions ih =>
      apply ih fun other member => listed other (List.mem_cons_of_mem _ member)
      apply known.step closed _ (listed instruction List.mem_cons_self)
      split
      · exact traced
      · exact known
  exact fold entered traced

theorem along (closed : state.Closed module function symbols) (atOnce : Bool) (path : List Nat) :
    ∀ (origin : Option BlockId) (trail : Trail), trail.Traced function symbols state →
      (Trail.along atOnce function origin trail path).Traced function symbols state := by
  induction path with
  | nil => exact fun _ _ traced => traced
  | cons index path ih =>
    intro origin trail traced
    apply ih
    exact traced.run closed (fun _ member => Function.mem_instructions member) atOnce origin

end Trail.Traced

/-! ### Soundness -/

theorem mem_uses_of_reads {origin : Option Nat} {value : ValueId} (reads : value ∈ instructionReads origin instruction) :
    value ∈ instructionUses instruction := by
  cases instruction with
  | phi destination incoming ty span =>
    obtain ⟨entry, member, same⟩ := List.mem_filterMap.1 reads
    dsimp only at same
    split at same
    · cases same
      exact List.mem_map_of_mem member
    · cases same
  | _ => exact reads

theorem borrowingCall_eq_false (once : function.DefinesOnce) (traced : trail.Traced function symbols state)
    {callee : ValueId} {held : Held} (holds : trail.held callee = some held) (body : held.mayHaveBody module) :
    borrowingCall module function callee = false := by
  cases named : function.callees callee with
  | none => rw [borrowingCall, named, Option.any_none]
  | some name =>
    obtain ⟨instruction, listed, constant⟩ := mem_callees named
    cases held with
    | function name' =>
      obtain ⟨instruction', listed', constant'⟩ := traced.named callee name' holds
      obtain rfl := once.instruction_eq listed (functionConstant_defines constant) listed' (functionConstant_defines constant')
      rw [constant] at constant'
      cases constant'
      have hasBody : module.hasBody name = true := body
      rw [borrowingCall, named, Option.any_some, hasBody]
      rfl
    | other =>
      obtain ⟨instruction', listed', defines, plain⟩ := traced.other callee holds
      obtain rfl := once.instruction_eq listed (functionConstant_defines constant) listed' defines
      rw [constant] at plain
      cases plain

theorem not_borrows (once : function.DefinesOnce) (traced : trail.Traced function symbols state)
    {sources : Finset SymbolId} {symbol : SymbolId} (source : symbol ∈ sources)
    (keeps : MayKeep module trail symbol instruction) :
    carried instruction = none ∧ borrows module function sources instruction = false := by
  cases instruction with
  | store target value previous ty span =>
    refine ⟨rfl, decide_eq_false fun all => ?_⟩
    exact keeps (all symbol source).symm
  | call destination callee arguments ty span =>
    obtain ⟨held, holds, body⟩ := keeps
    exact ⟨rfl, borrowingCall_eq_false once traced holds body⟩
  | copy | phi | retain | cast => exact keeps.elim
  | print | binary | unary | length | index | release => exact keeps.elim
  | _ => exact ⟨rfl, rfl⟩

/-- A loop that copies what was read out of symbol 0, and a store to symbol 1 behind it. -/
def storesCopy : Function :=
  { name := "Start", kind := .entry, owner := none, parameters := [], weakSymbols := ∅,
    returnType := .named "VOID", entry := 0,
    blocks := [⟨0, [.load 0 0 .string defaultModuleSpan], .jump 1⟩,
      ⟨1, [.phi 1 [(0, 0), (1, 2)] .string defaultModuleSpan, .copy 2 1 .string defaultModuleSpan], .branch 0 1 2⟩,
      ⟨2, [.store 1 2 none .string defaultModuleSpan], .return none⟩],
    span := defaultModuleSpan }

/-- A function that gives a binding a new text and returns the previous one, which the store has moved out. -/
def returnsPrevious : Function :=
  { name := "Replace", kind := .user, owner := none, parameters := [], weakSymbols := ∅,
    returnType := .string, entry := 0,
    blocks := [⟨0, [.constant 0 (.string "new") .string defaultModuleSpan, .retain 1 0 .string defaultModuleSpan,
      .store 0 1 (some 2) .string defaultModuleSpan], .return (some 2)⟩],
    span := defaultModuleSpan }

def replacingModule : Module where
  functions := [{ storesCopy with blocks := [⟨0, [], .return none⟩] }, returnsPrevious]

end BasicNext.Ir
