import BasicNext.Ir.Accepted
import BasicNext.Lib.Saturation
import Mathlib.Data.Finset.Prod

/-!
# Escape of the content of a binding

`escaping_symbols`: the bindings whose content can outlive them. The symbols that a value may come from are computed
over all instructions in the order of the text, round after round; a round that adds nothing is the last one.
-/

namespace BasicNext.Ir

open Lib

/-! ### The analysis -/

/-- What a value may come from, one pair for each symbol of a value, and the symbols that escape. -/
structure EscapeState where
  origin : Finset (ValueId × SymbolId)
  escaping : Finset SymbolId
deriving DecidableEq

def carriesText : Ty → Bool
  | .string => true
  | .alternative members => members.contains .string
  | _ => false

/-- The value that takes over the content of an operand. -/
def carried : Instruction → Option ValueId
  | .copy destination .. | .phi destination .. | .retain destination .. => some destination
  | .cast destination _ ty _ => if carriesText ty then some destination else none
  | _ => none

def functionConstant : Instruction → Option (ValueId × String)
  | .constant destination (.function name) .. => some (destination, name)
  | _ => none

def Function.callees (function : Function) : ValueId → Option String :=
  (function.instructions.filterMap functionConstant).foldl
    (fun callees entry => Function.update callees entry.1 (some entry.2)) fun _ => none

def Module.hasBody (module : Module) (name : String) : Bool :=
  module.functions.any fun function => function.name == name && !function.blocks.isEmpty

/-- A call of a function with a body may keep its argument; a runtime or HOST call only borrows it. -/
def borrowingCall (module : Module) (function : Function) (callee : ValueId) : Bool :=
  (function.callees callee).any fun name => !module.hasBody name

def borrows (module : Module) (function : Function) (sources : Finset SymbolId) : Instruction → Bool
  | .store symbol .. => decide (∀ source ∈ sources, source = symbol)
  | .print .. | .binary .. | .unary .. | .cast .. | .length .. | .index .. | .release .. => true
  | .call _ callee .. => borrowingCall module function callee
  | _ => false

/-- The symbols that the operands of an instruction may come from. -/
def sourcesOf (origin : Finset (ValueId × SymbolId)) (instruction : Instruction) : Finset SymbolId :=
  (origin.filter fun entry => entry.1 ∈ instructionUses instruction).image Prod.snd

def escapeVisit (module : Module) (function : Function) (state : EscapeState) (instruction : Instruction) : EscapeState :=
  let sources := sourcesOf state.origin instruction
  if sources = ∅ then state
  else
    match carried instruction with
    | some destination => { state with origin := state.origin ∪ sources.image fun source => (destination, source) }
    | none =>
      if borrows module function sources instruction then state
      else { state with escaping := state.escaping ∪ sources }

def escapeReturn (state : EscapeState) (block : BasicBlock) : EscapeState :=
  match block.terminator with
  | .return (some value) =>
    { state with escaping := state.escaping ∪ (state.origin.filter fun entry => entry.1 = value).image Prod.snd }
  | _ => state

def symbolRead : Instruction → Option (ValueId × SymbolId)
  | .load destination symbol .. | .take destination symbol .. => some (destination, symbol)
  | _ => none

def Function.readsOf (function : Function) (symbols : Finset SymbolId) : Finset (ValueId × SymbolId) :=
  ((function.instructions.filterMap symbolRead).filter fun entry => entry.2 ∈ symbols).toFinset

def escapeRound (module : Module) (function : Function) (state : EscapeState) : EscapeState :=
  function.blocks.foldl escapeReturn (function.instructions.foldl (escapeVisit module function) state)

/-- The sizes that a round is compared by. -/
def EscapeState.known (state : EscapeState) : Nat × Nat := (state.origin.card, state.escaping.card)

def escapingSymbols (fuel : Nat) (module : Module) (function : Function) (symbols : Finset SymbolId) :
    Option (Finset SymbolId) :=
  (saturate (escapeRound module function) EscapeState.known fuel ⟨function.readsOf symbols, ∅⟩).map EscapeState.escaping

/-! ### What a round adds -/

instance : PartialOrder EscapeState :=
  PartialOrder.lift (fun state => (state.origin, state.escaping)) fun state state' same => by
    obtain ⟨origin, escaping⟩ := state
    cases same
    rfl

variable {module : Module} {function : Function} {symbols : Finset SymbolId} {state : EscapeState}
  {instruction : Instruction} {value destination : ValueId} {symbol : SymbolId}

theorem EscapeState.le_iff {state state' : EscapeState} :
    state ≤ state' ↔ state.origin ⊆ state'.origin ∧ state.escaping ⊆ state'.escaping := Iff.rfl

theorem mem_sourcesOf {origin : Finset (ValueId × SymbolId)} :
    symbol ∈ sourcesOf origin instruction ↔ ∃ value ∈ instructionUses instruction, (value, symbol) ∈ origin := by
  unfold sourcesOf
  rw [Finset.mem_image]
  constructor
  · rintro ⟨⟨value, symbol⟩, member, rfl⟩
    obtain ⟨known, used⟩ := Finset.mem_filter.1 member
    exact ⟨value, used, known⟩
  · rintro ⟨value, used, known⟩
    exact ⟨(value, symbol), Finset.mem_filter.2 ⟨known, used⟩, rfl⟩

theorem le_escapeVisit (state : EscapeState) (instruction : Instruction) :
    state ≤ escapeVisit module function state instruction := by
  unfold escapeVisit
  dsimp only
  split
  next => exact le_rfl
  next =>
    split
    next => exact EscapeState.le_iff.2 ⟨Finset.subset_union_left, subset_rfl⟩
    next =>
      split
      next => exact le_rfl
      next => exact EscapeState.le_iff.2 ⟨subset_rfl, Finset.subset_union_left⟩

theorem le_escapeReturn (state : EscapeState) (block : BasicBlock) : state ≤ escapeReturn state block := by
  unfold escapeReturn
  split
  next => exact EscapeState.le_iff.2 ⟨subset_rfl, Finset.subset_union_left⟩
  next => exact le_rfl

theorem le_escapeRound (state : EscapeState) : state ≤ escapeRound module function state :=
  (le_foldl le_escapeVisit function.instructions state).trans (le_foldl le_escapeReturn function.blocks _)

theorem EscapeState.eq_of_known {state state' : EscapeState} (grown : state ≤ state') (same : state'.known = state.known) :
    state' = state := by
  obtain ⟨origin, escaping⟩ := EscapeState.le_iff.1 grown
  obtain ⟨sizes, sizes'⟩ := Prod.mk.inj same
  have sameOrigin := Finset.eq_of_subset_of_card_le origin sizes.le
  have sameEscaping := Finset.eq_of_subset_of_card_le escaping sizes'.le
  obtain ⟨_, _⟩ := state
  obtain ⟨_, _⟩ := state'
  cases sameOrigin
  cases sameEscaping
  rfl

/-! ### Termination -/

/-- The symbols are those that are asked about, and the values those that the function defines. -/
def EscapeState.Within (function : Function) (symbols : Finset SymbolId) (state : EscapeState) : Prop :=
  state.origin ⊆ (function.instructions.filterMap instructionDefines).toFinset ×ˢ symbols ∧ state.escaping ⊆ symbols

theorem carried_defines (carries : carried instruction = some destination) :
    instructionDefines instruction = some destination := by
  cases instruction with
  | copy | phi | retain => exact carries
  | cast destination' value ty span =>
    rw [carried] at carries
    by_cases text : carriesText ty = true
    · rw [if_pos text] at carries
      exact carries
    · rw [if_neg text] at carries
      cases carries
  | _ => cases carries

theorem sourcesOf_subset (within : state.Within function symbols) : sourcesOf state.origin instruction ⊆ symbols := by
  intro symbol member
  obtain ⟨value, -, known⟩ := mem_sourcesOf.1 member
  exact (Finset.mem_product.1 (within.1 known)).2

theorem within_escapeVisit (within : state.Within function symbols) (listed : instruction ∈ function.instructions) :
    (escapeVisit module function state instruction).Within function symbols := by
  have sources : sourcesOf state.origin instruction ⊆ symbols := sourcesOf_subset within
  unfold escapeVisit
  dsimp only
  split
  next => exact within
  next =>
    split
    next destination carries =>
      refine ⟨Finset.union_subset within.1 ?_, within.2⟩
      intro entry member
      obtain ⟨source, known, rfl⟩ := Finset.mem_image.1 member
      have defined := List.mem_filterMap.2 ⟨instruction, listed, carried_defines carries⟩
      exact Finset.mem_product.2 ⟨List.mem_toFinset.2 defined, sources known⟩
    next =>
      split
      next => exact within
      next => exact ⟨within.1, Finset.union_subset within.2 sources⟩

theorem within_escapeReturn (within : state.Within function symbols) (block : BasicBlock) :
    (escapeReturn state block).Within function symbols := by
  unfold escapeReturn
  split
  next value _ =>
    refine ⟨within.1, Finset.union_subset within.2 ?_⟩
    intro symbol member
    obtain ⟨entry, known, rfl⟩ := Finset.mem_image.1 member
    exact (Finset.mem_product.1 (within.1 (Finset.mem_filter.1 known).1)).2
  next => exact within

theorem within_escapeRound (within : state.Within function symbols) :
    (escapeRound module function state).Within function symbols := by
  have visits (instructions : List Instruction) (listed : ∀ instruction ∈ instructions, instruction ∈ function.instructions)
      (state : EscapeState) (within : state.Within function symbols) :
      (instructions.foldl (escapeVisit module function) state).Within function symbols := by
    induction instructions generalizing state with
    | nil => exact within
    | cons instruction instructions ih =>
      exact ih (fun other member => listed other (List.mem_cons_of_mem _ member)) _
        (within_escapeVisit within (listed instruction List.mem_cons_self))
  have returns (blocks : List BasicBlock) (state : EscapeState) (within : state.Within function symbols) :
      (blocks.foldl escapeReturn state).Within function symbols := by
    induction blocks generalizing state with
    | nil => exact within
    | cons block blocks ih => exact ih _ (within_escapeReturn within block)
  exact returns _ _ (visits _ (fun _ member => member) _ within)

theorem known_ne (changed : (escapeRound module function state).known ≠ state.known) :
    state.origin.card + state.escaping.card <
      (escapeRound module function state).origin.card + (escapeRound module function state).escaping.card := by
  have grown : state ≤ escapeRound module function state := le_escapeRound state
  obtain ⟨origin, escaping⟩ := EscapeState.le_iff.1 grown
  have more := Finset.card_le_card origin
  have more' := Finset.card_le_card escaping
  by_contra stays
  apply changed
  apply Prod.ext
  · show (escapeRound module function state).origin.card = state.origin.card
    omega
  · show (escapeRound module function state).escaping.card = state.escaping.card
    omega

theorem mem_readsOf : (value, symbol) ∈ function.readsOf symbols ↔
    symbol ∈ symbols ∧ ∃ instruction ∈ function.instructions, symbolRead instruction = some (value, symbol) := by
  unfold Function.readsOf
  rw [List.mem_toFinset, List.mem_filter, List.mem_filterMap, decide_eq_true_eq, and_comm]

theorem symbolRead_defines (reads : symbolRead instruction = some (value, symbol)) :
    instructionDefines instruction = some value := by
  cases instruction with
  | load | take =>
    cases reads
    rfl
  | _ => cases reads

theorem within_readsOf : (⟨function.readsOf symbols, ∅⟩ : EscapeState).Within function symbols := by
  refine ⟨?_, Finset.empty_subset _⟩
  rintro ⟨value, symbol⟩ member
  obtain ⟨asked, instruction, listed, reads⟩ := mem_readsOf.1 member
  have defined := List.mem_filterMap.2 ⟨instruction, listed, symbolRead_defines reads⟩
  exact Finset.mem_product.2 ⟨List.mem_toFinset.2 defined, asked⟩

/-- How often a round can add something. -/
def escapeBound (function : Function) (symbols : Finset SymbolId) : Nat :=
  (function.instructions.filterMap instructionDefines).toFinset.card * symbols.card + symbols.card

theorem card_within (within : state.Within function symbols) :
    state.origin.card + state.escaping.card ≤ escapeBound function symbols := by
  have pairs := Finset.card_le_card within.1
  have escaping := Finset.card_le_card within.2
  rw [Finset.card_product] at pairs
  unfold escapeBound
  omega

/-! ### The last state -/

/-- A state that no instruction and no return adds to. -/
structure EscapeState.Closed (module : Module) (function : Function) (symbols : Finset SymbolId) (state : EscapeState) :
    Prop where
  reads : ∀ value symbol, symbol ∈ symbols →
    (∃ instruction ∈ function.instructions, symbolRead instruction = some (value, symbol)) →
    (value, symbol) ∈ state.origin
  carries : ∀ instruction ∈ function.instructions, ∀ value ∈ instructionUses instruction, ∀ destination symbol,
    carried instruction = some destination → (value, symbol) ∈ state.origin → (destination, symbol) ∈ state.origin
  leaves : ∀ instruction ∈ function.instructions, ∀ value ∈ instructionUses instruction, ∀ symbol,
    carried instruction = none → (value, symbol) ∈ state.origin →
    borrows module function (sourcesOf state.origin instruction) instruction = false → symbol ∈ state.escaping
  returns : ∀ block ∈ function.blocks, ∀ value symbol, block.terminator = .return (some value) →
    (value, symbol) ∈ state.origin → symbol ∈ state.escaping

theorem closed_of_fixed (reads : function.readsOf symbols ⊆ state.origin)
    (fixed : escapeRound module function state = state) : state.Closed module function symbols := by
  have visited : function.instructions.foldl (escapeVisit module function) state = state := by
    apply le_antisymm _ (le_foldl le_escapeVisit _ _)
    have rest := le_foldl le_escapeReturn function.blocks (function.instructions.foldl (escapeVisit module function) state)
    rwa [show function.blocks.foldl escapeReturn _ = _ from fixed] at rest
  have visit := visit_of_foldl_eq le_escapeVisit visited
  have return_ : ∀ block ∈ function.blocks, escapeReturn state block = state := by
    apply visit_of_foldl_eq le_escapeReturn
    rw [escapeRound, visited] at fixed
    exact fixed
  have known {instruction : Instruction} {value : ValueId} {symbol : SymbolId}
      (used : value ∈ instructionUses instruction) (known : (value, symbol) ∈ state.origin) :
      symbol ∈ sourcesOf state.origin instruction := mem_sourcesOf.2 ⟨value, used, known⟩
  constructor
  · intro value symbol asked found
    exact reads (mem_readsOf.2 ⟨asked, found⟩)
  · intro instruction listed value used destination symbol carries origin
    have source := known used origin
    have same := visit instruction listed
    unfold escapeVisit at same
    dsimp only at same
    rw [if_neg (Finset.ne_empty_of_mem source), carries] at same
    have grown := congrArg EscapeState.origin same
    rw [← grown]
    exact Finset.mem_union_right _ (Finset.mem_image.2 ⟨symbol, source, rfl⟩)
  · intro instruction listed value used symbol carries origin keeps
    have source := known used origin
    have same := visit instruction listed
    unfold escapeVisit at same
    dsimp only at same
    rw [if_neg (Finset.ne_empty_of_mem source), carries] at same
    dsimp only at same
    rw [keeps, if_neg Bool.false_ne_true] at same
    have grown := congrArg EscapeState.escaping same
    rw [← grown]
    exact Finset.mem_union_right _ source
  · intro block listed value symbol returned origin
    have same := return_ block listed
    unfold escapeReturn at same
    rw [returned] at same
    have grown := congrArg EscapeState.escaping same
    rw [← grown]
    exact Finset.mem_union_right _ (Finset.mem_image.2 ⟨(value, symbol), Finset.mem_filter.2 ⟨origin, rfl⟩, rfl⟩)

theorem escapingSymbols_closed (module : Module) (function : Function) (symbols : Finset SymbolId) :
    ∃ state : EscapeState, state.Closed module function symbols ∧ ∀ fuel, escapeBound function symbols < fuel →
      escapingSymbols fuel module function symbols = some state.escaping := by
  have stops : ∃ last, saturate (escapeRound module function) EscapeState.known (escapeBound function symbols + 1)
      ⟨function.readsOf symbols, ∅⟩ = some last ∧ last.Within function symbols := by
    apply exists_saturate (fun state => state.origin.card + state.escaping.card)
    · exact fun _ within => within_escapeRound within
    · exact fun _ changed => known_ne changed
    · exact fun _ within => card_within within
    · exact within_readsOf
    · omega
  obtain ⟨last, stopped, -⟩ := stops
  obtain ⟨grown, fixed⟩ := saturate_fixed le_escapeRound
    (fun state same => EscapeState.eq_of_known (le_escapeRound state) same) stopped
  refine ⟨last, closed_of_fixed (EscapeState.le_iff.1 grown).1 fixed, fun fuel enough => ?_⟩
  rw [escapingSymbols, saturate_mono stopped enough, Option.map_some]

end BasicNext.Ir
