import BasicNext.Interp.Frame
import BasicNext.Ir.Accepted
import BasicNext.Lib.Transition
import BasicNext.Native.ConstantFold

/-!
# Folding over blocks

While native code is emitted for a block, the values and the bindings that are known are carried from one
instruction to the next (`bn_llvm::llvm::emission1`, `load_emission`, `arc_ops`). Every block starts with
nothing known. The steps of the interpreter through a function and the emission of its blocks go together, and
what is known of a value is related to what the interpreter has.
-/

namespace BasicNext.Native

open Lib (Number System)
open Interp (Frame Scalar FloatValue Held Executes Computes operatorNamed narrow floatKind coerceTo)
open Ir (Function Module Instruction Constant ValueId SymbolId instructionDefines)

/-! ### Emission -/

structure BlockState where
  constants : ValueId → Option ConstantValue
  bindings : SymbolId → Option ConstantValue

namespace BlockState

def empty : BlockState := ⟨fun _ => none, fun _ => none⟩

/-- A known destination is inserted and an unknown one removed. -/
def know (state : BlockState) (destination : ValueId) (value : Option ConstantValue) : BlockState :=
  { state with constants := Function.update state.constants destination value }

def bind (state : BlockState) (symbol : SymbolId) (value : Option ConstantValue) : BlockState :=
  { state with bindings := Function.update state.bindings symbol value }

end BlockState

def parseFloatConstant (text : String) : Option Number :=
  if text ∈ ["NAN", "nan", "NaN"] then some .nan
  else if text ∈ ["INF", "inf", "+INF", "+inf"] then some (.infinity false)
  else if text ∈ ["-INF", "-inf"] then some (.infinity true)
  else Lib.parseDouble text

/-- The constants that are carried; the validator has read their texts. -/
def constantKnown (value : Constant) (ty : Ty) : Option ConstantValue :=
  match value with
  | .integer text => (Semantic.parseInteger text).map fun value => .integer value (integerKind ty)
  | .float text => (parseFloatConstant text).map fun value => typedConstant (.float value) ty
  | .boolean value => some (.boolean value)
  | .string value => some (.string value)
  | _ => none

section

variable (power : Number → Number → Number) (weakSymbols : Finset SymbolId)

/-- `lower_load` -/
def lowerLoad (destination : ValueId) (symbol : SymbolId) (ty : Ty) (state : BlockState) : BlockState :=
  if symbol ∈ weakSymbols then state.know destination none
  else state.know destination ((state.bindings symbol).map fun value => typedConstant value ty)

/-- What the emission of an instruction leaves known. -/
def lowerScalarInstruction (instruction : Instruction) (state : BlockState) : BlockState :=
  match instruction with
  | .constant destination value ty _ =>
    match constantKnown value ty with
    | some value => state.know destination (some value)
    | none => state
  | .load destination symbol ty _ => lowerLoad weakSymbols destination symbol ty state
  | .take destination symbol ty _ => (lowerLoad weakSymbols destination symbol ty state).bind symbol none
  | .store symbol value _ _ _ => state.bind symbol (state.constants value)
  | .copy destination source ty _ =>
    state.know destination ((state.constants source).map fun value => typedConstant value ty)
  | .unary destination operator operand ty _ =>
    state.know destination (foldUnary (operatorNamed operator) (state.constants operand) ty)
  | .binary destination operator left right ty _ =>
    state.know destination
      (foldBinary power (operatorNamed operator) (state.constants left) (state.constants right) ty)
  | .cast destination value ty _ => state.know destination (foldCast (state.constants value) ty)
  | .retain destination .. | .takeMember destination .. | .input destination .. | .length destination ..
  | .sizeOf destination .. | .vector destination .. | .allocate destination .. | .member destination ..
  | .index destination .. | .loadStatic destination .. => state.know destination none
  | _ => state

end

/-! ### Runs of a function -/

/-- A place in a function, the frame of the interpreter there, and what native code knows there. -/
structure Run where
  block : Nat
  rest : List Instruction
  frame : Frame
  known : BlockState

inductive Event where
  | execute (instruction : Instruction)
  | enter (block : Nat)

section

variable (function : Function) (power : Number → Number → Number) (render : Scalar → String)

/-- The runs of a function from its entry, with any arguments, along the edges between its blocks. -/
def runs : System Run Event where
  initial run := run.block = function.entry ∧ run.rest = function.instructionsAt function.entry ∧
    (∀ value, run.frame.values value = none) ∧ run.known = .empty
  step run event next :=
    match event with
    | .execute instruction =>
      run.rest = instruction :: next.rest ∧ next.block = run.block ∧
        Executes power render instruction run.frame next.frame ∧
        next.known = lowerScalarInstruction power function.weakSymbols instruction run.known
    | .enter block =>
      run.rest = [] ∧ function.Edge run.block block ∧ next.block = block ∧
        next.rest = function.instructionsAt block ∧ next.frame = run.frame ∧ next.known = .empty

def Invisible (run : Run) (instruction : Instruction) : Prop :=
  match instruction with
  | .unary _ operator operand ty _ =>
    ∀ known, foldUnary (operatorNamed operator) (run.known.constants operand) ty = some known →
      ∃ value, run.frame.values operand = some (some value) ∧
        AnswersKnown (Interp.unaryScalar (operatorNamed operator) value ty) known
  | .binary _ operator left right ty _ =>
    ∀ known, foldBinary power (operatorNamed operator) (run.known.constants left) (run.known.constants right) ty =
        some known →
      ∃ x y, run.frame.values left = some (some x) ∧ run.frame.values right = some (some y) ∧
        AnswersKnown (Interp.binaryScalar power (operatorNamed operator) x y ty) known
  | .cast _ operand ty _ =>
    ∀ known, foldCast (run.known.constants operand) ty = some known →
      ∃ value, run.frame.values operand = some (some value) ∧ AnswersKnown (Interp.cast render value ty) known
  | _ => True

/-- A known number that is read at the type of an instruction has the precision that the interpreter's number
has. -/
def KeptRead (run : Run) (symbol : SymbolId) (ty : Ty) : Prop :=
  ∀ number value, run.known.bindings symbol = some (.float number) → run.frame.symbols symbol = some (some (.float value)) →
    narrow (floatKind ty) number = narrow value.kind number

/-- The conditions on a step. A known integer that is narrowed to 32 bits is a number of 32 bits; no operator
on known integers has the type of a literal, and a power of them that has a floating-point type has a negative
exponent; a known value is not coerced to `NULL`; and a known number is read at the precision at which the
interpreter coerced it. -/
def Kept (run : Run) (instruction : Instruction) : Prop :=
  match instruction with
  | .cast _ operand ty _ => ∀ known, run.known.constants operand = some known → KeptCast known ty
  | .unary _ _ operand ty _ =>
    ∀ n kind, run.known.constants operand = some (.integer n kind) → isIntegerLiteral ty = false
  | .binary _ operator left right ty _ =>
    ∀ n kind m kind', run.known.constants left = some (.integer n kind) →
      run.known.constants right = some (.integer m kind') → isIntegerLiteral ty = false ∧
        (operatorNamed operator = .power → Interp.isFloatType ty = true → m < 0)
  | .load _ symbol ty _ | .take _ symbol ty _ => KeptRead run symbol ty
  | .store _ source _ ty _ =>
    ∀ known value, run.known.constants source = some known → run.frame.values source = some (some value) →
      coerceTo value ty ≠ .ok none
  | .copy _ source ty _ =>
    ∀ known value, run.known.constants source = some known → run.frame.values source = some (some value) →
      coerceTo value ty ≠ .ok none ∧
        ∀ number copied, known = .float number → coerceTo value ty = .ok (some (.float copied)) →
          narrow (floatKind ty) number = narrow copied.kind number
  | _ => True

def KeptEvent (run : Run) : Event → Prop
  | .execute instruction => Kept run instruction
  | .enter _ => True

end

/-! ### What is known of a frame -/

/-- The known value is the value before the interpreter coerced it. -/
inductive Bound : ConstantValue → Scalar → Prop
  | integer (value : Int) (known kind : IntegerType) : Bound (.integer value known) (.integer value kind)
  | float (number : Number) (value : FloatValue) : narrow value.kind number = value.value →
    Bound (.float number) (.float value)
  | boolean (value : Bool) : Bound (.boolean value) (.boolean value)
  | string (value : String) : Bound (.string value) (.string value)

/-- What native code knows holds of the frame. -/
structure Tracks (known : BlockState) (frame : Frame) : Prop where
  constants : ∀ value constant, known.constants value = some constant →
    ∃ scalar, frame.values value = some (some scalar) ∧ Matches constant scalar
  bindings : ∀ symbol constant, known.bindings symbol = some constant →
    ∃ scalar, frame.symbols symbol = some (some scalar) ∧ Bound constant scalar

section

variable {known : BlockState} {frame next : Frame} {destination value : ValueId} {symbol : SymbolId}
  {held : Held} {constant : Option ConstantValue} {bound : ConstantValue} {scalar coerced : Scalar} {ty : Ty}

theorem Tracks.empty (frame : Frame) : Tracks .empty frame where
  constants _ _ inserted := by cases inserted
  bindings _ _ inserted := by cases inserted

theorem Tracks.know (tracks : Tracks known frame)
    (same : ∀ inserted, constant = some inserted → ∃ scalar, held = some scalar ∧ Matches inserted scalar) :
    Tracks (known.know destination constant) (frame.set destination held) where
  constants value inserted found := by
    by_cases here : value = destination
    · subst here
      simp only [BlockState.know, Function.update_self] at found
      obtain ⟨scalar, rfl, is⟩ := same inserted found
      exact ⟨scalar, frame.set_values value _, is⟩
    · simp only [BlockState.know, Function.update_of_ne here] at found
      rw [Frame.set_values_of_ne frame held here]
      exact tracks.constants value inserted found
  bindings := tracks.bindings

theorem Tracks.bind (tracks : Tracks known frame)
    (same : ∀ inserted, constant = some inserted → ∃ scalar, held = some scalar ∧ Bound inserted scalar) :
    Tracks (known.bind symbol constant) (frame.assign symbol held) where
  constants := tracks.constants
  bindings symbol' inserted found := by
    by_cases here : symbol' = symbol
    · subst here
      simp only [BlockState.bind, Function.update_self] at found
      obtain ⟨scalar, rfl, is⟩ := same inserted found
      exact ⟨scalar, Function.update_self .., is⟩
    · simp only [BlockState.bind, Frame.assign, Function.update_of_ne here] at found ⊢
      exact tracks.bindings symbol' inserted found

theorem Tracks.remove (tracks : Tracks known frame) : Tracks (known.bind symbol none) (frame.remove symbol) where
  constants := tracks.constants
  bindings symbol' inserted found := by
    by_cases here : symbol' = symbol
    · subst here
      simp only [BlockState.bind, Function.update_self] at found
      cases found
    · simp only [BlockState.bind, Frame.remove, Function.update_of_ne here] at found ⊢
      exact tracks.bindings symbol' inserted found

theorem Tracks.of_frame (tracks : Tracks known frame) (symbols : next.symbols = frame.symbols)
    (values : ∀ value, known.constants value ≠ none → next.values value = frame.values value) : Tracks known next where
  constants value inserted found := by
    rw [values value (by rw [found]; exact Option.some_ne_none inserted)]
    exact tracks.constants value inserted found
  bindings symbol inserted found := by
    rw [symbols]
    exact tracks.bindings symbol inserted found

theorem Tracks.set (tracks : Tracks known frame) (fresh : known.constants destination = none) (held : Held) :
    Tracks known (frame.set destination held) := by
  refine tracks.of_frame rfl fun value inserted => Frame.set_values_of_ne frame held ?_
  rintro rfl
  exact inserted fresh

theorem know_none (fresh : known.constants destination = none) : known.know destination none = known := by
  rw [BlockState.know, ← fresh, Function.update_eq_self]

/-! ### Coercions -/

theorem coerceDirect_bound (same : Matches bound scalar)
    (direct : Interp.coerceDirect scalar ty = .ok (some coerced)) : Bound bound coerced := by
  cases same with
  | integer n known kind =>
    cases ty with
    | integer target =>
      have checked : Interp.ofResult (Interp.checkedInteger (some n) (.integer target)) = .ok (some coerced) := direct
      rw [Semantic.checkedInteger_eq] at checked
      split at checked
      next =>
        obtain rfl := Option.some.inj (Except.ok.inj checked)
        exact .integer n _ _
      next => cases checked
    | _ => cases direct
  | float p =>
    cases ty with
    | float kind =>
      have finite : Interp.finiteFloat p.value kind = .ok (some coerced) := direct
      rw [Interp.finiteFloat] at finite
      split at finite
      next => cases finite
      next =>
        obtain rfl := Option.some.inj (Except.ok.inj finite)
        exact .float _ _ rfl
    | _ => cases direct
  | boolean truth =>
    cases ty with
    | boolean =>
      obtain rfl := Option.some.inj (Except.ok.inj direct)
      exact .boolean truth
    | _ => cases direct
  | string text =>
    cases ty with
    | string =>
      obtain rfl := Option.some.inj (Except.ok.inj direct)
      exact .string text
    | _ => cases direct

theorem Matches.toBound (same : Matches bound scalar) : Bound bound scalar := by
  cases same with
  | integer n known kind => exact .integer n known kind
  | float p => exact .float p.value p p.narrowed
  | boolean truth => exact .boolean truth
  | string text => exact .string text

theorem coerceTo_bound (same : Matches bound scalar) (result : coerceTo scalar ty = .ok (some coerced)) :
    Bound bound coerced := by
  cases ty with
  | unknown =>
    obtain rfl := Option.some.inj (Except.ok.inj result)
    exact same.toBound
  | alternative types =>
    rw [coerceTo] at result
    split at result
    next => exact coerceDirect_bound same result
    next =>
      split at result
      next =>
        obtain rfl := Option.some.inj (Except.ok.inj result)
        exact same.toBound
      next =>
        split at result
        next => cases result
        next => exact coerceDirect_bound same result
  | _ => exact coerceDirect_bound same result

theorem Bound.matches (is : Bound bound scalar) (precision : ∀ number value, bound = .float number → scalar = .float value →
      narrow (floatKind ty) number = narrow value.kind number) : Matches (typedConstant bound ty) scalar := by
  cases is with
  | integer n known kind => exact .integer n known kind
  | float number value narrowed =>
    rw [typedConstant_float, matches_float_iff, precision number value rfl rfl]
    exact narrowed
  | boolean truth => exact .boolean truth
  | string text => exact .string text

end

/-! ### Constants -/

theorem parseFloatConstant_eq {text : String} {number : Number} (parsed : Interp.parseFloat text = some number) :
    parseFloatConstant text = some number := by
  have spelled (spelling : String) (special : Number) (double : Lib.parseDouble spelling = some special)
      (same : text = spelling) (other : spelling ∉ ["NAN", "INF", "-INF"]) : special = number := by
    subst same
    simp only [List.mem_cons, List.not_mem_nil, or_false, not_or] at other
    rw [Interp.parseFloat, if_neg other.1, if_neg other.2.1, if_neg other.2.2, double] at parsed
    exact Option.some.inj parsed
  rw [parseFloatConstant]
  split_ifs with nan positive negative
  · simp only [List.mem_cons, List.not_mem_nil, or_false] at nan
    rcases nan with rfl | same | same
    · exact parsed
    · rw [spelled "nan" .nan (by decide) same (by decide)]
    · rw [spelled "NaN" .nan (by decide) same (by decide)]
  · simp only [List.mem_cons, List.not_mem_nil, or_false] at positive
    rcases positive with rfl | same | same | same
    · exact parsed
    · rw [spelled "inf" (.infinity false) (by decide) same (by decide)]
    · rw [spelled "+INF" (.infinity false) (by decide) same (by decide)]
    · rw [spelled "+inf" (.infinity false) (by decide) same (by decide)]
  · simp only [List.mem_cons, List.not_mem_nil, or_false] at negative
    rcases negative with rfl | same
    · exact parsed
    · rw [spelled "-inf" (.infinity true) (by decide) same (by decide)]
  · rw [Interp.parseFloat] at parsed
    simp only [List.mem_cons, not_or] at nan positive negative
    rwa [if_neg nan.1, if_neg positive.1, if_neg negative.1] at parsed

section

variable {value : Constant} {known : ConstantValue} {held : Held} {ty : Ty}

theorem constantKnown_matches (inserted : constantKnown value ty = some known)
    (result : Interp.constantValue value ty = .ok held) : ∃ scalar, held = some scalar ∧ Matches known scalar := by
  cases value with
  | integer text =>
    rw [constantKnown] at inserted
    rw [Interp.constantValue] at result
    obtain ⟨n, parsed, rfl⟩ := Option.map_eq_some_iff.1 inserted
    rw [parsed] at result
    obtain rfl := Except.ok.inj result
    exact ⟨_, rfl, .integer n _ _⟩
  | float text =>
    rw [constantKnown] at inserted
    rw [Interp.constantValue] at result
    cases parsed : Interp.parseFloat text with
    | none =>
      rw [parsed] at result
      cases result
    | some number =>
      rw [parsed] at result
      rw [parseFloatConstant_eq parsed] at inserted
      obtain rfl := Except.ok.inj result
      obtain rfl := Option.some.inj inserted
      obtain ⟨scalar, same, is⟩ := answers_floatScalar number ty
      exact ⟨scalar, Except.ok.inj same, is⟩
  | string text =>
    obtain rfl := Option.some.inj inserted
    obtain rfl := Except.ok.inj result
    exact ⟨_, rfl, .string text⟩
  | boolean truth =>
    obtain rfl := Option.some.inj inserted
    obtain rfl := Except.ok.inj result
    exact ⟨_, rfl, .boolean truth⟩
  | _ => cases inserted

end

/-! ### One step -/

section

variable {power : Number → Number → Number} {render : Scalar → String} {weakSymbols : Finset SymbolId} {run : Run}
  {next : Frame} {instruction : Instruction}

/-- What the validator leaves of operators and of the types of their results. -/
def ValidOperator : Instruction → Prop
  | .unary _ operator _ _ _ => operatorNamed operator ≠ .plus
  | .binary _ operator _ _ ty _ => ValidBinary (operatorNamed operator) ty
  | _ => True

theorem computes_unary {compute : List Scalar → Interp.ScalarResult} {scalar : Scalar} {held : Held}
    {known : ConstantValue} (computes : Computes compute [some scalar] held) (answers : AnswersKnown (compute [scalar]) known) :
    ∃ result, held = some result ∧ Matches known result := by
  obtain ⟨result, same, is⟩ := answers
  exact ⟨result, Except.ok.inj ((computes [scalar] rfl).symm.trans same), is⟩

theorem invisible_of_kept (tracks : Tracks run.known run.frame) (valid : ValidOperator instruction)
    (kept : Kept run instruction) : Invisible power render run instruction := by
  cases instruction with
  | unary destination operator operand ty span =>
    intro known folded
    obtain ⟨constant, found, -⟩ := Option.bind_eq_some_iff.1 folded
    obtain ⟨scalar, held, same⟩ := tracks.constants operand constant found
    rw [found] at folded
    exact ⟨scalar, held, foldUnary_answers valid same (fun n kind integer => kept n kind (by rw [found, integer])) folded⟩
  | binary destination operator left right ty span =>
    intro known folded
    obtain ⟨leftConstant, leftFound, rest⟩ := Option.bind_eq_some_iff.1 folded
    obtain ⟨rightConstant, rightFound, -⟩ := Option.bind_eq_some_iff.1 rest
    obtain ⟨x, leftHeld, leftSame⟩ := tracks.constants left leftConstant leftFound
    obtain ⟨y, rightHeld, rightSame⟩ := tracks.constants right rightConstant rightFound
    rw [leftFound, rightFound] at folded
    refine ⟨x, y, leftHeld, rightHeld, foldBinary_answers valid leftSame rightSame ?_ folded⟩
    intro n kind m kind' leftInteger rightInteger
    exact kept n kind m kind' (by rw [leftFound, leftInteger]) (by rw [rightFound, rightInteger])
  | cast destination operand ty span =>
    intro known folded
    obtain ⟨constant, found, -⟩ := Option.bind_eq_some_iff.1 folded
    obtain ⟨scalar, held, same⟩ := tracks.constants operand constant found
    rw [found] at folded
    exact ⟨scalar, held, foldCast_answers render same (kept constant found) folded⟩
  | _ => trivial

theorem Tracks.load {known : BlockState} {frame : Frame} {symbol : SymbolId} {ty : Ty} {held : Held}
    (tracks : Tracks known frame) (destination : ValueId) (found : frame.symbols symbol = some held)
    (kept : ∀ number value, known.bindings symbol = some (.float number) → held = some (.float value) →
      narrow (floatKind ty) number = narrow value.kind number) :
    Tracks (lowerLoad weakSymbols destination symbol ty known) (frame.set destination held) := by
  rw [lowerLoad]
  split
  next => exact tracks.know fun inserted absurd => by cases absurd
  next =>
    refine tracks.know fun inserted same => ?_
    obtain ⟨constant, bound, rfl⟩ := Option.map_eq_some_iff.1 same
    obtain ⟨scalar, holds, is⟩ := tracks.bindings symbol constant bound
    obtain rfl := Option.some.inj (found.symm.trans holds)
    refine ⟨scalar, rfl, is.matches ?_⟩
    rintro number value rfl rfl
    exact kept number value bound rfl

theorem constant_held {destination : ValueId} {value : Constant} {ty : Ty} {span : Ir.Span} {frame : Frame}
    (executes : Executes power render (.constant destination value ty span) frame next)
    (before : ∀ held, frame.values destination = some held → Interp.constantValue value ty = .ok held) :
    ∃ held, Interp.constantValue value ty = .ok held ∧ next = frame.set destination held := by
  rw [Executes] at executes
  split at executes
  next isSet =>
    obtain ⟨held, found⟩ := Option.isSome_iff_exists.1 isSet
    refine ⟨held, before held found, ?_⟩
    rw [executes, Frame.set, ← found, Function.update_eq_self]
  next => exact executes

theorem Tracks.step (tracks : Tracks run.known run.frame)
    (executes : Executes power render instruction run.frame next) (kept : Kept run instruction)
    (invisible : Invisible power render run instruction)
    (fresh : ∀ value, instructionDefines instruction = some value → run.known.constants value = none)
    (constants : ∀ destination value ty span, instruction = .constant destination value ty span →
      ∀ held, run.frame.values destination = some held → Interp.constantValue value ty = .ok held) :
    Tracks (lowerScalarInstruction power weakSymbols instruction run.known) next := by
  have unknown (symbols : next.symbols = run.frame.symbols)
      (values : ∀ value, instructionDefines instruction ≠ some value → next.values value = run.frame.values value) :
      Tracks run.known next :=
    tracks.of_frame symbols fun value inserted => values value fun defines => inserted (fresh value defines)
  cases instruction with
  | constant destination value ty span =>
    obtain ⟨held, result, rfl⟩ := constant_held executes (constants destination value ty span rfl)
    rw [lowerScalarInstruction]
    split
    next constant inserted =>
      refine tracks.know fun known same => ?_
      obtain rfl := Option.some.inj same
      exact constantKnown_matches inserted result
    next => exact tracks.set (fresh destination rfl) held
  | load destination symbol ty span =>
    obtain ⟨-, held, found, rfl⟩ := executes
    refine tracks.load destination found fun number value bound holds => ?_
    exact kept number value bound (by rw [found, holds])
  | take destination symbol ty span =>
    obtain rfl := executes
    refine Tracks.remove ?_
    cases found : run.frame.symbols symbol with
    | some held =>
      refine tracks.load destination found fun number value bound holds => ?_
      obtain rfl : held = some (.float value) := holds
      exact kept number value bound found
    | none =>
      have unknown : run.known.bindings symbol = none := by
        cases bound : run.known.bindings symbol with
        | none => rfl
        | some constant =>
          obtain ⟨scalar, holds, -⟩ := tracks.bindings symbol constant bound
          rw [found] at holds
          cases holds
      have lowered : lowerLoad weakSymbols destination symbol ty run.known = run.known.know destination none := by
        rw [lowerLoad, unknown]
        split <;> rfl
      rw [lowered]
      exact tracks.know fun inserted absurd => by cases absurd
  | endBinding symbol span =>
    obtain ⟨-, rfl⟩ := executes
    exact tracks.of_frame rfl fun value _ => rfl
  | store symbol source previous ty span =>
    obtain ⟨held, stored, found, computes, rfl⟩ := executes
    have assigned : Tracks (run.known.bind symbol (run.known.constants source)) (run.frame.assign symbol stored) := by
      refine tracks.bind fun constant known => ?_
      obtain ⟨scalar, holds, same⟩ := tracks.constants source constant known
      obtain rfl := Option.some.inj (found.symm.trans holds)
      have result : coerceTo scalar ty = .ok stored := computes [scalar] rfl
      cases stored with
      | none => exact absurd result (kept constant scalar known holds)
      | some coerced => exact ⟨coerced, rfl, coerceTo_bound same result⟩
    cases previous with
    | none => exact assigned
    | some previous => exact assigned.set (fresh previous rfl) _
  | copy destination source ty span =>
    obtain ⟨held, copied, found, computes, rfl⟩ := executes
    refine tracks.know fun inserted mapped => ?_
    obtain ⟨constant, known, rfl⟩ := Option.map_eq_some_iff.1 mapped
    obtain ⟨scalar, holds, same⟩ := tracks.constants source constant known
    obtain rfl := Option.some.inj (found.symm.trans holds)
    have result : coerceTo scalar ty = .ok copied := computes [scalar] rfl
    obtain ⟨scalarKept, precision⟩ := kept constant scalar known holds
    cases copied with
    | none => exact absurd result scalarKept
    | some coerced =>
      refine ⟨coerced, rfl, (coerceTo_bound same result).matches ?_⟩
      rintro number value rfl rfl
      exact precision number value rfl result
  | unary destination operator operand ty span =>
    obtain ⟨held, result, found, computes, rfl⟩ := executes
    refine tracks.know fun inserted folded => ?_
    obtain ⟨scalar, holds, answers⟩ := invisible inserted folded
    obtain rfl := Option.some.inj (found.symm.trans holds)
    exact computes_unary computes answers
  | binary destination operator left right ty span =>
    obtain ⟨leftHeld, rightHeld, result, leftFound, rightFound, computes, rfl⟩ := executes
    refine tracks.know fun inserted folded => ?_
    obtain ⟨x, y, leftHolds, rightHolds, value, same, is⟩ := invisible inserted folded
    obtain rfl := Option.some.inj (leftFound.symm.trans leftHolds)
    obtain rfl := Option.some.inj (rightFound.symm.trans rightHolds)
    exact ⟨value, Except.ok.inj ((computes [x, y] rfl).symm.trans same), is⟩
  | cast destination operand ty span =>
    obtain ⟨held, result, found, computes, rfl⟩ := executes
    refine tracks.know fun inserted folded => ?_
    obtain ⟨scalar, holds, answers⟩ := invisible inserted folded
    obtain rfl := Option.some.inj (found.symm.trans holds)
    exact computes_unary computes answers
  | retain destination | takeMember destination | input destination | length destination | sizeOf destination
  | vector destination | allocate destination | member destination | index destination | loadStatic destination =>
    rw [lowerScalarInstruction, know_none (fresh destination rfl)]
    exact unknown executes.1 executes.2.2
  | _ => exact unknown executes.1 executes.2.2

end

/-! ### Accepted functions -/

section

variable {module : Module} {function : Function} {reachable : Finset Nat} {sets : Ir.MustDefined} {index : Nat}
  {instruction : Instruction}

theorem checkedTypes (checked : Ir.Checked module function reachable sets) (within : index ∈ reachable)
    (member : instruction ∈ function.instructionsAt index) (other : instruction.isPhi = false) :
    ∃ fuel, Ir.validateInstructionTypes fuel module instruction (Ir.validatedTypes function) = .ok () := by
  obtain ⟨fuel, body⟩ := checked.body
  rw [Function.instructionsAt] at member
  cases found : function.blocks[index]? with
  | none => simp [found] at member
  | some block =>
    simp only [found] at member
    obtain ⟨before, after, instructions⟩ := List.append_of_mem member
    have accepted := body index block found within
    rw [Ir.validateBlockBody, if_neg (not_not.2 within), Lib.bind_eq_ok] at accepted
    obtain ⟨walk, walked, -⟩ := accepted
    rw [instructions, Lib.foldlM_append_eq_ok] at walked
    obtain ⟨middle, -, rest⟩ := walked
    obtain ⟨following, here, -⟩ := Lib.foldlM_cons_eq_ok.1 rest
    refine ⟨fuel, ?_⟩
    rw [Ir.validateInstruction.eq_def] at here
    split at here
    next => cases other
    next =>
      obtain ⟨⟨⟩, -, rest⟩ := Lib.bind_eq_ok.1 here
      obtain ⟨⟨⟩, types, -⟩ := Lib.bind_eq_ok.1 rest
      exact types

theorem validUnary_ne_plus {operator : String} {operand result : Ty}
    (valid : Ir.validUnaryTypes operator operand result = true) : operatorNamed operator ≠ .plus := by
  rw [Ir.validUnaryTypes] at valid
  split_ifs at valid with minus not
  · rw [beq_iff_eq.1 minus]
    decide
  · rw [beq_iff_eq.1 not]
    decide

theorem validBinary_of_types {operator : String} {left right result : Ty}
    (valid : Ir.validBinaryTypes operator left right result = true) : ValidBinary (operatorNamed operator) result := by
  rw [Ir.validBinaryTypes] at valid
  split_ifs at valid with equality order bits division text arithmetic quotient test
  all_goals simp only [Bool.or_eq_true, Bool.and_eq_true, beq_iff_eq] at *
  · rcases equality with rfl | rfl <;> trivial
  · rcases order with ((rfl | rfl) | rfl) | rfl <;> exact valid.1
  · rcases bits with (rfl | rfl) | rfl <;> trivial
  · rcases division with ((rfl | rfl) | rfl) | rfl <;> trivial
  · rcases text with ⟨rfl, -⟩
    trivial
  · rcases arithmetic with ((rfl | rfl) | rfl) | rfl <;> trivial
  · obtain rfl := quotient
    trivial
  · obtain rfl := test
    trivial

theorem validOperator_of_types {fuel : Nat} {valueTypes : Ir.ValueTypes}
    (types : Ir.validateInstructionTypes fuel module instruction valueTypes = .ok ()) : ValidOperator instruction := by
  cases instruction with
  | unary destination operator operand ty span =>
    rw [Ir.validateInstructionTypes] at types
    split at types
    next => cases types
    next =>
      have valid := Ir.rejectIf_eq_ok.1 types
      exact validUnary_ne_plus (by simpa using valid)
  | binary destination operator left right ty span =>
    rw [Ir.validateInstructionTypes] at types
    split at types
    next =>
      have valid := Ir.rejectIf_eq_ok.1 types
      exact validBinary_of_types (by simpa using valid)
    next => cases types
  | _ => trivial

end

/-! ### Runs -/

/-- What holds at every place of a run: the rest of the block is ahead, what it defines is not known yet, and
the values that constants define are these constants. -/
structure Sound (function : Function) (reachable : Finset Nat) (run : Run) : Prop where
  within : run.block ∈ reachable
  ahead : ∃ before, function.instructionsAt run.block = before ++ run.rest
  tracks : Tracks run.known run.frame
  fresh : ∀ instruction ∈ run.rest, ∀ value, instructionDefines instruction = some value → run.known.constants value = none
  constants : ∀ destination value ty span, .constant destination value ty span ∈ function.instructions →
    ∀ held, run.frame.values destination = some held → Interp.constantValue value ty = .ok held

section

variable {module : Module} {function : Function} {reachable : Finset Nat} {sets : Ir.MustDefined}
  {power : Number → Number → Number} {render : Scalar → String} {run next : Run} {instruction : Instruction}
  {rest : List Instruction}

theorem lowerScalarInstruction_constants {known : BlockState} {value : ValueId} (weakSymbols : Finset SymbolId)
    (other : instructionDefines instruction ≠ some value) :
    (lowerScalarInstruction power weakSymbols instruction known).constants value = known.constants value := by
  have keeps {destination : ValueId} (constant : Option ConstantValue) (defines : some destination ≠ some value) :
      (known.know destination constant).constants value = known.constants value :=
    Function.update_of_ne (fun same => defines (congrArg some same.symm)) ..
  cases instruction with
  | constant destination constant ty span =>
    rw [lowerScalarInstruction]
    split
    next => exact keeps _ other
    next => rfl
  | load destination symbol ty span | take destination symbol ty span =>
    show (lowerLoad weakSymbols destination symbol ty known).constants value = known.constants value
    rw [lowerLoad]
    split <;> exact keeps _ other
  | copy destination | unary destination | binary destination | cast destination | retain destination
  | takeMember destination | input destination | length destination | sizeOf destination | vector destination
  | allocate destination | member destination | index destination | loadStatic destination => exact keeps _ other
  | _ => rfl

theorem Sound.defines (sound : Sound function reachable run) (once : function.DefinesOnce)
    (here : run.rest = instruction :: rest) :
    instruction ∈ function.instructionsAt run.block ∧
      ∀ later ∈ rest, ∀ value, instructionDefines later = some value → instructionDefines instruction ≠ some value := by
  obtain ⟨before, ahead⟩ := sound.ahead
  rw [here] at ahead
  refine ⟨by simp [ahead], fun later member value defines same => ?_⟩
  have found : ∃ block, function.blocks[run.block]? = some block := by
    rw [Function.instructionsAt] at ahead
    cases found : function.blocks[run.block]? with
    | none => simp [found] at ahead
    | some block => exact ⟨block, rfl⟩
  obtain ⟨block, found⟩ := found
  have instructions : function.instructionsAt run.block = block.instructions := by
    rw [Function.instructionsAt, found]
  have distinct := once.block_nodup found
  rw [← instructions, ahead, List.filterMap_append, List.filterMap_cons_some same] at distinct
  exact (List.nodup_cons.1 (List.nodup_append.1 distinct).2.1).1 (List.mem_filterMap.2 ⟨later, member, defines⟩)

theorem Sound.valid (checked : Ir.Checked module function reachable sets) (sound : Sound function reachable run)
    (here : run.rest = instruction :: rest) : ValidOperator instruction := by
  obtain ⟨member, -⟩ := sound.defines checked.definesOnce here
  cases phi : instruction.isPhi with
  | false =>
    obtain ⟨fuel, types⟩ := checkedTypes checked sound.within member phi
    exact validOperator_of_types types
  | true =>
    cases instruction with
    | phi => trivial
    | _ => cases phi

theorem Sound.invisible (checked : Ir.Checked module function reachable sets) (sound : Sound function reachable run)
    (here : run.rest = instruction :: rest) (kept : Kept run instruction) : Invisible power render run instruction :=
  invisible_of_kept sound.tracks (sound.valid checked here) kept

theorem Sound.execute (checked : Ir.Checked module function reachable sets) (sound : Sound function reachable run)
    (kept : Kept run instruction) (here : run.rest = instruction :: next.rest) (block : next.block = run.block)
    (executes : Executes power render instruction run.frame next.frame)
    (lowers : next.known = lowerScalarInstruction power function.weakSymbols instruction run.known) :
    Sound function reachable next := by
  obtain ⟨member, apart⟩ := sound.defines checked.definesOnce here
  have ofFunction := Function.mem_instructions member
  refine ⟨block ▸ sound.within, ?_, ?_, ?_, ?_⟩
  · obtain ⟨before, ahead⟩ := sound.ahead
    exact ⟨before ++ [instruction], by rw [block, ahead, here, List.append_assoc]; rfl⟩
  · rw [lowers]
    refine sound.tracks.step executes kept (sound.invisible checked here kept) ?_ ?_
    · exact fun value defines => sound.fresh instruction (by rw [here]; exact List.mem_cons_self) value defines
    · rintro destination value ty span rfl
      exact sound.constants destination value ty span ofFunction
  · intro later within value defines
    rw [lowers, lowerScalarInstruction_constants _ (apart later within value defines)]
    exact sound.fresh later (by rw [here]; exact List.mem_cons_of_mem _ within) value defines
  · intro destination value ty span constant held found
    by_cases defines : instructionDefines instruction = some destination
    · obtain rfl := checked.definesOnce.instruction_eq ofFunction defines constant rfl
      obtain ⟨held', result, same⟩ := constant_held executes (sound.constants destination value ty span constant)
      rw [same, Frame.set_values] at found
      rwa [← Option.some.inj found]
    · rw [executes.values_eq _ _ defines] at found
      exact sound.constants destination value ty span constant held found

theorem Sound.enter (checked : Ir.Checked module function reachable sets) (sound : Sound function reachable run)
    (edge : function.Edge run.block next.block) (rest : next.rest = function.instructionsAt next.block)
    (frame : next.frame = run.frame) (known : next.known = .empty) : Sound function reachable next where
  within := checked.closed run.block sound.within next.block edge
  ahead := ⟨[], rest.symm⟩
  tracks := known ▸ Tracks.empty next.frame
  fresh _ _ _ _ := by rw [known]; rfl
  constants := frame ▸ sound.constants

theorem sound_of_reachable (checked : Ir.Checked module function reachable sets)
    (reached : ((runs function power render).restrict KeptEvent).Reachable run) : Sound function reachable run := by
  refine reached.invariant ?_ ?_
  · rintro run ⟨entry, rest, unset, known⟩
    refine ⟨entry ▸ checked.entry_mem, ⟨[], by rw [entry, rest]; rfl⟩, known ▸ Tracks.empty run.frame, ?_, ?_⟩
    · exact fun _ _ _ _ => by rw [known]; rfl
    · intro destination value ty span _ held found
      rw [unset destination] at found
      cases found
  · rintro run event next sound ⟨kept, step⟩
    cases event with
    | execute instruction =>
      obtain ⟨here, block, executes, lowers⟩ := step
      exact sound.execute checked kept here block executes lowers
    | enter block =>
      obtain ⟨-, edge, rfl, rest, frame, known⟩ := step
      exact sound.enter checked edge rest frame known

/-! ### Folding is invisible -/

/-- In every run of a function of an accepted module whose steps are kept, what is folded at a kept instruction
is what the interpreter answers; an instruction that fails is not folded. -/
theorem constantFolding_invisible (accepted : module.Accepted) (member : function ∈ module.functions)
    (reached : ((runs function power render).restrict KeptEvent).Reachable run)
    (here : run.rest = instruction :: rest) (kept : Kept run instruction) :
    Invisible power render run instruction := by
  obtain ⟨⟨reachable, sets, checked⟩, -⟩ := accepted.checked member
  exact (sound_of_reachable checked reached).invisible checked here kept

end

/-! ### A narrowed integer -/

def castFunction (text : String) (ty : Ty) : Function where
  name := "main"
  kind := .user
  owner := none
  parameters := []
  weakSymbols := ∅
  returnType := .named "VOID"
  entry := 0
  blocks := [⟨0, [.constant 0 (.integer text) (.integer .int32) Ir.defaultModuleSpan,
    .cast 1 0 ty Ir.defaultModuleSpan], .return none⟩]
  span := Ir.defaultModuleSpan

def castModule (text : String) (ty : Ty) : Module := { functions := [castFunction text ty] }

/-- The place of the cast, with the constant that the interpreter has set. -/
def castRun (n : Int) (ty : Ty) : Run where
  block := 0
  rest := [.cast 1 0 ty Ir.defaultModuleSpan]
  frame := (Frame.mk (fun _ => none) (fun _ => none) ∅).set 0 (some (.integer n .int32))
  known := BlockState.empty.know 0 (some (.integer n .int32))

theorem castRun_reached {text : String} {n : Int} (ty : Ty) (power : Number → Number → Number)
    (render : Scalar → String) (value : Semantic.parseInteger text = some n) :
    ((runs (castFunction text ty) power render).restrict KeptEvent).Reachable (castRun n ty) := by
  have start : ((runs (castFunction text ty) power render).restrict KeptEvent).Reachable
      ⟨0, (castFunction text ty).instructionsAt 0, ⟨fun _ => none, fun _ => none, ∅⟩, .empty⟩ :=
    .initial ⟨rfl, rfl, fun _ => rfl, rfl⟩
  have held : Interp.constantValue (.integer text) (.integer .int32) = .ok (some (.integer n .int32)) := by
    rw [Interp.constantValue, value]
    rfl
  have known : constantKnown (.integer text) (.integer .int32) = some (.integer n .int32) := by
    rw [constantKnown, value]
    rfl
  have step : ((runs (castFunction text ty) power render).restrict KeptEvent).step
      ⟨0, (castFunction text ty).instructionsAt 0, ⟨fun _ => none, fun _ => none, ∅⟩, .empty⟩
      (.execute (.constant 0 (.integer text) (.integer .int32) Ir.defaultModuleSpan)) (castRun n ty) := by
    refine ⟨trivial, rfl, rfl, ⟨some (.integer n .int32), held, rfl⟩, ?_⟩
    rw [lowerScalarInstruction, known]
    rfl
  exact start.step step

/-- 16777217 is no number of 32 bits: native code goes on with 16777217, the interpreter with 16777216. -/
theorem narrowedInteger_visible : (castModule "16777217" (.float .float32)).Accepted ∧
      castFunction "16777217" (.float .float32) ∈ (castModule "16777217" (.float .float32)).functions ∧
      ∀ power render, ∃ run instruction rest,
        (runs (castFunction "16777217" (.float .float32)) power render).Reachable run ∧
          run.rest = instruction :: rest ∧ ¬Invisible power render run instruction := by
  refine ⟨⟨10, by decide⟩, List.mem_cons_self, fun power render => ?_⟩
  have reached := castRun_reached (.float .float32) power render
    (show Semantic.parseInteger "16777217" = some 16777217 by decide)
  refine ⟨castRun 16777217 (.float .float32), _, [], reached.of_restrict, rfl, fun invisible => ?_⟩
  obtain ⟨scalar, holds, answers⟩ := invisible _ rfl
  obtain rfl := Option.some.inj (Option.some.inj holds)
  have kept : Lib.Format.binary32.round (Interp.double 16777217) = Interp.double 16777217 :=
    (foldCast_answers_iff render (.integer 16777217 .int32 .int32) rfl).1 answers
  exact absurd kept (by decide +kernel)

/-- 16777216 is a number of 32 bits. -/
theorem constantFolding_invisible_cast :
    Invisible (fun _ _ => .nan) (fun _ => "") (castRun 16777216 (.float .float32))
      (.cast 1 0 (.float .float32) Ir.defaultModuleSpan) := by
  have accepted : (castModule "16777216" (.float .float32)).Accepted := ⟨10, by decide⟩
  have reached := castRun_reached (.float .float32) (fun _ _ => .nan) (fun _ => "")
    (show Semantic.parseInteger "16777216" = some 16777216 by decide)
  refine constantFolding_invisible accepted List.mem_cons_self reached rfl fun known found => ?_
  obtain rfl := Option.some.inj found
  show Lib.Format.binary32.round (Interp.double 16777216) = Interp.double 16777216
  decide +kernel

end BasicNext.Native
