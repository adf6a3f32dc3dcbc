import BasicNext.Native.Power
import BasicNext.Native.Comparison
import BasicNext.Interp.ForLoop

/-!
# The counted FOR in native code

The test and the range check of a counted `FOR` (`bn_llvm::llvm::loop_emission`), which compare with 64 and
with 128 bits. The test reads the end with the sign of the variable's type, a constant step has 64 bits, and
the addition brings the step to the variable's type. Native code visits the values of the variable where the
end and the step are read so that as many values remain, and where no step is taken that the type of the
variable does not hold.
-/

namespace BasicNext.Native

open Lib Lib.Llvm
open Interp (Operator)
open Semantic (CountedFor HoldsInteger)

/-- A comparison of two integers of one width, with the sign of a type. -/
def compareAs {width : Nat} (operator : Operator) (ty : Ty) (x y : BitVec width) : Bool :=
  (integerCompareCond operator ty).any fun predicate => icmp predicate x y

def lowerForCondition (currentTy stopTy stepTy : Ty) (current : Register currentTy) (stop : Register stopTy)
    (step : Register stepTy) : Code Bool := do
  let current : BitVec 64 := emitCastInteger currentTy 64 current
  let stop : BitVec 64 := emitCastInteger stopTy 64 stop
  trapIf (icmp .eq step 0) .invalidForStep
  let positive := compareAs .greater stepTy step 0
  let ascending := compareAs .lessEqual currentTy current stop
  let descending := compareAs .greaterEqual currentTy current stop
  .ok (if positive then ascending else descending)

/-- `$for_fits(current, step)`: `current + step` stays inside the type of `current`. -/
def lowerForFits (currentTy stepTy : Ty) (current : Register currentTy) (step : Register stepTy) : Bool :=
  let sum : BitVec 128 := emitCastInteger currentTy 128 current + emitCastInteger stepTy 128 step
  let below := icmp .slt sum (BitVec.ofInt 128 (word currentTy).minimum)
  let above := icmp .sgt sum (BitVec.ofInt 128 (word currentTy).maximum)
  (below || above) ^^ true

def forLoop (kind : IntegerType) (stopTy stepTy : Ty) (stop : Register stopTy) (step : Register stepTy) :
    CountedLoop (Register (.integer kind)) (Stop DiagId) where
  test current := lowerForCondition (.integer kind) stopTy stepTy current stop step
  fits current := .ok (lowerForFits (.integer kind) stepTy current step)
  advance current := (emitRuntimeBinary .plus (.integer kind) stepTy (.integer kind) current step).getD (.error .undefined)

/-- Native code runs the bodies for these values. -/
def ForRuns (module : Ir.Module) (header : CountedFor) (start : Register header.start) (stop : Register header.stop)
    (step : Register header.step) (visited : List (Register (.integer header.kind))) : Prop :=
  header.validated module = true ∧
    (forLoop header.kind header.stop header.step stop step).Runs (coerceToType header.start (.integer header.kind) start)
      visited

/-! ### What the operands are read as -/

def comparedWord (kind : IntegerType) : Word := ⟨kind.word.signed, 64, Nat.zero_lt_succ 63⟩

/-- The end as the test reads it. -/
def readStop (kind : IntegerType) (stop : Int) : Int := (comparedWord kind).value ((comparedWord kind).bits stop)

section

variable {kind : IntegerType} {stopTy stepTy : Ty} {operator : Operator} {start stop step n m : Int}

theorem compareAs_bits {ty : Ty} {word : Word} (sign : isUnsigned ty = !word.signed) (first : word.InRange n)
    (second : word.InRange m) : compareAs operator ty (word.bits n) (word.bits m) = (compares operator n m).any id := by
  rw [← icmp_bits sign first second, Option.any_map]
  rfl

theorem inRange_compared (inRange : kind.word.InRange n) : (comparedWord kind).InRange n := by
  have bounds : (comparedWord kind).minimum ≤ kind.word.minimum ∧ kind.word.maximum ≤ (comparedWord kind).maximum := by
    cases kind <;> decide
  exact ⟨Int.le_trans bounds.1 inRange.1, Int.le_trans inRange.2 bounds.2⟩

theorem emitCastInteger_stop (holds : HoldsInteger stopTy stop) :
    emitCastInteger stopTy 64 (register stopTy stop) = (comparedWord kind).bits stop := by
  apply emitCastInteger_register
  cases stopTy with
  | integer other => exact fun _ => holds
  | integerLiteral text => exact fun wider => absurd wider (Nat.lt_irrefl _)
  | _ => exact holds.elim

theorem step_zero (step : Int) : icmp .eq (register stepTy step) 0 = decide (read stepTy step = 0) := by
  have zero := @bits_eq_zero (word stepTy) (read stepTy step) (Word.inRange_value _)
  rw [← register_read, icmp, Bool.eq_iff_iff, beq_iff_eq, decide_eq_true_iff]
  exact zero

theorem step_positive (step : Int) : compareAs .greater stepTy (register stepTy step) 0 = decide (0 < read stepTy step) := by
  have zero : (0 : Register stepTy) = (word stepTy).bits 0 := (BitVec.ofInt_ofNat (word stepTy).width 0).symm
  rw [← register_read, zero]
  exact compareAs_bits (isUnsigned_eq stepTy) (Word.inRange_value _) inRange_zero

theorem forLoop_test (holds : HoldsInteger stopTy stop) (nonzero : read stepTy step ≠ 0) (current : kind.word.InRange n) :
    (forLoop kind stopTy stepTy (register stopTy stop) (register stepTy step)).test (register _ n) =
      .ok (decide (Within (read stepTy step) (readStop kind stop) n)) := by
  have extended : emitCastInteger (.integer kind) 64 (register (.integer kind) n) = (comparedWord kind).bits n :=
    emitCastInteger_register fun _ => current
  have stopped : emitCastInteger stopTy 64 (register stopTy stop) = (comparedWord kind).bits (readStop kind stop) :=
    (emitCastInteger_stop holds).trans (Word.bits_value _).symm
  have sign : isUnsigned (.integer kind) = !(comparedWord kind).signed := isUnsigned_eq _
  have inside := inRange_compared current
  have inside' : (comparedWord kind).InRange (readStop kind stop) := Word.inRange_value _
  have ascending := @compareAs_bits .lessEqual _ _ _ _ sign inside inside'
  have descending := @compareAs_bits .greaterEqual _ _ _ _ sign inside inside'
  show lowerForCondition _ _ _ _ _ _ = _
  rw [lowerForCondition, extended, stopped, step_zero, decide_eq_false nonzero, step_positive]
  show Except.ok (if decide (0 < read stepTy step) then
    compareAs .lessEqual (.integer kind) ((comparedWord kind).bits n) ((comparedWord kind).bits (readStop kind stop))
    else compareAs .greaterEqual (.integer kind) ((comparedWord kind).bits n) ((comparedWord kind).bits (readStop kind stop))) = _
  rw [ascending, descending]
  by_cases positive : 0 < read stepTy step
  · rw [decide_eq_true positive, if_pos rfl]
    apply congrArg Except.ok
    exact decide_eq_decide.2 (by rw [Within, if_pos positive])
  · rw [decide_eq_false positive, if_neg Bool.false_ne_true]
    apply congrArg Except.ok
    exact decide_eq_decide.2 (by rw [Within, if_neg positive])

theorem forLoop_test_zero (stop : Register stopTy) (zero : read stepTy step = 0) (current : Register (.integer kind)) :
    (forLoop kind stopTy stepTy stop (register stepTy step)).test current = .error (.trap .invalidForStep) := by
  show lowerForCondition _ _ _ _ _ _ = _
  rw [lowerForCondition, step_zero, decide_eq_true zero]
  rfl

theorem forLoop_fits (stop : Register stopTy) (current : kind.word.InRange n) :
    (forLoop kind stopTy stepTy stop (register stepTy step)).fits (register _ n) =
      .ok (decide (kind.word.InRange (n + read stepTy step))) := by
  have range := Interp.bounds current
  have stepRange : -2 ^ 63 ≤ read stepTy step ∧ read stepTy step < 2 ^ 64 :=
    @Interp.bounds (integerKind stepTy) _ (Word.inRange_value _)
  have wide : Interp.wideWord.InRange (n + read stepTy step) := wide_inRange.2 (by omega)
  have limits : Interp.wideWord.InRange kind.word.minimum ∧ Interp.wideWord.InRange kind.word.maximum := by
    cases kind <;> decide
  have extended : emitCastInteger (.integer kind) 128 (register (.integer kind) n) = BitVec.ofInt 128 n :=
    emitCastInteger_register fun _ => current
  have sum : BitVec.ofInt 128 n + BitVec.ofInt 128 (read stepTy step) = BitVec.ofInt 128 (n + read stepTy step) :=
    (BitVec.ofInt_add _ _).symm
  have below : icmp .slt (BitVec.ofInt 128 (n + read stepTy step)) (BitVec.ofInt 128 kind.word.minimum) =
      decide (n + read stepTy step < kind.word.minimum) := wide_less wide limits.1
  have above : icmp .sgt (BitVec.ofInt 128 (n + read stepTy step)) (BitVec.ofInt 128 kind.word.maximum) =
      decide (kind.word.maximum < n + read stepTy step) := wide_less limits.2 wide
  show Except.ok (lowerForFits _ _ _ _) = _
  rw [lowerForFits, extended, emitCastInteger_read, sum]
  apply congrArg Except.ok
  show ((icmp .slt (BitVec.ofInt 128 (n + read stepTy step)) (BitVec.ofInt 128 kind.word.minimum) ||
    icmp .sgt (BitVec.ofInt 128 (n + read stepTy step)) (BitVec.ofInt 128 kind.word.maximum)) ^^ true) = _
  rw [below, above, Bool.xor_true, ← Bool.decide_or, ← decide_not, decide_eq_decide, Word.InRange]
  omega

/-! ### The step -/

/-- What the addition brings the step to. -/
def addedStep (kind : IntegerType) (stepTy : Ty) (step : Int) : Int :=
  kind.word.value (coerceToType stepTy (.integer kind) (register stepTy step))

theorem addedStep_inRange : kind.word.InRange (addedStep kind stepTy step) := Word.inRange_value _

theorem forLoop_advance (stop : Register stopTy) (current : kind.word.InRange n) :
    (forLoop kind stopTy stepTy stop (register stepTy step)).advance (register _ n) =
      if kind.word.InRange (n + addedStep kind stepTy step) then .ok (register _ (n + addedStep kind stepTy step))
      else .error (.trap .numericOverflow) := by
  have added : coerceToType stepTy (.integer kind) (register stepTy step) =
      register (.integer kind) (addedStep kind stepTy step) := (Word.bits_value _).symm
  have kept : coerceToType (.integer kind) (.integer kind) (register (.integer kind) n) = register (.integer kind) n :=
    coerceToType_register fun wider => absurd wider (Nat.lt_irrefl _)
  have sum := checkedIntrinsic_plus current (@addedStep_inRange kind stepTy step)
  show (emitCheckedIntegerOp .plus (.integer kind) (coerceToType (.integer kind) (.integer kind) (register _ n))
    (coerceToType stepTy (.integer kind) (register stepTy step))).getD (.error .undefined) = _
  rw [kept, added, emitCheckedIntegerOp, sum]
  by_cases inRange : kind.word.InRange (n + addedStep kind stepTy step)
  · rw [if_pos inRange, decide_eq_true inRange]
    rfl
  · rw [if_neg inRange, decide_eq_false inRange]
    rfl

theorem inRange_lt {word : Word} (inRange : word.InRange n) : n < 2 ^ word.width := by
  have half : (2 : Int) ^ (word.width - 1) ≤ 2 ^ word.width := by
    exact_mod_cast Nat.pow_le_pow_right Nat.two_pos (Nat.sub_le word.width 1)
  cases sign : word.signed with
  | true =>
    have bounds := (inRange_signed sign).1 inRange
    omega
  | false => exact ((inRange_unsigned sign).1 inRange).2

theorem coerceInteger_natural {width target : Nat} (wider : width < target) (natural : 0 ≤ n) (less : n < 2 ^ width)
    (positive : 0 < width) : coerceInteger target (BitVec.ofInt width n) true = BitVec.ofInt target n := by
  have inRange : (⟨false, width, positive⟩ : Word).InRange n := (inRange_unsigned rfl).2 ⟨natural, less⟩
  have extended := Word.extend_bits inRange wider
  rw [extend_eq] at extended
  rw [coerceInteger, if_pos wider]
  exact extended

theorem addedStep_eq (inRange : kind.word.InRange (read stepTy step)) : addedStep kind stepTy step = read stepTy step := by
  suffices bits : coerceToType stepTy (.integer kind) (register stepTy step) =
      register (.integer kind) (read stepTy step) by
    rw [addedStep, bits]
    exact Word.value_bits inRange
  have own : (word stepTy).InRange (read stepTy step) := Word.inRange_value _
  by_cases signs : isUnsigned (.integer kind) = true → isUnsigned stepTy = true
  · rw [← register_read]
    exact coerceToType_register fun _ => ⟨own, signs⟩
  · -- A step with a sign for a variable without one: it is a natural number.
    obtain ⟨unsigned, signed⟩ := Classical.not_imp.1 signs
    have natural : 0 ≤ read stepTy step := by
      rw [isUnsigned_eq, Bool.not_eq_true'] at unsigned
      exact ((inRange_unsigned unsigned).1 inRange).1
    by_cases wider : (word stepTy).width < (word (.integer kind)).width
    · rw [← register_read, coerceToType, unsigned, Bool.true_or]
      exact coerceInteger_natural wider natural (inRange_lt own) (word stepTy).positive
    · rw [← register_read]
      exact coerceToType_register fun more => absurd more wider

theorem addedStep_outside (sum : kind.word.InRange (n + read stepTy step))
    (outside : ¬kind.word.InRange (read stepTy step)) (added : kind.word.InRange (n + addedStep kind stepTy step)) :
    (word stepTy).width < kind.word.width ∧ read stepTy step < 0 ∧ 0 ≤ addedStep kind stepTy step := by
  by_cases wider : (word stepTy).width < kind.word.width
  · have own : (word stepTy).InRange (read stepTy step) := Word.inRange_value _
    have inside := @addedStep_inRange kind stepTy step
    have bounds : (word stepTy).maximum ≤ kind.word.maximum ∧
        (kind.word.minimum ≤ (word stepTy).minimum ∨ kind.word.minimum = 0) := by
      clear own outside added sum inside
      revert wider
      rw [word]
      cases integerKind stepTy <;> cases kind <;> decide
    rw [Word.InRange] at own outside inside
    omega
  · -- The sums differ by a multiple of the modulus.
    have bits : register (.integer kind) (addedStep kind stepTy step) = register (.integer kind) (read stepTy step) := by
      rw [addedStep, ← register_read stepTy]
      refine (Word.bits_value _).trans (coerceToType_register fun more => absurd more wider)
    have sums : kind.word.bits (n + addedStep kind stepTy step) = kind.word.bits (n + read stepTy step) := by
      rw [← bits_add, ← bits_add]
      exact congrArg (kind.word.bits n + ·) bits
    have equal := Word.bits_injective added sum sums
    have same : addedStep kind stepTy step = read stepTy step := by omega
    exact absurd (same ▸ addedStep_inRange) outside

end

/-! ### Which values are visited -/

section

variable {header : CountedFor} {start stop step : Int}

/-- The test lets the start pass, and another value of the variable's type follows it. -/
def TakesStep (header : CountedFor) (start stop step : Int) : Prop :=
  Within (read header.step step) (readStop header.kind stop) start ∧
    header.kind.word.InRange (start + read header.step step)

/-- The operands that native code reads so that the same values follow. -/
def ReadsRight (header : CountedFor) (start stop step : Int) : Prop :=
  read header.step step ≠ 0 ∧
    header.count start (read header.step step) (readStop header.kind stop) = header.count start step stop ∧
    (2 ≤ header.count start step stop → read header.step step = step) ∧
    (TakesStep header start stop step → header.kind.word.InRange (read header.step step))

theorem forLoop_visits (holds : HoldsInteger header.stop stop) (first : header.kind.word.InRange start)
    (nonzero : read header.step step ≠ 0)
    (fits : TakesStep header start stop step → header.kind.word.InRange (read header.step step)) :
    (forLoop header.kind header.stop header.step (register _ stop) (register _ step)).Visits (register _ start)
      ((header.values start (read header.step step) (readStop header.kind stop)).map (register (.integer header.kind))) := by
  apply CountedLoop.visits_progression (register (.integer header.kind)) header.kind.word.InRange
  · exact fun n current => forLoop_test holds nonzero current
  · exact fun n current => forLoop_fits _ current
  · exact first
  · intro within further n current sum
    rw [forLoop_advance _ current, addedStep_eq (fits ⟨within, further⟩), if_pos sum]
  · exact CountedFor.lt_count nonzero first

theorem registers_injective {kind : IntegerType} {values others : List Int} (first : ∀ n ∈ values, kind.word.InRange n)
    (second : ∀ n ∈ others, kind.word.InRange n)
    (same : values.map (register (.integer kind)) = others.map (register (.integer kind))) : values = others := by
  have reads (list : List Int) (inRange : ∀ n ∈ list, kind.word.InRange n) :
      (list.map (register (.integer kind))).map (word (.integer kind)).value = list := by
    rw [List.map_map]
    exact (List.map_congr_left fun n member => @read_eq (.integer kind) n (inRange n member)).trans (List.map_id' list)
  rw [← reads values first, same, reads others second]

theorem values_eq_iff {other : Int} {stop' : Int} :
    header.values start other stop' = header.values start step stop ↔
      header.count start other stop' = header.count start step stop ∧
        (2 ≤ header.count start step stop → other = step) := by
  rw [CountedFor.values, CountedFor.values]
  constructor
  · intro same
    have lengths := congrArg List.length same
    rw [length_progression, length_progression] at lengths
    refine ⟨lengths, fun further => ?_⟩
    exact progression_injective (lengths ▸ further) same
  · rintro ⟨same, further⟩
    rw [same]
    by_cases more : 2 ≤ header.count start step stop
    · rw [further more]
    · exact progression_of_lt (Nat.lt_of_not_le more) start other step

theorem readsRight_iff :
    ReadsRight header start stop step ↔ read header.step step ≠ 0 ∧
      (TakesStep header start stop step → header.kind.word.InRange (read header.step step)) ∧
      header.values start (read header.step step) (readStop header.kind stop) = header.values start step stop := by
  rw [ReadsRight, values_eq_iff]
  tauto

theorem read_narrow {kind : IntegerType} (holdsStep : HoldsInteger header.step step)
    (narrow : (word header.step).width < kind.word.width) : read header.step step = step := by
  cases type : header.step with
  | integer other =>
    rw [type] at holdsStep
    exact @read_eq (.integer other) step holdsStep
  | integerLiteral text =>
    rw [type] at narrow
    exact absurd narrow (Nat.not_lt.2 (width_le (.integer kind)))
  | _ =>
    rw [type] at holdsStep
    exact holdsStep.elim

theorem second_value {rest : List (Register (.integer header.kind))} {next : Int} (nonzero : step ≠ 0)
    (first : header.kind.word.InRange start) (inRange : header.kind.word.InRange next)
    (second : (header.values start step stop).map (register (.integer header.kind)) =
      register _ start :: register _ next :: rest) : next = start + step := by
  have lengths := congrArg List.length second
  have further : 2 ≤ header.count start step stop := by
    rw [List.length_map, CountedFor.values, length_progression] at lengths
    rw [lengths]
    exact Nat.le_add_left 2 rest.length
  obtain ⟨more, count⟩ := Nat.exists_eq_add_of_le' further
  have values : header.values start step stop = start :: (start + step) :: progression (start + step + step) step more := by
    rw [CountedFor.values, count]
    rfl
  have member : start + step ∈ header.values start step stop := by
    rw [values]
    exact List.mem_cons_of_mem _ List.mem_cons_self
  rw [values] at second
  have same := (List.cons.inj (List.cons.inj second).2).1
  exact (Word.bits_injective (CountedFor.values_inRange nonzero first member) inRange same).symm

theorem not_visits_outside (holds : HoldsInteger header.stop stop) (holdsStep : HoldsInteger header.step step)
    (nonzero : step ≠ 0) (nonzero' : read header.step step ≠ 0) (first : header.kind.word.InRange start)
    (takes : TakesStep header start stop step) (outside : ¬header.kind.word.InRange (read header.step step)) :
    ¬(forLoop header.kind header.stop header.step (register _ stop) (register _ step)).Visits (register _ start)
      ((header.values start step stop).map (register (.integer header.kind))) := by
  intro visits
  obtain ⟨within, further⟩ := takes
  have continues := forLoop_test holds nonzero' first
  have fits := @forLoop_fits header.kind header.stop header.step step start (register _ stop) first
  rw [decide_eq_true within] at continues
  rw [decide_eq_true further] at fits
  have advances := @forLoop_advance header.kind header.stop header.step step start (register _ stop) first
  rcases CountedLoop.visits_iff.1 visits with ⟨ends, -⟩ | ⟨-, ⟨stops, -⟩ | ⟨-, next, rest, advances', rests, values⟩⟩
  · cases ends.symm.trans continues
  · cases stops.symm.trans fits
  · by_cases added : header.kind.word.InRange (start + addedStep header.kind header.step step)
    · rw [if_pos added] at advances
      cases advances.symm.trans advances'
      obtain ⟨narrow, negative, natural⟩ := addedStep_outside further outside added
      -- The sum is on the side of the start that a descending loop has passed.
      have within' : Within (read header.step step) (readStop header.kind stop)
          (start + addedStep header.kind header.step step) := by
        rw [Within, if_neg (by omega)] at within ⊢
        omega
      have continues' := forLoop_test holds nonzero' added
      rw [decide_eq_true within'] at continues'
      rcases CountedLoop.visits_iff.1 rests with ⟨ends, -⟩ | ⟨-, ⟨-, rfl⟩ | ⟨-, _, _, -, -, rfl⟩⟩
      · cases ends.symm.trans continues'
      · have second := second_value nonzero first added values
        rw [read_narrow holdsStep narrow] at negative
        omega
      · have second := second_value nonzero first added values
        rw [read_narrow holdsStep narrow] at negative
        omega
    · rw [if_neg added] at advances
      cases advances.symm.trans advances'

theorem visits_iff (holds : HoldsInteger header.stop stop) (holdsStep : HoldsInteger header.step step)
    (nonzero : step ≠ 0) (first : header.kind.word.InRange start) :
    (forLoop header.kind header.stop header.step (register _ stop) (register _ step)).Visits (register _ start)
      ((header.values start step stop).map (register (.integer header.kind))) ↔
      ReadsRight header start stop step := by
  rw [readsRight_iff]
  constructor
  · intro visits
    have nonzero' : read header.step step ≠ 0 := by
      intro zero
      have stops := @forLoop_test_zero header.kind _ _ _ (register header.stop stop) zero (register _ start)
      rcases CountedLoop.visits_iff.1 visits with ⟨ends, -⟩ | ⟨continues, -⟩
      · cases ends.symm.trans stops
      · cases continues.symm.trans stops
    have fits : TakesStep header start stop step → header.kind.word.InRange (read header.step step) := by
      intro takes
      by_contra outside
      exact not_visits_outside holds holdsStep nonzero nonzero' first takes outside visits
    refine ⟨nonzero', fits, ?_⟩
    have same := (forLoop_visits holds first nonzero' fits).unique visits
    exact registers_injective (fun n => CountedFor.values_inRange nonzero' first)
      (fun n => CountedFor.values_inRange nonzero first) same
  · rintro ⟨nonzero', fits, same⟩
    rw [← same]
    exact forLoop_visits holds first nonzero' fits

theorem coerceToType_start {module : Ir.Module} (accepted : header.accepted = true)
    (validated : header.validated module = true) :
    coerceToType header.start (.integer header.kind) (register header.start start) = register _ start := by
  apply coerceToType_register
  intro wider
  rw [CountedFor.accepted, Bool.and_eq_true, Bool.and_eq_true] at accepted
  have integer := (Bool.and_eq_true_iff.1 accepted.1.1).1
  rcases (CountedFor.validated_iff integer).1 validated with same | ⟨text, same⟩
  · rw [same] at wider
    exact absurd wider (Nat.lt_irrefl _)
  · rw [same] at wider
    exact absurd wider (Nat.not_lt.2 (width_le _))

theorem forRuns_iff {module : Ir.Module} (accepted : header.accepted = true)
    (holdsStart : HoldsInteger header.start start) (holds : HoldsInteger header.stop stop)
    (holdsStep : HoldsInteger header.step step) (nonzero : step ≠ 0) :
    ForRuns module header (register _ start) (register _ stop) (register _ step)
        ((header.values start step stop).map (register (.integer header.kind))) ↔
      header.validated module = true ∧ ReadsRight header start stop step := by
  rw [ForRuns]
  apply and_congr_right
  intro validated
  rw [coerceToType_start accepted validated, CountedLoop.runs_iff_visits]
  exact visits_iff holds holdsStep nonzero (CountedFor.start_inRange accepted validated holdsStart)

/-- Both back ends run the bodies for these values of the variable. -/
def BothRun (module : Ir.Module) (header : CountedFor) (start stop step : Int) (values : List Int) : Prop :=
  (∀ startKind stopKind stepKind,
    Interp.ForRuns module header (.integer start startKind) (.integer stop stopKind) (.integer step stepKind)
      (values.map (Interp.Value.integer · header.kind))) ∧
    ForRuns module header (register _ start) (register _ stop) (register _ step)
      (values.map (register (.integer header.kind)))

theorem bothRun_values_iff {module : Ir.Module} (accepted : header.accepted = true)
    (holdsStart : HoldsInteger header.start start) (holds : HoldsInteger header.stop stop)
    (holdsStep : HoldsInteger header.step step) (nonzero : step ≠ 0) :
    BothRun module header start stop step (header.values start step stop) ↔
      header.validated module = true ∧ ReadsRight header start stop step := by
  rw [BothRun, forRuns_iff accepted holdsStart holds holdsStep nonzero, and_iff_right_iff_imp]
  exact fun reads _ _ _ => Interp.forRuns accepted reads.1 holdsStart nonzero

theorem bothRun_unique {module : Ir.Module} {values : List Int} (accepted : header.accepted = true)
    (holdsStart : HoldsInteger header.start start) (nonzero : step ≠ 0)
    (runs : BothRun module header start stop step values) : values = header.values start step stop := by
  obtain ⟨validated, initial, stored, visits⟩ := runs.1 .int32 .int32 .int32
  have first := CountedFor.start_inRange accepted validated holdsStart
  cases stored.symm.trans (Interp.storeInteger_inRange .int32 first)
  have same := (CountedLoop.runs_iff_visits.1 visits).unique (Interp.forLoop_visits header nonzero first)
  exact List.map_injective_iff.2 (fun n m equal => (Interp.Value.integer.inj equal).1) same

end

/-! ### The counted FOR -/

/-- The values of the variable are those from the start by the step that are within the end and within the
variable's type. Both back ends run the bodies exactly for them where the validator accepts the start and
native code reads the operands so that the same values follow. They are all the integers within the end
where the variable's type does not end before. -/
theorem counted_for_iff (module : Ir.Module) (header : CountedFor) (start stop step : Int)
    (accepted : header.accepted = true) (holdsStart : HoldsInteger header.start start)
    (holdsStop : HoldsInteger header.stop stop) (holdsStep : HoldsInteger header.step step) (nonzero : step ≠ 0) :
    (header.kind.word.InRange start → ∀ i : Nat, i < header.count start step stop ↔
      Within step stop (start + i * step) ∧ header.kind.word.InRange (start + i * step)) ∧
    (∀ i : Nat, i < progressionCount start step stop ↔ Within step stop (start + i * step)) ∧
    (BothRun module header start stop step (header.values start step stop) ↔
      header.validated module = true ∧ ReadsRight header start stop step) ∧
    (BothRun module header start stop step (progressionTo start step stop) ↔
      header.validated module = true ∧ ReadsRight header start stop step ∧
        header.count start step stop = progressionCount start step stop) := by
  refine ⟨fun first => CountedFor.lt_count nonzero first, fun i => lt_progressionCount nonzero,
    bothRun_values_iff accepted holdsStart holdsStop holdsStep nonzero, ?_⟩
  have designed := @bothRun_values_iff header start stop step module accepted holdsStart holdsStop holdsStep nonzero
  have same : progressionTo start step stop = header.values start step stop ↔
      header.count start step stop = progressionCount start step stop := by
    constructor
    · intro equal
      have lengths := congrArg List.length equal
      rw [progressionTo, CountedFor.values, length_progression, length_progression] at lengths
      exact lengths.symm
    · intro equal
      rw [progressionTo, CountedFor.values, equal]
  constructor
  · intro runs
    have equal := bothRun_unique accepted holdsStart nonzero runs
    rw [equal, designed] at runs
    exact ⟨runs.1, runs.2, same.1 equal⟩
  · rintro ⟨validated, reads, equal⟩
    rw [same.2 equal, designed]
    exact ⟨validated, reads⟩

def upward : CountedFor := ⟨.int8, .integer .int8, .integer .int32, .integer .int16⟩

theorem counted_for_iff_upward : (upward.kind.word.InRange 125 → ∀ i : Nat, i < upward.count 125 1 127 ↔
      Within 1 127 (125 + i * 1) ∧ upward.kind.word.InRange (125 + i * 1)) ∧
    (∀ i : Nat, i < progressionCount 125 1 127 ↔ Within 1 127 (125 + i * 1)) ∧
    (BothRun {} upward 125 127 1 (upward.values 125 1 127) ↔ upward.validated {} = true ∧ ReadsRight upward 125 127 1) ∧
    (BothRun {} upward 125 127 1 (progressionTo 125 1 127) ↔
      upward.validated {} = true ∧ ReadsRight upward 125 127 1 ∧ upward.count 125 1 127 = progressionCount 125 1 127) :=
  counted_for_iff {} upward 125 127 1 rfl (show IntegerType.int8.word.InRange 125 by decide)
    (show IntegerType.int32.word.InRange 127 by decide) (show IntegerType.int16.word.InRange 1 by decide) (by decide)

/-- `FOR i AS BYTE = 5 TO 0 STEP -1` -/
def downward : CountedFor := ⟨.byte, .integerLiteral "5", .integerLiteral "0", .integerLiteral "-1"⟩

theorem downward_diverges :
    ¬∀ (module : Ir.Module) (header : CountedFor) (start stop step : Int), header.accepted = true →
      HoldsInteger header.start start → HoldsInteger header.stop stop → HoldsInteger header.step step → step ≠ 0 →
      BothRun module header start stop step (progressionTo start step stop) := by
  intro agree
  have accepted : downward.accepted = true := by decide
  have holdsStart : HoldsInteger downward.start 5 := show Semantic.parseInteger "5" = some 5 by decide
  have holdsStop : HoldsInteger downward.stop 0 := show Semantic.parseInteger "0" = some 0 by decide
  have holdsStep : HoldsInteger downward.step (-1) := show Semantic.parseInteger "-1" = some (-1) by decide
  have runs := agree {} downward 5 0 (-1) accepted holdsStart holdsStop holdsStep (by decide)
  have values : progressionTo 5 (-1) 0 = downward.values 5 (-1) 0 := by decide
  rw [values, bothRun_values_iff accepted holdsStart holdsStop holdsStep (by decide)] at runs
  have step : read downward.step (-1) = -1 := @read_eq (.integerLiteral "-1") (-1) (by decide)
  have fits := runs.2.2.2.2
  rw [TakesStep, step] at fits
  exact absurd (fits ⟨by decide, by decide⟩) (by decide)

end BasicNext.Native
