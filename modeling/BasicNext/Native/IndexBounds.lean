import BasicNext.Lib.ParallelMoves
import BasicNext.Native.DynamicLengths
import BasicNext.Native.Strings

/-!
# Bounds checks of indices

Native code takes 32 bits of an index of any integer type for the address of an element, and tests the index whole before it
does (`bn_llvm::llvm::index_bounds`). The lengths of vectors and of regions are words of 32 bits without a sign, but the test
reads those bits of the index with one.
-/

namespace BasicNext.Native.IndexBounds

open Lib Lib.Llvm
open Interp (Failure ObjectHandle Store Value indexOutOfBounds runtimeError)

/-! ### The check -/

/-- An index that is lowered for a check: the bits that the address uses, the index itself, and whether they are the same
number. -/
structure LoweredIndex where
  position : BitVec 32
  wide : Bool
  exact : BitVec 128
  fits : Bool
deriving DecidableEq, Repr

def lowerIndex (kind : IntegerType) (own : Register (.integer kind)) : LoweredIndex :=
  let unsigned := isUnsigned (.integer kind)
  let bits := (word (.integer kind)).width
  let exact : BitVec 128 := if unsigned then zext 128 own else sext 128 own
  -- A register of 32 bits is taken as it is.
  let position : BitVec 32 := coerceInteger 32 own unsigned
  let back : BitVec 128 := sext 128 position
  ⟨position, decide (32 < bits) || (decide (bits = 32) && unsigned), exact, icmp .eq exact back⟩

def emitIndexCheck (index : LoweredIndex) (length : BitVec 32) (context : String) : Llvm.Run Failure Unit :=
  -- Without a sign: a negative position compares above every length.
  let outside := icmp .uge index.position length
  let misfit := index.fits ^^ true
  let bound : BitVec 128 := sext 128 length
  trapIf (outside || misfit) (indexOutOfBounds index.exact.toInt bound.toInt context)

def emitNullRegionCheck (pointer : Address) : Llvm.Run Failure Unit :=
  trapIf (icmp .eq pointer 0) (runtimeError .nullPointerAccess "cannot index a NULL pointer")

/-! ### Elements -/

/-- A vector or a region in a register, `{ ptr, i32 }`. -/
structure Row where
  pointer : Address
  length : BitVec 32
deriving DecidableEq, Repr

/-- What lies at the address of an element: a row of a nested vector, or the value for which the element stands. -/
inductive Cell where
  | row (row : Row)
  | element (value : Value)

abbrev Cells := Address → Option Cell

def load (memory : Cells) (address : Address) : Llvm.Run Failure Cell :=
  match memory address with
  | some cell => .ok cell
  | none => .error .undefined

def gep (size : Nat) (base : Address) (position : BitVec 32) : Address := base + sext 64 position * BitVec.ofNat 64 size

def rowBytes : Nat := 16

/-- The size of what a vector has as elements: rows, when dimensions remain. -/
def elementBytes (leaf : Nat) (remaining : List Nat) : Nat := if remaining = [] then leaf else rowBytes

def emitBoundsCheck (row : Row) (index : LoweredIndex) (context : String) : Llvm.Run Failure Unit := do
  if context = "region" then emitNullRegionCheck row.pointer
  emitIndexCheck index row.length context

/-- The address of an element that passes the check. -/
def emitSlot (size : Nat) (row : Row) (index : LoweredIndex) (context : String) : Llvm.Run Failure Address := do
  emitBoundsCheck row index context
  return gep size row.pointer index.position

def emitVectorIndex (memory : Cells) (size : Nat) (row : Row) (index : LoweredIndex) (context : String) :
    Llvm.Run Failure Cell := do
  load memory (← emitSlot size row index context)

/-- An index for each dimension of a vector, until none is left. -/
def emitIndexChain (memory : Cells) (leaf : Nat) : List Nat → Cell → List LoweredIndex → Llvm.Run Failure Cell
  | _, cell, [] => .ok cell
  | _ :: inner, .row row, index :: indices => do
    let cell ← emitVectorIndex memory (elementBytes leaf inner) row index "vector"
    emitIndexChain memory leaf inner cell indices
  | _, _, _ :: _ => .error .undefined

/-- The address that the last of several indices reaches, through the rows that the others load. -/
def emitChainSlot (memory : Cells) (leaf : Nat) : List Nat → Row → List LoweredIndex → Llvm.Run Failure Address
  | _ :: inner, row, index :: indices => do
    let slot ← emitSlot (elementBytes leaf inner) row index "vector"
    if indices = [] then return slot
    match ← load memory slot with
    | .row next => emitChainSlot memory leaf inner next indices
    | .element _ => .error .undefined
  | _, _, _ => .error .undefined

/-- The elements of a vector of one dimension, as they are before any of them is replaced. -/
def copyElements (memory : Cells) (leaf count : Nat) (target source : Address) : Cells :=
  (List.range count).foldl (fun changed i =>
    Function.update changed (target + BitVec.ofNat 64 (i * leaf)) (memory (source + BitVec.ofNat 64 (i * leaf)))) memory

/-- `emit_element_store`: of a row its elements are replaced, since each vector has rows of its own. -/
def emitElementStore (memory : Cells) (leaf : Nat) (remaining : List Nat) (slot : Address) :
    Cell → Llvm.Run Failure Cells
  | .element value => .ok (Function.update memory slot (some (.element value)))
  | .row source => do
    match ← load memory slot with
    | .row target => return copyElements memory leaf (remaining.headD 0) target.pointer source.pointer
    | .element _ => .error .undefined

def emitVectorSetIndices (memory : Cells) (leaf : Nat) (dimensions : List Nat) (row : Row) (indices : List LoweredIndex)
    (stored : Cell) : Llvm.Run Failure Cells := do
  let slot ← emitChainSlot memory leaf dimensions row indices
  emitElementStore memory leaf (dimensions.drop indices.length) slot stored

/-- A store through one index, into a vector or a region. -/
def emitPointerSetIndex (memory : Cells) (leaf : Nat) (remaining : List Nat) (row : Row) (index : LoweredIndex) (stored : Cell)
    (context : String) : Llvm.Run Failure Cells := do
  let slot ← emitSlot (elementBytes leaf remaining) row index context
  emitElementStore memory leaf remaining slot stored

/-- `Instruction::Index` of a `STRING`. -/
def emitStringIndex (memory : Strings.Memory) (object : Address) (index : LoweredIndex) : Llvm.Run Failure StringObject := do
  -- The runtime takes 32 bits with a sign: an index that may be wider is tested whole first.
  if index.wide then emitIndexCheck index (Strings.strLen memory object) "string"
  match Strings.strIndexUtf8 memory object index.position with
  | .ok packed => return Strings.strFromPacked packed
  | .error facts => .error (.trap (indexOutOfBounds facts.1 facts.2 "string"))

/-! ### What an index is lowered to -/

variable {kind : IntegerType} {n : Int}

def lowered (kind : IntegerType) (n : Int) : LoweredIndex := lowerIndex kind (register (.integer kind) n)

theorem width_le_64 (kind : IntegerType) : kind.word.width ≤ 64 := width_le (.integer kind)

theorem lowered_position (inRange : kind.word.InRange n) : (lowered kind n).position = BitVec.ofInt 32 n := by
  have coerced : coerceToType (.integer kind) (.integer .int32) (register _ n) = register (.integer .int32) n :=
    coerceToType_register fun _ => ⟨inRange, fun unsigned => by cases unsigned⟩
  exact coerced

theorem lowered_exact (inRange : kind.word.InRange n) : (lowered kind n).exact = BitVec.ofInt 128 n := by
  have wider : kind.word.width < 128 := (width_le_64 kind).trans_lt (by decide)
  have extended : kind.word.extend 128 (kind.word.bits n) = BitVec.ofInt 128 n := Word.extend_bits inRange wider
  rw [extend_eq] at extended
  rw [lowered, lowerIndex]
  dsimp only
  rw [isUnsigned_eq]
  exact extended

theorem abs_lt (inRange : kind.word.InRange n) : -2 ^ 63 ≤ n ∧ n < 2 ^ 64 := by
  revert inRange
  cases kind <;>
    simp only [Word.InRange, Word.minimum, Word.maximum, IntegerType.word, reduceIte, Bool.false_eq_true] <;>
    intro inRange <;> omega

theorem lowered_exact_toInt (inRange : kind.word.InRange n) : (lowered kind n).exact.toInt = n := by
  have bounds := abs_lt inRange
  rw [lowered_exact inRange]
  apply BitVec.toInt_ofInt_eq_self <;> omega

theorem lowered_fits_iff (inRange : kind.word.InRange n) : (lowered kind n).fits = true ↔ -2 ^ 31 ≤ n ∧ n < 2 ^ 31 := by
  have bounds := abs_lt inRange
  have fits : (lowered kind n).fits = decide ((lowered kind n).exact = sext 128 (lowered kind n).position) := rfl
  rw [fits, decide_eq_true_iff, ← BitVec.toInt_inj, lowered_exact_toInt inRange, lowered_position inRange, sext,
    BitVec.toInt_signExtend_of_le (by decide), BitVec.toInt_ofInt, Int.bmod_def]
  omega

theorem toNat_position (inRange : kind.word.InRange n) : ((lowered kind n).position.toNat : Int) = n % 2 ^ 32 := by
  rw [lowered_position inRange]
  exact DynamicLength.toNat_ofInt n

/-! ### What the check lets through -/

/-- An index that the check takes for another: one of the upper half of the words without a sign, or a negative one that the
bits without a sign make an element. Both need a length above 2³¹. -/
def Misread (n : Int) (length : Nat) : Prop := (2 ^ 31 ≤ n ∧ n < length) ∨ (-2 ^ 31 ≤ n ∧ n < 0 ∧ n + 2 ^ 32 < length)

instance (n : Int) (length : Nat) : Decidable (Misread n length) := inferInstanceAs (Decidable (_ ∨ _))

theorem not_misread_of_le {length : Nat} (short : length ≤ 2 ^ 31) : ¬Misread n length := by
  rintro (upper | negative) <;> omega

theorem trapIf_eq_ok_iff {condition : Bool} {failure : Failure} : trapIf condition failure = .ok () ↔ condition = false := by
  cases condition <;> simp [trapIf]

theorem emitIndexCheck_ok_iff (inRange : kind.word.InRange n) (length : BitVec 32) (context : String) :
    emitIndexCheck (lowered kind n) length context = .ok () ↔
      -2 ^ 31 ≤ n ∧ n < 2 ^ 31 ∧ n % 2 ^ 32 < (length.toNat : Int) := by
  have position := toNat_position inRange
  have fits := lowered_fits_iff inRange
  have inside : icmp .uge (lowered kind n).position length = false ↔ (lowered kind n).position.toNat < length.toNat := by
    rw [icmp, BitVec.ule, decide_eq_false_iff_not, Nat.not_le]
  rw [emitIndexCheck, trapIf_eq_ok_iff, Bool.or_eq_false_iff, inside, Bool.xor_true, Bool.not_eq_false', fits]
  omega

theorem check_exact_iff (inRange : kind.word.InRange n) (length : BitVec 32) (context : String) :
    (emitIndexCheck (lowered kind n) length context = .ok () ↔ 0 ≤ n ∧ n < length.toNat) ↔ ¬Misread n length.toNat := by
  have below := length.isLt
  rw [emitIndexCheck_ok_iff inRange, Misread]
  omega

/-- What the check lets through for an index and a length, and the addresses that are then used. -/
def CheckExact (index : IntegerType × Int) (length : BitVec 32) : Prop :=
  ∀ context size base,
    (emitIndexCheck (lowered index.1 index.2) length context = .ok () ↔ 0 ≤ index.2 ∧ index.2 < length.toNat) ∧
      (0 ≤ index.2 ∧ index.2 < length.toNat →
        gep size base (lowered index.1 index.2).position = base + BitVec.ofNat 64 (index.2.toNat * size))

variable {context : String}

theorem emitIndexCheck_of_ne {length : BitVec 32}
    (stops : ¬emitIndexCheck (lowered kind n) length context = .ok ()) : ∃ failure,
      emitIndexCheck (lowered kind n) length context = .error (.trap failure) ∧ failure.id = .indexOutOfBounds := by
  rw [emitIndexCheck, trapIf_eq_ok_iff, Bool.not_eq_false] at stops
  rw [emitIndexCheck, trapIf, if_pos stops]
  exact ⟨_, rfl, rfl⟩

theorem gep_eq (inRange : kind.word.InRange n) (natural : 0 ≤ n) (small : n < 2 ^ 31) (size : Nat) (base : Address) :
    gep size base (lowered kind n).position = base + BitVec.ofNat 64 (n.toNat * size) := by
  have position : (lowered kind n).position = BitVec.ofNat 32 n.toNat := by
    rw [lowered_position inRange, ← Int.toNat_of_nonneg natural]
    rfl
  have extended : sext 64 (lowered kind n).position = BitVec.ofNat 64 n.toNat := by
    rw [position, sext, BitVec.signExtend_eq_setWidth_of_msb_false]
    · apply BitVec.eq_of_toNat_eq
      rw [BitVec.toNat_setWidth, BitVec.toNat_ofNat, BitVec.toNat_ofNat]
      omega
    · rw [BitVec.msb_eq_false_iff_two_mul_lt, BitVec.toNat_ofNat]
      omega
  rw [gep, extended, BitVec.ofNat_mul]

theorem checkExact_iff (inRange : kind.word.InRange n) (length : BitVec 32) :
    CheckExact (kind, n) length ↔ ¬Misread n length.toNat := by
  constructor
  · intro exact
    exact (check_exact_iff inRange length "vector").1 (exact "vector" 1 0).1
  · intro plain context size base
    have exact := (check_exact_iff inRange length context).2 plain
    refine ⟨exact, fun inside => gep_eq inRange inside.1 ?_ size base⟩
    exact ((emitIndexCheck_ok_iff inRange length context).1 (exact.2 inside)).2.1

/-! ### Both sides -/

/-- Both sides finish with related results, or stop with one kind of diagnostic. -/
inductive Same {α β : Type} (related : α → β → Prop) : Llvm.Run Failure α → Except Failure β → Prop
  | done {native : α} {result : β} : related native result → Same related (.ok native) (.ok result)
  | stopped {native failure : Failure} : native.id = failure.id → Same related (.error (.trap native)) (.error failure)

theorem Same.bind {α β γ δ : Type} {related : α → β → Prop} {after : γ → δ → Prop} {native : Llvm.Run Failure α}
    {result : Except Failure β} {f : α → Llvm.Run Failure γ} {g : β → Except Failure δ} (same : Same related native result)
    (next : ∀ a b, related a b → Same after (f a) (g b)) : Same after (native >>= f) (result >>= g) := by
  cases same with
  | done both => exact next _ _ both
  | stopped id => exact .stopped id

theorem Same.mono {α β : Type} {related weaker : α → β → Prop} {native : Llvm.Run Failure α} {result : Except Failure β}
    (same : Same related native result) (weaken : ∀ a b, related a b → weaker a b) : Same weaker native result := by
  cases same with
  | done both => exact .done (weaken _ _ both)
  | stopped id => exact .stopped id

variable {count : Nat}

theorem emitIndexCheck_same {length : BitVec 32} (inRange : kind.word.InRange n) (counts : length.toNat = count)
    (plain : ¬Misread n count) (context : String) :
    Same (fun _ i => (0 ≤ n ∧ n < count) ∧ i = n.toNat ∧ n < 2 ^ 31) (emitIndexCheck (lowered kind n) length context)
      (Interp.checkedIndex n count context) := by
  subst counts
  have exact := (check_exact_iff inRange length context).2 plain
  by_cases inside : 0 ≤ n ∧ n < length.toNat
  · have passes := exact.2 inside
    have small := ((emitIndexCheck_ok_iff inRange length context).1 passes).2.1
    rw [passes, Interp.checkedIndex_of_inside inside]
    exact .done ⟨inside, rfl, small⟩
  · obtain ⟨failure, stops, id⟩ := emitIndexCheck_of_ne fun passes => inside (exact.1 passes)
    rw [stops, Interp.checkedIndex_of_outside inside]
    exact .stopped id

theorem emitBoundsCheck_eq {row : Row} (live : context = "region" → row.pointer ≠ 0)
    (index : LoweredIndex) : emitBoundsCheck row index context = emitIndexCheck index row.length context := by
  rw [emitBoundsCheck]
  split
  · next region =>
    have notNull : icmp .eq row.pointer 0 = false := by
      rw [icmp, beq_eq_false_iff_ne]
      exact live region
    rw [emitNullRegionCheck, notNull]
    rfl
  · rfl

theorem emitSlot_same {row : Row} (inRange : kind.word.InRange n) (counts : row.length.toNat = count)
    (plain : ¬Misread n count) (size : Nat) (live : context = "region" → row.pointer ≠ 0) :
    Same (fun slot i => (0 ≤ n ∧ n < count) ∧ i = n.toNat ∧ slot = row.pointer + BitVec.ofNat 64 (i * size))
      (emitSlot size row (lowered kind n) context) (Interp.checkedIndex n count context) := by
  rw [emitSlot, emitBoundsCheck_eq live, ← bind_pure (Interp.checkedIndex n count context)]
  apply (emitIndexCheck_same inRange counts plain context).bind
  rintro _ i ⟨inside, rfl, small⟩
  exact .done ⟨inside, rfl, gep_eq inRange inside.1 small size row.pointer⟩

theorem vector_not_region (row : Row) : "vector" = "region" → row.pointer ≠ 0 := fun region => absurd region (by decide)

/-! ### Nested vectors in memory -/

abbrev Index := IntegerType × Int

def Index.lowered (index : Index) : LoweredIndex := IndexBounds.lowered index.1 index.2

def numbers (path : List Index) : List Int := path.map (·.2)

def positions (path : List Index) : List Nat := path.map (·.2.toNat)

theorem numbers_cons (index : Index) (path : List Index) : numbers (index :: path) = index.2 :: numbers path := rfl

theorem positions_cons (index : Index) (path : List Index) : positions (index :: path) = index.2.toNat :: positions path := rfl

/-- A cell holds a vector with these dimensions, or one element: `place` says where each element of it lies. -/
def Represents (memory : Cells) (leaf : Nat) : List Nat → (List Nat → Address) → Cell → Value → Prop
  | [], _, .element held, value => held = value
  | length :: inner, place, .row row, .vector elements =>
    row.length.toNat = length ∧ elements.length = length ∧
      ∀ i < length, place [i] = row.pointer + BitVec.ofNat 64 (i * elementBytes leaf inner) ∧
        ∃ cell, memory (place [i]) = some cell ∧
          Represents memory leaf inner (fun path => place (i :: path)) cell (elements.getD i .null)
  | _, _, _, _ => False

/-- The paths to an element, or to a row. -/
def InsidePath : List Nat → List Nat → Prop
  | _, [] => True
  | length :: inner, i :: path => i < length ∧ InsidePath inner path
  | [], _ :: _ => False

theorem insidePath_nil (dimensions : List Nat) : InsidePath dimensions [] := by
  rw [InsidePath]
  trivial

/-- No two elements lie at one address. -/
def Apart (dimensions : List Nat) (place : List Nat → Address) : Prop :=
  ∀ first second, first ≠ [] → second ≠ [] → InsidePath dimensions first → InsidePath dimensions second →
    place first = place second → first = second

/-- No index is misread, up to the first that is outside. -/
def Plain : List Nat → List Int → Prop
  | length :: inner, n :: rest => ¬Misread n length ∧ (0 ≤ n ∧ n < length → Plain inner rest)
  | _, _ => True

/-- The check of each index that is reached lets through what is inside, and the address is that of the element. -/
def ExactAlong (memory : Cells) (leaf : Nat) : List Nat → (List Nat → Address) → Row → List Index → Prop
  | length :: inner, place, row, index :: rest =>
    (emitIndexCheck index.lowered row.length "vector" = .ok () ↔ 0 ≤ index.2 ∧ index.2 < length) ∧
      (0 ≤ index.2 ∧ index.2 < length →
        gep (elementBytes leaf inner) row.pointer index.lowered.position = place [index.2.toNat] ∧
          ∀ next, memory (place [index.2.toNat]) = some (.row next) →
            ExactAlong memory leaf inner (fun path => place (index.2.toNat :: path)) next rest)
  | _, _, _, _ => True

variable {memory : Cells} {leaf : Nat} {dimensions : List Nat} {place : List Nat → Address} {row : Row} {value : Value}
  {path : List Index}

def Typed (path : List Index) : Prop := ∀ index ∈ path, index.1.word.InRange index.2

theorem exactAlong_iff (represents : Represents memory leaf dimensions place (.row row) value) (typed : Typed path) :
    ExactAlong memory leaf dimensions place row path ↔ Plain dimensions (numbers path) := by
  induction dimensions generalizing place row value path with
  | nil =>
    rw [ExactAlong, Plain]
    all_goals nofun
  | cons length inner ih =>
    cases path with
    | nil => simp [ExactAlong, Plain, numbers]
    | cons index rest =>
      cases value with
      | vector elements =>
        obtain ⟨counts, _, cells⟩ := represents
        have inRange := typed index List.mem_cons_self
        have exact := check_exact_iff inRange row.length "vector"
        rw [counts] at exact
        rw [ExactAlong, numbers_cons, Plain, ← exact]
        apply and_congr_right
        intro passes
        apply forall_congr'
        intro inside
        have small := ((emitIndexCheck_ok_iff inRange row.length "vector").1 (passes.2 inside)).2.1
        obtain ⟨lies, cell, found, below⟩ := cells index.2.toNat (by omega)
        have slot : gep (elementBytes leaf inner) row.pointer index.lowered.position = place [index.2.toNat] :=
          (gep_eq inRange inside.1 small (elementBytes leaf inner) row.pointer).trans lies.symm
        rw [and_iff_right slot, found]
        cases cell with
        | row next =>
          rw [← ih below fun other member => typed other (List.mem_cons_of_mem _ member)]
          constructor
          · intro along
            exact along next rfl
          · intro along other same
            cases same
            exact along
        | element held =>
          cases inner with
          | nil => simp [Plain]
          | cons _ _ => exact below.elim
      | _ => exact represents.elim

variable {cell : Cell}

theorem Represents.vector {length : Nat} {inner : List Nat}
    (represents : Represents memory leaf (length :: inner) place cell value) :
    ∃ row elements, cell = .row row ∧ value = .vector elements ∧ row.length.toNat = length ∧ elements.length = length ∧
      ∀ i < length, place [i] = row.pointer + BitVec.ofNat 64 (i * elementBytes leaf inner) ∧
        ∃ cell, memory (place [i]) = some cell ∧
          Represents memory leaf inner (fun path => place (i :: path)) cell (elements.getD i .null) := by
  cases cell with
  | element held => exact represents.elim
  | row row =>
    cases value with
    | vector elements => exact ⟨row, elements, rfl, rfl, represents⟩
    | _ => exact represents.elim

theorem emitChainSlot_same (store : Store) (represents : Represents memory leaf dimensions place (.row row) value)
    (typed : Typed path) (plain : Plain dimensions (numbers path)) (some_ : path ≠ []) (short : path.length ≤ dimensions.length) :
    Same (fun slot reached => InsidePath dimensions (positions path) ∧ slot = place (positions path) ∧
        ∃ cell, memory slot = some cell ∧
          Represents memory leaf (dimensions.drop path.length) (fun rest => place (positions path ++ rest)) cell reached)
      (emitChainSlot memory leaf dimensions row (path.map Index.lowered)) (Interp.indexPath store value (numbers path)) := by
  induction path generalizing dimensions place row value with
  | nil => exact absurd rfl some_
  | cons index rest ih =>
    cases dimensions with
    | nil => simp at short
    | cons length inner =>
      obtain ⟨_, elements, ⟨⟩, rfl, counts, lengths, cells⟩ := represents.vector
      have inRange := typed index List.mem_cons_self
      have slot := emitSlot_same inRange counts plain.1 (elementBytes leaf inner) (vector_not_region row)
      rw [numbers_cons, Interp.indexPath_vector, lengths, List.map_cons, emitChainSlot]
      apply slot.bind
      rintro _ i ⟨inside, rfl, rfl⟩
      have below : index.2.toNat < length := by omega
      obtain ⟨lies, cell, found, reached⟩ := cells index.2.toNat below
      rw [← lies]
      cases rest with
      | nil =>
        rw [List.map_nil, if_pos rfl]
        exact .done ⟨⟨below, insidePath_nil inner⟩, rfl, cell, found, reached⟩
      | cons second rest =>
        rw [if_neg (by simp), load, found]
        cases inner with
        | nil => simp at short
        | cons next inner =>
          obtain ⟨row, _, rfl, _⟩ := reached.vector
          apply (ih reached (fun other member => typed other (List.mem_cons_of_mem _ member)) (plain.2 inside) (by simp)
            (Nat.le_of_succ_le_succ short)).mono
          rintro slot result ⟨insideRest, same, holds⟩
          exact ⟨⟨below, insideRest⟩, same, holds⟩

theorem emitIndexChain_nil (memory : Cells) (leaf : Nat) (dimensions : List Nat) (cell : Cell) :
    emitIndexChain memory leaf dimensions cell [] = pure cell := by
  rw [emitIndexChain]
  rfl

theorem emitIndexChain_eq (memory : Cells) (leaf : Nat) (dimensions : List Nat) (row : Row) {indices : List LoweredIndex}
    (some_ : indices ≠ []) : emitIndexChain memory leaf dimensions (.row row) indices =
      emitChainSlot memory leaf dimensions row indices >>= load memory := by
  induction indices generalizing dimensions row with
  | nil => exact absurd rfl some_
  | cons index rest ih =>
    cases dimensions with
    | nil => rfl
    | cons length inner =>
      rw [emitIndexChain, emitChainSlot, emitVectorIndex, bind_assoc, bind_assoc]
      apply bind_congr
      intro slot
      cases rest with
      | nil =>
        rw [if_pos rfl, pure_bind]
        simp only [emitIndexChain_nil]
        exact bind_pure (load memory slot)
      | cons second rest =>
        rw [if_neg (by simp), bind_assoc]
        apply bind_congr
        intro cell
        cases cell with
        | row next => exact ih inner next (by simp)
        | element held => cases inner <;> rfl

theorem emitIndexChain_same (store : Store) (represents : Represents memory leaf dimensions place (.row row) value)
    (typed : Typed path) (plain : Plain dimensions (numbers path)) (some_ : path ≠ []) (short : path.length ≤ dimensions.length) :
    Same (Represents memory leaf (dimensions.drop path.length) (fun rest => place (positions path ++ rest)))
      (emitIndexChain memory leaf dimensions (.row row) (path.map Index.lowered))
      (Interp.indexPath store value (numbers path)) := by
  rw [emitIndexChain_eq memory leaf dimensions row (by simpa using some_), ← bind_pure (Interp.indexPath _ _ _)]
  apply (emitChainSlot_same store represents typed plain some_ short).bind
  rintro slot reached ⟨-, -, cell, found, holds⟩
  rw [load, found]
  exact .done holds

/-! ### Writes -/

variable {changed : Cells}

theorem Represents.anywhere {other : List Nat → Address}
    (represents : Represents memory leaf [] place cell value) : Represents changed leaf [] other cell value := by
  cases cell with
  | element held => exact represents
  | row row => exact represents.elim

theorem Represents.frame (represents : Represents memory leaf dimensions place cell value)
    (kept : ∀ path, path ≠ [] → InsidePath dimensions path → changed (place path) = memory (place path)) :
    Represents changed leaf dimensions place cell value := by
  induction dimensions generalizing place cell value with
  | nil => exact represents.anywhere
  | cons length inner ih =>
    obtain ⟨row, elements, rfl, rfl, counts, lengths, cells⟩ := represents.vector
    refine ⟨counts, lengths, fun i below => ?_⟩
    obtain ⟨lies, cell, found, reached⟩ := cells i below
    refine ⟨lies, cell, ?_, ih reached fun path some_ inside => kept _ (by simp) ⟨below, inside⟩⟩
    rw [kept [i] (by simp) ⟨below, insidePath_nil inner⟩, found]

def replaceAt : Value → List Nat → Value → Value
  | _, [], stored => stored
  | .vector elements, i :: path, stored => .vector (elements.set i (replaceAt (elements.getD i .null) path stored))
  | value, _ :: _, _ => value

theorem setIndex_eq (store : Store) (represents : Represents memory leaf dimensions place cell value)
    (short : path.length ≤ dimensions.length) (stored : Value) :
    Interp.setIndex store value (numbers path) stored =
      Interp.indexPath store value (numbers path) >>= fun _ => .ok (replaceAt value (positions path) stored, store) := by
  induction path generalizing dimensions place cell value with
  | nil => simp [numbers, Interp.setIndex, Interp.indexPath, replaceAt, positions, bind, Except.bind, pure, Except.pure]
  | cons index rest ih =>
    cases dimensions with
    | nil => simp at short
    | cons length inner =>
      obtain ⟨row, elements, rfl, rfl, counts, lengths, cells⟩ := represents.vector
      rw [numbers_cons, positions_cons, Interp.indexPath_vector, Interp.setIndex, lengths]
      by_cases inside : 0 ≤ index.2 ∧ index.2 < length
      · obtain ⟨lies, cell, found, reached⟩ := cells index.2.toNat (by omega)
        rw [Interp.checkedIndex_of_inside inside]
        show (Interp.setIndex store _ _ _ >>= _) = (Interp.indexPath _ _ _ >>= _)
        rw [ih reached (Nat.le_of_succ_le_succ short)]
        cases Interp.indexPath store (elements.getD index.2.toNat .null) (numbers rest) <;> rfl
      · rw [Interp.checkedIndex_of_outside inside]
        rfl

theorem Represents.replace {spot : List Nat} {stored : Value}
    (represents : Represents memory leaf dimensions place cell value) (some_ : spot ≠ []) (inside : InsidePath dimensions spot)
    (kept : ∀ path, path ≠ [] → InsidePath dimensions path → ¬spot <+: path → changed (place path) = memory (place path))
    (holds : ∃ cell, changed (place spot) = some cell ∧
      Represents changed leaf (dimensions.drop spot.length) (fun rest => place (spot ++ rest)) cell stored) :
    Represents changed leaf dimensions place cell (replaceAt value spot stored) := by
  induction spot generalizing dimensions place cell value with
  | nil => exact absurd rfl some_
  | cons i rest ih =>
    cases dimensions with
    | nil => exact inside.elim
    | cons length inner =>
      obtain ⟨row, elements, rfl, rfl, counts, lengths, cells⟩ := represents.vector
      rw [replaceAt]
      refine ⟨counts, by rw [List.length_set, lengths], fun j below => ?_⟩
      obtain ⟨lies, cell, found, reached⟩ := cells j below
      refine ⟨lies, ?_⟩
      by_cases same : j = i
      · subst same
        rw [List.getD_eq_getElem?_getD, List.getElem?_set_self (lengths ▸ below), Option.getD_some]
        cases rest with
        | nil => exact holds
        | cons second rest =>
          have stays : changed (place [j]) = memory (place [j]) :=
            kept [j] (by simp) ⟨below, insidePath_nil inner⟩ (by simp)
          refine ⟨cell, stays.trans found, ?_⟩
          apply ih reached (by simp) inside.2
          · intro path _ insidePath apart
            exact kept (j :: path) (by simp) ⟨below, insidePath⟩ (by simpa using apart)
          · exact holds
      · have apart (path : List Nat) : ¬i :: rest <+: j :: path := fun within =>
          same (List.cons_prefix_cons.1 within).1.symm
        have stays : changed (place [j]) = memory (place [j]) := kept [j] (by simp) ⟨below, insidePath_nil inner⟩ (apart [])
        rw [List.getD_eq_getElem?_getD, List.getElem?_set_ne (Ne.symm same), ← List.getD_eq_getElem?_getD]
        refine ⟨cell, stays.trans found, reached.frame fun path _ insidePath => ?_⟩
        exact kept (j :: path) (by simp) ⟨below, insidePath⟩ (apart path)

theorem copyElements_of_ne {target source address : Address}
    (apart : ∀ i < count, target + BitVec.ofNat 64 (i * leaf) ≠ address) :
    copyElements memory leaf count target source address = memory address := foldl_update_of_ne apart

theorem copyElements_of_lt {count i : Nat} {target source : Address} (below : i < count) (apart : ∀ i < count, ∀ j < count,
      target + BitVec.ofNat 64 (i * leaf) = target + BitVec.ofNat 64 (j * leaf) → i = j) :
    copyElements memory leaf count target source (target + BitVec.ofNat 64 (i * leaf)) =
      memory (source + BitVec.ofNat 64 (i * leaf)) :=
  foldl_update_of_lt below apart

theorem emitElementStore_eq {remaining : List Nat} {place source : List Nat → Address} {slot : Address} {target cell : Cell}
    {old stored : Value} (found : memory slot = some target) (flat : remaining.length ≤ 1)
    (represents : Represents memory leaf remaining place target old) (slot_eq : slot = place [])
    (apart : ∀ first second, InsidePath remaining first → InsidePath remaining second → place first = place second →
      first = second)
    (given : Represents memory leaf remaining source cell stored) :
    ∃ changed, emitElementStore memory leaf remaining slot cell = .ok changed ∧
      (∃ cell, changed slot = some cell ∧ Represents changed leaf remaining place cell stored) ∧
      ∀ address, (∀ rest, InsidePath remaining rest → place rest ≠ address) → changed address = memory address := by
  cases remaining with
  | nil =>
    cases cell with
    | row row => exact given.elim
    | element held =>
      refine ⟨Function.update memory slot (some (.element held)), rfl, ⟨.element held, Function.update_self .., given⟩, ?_⟩
      intro address outside
      exact Function.update_of_ne (fun same => outside [] (insidePath_nil _) (slot_eq ▸ same.symm)) _ _
  | cons count inner =>
    obtain rfl : inner = [] := List.length_eq_zero_iff.1 (by simpa using flat)
    obtain ⟨row, elements, rfl, rfl, counts, lengths, cells⟩ := represents.vector
    obtain ⟨source_, values, rfl, rfl, _, lengths', contents⟩ := given.vector
    have insideOne {i : Nat} (below : i < count) : InsidePath [count] [i] := ⟨below, insidePath_nil _⟩
    have apart' : ∀ i < count, ∀ j < count,
        row.pointer + BitVec.ofNat 64 (i * leaf) = row.pointer + BitVec.ofNat 64 (j * leaf) → i = j := by
      intro i below j below' same
      have places : place [i] = place [j] := (cells i below).1.trans (same.trans (cells j below').1.symm)
      have paths := apart [i] [j] (insideOne below) (insideOne below') places
      simpa using paths
    have stays : copyElements memory leaf count row.pointer source_.pointer slot = memory slot := by
      apply copyElements_of_ne
      intro i below same
      have places : place [i] = place [] := ((cells i below).1.trans same).trans slot_eq
      cases apart [i] [] (insideOne below) (insidePath_nil _) places
    refine ⟨copyElements memory leaf count row.pointer source_.pointer, ?_, ⟨.row row, stays.trans found, ?_⟩, ?_⟩
    · rw [emitElementStore, load, found]
      rfl
    · refine ⟨counts, lengths', fun i below => ?_⟩
      obtain ⟨lies, -⟩ := cells i below
      obtain ⟨from_, cell, here, holds⟩ := contents i below
      refine ⟨lies, cell, ?_, holds.anywhere⟩
      rw [lies]
      exact (copyElements_of_lt below apart').trans (from_ ▸ here)
    · intro address outside
      apply copyElements_of_ne
      intro i below same
      exact outside [i] (insideOne below) ((cells i below).1.trans same)

theorem insidePath_append {first rest : List Nat} (inside : InsidePath dimensions first) :
    InsidePath dimensions (first ++ rest) ↔ InsidePath (dimensions.drop first.length) rest := by
  induction first generalizing dimensions with
  | nil => rfl
  | cons i first ih =>
    cases dimensions with
    | nil => exact inside.elim
    | cons length inner =>
      rw [List.cons_append, List.length_cons, List.drop_succ_cons, ← ih inside.2]
      exact and_iff_right inside.1

theorem emitVectorSetIndices_same (store : Store) (represents : Represents memory leaf dimensions place (.row row) value)
    (apart : Apart dimensions place) (typed : Typed path) (plain : Plain dimensions (numbers path)) (some_ : path ≠ [])
    (short : path.length ≤ dimensions.length) (flat : dimensions.length ≤ path.length + 1) {source : List Nat → Address}
    {stored : Value} (given : Represents memory leaf (dimensions.drop path.length) source cell stored) :
    Same (fun changed result => Represents changed leaf dimensions place (.row row) result.1 ∧ result.2 = store ∧
        ∀ address, (∀ rest, InsidePath (dimensions.drop path.length) rest → place (positions path ++ rest) ≠ address) →
          changed address = memory address)
      (emitVectorSetIndices memory leaf dimensions row (path.map Index.lowered) cell)
      (Interp.setIndex store value (numbers path) stored) := by
  have many : (positions path).length = path.length := List.length_map _
  have nonempty (rest : List Nat) : positions path ++ rest ≠ [] := by
    rw [← List.length_pos_iff, List.length_append, many]
    have := List.length_pos_iff.2 some_
    omega
  rw [setIndex_eq store represents short, emitVectorSetIndices, List.length_map]
  apply (emitChainSlot_same store represents typed plain some_ short).bind
  rintro slot reached ⟨inside, slot_eq, target, found, holds⟩
  have insideAll {rest : List Nat} (inner : InsidePath (dimensions.drop path.length) rest) :
      InsidePath dimensions (positions path ++ rest) := by
    rw [insidePath_append inside, many]
    exact inner
  obtain ⟨changed, emitted, written, kept⟩ := emitElementStore_eq found (by rw [List.length_drop]; omega) holds
    (by rw [slot_eq, List.append_nil])
    (fun first second inside inside' same =>
      List.append_cancel_left (apart _ _ (nonempty _) (nonempty _) (insideAll inside) (insideAll inside') same)) given
  rw [emitted]
  refine .done ⟨?_, rfl, kept⟩
  apply represents.replace (by simpa using nonempty []) inside
  · intro other otherSome otherInside outside
    apply kept
    intro rest inner same
    apply outside
    rw [← apart _ _ (nonempty rest) otherSome (insideAll inner) otherInside same]
    exact List.prefix_append _ _
  · rw [many, ← slot_eq]
    exact written

/-- The accesses to a vector by a sequence of indices: each check, what is read, and what is written of an element or an
innermost row. -/
def VectorExact (memory : Cells) (leaf : Nat) (store : Store) (dimensions : List Nat) (place : List Nat → Address) (row : Row)
    (value : Value) (path : List Index) : Prop :=
  ExactAlong memory leaf dimensions place row path ∧
    Same (Represents memory leaf (dimensions.drop path.length) (fun rest => place (positions path ++ rest)))
      (emitIndexChain memory leaf dimensions (.row row) (path.map Index.lowered))
      (Interp.indexPath store value (numbers path)) ∧
    (dimensions.length ≤ path.length + 1 → ∀ source cell stored,
      Represents memory leaf (dimensions.drop path.length) source cell stored →
        Same (fun changed result => Represents changed leaf dimensions place (.row row) result.1 ∧ result.2 = store ∧
            ∀ address, (∀ rest, InsidePath (dimensions.drop path.length) rest → place (positions path ++ rest) ≠ address) →
              changed address = memory address)
          (emitVectorSetIndices memory leaf dimensions row (path.map Index.lowered) cell)
          (Interp.setIndex store value (numbers path) stored))

theorem vectorExact_iff (store : Store) (represents : Represents memory leaf dimensions place (.row row) value)
    (apart : Apart dimensions place) (typed : Typed path) (some_ : path ≠ []) (short : path.length ≤ dimensions.length) :
    VectorExact memory leaf store dimensions place row value path ↔ Plain dimensions (numbers path) := by
  constructor
  · intro exact
    exact (exactAlong_iff represents typed).1 exact.1
  · intro plain
    refine ⟨(exactAlong_iff represents typed).2 plain, emitIndexChain_same store represents typed plain some_ short, ?_⟩
    intro flat source cell stored given
    exact emitVectorSetIndices_same store represents apart typed plain some_ short flat given

/-! ### Regions -/

/-- A region that is not null, with its elements in memory and in the heap of the interpreter. -/
structure RegionAt (memory : Cells) (leaf : Nat) (store : Store) (handle : ObjectHandle) (row : Row) (elements : List Value) :
    Prop where
  live : row.pointer ≠ 0
  found : store.regions handle = some elements
  counts : row.length.toNat = elements.length
  holds : ∀ i < elements.length, memory (row.pointer + BitVec.ofNat 64 (i * leaf)) = some (.element (elements.getD i .null))
  apart : ∀ i < elements.length, ∀ j < elements.length,
    row.pointer + BitVec.ofNat 64 (i * leaf) = row.pointer + BitVec.ofNat 64 (j * leaf) → i = j

variable {store : Store} {handle : ObjectHandle} {elements : List Value} {element : Nat}

theorem region_read_same (region : RegionAt memory leaf store handle row elements) (inRange : kind.word.InRange n)
    (plain : ¬Misread n elements.length) : Same (fun cell value => cell = .element value)
      (emitVectorIndex memory leaf row (lowered kind n) "region") (Interp.indexValue store (.pointer handle element) n) := by
  rw [Interp.indexValue, Store.region, region.found, emitVectorIndex]
  apply (emitSlot_same inRange region.counts plain leaf fun _ => region.live).bind
  rintro _ i ⟨inside, rfl, rfl⟩
  have here := region.holds n.toNat (by omega)
  rw [load, here]
  exact .done rfl

theorem region_write_same (region : RegionAt memory leaf store handle row elements) (inRange : kind.word.InRange n)
    (plain : ¬Misread n elements.length) (stored : Value) :
    Same (fun changed result => result.1 = .pointer handle element ∧
        RegionAt changed leaf result.2 handle row (elements.set n.toNat stored) ∧
        ∀ address, row.pointer + BitVec.ofNat 64 (n.toNat * leaf) ≠ address → changed address = memory address)
      (emitPointerSetIndex memory leaf [] row (lowered kind n) (.element stored) "region")
      (Interp.setIndex store (.pointer handle element) [n] stored) := by
  rw [Interp.setIndex, if_neg (by simp), Store.region, region.found, emitPointerSetIndex]
  apply (emitSlot_same inRange region.counts plain _ fun _ => region.live).bind
  rintro _ i ⟨inside, rfl, rfl⟩
  have below : n.toNat < elements.length := by omega
  refine .done ⟨rfl, ⟨region.live, if_pos rfl, by rw [region.counts, List.length_set], ?_, ?_⟩, ?_⟩
  · intro j below'
    rw [List.length_set] at below'
    by_cases same : j = n.toNat
    · subst same
      rw [List.getD_eq_getElem?_getD, List.getElem?_set_self below]
      exact Function.update_self ..
    · rw [List.getD_eq_getElem?_getD, List.getElem?_set_ne (Ne.symm same), ← List.getD_eq_getElem?_getD]
      rw [← region.holds j below']
      exact Function.update_of_ne (fun places => same (region.apart j below' _ below places)) _ _
  · rw [List.length_set]
    exact region.apart
  · intro address other
    exact Function.update_of_ne other.symm _ _

def RegionExact (memory : Cells) (leaf : Nat) (store : Store) (handle : ObjectHandle) (element : Nat) (row : Row)
    (elements : List Value) (index : Index) : Prop :=
  Same (fun cell value => cell = .element value)
      (emitVectorIndex memory leaf row index.lowered "region") (Interp.indexValue store (.pointer handle element) index.2) ∧
    ∀ stored, Same (fun changed result => result.1 = .pointer handle element ∧
        RegionAt changed leaf result.2 handle row (elements.set index.2.toNat stored) ∧
        ∀ address, row.pointer + BitVec.ofNat 64 (index.2.toNat * leaf) ≠ address → changed address = memory address)
      (emitPointerSetIndex memory leaf [] row index.lowered (.element stored) "region")
      (Interp.setIndex store (.pointer handle element) [index.2] stored)

theorem load_ne_trap (memory : Cells) (address : Address) (failure : Failure) : load memory address ≠ .error (.trap failure) := by
  rw [load]
  split <;> simp

theorem regionExact_iff (region : RegionAt memory leaf store handle row elements) (inRange : kind.word.InRange n) :
    RegionExact memory leaf store handle element row elements (kind, n) ↔ ¬Misread n elements.length := by
  constructor
  · rintro ⟨read, -⟩
    have live : "region" = "region" → row.pointer ≠ 0 := fun _ => region.live
    rw [Interp.indexValue, Store.region, region.found, emitVectorIndex, emitSlot, emitBoundsCheck_eq live] at read
    rw [← region.counts, ← check_exact_iff inRange row.length "region", region.counts]
    by_cases inside : 0 ≤ n ∧ n < elements.length
    · refine iff_of_true ?_ inside
      by_contra stops
      obtain ⟨failure, stopped, -⟩ := emitIndexCheck_of_ne stops
      rw [Index.lowered, stopped] at read
      change Same _ (.error (.trap failure)) (Interp.checkedIndex n elements.length "region" >>= _) at read
      rw [Interp.checkedIndex_of_inside inside] at read
      cases read
    · refine iff_of_false ?_ inside
      intro passes
      rw [Index.lowered, passes] at read
      change Same _ (load memory _) (Interp.checkedIndex n elements.length "region" >>= _) at read
      rw [Interp.checkedIndex_of_outside inside] at read
      generalize found : load memory _ = loaded at read
      cases read
      exact load_ne_trap _ _ _ found
  · intro plain
    exact ⟨region_read_same region inRange plain, region_write_same region inRange plain⟩

/-! ### Texts -/

variable {strings : Strings.Memory} {object : Address} {text : String}

theorem lowered_wide (kind : IntegerType) (n : Int) : (lowered kind n).wide =
    (decide (32 < kind.word.width) || (decide (kind.word.width = 32) && isUnsigned (.integer kind))) := rfl

theorem position_of_narrow (inRange : kind.word.InRange n) (narrow : (lowered kind n).wide = false) :
    (lowered kind n).position.toInt = n := by
  rw [lowered_position inRange]
  apply BitVec.toInt_ofInt_eq_self (by decide)
  all_goals
    rw [lowered_wide] at narrow
    revert narrow inRange
    cases kind <;>
      simp only [Word.InRange, Word.minimum, Word.maximum, IntegerType.word, isUnsigned, reduceIte, Bool.false_eq_true] <;>
      intro inRange narrow <;> first | omega | simp at narrow

theorem strLen_eq_valid (holds : Strings.Holds strings object text) :
    (Strings.strLen strings object).toNat = (((Strings.sliceFromRaw strings object).bind fromUtf8).getD "").toList.length := by
  have fewer := length_toList_le_utf8ByteSize text
  rw [holds.valid]
  split
  · next fits =>
    rw [Strings.strLen_eq holds fits, BitVec.toNat_ofNat]
    simp only [Strings.i32Max] at fits
    omega
  · next long =>
    rw [Strings.strLen_of_lt holds (by omega)]
    rfl

theorem packed_text (c : Char) : Strings.stringText (Strings.strFromPacked (Strings.packUtf8 c)) = some (String.ofList [c]) := by
  have bytes : String.utf8EncodeChar c = stringBytes (String.ofList [c]) := by simp [stringBytes]
  have few : (String.ofList [c]).utf8ByteSize ≤ Strings.i32Max := by
    have most := Char.utf8Size_le_four c
    rw [← Strings.length_stringBytes, ← bytes, String.length_utf8EncodeChar, Strings.i32Max]
    omega
  rw [Strings.strFromPacked_packUtf8, bytes, Strings.stringText_newString few]

variable {valid : List Char}

/-- The characters that the runtime reads at a pointer: no more of them than an `INTEGER` counts. -/
def Reads (strings : Strings.Memory) (object : Address) (valid : List Char) : Prop :=
  (((Strings.sliceFromRaw strings object).bind fromUtf8).getD "").toList = valid ∧ valid.length < 2 ^ 31

theorem emitIndexCheck_text (reads : Reads strings object valid) (holds : Strings.Holds strings object text) (inRange : kind.word.InRange n) :
    emitIndexCheck (lowered kind n) (Strings.strLen strings object) "string" = .ok () ↔ 0 ≤ n ∧ n < valid.length := by
  rw [(check_exact_iff inRange _ "string").2, strLen_eq_valid holds, reads.1]
  rw [strLen_eq_valid holds, reads.1]
  exact not_misread_of_le reads.2.le

theorem emitStringIndex_of_inside (reads : Reads strings object valid) (holds : Strings.Holds strings object text)
    (inRange : kind.word.InRange n) (inside : 0 ≤ n ∧ n < valid.length) : ∃ packed,
      emitStringIndex strings object (lowered kind n) = .ok packed ∧
      Strings.stringText packed = some (String.ofList ((valid.drop n.toNat).take 1)) := by
  have below : n.toNat < valid.length := by omega
  have few := reads.2
  have passes := (emitIndexCheck_text reads holds inRange).2 inside
  have small : n < 2 ^ 31 := by omega
  have position : (lowered kind n).position.toInt = n := by
    rw [lowered_position inRange]
    apply BitVec.toInt_ofInt_eq_self <;> omega
  have unsigned : (lowered kind n).position.toNat = n.toNat := by
    have whole := toNat_position inRange
    omega
  have packed : Strings.strIndexUtf8 strings object (lowered kind n).position = .ok (Strings.packUtf8 valid[n.toNat]) := by
    rw [Strings.strIndexUtf8, reads.1, position, if_neg (by omega), unsigned, List.getElem?_eq_getElem below]
  refine ⟨Strings.strFromPacked (Strings.packUtf8 valid[n.toNat]), ?_, ?_⟩
  · rw [emitStringIndex, passes, packed]
    cases (lowered kind n).wide <;> rfl
  · rw [packed_text, List.drop_eq_getElem_cons below]
    rfl

theorem emitStringIndex_of_outside (reads : Reads strings object valid) (holds : Strings.Holds strings object text)
    (inRange : kind.word.InRange n) (outside : ¬(0 ≤ n ∧ n < valid.length)) : ∃ failure,
      emitStringIndex strings object (lowered kind n) = .error (.trap failure) ∧ failure.id = .indexOutOfBounds := by
  cases wide : (lowered kind n).wide with
  | true =>
    obtain ⟨failure, stops, id⟩ := emitIndexCheck_of_ne fun passes =>
      outside ((emitIndexCheck_text reads holds inRange).1 passes)
    refine ⟨failure, ?_, id⟩
    rw [emitStringIndex, wide, if_pos rfl, stops]
    rfl
  | false =>
    have position := position_of_narrow inRange wide
    have whole := toNat_position inRange
    have none_ : (if n < 0 then none else valid[(lowered kind n).position.toNat]?) = none := by
      split
      · rfl
      · have small := BitVec.toInt_lt (x := (lowered kind n).position)
        rw [position] at small
        exact List.getElem?_eq_none (by omega)
    refine ⟨indexOutOfBounds n valid.length "string", ?_, rfl⟩
    have stops : Strings.strIndexUtf8 strings object (lowered kind n).position = .error (n, valid.length) := by
      rw [Strings.strIndexUtf8, reads.1, position, none_]
    rw [emitStringIndex, wide, stops]
    rfl

theorem string_same_iff (store : Store) (holds : Strings.Holds strings object text) (inRange : kind.word.InRange n) :
    Same (fun object value => ∃ character, value = .string character ∧ Strings.stringText object = some character)
        (emitStringIndex strings object (lowered kind n)) (Interp.indexValue store (.string text) n) ↔
      (0 ≤ n ∧ n < text.toList.length → text.utf8ByteSize ≤ Strings.i32Max) := by
  have fewer := length_toList_le_utf8ByteSize text
  rw [Interp.indexValue, Interp.stringCharacter_eq holds.addressable]
  by_cases fits : text.utf8ByteSize ≤ Strings.i32Max
  · have reads : Reads strings object text.toList := by
      rw [Reads, holds.valid, if_pos fits]
      rw [Strings.i32Max] at fits
      exact ⟨rfl, by omega⟩
    refine iff_of_true ?_ fun _ => fits
    split
    · next inside =>
      obtain ⟨packed, emitted, character⟩ := emitStringIndex_of_inside reads holds inRange inside
      rw [emitted]
      exact .done ⟨_, rfl, character⟩
    · next outside =>
      obtain ⟨failure, stops, id⟩ := emitStringIndex_of_outside reads holds inRange outside
      rw [stops]
      exact .stopped id
  · have reads : Reads strings object [] := by
      rw [Reads, holds.valid, if_neg fits]
      exact ⟨rfl, by decide⟩
    obtain ⟨failure, stops, id⟩ := emitStringIndex_of_outside reads holds inRange
      (fun inside => absurd inside.2 (by simpa using inside.1))
    rw [stops]
    constructor
    · intro same inside
      rw [if_pos inside] at same
      cases same
    · intro short
      rw [if_neg fun inside => fits (short inside)]
      exact .stopped id

/-! ### All of them -/

/-- Checks, addresses and accesses are exact for what is not misread, and for the texts that the runtime reads. -/
theorem exact_iff (inRange : kind.word.InRange n) :
    (∀ length : BitVec 32, CheckExact (kind, n) length ↔ ¬Misread n length.toNat) ∧
    (∀ {memory : Cells} {leaf : Nat} {dimensions : List Nat} {place : List Nat → Address} {row : Row} {value : Value}
      {path : List Index} (store : Store), Represents memory leaf dimensions place (.row row) value → Apart dimensions place →
      Typed path → path ≠ [] → path.length ≤ dimensions.length →
      (VectorExact memory leaf store dimensions place row value path ↔ Plain dimensions (numbers path))) ∧
    (∀ {memory : Cells} {leaf : Nat} {store : Store} {handle : ObjectHandle} {row : Row} {elements : List Value}
      (element : Nat), RegionAt memory leaf store handle row elements →
      (RegionExact memory leaf store handle element row elements (kind, n) ↔ ¬Misread n elements.length)) ∧
    (∀ {strings : Strings.Memory} {object : Address} {text : String} (store : Store), Strings.Holds strings object text →
      (Same (fun object value => ∃ character, value = .string character ∧ Strings.stringText object = some character)
          (emitStringIndex strings object (lowered kind n)) (Interp.indexValue store (.string text) n) ↔
        (0 ≤ n ∧ n < text.toList.length → text.utf8ByteSize ≤ Strings.i32Max))) :=
  ⟨checkExact_iff inRange, vectorExact_iff, fun _ at_ => regionExact_iff at_ inRange,
    fun store holds => string_same_iff store holds inRange⟩

/-- The rows of a vector of two rows of two elements at 64, and at every other address its number. -/
def gridMemory : Cells := fun address =>
  if address = 64 then some (.row ⟨128, 2⟩)
  else if address = 80 then some (.row ⟨144, 2⟩)
  else some (.element (.integer address.toNat .int64))

def gridValue : Value :=
  .vector [.vector [.integer 128 .int64, .integer 136 .int64], .vector [.integer 144 .int64, .integer 152 .int64]]

def gridPlace : List Nat → Address
  | [i] => 64 + BitVec.ofNat 64 (i * 16)
  | [i, j] => 128 + BitVec.ofNat 64 (i * 16) + BitVec.ofNat 64 (j * 8)
  | _ => 0

theorem grid_represents : Represents gridMemory 8 [2, 2] gridPlace (.row ⟨64, 2⟩) gridValue := by
  refine ⟨rfl, rfl, fun i below => ⟨rfl, ?_⟩⟩
  obtain rfl | rfl : i = 0 ∨ i = 1 := by omega
  · refine ⟨.row ⟨128, 2⟩, rfl, rfl, rfl, fun j below' => ?_⟩
    obtain rfl | rfl : j = 0 ∨ j = 1 := by omega
    · exact ⟨rfl, .element (.integer 128 .int64), rfl, rfl⟩
    · exact ⟨rfl, .element (.integer 136 .int64), rfl, rfl⟩
  · refine ⟨.row ⟨144, 2⟩, rfl, rfl, rfl, fun j below' => ?_⟩
    obtain rfl | rfl : j = 0 ∨ j = 1 := by omega
    · exact ⟨rfl, .element (.integer 144 .int64), rfl, rfl⟩
    · exact ⟨rfl, .element (.integer 152 .int64), rfl, rfl⟩

theorem insidePath_grid {path : List Nat} (some_ : path ≠ []) (inside : InsidePath [2, 2] path) :
    path ∈ [[0], [1], [0, 0], [0, 1], [1, 0], [1, 1]] := by
  match path, some_, inside with
  | [i], _, ⟨below, _⟩ =>
    obtain rfl | rfl : i = 0 ∨ i = 1 := by omega
    all_goals decide
  | [i, j], _, ⟨below, below', _⟩ =>
    obtain rfl | rfl : i = 0 ∨ i = 1 := by omega
    all_goals
      obtain rfl | rfl : j = 0 ∨ j = 1 := by omega
      all_goals decide

theorem grid_apart : Apart [2, 2] gridPlace := by
  intro first second some_ some' inside inside' same
  have places : ∀ first ∈ [[0], [1], [0, 0], [0, 1], [1, 0], [1, 1]], ∀ second ∈ [[0], [1], [0, 0], [0, 1], [1, 0], [1, 1]],
      gridPlace first = gridPlace second → first = second := by decide
  exact places first (insidePath_grid some_ inside) second (insidePath_grid some' inside') same

def gridStore : Store := ⟨fun _ => some [.integer 256 .int64, .integer 264 .int64], []⟩

theorem grid_region (handle : ObjectHandle) :
    RegionAt gridMemory 8 gridStore handle ⟨256, 2⟩ [.integer 256 .int64, .integer 264 .int64] := by
  refine ⟨by decide, rfl, rfl, fun i below => ?_, fun i below j below' => ?_⟩
  · obtain rfl | rfl : i = 0 ∨ i = 1 := Nat.le_one_iff_eq_zero_or_eq_one.1 (Nat.lt_succ_iff.1 below)
    all_goals rfl
  · obtain rfl | rfl : i = 0 ∨ i = 1 := Nat.le_one_iff_eq_zero_or_eq_one.1 (Nat.lt_succ_iff.1 below)
    all_goals
      obtain rfl | rfl : j = 0 ∨ j = 1 := Nat.le_one_iff_eq_zero_or_eq_one.1 (Nat.lt_succ_iff.1 below')
      all_goals decide

def gridStrings : Strings.Memory := fun address => if address = 8 then some (stringObject 1 "aé") else none

theorem grid_holds : Strings.Holds gridStrings 8 "aé" := ⟨by decide, by decide, ⟨1, .inl (by decide), rfl⟩, by decide⟩

theorem exact_iff_grid :
    CheckExact (.int8, 1) 3 ∧
      VectorExact gridMemory 8 gridStore [2, 2] gridPlace ⟨64, 2⟩ gridValue [(.int64, 1), (.uint32, 0)] ∧
      RegionExact gridMemory 8 gridStore ⟨0, 1⟩ 8 ⟨256, 2⟩ [.integer 256 .int64, .integer 264 .int64] (.int8, 1) ∧
      Same (fun object value => ∃ character, value = .string character ∧ Strings.stringText object = some character)
        (emitStringIndex gridStrings 8 (lowered .int8 1)) (Interp.indexValue gridStore (.string "aé") 1) := by
  have inRange : IntegerType.int8.word.InRange 1 := by decide
  have typed : Typed [(.int64, 1), (.uint32, 0)] := by
    intro index member
    rcases List.mem_pair.1 member with rfl | rfl <;> decide
  have plain : Plain [2, 2] (numbers [(.int64, 1), (.uint32, 0)]) :=
    ⟨not_misread_of_le (by decide), fun _ => ⟨not_misread_of_le (by decide), fun _ => trivial⟩⟩
  obtain ⟨check, vector, region, text⟩ := exact_iff inRange
  refine ⟨(check 3).2 (not_misread_of_le (by decide)), ?_, ?_, ?_⟩
  · exact (vector gridStore grid_represents grid_apart typed (List.cons_ne_nil _ _) (by decide)).2 plain
  · exact (region 8 (grid_region ⟨0, 1⟩)).2 (not_misread_of_le (by decide))
  · exact (text gridStore grid_holds).2 fun _ => by decide

/-- An index inside of 3 000 000 000 elements that the check stops, and a negative one that it lets through. -/
theorem not_exact : ¬CheckExact (.int64, 2147483648) 3000000000 ∧ ¬CheckExact (.int32, -1500000000) 3000000000 := by
  constructor
  · intro exact
    have passes := (exact "vector" 1 0).1.2 (by decide)
    exact absurd passes (by decide)
  · intro exact
    have inside := (exact "vector" 1 0).1.1 (by decide)
    exact absurd inside.1 (by decide)

end BasicNext.Native.IndexBounds
