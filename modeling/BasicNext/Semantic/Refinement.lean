import BasicNext.Semantic.Execution
import BasicNext.Semantic.Flow
import BasicNext.Semantic.NarrowingTests

/-!
# Locals that say more

Locals refine others when they list all their names, with the same declared types and types that are not
wider. Declaring and narrowing refine; ending narrowings goes the other way. What holds of the slots goes
from locals to all that they refine, and stays when the object of a local dies that is listed with `NULL`.
-/

namespace BasicNext.Semantic

open Frontend Interp Lib

/-! ### Ending narrowings -/

theorem getElem?_endNarrowingOf (locals : Locals) (name other : String) :
    (endNarrowingOf locals name)[other]? = (locals[other]?).map fun symbol =>
      if other = name then { symbol with ty := symbol.declaredTy } else symbol := by
  unfold endNarrowingOf
  by_cases same : other = name
  · subst same
    split
    next symbol known => simp [known]
    next unknown => simp [unknown]
  · split
    next symbol known =>
      rw [Std.TreeMap.getElem?_insert, if_neg fun equal => same (Std.LawfulEqCmp.eq_of_compare equal).symm]
      simp [same]
    next unknown => simp [same]

theorem getElem?_endNarrowings (written : List String) (locals : Locals) (other : String) :
    (endNarrowings written locals)[other]? = (locals[other]?).map fun symbol =>
      if other ∈ written then { symbol with ty := symbol.declaredTy } else symbol := by
  induction written generalizing locals with
  | nil =>
    show locals[other]? = _
    simp
  | cons name written ih =>
    show (endNarrowings written (endNarrowingOf locals name))[other]? = _
    rw [ih, getElem?_endNarrowingOf, Option.map_map]
    congr 1
    funext symbol
    show (if other ∈ written then _ else _) = _
    by_cases same : other = name
    · simp [same]
    · simp [same]

theorem endNarrowings_append (written others : List String) (locals : Locals) :
    endNarrowings (written ++ others) locals = endNarrowings others (endNarrowings written locals) :=
  List.foldl_append

theorem declaredTy_narrow (symbol : Symbol) (testType : Ty) (holds : Bool) :
    (symbol.narrow testType holds).declaredTy = symbol.declaredTy := by
  unfold Symbol.narrow
  split <;> rfl

/-! ### Refinement -/

variable {world : World}

def Refines (world : World) (inner outer : Locals) : Prop :=
  ∀ (name : String) (symbol : Symbol), outer[name]? = some symbol →
    ∃ symbol', inner[name]? = some symbol' ∧ symbol'.declaredTy = symbol.declaredTy ∧
      ∀ value, Inhabits world value symbol'.declaredTy → Inhabits world value symbol'.ty → Inhabits world value symbol.ty

namespace Refines

variable {inner outer locals : Locals} {store : Store world}

theorem refl (locals : Locals) : Refines world locals locals :=
  fun _ symbol known => ⟨symbol, known, rfl, fun _ _ inhabits => inhabits⟩

theorem trans (first : Refines world inner locals) (second : Refines world locals outer) :
    Refines world inner outer := by
  intro name symbol known
  obtain ⟨symbol', known', declared', shrinks'⟩ := second name symbol known
  obtain ⟨symbol'', known'', declared'', shrinks''⟩ := first name symbol' known'
  refine ⟨symbol'', known'', declared''.trans declared', fun value declared inhabits => ?_⟩
  exact shrinks' value (declared'' ▸ declared) (shrinks'' value declared inhabits)

theorem holds (refines : Refines world inner outer) (holds : Holds store inner) : Holds store outer := by
  intro name symbol known
  obtain ⟨symbol', known', declared', shrinks⟩ := refines name symbol known
  obtain ⟨slot, filled, declared, inhabits⟩ := holds name symbol' known'
  exact ⟨slot, filled, declared.trans declared', shrinks slot.value (declared ▸ slot.inhabits) inhabits⟩

theorem endNarrowings {written others : List String} (fewer : ∀ name ∈ written, name ∈ others)
    (refines : Refines world inner outer) :
    Refines world (endNarrowings written inner) (endNarrowings others outer) := by
  intro name symbol known
  rw [getElem?_endNarrowings] at known
  obtain ⟨symbolOuter, knownOuter, rfl⟩ := Option.map_eq_some_iff.1 known
  obtain ⟨symbolInner, knownInner, declared, shrinks⟩ := refines name symbolOuter knownOuter
  refine ⟨if name ∈ written then { symbolInner with ty := symbolInner.declaredTy } else symbolInner, ?_, ?_, ?_⟩
  · rw [getElem?_endNarrowings, knownInner]
    rfl
  · split <;> split <;> exact declared
  · intro value inhabitsDeclared inhabits
    by_cases ended : name ∈ others
    · rw [if_pos ended]
      split at inhabitsDeclared <;> exact declared ▸ inhabitsDeclared
    · have kept : name ∉ written := fun member => ended (fewer name member)
      rw [if_neg kept] at inhabits inhabitsDeclared
      rw [if_neg ended]
      exact shrinks value inhabitsDeclared inhabits

theorem ended (written : List String) (locals : Locals) :
    Refines world locals (Semantic.endNarrowings written locals) := by
  have kept : Refines world (Semantic.endNarrowings [] locals) (Semantic.endNarrowings written locals) :=
    (refl locals).endNarrowings nofun
  exact kept

theorem ended_twice (written : List String) (locals : Locals) :
    Refines world (Semantic.endNarrowings written (Semantic.endNarrowings written locals))
      (Semantic.endNarrowings written locals) := by
  rw [← endNarrowings_append]
  exact (refl locals).endNarrowings fun name member => (List.mem_append.1 member).elim id id

theorem insert {name : String} {symbol : Symbol} (new : locals[name]? = none) :
    Refines world (locals.insert name symbol) locals := by
  intro other symbol' known
  refine ⟨symbol', ?_, rfl, fun _ _ inhabits => inhabits⟩
  rw [Std.TreeMap.getElem?_insert, if_neg]
  · exact known
  · intro same
    obtain rfl := Std.LawfulEqCmp.eq_of_compare same
    rw [new] at known
    cases known

theorem declares {constant parameter : Bool} {names : List (String × DeclaredType)} {after : Locals}
    (declares : Declares constant parameter names locals after) : Refines world after locals := by
  induction names generalizing locals with
  | nil =>
    obtain rfl := declares
    exact refl after
  | cons declared names ih => exact (ih declares.2).trans (insert declares.1)

theorem applied {scope : TypeScope} {test : Narrowing} {narrowed : Locals}
    (found : test.apply scope locals = .ok narrowed) : Refines world narrowed locals := by
  rcases narrowByTest_eq_ok found with ⟨-, rfl⟩ | ⟨testType, symbol, -, known, rfl⟩
  · exact refl narrowed
  · intro other symbol' known'
    by_cases same : test.name = other
    · subst same
      obtain rfl := Option.some.inj (known.symm.trans known')
      exact ⟨_, Std.TreeMap.getElem?_insert_self, declaredTy_narrow symbol testType _, fun value _ => inhabits_of_narrow⟩
    · refine ⟨symbol', ?_, rfl, fun _ _ inhabits => inhabits⟩
      rw [Std.TreeMap.getElem?_insert, if_neg (mt Std.LawfulEqCmp.eq_of_compare same)]
      exact known'

theorem narrowed {scope : TypeScope} {condition : Expression} {truth : Bool} {narrowed : Locals}
    (found : narrowedLocals scope condition locals truth = .ok narrowed) : Refines world narrowed locals := by
  rw [narrowedLocals_eq_foldlM] at found
  generalize narrowings condition truth = tests at found
  induction tests generalizing locals with
  | nil =>
    obtain rfl := pure_eq_ok.1 found
    exact refl locals
  | cons test tests ih =>
    obtain ⟨next, first, rest⟩ := bind_eq_ok.1 found
    exact (ih rest).trans (applied first)

end Refines

/-! ### Slots -/

namespace Holds

variable {locals : Locals} {store after : Store world}

theorem evolves (holds : Holds store locals) (evolves : store.Evolves after) : Holds after locals := by
  intro name symbol known
  obtain ⟨slot, filled, declared, inhabits⟩ := holds name symbol known
  obtain ⟨slot', filled', declared', same⟩ := evolves.2 name slot filled
  exact ⟨slot', filled', declared'.trans declared, (same _).1 inhabits⟩

theorem within {outer : Locals} (holds : Holds after locals) (before : Holds store outer)
    (listed : ∀ (name : String) (symbol : Symbol), locals[name]? = some symbol →
      ∃ symbol' : Symbol, outer[name]? = some symbol') :
    Holds (after.within store) locals := by
  intro name symbol known
  obtain ⟨symbol', known'⟩ := listed name symbol known
  obtain ⟨slot', filled', -⟩ := before name symbol' known'
  obtain ⟨slot, filled, rest⟩ := holds name symbol known
  refine ⟨slot, ?_, rest⟩
  rw [Store.within, filled', Option.isSome_some, if_pos rfl, filled]

theorem within_endNarrowings {written : List String} (holds : Holds after (endNarrowings written locals))
    (before : Holds store locals) : Holds (after.within store) (endNarrowings written locals) := by
  refine Holds.within holds before fun name symbol known => ?_
  rw [getElem?_endNarrowings] at known
  obtain ⟨symbol', known', -⟩ := Option.map_eq_some_iff.1 known
  exact ⟨symbol', known'⟩

theorem insert {name : String} {symbol : Symbol} {slot : Slot world} (holds : Holds store locals)
    (declared : slot.declared = symbol.declaredTy) (inhabits : Inhabits world slot.value symbol.ty) :
    Holds (store.set name slot) (locals.insert name symbol) := by
  intro other symbol' known
  rw [Std.TreeMap.getElem?_insert] at known
  split at known
  next same =>
    obtain rfl := Std.LawfulEqCmp.eq_of_compare same
    cases known
    exact ⟨slot, if_pos rfl, declared, inhabits⟩
  next different =>
    obtain ⟨slot', filled, rest⟩ := holds other symbol' known
    refine ⟨slot', ?_, rest⟩
    rw [Store.set, if_neg fun same => different (by rw [same]; exact Std.ReflCmp.compare_self), filled]

theorem binds {constant parameter : Bool} {names : List (String × DeclaredType)} {next : Locals}
    (holds : Holds store locals) (binds : Binds names store after)
    (declares : Declares constant parameter names locals next) : Holds after next := by
  induction binds generalizing locals with
  | nil =>
    obtain rfl := declares
    exact holds
  | cons evolves declared _ ih =>
    exact ih ((holds.evolves evolves).insert declared (declared ▸ Slot.inhabits _)) declares.2

theorem writes {target : Target} (holds : Holds store locals) (writes : Writes locals target store after) :
    Holds after (endNarrowings target.written locals) := by
  cases writes with
  | @name name _ slot slot' filled same =>
    intro other symbol known
    rw [getElem?_endNarrowings] at known
    obtain ⟨symbol', known', rfl⟩ := Option.map_eq_some_iff.1 known
    obtain ⟨slot'', filled'', declared, inhabits⟩ := holds other symbol' known'
    by_cases equal : other = name
    · subst equal
      obtain rfl := Option.some.inj (filled.symm.trans filled'')
      rw [if_pos (show other ∈ (Target.name other).written from List.mem_singleton.2 rfl)]
      exact ⟨slot', if_pos rfl, same.trans declared, (same.trans declared) ▸ slot'.inhabits⟩
    · rw [if_neg (show other ∉ (Target.name name).written from fun member => equal (List.mem_singleton.1 member))]
      exact ⟨slot'', (if_neg equal).trans filled'', declared, inhabits⟩
  | global unfilled => exact (Refines.ended _ locals).holds holds
  | @part root _ _ slot slot' filled same keeps =>
    intro other symbol known
    have known : locals[other]? = some symbol := known
    obtain ⟨slot'', filled'', declared, inhabits⟩ := holds other symbol known
    by_cases equal : other = root
    · subst equal
      obtain rfl := Option.some.inj (filled.symm.trans filled'')
      exact ⟨slot', if_pos rfl, same.trans declared, keeps symbol known⟩
    · exact ⟨slot'', (if_neg equal).trans filled'', declared, inhabits⟩
  | elsewhere => exact holds

end Holds

/-! ### Flat types -/

def IsFlat (ty : Ty) : Prop := ∀ alternatives, ty = .alternative alternatives → Flat alternatives

theorem isFlat_declared (declared : DeclaredType) : IsFlat declared.ty :=
  fun alternatives same members => declared.flat alternatives members same

def AllFlat (locals : Locals) : Prop :=
  ∀ (name : String) (symbol : Symbol), locals[name]? = some symbol → IsFlat symbol.ty ∧ IsFlat symbol.declaredTy

namespace AllFlat

variable {locals : Locals}

theorem flatLocals (flat : AllFlat locals) : FlatLocals locals :=
  fun name symbol alternatives known => (flat name symbol known).1 alternatives

theorem insert {name : String} {symbol : Symbol} (flat : AllFlat locals) (isFlat : IsFlat symbol.ty)
    (declared : IsFlat symbol.declaredTy) : AllFlat (locals.insert name symbol) := by
  intro other symbol' known
  rw [Std.TreeMap.getElem?_insert] at known
  split at known
  · cases known
    exact ⟨isFlat, declared⟩
  · exact flat other symbol' known

theorem endNarrowings (flat : AllFlat locals) (written : List String) :
    AllFlat (Semantic.endNarrowings written locals) := by
  intro name symbol known
  rw [getElem?_endNarrowings] at known
  obtain ⟨symbol', known', rfl⟩ := Option.map_eq_some_iff.1 known
  obtain ⟨isFlat, declared⟩ := flat name symbol' known'
  split
  · exact ⟨declared, declared⟩
  · exact ⟨isFlat, declared⟩

theorem declares {constant parameter : Bool} {names : List (String × DeclaredType)} {after : Locals}
    (flat : AllFlat locals) (declares : Declares constant parameter names locals after) : AllFlat after := by
  induction names generalizing locals with
  | nil =>
    obtain rfl := declares
    exact flat
  | cons declared names ih => exact ih (flat.insert (isFlat_declared declared.2) (isFlat_declared declared.2)) declares.2

theorem applied {scope : TypeScope} {test : Narrowing} {narrowed : Locals} (flat : AllFlat locals)
    (found : test.apply scope locals = .ok narrowed) : AllFlat narrowed := by
  rcases narrowByTest_eq_ok found with ⟨-, rfl⟩ | ⟨testType, symbol, -, known, rfl⟩
  · exact flat
  · obtain ⟨isFlat, declared⟩ := flat test.name symbol known
    exact flat.insert (fun choices => flat_narrow isFlat) (declaredTy_narrow symbol testType _ ▸ declared)

theorem narrowed {scope : TypeScope} {condition : Expression} {truth : Bool} {narrowed : Locals}
    (flat : AllFlat locals) (found : narrowedLocals scope condition locals truth = .ok narrowed) :
    AllFlat narrowed := by
  rw [narrowedLocals_eq_foldlM] at found
  generalize narrowings condition truth = tests at found
  induction tests generalizing locals with
  | nil =>
    obtain rfl := pure_eq_ok.1 found
    exact flat
  | cons test tests ih =>
    obtain ⟨next, first, rest⟩ := bind_eq_ok.1 found
    exact ih (flat.applied first) rest

theorem remaining {scope : TypeScope} {branches : Branches Locals} (flat : AllFlat branches.note)
    (flows : BranchesFlow scope branches) : AllFlat branches.remaining := by
  induction branches using Branches.rec (motive_1 := fun _ => True) (motive_2 := fun _ => True) with
  | untaken | otherwise => exact flat
  | branch note condition body rest _ ih => exact ih (flat.narrowed flows.2.2.1) flows.2.2.2
  | _ => trivial

theorem statement {scope : TypeScope} {statement : Statement Locals} {after : Locals}
    (flat : AllFlat statement.note) (flows : StatementFlows scope statement after) : AllFlat after := by
  cases statement with
  | binding | destructuring => exact flat.declares flows
  | assignment | input =>
    obtain rfl := flows
    exact flat.endNarrowings _
  | if_ note branches =>
    obtain ⟨begins, flows, rfl⟩ := flows
    split
    · exact remaining (begins ▸ flat) flows
    · exact flat.endNarrowings _
  | loop =>
    obtain ⟨-, -, rfl⟩ := flows
    exact flat.endNarrowings _
  | print | call | release | return_ | stop | control =>
    obtain rfl := flows
    exact flat

end AllFlat

/-! ### Locals that are listed with `NULL` -/

/-- The locals whose objects may die are listed with `NULL`, if their declared types have it. -/
def ListsNull (world : World) (mayDie : String → Prop) (locals : Locals) : Prop :=
  ∀ (name : String) (symbol : Symbol), locals[name]? = some symbol → mayDie name →
    Inhabits world .null symbol.declaredTy → Inhabits world .null symbol.ty

/-- What may die is not what the tests find not to be `NULL`. -/
def Spares (scope : TypeScope) (mayDie : String → Prop) (tests : List Narrowing) : Prop :=
  ∀ test ∈ tests, leavesOutNull scope test = true → ¬mayDie test.name

theorem mem_stillFound {written found : List String} {name : String} :
    name ∈ stillFound written found ↔ name ∈ found ∧ name ∉ written := by
  simp [stillFound]

theorem mem_foundNames {scope : TypeScope} {condition : Expression} {truth : Bool} {test : Narrowing}
    (member : test ∈ narrowings condition truth) (leavesOut : leavesOutNull scope test = true) :
    test.name ∈ foundNames scope condition truth :=
  List.mem_map_of_mem (List.mem_filter.2 ⟨member, leavesOut⟩)

theorem eq_null_of_inhabits {ty : Ty} (single : ∀ members, ty ≠ .alternative members) (inhabits : Inhabits world .null ty) :
    ty = .null := by
  cases ty with
  | null => rfl
  | alternative members => exact absurd rfl (single members)
  | boolean | integer | float | string | function =>
    obtain ⟨_, same⟩ := inhabits
    cases same
  | vector =>
    obtain ⟨_, same, -⟩ := inhabits
    cases same
  | pointer =>
    obtain ⟨_, _, same, -⟩ := inhabits
    cases same
  | notAvailable | endOfFile | hostConsole | hostArgs => cases inhabits
  | _ => exact False.elim inhabits

/-- A test that does not leave `NULL` out keeps it among the alternatives. -/
theorem inhabits_null_narrow {scope : TypeScope} {test : Narrowing} {symbol : Symbol} {testType : Ty} (flat : IsFlat symbol.ty)
    (narrows : narrowingType scope test.operator test.right = .ok (some testType))
    (keeps : leavesOutNull scope test ≠ true) (inhabits : Inhabits world .null symbol.ty) :
    Inhabits world .null (symbol.narrow testType (testHolds test.operator test.truth)).ty := by
  by_cases isAlternative : ∃ alternatives, symbol.ty = .alternative alternatives
  · obtain ⟨alternatives, isAlternative⟩ := isAlternative
    rw [isAlternative] at inhabits
    obtain ⟨ty, member, inhabits⟩ := inhabits_alternative.1 inhabits
    obtain rfl := eq_null_of_inhabits (fun members same => flat _ isAlternative members (same ▸ member)) inhabits
    refine (inhabits_narrow_iff isAlternative).2 ⟨.null, member, inhabits, ?_⟩
    rw [leavesOutNull, narrows] at keeps
    simpa using keeps
  · rw [narrow_eq_self fun alternatives same => isAlternative ⟨alternatives, same⟩]
    exact inhabits

namespace ListsNull

variable {mayDie : String → Prop} {locals after : Locals} {found : List String} {scope : TypeScope}

theorem mono {others : String → Prop} (listsNull : ListsNull world mayDie locals) (fewer : ∀ name, others name → mayDie name) :
    ListsNull world others locals :=
  fun name symbol known dies => listsNull name symbol known (fewer name dies)

theorem insert {name : String} {symbol : Symbol} (listsNull : ListsNull world mayDie locals)
    (nullable : mayDie name → Inhabits world .null symbol.declaredTy → Inhabits world .null symbol.ty) :
    ListsNull world mayDie (locals.insert name symbol) := by
  intro other symbol' known dies
  rw [Std.TreeMap.getElem?_insert] at known
  split at known
  next equal =>
    obtain rfl := Std.LawfulEqCmp.eq_of_compare equal
    cases known
    exact nullable dies
  next => exact listsNull other symbol' known dies

theorem endNarrowings {written : List String}
    (listsNull : ListsNull world (fun name => mayDie name ∧ name ∉ written) locals) :
    ListsNull world mayDie (Semantic.endNarrowings written locals) := by
  intro name symbol known dies
  rw [getElem?_endNarrowings] at known
  obtain ⟨symbol', known', rfl⟩ := Option.map_eq_some_iff.1 known
  split
  next => exact id
  next kept => exact listsNull name symbol' known' ⟨dies, kept⟩

/-- What is written is no longer found. -/
theorem lapse {written : List String} (listsNull : ListsNull world (· ∉ found) locals) :
    ListsNull world (fun name => name ∉ stillFound written found ∧ name ∉ written) locals :=
  listsNull.mono fun _ ⟨lapsed, kept⟩ member => lapsed (mem_stillFound.2 ⟨member, kept⟩)

theorem declares {constant parameter : Bool} {names : List (String × DeclaredType)} (listsNull : ListsNull world mayDie locals)
    (declares : Declares constant parameter names locals after) : ListsNull world mayDie after := by
  induction names generalizing locals with
  | nil =>
    obtain rfl := declares
    exact listsNull
  | cons declared names ih => exact ih (listsNull.insert fun _ => id) declares.2

theorem narrowed {condition : Expression} {truth : Bool} {narrowed : Locals} (flat : AllFlat locals)
    (listsNull : ListsNull world mayDie locals) (spares : Spares scope mayDie (narrowings condition truth))
    (narrows : narrowedLocals scope condition locals truth = .ok narrowed) : ListsNull world mayDie narrowed := by
  rw [narrowedLocals_eq_foldlM] at narrows
  generalize narrowings condition truth = tests at narrows spares
  induction tests generalizing locals with
  | nil =>
    obtain rfl := pure_eq_ok.1 narrows
    exact listsNull
  | cons test tests ih =>
    obtain ⟨next, first, rest⟩ := bind_eq_ok.1 narrows
    refine ih (flat.applied first) ?_ rest fun other member => spares other (List.mem_cons_of_mem _ member)
    rcases narrowByTest_eq_ok first with ⟨-, rfl⟩ | ⟨testType, symbol, narrowsTo, known, rfl⟩
    · exact listsNull
    · refine listsNull.insert fun dies nullable => ?_
      rw [declaredTy_narrow] at nullable
      exact inhabits_null_narrow (flat test.name symbol known).1 narrowsTo
        (fun leavesOut => spares test List.mem_cons_self leavesOut dies) (listsNull test.name symbol known dies nullable)

theorem settled {condition : Expression} {truth : Bool} {narrowed : Locals} (flat : AllFlat locals)
    (listsNull : ListsNull world (· ∉ found) locals)
    (narrows : narrowedLocals scope condition locals truth = .ok narrowed) :
    ListsNull world (· ∉ foundNames scope condition truth ++ found) narrowed :=
  (listsNull.mono fun _ apart member => apart (List.mem_append_right _ member)).narrowed flat
    (fun _ member leavesOut apart => apart (List.mem_append_left _ (mem_foundNames member leavesOut))) narrows

theorem remaining {branches : Branches Locals} (flat : AllFlat branches.note) (listsNull : ListsNull world mayDie branches.note)
    (spares : ∀ condition ∈ branches.conditions, Spares scope mayDie (narrowings condition false))
    (flows : BranchesFlow scope branches) : ListsNull world mayDie branches.remaining := by
  induction branches using Branches.rec (motive_1 := fun _ => True) (motive_2 := fun _ => True) with
  | untaken | otherwise => exact listsNull
  | branch note condition body rest _ ih =>
    exact ih (flat.narrowed flows.2.2.1) (listsNull.narrowed flat (spares condition List.mem_cons_self) flows.2.2.1)
      (fun other member => spares other (List.mem_cons_of_mem _ member)) flows.2.2.2
  | _ => trivial

theorem statement {statement : Statement Locals} (flat : AllFlat statement.note)
    (listsNull : ListsNull world (· ∉ found) statement.note) (flows : StatementFlows scope statement after) :
    ListsNull world (· ∉ foundBehind scope found statement) after := by
  cases statement with
  | binding | destructuring =>
    refine ListsNull.declares (listsNull.mono fun name lapsed member => lapsed ?_) flows
    exact mem_stillFound.2 ⟨member, List.not_mem_nil⟩
  | assignment | input =>
    obtain rfl := flows
    exact listsNull.lapse.endNarrowings
  | if_ note branches =>
    obtain ⟨begins, flows, rfl⟩ := flows
    obtain rfl := begins
    rw [foundBehind]
    split
    · refine remaining flat (listsNull.mono fun _ apart member => apart (List.mem_append_right _ member))
        (fun condition isCondition test member leavesOut apart => apart (List.mem_append_left _ ?_)) flows
      exact List.mem_flatMap.2 ⟨condition, isCondition, mem_foundNames member leavesOut⟩
    · exact listsNull.lapse.endNarrowings
  | loop =>
    obtain ⟨-, -, rfl⟩ := flows
    exact listsNull.lapse.endNarrowings
  | print | call | release | return_ | stop | control =>
    obtain rfl := flows
    exact listsNull.mono fun name lapsed member => lapsed (mem_stillFound.2 ⟨member, List.not_mem_nil⟩)

theorem last {body : Block Locals} (flat : AllFlat body.note) (listsNull : ListsNull world (· ∉ found) body.note)
    (flows : BlockFlows scope body) : ListsNull world (· ∉ foundAtEnd scope found body) body.last := by
  induction body using Block.rec (motive_1 := fun _ => True) (motive_3 := fun _ => True) generalizing found with
  | nil => exact listsNull
  | cons first rest _ ih =>
    obtain ⟨flowsFirst, flowsRest⟩ := flows
    have behind := listsNull.statement flat flowsFirst
    show ListsNull world (· ∉ foundAtEnd scope found (.cons first rest)) rest.last
    rw [foundAtEnd]
    split at flowsRest
    next leaves =>
      rw [if_pos leaves, flowsRest]
      exact behind
    next stays =>
      rw [if_neg stays]
      exact ih (flat.statement flowsFirst) behind flowsRest
  | _ => trivial

/-- What is not found at the end of a block is written in it or not found before. -/
theorem block {body : Block Locals} (listsNull : ListsNull world (· ∉ found) body.note) :
    ListsNull world (· ∉ foundAtEnd scope found body) (Semantic.endNarrowings body.written body.note) := by
  suffices kept : ∀ name ∈ found, name ∉ body.written → name ∈ foundAtEnd scope found body from
    (listsNull.mono fun name apart member => apart.1 (kept name member apart.2)).endNarrowings
  intro name member unwritten
  clear listsNull
  induction body using Block.rec (motive_1 := fun _ => True) (motive_3 := fun _ => True) generalizing found with
  | nil => exact member
  | cons first rest _ ih =>
    have behind : name ∈ foundBehind scope found first := by
      have still : name ∈ stillFound first.written found :=
        mem_stillFound.2 ⟨member, fun written => unwritten (List.mem_append_left _ written)⟩
      cases first with
      | if_ note branches =>
        rw [foundBehind]
        split
        · exact List.mem_append_right _ member
        · exact still
      | _ => exact still
    rw [foundAtEnd]
    split
    · exact behind
    · exact ih behind fun written => unwritten (List.mem_append_right _ written)
  | _ => trivial

end ListsNull

theorem Holds.dies {mayDie : String → Prop} {locals : Locals} {store after : Store world} (holds : Holds store locals)
    (listsNull : ListsNull world mayDie locals) (dies : store.Dies mayDie after) : Holds after locals := by
  obtain ⟨name, dead, nullable, filledDead, -, mayDie, rfl⟩ := dies
  intro other symbol known
  obtain ⟨slot, filled, declared, inhabits⟩ := holds other symbol known
  by_cases same : other = name
  · subst same
    obtain rfl := Option.some.inj (filledDead.symm.trans filled)
    exact ⟨_, if_pos rfl, declared, listsNull other symbol known mayDie (declared ▸ nullable)⟩
  · exact ⟨slot, (if_neg same).trans filled, declared, inhabits⟩

/-! ### Statements -/

namespace Refines

theorem remaining {scope : TypeScope} {branches : Branches Locals} (flows : BranchesFlow scope branches) :
    Refines world branches.remaining branches.note := by
  induction branches using Branches.rec (motive_1 := fun _ => True) (motive_2 := fun _ => True) with
  | untaken note => exact refl note
  | otherwise body => exact refl body.note
  | branch note condition body rest _ ih => exact (ih flows.2.2.2).trans (narrowed flows.2.2.1)
  | _ => trivial

theorem statement {scope : TypeScope} {statement : Statement Locals} {after : Locals}
    (flows : StatementFlows scope statement after) :
    Refines world after (Semantic.endNarrowings statement.written statement.note) := by
  cases statement with
  | binding | destructuring => exact (declares flows).trans (ended _ _)
  | assignment | input =>
    obtain rfl := flows
    exact refl _
  | if_ note branches =>
    obtain ⟨begins, flows, rfl⟩ := flows
    obtain rfl := begins
    split
    · exact (remaining flows).trans (ended _ _)
    · exact refl _
  | loop =>
    obtain ⟨-, -, rfl⟩ := flows
    exact refl _
  | print | call | release | return_ | stop | control =>
    obtain rfl := flows
    exact refl _

end Refines

end BasicNext.Semantic
