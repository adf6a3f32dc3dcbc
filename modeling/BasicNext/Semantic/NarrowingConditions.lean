import BasicNext.Semantic.TestAnswers

/-!
# Narrowing by a whole condition

The tests that a condition settles narrow the locals one after the other. Whether a test narrows a local soundly is
read from the alternatives and the value that the local enters the condition with: what the tests so far have left is
all alternatives that the value is of, or one type that it is of.
-/

namespace BasicNext.Semantic

open Frontend Interp Lib

variable {world : World} {run : Evaluation}

/-! ### Tests in a condition -/

/-- One alternative alone takes the values of the tested type. -/
def Singles (alternatives : List Ty) (testType only : Ty) : Prop :=
  alternatives.filter (fun ty => compatible ty testType) = [only]

/-- The text that a test is lowered to. -/
def Evaluation.textOf (run : Evaluation) (right : Expression) : Option String :=
  (isTestType right).bind fun named => testText run.world.lowering (resolveType run.scope named) right

theorem isTest_of_textOf {right : Expression} {text : String} {value : Value} (lowered : run.textOf right = some text) :
    run.isTest value right = some (value.isValue run.world.classes text (run.lengthOf value)) := by
  obtain ⟨named, tests, lowered⟩ := Option.bind_eq_some_iff.1 lowered
  rw [Evaluation.isTest, tests]
  show (testText _ _ right).bind _ = _
  rw [lowered]
  rfl

/-- The local passes a test that one of its alternatives alone is assignable from. -/
def Settles (scope : TypeScope) (alternatives : List Ty) (test : Narrowing) : Prop :=
  ∃ testType only, narrowingType scope test.operator test.right = .ok (some testType) ∧
    testHolds test.operator test.truth = true ∧ Singles alternatives testType only

/-- The tests that narrow a local with these alternatives and this value soundly, after the tests `before`. -/
inductive Told (run : Evaluation) (alternatives : List Ty) (value : Value) (before : List Narrowing) (test : Narrowing) :
    Prop
  /-- `=` and `<>` with anything else than `NULL`, `NA` and `EOF`. -/
  | unnarrowed : narrowingType run.scope test.operator test.right = .ok none → Told run alternatives value before test
  | plain : Plain run.world.lowering test → Told run alternatives value before test
  /-- `NAN`, `INF` or `-INF`: the answer is yes, or the value is no `FLOAT`. -/
  | special : narrowingType run.scope test.operator test.right = .ok (some .floatLiteral) →
      (run.holds test.operator value test.right = some true ↔ ∃ number kind, value = .float number kind) →
      Told run alternatives value before test
  /-- `IS` for one alternative alone, by a text that tells its values. -/
  | only {testType only : Ty} {text : String} : test.operator = "IS" →
      narrowingType run.scope test.operator test.right = .ok (some testType) → Singles alternatives testType only →
      run.textOf test.right = some text → Tells run.world value text only → Told run alternatives value before test
  /-- An earlier test has settled which alternative the value is of. -/
  | after {earlier : Narrowing} : earlier ∈ before → earlier.name = test.name → Settles run.scope alternatives earlier →
      Told run alternatives value before test

/-- What the tests `before` leave of the type of a local: all alternatives that its value is of, or the one type. -/
inductive Left (run : Evaluation) (before : List Narrowing) (name : String) (value : Value) : Ty → Ty → Prop
  | several {alternatives left : List Ty} : left.Sublist alternatives →
      (∀ ty ∈ alternatives, Inhabits run.world value ty → ty ∈ left) →
      (∃ ty ∈ alternatives, Inhabits run.world value ty) →
      (∀ earlier ∈ before, earlier.name = name → ¬Settles run.scope alternatives earlier) →
      Left run before name value (.alternative alternatives) (.alternative left)
  | one {entry ty : Ty} : (∀ members, ty ≠ .alternative members) → Inhabits run.world value ty →
      Left run before name value entry ty

variable {alternatives left : List Ty} {value : Value} {before : List Narrowing} {test : Narrowing} {testType : Ty}
  {locals current next : Locals}

theorem Left.inhabits {name : String} {entry ty : Ty} (found : Left run before name value entry ty) :
    Inhabits run.world value ty := by
  cases found with
  | several _ kept some_ =>
    obtain ⟨ty, member, inhabits⟩ := some_
    exact inhabits_alternative.2 ⟨ty, kept ty member inhabits, inhabits⟩
  | one _ inhabits => exact inhabits

/-- The alternatives that the test keeps, if it keeps all that the value is of. -/
theorem left_of_kept {symbol : Symbol} {holds : Bool} (flat : Flat alternatives) (sublist : left.Sublist alternatives)
    (kept : ∀ ty ∈ alternatives, Inhabits run.world value ty → ty ∈ left)
    (some_ : ∃ ty ∈ alternatives, Inhabits run.world value ty)
    (unsettled : ∀ earlier ∈ before, earlier.name = test.name → ¬Settles run.scope alternatives earlier)
    (isLeft : symbol.ty = .alternative left)
    (narrows : narrowingType run.scope test.operator test.right = .ok (some testType))
    (answer : testHolds test.operator test.truth = holds)
    (keeps : ∀ ty ∈ alternatives, Inhabits run.world value ty → compatible ty testType = holds) :
    Left run (before ++ [test]) test.name value (.alternative alternatives) (symbol.narrow testType holds).ty := by
  have remains : ∀ ty ∈ alternatives, Inhabits run.world value ty →
      ty ∈ left.filter fun ty => compatible ty testType == holds := fun ty member inhabits =>
    List.mem_filter.2 ⟨kept ty member inhabits, beq_iff_eq.2 (keeps ty member inhabits)⟩
  have within : (left.filter fun ty => compatible ty testType == holds).Sublist alternatives :=
    List.filter_sublist.trans sublist
  have fewer : (left.filter fun ty => compatible ty testType == holds).Sublist
      (alternatives.filter fun ty => compatible ty testType == holds) := sublist.filter _
  obtain ⟨some_, member, inhabits⟩ := some_
  rw [Symbol.narrow, isLeft]
  dsimp only
  generalize left.filter (fun ty => compatible ty testType == holds) = others at remains within fewer ⊢
  rcases others with _ | ⟨ty, _ | ⟨second, rest⟩⟩
  · exact absurd (remains some_ member inhabits) List.not_mem_nil
  · obtain rfl := List.mem_singleton.1 (remains some_ member inhabits)
    exact .one (fun members same => flat members (same ▸ within.subset List.mem_cons_self)) inhabits
  · refine .several within remains ⟨some_, member, inhabits⟩ fun earlier isEarlier same => ?_
    rcases List.mem_append.1 isEarlier with isEarlier | isLast
    · exact unsettled earlier isEarlier same
    · obtain rfl := List.mem_singleton.1 isLast
      rintro ⟨testType', only, narrows', holds', single⟩
      cases narrows.symm.trans narrows'
      obtain rfl := answer.symm.trans holds'
      simp only [Singles, beq_true] at single fewer
      rw [single] at fewer
      exact absurd fewer.length_le (by simp)

theorem compatible_floatLiteral {ty : Ty} (single : ∀ members, ty ≠ .alternative members)
    (inhabits : Inhabits run.world value ty) :
    compatible ty .floatLiteral = true ↔ ∃ number kind, value = .float number kind := by
  cases ty with
  | float kind =>
    obtain ⟨number, rfl⟩ := inhabits
    exact iff_of_true rfl ⟨number, kind, rfl⟩
  | alternative members => exact absurd rfl (single members)
  | floatLiteral => exact False.elim inhabits
  | named | importedNamed =>
    refine iff_of_false Bool.false_ne_true ?_
    rintro ⟨number, kind, rfl⟩
    exact inhabits
  | vector =>
    refine iff_of_false Bool.false_ne_true ?_
    rintro ⟨number, kind, rfl⟩
    obtain ⟨_, same, -⟩ := inhabits
    cases same
  | pointer =>
    refine iff_of_false Bool.false_ne_true ?_
    rintro ⟨number, kind, rfl⟩
    obtain ⟨_, _, same, -⟩ := inhabits
    cases same
  | boolean | integer | string | function =>
    refine iff_of_false Bool.false_ne_true ?_
    rintro ⟨number, kind, rfl⟩
    obtain ⟨_, same⟩ := inhabits
    cases same
  | null | notAvailable | endOfFile | hostConsole | hostArgs =>
    refine iff_of_false Bool.false_ne_true ?_
    rintro ⟨number, kind, rfl⟩
    cases inhabits
  | _ => exact False.elim inhabits

/-- What the tests `before` leave of the locals. -/
def Follows (run : Evaluation) (before : List Narrowing) (locals current : Locals) : Prop :=
  ∀ (name : String) (symbol : Symbol), current[name]? = some symbol → ∃ entry value,
    locals[name]? = some entry ∧ run.values name = some value ∧ Left run before name value entry.ty symbol.ty

theorem follows_nil (conforms : Conforms run.world run.values locals) :
    Follows run [] locals locals := by
  intro name symbol known
  obtain ⟨value, valued, inhabits⟩ := conforms name symbol known
  refine ⟨symbol, value, known, valued, ?_⟩
  by_cases isAlternative : ∃ alternatives, symbol.ty = .alternative alternatives
  · obtain ⟨alternatives, isAlternative⟩ := isAlternative
    rw [isAlternative] at inhabits ⊢
    exact .several (List.Sublist.refl _) (fun _ member _ => member) (inhabits_alternative.1 inhabits) nofun
  · exact .one (fun alternatives same => isAlternative ⟨alternatives, same⟩) inhabits

theorem conforms_of_follows (follows : Follows run before locals current) :
    Conforms run.world run.values current := by
  intro name symbol known
  obtain ⟨entry, value, -, valued, found⟩ := follows name symbol known
  exact ⟨value, valued, found.inhabits⟩

/-- A test that settles no alternative of the local leaves what was left. -/
theorem Left.append {name : String} {entry ty : Ty} (found : Left run before name value entry ty)
    (other : ∀ alternatives, test.name = name → ¬Settles run.scope alternatives test) :
    Left run (before ++ [test]) name value entry ty := by
  cases found with
  | several sublist kept some_ unsettled =>
    refine .several sublist kept some_ fun earlier isEarlier same => ?_
    rcases List.mem_append.1 isEarlier with isEarlier | isLast
    · exact unsettled earlier isEarlier same
    · obtain rfl := List.mem_singleton.1 isLast
      exact other _ same
  | one single inhabits => exact .one single inhabits

/-- One test, of a local whose alternatives are not settled yet. -/
theorem left_of_told {symbol : Symbol} {holds : Bool} (flat : Flat alternatives) (sublist : left.Sublist alternatives)
    (kept : ∀ ty ∈ alternatives, Inhabits run.world value ty → ty ∈ left)
    (some_ : ∃ ty ∈ alternatives, Inhabits run.world value ty)
    (unsettled : ∀ earlier ∈ before, earlier.name = test.name → ¬Settles run.scope alternatives earlier)
    (isLeft : symbol.ty = .alternative left)
    (narrows : narrowingType run.scope test.operator test.right = .ok (some testType))
    (answer : testHolds test.operator test.truth = holds)
    (answered : run.holds test.operator value test.right = some holds)
    (told : Told run alternatives value before test) :
    Left run (before ++ [test]) test.name value (.alternative alternatives) (symbol.narrow testType holds).ty := by
  have single : ∀ ty ∈ alternatives, ∀ members, ty ≠ .alternative members := by
    rintro _ member members rfl
    exact flat members member
  cases told with
  | unnarrowed unnarrowed => cases narrows.symm.trans unnarrowed
  | plain plain =>
    obtain ⟨testType', narrows', exact_, answers⟩ := plain_spec plain
    cases narrows.symm.trans narrows'
    refine left_of_kept flat sublist kept some_ unsettled isLeft narrows answer fun ty member inhabits => ?_
    rw [compatible_iff_exactType exact_ (single ty member) inhabits]
    exact Option.some.inj ((answers value).symm.trans answered)
  | special narrows' isFloat =>
    cases narrows.symm.trans narrows'
    refine left_of_kept flat sublist kept some_ unsettled isLeft narrows answer fun ty member inhabits => ?_
    rw [answered, Option.some.injEq, ← compatible_floatLiteral (single ty member) inhabits] at isFloat
    exact Bool.eq_iff_iff.2 isFloat.symm
  | @only testType' only text isTest narrows' singles lowered tells =>
    cases narrows.symm.trans narrows'
    have isOnly : holds = true ↔ Inhabits run.world value only := by
      obtain ⟨ty, member, inhabits⟩ := some_
      rw [← isValue_of_tells tells (live_of_inhabits (single ty member) inhabits)]
      rw [Evaluation.holds, if_pos isTest, isTest_of_textOf lowered] at answered
      rw [Option.some.inj answered]
    have isOne : only ∈ alternatives.filter fun ty => compatible ty testType := singles ▸ List.mem_cons_self
    obtain ⟨member, takes⟩ := List.mem_filter.1 isOne
    cases holds with
    | true =>
      have fewer : (left.filter fun ty => compatible ty testType).Sublist [only] := singles ▸ sublist.filter _
      have remains : only ∈ left.filter fun ty => compatible ty testType :=
        List.mem_filter.2 ⟨kept only member (isOnly.1 rfl), takes⟩
      have same : left.filter (fun ty => compatible ty testType) = [only] :=
        fewer.eq_of_length_le (List.length_pos_of_mem remains)
      rw [Symbol.narrow, isLeft]
      dsimp only
      simp only [beq_true, same]
      exact .one (single only member) (isOnly.1 rfl)
    | false =>
      refine left_of_kept flat sublist kept some_ unsettled isLeft narrows answer fun ty member' inhabits => ?_
      rw [Bool.eq_false_iff]
      intro takes
      have isOnly' : ty ∈ [only] := singles ▸ List.mem_filter.2 ⟨member', takes⟩
      obtain rfl := List.mem_singleton.1 isOnly'
      exact Bool.false_ne_true (isOnly.2 inhabits)
  | after isEarlier same settles => exact absurd settles (unsettled _ isEarlier same)

theorem follows_apply (flat : FlatLocals locals) (follows : Follows run before locals current)
    (settled : run.test test.operator (.name test.name) test.right = some test.truth)
    (told : ∀ entry alternatives value, locals[test.name]? = some entry → entry.ty = .alternative alternatives →
      run.values test.name = some value → Told run alternatives value before test)
    (found : test.apply run.scope current = .ok next) : Follows run (before ++ [test]) locals next := by
  rcases narrowByTest_eq_ok found with ⟨unnarrowed, rfl⟩ | ⟨testType, symbol, narrows, known, rfl⟩
  · intro name symbol known
    obtain ⟨entry, value, isEntry, valued, found⟩ := follows name symbol known
    refine ⟨entry, value, isEntry, valued, found.append ?_⟩
    rintro alternatives - ⟨testType, only, narrows, -⟩
    cases unnarrowed.symm.trans narrows
  · intro name symbol' known'
    rw [Std.TreeMap.getElem?_insert] at known'
    split at known'
    next same =>
      obtain rfl := Std.LawfulEqCmp.eq_of_compare same
      cases known'
      obtain ⟨entry, value, isEntry, valued, found⟩ := follows test.name symbol known
      refine ⟨entry, value, isEntry, valued, ?_⟩
      have answered : run.holds test.operator value test.right = some (testHolds test.operator test.truth) := by
        rw [Evaluation.test, Evaluation.operand, valued] at settled
        obtain ⟨answer, answered, same⟩ := Option.map_eq_some_iff.1 settled
        rw [answered, ← same, testHolds_testHolds]
      generalize isTy : entry.ty = entryTy at found ⊢
      generalize isLeft : symbol.ty = leftTy at found
      cases found with
      | several sublist kept some_ unsettled =>
        exact left_of_told (flat _ entry _ isEntry isTy) sublist kept some_ unsettled isLeft narrows rfl answered
          (told entry _ value isEntry isTy valued)
      | one single inhabits =>
        rw [narrow_eq_self (isLeft ▸ single), isLeft]
        exact .one single inhabits
    next other =>
      obtain ⟨entry, value, isEntry, valued, found⟩ := follows name symbol' known'
      refine ⟨entry, value, isEntry, valued, found.append fun alternatives same => ?_⟩
      subst same
      exact absurd Std.ReflCmp.compare_self other

theorem follows_foldlM (flat : FlatLocals locals) {tests rest : List Narrowing} (split : tests = before ++ rest)
    (settled : ∀ test ∈ tests, run.test test.operator (.name test.name) test.right = some test.truth)
    (told : ∀ before test after, tests = before ++ test :: after → ∀ entry alternatives value,
      locals[test.name]? = some entry → entry.ty = .alternative alternatives → run.values test.name = some value →
      Told run alternatives value before test)
    (follows : Follows run before locals current)
    (found : rest.foldlM (Narrowing.apply run.scope) current = .ok next) : Follows run tests locals next := by
  induction rest generalizing before current with
  | nil =>
    rw [List.append_nil] at split
    cases found
    exact split ▸ follows
  | cons test rest ih =>
    rw [List.foldlM_cons] at found
    obtain ⟨between, applied, found⟩ := bind_eq_ok.1 found
    have member : test ∈ tests := split ▸ List.mem_append_right _ List.mem_cons_self
    have follows := follows_apply flat follows (settled test member) (told before test rest split) applied
    exact ih (by rw [split, List.append_assoc, List.singleton_append]) follows found

variable {condition : Expression} {truth : Bool} {narrowed : Locals}

/-- Every settled test is told from the alternatives that its local enters the condition with, and its value. -/
def ToldAll (run : Evaluation) (locals : Locals) (tests : List Narrowing) : Prop :=
  ∀ (before : List Narrowing) (test : Narrowing) (after : List Narrowing), tests = before ++ test :: after →
    ∀ (entry : Symbol) (alternatives : List Ty) (value : Value), locals[test.name]? = some entry →
      entry.ty = .alternative alternatives → run.values test.name = some value →
      Told run alternatives value before test

def plainSymbol (ty : Ty) : Symbol := { ty := ty, declaredTy := ty, constant := false, parameter := false }

/-- A run with one local `x`. -/
def oneLocal (value : Value) : Evaluation := { values := fun name => if name = "x" then some value else none }

theorem conforms_oneLocal {value : Value} {symbol : Symbol} (inhabits : Inhabits {} value symbol.ty) :
    Conforms (oneLocal value).world (oneLocal value).values (Std.TreeMap.ofList [("x", symbol)]) := by
  intro name symbol' known
  have entry : (name, symbol') ∈ [("x", symbol)] := Std.TreeMap.mem_toList_iff_getElem?_eq_some.2 known
  cases List.mem_singleton.1 entry
  exact ⟨value, rfl, inhabits⟩

def isNan : Expression := .binary "IS" (.name "x") (.literal (.special "NAN"))

/-- `x AS FLOAT OR NULL` -/
def floatOrNull : Locals := Std.TreeMap.ofList [("x", plainSymbol (.alternative [.float .float64, .null]))]

/-- `NOT (x IS NULL) AND x IS INTEGER` -/
def isPresentInteger : Expression :=
  .binary "AND" (.unary "NOT" (.binary "IS" (.name "x") (.literal .null)))
    (.binary "IS" (.name "x") (.typeTest { name := "INTEGER" }))

/-- `x AS INTEGER OR STRING OR NULL` -/
def integerOrText : Locals := Std.TreeMap.ofList [("x", plainSymbol (.alternative [.integer .int32, .string, .null]))]

end BasicNext.Semantic
