import BasicNext.Semantic.NarrowingTests

/-!
# What the texts of tests tell

The interpreter tests a value against a text. The text of a scalar type, of a declared type, of a vector or of a
pointer tells the values of the type from the others, as long as the value is of no namesake, no length is open and
the pointer is live.
-/

namespace BasicNext.Semantic

open Frontend Interp

variable {world : World} {classes : ClassModel} {value : Value} {text : String} {length : Option Nat}

/-! ### Names -/

/-- The kinds of values with a word of their own. -/
def kindWords : List String := ["Error", "DATE", "TIME", "TIMEZONE"]

theorem forall_kindWords {P : String → Prop} :
    (∀ word ∈ kindWords, P word) ↔ P "Error" ∧ P "DATE" ∧ P "TIME" ∧ P "TIMEZONE" := by
  simp [kindWords]

/-- A name that is written like no other word of the language, like no vector and like no pointer. -/
structure IsTypeName (text : String) : Prop where
  noScalar : scalarTestType text = none
  noMark : text ∉ ["NAN", "INF", "-INF", "NULL", "NA", "EOF"]
  noBracket : '[' ∉ text.toList
  noPointer : "POINTER TO ".toList.isPrefixOf text.toList = false

theorem isMarked_none (noMark : text ∉ ["NAN", "INF", "-INF", "NULL", "NA", "EOF"]) (noKind : text ∉ kindWords) :
    value.isMarked text = none := by
  unfold Value.isMarked
  split <;> first | rfl | exact absurd (by decide) noMark | exact absurd (by decide) noKind

theorem isValue_name (name : IsTypeName text) :
    value.isValue classes text length = (value.isMarked text).getD (value.isNamed classes text) := by
  unfold Value.isValue
  rw [name.noScalar]
  dsimp only
  cases value.isMarked text with
  | some answer => rfl
  | none =>
    have noVector : Value.vectorTest text = none := by
      rw [Value.vectorTest, if_neg]
      exact fun known => name.noBracket known.2
    show (if "POINTER TO ".toList.isPrefixOf text.toList then _ else _) = _
    rw [name.noPointer, if_neg Bool.false_ne_true, noVector]
    rfl

/-- The declared type that a type is. -/
def nominalOf (world : World) : Ty → Option Nominal
  | .named name => some (world.nominal name)
  | .importedNamed module name => some ⟨some module, name⟩
  | _ => none

theorem inhabits_nominal {ty : Ty} {nominal : Nominal} (isNominal : nominalOf world ty = some nominal) :
    Inhabits world value ty ↔ InhabitsNominal world value nominal := by
  cases ty <;> cases isNominal <;> rfl

/-- A value of another type is not called what the test is called: not by the last part of the name of its class, and
not as a resource of another module. -/
def NoNamesake (world : World) (nominal : Nominal) (text : String) : Value → Prop
  | .error .. | .date _ | .time _ | .timeZone _ => text = nominal.identity ∨ text ∉ kindWords
  | .object _ className =>
    (text = nominal.identity ∧ text ∉ kindWords ∧ (Value.lastPart className = text → className = text)) ∨
      (className ≠ text ∧ Value.lastPart className ≠ text ∧ ¬world.classes.InstanceOf className text ∧
        ¬world.classes.InstanceOf className nominal.identity)
  | .record typeName _ => (text = nominal.identity ∧ text ∉ kindWords) ∨ (typeName ≠ text ∧ typeName ≠ nominal.identity)
  | .resource kind _ => Value.lastPart (resourceType kind).2 = Value.lastPart nominal.name →
    resourceType kind = (nominal.module.bind world.standardNames, nominal.name) ∧ text = nominal.name
  | _ => True

theorem identity_eq {nominal : Nominal} {word : String} (plain : word.toList.head? ≠ some '#') :
    nominal.identity = word ↔ nominal = ⟨none, word⟩ := by
  obtain ⟨module, name⟩ := nominal
  cases module with
  | none => simp [Nominal.identity]
  | some module =>
    refine iff_of_false ?_ (by simp)
    rintro rfl
    exact plain (by simp [Nominal.identity])

/-- The word of a kind of values is the answer to each of these words. -/
theorem tells_kind {nominal : Nominal} {word : String} (isKind : word ∈ kindWords) (name : IsTypeName text)
    (spelled : text = nominal.identity ∨ text = nominal.name) (apart : text = nominal.identity ∨ text ∉ kindWords)
    (marked : ∀ text ∈ kindWords, value.isMarked text = some (word == text))
    (noName : value.isNamed classes text = false) : value.isValue classes text length = true ↔ nominal = ⟨none, word⟩ := by
  have plain : word.toList.head? ≠ some '#' := (by decide : ∀ word ∈ kindWords, word.toList.head? ≠ some '#') word isKind
  rw [isValue_name name]
  by_cases asksKind : text ∈ kindWords
  · rw [marked text asksKind, Option.getD_some, beq_iff_eq, apart.resolve_right (not_not_intro asksKind), eq_comm]
    exact identity_eq plain
  · rw [isMarked_none name.noMark asksKind, Option.getD_none, noName]
    refine iff_of_false Bool.false_ne_true ?_
    rintro rfl
    exact asksKind (spelled.elim (· ▸ isKind) (· ▸ isKind))

theorem isNamed_object {handle : ObjectHandle} {className : String} : (Value.object handle className).isNamed classes text = true ↔
    className = text ∨ Value.lastPart className = text ∨ classes.InstanceOf className text := by
  rw [Value.isNamed, Bool.or_eq_true, Bool.or_eq_true, beq_iff_eq, beq_iff_eq, ClassModel.isUpcast_iff, or_assoc]

theorem instanceOf_self (className : String) : classes.InstanceOf className className :=
  ⟨className, Lib.Chain.Above.refl _, .inl rfl⟩

theorem isValue_declared (name : IsTypeName text) (noKind : text ∉ kindWords) :
    value.isValue classes text length = value.isNamed classes text := by
  rw [isValue_name name, isMarked_none name.noMark noKind, Option.getD_none]

/-- A value with a name of its own is of no kind that a word asks for. -/
theorem not_isValue_of_isNamed (name : IsTypeName text) (marked : ∀ text ∈ kindWords, value.isMarked text = some false)
    (noName : value.isNamed classes text = false) : value.isValue classes text length = false := by
  rw [isValue_name name]
  by_cases asksKind : text ∈ kindWords
  · rw [marked text asksKind, Option.getD_some]
  · rw [isMarked_none name.noMark asksKind, Option.getD_none, noName]

theorem resourceTest_named {kind : Resource} : Value.resourceTest kind (resourceType kind).2 = true := by
  cases kind <;> decide

theorem lastPart_of_suffix {word : List Char} (noDot : '.' ∉ word) (suffix : ('.' :: word).isSuffixOf text.toList = true) :
    Value.lastPart text = String.ofList word := by
  obtain ⟨before, same⟩ := List.isSuffixOf_iff_suffix.1 suffix
  have plain : ∀ ch ∈ word.reverse, (ch != '.') = true := by
    intro ch member
    rw [bne_iff_ne]
    rintro rfl
    exact noDot (List.mem_reverse.1 member)
  rw [Value.lastPart, ← same, List.reverse_append, List.reverse_cons, List.append_assoc,
    List.takeWhile_append_of_pos plain, List.singleton_append, List.takeWhile_cons_of_neg (by decide), List.append_nil,
    List.reverse_reverse]

theorem lastPart_of_resourceTest {kind : Resource} (answers : Value.resourceTest kind text = true) :
    Value.lastPart text = Value.lastPart (resourceType kind).2 ∧ text.toList.head? ≠ some '#' := by
  cases kind with
  | file =>
    rw [Value.resourceTest, Value.isHostFileType, Bool.or_eq_true, Bool.and_eq_true, beq_iff_eq, bne_iff_ne] at answers
    rcases answers with rfl | ⟨suffix, noMark⟩
    · decide
    · exact ⟨lastPart_of_suffix (by decide) suffix, noMark⟩
  | dataFrame =>
    rw [Value.resourceTest, Bool.or_eq_true, Bool.and_eq_true, beq_iff_eq, bne_iff_ne] at answers
    rcases answers with rfl | ⟨suffix, noMark⟩
    · decide
    · exact ⟨lastPart_of_suffix (by decide) suffix, noMark⟩
  | _ =>
    simp only [Value.resourceTest, Bool.or_eq_true, beq_iff_eq] at answers
    rcases answers with (rfl | rfl) | rfl
    all_goals decide

theorem tells_object {nominal : Nominal} {handle : ObjectHandle} {className : String} (name : IsTypeName text)
    (apart : NoNamesake world nominal text (.object handle className)) :
    (Value.object handle className).isValue world.classes text length = true ↔
      world.classes.InstanceOf className nominal.identity := by
  rcases apart with ⟨rfl, noKind, own⟩ | ⟨noClass, noPart, noInstance, noIdentity⟩
  · rw [isValue_declared name noKind, isNamed_object]
    constructor
    · rintro (same | same | instance_)
      · exact same ▸ instanceOf_self className
      · have isClass := own same
        exact isClass ▸ instanceOf_self className
      · exact instance_
    · exact fun instance_ => .inr (.inr instance_)
  · refine iff_of_false ?_ noIdentity
    rw [Bool.not_eq_true]
    apply not_isValue_of_isNamed name (forall_kindWords.2 ⟨rfl, rfl, rfl, rfl⟩)
    rw [Bool.eq_false_iff, ne_eq, isNamed_object]
    rintro (same | same | instance_)
    · exact noClass same
    · exact noPart same
    · exact noInstance instance_

theorem tells_record {nominal : Nominal} {typeName : String} {fields : List Value} (name : IsTypeName text)
    (apart : NoNamesake world nominal text (.record typeName fields)) :
    (Value.record typeName fields).isValue classes text length = true ↔ typeName = nominal.identity := by
  rcases apart with ⟨rfl, noKind⟩ | ⟨noName, noIdentity⟩
  · rw [isValue_declared name noKind, Value.isNamed, beq_iff_eq]
  · refine iff_of_false ?_ noIdentity
    rw [Bool.not_eq_true]
    apply not_isValue_of_isNamed name (forall_kindWords.2 ⟨rfl, rfl, rfl, rfl⟩)
    rw [Value.isNamed]
    exact beq_eq_false_iff_ne.2 noName

theorem tells_resource {nominal : Nominal} {kind : Resource} {id : UInt64} (name : IsTypeName text)
    (spelled : text = nominal.identity ∨ text = nominal.name) (apart : NoNamesake world nominal text (.resource kind id)) :
    (Value.resource kind id).isValue classes text length = true ↔
      resourceType kind = (nominal.module.bind world.standardNames, nominal.name) := by
  by_cases same : Value.lastPart (resourceType kind).2 = Value.lastPart nominal.name
  · obtain ⟨isType, isName⟩ := apart same
    refine iff_of_true ?_ isType
    have written : text = (resourceType kind).2 := by rw [isName, isType]
    have noKind : text ∉ kindWords := by
      rw [written]
      cases kind <;> decide
    rw [isValue_declared name noKind, Value.isNamed, written]
    exact resourceTest_named
  · refine iff_of_false ?_ fun isType => same (congrArg Value.lastPart (congrArg Prod.snd isType))
    rw [Bool.not_eq_true]
    apply not_isValue_of_isNamed name (forall_kindWords.2 ⟨rfl, rfl, rfl, rfl⟩)
    rw [Value.isNamed, Bool.eq_false_iff]
    intro answers
    obtain ⟨part, noMark⟩ := lastPart_of_resourceTest answers
    have isName : text = nominal.name := by
      obtain ⟨module, written⟩ := nominal
      rcases spelled with isIdentity | isName
      · cases module with
        | none => exact isIdentity
        | some module =>
          rw [isIdentity] at noMark
          exact absurd (by simp [Nominal.identity]) noMark
      · exact isName
    exact same (part.symm.trans (congrArg Value.lastPart isName))

/-- A test by the name of a declared type. -/
theorem tells_name {nominal : Nominal} (name : IsTypeName text) (spelled : text = nominal.identity ∨ text = nominal.name)
    (apart : NoNamesake world nominal text value) :
    value.isValue world.classes text length = true ↔ InhabitsNominal world value nominal := by
  cases value with
  | error code message operation cause =>
    exact tells_kind (by decide) name spelled apart (forall_kindWords.2 ⟨rfl, rfl, rfl, rfl⟩) rfl
  | date | time | timeZone =>
    exact tells_kind (by decide) name spelled apart (forall_kindWords.2 ⟨rfl, rfl, rfl, rfl⟩) rfl
  | object handle className => exact tells_object name apart
  | record typeName fields => exact tells_record name apart
  | resource kind handle => exact tells_resource name spelled apart
  | _ =>
    refine iff_of_false ?_ id
    rw [Bool.not_eq_true]
    exact not_isValue_of_isNamed name (forall_kindWords.2 ⟨rfl, rfl, rfl, rfl⟩) rfl

/-! ### Vectors -/

def vectorText (element : String) (lengths : List (List Char)) : String :=
  String.ofList (element.toList ++ lengths.flatMap fun length => '[' :: length ++ [']'])

/-- Whether a value has the lengths of a vector test, with elements that a test holds of. -/
def hasLengths (element : Value → Bool) : List (List Char) → Value → Bool
  | [], value => element value
  | length :: lengths, .vector items =>
    Value.parseLength length == some items.length && items.all (hasLengths element lengths)
  | _ :: _, _ => false

theorem noScalar_of_bracket (bracket : '[' ∈ text.toList) : scalarTestType text = none := by
  have other (word : String) (plain : '[' ∉ word.toList) : text ≠ word := by
    rintro rfl
    exact plain bracket
  unfold scalarTestType
  simp [other "INTEGER" (by decide), other "INT32" (by decide), other "BYTE" (by decide), other "INT8" (by decide),
    other "INT16" (by decide), other "INT64" (by decide), other "TIMESTAMP" (by decide), other "UINT16" (by decide),
    other "UINT32" (by decide), other "UINT64" (by decide), other "FLOAT" (by decide), other "FLOAT64" (by decide),
    other "FLOAT32" (by decide), other "BOOLEAN" (by decide), other "STRING" (by decide)]

theorem isMarked_of_bracket (bracket : '[' ∈ text.toList) : value.isMarked text = none := by
  have noWord : ∀ word ∈ ["NAN", "INF", "-INF", "NULL", "NA", "EOF"] ++ kindWords, '[' ∉ word.toList := by decide
  refine isMarked_none (fun member => ?_) (fun member => ?_)
  · exact noWord text (List.mem_append_left _ member) bracket
  · exact noWord text (List.mem_append_right _ member) bracket

theorem isPrefixOf_append {words first rest : List Char} {mark : Char} (absent : mark ∉ words)
    (isPrefix : words.isPrefixOf (first ++ mark :: rest) = true) : words.isPrefixOf first = true := by
  induction words generalizing first with
  | nil => rfl
  | cons word words ih =>
    cases first with
    | nil =>
      simp only [List.nil_append, List.isPrefixOf, Bool.and_eq_true, beq_iff_eq] at isPrefix
      exact absurd (isPrefix.1 ▸ List.mem_cons_self) absent
    | cons value first =>
      simp only [List.cons_append, List.isPrefixOf, Bool.and_eq_true] at isPrefix ⊢
      exact ⟨isPrefix.1, ih (fun within => absent (List.mem_cons_of_mem _ within)) isPrefix.2⟩

theorem getLast_brackets {lengths : List (List Char)} (some_ : lengths ≠ []) :
    (lengths.flatMap fun length => '[' :: length ++ [']']).getLast? = some ']' := by
  induction lengths with
  | nil => exact absurd rfl some_
  | cons length lengths ih =>
    rw [List.flatMap_cons]
    by_cases last : lengths = []
    · subst last
      rw [List.flatMap_nil, List.append_nil]
      exact List.getLast?_concat
    · rw [List.getLast?_append, ih last]
      rfl

theorem vectorTest_eq {element : String} {first : List Char} {lengths : List (List Char)}
    (noBracket : '[' ∉ element.toList) (plain : ']' ∉ first) :
    Value.vectorTest (vectorText element (first :: lengths)) = some (vectorText element lengths, first) := by
  have text : (vectorText element (first :: lengths)).toList =
      element.toList ++ '[' :: (first ++ ']' :: lengths.flatMap fun length => '[' :: length ++ [']']) := by
    simp [vectorText]
  have last : (vectorText element (first :: lengths)).toList.getLast? = some ']' := by
    have known := @getLast_brackets (first :: lengths) (by simp)
    rw [vectorText, String.toList_ofList, List.getLast?_append, known]
    rfl
  have beforeName : ∀ value ∈ element.toList, (value != '[') = true := by
    intro value within
    rw [bne_iff_ne]
    rintro rfl
    exact noBracket within
  have beforeFirst : ∀ value ∈ first, (value != ']') = true := by
    intro value within
    rw [bne_iff_ne]
    rintro rfl
    exact plain within
  rw [Value.vectorTest, if_pos ⟨last, by rw [text]; simp⟩, text]
  rw [List.takeWhile_append_of_pos beforeName, List.dropWhile_append_of_pos beforeName, List.takeWhile_cons_of_neg (by decide),
    List.dropWhile_cons_of_neg (by decide), List.drop_one, List.tail_cons]
  dsimp only
  rw [List.takeWhile_append_of_pos beforeFirst, List.dropWhile_append_of_pos beforeFirst, List.takeWhile_cons_of_neg (by decide),
    List.dropWhile_cons_of_neg (by decide)]
  simp [vectorText]

theorem isValue_vector {element : String} {lengths : List (List Char)} (noBracket : '[' ∉ element.toList)
    (noPointer : "POINTER TO ".toList.isPrefixOf element.toList = false) (some_ : lengths ≠ [])
    (plain : ∀ length ∈ lengths, '[' ∉ length ∧ ']' ∉ length) :
    value.isValue classes (vectorText element lengths) length =
      hasLengths (fun value => value.isValue classes element none) lengths value := by
  induction lengths generalizing value length with
  | nil => exact absurd rfl some_
  | cons first lengths ih =>
    have bracket : '[' ∈ (vectorText element (first :: lengths)).toList := by simp [vectorText]
    have noWords : "POINTER TO ".toList.isPrefixOf (vectorText element (first :: lengths)).toList = false := by
      rw [Bool.eq_false_iff]
      intro isPrefix
      have within := @isPrefixOf_append "POINTER TO ".toList element.toList
        (first ++ ']' :: lengths.flatMap fun length => '[' :: length ++ [']']) '[' (by decide) (by
          rw [vectorText, String.toList_ofList] at isPrefix
          simpa using isPrefix)
      rw [noPointer] at within
      cases within
    conv_lhs => unfold Value.isValue
    rw [noScalar_of_bracket bracket]
    dsimp only
    rw [isMarked_of_bracket bracket]
    show (if "POINTER TO ".toList.isPrefixOf (vectorText element (first :: lengths)).toList then _ else _) = _
    rw [noWords, if_neg Bool.false_ne_true, vectorTest_eq noBracket (plain first (by simp)).2]
    cases value with
    | vector items =>
      show (_ && Value.areValues classes items (vectorText element lengths)) = (_ && items.all _)
      congr 1
      have each (item : Value) : item.isValue classes (vectorText element lengths) none =
          hasLengths (fun value => value.isValue classes element none) lengths item := by
        by_cases last : lengths = []
        · subst last
          simp [vectorText, hasLengths]
        · exact ih last fun length within => plain length (List.mem_cons_of_mem _ within)
      induction items with
      | nil => rfl
      | cons item items ih' =>
        rw [Value.areValues, List.all_cons, ih', each item]
    | _ => rfl

/-- A property of the leaves of a vector of so many dimensions. -/
def EachLeaf (holds : Value → Prop) : Nat → Value → Prop
  | 0, value => holds value
  | depth + 1, .vector items => ∀ item ∈ items, EachLeaf holds depth item
  | _, _ => True

theorem hasLengths_iff {element : Ty} {test : Value → Bool} {lengths : List (List Char)} {dimensions : List Nat}
    (parsed : lengths.mapM Value.parseLength = some dimensions) (closed : 2 ^ 64 - 1 ∉ dimensions)
    (leaves : EachLeaf (fun item => test item = true ↔ Inhabits world item element) dimensions.length value) :
    hasLengths test lengths value = true ↔ OfShape (fun item => Inhabits world item element) dimensions value := by
  induction lengths generalizing dimensions value with
  | nil =>
    obtain rfl : [] = dimensions := by simpa using parsed
    exact leaves
  | cons length lengths ih =>
    rw [List.mapM_cons] at parsed
    obtain ⟨dimension, known, parsed⟩ := Option.bind_eq_some_iff.1 parsed
    obtain ⟨inner, rest, parsed⟩ := Option.bind_eq_some_iff.1 parsed
    cases parsed
    rw [List.mem_cons, not_or] at closed
    rw [OfShape]
    cases value with
    | vector items =>
      rw [hasLengths, known, Bool.and_eq_true, beq_iff_eq, Option.some.injEq, List.all_eq_true]
      constructor
      · rintro ⟨same, each⟩
        exact ⟨items, rfl, .inr same.symm, fun item member => (ih rest closed.2 (leaves item member)).1 (each item member)⟩
      · rintro ⟨_, same, counts, each⟩
        cases same
        have same := counts.resolve_left (Ne.symm closed.1)
        exact ⟨same.symm, fun item member => (ih rest closed.2 (leaves item member)).2 (each item member)⟩
    | _ =>
      refine iff_of_false (by simp [hasLengths]) ?_
      rintro ⟨_, same, -⟩
      cases same

/-! ### Pointers -/

theorem noScalar_of_pointer (isPrefix : "POINTER TO ".toList.isPrefixOf text.toList = true) : scalarTestType text = none := by
  have other (word : String) (plain : "POINTER TO ".toList.isPrefixOf word.toList = false) : text ≠ word := by
    rintro rfl
    rw [plain] at isPrefix
    cases isPrefix
  unfold scalarTestType
  simp [other "INTEGER" (by decide), other "INT32" (by decide), other "BYTE" (by decide), other "INT8" (by decide),
    other "INT16" (by decide), other "INT64" (by decide), other "TIMESTAMP" (by decide), other "UINT16" (by decide),
    other "UINT32" (by decide), other "UINT64" (by decide), other "FLOAT" (by decide), other "FLOAT64" (by decide),
    other "FLOAT32" (by decide), other "BOOLEAN" (by decide), other "STRING" (by decide)]

theorem isValue_pointer (isPrefix : "POINTER TO ".toList.isPrefixOf text.toList = true) :
    value.isValue classes text length = match value with
      | .pointer _ code => (pointerIsHolds code (length.getD 0) text).getD false
      | _ => false := by
  have noWord : ∀ word ∈ ["NAN", "INF", "-INF", "NULL", "NA", "EOF"] ++ kindWords,
      "POINTER TO ".toList.isPrefixOf word.toList = false := by decide
  have noMark (member : text ∈ ["NAN", "INF", "-INF", "NULL", "NA", "EOF"] ++ kindWords) : False := by
    rw [noWord text member] at isPrefix
    cases isPrefix
  unfold Value.isValue
  rw [noScalar_of_pointer isPrefix]
  dsimp only
  rw [isMarked_none (fun member => noMark (List.mem_append_left _ member)) fun member => noMark (List.mem_append_right _ member)]
  show (if "POINTER TO ".toList.isPrefixOf text.toList then _ else _) = _
  rw [isPrefix]
  exact if_pos rfl

theorem checkRestore_ok {fromCode fromLength toCode : Nat} {toLength : Option Nat} :
    checkRestore fromCode fromLength toCode toLength = .ok ↔
      fromCode = toCode ∧ ∀ expected, toLength = some expected → fromLength = expected := by
  unfold checkRestore
  by_cases same : fromCode = toCode
  · rw [if_neg (not_not_intro same)]
    cases toLength with
    | none => simp [same]
    | some expected => by_cases fits : fromLength = expected <;> simp [same, fits]
  · simp [same]

/-- A pointer of the elements and lengths that the text names, or of any. -/
inductive TellsPointer (text : String) : Ty → Prop
  | void {element : Ty} {length : PointerLength} {spec : PointerIsTest} : parsePointerIs text = some spec → spec.void = true →
    isVoid element = true → TellsPointer text (.pointer element length)
  | element {element : Ty} {length : PointerLength} {spec : PointerIsTest} : parsePointerIs text = some spec →
    spec.void = false → isVoid element = false → (memberCode element).isSome = true →
    memberCode spec.element = memberCode element → spec.length = length → TellsPointer text (.pointer element length)

theorem isValue_of_tellsPointer {ty : Ty} {run : Evaluation} (isPrefix : "POINTER TO ".toList.isPrefixOf text.toList = true)
    (tells : TellsPointer text ty)
    (live : ∀ handle code, value = .pointer handle code → (run.world.lengths handle).isSome = true) :
    value.isValue classes text (run.lengthOf value) = true ↔ Inhabits run.world value ty := by
  rw [isValue_pointer isPrefix]
  cases value with
  | pointer handle code =>
    obtain ⟨count, counts⟩ := Option.isSome_iff_exists.1 (live handle code rfl)
    rw [Evaluation.lengthOf, counts, Option.getD_some]
    show (pointerIsHolds code count text).getD false = true ↔ _
    rw [pointerIsHolds]
    cases tells with
    | @void element length spec parsed isVoid_ elementVoid =>
      rw [parsed]
      refine iff_of_true ?_ ⟨handle, code, rfl, ?_⟩
      · show (if spec.void = true then some true else _).getD false = true
        rw [if_pos isVoid_]
        rfl
      · rw [if_pos elementVoid, counts]
        rfl
    | @element element length spec parsed noVoid elementNoVoid coded same isLength =>
      obtain ⟨toCode, isCode⟩ := Option.isSome_iff_exists.1 coded
      rw [parsed]
      show (if spec.void = true then some true else some (decide (checkRestore _ _ _ _ = .ok))).getD false = true ↔ _
      rw [if_neg (by rw [noVoid]; exact Bool.false_ne_true), Option.getD_some, decide_eq_true_eq, checkRestore_ok, same, isCode]
      constructor
      · rintro ⟨sameCode, sameLength⟩
        refine ⟨handle, code, rfl, ?_⟩
        rw [if_neg (by rw [elementNoVoid]; exact Bool.false_ne_true), isCode, counts]
        refine ⟨congrArg some sameCode.symm, ?_⟩
        subst isLength
        cases known : spec.length with
        | one => exact congrArg some (sameLength 1 (by rw [known]))
        | fixed expected => exact congrArg some (sameLength expected (by rw [known]))
        | dynamic => rfl
      · rintro ⟨_, _, equal, rest⟩
        cases equal
        rw [if_neg (by rw [elementNoVoid]; exact Bool.false_ne_true), isCode, counts] at rest
        obtain ⟨sameCode, fits⟩ := rest
        refine ⟨(Option.some.inj sameCode).symm, ?_⟩
        subst isLength
        cases known : spec.length with
        | one =>
          rw [known] at fits
          rintro _ ⟨⟩
          exact Option.some.inj fits
        | fixed expected =>
          rw [known] at fits
          rintro _ ⟨⟩
          exact Option.some.inj fits
        | dynamic => exact nofun
  | _ =>
    refine iff_of_false Bool.false_ne_true ?_
    cases tells with
    | void | element =>
      rintro ⟨_, _, same, -⟩
      cases same

/-! ### All tests of types -/

theorem inhabits_iff_exactType {ty : Ty} (exact_ : IsExact ty) :
    Inhabits world value ty ↔ exactType value = some ty := by
  refine ⟨exactType_of_inhabits exact_, fun same => ?_⟩
  cases value <;> cases same
  case integer number kind => exact ⟨number, rfl⟩
  case float number kind => exact ⟨number, rfl⟩
  case boolean truth => exact ⟨truth, rfl⟩
  case string text => exact ⟨text, rfl⟩
  all_goals rfl

/-- The text of a scalar type or of a declared one. -/
inductive TellsElement (world : World) (text : String) (ty : Ty) (value : Value) : Prop
  | scalar : scalarTestType text = some ty → TellsElement world text ty value
  | name {nominal : Nominal} : nominalOf world ty = some nominal → IsTypeName text →
    text = nominal.identity ∨ text = nominal.name → NoNamesake world nominal text value → TellsElement world text ty value

theorem isValue_of_tellsElement {ty : Ty} (tells : TellsElement world text ty value) :
    value.isValue world.classes text length = true ↔ Inhabits world value ty := by
  cases tells with
  | scalar scalar =>
    have exact_ : IsExact ty := by
      have isScalar := isScalar_of_scalarTestType scalar
      cases ty <;> trivial
    rw [isValue_scalar scalar, beq_iff_eq, inhabits_iff_exactType exact_]
  | name isNominal name spelled apart => rw [inhabits_nominal isNominal, tells_name name spelled apart]

/-- The text of a type that tells a value: of a vector without an open length, leaf by leaf. -/
inductive Tells (world : World) (value : Value) : String → Ty → Prop
  | element {text : String} {ty : Ty} : TellsElement world text ty value → Tells world value text ty
  | vector {text : String} {lengths : List (List Char)} {element : Ty} {dimensions : List Nat} : lengths ≠ [] →
    (∀ length ∈ lengths, '[' ∉ length ∧ ']' ∉ length) → '[' ∉ text.toList →
    "POINTER TO ".toList.isPrefixOf text.toList = false → lengths.mapM Value.parseLength = some dimensions →
    2 ^ 64 - 1 ∉ dimensions → EachLeaf (TellsElement world text element) dimensions.length value →
    Tells world value (vectorText text lengths) (.vector element dimensions)
  | pointer {text : String} {ty : Ty} : "POINTER TO ".toList.isPrefixOf text.toList = true → TellsPointer text ty →
    Tells world value text ty

theorem EachLeaf.mono {first second : Value → Prop} (all : ∀ value, first value → second value) {depth : Nat}
    (leaves : EachLeaf first depth value) : EachLeaf second depth value := by
  induction depth generalizing value with
  | zero => exact all value leaves
  | succ depth ih =>
    cases value with
    | vector items => exact fun item member => ih (leaves item member)
    | _ => trivial

theorem isValue_of_tells {run : Evaluation} {ty : Ty} (tells : Tells run.world value text ty)
    (live : ∀ handle code, value = .pointer handle code → (run.world.lengths handle).isSome = true) :
    value.isValue run.world.classes text (run.lengthOf value) = true ↔ Inhabits run.world value ty := by
  cases tells with
  | element tells => exact isValue_of_tellsElement tells
  | @vector text lengths element dimensions some_ plain noBracket noPointer parsed closed leaves =>
    rw [isValue_vector noBracket noPointer some_ plain,
      hasLengths_iff parsed closed (leaves.mono fun item tells => isValue_of_tellsElement tells)]
    obtain ⟨dimension, inner, rfl⟩ : ∃ dimension inner, dimensions = dimension :: inner := by
      cases lengths with
      | nil => exact absurd rfl some_
      | cons length lengths =>
        rw [List.mapM_cons] at parsed
        obtain ⟨dimension, -, parsed⟩ := Option.bind_eq_some_iff.1 parsed
        obtain ⟨inner, -, parsed⟩ := Option.bind_eq_some_iff.1 parsed
        cases parsed
        exact ⟨dimension, inner, rfl⟩
    refine ⟨fun shape => ?_, fun ⟨_, _, shape⟩ => shape⟩
    obtain ⟨elements, same, -⟩ := id shape
    exact ⟨elements, same, shape⟩
  | pointer isPrefix tells => exact isValue_of_tellsPointer isPrefix tells live

theorem live_of_inhabits {ty : Ty} (single : ∀ members, ty ≠ .alternative members) (inhabits : Inhabits world value ty) :
    ∀ handle code, value = .pointer handle code → (world.lengths handle).isSome = true := by
  rintro handle code rfl
  cases ty with
  | pointer element length =>
    obtain ⟨_, _, same, known⟩ := inhabits
    cases same
    split at known
    next => exact known
    next =>
      obtain ⟨-, fits⟩ := known
      cases length with
      | one | fixed =>
        rw [OfLength] at fits
        rw [fits]
        rfl
      | dynamic => exact fits
  | alternative members => exact absurd rfl (single members)
  | boolean | integer | float | string | function =>
    obtain ⟨_, same⟩ := inhabits
    cases same
  | vector =>
    obtain ⟨_, same, -⟩ := inhabits
    cases same
  | null | notAvailable | endOfFile | hostConsole | hostArgs => cases inhabits
  | named | importedNamed => exact False.elim inhabits
  | _ => exact False.elim inhabits

end BasicNext.Semantic
