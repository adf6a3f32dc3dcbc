import BasicNext.Json.Documents
import BasicNext.Lib.Transition

/-!
# What the document table keeps

Over every run of operations: stored documents nest no deeper than parsing allows, every document has
a count of its holders, which is at least one, and a document is freed exactly when its last holder
drops it. The holders themselves are a ledger beside the table: who received a handle, bound it once
more, released it or moved it away. Both 64-bit counters wrap, so the runs are those where no new
handle is still held and no count is full when it is raised.
-/

namespace BasicNext.Json

open Lib

/-! ### Writes -/

/-- A write fails and leaves every document as it was, or gives one document a value of allowed depth. -/
def Written (values : Table Value) (handle : Handle) (result : Outcome Unit × Table Value) : Prop :=
  (result.1 ≠ .ok () ∧ ∀ other, result.2.lookup other = values.lookup other) ∨
    (result.1 = .ok () ∧ handle ∈ values ∧ ∃ target, depthOf target ≤ maxDepth ∧ result.2 = values.insert handle target)

variable {handle : Handle} {values : Table Value}

theorem Written.failed (failure : JsonFailure) :
    Written values handle (.error failure, values) :=
  .inl ⟨fun equal => (nomatch equal), fun _ => rfl⟩

theorem Written.restored {target : Value} (found : values.lookup handle = some target) (failure : JsonFailure) :
    Written values handle (.error failure, values.insert handle target) := by
  refine .inl ⟨fun equal => (nomatch equal), fun other => ?_⟩
  by_cases same : other = handle
  · subst same
    rw [AList.lookup_insert, found]
  · rw [AList.lookup_insert_ne same]

theorem Written.done {before target : Value}
    (found : values.lookup handle = some before) (shallow : ¬depthOf target > maxDepth) :
    Written values handle (.ok (), values.insert handle target) :=
  .inr ⟨rfl, AList.lookup_isSome.1 (by rw [found]; rfl), target, Nat.not_lt.1 shallow, rfl⟩

theorem Entries.restore_insert (entries : Entries) (key : String) (value : Value) :
    restore (insert entries key value).1 key (insert entries key value).2 = entries := by
  cases found : get key entries with
  | none =>
    simp only [insert, found, restore]
    exact remove_add found value
  | some previous =>
    simp only [insert, found, restore, get_replace found value]
    exact replace_replace found value

theorem setValue_written (values : Table Value) (handle : Handle) (key : String) (value : Value) :
    Written values handle (setValue values handle key value) := by
  rw [setValue]
  split
  · exact .failed _
  · next entries found =>
    dsimp only
    rw [Entries.restore_insert]
    split
    · exact .restored found _
    · next shallow => exact .done found shallow
  · exact .failed _

theorem appendValue_written (values : Table Value) (handle : Handle) (value : Value) :
    Written values handle (appendValue values handle value) := by
  rw [appendValue]
  split
  · exact .failed _
  · next items found =>
    dsimp only
    rw [List.dropLast_concat]
    split
    · exact .restored found _
    · next shallow => exact .done found shallow
  · exact .failed _

theorem lt_of_position {items : List Value} {index : Int64} {slot : Nat}
    (found : position items index = .ok slot) : slot < items.length := by
  rw [position] at found
  split at found
  · next bounds =>
    cases found
    exact bounds.2
  · cases found

theorem setAt_written (values : Table Value) (handle : Handle) (index : Int64) (value : Value) :
    Written values handle (setAt values handle index value) := by
  rw [setAt]
  split
  · exact .failed _
  · next items found =>
    split
    · exact .failed _
    · next slot at_slot =>
      have inside := lt_of_position at_slot
      have undone : (items.set slot value).set slot (items.getD slot .null) = items := by
        rw [List.set_set, List.getD_eq_getElem?_getD, List.getElem?_eq_getElem inside, Option.getD_some,
          List.set_getElem_self]
      dsimp only
      rw [undone]
      split
      · exact .restored found _
      · next shallow => exact .done found shallow
  · exact .failed _

/-! ### The ledger of holders -/

/-- A count that the next holder wraps to zero. -/
def fullCount : UInt64 := 0xffffffffffffffff

/-- The handle that one more party holds after an operation. -/
def Operation.gained : Operation → Answer → Option Handle
  | .retain handle, .held true => some handle
  | _, .handle (.ok handle) => some handle
  | _, .copy handle => handle
  | _, _ => none

/-- The handle that one party less holds after an operation. -/
def Operation.dropped : Operation → Answer → Option Handle
  | .release handle, .held true => some handle
  | .moveInto _ _ child, .done (.ok ()) => some child
  | .moveIntoAt _ _ child, .done (.ok ()) => some child
  | .appendMoved _ child, .done (.ok ()) => some child
  | _, _ => none

/-- How many parties hold a handle. -/
abbrev Ledger := Handle → Nat

def Ledger.after (held : Ledger) (operation : Operation) (answer : Answer) : Ledger := fun handle =>
  held handle + (if operation.gained answer = some handle then 1 else 0)
    - (if operation.dropped answer = some handle then 1 else 0)

/-- The count of a handle, zero where there is none. -/
def Documents.count (documents : Documents) (handle : Handle) : Nat :=
  ((documents.holders.lookup handle).map UInt64.toNat).getD 0

variable {documents : Documents}

theorem Documents.count_of_lookup {count : UInt64}
    (found : documents.holders.lookup handle = some count) : documents.count handle = count.toNat := by
  rw [Documents.count, found]
  rfl

theorem Documents.count_of_not_mem (absent : handle ∉ documents.holders) : documents.count handle = 0 := by
  rw [Documents.count, AList.lookup_eq_none.2 absent]
  rfl

/-- The promises of the table, beside the ledger of its holders. -/
structure Sound (documents : Documents) (held : Ledger) : Prop where
  /-- The nesting bound of parsing. -/
  bounded : ∀ handle value, documents.values.lookup handle = some value → ensureDepth value 0 = .ok ()
  counted : ∀ handle, handle ∈ documents.values ↔ handle ∈ documents.holders
  positive : ∀ handle count, documents.holders.lookup handle = some count → 1 ≤ count
  /-- A count is the number of parties that hold the handle. -/
  ledger : ∀ handle, documents.count handle = held handle

/-! ### What the parts of an operation keep -/

namespace Sound

variable {documents : Documents} {held : Ledger}

theorem mem_holders_iff (sound : Sound documents held) (handle : Handle) :
    handle ∈ documents.holders ↔ 0 < held handle := by
  rw [← sound.ledger handle]
  constructor
  · intro present
    obtain ⟨count, found⟩ := Option.isSome_iff_exists.1 (AList.lookup_isSome.2 present)
    rw [Documents.count_of_lookup found]
    exact UInt64.le_iff_toNat_le.1 (sound.positive handle count found)
  · intro positive
    by_contra absent
    rw [Documents.count_of_not_mem absent] at positive
    exact Nat.lt_irrefl 0 positive

theorem mem_values_iff (sound : Sound documents held) (handle : Handle) :
    handle ∈ documents.values ↔ 0 < held handle :=
  (sound.counted handle).trans (sound.mem_holders_iff handle)

theorem store (sound : Sound documents held) {value : Value}
    (fresh : documents.next ∉ documents.holders) (bounded : ensureDepth value 0 = .ok ()) :
    Sound (documents.store value).2 fun handle =>
      held handle + (if documents.next = handle then 1 else 0) where
  bounded := by
    intro handle stored found
    by_cases new : handle = documents.next
    · subst new
      rw [Documents.store, AList.lookup_insert] at found
      cases found
      exact bounded
    · rw [Documents.store, AList.lookup_insert_ne new] at found
      exact sound.bounded handle stored found
  counted := by
    intro handle
    rw [Documents.store, AList.mem_insert, AList.mem_insert, sound.counted handle]
  positive := by
    intro handle count found
    by_cases new : handle = documents.next
    · subst new
      rw [Documents.store, AList.lookup_insert] at found
      cases found
      exact UInt64.le_refl 1
    · rw [Documents.store, AList.lookup_insert_ne new] at found
      exact sound.positive handle count found
  ledger := by
    intro handle
    have before := sound.ledger handle
    by_cases new : handle = documents.next
    · subst new
      have one : (documents.store value).2.holders.lookup documents.next = some 1 := AList.lookup_insert documents.holders
      rw [if_pos rfl, ← before, Documents.count_of_not_mem fresh, Documents.count_of_lookup one]
      rfl
    · rw [if_neg (Ne.symm new), ← before, Documents.store, Documents.count, AList.lookup_insert_ne new]
      rfl

theorem write (sound : Sound documents held) (edit : Table Value → Outcome Unit × Table Value)
    (written : Written documents.values handle (edit documents.values)) :
    Sound (documents.write edit).2 held where
  bounded := by
    intro other value found
    change (edit documents.values).2.lookup other = some value at found
    rcases written with ⟨-, same⟩ | ⟨-, -, target, shallow, changed⟩
    · rw [same other] at found
      exact sound.bounded other value found
    · rw [changed] at found
      by_cases here : other = handle
      · subst here
        rw [AList.lookup_insert] at found
        cases found
        exact ensureDepth_of_depthOf (by omega)
      · rw [AList.lookup_insert_ne here] at found
        exact sound.bounded other value found
  counted := by
    intro other
    change other ∈ (edit documents.values).2 ↔ other ∈ documents.holders
    rw [← sound.counted other]
    rcases written with ⟨-, same⟩ | ⟨-, present, target, -, changed⟩
    · rw [← AList.lookup_isSome, same other, AList.lookup_isSome]
    · rw [changed, AList.mem_insert]
      constructor
      · rintro (rfl | old)
        · exact present
        · exact old
      · exact .inr
  positive := sound.positive
  ledger := sound.ledger

theorem retain (sound : Sound documents held) (room : documents.holders.lookup handle ≠ some fullCount) :
    Sound (documents.retain handle).2 fun other =>
      held other + (if (documents.retain handle).1 ∧ handle = other then 1 else 0) := by
  rw [Documents.retain]
  split
  · next count found =>
    have notFull : count.toNat ≠ 2 ^ 64 - 1 := by
      intro full
      apply room
      rw [found, ← UInt64.toNat_inj.1 (show count.toNat = fullCount.toNat from full)]
    have raised : (count + 1).toNat = count.toNat + 1 := by
      have below := count.toNat_lt
      rw [UInt64.toNat_add]
      simp only [UInt64.reduceToNat]
      omega
    refine ⟨sound.bounded, fun other => ?_, fun other count' found' => ?_, fun other => ?_⟩
    · rw [AList.mem_insert, sound.counted other]
      constructor
      · exact .inr
      · rintro (rfl | old)
        · exact AList.lookup_isSome.1 (by rw [found]; rfl)
        · exact old
    · by_cases here : other = handle
      · subst here
        rw [AList.lookup_insert] at found'
        cases found'
        rw [UInt64.le_iff_toNat_le, raised]
        exact Nat.succ_pos _
      · rw [AList.lookup_insert_ne here] at found'
        exact sound.positive other count' found'
    · have before := sound.ledger other
      by_cases here : other = handle
      · subst here
        rw [Documents.count_of_lookup found] at before
        rw [if_pos ⟨rfl, rfl⟩, ← before, ← raised]
        exact Documents.count_of_lookup (AList.lookup_insert documents.holders)
      · rw [if_neg fun both => here both.2.symm, ← before, Documents.count, AList.lookup_insert_ne here]
        rfl
  · next absent =>
    simpa using sound

theorem release (sound : Sound documents held) (handle : Handle) :
    Sound (documents.release handle).2 fun other =>
      held other - (if (documents.release handle).1 ∧ handle = other then 1 else 0) := by
  rw [Documents.release]
  split
  · next count found =>
    have here := sound.ledger handle
    rw [Documents.count_of_lookup found] at here
    have positive := UInt64.le_iff_toNat_le.1 (sound.positive handle count found)
    have lowered : (count - 1).toNat = count.toNat - 1 := UInt64.toNat_sub_of_le _ _ (sound.positive handle count found)
    split
    · next last =>
      have one : count.toNat = 1 := by
        have zero := congrArg UInt64.toNat last
        rw [lowered] at zero
        simp only [UInt64.reduceToNat] at zero positive
        omega
      refine ⟨fun other value found' => ?_, fun other => ?_, fun other count' found' => ?_, fun other => ?_⟩
      · by_cases same : other = handle
        · subst same
          simp at found'
        · rw [AList.lookup_erase_ne same] at found'
          exact sound.bounded other value found'
      · rw [AList.mem_erase, AList.mem_erase, sound.counted other]
      · by_cases same : other = handle
        · subst same
          simp at found'
        · rw [AList.lookup_erase_ne same] at found'
          exact sound.positive other count' found'
      · by_cases same : other = handle
        · subst same
          rw [if_pos ⟨rfl, rfl⟩, ← here, one, Documents.count, AList.lookup_erase]
          rfl
        · rw [if_neg fun both => same both.2.symm, ← sound.ledger other, Documents.count, AList.lookup_erase_ne same]
          rfl
    · next more =>
      have many : 2 ≤ count.toNat := by
        by_contra few
        apply more
        apply UInt64.toNat_inj.1
        rw [lowered]
        simp only [UInt64.reduceToNat]
        omega
      refine ⟨sound.bounded, fun other => ?_, fun other count' found' => ?_, fun other => ?_⟩
      · rw [AList.mem_insert, sound.counted other]
        constructor
        · exact .inr
        · rintro (rfl | old)
          · exact AList.lookup_isSome.1 (by rw [found]; rfl)
          · exact old
      · by_cases same : other = handle
        · subst same
          rw [AList.lookup_insert] at found'
          cases found'
          rw [UInt64.le_iff_toNat_le, lowered]
          simp only [UInt64.reduceToNat]
          omega
        · rw [AList.lookup_insert_ne same] at found'
          exact sound.positive other count' found'
      · by_cases same : other = handle
        · subst same
          rw [if_pos ⟨rfl, rfl⟩, ← here, ← lowered]
          exact Documents.count_of_lookup (AList.lookup_insert documents.holders)
        · rw [if_neg fun both => same both.2.symm, ← sound.ledger other, Documents.count, AList.lookup_insert_ne same]
          rfl
  · next absent =>
    simpa using sound

theorem of_ledger (sound : Sound documents held) {held' : Ledger}
    (same : ∀ handle, held handle = held' handle) : Sound documents held' :=
  ⟨sound.bounded, sound.counted, sound.positive, fun handle => (sound.ledger handle).trans (same handle)⟩

theorem moveChild (sound : Sound documents held) {parent child : Handle}
    {edit : Value → Table Value → Outcome Unit × Table Value}
    (written : ∀ value values, Written values parent (edit value values)) :
    ∀ outcome after, documents.moveChild parent child edit = (outcome, after) →
      Sound after fun other => held other - (if outcome.isOk ∧ child = other then 1 else 0) := by
  rw [Documents.moveChild]
  split
  · rintro _ _ ⟨⟩
    exact sound.of_ledger fun other => by simp [Except.isOk, Except.toBool]
  · next apart =>
    split
    · rintro _ _ ⟨⟩
      exact sound.of_ledger fun other => by simp [Except.isOk, Except.toBool]
    · next value found =>
      have present : 0 < held child :=
        (sound.mem_values_iff child).1 (AList.lookup_isSome.1 (by rw [← Documents.document, found]; rfl))
      have changed := sound.write (edit value) (written value documents.values)
      generalize documents.write (edit value) = done at changed
      obtain ⟨failure | ⟨⟩, after⟩ := done
      · rintro _ _ ⟨⟩
        exact changed.of_ledger fun other => by simp [Except.isOk, Except.toBool]
      · rintro _ _ ⟨⟩
        have live : child ∈ after.holders := (changed.mem_holders_iff child).2 present
        have released : (after.release child).1 = true := by
          obtain ⟨count, counted⟩ := Option.isSome_iff_exists.1 (AList.lookup_isSome.2 live)
          rw [Documents.release, counted]
          dsimp only
          split <;> rfl
        exact (changed.release child).of_ledger fun other => by
          simp [released, Except.isOk, Except.toBool]

end Sound

theorem getValue_bounded {held : Ledger} (sound : Sound documents held) {key expected : String} {value : Value}
    (read : getValue documents.values handle key expected some = .ok value) :
    ensureDepth value 0 = .ok () := by
  rw [getValue] at read
  split at read
  · cases read
  · next target found =>
    have bounded := sound.bounded handle target found
    cases target with
    | object entries =>
      dsimp only at read
      split at read
      · cases read
      · next member under =>
        cases read
        rw [ensureDepth_object, ensureDepthEntries_iff] at bounded
        exact ensureDepth_mono (Nat.zero_le 1) (bounded.2 _ (Entries.mem_of_get under))
    | _ => cases read

theorem element_bounded {held : Ledger} (sound : Sound documents held) {index : Int64} {expected : String} {value : Value}
    (read : element documents.values handle index expected some = .ok value) :
    ensureDepth value 0 = .ok () := by
  rw [element] at read
  split at read
  · cases read
  · next items found =>
    have bounded := sound.bounded handle _ found
    split at read
    · cases read
    · next slot at_slot =>
      cases read
      rw [ensureDepth_array, ensureDepthItems_iff] at bounded
      have inside := lt_of_position at_slot
      rw [List.getD_eq_getElem?_getD, List.getElem?_eq_getElem inside]
      exact ensureDepth_mono (Nat.zero_le 1) (bounded.2 _ (List.getElem_mem inside))
  · cases read

/-! ### One operation -/

/-- The operations that store a new document when they succeed. -/
def Operation.stores : Operation → Bool
  | .parse _ | .object | .array | .allocate | .clone _ | .getJson _ _ | .getJsonAt _ _ => true
  | _ => false

/-- No new handle is still held, and no count is full when it is raised. -/
def Allowed (documents : Documents) : Operation → Prop
  | .retain handle => documents.holders.lookup handle ≠ some fullCount
  | operation => operation.stores → documents.next ∉ documents.holders

instance (documents : Documents) (operation : Operation) : Decidable (Allowed documents operation) := by
  cases operation <;> unfold Allowed <;> infer_instance

variable (serde : SerdeJson)

namespace Sound

variable {documents : Documents} {held : Ledger} {operation : Operation} {answer : Answer}

theorem after_unchanged (sound : Sound documents held) (gained : operation.gained answer = none)
    (dropped : operation.dropped answer = none) : Sound documents (held.after operation answer) :=
  sound.of_ledger fun handle => by simp [Ledger.after, gained, dropped]

theorem after_store (sound : Sound documents held) {value : Value}
    (fresh : documents.next ∉ documents.holders) (bounded : ensureDepth value 0 = .ok ())
    (gained : operation.gained answer = some documents.next)
    (dropped : operation.dropped answer = none) :
    Sound (documents.store value).2 (held.after operation answer) :=
  (sound.store fresh bounded).of_ledger fun handle => by simp [Ledger.after, gained, dropped]

theorem after_storeRead (sound : Sound documents held) {read : Outcome Value} (fresh : documents.next ∉ documents.holders)
    (bounded : ∀ value, read = .ok value → ensureDepth value 0 = .ok ())
    (gained : ∀ handle, operation.gained (.handle (.ok handle)) = some handle)
    (failed : ∀ failure, operation.gained (.handle (.error failure)) = none)
    (dropped : ∀ outcome, operation.dropped (.handle outcome) = none) :
    Sound (documents.storeRead read).2
      (held.after operation (.handle (documents.storeRead read).1)) := by
  cases read with
  | ok value => exact sound.after_store fresh (bounded value rfl) (gained _) (dropped _)
  | error failure => exact sound.after_unchanged (failed failure) (dropped _)

theorem after_moveChild (sound : Sound documents held) {parent child : Handle}
    {edit : Value → Table Value → Outcome Unit × Table Value}
    (written : ∀ value values, Written values parent (edit value values))
    (gained : ∀ outcome, operation.gained (.done outcome) = none)
    (moved : operation.dropped (.done (.ok ())) = some child)
    (failed : ∀ failure, operation.dropped (.done (.error failure)) = none) :
    Sound (documents.moveChild parent child edit).2
      (held.after operation (.done (documents.moveChild parent child edit).1)) := by
  generalize result : documents.moveChild parent child edit = done
  obtain ⟨outcome, after⟩ := done
  refine (sound.moveChild written outcome after result).of_ledger fun handle => ?_
  cases outcome with
  | ok => simp [Ledger.after, gained, moved, Except.isOk, Except.toBool]
  | error failure => simp [Ledger.after, gained, failed, Except.isOk, Except.toBool]

theorem perform (sound : Sound documents held) (allowed : Allowed documents operation) :
    Sound (perform serde documents operation).2
      (held.after operation (Json.perform serde documents operation).1) := by
  cases operation with
  | parse text =>
    rw [Json.perform, Documents.parseDocument]
    split
    · next value parsed =>
      exact sound.after_store (allowed rfl) (ensureDepth_parse serde parsed) rfl rfl
    · exact sound.after_unchanged rfl rfl
  | stringify handle => exact sound.after_unchanged rfl rfl
  | object => exact sound.after_store (allowed rfl) rfl rfl rfl
  | array => exact sound.after_store (allowed rfl) rfl rfl rfl
  | allocate => exact sound.after_store (allowed rfl) rfl rfl rfl
  | clone handle =>
    rw [Json.perform, Documents.cloneDocument]
    split
    · next value found =>
      exact sound.after_store (allowed rfl) (sound.bounded handle value found) rfl rfl
    · exact sound.after_unchanged rfl rfl
  | getJson handle key =>
    exact sound.after_storeRead (allowed rfl) (fun _ => getValue_bounded sound) (fun _ => rfl)
      (fun _ => rfl) (fun _ => rfl)
  | getJsonAt handle index =>
    exact sound.after_storeRead (allowed rfl) (fun _ => element_bounded sound) (fun _ => rfl)
      (fun _ => rfl) (fun _ => rfl)
  | setValue handle key value =>
    have written := setValue_written documents.values handle key value
    refine (sound.write (Json.setValue · handle key value) written).after_unchanged ?_ ?_ <;> rfl
  | setAt handle index value =>
    have written := setAt_written documents.values handle index value
    refine (sound.write (Json.setAt · handle index value) written).after_unchanged ?_ ?_ <;> rfl
  | appendValue handle value =>
    have written := appendValue_written documents.values handle value
    refine (sound.write (Json.appendValue · handle value) written).after_unchanged ?_ ?_ <;> rfl
  | moveInto parent key child =>
    exact sound.after_moveChild (fun value values => setValue_written values parent key value)
      (fun _ => rfl) rfl (fun _ => rfl)
  | moveIntoAt parent index child =>
    exact sound.after_moveChild (fun value values => setAt_written values parent index value)
      (fun _ => rfl) rfl (fun _ => rfl)
  | appendMoved parent child =>
    exact sound.after_moveChild (fun value values => appendValue_written values parent value)
      (fun _ => rfl) rfl (fun _ => rfl)
  | retain handle =>
    refine (sound.retain allowed).of_ledger fun other => ?_
    change _ = held.after (.retain handle) (.held (documents.retain handle).1) other
    cases (documents.retain handle).1 <;> simp [Ledger.after, Operation.gained, Operation.dropped]
  | release handle =>
    refine (sound.release handle).of_ledger fun other => ?_
    change _ = held.after (.release handle) (.held (documents.release handle).1) other
    cases (documents.release handle).1 <;> simp [Ledger.after, Operation.gained, Operation.dropped]
  | elsewhere =>
    exact (show Sound { documents with next := documents.next + 1 } held from
      ⟨sound.bounded, sound.counted, sound.positive, sound.ledger⟩).after_unchanged rfl rfl

end Sound

/-! ### Runs -/

/-- The empty table of a new module copy, with the counter of the process. -/
def start (next : UInt64) : Documents × Ledger := (⟨∅, ∅, next⟩, fun _ => 0)

def next (state : Documents × Ledger) (operation : Operation) : Documents × Ledger :=
  let done := perform serde state.1 operation
  (done.2, state.2.after operation done.1)

/-- The table and the ledger beside it, one operation after another. -/
def system (first : UInt64) : System (Documents × Ledger) Operation := .ofFunction (start first) (next serde)

/-- The runs that wrap no counter. -/
def unwrapped (first : UInt64) : System (Documents × Ledger) Operation :=
  (system serde first).restrict fun state operation => Allowed state.1 operation

theorem Sound.start (first : UInt64) : Sound (start first).1 (start first).2 where
  bounded _ _ found := by cases found
  counted _ := Iff.rfl
  positive _ _ found := by cases found
  ledger _ := rfl

theorem Sound.of_reachable {first : UInt64} {state : Documents × Ledger}
    (reached : (unwrapped serde first).Reachable state) : Sound state.1 state.2 := by
  refine reached.invariant (P := fun state => Sound state.1 state.2) ?_ ?_
  · rintro _ rfl
    exact .start first
  · rintro state operation _ sound ⟨allowed, rfl⟩
    exact sound.perform serde allowed

theorem Operation.dropped_eq_none {operation : Operation} {answer : Answer}
    (gained : operation.gained answer = some handle) : operation.dropped answer = none := by
  cases operation <;> cases answer <;> simp_all [Operation.gained, Operation.dropped]

/-- In every run that wraps no counter the table keeps its promises, and an operation frees a document
exactly when it drops the last of its holders. -/
theorem documents_sound {first : UInt64} {state : Documents × Ledger} (reached : (unwrapped serde first).Reachable state) :
    Sound state.1 state.2 ∧ ∀ operation, Allowed state.1 operation → ∀ handle ∈ state.1.values,
        (handle ∉ (next serde state operation).1.values ↔ state.2 handle = 1 ∧
            operation.dropped (perform serde state.1 operation).1 = some handle) := by
  have sound := Sound.of_reachable serde reached
  refine ⟨sound, fun operation allowed handle present => ?_⟩
  have stored : 0 < state.2 handle := (sound.mem_values_iff handle).1 present
  have after := sound.perform serde allowed
  rw [next, after.mem_values_iff handle, Ledger.after]
  generalize (perform serde state.1 operation).1 = answer
  by_cases dropped : operation.dropped answer = some handle
  · have gained : operation.gained answer ≠ some handle := by
      intro gained
      rw [Operation.dropped_eq_none gained] at dropped
      cases dropped
    rw [if_neg gained, if_pos dropped]
    constructor
    · intro freed
      exact ⟨by omega, dropped⟩
    · rintro ⟨last, -⟩
      omega
  · rw [if_neg dropped]
    constructor
    · intro freed
      omega
    · rintro ⟨-, freed⟩
      exact absurd freed dropped

/-- The parser for the one text of the run below; the run prints nothing. -/
def nestedText : SerdeJson where
  fromStr text := if text = "[[]]" then .seq [.seq [] none] none else .failure "expected value"
  located _ message := message
  ending _ := none
  render _ := .error "not rendered"

/-- A parsed document moves into an object, is read back, bound twice and released once. -/
theorem documents_sound_moved :
    let state := [.parse "[[]]", .object, .moveInto 2 "list" 1, .getJson 2 "list", .retain 3].foldl
      (next nestedText) (start 1)
    Sound state.1 state.2 ∧ ∀ operation, Allowed state.1 operation → ∀ handle ∈ state.1.values,
        (handle ∉ (next nestedText state operation).1.values ↔ state.2 handle = 1 ∧
            operation.dropped (perform nestedText state.1 operation).1 = some handle) := by
  refine documents_sound nestedText (show (unwrapped nestedText 1).Reachable _ from ?_)
  exact System.Reachable.foldl_restrict (.initial rfl)
    ⟨by decide, by decide, by decide, by decide, by decide, trivial⟩

/-! The counters wrap in the runs that are left out. -/

/-- A document that is bound until its count is full, and once more. -/
def fullRun : List Operation := .object :: List.replicate (2 ^ 64 - 1) (.retain 1)

/-- A document that is held while the copies of the process use up the other handles. -/
def wrappedRun : List Operation := .object :: (List.replicate (2 ^ 64 - 1) .elsewhere ++ [.object])

theorem lookup_retains {state : Documents × Ledger} {count : UInt64}
    (found : state.1.holders.lookup handle = some count) (n : Nat) :
    ((List.replicate n (.retain handle)).foldl (next serde) state).1.holders.lookup handle = some (count + .ofNat n) := by
  induction n generalizing state count with
  | zero => simpa using found
  | succ n ih =>
    have raised : (next serde state (.retain handle)).1.holders.lookup handle = some (count + 1) := by
      simp [next, perform, Documents.retain, found]
    rw [List.replicate_succ, List.foldl_cons, ih raised]
    congr 1
    rw [UInt64.ofNat_add, UInt64.add_assoc, UInt64.add_comm 1]
    rfl

theorem foldl_elsewhere (state : Documents × Ledger) (n : Nat) : (List.replicate n .elsewhere).foldl (next serde) state =
      ({ state.1 with next := state.1.next + .ofNat n }, state.2) := by
  induction n generalizing state with
  | zero => simp
  | succ n ih =>
    have moved : next serde state .elsewhere = ({ state.1 with next := state.1.next + 1 }, state.2) := by
      rfl
    rw [List.replicate_succ, List.foldl_cons, ih, moved]
    simp only [Prod.mk.injEq, Documents.mk.injEq, true_and, and_true]
    rw [UInt64.ofNat_add, UInt64.add_assoc, UInt64.add_comm 1]
    rfl

/-- The table and the ledger after a run. -/
def ran (operations : List Operation) : Documents × Ledger := operations.foldl (next nestedText) (start 1)

theorem fullRun_not_sound : ¬Sound (ran fullRun).1 (ran fullRun).2 := by
  intro sound
  have zero := lookup_retains nestedText
    (show (next nestedText (start 1) .object).1.holders.lookup 1 = some 1 from rfl) (2 ^ 64 - 1)
  have positive := sound.positive 1
  rw [ran, fullRun, List.foldl_cons] at positive
  exact absurd (positive _ zero) (by decide)

theorem wrappedRun_not_sound : ¬Sound (ran wrappedRun).1 (ran wrappedRun).2 := by
  intro sound
  have again := sound.ledger 1
  have back : (next nestedText (start 1) .object).1.next + .ofNat (2 ^ 64 - 1) = 1 :=
    show (2 : UInt64) + .ofNat (2 ^ 64 - 1) = 1 by decide
  rw [ran, wrappedRun, List.foldl_cons, List.foldl_append, foldl_elsewhere, back] at again
  exact absurd again (by decide)

theorem documents_not_sound : ((system nestedText 1).Reachable (ran fullRun) ∧ ¬Sound (ran fullRun).1 (ran fullRun).2) ∧
      (system nestedText 1).Reachable (ran wrappedRun) ∧ ¬Sound (ran wrappedRun).1 (ran wrappedRun).2 := by
  refine ⟨⟨?_, fullRun_not_sound⟩, ?_, wrappedRun_not_sound⟩
  · exact (System.Reachable.initial rfl).foldl fullRun
  · exact (System.Reachable.initial rfl).foldl wrappedRun

end BasicNext.Json
