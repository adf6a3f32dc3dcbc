import BasicNext.Lib.Except
import BasicNext.Data.Frame
import Mathlib.Data.List.Nodup
import Mathlib.Order.Nat
import Std.Data.String.ToNat

/-!
# Well-formed data frames

A frame is well formed when its columns have one length and their names are distinct. An operation that
makes a new frame from well-formed frames ensures that the new frame is well formed, or fails with an
error value; one that changes its receiver in place keeps it well formed, or leaves it as it was.
-/

namespace BasicNext.Data

open BasicNext.Lib

variable {α β γ : Type} {frame left right : DataFrameResource α} {columns : List (DataFrameColumn α)}

/-! ### Well-formed frames -/

structure DataFrameResource.WellFormed (frame : DataFrameResource α) : Prop where
  rows : ∀ column ∈ frame.columns, column.values.length = frame.rowCount
  names : frame.names.Nodup

/-- An error value, not a panic. -/
def Fault.IsFailure (fault : Fault) : Prop := fault ≠ .outOfRange

theorem wellFormed_of_length {length : Nat} (rows : ∀ column ∈ columns, column.values.length = length)
    (names : (columns.map DataFrameColumn.name).Nodup) :
    (DataFrameResource.mk columns).WellFormed := by
  refine ⟨fun column member => ?_, names⟩
  cases columns with
  | nil => exact absurd member List.not_mem_nil
  | cons first rest =>
    have here := rows first List.mem_cons_self
    rw [rows column member]
    exact here.symm

theorem isFailure_failure (failure : DataFailure) : (Fault.failure failure).IsFailure :=
  fun h => by cases h

theorem getAt_ensures {xs : List β} {position : Nat} (inside : position < xs.length) :
    Ensures (fun x => x ∈ xs ∧ xs[position]? = some x) Fault.IsFailure (getAt xs position) := by
  have found := List.getElem?_eq_getElem inside
  unfold getAt
  rw [found]
  exact ⟨List.getElem_mem inside, rfl⟩

theorem mapM_length {f : β → Except Fault γ} {l : List β} (each : ∀ a ∈ l, Ensures (fun _ => True) Fault.IsFailure (f a)) :
    Ensures (fun values => values.length = l.length) Fault.IsFailure (l.mapM f) :=
  (Ensures.mapM each).mono fun _ results => results.length_eq.symm

theorem mapM_columns {f : β → Except Fault (DataFrameColumn α)} {l : List β} (name : β → String) (length : Nat)
    (each : ∀ a ∈ l, Ensures (fun column => column.name = name a ∧ column.values.length = length)
      Fault.IsFailure (f a)) :
    Ensures (fun columns => columns.map DataFrameColumn.name = l.map name
        ∧ ∀ column ∈ columns, column.values.length = length) Fault.IsFailure (l.mapM f) := by
  refine (Ensures.mapM each).mono fun columns results => ?_
  clear each
  induction results with
  | nil => simp
  | cons here _ ih =>
    obtain ⟨names, lengths⟩ := ih
    refine ⟨?_, List.forall_mem_cons.2 ⟨here.2, lengths⟩⟩
    rw [List.map_cons, List.map_cons, here.1, names]

theorem firstDuplicateFrom_eq_none {seen : List String} : firstDuplicateFrom seen columns = none ↔
    (columns.map DataFrameColumn.name).Nodup ∧ ∀ column ∈ columns, column.name ∉ seen := by
  induction columns generalizing seen with
  | nil => simp [firstDuplicateFrom]
  | cons column columns ih =>
    rw [firstDuplicateFrom]
    by_cases known : column.name ∈ seen
    · simp [known]
    · rw [if_neg known, ih]
      rw [List.map_cons, List.nodup_cons, List.forall_mem_cons]
      simp only [List.mem_map, List.mem_cons, not_or]
      constructor
      · rintro ⟨nodup, fresh⟩
        refine ⟨⟨?_, nodup⟩, known, fun other member => (fresh other member).2⟩
        rintro ⟨other, member, same⟩
        exact (fresh other member).1 same
      · rintro ⟨⟨unique, nodup⟩, -, fresh⟩
        refine ⟨nodup, fun other member => ⟨fun same => ?_, fresh other member⟩⟩
        exact unique ⟨other, member, same⟩

theorem rejectDuplicate_ensures {length : Nat} (rows : ∀ column ∈ columns, column.values.length = length) :
    Ensures DataFrameResource.WellFormed Fault.IsFailure (rejectDuplicate columns) := by
  unfold rejectDuplicate
  split
  · exact isFailure_failure _
  · next distinct =>
    have nodup := (firstDuplicateFrom_eq_none.1 distinct).1
    exact wellFormed_of_length rows nodup

/-! ### New frames -/

theorem checkedIndices_ensures {indices : List Int} {count : Nat} :
    Ensures (fun rows => ∀ row ∈ rows, row < count) (fun _ => True) (checkedIndices indices count) := by
  refine Ensures.mapM_all fun index _ => ?_
  exact .ite (fun inside => inside.2) fun _ => trivial

theorem selectDataframe_ensures (wellFormed : frame.WellFormed) (rowIndices columnIndices : List Int) :
    Ensures DataFrameResource.WellFormed Fault.IsFailure
      (selectDataframe frame rowIndices columnIndices) := by
  refine (checkedIndices_ensures.mapError fun _ _ => isFailure_failure _).bind fun rows inRows => ?_
  refine (checkedIndices_ensures.mapError fun _ _ => isFailure_failure _).bind
    fun positions inColumns => ?_
  refine (Ensures.mapM_all (P := fun column => column.values.length = rows.length)
    fun position member => ?_).bind fun columns lengths => rejectDuplicate_ensures lengths
  refine (getAt_ensures (inColumns position member)).bind fun source found => ?_
  refine (mapM_length fun row member => ?_).bind fun values length => length
  have inside := inRows row member
  rw [← wellFormed.rows source found.1] at inside
  exact (getAt_ensures inside).mono fun _ _ => trivial

theorem appendRows_ensures (leftWell : left.WellFormed) (rightWell : right.WellFormed)
    (isNotAvailable : α → Bool) (sameType : α → α → Bool) :
    Ensures DataFrameResource.WellFormed Fault.IsFailure
      (appendRows left right isNotAvailable sameType) := by
  unfold appendRows
  refine Ensures.ite (fun _ => isFailure_failure _) fun layout => ?_
  rw [not_or, not_not] at layout
  refine (mapM_columns (fun pair => pair.1.name) (left.rowCount + right.rowCount)
    fun pair member => ?_).bind fun columns results => ?_
  · obtain ⟨column, other⟩ := pair
    obtain ⟨inLeft, inRight⟩ := List.of_mem_zip member
    refine Ensures.ite (fun _ => isFailure_failure _) fun _ => ⟨rfl, ?_⟩
    show (column.values ++ other.values).length = _
    rw [List.length_append, leftWell.rows column inLeft, rightWell.rows other inRight]
  · obtain ⟨names, lengths⟩ := results
    refine wellFormed_of_length lengths ?_
    have same : (left.columns.zip right.columns).map (fun pair => pair.1.name) = left.names := by
      show _ = left.columns.map DataFrameColumn.name
      conv_rhs => rw [← List.map_fst_zip layout.1.le, List.map_map]
      rfl
    rw [names, same]
    exact leftWell.names

theorem appendColumns_ensures (leftWell : left.WellFormed) (rightWell : right.WellFormed) :
    Ensures DataFrameResource.WellFormed Fault.IsFailure (appendColumns left right) := by
  unfold appendColumns
  refine Ensures.ite (fun _ => isFailure_failure _) fun rows => ?_
  rw [not_not] at rows
  dsimp only
  split
  · exact isFailure_failure _
  · next distinct =>
    have lengths : ∀ column ∈ left.columns ++ right.columns, column.values.length = left.rowCount := by
      intro column member
      rcases List.mem_append.1 member with inLeft | inRight
      · exact leftWell.rows column inLeft
      · rw [rightWell.rows column inRight, rows]
    refine wellFormed_of_length lengths ?_
    rw [List.map_append, List.nodup_append]
    refine ⟨leftWell.names, rightWell.names, ?_⟩
    rintro name inLeft _ inRight rfl
    have none := List.find?_eq_none.1 distinct name inLeft
    exact none (List.any_eq_true.2 ⟨name, inRight, beq_self_eq_true name⟩)

theorem row_name_injective : Function.Injective fun row : Nat => "Row" ++ Nat.repr row := by
  intro row row' same
  exact Nat.repr_injective (String.append_right_inj "Row" |>.1 same)

theorem transposeDataframe_ensures (wellFormed : frame.WellFormed) (render : α → String) (makeString : String → α) :
    Ensures DataFrameResource.WellFormed Fault.IsFailure
      (transposeDataframe frame render makeString) := by
  refine (mapM_columns (fun row => "Row" ++ Nat.repr row) frame.columns.length fun row member => ?_).bind
    fun columns results => ?_
  · refine (mapM_length fun column inFrame => ?_).bind fun values length => ⟨rfl, length⟩
    have inside := List.mem_range.1 member
    rw [← wellFormed.rows column inFrame] at inside
    exact (getAt_ensures inside).bind fun _ _ => trivial
  · obtain ⟨names, lengths⟩ := results
    refine wellFormed_of_length (List.forall_mem_cons.2 ⟨List.length_map .., lengths⟩) ?_
    rw [List.map_cons, names, List.nodup_cons]
    refine ⟨fun member => ?_, List.nodup_range.map row_name_injective⟩
    obtain ⟨row, -, same⟩ := List.mem_map.1 member
    have first := congrArg (fun name : String => name.toList.head?) same
    simp at first

/-! ### Slices, CSV rows and missing values -/

theorem rangeAt_ensures {xs : List β} {start len : Nat} (inside : start + len ≤ xs.length) :
    Ensures (fun part => part.length = len ∧ part.Sublist xs) Fault.IsFailure (rangeAt xs start len) := by
  rw [rangeAt, if_pos inside]
  refine ⟨?_, (List.take_sublist _ _).trans (List.drop_sublist _ _)⟩
  rw [List.length_take, List.length_drop]
  omega

theorem checkSlice_ensures {start len total : Nat} {dim : String} :
    Ensures (fun _ => len = 0 ∨ start + len ≤ total) Fault.IsFailure (checkSlice start len total dim) := by
  refine Ensures.ite (fun inside => ?_) fun _ => isFailure_failure _
  show len = 0 ∨ start + len ≤ total
  omega

theorem sliceBound_ensures {value : Int} :
    Ensures (fun _ => True) Fault.IsFailure (sliceBound value) :=
  .ite (fun _ => trivial) fun _ => isFailure_failure _

theorem reserve_ensures {reserves : Nat → Bool} {number : Nat} :
    Ensures (fun _ => True) Fault.IsFailure (reserve reserves number) :=
  .ite (fun _ => trivial) fun _ => isFailure_failure _

theorem sliceDataframe_ensures (wellFormed : frame.WellFormed) (reserves : Nat → Bool)
    (startRow rowCount startColumn columnCount : Int) :
    Ensures DataFrameResource.WellFormed Fault.IsFailure
      (sliceDataframe reserves frame startRow rowCount startColumn columnCount) := by
  refine sliceBound_ensures.bind fun startRow _ => sliceBound_ensures.bind fun rowCount _ => ?_
  refine sliceBound_ensures.bind fun startColumn _ => sliceBound_ensures.bind fun columnCount _ => ?_
  refine checkSlice_ensures.bind fun _ rows => checkSlice_ensures.bind fun _ columns => ?_
  refine reserve_ensures.bind fun _ _ => ?_
  refine Ensures.ite (fun _ => ⟨fun _ member => (nomatch member), List.nodup_nil⟩) fun nonempty => ?_
  refine (rangeAt_ensures (columns.resolve_left nonempty)).bind fun sources part => ?_
  refine (mapM_columns (fun entry => entry.1.name) rowCount fun entry member => ?_).bind
    fun columns results => ?_
  · obtain ⟨source, number⟩ := entry
    have inFrame : source ∈ frame.columns := part.2.subset (List.fst_mem_of_mem_zipIdx member)
    refine reserve_ensures.bind fun _ _ => ?_
    refine Ensures.ite (fun empty => ⟨rfl, empty.symm⟩) fun nonempty => ?_
    have inside := rows.resolve_left nonempty
    rw [← wellFormed.rows source inFrame] at inside
    exact (rangeAt_ensures inside).bind fun values part => ⟨rfl, part.1⟩
  · obtain ⟨names, lengths⟩ := results
    refine wellFormed_of_length lengths ?_
    have same : sources.zipIdx.map (fun entry => entry.1.name) = sources.map DataFrameColumn.name := by
      conv_rhs => rw [← List.zipIdx_map_fst 0 sources, List.map_map]
      rfl
    rw [names, same]
    exact wellFormed.names.sublist (part.2.map _)

theorem csvColumns_ensures {headers : List String} {rows : List (List String)} {width : Nat}
    {value : String → α} (even : ∀ row ∈ rows, row.length = width) :
    Ensures (fun columns => ∀ column ∈ columns, column.values.length = rows.length) Fault.IsFailure
      (csvColumns headers rows width value) := by
  refine Ensures.mapM_all fun position member => ?_
  refine (mapM_length fun row inRows => ?_).bind fun values length => length
  have inside := List.mem_range.1 member
  rw [← even row inRows] at inside
  exact (getAt_ensures inside).bind fun _ _ => trivial

theorem frameFromCsvRows_ensures (rows : List (List String)) (hasHeader : Bool) (value : String → α) :
    Ensures DataFrameResource.WellFormed Fault.IsFailure (frameFromCsvRows rows hasHeader value) := by
  unfold frameFromCsvRows
  refine Ensures.ite (fun _ => isFailure_failure _) fun _ => ?_
  dsimp only
  split
  · exact isFailure_failure _
  · next even =>
    refine (csvColumns_ensures fun row member => ?_).bind fun columns lengths =>
      rejectDuplicate_ensures lengths
    simpa using List.find?_eq_none.1 even row member

theorem dropNotAvailable_ensures (wellFormed : frame.WellFormed) (isNotAvailable : α → Bool) :
    Ensures DataFrameResource.WellFormed Fault.IsFailure (dropNotAvailable frame isNotAvailable) := by
  refine Ensures.bind (Q := fun complete => ∀ row ∈ complete, row < frame.rowCount) ?_
    fun complete inRows => ?_
  · refine Ensures.foldlM (fun _ member => nomatch member) fun kept row member inRows => ?_
    have inside := List.mem_range.1 member
    refine (Ensures.allM fun column inFrame => ?_).bind fun complete _ => ?_
    · rw [← wellFormed.rows column inFrame] at inside
      exact (getAt_ensures inside).bind fun _ _ => trivial
    · cases complete with
      | false => exact inRows
      | true =>
        intro other member
        rcases List.mem_append.1 member with old | new
        · exact inRows other old
        · rw [List.mem_singleton.1 new]
          exact inside
  · refine (mapM_columns DataFrameColumn.name complete.length fun column inFrame => ?_).bind
      fun columns results => ?_
    · refine (mapM_length fun row member => ?_).bind fun values length => ⟨rfl, length⟩
      have inside := inRows row member
      rw [← wellFormed.rows column inFrame] at inside
      exact (getAt_ensures inside).mono fun _ _ => trivial
    · refine wellFormed_of_length results.2 ?_
      rw [results.1]
      exact wellFormed.names

/-! ### Changes in place -/

theorem findMut_eq_some {p : β → Bool} {xs before after : List β} {x : β}
    (h : findMut p xs = some (before, x, after)) : xs = before ++ x :: after ∧ p x = true := by
  induction xs generalizing before with
  | nil => cases h
  | cons y ys ih =>
    rw [findMut] at h
    by_cases here : p y = true
    · rw [if_pos here] at h
      cases h
      exact ⟨rfl, here⟩
    · rw [if_neg here] at h
      obtain ⟨⟨before', x', after'⟩, found, same⟩ := Option.map_eq_some_iff.1 h
      cases same
      obtain ⟨rfl, holds⟩ := ih found
      exact ⟨rfl, holds⟩

def KeepsInPlace (frame : DataFrameResource α) : DataFrameResource α × Except Fault Unit → Prop
  | (after, .ok ()) => after.WellFormed
  | (after, .error fault) => after = frame ∧ fault.IsFailure

theorem replace_column {before after : List (DataFrameColumn α)} {column column' : DataFrameColumn α}
    (split : frame.columns = before ++ column :: after) (wellFormed : frame.WellFormed)
    (length : column'.values.length = column.values.length)
    (fresh : ∀ other ∈ before ++ after, other.name ≠ column'.name) :
    (DataFrameResource.mk (before ++ column' :: after)).WellFormed := by
  have rows := wellFormed.rows
  have names := wellFormed.names
  rw [DataFrameResource.names, split, List.map_append, List.map_cons] at names
  rw [split] at rows
  have lengths : ∀ other ∈ before ++ column' :: after, other.values.length = frame.rowCount := by
    intro other member
    rcases List.mem_append.1 member with inBefore | later
    · exact rows other (List.mem_append_left _ inBefore)
    · rcases List.mem_cons.1 later with rfl | inAfter
      · rw [length]
        exact rows column (List.mem_append_right _ List.mem_cons_self)
      · exact rows other (List.mem_append_right _ (List.mem_cons_of_mem _ inAfter))
  refine wellFormed_of_length lengths ?_
  rw [List.map_append, List.map_cons, List.nodup_middle] at *
  refine List.nodup_cons.2 ⟨fun member => ?_, (List.nodup_cons.1 names).2⟩
  rw [← List.map_append] at member
  obtain ⟨other, inside, same⟩ := List.mem_map.1 member
  exact fresh other inside same

theorem name_fresh {before after : List (DataFrameColumn α)} {column : DataFrameColumn α}
    (split : frame.columns = before ++ column :: after) (wellFormed : frame.WellFormed) :
    ∀ other ∈ before ++ after, other.name ≠ column.name := by
  have names := wellFormed.names
  rw [DataFrameResource.names, split, List.map_append, List.map_cons, List.nodup_middle] at names
  intro other member same
  refine (List.nodup_cons.1 names).1 ?_
  rw [← List.map_append]
  exact List.mem_map.2 ⟨other, member, same⟩

theorem setColumnLabel_keeps (wellFormed : frame.WellFormed) (oldLabel newLabel : String) :
    KeepsInPlace frame (setColumnLabel frame oldLabel newLabel) := by
  unfold setColumnLabel
  split
  · exact ⟨rfl, isFailure_failure _⟩
  · split
    · exact ⟨rfl, isFailure_failure _⟩
    · next distinct =>
      split
      · exact ⟨rfl, isFailure_failure _⟩
      · next before column after found =>
        obtain ⟨divided, named⟩ := findMut_eq_some found
        refine replace_column divided wellFormed rfl fun other member same => ?_
        -- another column with the new label would be the renamed one
        have inFrame : other ∈ frame.columns := by
          rw [divided]
          exact (List.Sublist.refl before |>.append (List.sublist_cons_self _ _)).subset member
        refine distinct (List.any_eq_true.2 ⟨other, inFrame, ?_⟩)
        have different := name_fresh divided wellFormed other member
        rw [beq_iff_eq.1 named] at different
        have relabelled : other.name = newLabel := same
        rw [relabelled] at different ⊢
        simp [different]

theorem addDataframeColumn_keeps (wellFormed : frame.WellFormed) (name : String) (values : List α) :
    KeepsInPlace frame (addDataframeColumn frame name values) := by
  unfold addDataframeColumn
  split
  · exact ⟨rfl, isFailure_failure _⟩
  · next distinct =>
    split
    · exact ⟨rfl, isFailure_failure _⟩
    · next sameLength =>
      have lengths : ∀ column ∈ frame.columns ++ [⟨name, values⟩], column.values.length = values.length := by
        intro column member
        rcases List.mem_append.1 member with old | new
        · rw [wellFormed.rows column old, DataFrameResource.rowCount]
          cases first : frame.columns with
          | nil => exact absurd (first ▸ old) List.not_mem_nil
          | cons head rest => simpa [first] using sameLength
        · rw [List.mem_singleton.1 new]
      refine wellFormed_of_length lengths ?_
      rw [List.map_append, List.nodup_append]
      refine ⟨wellFormed.names, List.nodup_singleton _, ?_⟩
      rintro known inFrame _ new rfl
      obtain ⟨column, inColumns, named⟩ := List.mem_map.1 inFrame
      refine distinct (List.any_eq_true.2 ⟨column, inColumns, ?_⟩)
      rw [named, List.mem_singleton.1 new]
      exact beq_self_eq_true name

theorem convertDataframeColumn_keeps (wellFormed : frame.WellFormed) (name : String)
    (converter : α → Except DataFailure α) :
    KeepsInPlace frame (convertDataframeColumn frame name converter) := by
  unfold convertDataframeColumn
  split
  · exact ⟨rfl, isFailure_failure _⟩
  · next before column after found =>
    obtain ⟨divided, -⟩ := findMut_eq_some found
    split
    · exact ⟨rfl, isFailure_failure _⟩
    · next newValues converted =>
      have fresh := name_fresh divided wellFormed
      have results := Ensures.mapM (R := fun _ _ => True) (E := fun _ => True) (f := converter)
        (l := column.values) fun value _ => by cases converter value <;> trivial
      rw [converted] at results
      exact replace_column divided wellFormed results.length_eq.symm fresh

theorem fillNotAvailable_keeps (wellFormed : frame.WellFormed) (name : String) (value : Float)
    (cells : FillCells α) : KeepsInPlace frame (fillNotAvailable frame name value cells) := by
  unfold fillNotAvailable
  split
  · exact ⟨rfl, isFailure_failure _⟩
  · next before column after found =>
    obtain ⟨divided, -⟩ := findMut_eq_some found
    dsimp only
    split
    · exact ⟨rfl, isFailure_failure _⟩
    · split
      · exact ⟨rfl, isFailure_failure _⟩
      · have fresh := name_fresh divided wellFormed
        exact replace_column divided wellFormed (List.length_map ..) fresh

end BasicNext.Data
