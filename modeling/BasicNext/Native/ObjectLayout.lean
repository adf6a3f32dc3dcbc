import BasicNext.Ir.Layouts
import BasicNext.Lib.RecordLayout
import BasicNext.Native.AlternativeEquality
import Mathlib.Data.Finset.Card

/-!
# Object layouts

Where native code keeps the fields of a class or a `STRUCT` (`bn_llvm::llvm::layout`): behind a header, in the order
of the field layout, each at the next multiple of its alignment. A field of a `STRUCT` type is kept in the object
itself, so the size of an object takes the sizes of the `STRUCT`s in it. The sums have 32 bits and stay at the greatest
number where they would wrap.
-/

namespace BasicNext.Native

open Lib (Cell wordAlignment_pos Ensures alignUp layoutEnd offsetAfter cappedAlignUp bind_eq_ok)
open Ir (FieldRef FieldLayout FieldLayoutEntry HasLayout GapsKept directBase sameLayoutField)

namespace Layout

/-! ### Sizes and offsets -/

inductive Stop where
  | outOfFuel
  /-- An `expect` or a `panic!` of the emitter. -/
  | panicked
deriving DecidableEq, Repr

def u32Max : Nat := 2 ^ 32 - 1

def objectHeaderBytes : Nat := 16

def saturatingAdd (first second : Nat) : Nat := min (first + second) u32Max

def alignTo (offset alignment : Nat) : Nat :=
  let remainder := offset % alignment
  if remainder = 0 then offset else saturatingAdd offset (alignment - remainder)

/-- The bytes and the alignment of a value. -/
def storage : LlvmType → Cell
  | .i1 | .i8 => ⟨1, 1, by decide⟩
  | .i16 => ⟨2, 2, by decide⟩
  | .i32 | .float => ⟨4, 4, by decide⟩
  | .i64 | .double | .ptr => ⟨8, 8, wordAlignment_pos⟩
  | .vector | .optionalFloat | .statusPointer => ⟨16, 8, wordAlignment_pos⟩
  | .region | .statusEndpoint | .handleResult | .general => ⟨24, 8, wordAlignment_pos⟩

structure LayoutField where
  reference : FieldRef
  ty : Ty

def layoutField (className : String) (entry : FieldLayoutEntry) : LayoutField :=
  ⟨⟨className, entry.id, entry.slot⟩, entry.ty⟩

variable (module : Ir.Module)

def classLayoutFields (className : String) : List LayoutField :=
  match module.fieldLayouts[className]? with
  | none => []
  | some layout => layout.fields.map (layoutField className)

/-- `llvm_storage_layout_inner` under its `expect`, with the bytes of an object by the name of its owner. -/
def llvmStorageLayoutInner (bytesOf : String → Except Stop Nat) (ty : Ty) : Except Stop Cell :=
  match structOwner module ty with
  | some owner => do
    let bytes ← bytesOf owner
    if bytes ≤ u32Max then return ⟨bytes, 8, wordAlignment_pos⟩ else throw .panicked
  | none =>
    match llvmType ty with
    | some layout => return storage layout
    | none => throw .panicked

/-- The loop of `class_instance_bytes_inner`: the end of the fields and the alignment of the object. -/
def layFields (storageOf : Ty → Except Stop Cell) : Nat → Nat → List LayoutField → Except Stop (Nat × Nat)
  | total, objectAlignment, [] => return (total, objectAlignment)
  | total, objectAlignment, field :: fields => do
    let cell ← storageOf field.ty
    layFields storageOf (saturatingAdd (alignTo total cell.alignment) cell.size) (max objectAlignment cell.alignment) fields

/-- An owner that is already being measured counts as a header. -/
def classInstanceBytesInner : Nat → Finset String → String → Except Stop Nat
  | 0, _, _ => .error .outOfFuel
  | fuel + 1, visited, typeName =>
    if typeName ∈ visited then return objectHeaderBytes
    else do
      let ends ← layFields (llvmStorageLayoutInner module (classInstanceBytesInner fuel (insert typeName visited)))
        objectHeaderBytes objectHeaderBytes (classLayoutFields module typeName)
      return alignTo ends.1 ends.2

/-- Steps for the recursion: only an owner with a layout leads to another one. -/
def layoutFuel : Nat := module.fieldLayouts.size + 1

def classInstanceBytes (typeName : String) : Except Stop Nat :=
  classInstanceBytesInner module (layoutFuel module) ∅ typeName

def llvmStorageLayout (ty : Ty) : Except Stop Cell := llvmStorageLayoutInner module (classInstanceBytes module) ty

/-- The loop of `field_byte_offset`. -/
def offsetFrom (storageOf : Ty → Except Stop Cell) (field : FieldRef) : Nat → List LayoutField → Except Stop (Option Nat)
  | _, [] => return none
  | offset, candidate :: candidates => do
    let cell ← storageOf candidate.ty
    if candidate.reference = field then return some (alignTo offset cell.alignment)
    else offsetFrom storageOf field (saturatingAdd (alignTo offset cell.alignment) cell.size) candidates

def fieldByteOffset (field : FieldRef) : Except Stop (Option Nat) :=
  offsetFrom (llvmStorageLayout module) field objectHeaderBytes (classLayoutFields module field.owner)

/-! ### What is proved of a module -/

def Placed (owner : String) (entry : FieldLayoutEntry) (offset : Nat) (cell : Cell) : Prop :=
  fieldByteOffset module ⟨owner, entry.id, entry.slot⟩ = .ok (some offset) ∧ llvmStorageLayout module entry.ty = .ok cell

/-- The laws of one object layout. -/
structure Sound (owner : String) (layout : FieldLayout) : Prop where
  terminates : ∃ answer, answer ≠ .error .outOfFuel ∧
    ∀ more, classInstanceBytesInner module (layoutFuel module + more) ∅ owner = answer
  placed : ∃ bytes, classInstanceBytes module owner = .ok bytes ∧ ∀ entry ∈ layout.fields, ∃ offset cell,
    Placed module owner entry offset cell ∧ offset % cell.alignment = 0 ∧ objectHeaderBytes ≤ offset ∧
      offset + cell.size ≤ bytes
  disjoint : ∀ first ∈ layout.fields, ∀ second ∈ layout.fields, first.slot ≠ second.slot →
    ∀ offset cell offset' cell', Placed module owner first offset cell → Placed module owner second offset' cell' →
      offset + cell.size ≤ offset' ∨ offset' + cell'.size ≤ offset
  inherited : ∀ base baseLayout, Lib.Chain.StrictlyAbove (directBase module) owner base →
    module.fieldLayouts[base]? = some baseLayout → ∀ entry ∈ baseLayout.fields,
      (∃ kept ∈ layout.fields, sameLayoutField kept entry = true) ∧
        fieldByteOffset module ⟨owner, entry.id, entry.slot⟩ = fieldByteOffset module ⟨base, entry.id, entry.slot⟩

/-! ### The exact sizes -/

def fieldTypes (owner : String) : List Ty := (classLayoutFields module owner).map LayoutField.ty

/-- The bytes of an object without a greatest number: whole headers. -/
def instanceSize (cells : List Cell) : Nat := alignUp (layoutEnd objectHeaderBytes cells) objectHeaderBytes

/-- The storage of a list of types. It exists where every type has one and no `STRUCT` contains itself. -/
inductive Cells : List Ty → List Cell → Prop
  | nil : Cells [] []
  | scalar {ty layout tys cells} : structOwner module ty = none → llvmType ty = some layout → Cells tys cells →
    Cells (ty :: tys) (storage layout :: cells)
  | struct {ty owner inner tys cells} : structOwner module ty = some owner → Cells (fieldTypes module owner) inner →
    Cells tys cells → Cells (ty :: tys) (⟨instanceSize inner, 8, by decide⟩ :: cells)

/-- An object that is finite and has no more bytes than the greatest number before its end is aligned. -/
def Fits (owner : String) : Prop :=
  ∃ cells, Cells module (fieldTypes module owner) cells ∧ layoutEnd objectHeaderBytes cells ≤ u32Max

variable {module}

/-! ### The recursion ends -/

/-- The owners with a layout that are not being measured. -/
def keysLeft (module : Ir.Module) (visited : Finset String) : Nat := (module.fieldLayouts.keys.toFinset \ visited).card

theorem keysLeft_empty_lt : keysLeft module ∅ < layoutFuel module := by
  have most := module.fieldLayouts.keys.toFinset_card_le
  rw [Std.TreeMap.length_keys] at most
  rw [keysLeft, layoutFuel, Finset.sdiff_empty]
  omega

variable {owner : String} {visited : Finset String}

theorem keysLeft_insert_lt (has : HasLayout module owner)
    (fresh : owner ∉ visited) : keysLeft module (insert owner visited) < keysLeft module visited := by
  rw [keysLeft, keysLeft, Finset.sdiff_insert]
  apply Finset.card_erase_lt_of_mem
  rw [Finset.mem_sdiff, List.mem_toFinset, Std.TreeMap.mem_keys, Std.TreeMap.mem_iff_isSome_getElem?]
  exact ⟨has, fresh⟩

theorem classLayoutFields_of_not_hasLayout (lacks : ¬HasLayout module owner) :
    classLayoutFields module owner = [] := by
  rw [HasLayout, Option.not_isSome_iff_eq_none] at lacks
  rw [classLayoutFields, lacks]

/-- A program that may panic and has enough steps. -/
abbrev Ends {α : Type} (run : Except Stop α) : Prop := Ensures (fun _ => True) (· ≠ .outOfFuel) run

theorem ends_iff {α : Type} {run : Except Stop α} : Ends run ↔ run ≠ .error .outOfFuel := by
  cases run with
  | ok answer => simp [Ends, Ensures]
  | error stop => simp [Ends, Ensures]

theorem ends_llvmStorageLayoutInner {bytesOf : String → Except Stop Nat} (ends : ∀ owner, Ends (bytesOf owner)) (ty : Ty) :
    Ends (llvmStorageLayoutInner module bytesOf ty) := by
  unfold llvmStorageLayoutInner
  split
  · next owner _ =>
    apply Ensures.bind (ends owner)
    intro bytes _
    split
    · trivial
    · simp [Ensures, throw, throwThe, MonadExceptOf.throw]
  · split
    · trivial
    · simp [Ensures, throw, throwThe, MonadExceptOf.throw]

variable {storageOf : Ty → Except Stop Cell}

theorem ends_layFields (ends : ∀ ty, Ends (storageOf ty)) (fields : List LayoutField) :
    ∀ total objectAlignment, Ends (layFields storageOf total objectAlignment fields) := by
  induction fields with
  | nil =>
    intro total objectAlignment
    trivial
  | cons field fields ih =>
    intro total objectAlignment
    exact (ends field.ty).bind fun cell _ => ih _ _

theorem classInstanceBytesInner_ends (fuel : Nat) : ∀ (visited : Finset String) (owner : String),
    keysLeft module visited < fuel → Ends (classInstanceBytesInner module fuel visited owner) ∧
      classInstanceBytesInner module (fuel + 1) visited owner = classInstanceBytesInner module fuel visited owner := by
  induction fuel with
  | zero =>
    intro visited owner enough
    omega
  | succ fuel ih =>
    intro visited owner enough
    rw [classInstanceBytesInner, classInstanceBytesInner]
    by_cases seen : owner ∈ visited
    · rw [if_pos seen, if_pos seen]
      exact ⟨trivial, rfl⟩
    · rw [if_neg seen, if_neg seen]
      by_cases has : HasLayout module owner
      · have fewer := keysLeft_insert_lt has seen
        have inner := fun name => ih (insert owner visited) name (by omega)
        have same : classInstanceBytesInner module (fuel + 1) (insert owner visited) =
            classInstanceBytesInner module fuel (insert owner visited) := by
          funext name
          exact (inner name).2
        rw [same]
        refine ⟨Ensures.bind (ends_layFields ?_ _ _ _) fun _ _ => trivial, rfl⟩
        exact ends_llvmStorageLayoutInner fun name => (inner name).1
      · rw [classLayoutFields_of_not_hasLayout has]
        exact ⟨trivial, rfl⟩

variable {fuel : Nat}

theorem classInstanceBytesInner_more (enough : keysLeft module visited < fuel) (more : Nat) :
    classInstanceBytesInner module (fuel + more) visited owner = classInstanceBytesInner module fuel visited owner := by
  induction more with
  | zero => rfl
  | succ more ih => rw [← Nat.add_assoc, (classInstanceBytesInner_ends _ visited owner (by omega)).2, ih]

theorem terminates (owner : String) : ∃ answer : Except Stop Nat, answer ≠ .error .outOfFuel ∧
    ∀ more, classInstanceBytesInner module (layoutFuel module + more) ∅ owner = answer := by
  refine ⟨classInstanceBytes module owner, ?_, fun more => classInstanceBytesInner_more keysLeft_empty_lt more⟩
  exact ends_iff.1 (classInstanceBytesInner_ends _ ∅ owner keysLeft_empty_lt).1

/-! ### Sums that stay at the greatest number -/

theorem alignTo_eq (offset alignment : Nat) : alignTo offset alignment = cappedAlignUp u32Max offset alignment := rfl

/-- The storage with its size as the emitter counts it. -/
def counted (cell : Cell) : Cell := ⟨min cell.size u32Max, cell.alignment, cell.aligned⟩

/-- The storage of each field, computed. -/
def Stored (storageOf : Ty → Except Stop Cell) : List Ty → List Cell → Prop :=
  List.Forall₂ fun ty cell => storageOf ty = .ok (counted cell) ∧ cell.alignment ≤ objectHeaderBytes

theorem saturatingAdd_counted (start : Nat) (cell : Cell) :
    saturatingAdd (alignTo (min start u32Max) (counted cell).alignment) (counted cell).size =
      min (alignUp start cell.alignment + cell.size) u32Max := by
  rw [alignTo_eq, Lib.cappedAlignUp_min, saturatingAdd]
  simp only [counted]
  omega

variable {cells : List Cell} {tys : List Ty}

theorem layFields_of_stored
    (stored : Stored storageOf tys cells) : ∀ (fields : List LayoutField) (start : Nat), fields.map LayoutField.ty = tys →
      layFields storageOf (min start u32Max) objectHeaderBytes fields =
        .ok (min (layoutEnd start cells) u32Max, objectHeaderBytes) := by
  induction stored with
  | nil =>
    intro fields start same
    rw [List.map_eq_nil_iff.1 same]
    rfl
  | @cons ty cell tys cells first _ ih =>
    intro fields start same
    obtain ⟨field, fields, rfl, rfl, rest⟩ := List.map_eq_cons_iff.1 same
    rw [layFields, first.1]
    show layFields storageOf (saturatingAdd (alignTo (min start u32Max) (counted cell).alignment) (counted cell).size)
      (max objectHeaderBytes cell.alignment) fields = _
    rw [saturatingAdd_counted, Nat.max_eq_left first.2, layoutEnd]
    exact ih fields _ rest

theorem u32Max_le : objectHeaderBytes ≤ u32Max := by decide

theorem alignTo_layoutEnd (cells : List Cell) :
    alignTo (min (layoutEnd objectHeaderBytes cells) u32Max) objectHeaderBytes = min (instanceSize cells) u32Max := by
  rw [alignTo_eq, Lib.cappedAlignUp_min, instanceSize]

/-! ### The storage of fields is the exact one -/

theorem Cells.unique {cells cells' : List Cell} (one : Cells module tys cells)
    (other : Cells module tys cells') : cells = cells' := by
  induction one generalizing cells' with
  | nil =>
    cases other
    rfl
  | scalar plain form _ ih =>
    cases other with
    | scalar _ form' rest =>
      obtain rfl := Option.some.inj (form.symm.trans form')
      rw [ih rest]
    | struct found => rw [plain] at found; cases found
  | struct found _ _ ihInner ih =>
    cases other with
    | scalar plain => rw [plain] at found; cases found
    | struct found' inner rest =>
      obtain rfl := Option.some.inj (found.symm.trans found')
      obtain rfl := ihInner inner
      rw [ih rest]

variable {cell : Cell}

theorem lt_instanceSize (member : cell ∈ cells) : cell.size < instanceSize cells := by
  have inside : objectHeaderBytes + cell.size ≤ layoutEnd objectHeaderBytes cells := Lib.size_le_layoutEnd member
  have whole := Lib.le_alignUp (layoutEnd objectHeaderBytes cells) objectHeaderBytes
  rw [instanceSize]
  simp only [objectHeaderBytes] at *
  omega

/-- What is being measured has more bytes than this. -/
def Within (module : Ir.Module) (visited : Finset String) (size : Nat) : Prop :=
  ∀ owner ∈ visited, ∀ cells, Cells module (fieldTypes module owner) cells → size < instanceSize cells

theorem Within.insert
    (exact : Cells module (fieldTypes module owner) cells) (inside : Within module visited (instanceSize cells))
    (member : cell ∈ cells) : Within module (insert owner visited) cell.size := by
  intro name found cells' exact'
  have here := lt_instanceSize member
  rcases Finset.mem_insert.1 found with rfl | before
  · rw [← exact.unique exact']
    exact here
  · exact here.trans (inside name before cells' exact')

theorem classInstanceBytesInner_eq
    (exact : Cells module (fieldTypes module owner) cells) (enough : keysLeft module visited < fuel) (fresh : owner ∉ visited)
    (fields : ∀ less, keysLeft module (insert owner visited) < less →
      Stored (llvmStorageLayoutInner module (classInstanceBytesInner module less (insert owner visited)))
        (fieldTypes module owner) cells) :
    classInstanceBytesInner module fuel visited owner = .ok (min (instanceSize cells) u32Max) := by
  obtain ⟨less, rfl⟩ : ∃ less, fuel = less + 1 := ⟨fuel - 1, by omega⟩
  have stored : Stored (llvmStorageLayoutInner module (classInstanceBytesInner module less (insert owner visited)))
      (fieldTypes module owner) cells := by
    by_cases has : HasLayout module owner
    · have fewer := keysLeft_insert_lt has fresh
      exact fields less (by omega)
    · rw [fieldTypes, classLayoutFields_of_not_hasLayout has] at exact ⊢
      cases exact
      exact .nil
  have total := layFields_of_stored stored (classLayoutFields module owner) objectHeaderBytes rfl
  rw [Nat.min_eq_left u32Max_le] at total
  rw [classInstanceBytesInner, if_neg fresh, total]
  exact congrArg Except.ok (alignTo_layoutEnd cells)

theorem stored_of_cells (exact : Cells module tys cells) :
    ∀ (fuel : Nat) (visited : Finset String), keysLeft module visited < fuel →
      (∀ cell ∈ cells, Within module visited cell.size) →
        Stored (llvmStorageLayoutInner module (classInstanceBytesInner module fuel visited)) tys cells := by
  induction exact with
  | nil =>
    intro fuel visited _ _
    exact .nil
  | @scalar ty layout tys cells plain form _ ih =>
    intro fuel visited enough inside
    refine .cons ?_ (ih fuel visited enough fun cell member => inside cell (List.mem_cons_of_mem _ member))
    rw [llvmStorageLayoutInner, plain]
    dsimp only
    rw [form]
    cases layout <;> exact ⟨rfl, by decide⟩
  | @struct ty owner inner tys cells found whole _ ihInner ih =>
    intro fuel visited enough inside
    refine .cons ⟨?_, by simp [objectHeaderBytes]⟩
      (ih fuel visited enough fun cell member => inside cell (List.mem_cons_of_mem _ member))
    have here := inside _ List.mem_cons_self
    have fresh : owner ∉ visited := fun seen => lt_irrefl _ (here owner seen inner whole)
    have bytes := classInstanceBytesInner_eq whole enough fresh fun less enough =>
      ihInner less _ enough fun cell member => here.insert whole member
    rw [llvmStorageLayoutInner, found]
    dsimp only
    rw [bytes]
    exact if_pos (Nat.min_le_right _ _)

theorem not_mem_empty_within (size : Nat) : Within module ∅ size := fun owner seen => absurd seen (Finset.notMem_empty owner)

theorem stored (exact : Cells module tys cells) :
    Stored (llvmStorageLayout module) tys cells :=
  stored_of_cells exact _ _ keysLeft_empty_lt fun cell _ => not_mem_empty_within cell.size

theorem classInstanceBytes_eq (exact : Cells module (fieldTypes module owner) cells) :
    classInstanceBytes module owner = .ok (min (instanceSize cells) u32Max) := by
  apply classInstanceBytesInner_eq exact keysLeft_empty_lt (Finset.notMem_empty owner)
  intro less enough
  exact stored_of_cells exact less _ enough fun cell member => (not_mem_empty_within _).insert exact member

/-! ### Offsets -/

theorem offsetFrom_of_stored
    (stored : Stored storageOf tys cells) : ∀ (fields : List LayoutField) (start slot : Nat) (field : LayoutField)
      (cell : Cell), fields.map LayoutField.ty = tys → fields[slot]? = some field → cells[slot]? = some cell →
      (∀ before other, before < slot → fields[before]? = some other → other.reference ≠ field.reference) →
        offsetFrom storageOf field.reference (min start u32Max) fields =
          .ok (some (min (offsetAfter start (cells.take slot) cell) u32Max)) := by
  induction stored with
  | nil =>
    intro fields start slot field cell _ _ found
    cases found
  | @cons ty first tys cells here _ ih =>
    intro fields start slot field cell same found foundCell distinct
    obtain ⟨candidate, fields, rfl, rfl, rest⟩ := List.map_eq_cons_iff.1 same
    rw [offsetFrom, here.1]
    cases slot with
    | zero =>
      obtain rfl := Option.some.inj found
      obtain rfl := Option.some.inj foundCell
      show (if _ then _ else _) = _
      rw [if_pos rfl, alignTo_eq]
      exact congrArg (fun offset => Except.ok (some offset)) (Lib.cappedAlignUp_min u32Max start first.alignment)
    | succ slot =>
      show (if _ then _ else _) = _
      rw [if_neg (distinct 0 candidate (Nat.succ_pos slot) rfl), saturatingAdd_counted]
      exact ih fields _ slot field cell rest found foundCell fun before other below found =>
        distinct (before + 1) other (Nat.succ_lt_succ below) found

variable {layout : FieldLayout}

theorem classLayoutFields_eq (has : module.fieldLayouts[owner]? = some layout) :
    classLayoutFields module owner = layout.fields.map (layoutField owner) := by
  rw [classLayoutFields, has]

/-- The slots of an accepted layout are the positions. -/
def Dense (layout : FieldLayout) : Prop := ∀ (slot : Nat) entry, layout.fields[slot]? = some entry → entry.slot = slot

variable {entry : FieldLayoutEntry}

theorem placed_of_cells (has : module.fieldLayouts[owner]? = some layout) (dense : Dense layout)
    (exact : Cells module (fieldTypes module owner) cells) {slot : Nat}
    (found : layout.fields[slot]? = some entry) (foundCell : cells[slot]? = some cell) :
    Placed module owner entry (min (offsetAfter objectHeaderBytes (cells.take slot) cell) u32Max) (counted cell) := by
  have fields := classLayoutFields_eq has
  constructor
  · rw [fieldByteOffset, ← Nat.min_eq_left u32Max_le]
    apply offsetFrom_of_stored (stored exact) _ _ slot (layoutField owner entry) cell rfl _ foundCell
    · intro before other below foundOther same
      rw [fields, List.getElem?_map, Option.map_eq_some_iff] at foundOther
      obtain ⟨entry', found', rfl⟩ := foundOther
      have slots : entry'.slot = entry.slot := congrArg FieldRef.slot same
      rw [dense _ _ found', dense _ _ found] at slots
      exact absurd slots below.ne
    · rw [fields, List.getElem?_map, found]
      rfl
  · obtain ⟨_, each⟩ := List.forall₂_iff_get.1 (stored exact)
    obtain ⟨inside, rfl⟩ := List.getElem?_eq_some_iff.1 foundCell
    have ty : (fieldTypes module owner)[slot]? = some entry.ty := by
      rw [fieldTypes, fields, List.getElem?_map, List.getElem?_map, found]
      rfl
    obtain ⟨inside', same⟩ := List.getElem?_eq_some_iff.1 ty
    rw [← same]
    exact (each slot inside' inside).1

theorem counted_of_le (small : cell.size ≤ u32Max) : counted cell = cell := by
  rw [counted, Nat.min_eq_left small]

theorem length_cells
    (has : module.fieldLayouts[owner]? = some layout) (exact : Cells module (fieldTypes module owner) cells) :
    cells.length = layout.fields.length := by
  rw [← (stored exact).length_eq, fieldTypes, classLayoutFields_eq has, List.length_map, List.length_map]

theorem placed_of_fits (has : module.fieldLayouts[owner]? = some layout) (dense : Dense layout)
    (exact : Cells module (fieldTypes module owner) cells) (small : layoutEnd objectHeaderBytes cells ≤ u32Max)
    {slot : Nat} (found : layout.fields[slot]? = some entry) :
    ∃ cell, cells[slot]? = some cell ∧
      Placed module owner entry (offsetAfter objectHeaderBytes (cells.take slot) cell) cell := by
  have inside := (List.getElem?_eq_some_iff.1 found).1
  rw [← length_cells has exact] at inside
  have foundCell := List.getElem?_eq_getElem inside
  have ends := Lib.offsetAfter_take_add_le foundCell objectHeaderBytes
  have placed := placed_of_cells has dense exact found foundCell
  rw [Nat.min_eq_left (by omega), counted_of_le (by omega)] at placed
  exact ⟨_, foundCell, placed⟩

theorem Placed.unique {offset offset' : Nat} {cell cell' : Cell}
    (one : Placed module owner entry offset cell) (other : Placed module owner entry offset' cell') :
    offset = offset' ∧ cell = cell' := by
  constructor
  · exact Option.some.inj (Except.ok.inj (one.1.symm.trans other.1))
  · exact Except.ok.inj (one.2.symm.trans other.2)

/-! ### Inherited fields -/

theorem offsetFrom_layoutField (owner : String) (entry field : FieldLayoutEntry) (start : Nat) (fields : List LayoutField) :
    offsetFrom storageOf ⟨owner, entry.id, entry.slot⟩ start (layoutField owner field :: fields) = (do
      let cell ← storageOf field.ty
      if field.id = entry.id ∧ field.slot = entry.slot then return some (alignTo start cell.alignment)
      else
        offsetFrom storageOf ⟨owner, entry.id, entry.slot⟩ (saturatingAdd (alignTo start cell.alignment) cell.size) fields) := by
  rw [offsetFrom]
  congr 1
  funext cell
  apply if_congr _ rfl rfl
  simp [layoutField]

theorem offsetFrom_inherited {owner base : String}
    (fields : List FieldLayoutEntry) : ∀ (derived : List FieldLayoutEntry) (start : Nat), entry ∈ fields →
      (∀ (slot : Nat) field, fields[slot]? = some field → ∃ kept, derived[slot]? = some kept ∧ sameLayoutField kept field = true) →
        offsetFrom storageOf ⟨owner, entry.id, entry.slot⟩ start (derived.map (layoutField owner)) =
          offsetFrom storageOf ⟨base, entry.id, entry.slot⟩ start (fields.map (layoutField base)) := by
  induction fields with
  | nil =>
    intro derived start member
    cases member
  | cons field fields ih =>
    intro derived start member kept
    obtain ⟨first, foundFirst, same⟩ := kept 0 field rfl
    obtain ⟨rest, rfl⟩ : ∃ rest, derived = first :: rest := by
      cases derived with
      | nil => cases foundFirst
      | cons head rest => exact ⟨rest, congrArg (· :: rest) (Option.some.inj foundFirst)⟩
    simp only [sameLayoutField, Bool.and_eq_true, beq_iff_eq] at same
    obtain ⟨⟨⟨⟨id, slot⟩, ty⟩, -⟩, -⟩ := same
    rw [List.map_cons, List.map_cons, offsetFrom_layoutField, offsetFrom_layoutField, id, slot, ty]
    congr 1
    funext cell
    by_cases here : field.id = entry.id ∧ field.slot = entry.slot
    · rw [if_pos here, if_pos here]
    · rw [if_neg here, if_neg here]
      have later : entry ∈ fields := by
        rcases List.mem_cons.1 member with rfl | later
        · exact absurd ⟨rfl, rfl⟩ here
        · exact later
      apply ih rest _ later
      intro position field found
      exact kept (position + 1) field found

theorem fieldByteOffset_inherited {owner base : String} {layout baseLayout : FieldLayout}
    (has : module.fieldLayouts[owner]? = some layout) (baseHas : module.fieldLayouts[base]? = some baseLayout)
    (kept : baseLayout.KeptBy layout) (member : entry ∈ baseLayout.fields) :
    fieldByteOffset module ⟨owner, entry.id, entry.slot⟩ = fieldByteOffset module ⟨base, entry.id, entry.slot⟩ := by
  rw [fieldByteOffset, fieldByteOffset, classLayoutFields_eq has, classLayoutFields_eq baseHas]
  exact offsetFrom_inherited _ _ _ member kept

/-! ### What acceptance gives -/

theorem slot_of_validateLayoutFields (fields : List FieldLayoutEntry) :
    ∀ (index : Nat) (ids : Finset Ir.FieldId), Ir.validateLayoutFields fuel module owner layout index ids fields = .ok () →
      ∀ (slot : Nat) entry, fields[slot]? = some entry → entry.slot = index + slot := by
  induction fields with
  | nil =>
    intro index ids _ slot entry found
    cases found
  | cons field fields ih =>
    intro index ids accepted slot entry found
    rw [Ir.validateLayoutFields] at accepted
    obtain ⟨_, _, accepted⟩ := bind_eq_ok.1 accepted
    obtain ⟨_, dense, accepted⟩ := bind_eq_ok.1 accepted
    cases slot with
    | zero =>
      obtain rfl := Option.some.inj found
      rw [Ir.rejectIf_eq_ok] at dense
      simpa using dense
    | succ slot =>
      obtain ⟨_, _, accepted⟩ := bind_eq_ok.1 accepted
      obtain ⟨_, _, accepted⟩ := bind_eq_ok.1 accepted
      obtain ⟨_, _, accepted⟩ := bind_eq_ok.1 accepted
      obtain ⟨_, _, accepted⟩ := bind_eq_ok.1 accepted
      obtain ⟨_, _, accepted⟩ := bind_eq_ok.1 accepted
      rw [ih _ _ accepted slot entry found]
      exact Nat.add_right_comm index 1 slot

theorem dense_of_accepted (accepted : Ir.validateFieldLayouts fuel module = .ok ())
    (has : module.fieldLayouts[owner]? = some layout) : Dense layout := by
  obtain ⟨_, _, loop⟩ := bind_eq_ok.1 accepted
  have checked := Lib.forM_eq_ok.1 loop _ (Std.TreeMap.mem_toList_iff_getElem?_eq_some.2 has)
  obtain ⟨_, _, rest⟩ := bind_eq_ok.1 checked
  obtain ⟨_, fields, _⟩ := bind_eq_ok.1 rest
  intro slot entry found
  rw [slot_of_validateLayoutFields _ 0 ∅ fields slot entry found, Nat.zero_add]

/-! ### An object that fits is sound -/

theorem placed_of_mem (has : module.fieldLayouts[owner]? = some layout) (dense : Dense layout)
    (exact : Cells module (fieldTypes module owner) cells) (small : layoutEnd objectHeaderBytes cells ≤ u32Max)
    (member : entry ∈ layout.fields) :
    ∃ cell, cells[entry.slot]? = some cell ∧
      Placed module owner entry (offsetAfter objectHeaderBytes (cells.take entry.slot) cell) cell := by
  obtain ⟨slot, found⟩ := List.mem_iff_getElem?.1 member
  rw [dense slot entry found]
  exact placed_of_fits has dense exact small found

theorem disjoint_of_fits (has : module.fieldLayouts[owner]? = some layout) (dense : Dense layout)
    (exact : Cells module (fieldTypes module owner) cells) (small : layoutEnd objectHeaderBytes cells ≤ u32Max)
    {first second : FieldLayoutEntry} (member : first ∈ layout.fields) (member' : second ∈ layout.fields)
    (below : first.slot < second.slot) {offset offset' : Nat} {cell cell' : Cell}
    (placed : Placed module owner first offset cell) (placed' : Placed module owner second offset' cell') :
    offset + cell.size ≤ offset' := by
  obtain ⟨exactCell, found, here⟩ := placed_of_mem has dense exact small member
  obtain ⟨exactCell', found', here'⟩ := placed_of_mem has dense exact small member'
  obtain ⟨rfl, rfl⟩ := here.unique placed
  obtain ⟨rfl, rfl⟩ := here'.unique placed'
  exact Lib.offsetAfter_take_lt found below objectHeaderBytes

theorem placed_sound_of_fits (has : module.fieldLayouts[owner]? = some layout) (dense : Dense layout)
    (exact : Cells module (fieldTypes module owner) cells) (small : layoutEnd objectHeaderBytes cells ≤ u32Max)
    (member : entry ∈ layout.fields) :
    ∃ offset cell, Placed module owner entry offset cell ∧ offset % cell.alignment = 0 ∧ objectHeaderBytes ≤ offset ∧
      offset + cell.size ≤ min (instanceSize cells) u32Max := by
  obtain ⟨cell, found, placed⟩ := placed_of_mem has dense exact small member
  have ends := Lib.offsetAfter_take_add_le found objectHeaderBytes
  have whole := Lib.le_alignUp (layoutEnd objectHeaderBytes cells) objectHeaderBytes
  refine ⟨_, cell, placed, Lib.offsetAfter_mod _ _ cell, Lib.le_offsetAfter _ _ cell, le_min ?_ ?_⟩
  · exact ends.trans whole
  · exact ends.trans small

theorem sound_of_fits (basesAccepted : Ir.validateClassBases fuel module = .ok ())
    (layoutsAccepted : Ir.validateFieldLayouts fuel module = .ok ()) (gaps : GapsKept module)
    (has : module.fieldLayouts[owner]? = some layout) (fits : Fits module owner) :
    Sound module owner layout := by
  obtain ⟨cells, exact, small⟩ := fits
  have dense := dense_of_accepted layoutsAccepted has
  refine ⟨terminates owner, ?_, ?_, ?_⟩
  · exact ⟨_, classInstanceBytes_eq exact, fun entry member => placed_sound_of_fits has dense exact small member⟩
  · intro first member second member' different offset cell offset' cell' placed placed'
    rcases Nat.lt_or_gt_of_ne different with below | above
    · exact .inl (disjoint_of_fits has dense exact small member member' below placed placed')
    · exact .inr (disjoint_of_fits has dense exact small member' member above placed' placed)
  · intro base baseLayout after baseHas entry member
    have kept := Ir.keepsSlots_above layoutsAccepted gaps (Ir.ends_of_validateClassBases basesAccepted owner) owner base
      (Lib.Chain.Above.refl owner) after.above layout baseLayout has baseHas
    refine ⟨?_, fieldByteOffset_inherited has baseHas kept member⟩
    obtain ⟨slot, found⟩ := List.mem_iff_getElem?.1 member
    obtain ⟨field, found', same⟩ := kept slot entry found
    exact ⟨field, List.mem_of_getElem? found', same⟩

/-! ### A sound module fits -/

theorem exists_cells (each : ∀ ty ∈ tys, ∃ cell, Cells module [ty] [cell]) : ∃ cells, Cells module tys cells := by
  induction tys with
  | nil => exact ⟨[], .nil⟩
  | cons ty tys ih =>
    obtain ⟨cells, rest⟩ := ih fun ty member => each ty (List.mem_cons_of_mem _ member)
    obtain ⟨cell, first⟩ := each ty List.mem_cons_self
    cases first with
    | scalar plain form => exact ⟨_, .scalar plain form rest⟩
    | struct found inner => exact ⟨_, .struct found inner rest⟩

theorem size_pos_of_cells (exact : Cells module tys cells) (member : cell ∈ cells) : 0 < cell.size := by
  induction exact with
  | nil => cases member
  | @scalar _ layout _ _ _ _ _ ih =>
    rcases List.mem_cons.1 member with rfl | later
    · cases layout <;> decide
    · exact ih later
  | @struct _ _ inner _ _ _ _ _ _ ih =>
    rcases List.mem_cons.1 member with rfl | later
    · have start := Lib.le_layoutEnd objectHeaderBytes inner
      have whole := Lib.le_alignUp (layoutEnd objectHeaderBytes inner) objectHeaderBytes
      exact (Nat.lt_of_lt_of_le (by decide) start).trans_le whole
    · exact ih later

theorem exists_cell {ty : Ty} (computed : llvmStorageLayout module ty = .ok cell)
    (inner : ∀ owner, classInstanceBytes module owner = .ok cell.size → ∃ cells, Cells module (fieldTypes module owner) cells) :
    ∃ cell, Cells module [ty] [cell] := by
  unfold llvmStorageLayout llvmStorageLayoutInner at computed
  split at computed
  · next owner found =>
    obtain ⟨bytes, measured, computed⟩ := bind_eq_ok.1 computed
    split at computed
    · cases computed
      obtain ⟨cells, exact⟩ := inner owner measured
      exact ⟨_, .struct found exact .nil⟩
    · cases computed
  · next plain =>
    split at computed
    · next layout form => exact ⟨_, .scalar plain form .nil⟩
    · cases computed

theorem layoutEnd_le_of_sound (has : module.fieldLayouts[owner]? = some layout) (dense : Dense layout)
    (exact : Cells module (fieldTypes module owner) cells) (sound : Sound module owner layout) :
    layoutEnd objectHeaderBytes cells ≤ u32Max := by
  rcases List.eq_nil_or_concat' cells with rfl | ⟨before, last, rfl⟩
  · exact u32Max_le
  · have length := length_cells has exact
    rw [List.length_append, List.length_singleton] at length
    have found : layout.fields[before.length]? = some layout.fields[before.length] := List.getElem?_eq_getElem (by omega)
    have foundCell : (before ++ [last])[before.length]? = some last := by simp
    have here := placed_of_cells has dense exact found foundCell
    obtain ⟨bytes, measured, each⟩ := sound.placed
    obtain ⟨offset, cell, placed, -, -, within⟩ := each _ (List.mem_of_getElem? found)
    obtain ⟨rfl, rfl⟩ := here.unique placed
    have cap : bytes ≤ u32Max := by
      rw [classInstanceBytes_eq exact] at measured
      exact Except.ok.inj measured ▸ Nat.min_le_right _ _
    have start := Lib.le_offsetAfter objectHeaderBytes before last
    have some := size_pos_of_cells exact (List.mem_of_getElem? foundCell)
    rw [List.take_left] at within
    rw [Lib.layoutEnd_concat]
    have top := u32Max_le
    simp only [counted, objectHeaderBytes] at *
    omega

theorem exists_cells_of_sound
    (sound : ∀ owner layout, module.fieldLayouts[owner]? = some layout → Sound module owner layout) (bytes : Nat) :
    ∀ owner, classInstanceBytes module owner = .ok bytes → ∃ cells, Cells module (fieldTypes module owner) cells := by
  induction bytes using Nat.strong_induction_on with
  | _ bytes ih =>
    intro owner measured
    apply exists_cells
    intro ty member
    cases has : module.fieldLayouts[owner]? with
    | none =>
      rw [fieldTypes, classLayoutFields, has] at member
      cases member
    | some layout =>
      rw [fieldTypes, classLayoutFields_eq has] at member
      obtain ⟨field, fieldMember, rfl⟩ := List.mem_map.1 member
      obtain ⟨entry, entryMember, rfl⟩ := List.mem_map.1 fieldMember
      obtain ⟨bytes', measured', each⟩ := (sound owner layout has).placed
      obtain rfl := Except.ok.inj (measured'.symm.trans measured)
      obtain ⟨offset, cell, placed, -, start, within⟩ := each entry entryMember
      refine exists_cell placed.2 fun inner measuredInner => ih cell.size ?_ inner measuredInner
      simp only [objectHeaderBytes] at start
      omega

theorem gapsKept_of_sound (layoutsAccepted : Ir.validateFieldLayouts fuel module = .ok ())
    (sound : ∀ owner layout, module.fieldLayouts[owner]? = some layout → Sound module owner layout) : GapsKept module := by
  intro className base ancestor step _ near derived baseLayout derivedHas baseHas slot entry found
  have after := (Lib.Chain.strictlyAbove_of_next step).2 near.above
  obtain ⟨⟨kept, member, same⟩, -⟩ :=
    (sound className derived derivedHas).inherited ancestor baseLayout after baseHas entry (List.mem_of_getElem? found)
  obtain ⟨slot', found'⟩ := List.mem_iff_getElem?.1 member
  have slots : slot' = slot := by
    rw [← dense_of_accepted layoutsAccepted derivedHas slot' kept found',
      ← dense_of_accepted layoutsAccepted baseHas slot entry found]
    simp only [sameLayoutField, Bool.and_eq_true, beq_iff_eq] at same
    exact same.1.1.1.2
  rw [slots] at found'
  exact ⟨kept, found', same⟩

/-- The layouts of an accepted module are sound exactly when every object is finite and fits, and no layout is lost
behind a class without one. -/
theorem layout_sound_iff (fuel : Nat) (module : Ir.Module) (basesAccepted : Ir.validateClassBases fuel module = .ok ())
    (layoutsAccepted : Ir.validateFieldLayouts fuel module = .ok ()) :
    (∀ owner layout, module.fieldLayouts[owner]? = some layout → Sound module owner layout) ↔
      (∀ owner layout, module.fieldLayouts[owner]? = some layout → Fits module owner) ∧ GapsKept module := by
  constructor
  · intro sound
    refine ⟨fun owner layout has => ?_, gapsKept_of_sound layoutsAccepted sound⟩
    obtain ⟨bytes, measured, -⟩ := (sound owner layout has).placed
    obtain ⟨cells, exact⟩ := exists_cells_of_sound sound bytes owner measured
    exact ⟨cells, exact, layoutEnd_le_of_sound has (dense_of_accepted layoutsAccepted has) exact (sound owner layout has)⟩
  · rintro ⟨fits, gaps⟩ owner layout has
    exact sound_of_fits basesAccepted layoutsAccepted gaps has (fits owner layout has)

/-! ### Structures of structures -/

def entryOf (owner : String) (slot : Nat) (ty : Ty) : FieldLayoutEntry :=
  { id := slot, slot := slot, ty := ty, declaringOwner := owner, weak := false, span := Ir.defaultModuleSpan }

def recordOf (owner : String) (tys : List Ty) : String × FieldLayout :=
  (owner, ⟨owner, tys.mapIdx fun slot ty => entryOf owner slot ty, Ir.defaultModuleSpan⟩)

def ownFunction (kind : Ir.FunctionKind) (name owner : String) : Ir.Function :=
  { name := name, kind := kind, owner := some owner, parameters := [], weakSymbols := ∅, returnType := .named owner, entry := 0,
    blocks := [], span := Ir.defaultModuleSpan }

def layerName (layer : Nat) : String := "S" ++ toString layer

def layerTypes : Nat → List Ty
  | 0 => [.integer .int64]
  | layer + 1 => [.named (layerName layer), .named (layerName layer)]

/-- `S0` has a number, and every other `STRUCT` has the one before it twice. -/
def tower : Ir.Module where
  functions := (List.range 28).map fun layer => ownFunction .default (layerName layer ++ ".$default") (layerName layer)
  fieldNames := ["a", "b"]
  fieldLayouts := Std.TreeMap.ofList ((List.range 28).map fun layer => recordOf (layerName layer) (layerTypes layer))

theorem fieldTypes_tower : ∀ layer < 28, fieldTypes tower (layerName layer) = layerTypes layer := by
  decide +kernel

theorem structOwner_tower : ∀ layer < 28, structOwner tower (.named (layerName layer)) = some (layerName layer) := by
  decide +kernel

theorem tower_accepted :
    Ir.validateClassBases 1 tower = .ok () ∧ Ir.validateFieldLayouts 1 tower = .ok () := by
  constructor <;> rfl

theorem instanceSize_twice {size : Nat} (half : Nat) (whole : size = 16 * half) :
    instanceSize [⟨size, 8, by decide⟩, ⟨size, 8, by decide⟩] = 16 + 2 * size := by
  subst whole
  rw [instanceSize, layoutEnd, layoutEnd, layoutEnd, objectHeaderBytes]
  dsimp only
  have first : alignUp 16 8 = 16 := rfl
  have second : alignUp (16 + 16 * half) 8 = 16 + 16 * half := Lib.alignUp_of_mod_eq_zero (by omega)
  rw [first, second, Lib.alignUp_of_mod_eq_zero (by omega)]
  omega

theorem cells_tower : ∀ layer < 28, ∃ cells, Cells tower (layerTypes layer) cells ∧
    instanceSize cells = 16 * (3 * 2 ^ layer - 1) := by
  intro layer
  induction layer with
  | zero =>
    intro _
    exact ⟨[storage .i64], .scalar (by decide +kernel) rfl .nil, by decide⟩
  | succ layer ih =>
    intro below
    obtain ⟨inner, exact, size⟩ := ih (by omega)
    have found := structOwner_tower layer (by omega)
    rw [← fieldTypes_tower layer (by omega)] at exact
    refine ⟨_, .struct found exact (.struct found exact .nil), ?_⟩
    rw [instanceSize_twice _ size, size, pow_succ]
    have some : 0 < 2 ^ layer := Nat.two_pow_pos layer
    omega

/-- The second field of `S27` ends behind the bytes of the object, and the module is accepted. -/
theorem layout_not_sound : Ir.validateClassBases 1 tower = .ok () ∧ Ir.validateFieldLayouts 1 tower = .ok () ∧
    ¬∀ owner layout, tower.fieldLayouts[owner]? = some layout → Sound tower owner layout := by
  refine ⟨tower_accepted.1, tower_accepted.2, fun sound => ?_⟩
  have has : (tower.fieldLayouts[layerName 27]?).isSome := by decide +kernel
  obtain ⟨layout, has⟩ := Option.isSome_iff_exists.1 has
  obtain ⟨cells, exact, size⟩ := cells_tower 27 (by omega)
  rw [← fieldTypes_tower 27 (by omega)] at exact
  have ends := layoutEnd_le_of_sound has (dense_of_accepted tower_accepted.2 has) exact (sound _ layout has)
  have aligned : alignUp (layoutEnd objectHeaderBytes cells) objectHeaderBytes < _ :=
    Lib.alignUp_lt (by decide) (layoutEnd objectHeaderBytes cells)
  rw [instanceSize] at size
  simp only [objectHeaderBytes, u32Max] at *
  omega

def derivedLayout : FieldLayout :=
  ⟨"Derived", [entryOf "Base" 0 .boolean, entryOf "Base" 1 (.named "Point"), entryOf "Derived" 2 (.float .float64)],
    Ir.defaultModuleSpan⟩

/-- `Point` lies in `Base`, and `Derived` extends `Base`. -/
def shapes : Ir.Module where
  functions := [ownFunction .default "Point.$default" "Point", ownFunction .fieldInit "Base.$fields" "Base",
    ownFunction .fieldInit "Derived.$fields" "Derived"]
  fieldNames := ["first", "second", "third"]
  fieldLayouts := Std.TreeMap.ofList [recordOf "Point" [.integer .int32, .boolean],
    recordOf "Base" [.boolean, .named "Point"], ("Derived", derivedLayout)]
  classModel := { bases := Std.TreeMap.ofList [("Derived", "Base")] }

theorem gapsKept_shapes : GapsKept shapes := by
  intro className base ancestor step lacks
  have member : (className, base) ∈ [("Derived", "Base")] := Std.TreeMap.mem_toList_iff_getElem?_eq_some.2 step
  cases List.mem_singleton.1 member
  exact absurd rfl lacks

theorem cells_point : Cells shapes (fieldTypes shapes "Point") [storage .i32, storage .i1] :=
  .scalar rfl rfl (.scalar rfl rfl .nil)

theorem fits_shapes (owner : String) (layout : FieldLayout) (has : shapes.fieldLayouts[owner]? = some layout) :
    Fits shapes owner := by
  have member : (owner, layout) ∈ [recordOf "Base" [.boolean, .named "Point"], ("Derived", derivedLayout),
    recordOf "Point" [.integer .int32, .boolean]] := Std.TreeMap.mem_toList_iff_getElem?_eq_some.2 has
  rcases List.mem_cons.1 member with base | member
  · cases base
    exact ⟨_, .scalar rfl rfl (.struct rfl cells_point .nil), by decide⟩
  · rcases List.mem_pair.1 member with derived | point
    · cases derived
      exact ⟨_, .scalar rfl rfl (.struct rfl cells_point (.scalar rfl rfl .nil)), by decide⟩
    · cases point
      exact ⟨_, cells_point, by decide⟩

theorem layout_sound_iff_shapes : Sound shapes "Derived" derivedLayout :=
  (layout_sound_iff 2 shapes rfl rfl).2 ⟨fits_shapes, gapsKept_shapes⟩ "Derived" derivedLayout rfl

-- Behind a truth value and a `Point` of 32 bytes at 24.
example : fieldByteOffset shapes ⟨"Derived", 2, 2⟩ = .ok (some 56) := by rfl

end Layout

end BasicNext.Native
