import BasicNext.Compress.Archive
import Mathlib.Data.List.AList
import Mathlib.Algebra.Order.BigOperators.Group.List
import Mathlib.Algebra.Order.Ring.Nat

/-!
# What an extraction writes

Over every archive, destination and limit, and whatever the file access answers: what stays on disk, and
that every path written was authorized and lies where the archive puts it. The budget is the invariant of
the loop: what is kept and what is left never exceed the limit together.
-/

namespace BasicNext.Compress

open Lib Lib.UnixPath

/-! ### What is kept -/

/-- The files an extraction wrote, with their bytes. -/
abbrev Contents := AList fun _ : Path => Nat

def Event.apply (contents : Contents) : Event → Contents
  | .file path => contents.insert path 0
  | .wrote path bytes => contents.insert path bytes
  | .removed path => contents.erase path
  | _ => contents

def contents (log : List Event) : Contents := log.foldl Event.apply ∅

def weight (contents : Contents) : Nat := (contents.entries.map fun entry => entry.2).sum

/-- The bytes kept after a log. -/
def total (log : List Event) : Nat := weight (contents log)

theorem weight_erase_le (contents : Contents) (path : Path) : weight (contents.erase path) ≤ weight contents :=
  ((List.kerase_sublist path contents.entries).map _).sum_le_sum fun _ _ => Nat.zero_le _

theorem weight_insert_le (contents : Contents) (path : Path) (bytes : Nat) :
    weight (contents.insert path bytes) ≤ weight contents + bytes := by
  have rest := weight_erase_le contents path
  rw [weight, AList.entries_insert, List.map_cons, List.sum_cons]
  change bytes + weight (contents.erase path) ≤ weight contents + bytes
  omega

theorem weight_erase_insert_le (contents : Contents) (path : Path) (bytes : Nat) :
    weight ((contents.insert path bytes).erase path) ≤ weight contents := by
  have rest := weight_erase_le contents path
  have dropped : ((contents.insert path bytes).erase path).entries = (contents.erase path).entries := by
    change List.kerase path (⟨path, bytes⟩ :: List.kerase path contents.entries) = List.kerase path contents.entries
    exact List.kerase_cons_eq rfl
  rw [weight, dropped]
  exact rest

theorem contents_concat (log : List Event) (event : Event) :
    contents (log ++ [event]) = event.apply (contents log) := by
  rw [contents, List.foldl_append]
  rfl

theorem total_concat_le (log : List Event) (event : Event)
    (noWrite : ∀ path bytes, event ≠ .wrote path bytes) : total (log ++ [event]) ≤ total log := by
  rw [total, contents_concat]
  cases event with
  | file path => exact weight_insert_le _ path 0
  | wrote path bytes => exact absurd rfl (noWrite path bytes)
  | removed path => exact weight_erase_le _ path
  | authorized => exact le_rfl
  | directory => exact le_rfl
  | kept => exact le_rfl

theorem total_wrote_le (log : List Event) (path : Path) (bytes : Nat) :
    total (log ++ [.wrote path bytes]) ≤ total log + bytes := by
  rw [total, contents_concat]
  exact weight_insert_le _ path bytes

theorem total_removed_le (log : List Event) (path : Path) (bytes : Nat) :
    total (log ++ [.wrote path bytes] ++ [.removed path]) ≤ total log := by
  rw [total, contents_concat, contents_concat]
  exact weight_erase_insert_le _ path bytes

/-! ### Where paths lie -/

/-- Neither a root nor a step to a parent. -/
def Relative (name : Path) : Prop := isAbsolute name = false ∧ .parentDir ∉ components name

def Event.target : Event → Option Path
  | .directory path => some path
  | .file path => some path
  | .wrote path _ => some path
  | _ => none

variable {σ : Type} (host : Host σ)

/-- The destination joined with the name of an entry. -/
def Placed (entries : List (Except CompressError Entry)) (dest path : Path) : Prop :=
  ∃ entry name, .ok entry ∈ entries ∧ entry.enclosedName = some name ∧ Relative name ∧ path = push dest name

/-- The promises about the paths of a log. -/
structure Contained (entries : List (Except CompressError Entry)) (dest : Path) (log : List Event) :
    Prop where
  authorized : ∀ before event after, log = before ++ event :: after →
    ∀ path, event.target = some path → .authorized path ∈ before
  files : ∀ path, .file path ∈ log → Placed entries dest path
  directories : ∀ path, .directory path ∈ log →
    Placed entries dest path ∨ ∃ placed, Placed entries dest placed ∧ parent placed = some path

theorem Contained.concat {entries : List (Except CompressError Entry)} {dest : Path} {log : List Event}
    (contained : Contained entries dest log) {event : Event}
    (authorized : ∀ path, event.target = some path → .authorized path ∈ log)
    (file : ∀ path, event = .file path → Placed entries dest path)
    (directory : ∀ path, event = .directory path →
      Placed entries dest path ∨ ∃ placed, Placed entries dest placed ∧ parent placed = some path) :
    Contained entries dest (log ++ [event]) where
  authorized := by
    intro before found after split path writes
    rcases List.eq_nil_or_concat after with rfl | ⟨initial, last, rfl⟩
    · obtain ⟨rfl, same⟩ := List.append_inj' split rfl
      cases same
      exact authorized path writes
    · rw [List.concat_eq_append, ← List.cons_append, ← List.append_assoc] at split
      obtain ⟨rfl, -⟩ := List.append_inj' split rfl
      exact contained.authorized before found initial rfl path writes
  files := by
    intro path member
    rcases List.mem_append.1 member with old | new
    · exact contained.files path old
    · exact file path (List.mem_singleton.1 new).symm
  directories := by
    intro path member
    rcases List.mem_append.1 member with old | new
    · exact contained.directories path old
    · exact directory path (List.mem_singleton.1 new).symm

/-! ### The steps of an extraction -/

section Steps

variable {entries : List (Except CompressError Entry)} {dest : Path} {most : Nat}

/-- The promises hold and at most so many bytes are kept. -/
def Within (entries : List (Except CompressError Entry)) (dest : Path) (most : Nat) (world : World σ) : Prop :=
  Contained entries dest world.log ∧ total world.log ≤ most

/-- An error, never an underflow, that keeps no more. -/
def Failed (entries : List (Except CompressError Entry)) (dest : Path) (most : Nat) (fault : Fault)
    (world : World σ) : Prop :=
  Within entries dest most world ∧ fault ≠ .underflow

theorem record_within {P : World σ → Prop} {event : Event}
    {E : Fault → World σ → Prop} (held : ∀ world, P world → Within entries dest most world)
    (noWrite : ∀ path bytes, event ≠ .wrote path bytes)
    (authorized : ∀ world, P world → ∀ path, event.target = some path → .authorized path ∈ world.log)
    (file : ∀ path, event = .file path → Placed entries dest path)
    (directory : ∀ path, event = .directory path →
      Placed entries dest path ∨ ∃ placed, Placed entries dest placed ∧ parent placed = some path) :
    Triple P (record event) (fun _ world => Within entries dest most world ∧ event ∈ world.log) E := by
  refine Triple.modify fun world before => ⟨⟨?_, ?_⟩, ?_⟩
  · exact (held world before).1.concat (authorized world before) file directory
  · exact (total_concat_le _ _ noWrite).trans (held world before).2
  · exact List.mem_append_right _ (List.mem_singleton_self event)

theorem fail_within {α : Type} {Q : α → World σ → Prop} (error : CompressError) :
    Triple (Within entries dest most) (fail error) Q (Failed entries dest most) :=
  Triple.throw fun _ before => ⟨before, fun wrong => nomatch wrong⟩

theorem performed_within {P : World σ → Prop} (path : Path) (operation : σ → Path → Except IoError Unit × σ)
    (stable : ∀ world state, P world → P { world with state := state })
    (held : ∀ world, P world → Within entries dest most world) :
    Triple P (performed host path operation) (fun _ => P) (Failed entries dest most) := by
  refine Triple.get_bind fun world => ?_
  refine Triple.bind (Q := fun _ => P) (Triple.set fun after before => ?_) fun _ => ?_
  · exact before.1 ▸ stable _ _ before.2
  · have failed : ∀ error, Triple P (fail error : Action σ Unit) (fun _ => P)
        (Failed entries dest most) := fun error =>
      (fail_within error).mono held (fun _ _ kept => kept) (fun _ _ ended => ended)
    split
    · exact Triple.pure fun _ kept => kept
    · split
      · exact failed _
      · exact failed _

theorem authorize_within (path : Path) :
    Triple (Within entries dest most) (authorize host path)
      (fun _ world => Within entries dest most world ∧ .authorized path ∈ world.log)
      (Failed entries dest most) := by
  refine Triple.get_bind fun world => ?_
  split
  · exact record_within (fun _ before => before.2) (by simp) (by simp [Event.target]) (by simp) (by simp)
  · exact (fail_within _).mono (fun _ before => before.2) (fun _ _ kept => kept) (fun _ _ ended => ended)

theorem createDirectory_within {path : Path}
    (placed : Placed entries dest path ∨ ∃ below, Placed entries dest below ∧ parent below = some path) :
    Triple (fun world => Within entries dest most world ∧ .authorized path ∈ world.log)
      (createDirectory host path) (fun _ => Within entries dest most) (Failed entries dest most) := by
  refine Triple.bind (Q := fun _ => Within entries dest most) ?_ fun _ => ?_
  · refine (record_within (fun _ before => before.1) (by simp) (fun world before other same => ?_)
      (by simp) (fun other same => ?_)).mono
      (fun _ before => before) (fun _ _ after => after.1) (fun _ _ ended => ended)
    · cases same
      exact before.2
    · cases same
      exact placed
  · exact performed_within host path _ (fun _ _ kept => kept) fun _ kept => kept

theorem createParent_within {path : Path} (placed : Placed entries dest path) :
    Triple (Within entries dest most) (createParent host path) (fun _ => Within entries dest most)
      (Failed entries dest most) := by
  rw [createParent]
  split
  · exact Triple.pure fun _ kept => kept
  · next above found =>
    refine Triple.get_bind fun world => ?_
    refine Triple.mono (P := Within entries dest most) ?_ (fun _ before => before.2) (fun _ _ kept => kept)
      (fun _ _ ended => ended)
    refine Triple.ite (fun _ => ?_) (fun _ => Triple.pure fun _ kept => kept)
    exact Triple.bind (authorize_within host above) fun _ =>
      createDirectory_within host (.inr ⟨path, placed, found⟩)

theorem createFile_within {path : Path} (placed : Placed entries dest path) :
    Triple (Within entries dest most) (createFile host path)
      (fun _ world => Within entries dest most world ∧ .authorized path ∈ world.log)
      (Failed entries dest most) := by
  refine Triple.bind (createParent_within host placed) fun _ => ?_
  refine Triple.bind (authorize_within host path) fun _ => ?_
  refine Triple.bind
    (Q := fun _ world => Within entries dest most world ∧ .authorized path ∈ world.log) ?_ fun _ => ?_
  · refine Triple.modify fun world before => ⟨⟨?_, ?_⟩, ?_⟩
    · refine before.1.1.concat (fun other same => ?_) (fun other same => ?_) (fun _ wrong => nomatch wrong)
      · cases same
        exact before.2
      · cases same
        exact placed
    · exact (total_concat_le _ _ (by simp)).trans before.1.2
    · exact List.mem_append_left _ before.2
  · exact performed_within host path _ (fun _ _ kept => kept) fun _ kept => kept.1

theorem copied_le (reader : Reader) (limit : Nat) (room : Option (Nat × IoError)) :
    (copied reader limit room).1 ≤ limit := by
  have supplied := Nat.min_le_right reader.length limit
  unfold copied
  dsimp only
  split
  · split
    · simp only
      omega
    · exact supplied
  · exact supplied

theorem copied_lt {reader : Reader} {limit : Nat} {room : Option (Nat × IoError)} {error : IoError}
    (stopped : (copied reader limit room).2 = some error) : (copied reader limit room).1 < limit := by
  have supplied := Nat.min_le_right reader.length limit
  have length := Nat.min_le_left reader.length limit
  have readFailure : (if reader.length < limit then reader.failure else none) = some error →
      min reader.length limit < limit := by
    split
    · intro _
      omega
    · intro wrong
      cases wrong
  unfold copied at stopped ⊢
  dsimp only at stopped ⊢
  split at stopped
  · split at stopped
    · next small =>
      simp only [small, if_true]
      omega
    · next large =>
      simp only [large, if_false]
      exact readFailure stopped
  · exact readFailure stopped

theorem readBounded_le {reader : Reader} {limit : UInt64} {held : Nat}
    (read : readBounded reader limit = .ok (.ok held)) : held ≤ limit.toNat := by
  unfold readBounded at read
  dsimp only at read
  split at read
  · cases read
  · split at read
    · cases read
    · next few =>
      cases read
      omega

/-- After a copy the file holds what was written, beside what was there before. -/
def Copied (entries : List (Except CompressError Entry)) (dest : Path) (most : Nat) (path : Path)
    (written : Nat) (world : World σ) : Prop :=
  ∃ before, world.log = before ++ [.wrote path written] ∧ Contained entries dest world.log ∧ total before ≤ most

theorem copy_within {path : Path} (reader : Reader) {limit : Nat} (positive : 0 < limit) :
    Triple (fun world => Within entries dest most world ∧ .authorized path ∈ world.log)
      (copy host path reader limit)
      (fun written world => Copied entries dest most path written world ∧ written ≤ limit)
      (Failed entries dest (most + (limit - 1))) := by
  refine Triple.get_bind fun world => ?_
  have short := copied_le reader limit (host.room world.state path)
  refine Triple.bind
    (Q := fun _ after => Within entries dest most after ∧ .authorized path ∈ after.log)
    (Triple.set fun after before => before.1 ▸ before.2) fun _ => ?_
  refine Triple.bind (Q := fun _ =>
    Copied entries dest most path (copied reader limit (host.room world.state path)).1) ?_ fun _ => ?_
  · refine Triple.modify fun after before => ⟨after.log, rfl, ?_, before.1.2⟩
    refine before.1.1.concat (fun other same => ?_) (by simp) (by simp)
    cases same
    exact before.2
  · split
    · exact Triple.pure fun _ done => ⟨done, short⟩
    · next error stopped =>
      have lt := copied_lt stopped
      refine Triple.throw fun after ended => ⟨?_, fun wrong => nomatch wrong⟩
      obtain ⟨before, log, contained, few⟩ := ended
      have grown := total_wrote_le before path (copied reader limit (host.room world.state path)).1
      rw [← log] at grown
      exact ⟨contained, by omega⟩

theorem removeFile_within {path : Path} {written : Nat} {limit : Nat} (less : most ≤ limit)
    (beyond : most + written ≤ limit + 1) :
    Triple (Copied entries dest most path written) (removeFile host path)
      (fun (_ : Unit) world => Contained entries dest world.log ∧ total world.log ≤ limit + 1 ∧
        ((∀ path, .kept path ∉ world.log) → total world.log ≤ limit))
      (Failed entries dest most) := by
  refine Triple.get_bind fun world => ?_
  refine Triple.bind (Q := fun _ => Copied entries dest most path written)
    (Triple.set fun after before => before.1 ▸ before.2) fun _ => ?_
  split
  · refine Triple.modify fun after copied => ?_
    obtain ⟨before, log, contained, few⟩ := copied
    have left : total (after.log ++ [.removed path]) ≤ most := by
      rw [log]
      exact (total_removed_le before path written).trans few
    exact ⟨contained.concat (by simp [Event.target]) (by simp) (by simp),
      (left.trans less).trans (Nat.le_succ limit), fun _ => left.trans less⟩
  · refine Triple.modify fun after copied => ?_
    obtain ⟨before, log, contained, few⟩ := copied
    have grown := total_wrote_le before path written
    have same := total_concat_le after.log (.kept path) (by simp)
    rw [← log] at grown
    refine ⟨contained.concat (by simp [Event.target]) (by simp) (by simp),
      same.trans (grown.trans (by omega)), fun unkept => ?_⟩
    exact absurd (List.mem_append_right _ (List.mem_singleton_self _)) (unkept path)

end Steps

/-! ### The loop over the entries -/

section Loop

variable {entries : List (Except CompressError Entry)} {dest : Path} {limit : UInt64}

/-- What holds when an extraction has failed. -/
structure Ended (entries : List (Except CompressError Entry)) (dest : Path) (limit : UInt64) (fault : Fault)
    (world : World σ) : Prop where
  contained : Contained entries dest world.log
  atMost : total world.log ≤ limit.toNat + 1
  unlessKept : (∀ path, .kept path ∉ world.log) → total world.log ≤ limit.toNat
  noUnderflow : fault ≠ .underflow

/-- What is kept and what is left of the budget stay within the limit together. -/
def Balanced (entries : List (Except CompressError Entry)) (dest : Path) (limit budget : UInt64) (world : World σ) : Prop :=
  ∃ most, Within entries dest most world ∧ most + budget.toNat ≤ limit.toNat

theorem Failed.ended {most : Nat} {fault : Fault} {world : World σ} (failed : Failed entries dest most fault world)
    (less : most ≤ limit.toNat) : Ended entries dest limit fault world :=
  have few := failed.1.2
  ⟨failed.1.1, by omega, fun _ => by omega, failed.2⟩

theorem extractEntry_balanced {entry : Entry} (member : .ok entry ∈ entries)
    (enclosed : ∀ name, entry.enclosedName = some name → Relative name) (budget : UInt64) :
    Triple (Balanced entries dest limit budget) (extractEntry host dest limit entry budget)
      (fun budget => Balanced entries dest limit budget) (Ended entries dest limit) := by
  intro world balanced
  obtain ⟨most, within, balance⟩ := balanced
  suffices step : Triple (Within entries dest most) (extractEntry host dest limit entry budget)
      (fun budget => Balanced entries dest limit budget) (Ended entries dest limit) from step world within
  have ended : ∀ fault (world : World σ), Failed entries dest most fault world →
      Ended entries dest limit fault world := fun _ _ failed => failed.ended (by omega)
  have unspent : ∀ (_ : Unit) (world : World σ), Within entries dest most world →
      Balanced entries dest limit budget world := fun _ _ within => ⟨most, within, balance⟩
  have slip : Triple (Within entries dest most) (fail (.zipSlip entry.name) : Action σ UInt64)
      (fun budget => Balanced entries dest limit budget) (Ended entries dest limit) :=
    (fail_within _).mono (fun _ before => before) (fun _ _ kept => kept) ended
  unfold extractEntry
  split
  · exact slip
  · next name found =>
    have placed : Placed entries dest (push dest name) := ⟨entry, name, member, found, enclosed name found, rfl⟩
    refine Triple.ite (fun _ => slip) fun _ => Triple.ite (fun _ => ?_) fun _ => ?_
    · refine Triple.get_bind fun now => Triple.mono (P := Within entries dest most) ?_
        (fun _ before => before.2) (fun _ _ kept => kept) (fun _ _ ended => ended)
      refine Triple.ite (fun _ => ?_) fun _ => Triple.pure fun _ => unspent () _
      refine Triple.bind ((authorize_within host _).mono (fun _ before => before) (fun _ _ kept => kept)
        ended) fun _ => ?_
      refine Triple.bind ((createDirectory_within host (.inl placed)).mono (fun _ before => before)
        unspent ended) fun _ => ?_
      exact Triple.pure fun _ kept => kept
    · have room : saturatingSucc budget ≤ budget.toNat + 1 := Nat.min_le_left _ _
      have positive : 0 < saturatingSucc budget := Nat.lt_min.2 ⟨by omega, by decide⟩
      refine Triple.bind ((createFile_within host placed).mono (fun _ before => before) (fun _ _ kept => kept)
        ended) fun _ => ?_
      refine Triple.bind ((copy_within host entry.reader positive).mono (fun _ before => before)
        (fun _ _ copied => copied) fun _ _ failed => failed.ended (by omega)) fun written => ?_
      refine Triple.ite (fun beyond => ?_) fun fits => ?_
      · intro now copied
        refine Triple.bind ((removeFile_within host (show most ≤ limit.toNat by omega)
          (show most + written ≤ limit.toNat + 1 by omega)).mono (fun _ before => before)
          (fun _ _ kept => kept) ended) (fun _ => ?_) now copied.1
        exact Triple.throw fun _ removed =>
          ⟨removed.1, removed.2.1, removed.2.2, fun wrong => nomatch wrong⟩
      · rw [spend, if_neg (by omega)]
        refine Triple.pure fun now copied => ?_
        obtain ⟨⟨before, log, contained, few⟩, -⟩ := copied
        have grown := total_wrote_le before (push dest name) written
        have bound := budget.toNat_lt
        refine ⟨most + written, ⟨contained, ?_⟩, ?_⟩
        · rw [log]
          omega
        · have small : (UInt64.ofNat written).toNat = written := by
            rw [UInt64.toNat_ofNat']
            omega
          rw [UInt64.toNat_sub_of_le _ _ (by rw [UInt64.le_iff_toNat_le, small]; omega), small]
          omega

theorem extractEntries_balanced {rest : List (Except CompressError Entry)} (budget : UInt64)
    (members : ∀ item ∈ rest, item ∈ entries)
    (enclosed : ∀ entry, .ok entry ∈ entries → ∀ name, entry.enclosedName = some name → Relative name) :
    Triple (Balanced entries dest limit budget) (extractEntries host dest limit rest budget)
      (fun _ world => ∃ budget, Balanced entries dest limit budget world) (Ended entries dest limit) := by
  induction rest generalizing budget with
  | nil => exact Triple.pure fun _ balanced => ⟨budget, balanced⟩
  | cons item rest ih =>
    obtain ⟨here, later⟩ := List.forall_mem_cons.1 members
    cases item with
    | error error =>
      refine Triple.throw fun world balanced => ?_
      obtain ⟨most, within, balance⟩ := balanced
      exact Failed.ended ⟨within, fun wrong => nomatch wrong⟩ (by omega)
    | ok entry =>
      exact Triple.bind (extractEntry_balanced host here (enclosed entry here) budget) fun budget =>
        ih budget later

end Loop

/-! ### Whole extractions -/

/-- The entries that an archive opens, none when it is not open for reading. -/
def entriesOf (archive : Except CompressError (List (Except CompressError Entry))) :
    List (Except CompressError Entry) :=
  match archive with
  | .ok entries => entries
  | .error _ => []

/-- An extraction from a state of the file system: its result, and the log of what it did. -/
def extraction (archive : Except CompressError (List (Except CompressError Entry))) (requested : Path)
    (limit : UInt64) (state : σ) : Except Fault Unit × World σ :=
  (extractAllWithin host archive requested limit).run.run ⟨state, []⟩

theorem contained_nil (entries : List (Except CompressError Entry)) (dest : Path) : Contained entries dest [] where
  authorized before _ _ split := by cases before <;> cases split
  files _ member := nomatch member
  directories _ member := nomatch member

/-- An extraction keeps no more than its limit, and one byte more only where the removal of the file that
passed the limit fails; an entry read at once is within the limit; the budget never underflows; and every
path written was authorized, and is the destination joined with the name of an entry, or the missing
parent directory of such a path. -/
theorem extraction_contained (archive : Except CompressError (List (Except CompressError Entry)))
    (requested : Path) (limit : UInt64) (state : σ)
    (enclosed : ∀ entry, .ok entry ∈ entriesOf archive → ∀ name, entry.enclosedName = some name → Relative name) :
    let done := extraction host archive requested limit state
    total done.2.log ≤ limit.toNat + 1 ∧ ((∀ path, .kept path ∉ done.2.log) → total done.2.log ≤ limit.toNat) ∧
      (∀ reader held, readBounded reader limit = .ok (.ok held) → held ≤ limit.toNat) ∧
      done.1 ≠ .error .underflow ∧
      Contained (entriesOf archive) (destination host state requested) done.2.log := by
  have run : Triple (fun world => world = ⟨state, []⟩) (extractAllWithin host archive requested limit)
      (fun _ world => ∃ budget, Balanced (entriesOf archive) (destination host state requested) limit budget world)
      (Ended (entriesOf archive) (destination host state requested) limit) := by
    refine Triple.get_bind fun world => ?_
    rintro _ ⟨rfl, rfl⟩
    have start : Balanced (entriesOf archive) (destination host state requested) limit limit
        (⟨state, []⟩ : World σ) := ⟨0, ⟨contained_nil _ _, Nat.le_refl 0⟩, by omega⟩
    cases archive with
    | error error => exact Failed.ended ⟨⟨contained_nil _ _, Nat.le_refl 0⟩, fun wrong => nomatch wrong⟩ (by omega)
    | ok entries => exact extractEntries_balanced host limit (fun _ member => member) enclosed _ start
  obtain ⟨success, failure⟩ := run.result rfl
  cases done : extraction host archive requested limit state with
  | mk outcome world =>
    cases outcome with
    | error fault =>
      have after := failure fault world done
      exact ⟨after.atMost, after.unlessKept, fun _ _ => readBounded_le,
        fun same => after.noUnderflow (by cases same; rfl), after.contained⟩
    | ok =>
      obtain ⟨budget, most, ⟨contained, few⟩, balance⟩ := success _ world done
      have within : total world.log ≤ limit.toNat := few.trans (by omega)
      exact ⟨within.trans (Nat.le_succ _), fun _ => within, fun _ _ => readBounded_le,
        fun wrong => (nomatch wrong), contained⟩

/-- A file system with one directory, where nothing that is created can be removed again. -/
def keeper : Host Unit where
  canonicalize _ path := some path
  exists_ _ path := path = "/out".toList
  check _ _ _ := .ok ()
  createDirAll _ _ := (.ok (), ())
  create _ _ := (.ok (), ())
  removeFile _ _ := (.error ⟨false, "Permission denied"⟩, ())
  room _ _ := none
  write _ _ _ := ()
  isRefusal _ := false

/-- One file of nine bytes in a directory, which the header declares as empty. -/
def nineBytes : List (Except CompressError Entry) := [.ok ⟨"a/b", some "a/b".toList, false, 0, ⟨9, none⟩⟩]

theorem extraction_contained_nineBytes :
    let done := extraction keeper (.ok nineBytes) "/out".toList 9 ()
    total done.2.log ≤ (9 : UInt64).toNat + 1 ∧
      ((∀ path, .kept path ∉ done.2.log) → total done.2.log ≤ (9 : UInt64).toNat) ∧
      (∀ reader held, readBounded reader 9 = .ok (.ok held) → held ≤ (9 : UInt64).toNat) ∧
      done.1 ≠ .error .underflow ∧
      Contained (entriesOf (.ok nineBytes)) (destination keeper () "/out".toList) done.2.log :=
  extraction_contained keeper (.ok nineBytes) "/out".toList 9 () (by
    intro entry member name named
    rw [entriesOf, nineBytes, List.mem_singleton] at member
    cases member
    cases named
    exact ⟨by decide, by decide⟩)

/-- Nine bytes are kept under a limit of eight, and a directory is created that is not the destination
joined with the name of an entry. -/
theorem extraction_keeps_more :
    let done := extraction keeper (.ok nineBytes) "/out".toList 8 ()
    done.1 = .error (.failed (.limitExceeded 8)) ∧ total done.2.log = 9 ∧ .directory "/out/a".toList ∈ done.2.log ∧
      ¬Placed nineBytes "/out".toList "/out/a".toList := by
  refine ⟨by decide, by decide, by decide, ?_⟩
  rintro ⟨entry, name, member, named, -, same⟩
  rw [nineBytes, List.mem_singleton] at member
  cases member
  cases named
  exact absurd same (by decide)

end BasicNext.Compress
