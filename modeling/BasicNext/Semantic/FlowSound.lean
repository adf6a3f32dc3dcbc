import BasicNext.Semantic.Refinement

/-!
# Soundness of the flow

One induction over executions: what a block begins with still holds where control leaves it, by any way
out, up to the narrowings of what the block writes; what its end lists holds where it ends normally. Loops
need the first half only, since they begin with the narrowings of their writes ended. `UNTIL` needs the
second half after `CONTINUE REPEAT` as well, which the guard of the execution has to grant.
-/

namespace BasicNext.Semantic

open Frontend Interp

variable {world : World} {scope : TypeScope} {continues : Block Locals → Store world → Prop}

/-! ### Conditions -/

/-- A condition narrows the locals that it is evaluated with soundly, where no object dies that it finds. -/
def NarrowsSoundly (world : World) (scope : TypeScope) (condition : Expression) : Prop :=
  ∀ (mayDie : String → Prop) (store after : Store world) (truth : Bool) (locals narrowed : Locals), AllFlat locals →
    ListsNull world mayDie locals → Spares scope mayDie (narrowings condition truth) → Holds store locals →
    Evaluates scope mayDie condition store truth after → narrowedLocals scope condition locals truth = .ok narrowed →
    Holds after narrowed

theorem Store.Evolves.refl (store : Store world) : store.Evolves store :=
  ⟨fun _ unfilled => unfilled, fun _ slot filled => ⟨slot, filled, rfl, fun _ => Iff.rfl⟩⟩

theorem Store.Evolves.trans {store middle after : Store world} (first : store.Evolves middle)
    (second : middle.Evolves after) : store.Evolves after := by
  refine ⟨fun name unfilled => second.1 name (first.1 name unfilled), fun name slot filled => ?_⟩
  obtain ⟨slot', filled', declared', same'⟩ := first.2 name slot filled
  obtain ⟨slot'', filled'', declared'', same''⟩ := second.2 name slot' filled'
  exact ⟨slot'', filled'', declared''.trans declared', fun ty => (same' ty).trans (same'' ty)⟩

variable {store after : Store world}

theorem Holds.evaluates {mayDie : String → Prop} {condition : Expression} {truth : Bool} {locals : Locals}
    (holds : Holds store locals) (listsNull : ListsNull world mayDie locals)
    (evaluates : Evaluates scope mayDie condition store truth after) : Holds after locals := by
  induction evaluates with
  | not _ _ ih | andLeft _ _ ih | orLeft _ _ ih => exact ih holds
  | andRight _ _ _ ihLeft ihRight | orRight _ _ _ ihLeft ihRight => exact ihRight (ihLeft holds)
  | test _ _ _ _ _ _ evolves | free _ _ evolves => exact holds.evolves evolves
  | dies dies _ ih => exact ih (holds.dies listsNull dies)

theorem Holds.died {mayDie : String → Prop} {locals : Locals} (holds : Holds store locals)
    (listsNull : ListsNull world mayDie locals) (died : Relation.ReflTransGen (Store.Dies mayDie) store after) :
    Holds after locals := by
  induction died with
  | refl => exact holds
  | tail _ dies ih => exact ih.dies listsNull dies

theorem NarrowsSoundly.holds {found : List String} {condition : Expression} {truth : Bool} {locals narrowed : Locals}
    (sound : NarrowsSoundly world scope condition) (flat : AllFlat locals) (listsNull : ListsNull world (· ∉ found) locals)
    (holds : Holds store locals)
    (evaluates : Evaluates scope (· ∉ foundNames scope condition truth ++ found) condition store truth after)
    (narrows : narrowedLocals scope condition locals truth = .ok narrowed) : Holds after narrowed :=
  sound _ store after truth locals narrowed flat
    (listsNull.mono fun _ apart member => apart (List.mem_append_right _ member))
    (fun _ member leavesOut apart => apart (List.mem_append_left _ (mem_foundNames member leavesOut))) holds evaluates narrows

/-! ### Ways out -/

variable {found : List String}

theorem not_terminates {statement : Statement Locals}
    {guard : Guard world} (executes : Executes scope guard found (.statement statement) store .normal after) :
    terminates statement = false := by
  cases executes with
  | dies other => exact absurd rfl (other statement)
  | _ => rfl

def Task.Stays (task : Task) (outcome : Outcome) : Prop :=
  match task with
  | .statement node => node.guaranteesReturn = true → outcome ≠ .normal
  | .block _ body => body.guaranteesReturn = true → outcome ≠ .normal
  | .branches chain => chain.hasOtherwise = true → chain.guaranteeReturn = true → outcome ≠ .normal
  | .loop .. => True

variable {outcome : Outcome} {task : Task}

theorem executes_stays {guard : Guard world} (executes : Executes scope guard found task store outcome after) :
    task.Stays outcome := by
  induction executes with
  | return_ | stop | control => exact fun _ => nofun
  | if_ _ ih =>
    intro guarantees
    obtain ⟨hasOtherwise, all⟩ := Bool.and_eq_true_iff.1 guarantees
    exact ih hasOtherwise all
  | cons _ _ ihFirst ihRest =>
    intro guarantees
    rcases Bool.or_eq_true_iff.1 guarantees with first | rest
    · exact absurd rfl (ihFirst first)
    · exact ihRest rest
  | leave _ abnormal => exact fun _ => abnormal
  | dies _ _ _ ih => exact ih
  | otherwise _ ih => exact fun _ => ih
  | taken _ _ ih => exact fun _ guarantees => ih (Bool.and_eq_true_iff.1 guarantees).1
  | next _ _ ih => exact fun hasOtherwise guarantees => ih hasOtherwise (Bool.and_eq_true_iff.1 guarantees).2
  | untaken => exact nofun
  | ends | left | completes | repeats => trivial
  | _ => exact nofun

/-! ### Loops -/

variable {head : LoopHead Locals} {body : Block Locals}

theorem holds_of_enters {locals : Locals}
    {store entered : Store world} (flat : AllFlat locals)
    (listsNull : ListsNull world (fun name => name ∉ found ∧ name ∉ body.written) locals)
    (flows : HeadFlows scope head locals body)
    (sound : ∀ condition ∈ head.conditions, NarrowsSoundly world scope condition)
    (holds : Holds store (endNarrowings body.written locals))
    (enters : Enters scope (· ∉ foundIn scope found head) head store entered) :
    Holds entered body.note ∧ AllFlat body.note ∧ ListsNull world (· ∉ foundIn scope found head) body.note ∧
      Refines world body.note (endNarrowings body.written locals) := by
  have flatEntry := flat.endNarrowings body.written
  cases head with
  | while_ condition note =>
    obtain ⟨rfl, narrows⟩ := flows
    exact ⟨(sound condition List.mem_cons_self).holds flatEntry listsNull.endNarrowings holds enters narrows,
      flatEntry.narrowed narrows, listsNull.endNarrowings.settled flatEntry narrows, Refines.narrowed narrows⟩
  | repeat_ condition note =>
    obtain rfl : entered = store := enters
    rw [flows.1]
    exact ⟨holds, flatEntry, listsNull.endNarrowings, Refines.refl _⟩
  | for_ header =>
    obtain ⟨slot, declared, rfl⟩ := enters
    obtain ⟨loopLocals, declares, begins⟩ := flows
    have entry : Holds store (endNarrowings body.written locals) := holds
    rw [begins]
    refine ⟨?_, (flat.declares declares).endNarrowings _, (listsNull.declares declares).endNarrowings,
      (Refines.declares declares).endNarrowings fun _ => id⟩
    obtain ⟨new, rfl⟩ := declares
    -- The variable is new, so ending narrowings and declaring it are independent.
    intro name symbol known
    rw [getElem?_endNarrowings] at known
    obtain ⟨symbol', known', rfl⟩ := Option.map_eq_some_iff.1 known
    rw [Std.TreeMap.getElem?_insert] at known'
    split at known'
    next same =>
      obtain rfl := Std.LawfulEqCmp.eq_of_compare same
      cases known'
      refine ⟨slot, if_pos rfl, ?_, ?_⟩
      · split <;> exact declared
      · split <;> exact declared ▸ slot.inhabits
    next different =>
      obtain ⟨slot', filled, rest⟩ := entry name (if name ∈ body.written then
        { symbol' with ty := symbol'.declaredTy } else symbol') (by rw [getElem?_endNarrowings, known']; rfl)
      refine ⟨slot', ?_, rest⟩
      rw [Store.set, if_neg fun same => different (by rw [same]; exact Std.ReflCmp.compare_self), filled]

theorem holds_of_ends {locals : Locals}
    (listsNull : ListsNull world (fun name => name ∉ found ∧ name ∉ body.written) locals)
    (holds : Holds store (endNarrowings body.written locals)) (ends : Ends scope (· ∉ found) head store after) :
    Holds after (endNarrowings body.written locals) := by
  cases head with
  | while_ condition note => exact holds.evaluates listsNull.endNarrowings ends
  | repeat_ => exact False.elim ends
  | for_ =>
    obtain rfl : after = store := ends
    exact holds

/-- `UNTIL` keeps what holds after the body. -/
theorem holds_of_repeats {mayDie : String → Prop} (listsNull : ListsNull world mayDie (endNarrowings body.written body.note))
    (holds : Holds store (endNarrowings body.written body.note))
    (repeats : Repeats scope mayDie head store after ∨ Completes scope mayDie head store after) :
    Holds after (endNarrowings body.written body.note) := by
  cases head with
  | repeat_ condition note =>
    rcases repeats with repeats | completes
    · exact holds.evaluates listsNull repeats
    · exact holds.evaluates listsNull completes
  | while_ | for_ =>
    rcases repeats with repeats | completes
    · obtain rfl : after = store := repeats
      exact holds
    · exact False.elim completes

theorem holds_of_iteration {locals : Locals} (before : Holds store (endNarrowings body.written locals))
    (refines : Refines world body.note (endNarrowings body.written locals))
    (holds : Holds after (endNarrowings body.written body.note)) :
    Holds (after.within store) (endNarrowings body.written locals) := by
  have ended : Holds after (endNarrowings body.written locals) :=
    ((refines.endNarrowings fun _ => id).trans (Refines.ended_twice _ _)).holds holds
  have twice : Holds (after.within store) (endNarrowings [] (endNarrowings body.written locals)) :=
    Holds.within_endNarrowings ended before
  exact twice

/-! ### Executions -/

/-- The guard grants that at `CONTINUE REPEAT` what the end of the body lists holds already. -/
def GuardSound (scope : TypeScope) (continues : Block Locals → Store world → Prop) : Prop :=
  ∀ (first : Statement Locals) (rest : Block Locals) (store : Store world), continues (.cons first rest) store →
    BlockFlows scope (.cons first rest) → AllFlat first.note →
    (∀ condition ∈ (Block.cons first rest).conditions, NarrowsSoundly world scope condition) →
    Holds store (endNarrowings first.written first.note) → Holds store rest.last

/-- What an execution keeps. -/
def Task.Keeps (scope : TypeScope) (found : List String) (task : Task) (store : Store world) (outcome : Outcome)
    (after : Store world) : Prop :=
  match task with
  | .statement node => ∀ next, StatementFlows scope node next → AllFlat node.note → ListsNull world (· ∉ found) node.note →
    (∀ condition ∈ node.conditions, NarrowsSoundly world scope condition) → Holds store node.note →
    Holds after (endNarrowings node.written node.note) ∧ (outcome = .normal → Holds after next)
  | .block owner body => BlockFlows scope body → AllFlat body.note → ListsNull world (· ∉ found) body.note →
    (∀ condition ∈ body.conditions, NarrowsSoundly world scope condition) → Holds store body.note →
    Holds after (endNarrowings body.written body.note) ∧
      (outcome = .normal ∨ owner = some .repeat_ ∧ outcome = .jump .continue_ .repeat_ → Holds after body.last)
  | .branches chain => BranchesFlow scope chain → AllFlat chain.note → ListsNull world (· ∉ found) chain.note →
    (∀ condition ∈ chain.allConditions, NarrowsSoundly world scope condition) → Holds store chain.note →
    Holds after (endNarrowings chain.written chain.note) ∧
      (outcome = .normal → onlyUntaken chain = true → Holds after chain.remaining)
  | .loop head body => ∀ locals, HeadFlows scope head locals body → BlockFlows scope body → AllFlat locals →
    ListsNull world (fun name => name ∉ found ∧ name ∉ body.written) locals →
    (∀ condition ∈ head.conditions, NarrowsSoundly world scope condition) →
    (∀ condition ∈ body.conditions, NarrowsSoundly world scope condition) →
    Holds store (endNarrowings body.written locals) → Holds after (endNarrowings body.written locals)

theorem keeps_of_after {node : Statement Locals}
    (keeps : ∀ next, StatementFlows scope node next → Holds store node.note → Holds after next) :
    (Task.statement node).Keeps scope found store outcome after := by
  intro next flows _ _ _ holds
  have kept := keeps next flows holds
  exact ⟨(Refines.statement flows).holds kept, fun _ => kept⟩

theorem keeps_cons {first : Statement Locals} {rest : Block Locals}
    (flows : StatementFlows scope first rest.note) {store : Store world}
    (holds : Holds store (endNarrowings rest.written rest.note)) :
    Holds store (endNarrowings (first.written ++ rest.written) first.note) := by
  rw [endNarrowings_append]
  exact ((Refines.statement flows).endNarrowings fun _ => id).holds holds

theorem keeps_taken {condition : Expression} {note : Locals} {others : List String}
    (narrows : narrowedLocals scope condition note true = .ok body.note)
    (before : Holds store note) (holds : Holds after (endNarrowings body.written body.note)) :
    Holds (after.within store) (endNarrowings (body.written ++ others) note) :=
  Holds.within_endNarrowings (((Refines.narrowed narrows).endNarrowings
    fun _ => List.mem_append_left others).holds holds) before

/-- Objects die where their locals are not found to be there. -/
def Unfound (found : List String) (name : String) : Prop := name ∉ found

theorem executes_keeps (granted : GuardSound scope continues)
    (executes : Executes scope ⟨continues, Unfound⟩ found task store outcome after) :
    task.Keeps scope found store outcome after := by
  induction executes with
  | binding binds | destructuring binds => exact keeps_of_after fun _ flows holds => holds.binds binds flows
  | assignment evolves writes | input evolves writes =>
    refine keeps_of_after fun _ flows holds => ?_
    obtain rfl := flows
    exact (holds.evolves evolves).writes writes
  | print evolves | call evolves | release evolves | return_ evolves | stop evolves =>
    refine keeps_of_after fun _ flows holds => ?_
    obtain rfl := flows
    exact holds.evolves evolves
  | control =>
    refine keeps_of_after fun _ flows holds => ?_
    obtain rfl := flows
    exact holds
  | if_ _ ih =>
    intro next flows flat listsNull sound holds
    obtain ⟨begins, flows, rfl⟩ := flows
    obtain rfl := begins
    obtain ⟨ended, last⟩ := ih flows flat listsNull sound holds
    refine ⟨ended, fun normal => ?_⟩
    split
    · exact last normal ‹_›
    · exact ended
  | loop evolves _ ih =>
    intro next flows flat listsNull sound holds
    obtain ⟨headFlows, bodyFlows, rfl⟩ := flows
    have kept := ih _ headFlows bodyFlows flat listsNull.lapse
      (fun condition member => sound condition (List.mem_append_left _ member))
      (fun condition member => sound condition (List.mem_append_right _ member))
      ((Refines.ended _ _).holds (holds.evolves evolves))
    exact ⟨kept, fun _ => kept⟩
  | nil => exact fun _ _ _ _ holds => ⟨holds, fun _ => holds⟩
  | cons first _ ihFirst ihRest =>
    intro flows flat listsNull sound holds
    obtain ⟨flowsFirst, flowsRest⟩ := flows
    rw [if_neg (by rw [not_terminates first]; exact Bool.false_ne_true)] at flowsRest
    have middle := (ihFirst _ flowsFirst flat listsNull (fun condition member => sound condition
      (List.mem_append_left _ member)) holds).2 rfl
    obtain ⟨ended, last⟩ := ihRest flowsRest (flat.statement flowsFirst) (listsNull.statement flat flowsFirst)
      (fun condition member => sound condition (List.mem_append_right _ member)) middle
    exact ⟨keeps_cons flowsFirst ended, last⟩
  | leave _ abnormal asked ih =>
    intro flows flat listsNull sound holds
    have ended := (ih _ flows.1 flat listsNull (fun condition member => sound condition (List.mem_append_left _ member))
      holds).1
    refine ⟨((Refines.refl _).endNarrowings fun _ => List.mem_append_left _).holds ended, ?_⟩
    rintro (normal | ⟨isRepeat, continues⟩)
    · exact absurd normal abnormal
    · have last := granted _ _ _ (asked isRepeat continues) flows flat sound ended
      exact last
  | @dies _ task _ _ _ _ other dies _ ih =>
    cases task with
    | statement node => exact absurd rfl (other node)
    | block | branches =>
      exact fun flows flat listsNull sound holds => ih flows flat listsNull sound (holds.dies listsNull dies)
    | loop =>
      exact fun locals headFlows bodyFlows flat listsNull headSound bodySound holds =>
        ih locals headFlows bodyFlows flat listsNull headSound bodySound (holds.dies listsNull.endNarrowings dies)
  | untaken => exact fun _ _ _ _ holds => ⟨holds, fun _ _ => holds⟩
  | otherwise _ ih =>
    intro flows flat listsNull sound holds
    obtain ⟨ended, -⟩ := ih flows flat listsNull sound holds
    exact ⟨Holds.within_endNarrowings ended holds, fun _ only => absurd only Bool.false_ne_true⟩
  | taken evaluates executes ih =>
    intro flows flat listsNull sound holds
    obtain ⟨narrows, flowsBody, -, -⟩ := flows
    have begins := (sound _ List.mem_cons_self).holds flat listsNull holds evaluates narrows
    obtain ⟨ended, -⟩ := ih flowsBody (flat.narrowed narrows) (listsNull.settled flat narrows) (fun condition member =>
      sound condition (List.mem_cons_of_mem _ (List.mem_append_left _ member))) begins
    refine ⟨keeps_taken narrows holds ended, fun normal only => ?_⟩
    -- A branch that ends normally does not guarantee to return.
    have guarantees := (Bool.and_eq_true_iff.1 (Bool.and_eq_true_iff.1 only).2).1
    exact absurd normal (executes_stays executes guarantees)
  | next evaluates _ ih =>
    intro flows flat listsNull sound holds
    obtain ⟨-, -, narrows, flowsRest⟩ := flows
    have begins := (sound _ List.mem_cons_self).holds flat listsNull holds evaluates narrows
    obtain ⟨ended, last⟩ := ih flowsRest (flat.narrowed narrows) (listsNull.settled flat narrows) (fun condition member =>
      sound condition (List.mem_cons_of_mem _ (List.mem_append_right _ member))) begins
    refine ⟨((Refines.narrowed narrows).endNarrowings fun _ => List.mem_append_right _).holds ended,
      fun normal only => last normal ?_⟩
    obtain ⟨noOtherwise, guarantees⟩ := Bool.and_eq_true_iff.1 only
    exact Bool.and_eq_true_iff.2 ⟨noOtherwise, (Bool.and_eq_true_iff.1 guarantees).2⟩
  | ends ends => exact fun _ _ _ _ listsNull _ _ holds => holds_of_ends listsNull holds ends
  | left enters _ _ ih =>
    intro locals headFlows bodyFlows flat listsNull headSound bodySound holds
    obtain ⟨begins, flatBody, listsNullBody, refines⟩ := holds_of_enters flat listsNull headFlows headSound holds enters
    obtain ⟨ended, -⟩ := ih bodyFlows flatBody listsNullBody bodySound begins
    exact holds_of_iteration holds refines ended
  | completes enters _ _ completes ih =>
    intro locals headFlows bodyFlows flat listsNull headSound bodySound holds
    obtain ⟨begins, flatBody, listsNullBody, refines⟩ := holds_of_enters flat listsNull headFlows headSound holds enters
    obtain ⟨ended, -⟩ := ih bodyFlows flatBody listsNullBody bodySound begins
    exact holds_of_iteration holds refines (holds_of_repeats listsNullBody.block ended (.inr completes))
  | repeats enters _ _ repeats _ ihBody ihLoop =>
    intro locals headFlows bodyFlows flat listsNull headSound bodySound holds
    obtain ⟨begins, flatBody, listsNullBody, refines⟩ := holds_of_enters flat listsNull headFlows headSound holds enters
    obtain ⟨ended, -⟩ := ihBody bodyFlows flatBody listsNullBody bodySound begins
    exact ihLoop locals headFlows bodyFlows flat listsNull headSound bodySound
      (holds_of_iteration holds refines (holds_of_repeats listsNullBody.block ended (.inl repeats)))

/-- What holds wherever an execution comes to. -/
def Task.Lists (scope : TypeScope) (found : List String) (task : Task) (store : Store world) (note : Locals)
    (reached : Store world) : Prop :=
  match task with
  | .statement node => ∀ next, StatementFlows scope node next → AllFlat node.note → ListsNull world (· ∉ found) node.note →
    (∀ condition ∈ node.conditions, NarrowsSoundly world scope condition) → Holds store node.note →
    Holds reached note
  | .block _ body => BlockFlows scope body → AllFlat body.note → ListsNull world (· ∉ found) body.note →
    (∀ condition ∈ body.conditions, NarrowsSoundly world scope condition) → Holds store body.note →
    Holds reached note
  | .branches chain => BranchesFlow scope chain → AllFlat chain.note → ListsNull world (· ∉ found) chain.note →
    (∀ condition ∈ chain.allConditions, NarrowsSoundly world scope condition) → Holds store chain.note →
    Holds reached note
  | .loop head body => ∀ locals, HeadFlows scope head locals body → BlockFlows scope body → AllFlat locals →
    ListsNull world (fun name => name ∉ found ∧ name ∉ body.written) locals →
    (∀ condition ∈ head.conditions, NarrowsSoundly world scope condition) →
    (∀ condition ∈ body.conditions, NarrowsSoundly world scope condition) →
    Holds store (endNarrowings body.written locals) → Holds reached note

theorem reaches_lists (granted : GuardSound scope continues) {store reached : Store world}
    {note : Locals} (reaches : Reaches scope ⟨continues, Unfound⟩ found task store note reached) :
    task.Lists scope found store note reached := by
  induction reaches with
  | statement => exact fun _ _ _ _ _ holds => holds
  | if_ _ ih =>
    intro next flows flat listsNull sound holds
    obtain ⟨begins, flows, -⟩ := flows
    obtain rfl := begins
    exact ih flows flat listsNull sound holds
  | loop evolves _ ih =>
    intro next flows flat listsNull sound holds
    obtain ⟨headFlows, bodyFlows, -⟩ := flows
    exact ih _ headFlows bodyFlows flat listsNull.lapse
      (fun condition member => sound condition (List.mem_append_left _ member))
      (fun condition member => sound condition (List.mem_append_right _ member))
      ((Refines.ended _ _).holds (holds.evolves evolves))
  | nil => exact fun _ _ _ _ holds => holds
  | first _ ih =>
    intro flows flat listsNull sound holds
    exact ih _ flows.1 flat listsNull (fun condition member => sound condition (List.mem_append_left _ member)) holds
  | rest executes _ ih =>
    intro flows flat listsNull sound holds
    obtain ⟨flowsFirst, flowsRest⟩ := flows
    rw [if_neg (by rw [not_terminates executes]; exact Bool.false_ne_true)] at flowsRest
    have middle := (executes_keeps granted executes _ flowsFirst flat listsNull (fun condition member => sound condition
      (List.mem_append_left _ member)) holds).2 rfl
    exact ih flowsRest (flat.statement flowsFirst) (listsNull.statement flat flowsFirst) (fun condition member =>
      sound condition (List.mem_append_right _ member)) middle
  | condition => exact fun _ _ _ _ holds => holds
  | otherwise _ ih => exact ih
  | taken evaluates _ ih =>
    intro flows flat listsNull sound holds
    obtain ⟨narrows, flowsBody, -, -⟩ := flows
    exact ih flowsBody (flat.narrowed narrows) (listsNull.settled flat narrows) (fun condition member =>
      sound condition (List.mem_cons_of_mem _ (List.mem_append_left _ member)))
      ((sound _ List.mem_cons_self).holds flat listsNull holds evaluates narrows)
  | next evaluates _ ih =>
    intro flows flat listsNull sound holds
    obtain ⟨-, -, narrows, flowsRest⟩ := flows
    exact ih flowsRest (flat.narrowed narrows) (listsNull.settled flat narrows) (fun condition member =>
      sound condition (List.mem_cons_of_mem _ (List.mem_append_right _ member)))
      ((sound _ List.mem_cons_self).holds flat listsNull holds evaluates narrows)
  | whileCondition =>
    intro locals headFlows _ _ _ _ _ holds
    obtain rfl := headFlows.1
    exact holds
  | body enters _ ih =>
    intro locals headFlows bodyFlows flat listsNull headSound bodySound holds
    obtain ⟨begins, flatBody, listsNullBody, -⟩ := holds_of_enters flat listsNull headFlows headSound holds enters
    exact ih bodyFlows flatBody listsNullBody bodySound begins
  | @untilCondition _ _ _ body _ _ _ _ executes ends died =>
    intro locals headFlows bodyFlows flat listsNull headSound bodySound holds
    obtain ⟨begins, rfl⟩ := headFlows
    have flatBody : AllFlat body.note := begins ▸ flat.endNarrowings _
    have listsNullBody : ListsNull world _ body.note := begins ▸ listsNull.endNarrowings
    have kept := executes_keeps granted executes bodyFlows flatBody listsNullBody bodySound (begins ▸ holds)
    exact (kept.2 (ends.imp id fun continues => ⟨rfl, continues⟩)).died (listsNullBody.last flatBody bodyFlows) died
  | again enters executes _ repeats _ ih =>
    intro locals headFlows bodyFlows flat listsNull headSound bodySound holds
    obtain ⟨begins, flatBody, listsNullBody, refines⟩ := holds_of_enters flat listsNull headFlows headSound holds enters
    obtain ⟨ended, -⟩ := executes_keeps granted executes bodyFlows flatBody listsNullBody bodySound begins
    exact ih locals headFlows bodyFlows flat listsNull headSound bodySound
      (holds_of_iteration holds refines (holds_of_repeats listsNullBody.block ended (.inl repeats)))
  | @dies _ task _ _ _ _ other dies _ ih =>
    cases task with
    | statement node => exact absurd rfl (other node)
    | block | branches =>
      exact fun flows flat listsNull sound holds => ih flows flat listsNull sound (holds.dies listsNull dies)
    | loop =>
      exact fun locals headFlows bodyFlows flat listsNull headSound bodySound holds =>
        ih locals headFlows bodyFlows flat listsNull headSound bodySound (holds.dies listsNull.endNarrowings dies)

end BasicNext.Semantic
