import BasicNext.Frontend.ModuleGraph
import BasicNext.Lib.DepthFirst
import Mathlib.Data.List.TakeWhile

/-!
# Loading is a depth-first search

The loader follows a search over the imports: the modules it has numbered are the list of the search, and those that it is
visiting are its path. So it fails at exactly the cycles, and otherwise numbers what is reachable behind its imports.
-/

namespace BasicNext.Frontend.ModuleGraph

open Lib Lib.DepthFirst Relation

namespace Setting

variable (setting : Setting)

/-- The file that an import of a module leads to. -/
def target (source : SourceFile) (imported : List String × Span) : Option Path :=
  (setting.resolveImport imported.1 source imported.2).toOption.map fun resolution => setting.normalize resolution.path

/-- The files that a file imports. -/
def imports (path : Path) : List Path :=
  match setting.readSource path none with
  | .ok source =>
    match setting.parse source with
    | .ok program => (moduleImports program).filterMap (setting.target source)
    | .error _ => []
  | .error _ => []

/-- Files that lex and parse and whose imports resolve, among themselves. -/
structure Complete (modules : Finset Path) : Prop where
  parses : ∀ path ∈ modules, ∃ source program,
    setting.readSource path none = .ok source ∧ setting.parse source = .ok program ∧
      ∀ imported ∈ moduleImports program, ∃ resolution,
        setting.resolveImport imported.1 source imported.2 = .ok resolution ∧
        setting.isUnrooted (setting.normalize resolution.path) (some (source, imported.2)) resolution.root = false ∧
        setting.normalize resolution.path ∈ modules

/-- A loaded module at its place: its number, its source, and for each of its imports the number of an earlier module. -/
structure Fits (paths : List Path) (index : Nat) (loaded : LoadedModule) : Prop where
  id : loaded.id.val = index
  source : setting.readSource loaded.path none = .ok loaded.source
  program : setting.parse loaded.source = .ok loaded.program
  imports : List.Forall₂ (fun imported id => id.val < index ∧
    ∃ path, setting.target loaded.source imported = some path ∧ paths[id.val]? = some path)
    (moduleImports loaded.program) loaded.imports
  selectors : List.Forall₂ (fun imported selector => ∃ resolution,
    setting.resolveImport imported.1 loaded.source imported.2 = .ok resolution ∧ resolution.selector = selector)
    (moduleImports loaded.program) loaded.exportSelectors

/-- What loading an entry is to return. -/
structure Loads (start : Path) (graph : Graph) : Prop where
  root : graph.modules[graph.root.val]?.map (·.path) = some start
  once : (graph.modules.map (·.path)).Nodup
  reachable : ∀ path, path ∈ graph.modules.map (·.path) ↔ ReflTransGen (Edge setting.imports) start path
  fits : ∀ index loaded, graph.modules[index]? = some loaded → setting.Fits (graph.modules.map (·.path)) index loaded

end Setting

variable {setting : Setting}

theorem readSource_of_none {path : Path} {source : SourceFile} (found : setting.readSource path none = .ok source)
    (importer : Option Importer) : setting.readSource path importer = .ok source := by
  unfold Setting.readSource at found ⊢
  cases text : (setting.overlays path).elim (setting.readToString path) .ok with
  | ok text =>
    rw [text] at found
    exact found
  | error error =>
    rw [text] at found
    cases found

theorem getElem?_of_prefix {paths paths' : List Path} {index : Nat} {path : Path} (longer : paths <+: paths')
    (found : paths[index]? = some path) : paths'[index]? = some path := by
  obtain ⟨rest, rfl⟩ := longer
  rw [List.getElem?_append_left (List.getElem?_eq_some_iff.1 found).1, found]

theorem readSource_of_text {path : Path} {text : String} (plain : setting.overlays path = none)
    (read : setting.readToString path = .ok text) : setting.readSource path none = .ok ⟨display path, text⟩ := by
  unfold Setting.readSource
  dsimp only
  rw [plain, Option.elim_none, read]

namespace Setting

theorem imports_eq {path : Path} {source : SourceFile} {program : Program} (read : setting.readSource path none = .ok source)
    (parsed : setting.parse source = .ok program) :
    setting.imports path = (moduleImports program).filterMap (setting.target source) := by
  unfold imports
  rw [read]
  dsimp only
  rw [parsed]

theorem Fits.extend {paths paths' : List Path} {index : Nat} {loaded : LoadedModule}
    (fits : setting.Fits paths index loaded) (longer : paths <+: paths') : setting.Fits paths' index loaded := by
  refine ⟨fits.id, fits.source, fits.program, fits.imports.imp ?_, fits.selectors⟩
  rintro imported id ⟨earlier, path, target, found⟩
  exact ⟨earlier, path, target, getElem?_of_prefix longer found⟩

theorem Complete.imports_mem {modules : Finset Path} (complete : setting.Complete modules) :
    ∀ path ∈ modules, ∀ next ∈ setting.imports path, next ∈ modules := by
  intro path member next edge
  obtain ⟨source, program, read, parsed, resolves⟩ := complete.parses path member
  rw [Setting.imports_eq read parsed] at edge
  obtain ⟨imported, listed, target⟩ := List.mem_filterMap.1 edge
  obtain ⟨resolution, resolved, _, inside⟩ := resolves imported listed
  unfold Setting.target at target
  rw [resolved] at target
  obtain rfl := Option.some.inj target
  exact inside

end Setting

/-! ### The simulation -/

/-- A loader between two visits, against the path and the list of a search. -/
structure Simulates (setting : Setting) (modules : Finset Path) (path done : List Path) (loader : Loader) : Prop where
  listed : Topological setting.imports done
  within : ∀ p ∈ done, p ∈ modules
  apart : ∀ p ∈ path, p ∉ done
  paths : loader.modules.map (·.path) = done
  visiting : ∀ p, loader.states p = some .visiting ↔ p ∈ path
  loaded : ∀ p id, loader.states p = some (.loaded id) ↔ done[id.val]? = some p
  fits : ∀ index loaded, loader.modules[index]? = some loaded → setting.Fits done index loaded

/-- A search and a part of the loader that end alike. -/
def Agrees {β : Type} (related : List Path → β → Prop) : Except (Stop Path) (List Path) → Except Failure β → Prop
  | .ok done, .ok result => related done result
  | .error (.cycle _), .error (.error error) => error.diagnostic.code = "IMPORT_CYCLE"
  | .error .outOfFuel, .error .outOfFuel => True
  | _, _ => False

theorem Agrees.bind {β γ : Type} {related : List Path → β → Prop} {related' : List Path → γ → Prop}
    {search : Except (Stop Path) (List Path)} {loads : Except Failure β} {next : List Path → Except (Stop Path) (List Path)}
    {next' : β → Except Failure γ} (agrees : Agrees related search loads)
    (rest : ∀ done result, search = .ok done → related done result → Agrees related' (next done) (next' result)) :
    Agrees related' (search >>= next) (loads >>= next') := by
  cases search with
  | ok done =>
    cases loads with
    | ok result => exact rest done result rfl agrees
    | error failure => exact agrees.elim
  | error stop =>
    cases loads with
    | ok result => cases stop <;> exact agrees.elim
    | error failure => cases stop <;> cases failure <;> exact agrees

theorem Agrees.mono {β : Type} {related related' : List Path → β → Prop} {search : Except (Stop Path) (List Path)}
    {loads : Except Failure β} (agrees : Agrees related search loads)
    (weaken : ∀ done result, search = .ok done → related done result → related' done result) :
    Agrees related' search loads := by
  rw [← bind_pure search, ← bind_pure loads]
  exact agrees.bind weaken

def Visited (setting : Setting) (modules : Finset Path) (path : List Path) (start : Path) (done : List Path)
    (result : Loader × ModuleId) : Prop :=
  Simulates setting modules path done result.1 ∧ done[result.2.val]? = some start

/-- The imports of some items are listed under their numbers. -/
structure Followed (setting : Setting) (modules : Finset Path) (path : List Path) (source : SourceFile)
    (listed : List (List String × Span)) (before : Imported) (done : List Path) (imported : Imported) : Prop where
  simulates : Simulates setting modules path done imported.loader
  imports : ∃ ids, imported.imports = before.imports ++ ids ∧
    List.Forall₂ (fun imported id => ∃ p, setting.target source imported = some p ∧ done[id.val]? = some p) listed ids
  selectors : ∃ selectors, imported.exportSelectors = before.exportSelectors ++ selectors ∧
    List.Forall₂ (fun imported selector => ∃ resolution,
      setting.resolveImport imported.1 source imported.2 = .ok resolution ∧ resolution.selector = selector) listed selectors

variable {modules : Finset Path} {path done : List Path} {loader : Loader} {a : Path}

theorem length_le_card {paths : List Path} (nodup : paths.Nodup) (within : ∀ p ∈ paths, p ∈ modules) :
    paths.length ≤ modules.card := by
  rw [← List.toFinset_card_of_nodup nodup]
  exact Finset.card_le_card fun p listed => within p (List.mem_toFinset.1 listed)

namespace Simulates

variable (simulates : Simulates setting modules path done loader)

include simulates

theorem length_eq : loader.modules.length = done.length := by
  rw [← simulates.paths, List.length_map]

theorem unseen (fresh : a ∉ done) (offPath : a ∉ path) : loader.states a = none := by
  cases state : loader.states a with
  | none => rfl
  | some state' =>
    cases state' with
    | visiting => exact absurd ((simulates.visiting a).1 state) offPath
    | loaded id => exact absurd (List.mem_of_getElem? ((simulates.loaded a id).1 state)) fresh

theorem enter (fresh : a ∉ done) : Simulates setting modules (a :: path) done (loader.enter a).loader := by
  refine ⟨simulates.listed, simulates.within, ?_, simulates.paths, ?_, ?_, simulates.fits⟩
  · intro p member
    rcases List.mem_cons.1 member with rfl | later
    · exact fresh
    · exact simulates.apart p later
  · intro p
    dsimp only [Loader.enter]
    by_cases same : p = a
    · rw [same, Function.update_self]
      exact ⟨fun _ => List.mem_cons_self, fun _ => rfl⟩
    · rw [Function.update_of_ne same, simulates.visiting, List.mem_cons, or_iff_right same]
  · intro p id
    dsimp only [Loader.enter]
    by_cases same : p = a
    · rw [same, Function.update_self]
      constructor
      · intro loaded
        cases loaded
      · intro found
        exact absurd (List.mem_of_getElem? found) fresh
    · rw [Function.update_of_ne same, simulates.loaded]

theorem length_lt (onPath : a ∈ path) (member : a ∈ modules) (limit : modules.card ≤ 2 ^ 32) :
    loader.modules.length < 2 ^ 32 := by
  have nodup : (a :: done).Nodup := List.nodup_cons.2 ⟨simulates.apart a onPath, simulates.listed.nodup⟩
  have bounded := length_le_card nodup (List.forall_mem_cons.2 ⟨member, simulates.within⟩)
  rw [List.length_cons] at bounded
  rw [simulates.length_eq]
  omega

end Simulates

theorem Simulates.leave {source : SourceFile} {program : Program} {root : Option ModuleRoot} {imported : Imported}
    (simulates : Simulates setting modules (a :: path) done imported.loader) (offPath : a ∉ path) (member : a ∈ modules)
    (behind : ∀ b ∈ setting.imports a, b ∈ done) (small : imported.loader.modules.length < 2 ^ 32)
    (read : setting.readSource a none = .ok source) (parsed : setting.parse source = .ok program)
    (imports : List.Forall₂ (fun imported id => ∃ path, setting.target source imported = some path ∧
      done[id.val]? = some path) (moduleImports program) imported.imports)
    (selectors : List.Forall₂ (fun imported selector => ∃ resolution,
      setting.resolveImport imported.1 source imported.2 = .ok resolution ∧ resolution.selector = selector)
      (moduleImports program) imported.exportSelectors) :
    Agrees (Visited setting modules path a) (.ok (done ++ [a])) (finish a source program root imported) := by
  have fresh := simulates.apart a List.mem_cons_self
  have length := simulates.length_eq
  unfold finish
  rw [dif_pos small]
  refine ⟨⟨simulates.listed.snoc fresh behind, ?_, ?_, ?_, ?_, ?_, ?_⟩, ?_⟩
  · intro p listed
    rcases List.mem_append.1 listed with earlier | last
    · exact simulates.within p earlier
    · rwa [List.mem_singleton.1 last]
  · intro p onPath listed
    rcases List.mem_append.1 listed with earlier | last
    · exact simulates.apart p (List.mem_cons_of_mem _ onPath) earlier
    · rw [List.mem_singleton.1 last] at onPath
      exact offPath onPath
  · rw [List.map_append, simulates.paths]
    rfl
  · intro p
    dsimp only
    by_cases same : p = a
    · rw [same, Function.update_self]
      constructor
      · intro visiting
        cases visiting
      · intro onPath
        exact absurd onPath offPath
    · rw [Function.update_of_ne same, simulates.visiting, List.mem_cons, or_iff_right same]
  · intro p id
    dsimp only
    by_cases same : p = a
    · rw [same, Function.update_self, Option.some.injEq, State.loaded.injEq, Fin.ext_iff]
      show imported.loader.modules.length = id.val ↔ _
      constructor
      · intro here
        rw [← here, length, List.getElem?_concat_length]
      · intro found
        rcases Nat.lt_or_ge id.val done.length with earlier | later
        · rw [List.getElem?_append_left earlier] at found
          exact absurd (List.mem_of_getElem? found) fresh
        · have bound := (List.getElem?_eq_some_iff.1 found).1
          rw [List.length_append, List.length_singleton] at bound
          omega
    · rw [Function.update_of_ne same, simulates.loaded]
      rcases Nat.lt_or_ge id.val done.length with earlier | later
      · rw [List.getElem?_append_left earlier]
      · rw [List.getElem?_eq_none later, List.getElem?_append_right later]
        constructor
        · intro nothing
          cases nothing
        · intro found
          exact absurd (List.mem_singleton.1 (List.mem_of_getElem? found)) same
  · intro index loaded found
    rcases Nat.lt_or_ge index imported.loader.modules.length with earlier | later
    · rw [List.getElem?_append_left earlier] at found
      exact (simulates.fits index loaded found).extend (List.prefix_append _ _)
    · rw [List.getElem?_append_right later] at found
      have bound := (List.getElem?_eq_some_iff.1 found).1
      rw [List.length_singleton] at bound
      obtain rfl : index = imported.loader.modules.length := by omega
      rw [Nat.sub_self] at found
      obtain rfl := Option.some.inj found
      refine ⟨rfl, read, parsed, imports.imp ?_, selectors⟩
      rintro imported' id ⟨p, target, at_⟩
      have bound := (List.getElem?_eq_some_iff.1 at_).1
      exact ⟨by omega, p, target, getElem?_of_prefix (List.prefix_append _ _) at_⟩
  · dsimp only
    rw [length, List.getElem?_concat_length]

theorem items_agree {search : List Path → Path → Except (Stop Path) (List Path)} {visit : Visit} {source : SourceFile}
    (adds : ∀ done done' b, Topological setting.imports done → (∀ p ∈ path, p ∉ done) → search done b = .ok done' →
      Adds setting.imports path done [b] done')
    (agrees : ∀ done loader requested importer root, Simulates setting modules path done loader →
      setting.normalize requested ∈ modules → setting.isUnrooted (setting.normalize requested) (some importer) root = false →
      Agrees (Visited setting modules path (setting.normalize requested)) (search done (setting.normalize requested))
        (visit loader requested (some importer) root))
    (items : List Item)
    (resolves : ∀ imported ∈ moduleImports ⟨items⟩, ∃ resolution,
      setting.resolveImport imported.1 source imported.2 = .ok resolution ∧
      setting.isUnrooted (setting.normalize resolution.path) (some (source, imported.2)) resolution.root = false ∧
      setting.normalize resolution.path ∈ modules)
    {imported : Imported} (simulates : Simulates setting modules path done imported.loader) :
    Agrees (Followed setting modules path source (moduleImports ⟨items⟩) imported)
      (((moduleImports ⟨items⟩).filterMap (setting.target source)).foldlM search done)
      (items.foldlM (setting.visitItem visit source) imported) := by
  induction items generalizing done imported with
  | nil => exact ⟨simulates, ⟨[], (List.append_nil _).symm, .nil⟩, ⟨[], (List.append_nil _).symm, .nil⟩⟩
  | cons item items ih =>
    cases named : moduleImport item with
    | none =>
      have same : moduleImports ⟨item :: items⟩ = moduleImports ⟨items⟩ := List.filterMap_cons_none named
      rw [same] at resolves ⊢
      rw [List.foldlM_cons, Setting.visitItem_of_none named]
      exact ih resolves simulates
    | some imported' =>
      have listed : moduleImports ⟨item :: items⟩ = imported' :: moduleImports ⟨items⟩ := List.filterMap_cons_some named
      rw [listed] at resolves ⊢
      obtain ⟨resolution, resolved, rooted, member⟩ := resolves _ List.mem_cons_self
      have target : setting.target source imported' = some (setting.normalize resolution.path) := by
        unfold Setting.target
        rw [resolved]
        rfl
      rw [List.filterMap_cons_some target, List.foldlM_cons, List.foldlM_cons, Setting.visitItem_of_some named resolved,
        bind_assoc]
      have first := agrees done imported.loader resolution.path (source, imported'.2) resolution.root simulates member rooted
      refine first.bind fun middle result found visited => ?_
      have onward : Simulates setting modules path middle (Imported.loader ⟨result.1, imported.imports ++ [result.2],
        imported.exportSelectors ++ [resolution.selector]⟩) := visited.1
      have rest := ih (fun other later => resolves other (List.mem_cons_of_mem _ later)) onward
      refine rest.mono fun done' after searched followed => ?_
      have longer : middle <+: done' := (adds_foldlM adds _ visited.1.listed visited.1.apart searched).extends_
      obtain ⟨ids, idsEq, idsListed⟩ := followed.imports
      obtain ⟨selectors, selectorsEq, selectorsListed⟩ := followed.selectors
      refine ⟨followed.simulates, ⟨result.2 :: ids, ?_, .cons ?_ idsListed⟩,
        ⟨resolution.selector :: selectors, ?_, .cons ⟨resolution, resolved, rfl⟩ selectorsListed⟩⟩
      · rw [idsEq, List.append_assoc]
        rfl
      · exact ⟨_, target, getElem?_of_prefix longer visited.2⟩
      · rw [selectorsEq, List.append_assoc]
        rfl

theorem visit_agrees (complete : setting.Complete modules) (limit : modules.card ≤ 2 ^ 32) {fuel : Nat} {requested : Path}
    {importer : Option Importer} {root : Option ModuleRoot} (simulates : Simulates setting modules path done loader)
    (member : setting.normalize requested ∈ modules)
    (rooted : setting.isUnrooted (setting.normalize requested) importer root = false)
    (entered : importer = none → path = []) :
    Agrees (Visited setting modules path (setting.normalize requested))
      (explore setting.imports fuel path done (setting.normalize requested))
      (setting.visit fuel loader requested importer root) := by
  induction fuel generalizing path done loader requested importer root with
  | zero => exact trivial
  | succ fuel ih =>
    by_cases known : setting.normalize requested ∈ done
    · rw [explore_of_mem_done known]
      obtain ⟨index, found⟩ := List.mem_iff_getElem?.1 known
      have bounded := length_le_card simulates.listed.nodup simulates.within
      have small : index < 2 ^ 32 := by
        have inside := (List.getElem?_eq_some_iff.1 found).1
        omega
      have state := (simulates.loaded _ ⟨index, small⟩).2 found
      rw [Setting.visit_loaded rooted state]
      exact ⟨simulates, found⟩
    by_cases onPath : setting.normalize requested ∈ path
    · rw [explore_of_mem_path known onPath]
      have state := (simulates.visiting _).2 onPath
      cases importer with
      | none =>
        rw [entered rfl] at onPath
        cases onPath
      | some importer =>
        rw [Setting.visit_visiting rooted state]
        exact rfl
    obtain ⟨source, program, read, parsed, resolves⟩ := complete.parses _ member
    rw [explore_of_fresh known onPath, Setting.visit_fresh rooted (simulates.unseen known onPath)
      (readSource_of_none read importer) parsed, Setting.imports_eq read parsed]
    have items := items_agree (fun _ _ _ listed apart found => explore_adds listed apart found)
      (fun done loader requested importer root simulates member rooted =>
        ih simulates member rooted fun absent => (Option.some_ne_none _ absent).elim) program.items resolves (simulates.enter known)
    refine items.bind fun middle imported searched followed => ?_
    have adds := adds_foldlM (fun _ _ _ listed apart found => explore_adds listed apart found) _ simulates.listed
      (simulates.enter known).apart searched
    obtain ⟨ids, idsEq, idsListed⟩ := followed.imports
    obtain ⟨selectors, selectorsEq, selectorsListed⟩ := followed.selectors
    obtain rfl : imported.imports = ids := idsEq
    obtain rfl : imported.exportSelectors = selectors := selectorsEq
    exact followed.simulates.leave onPath member (Setting.imports_eq read parsed ▸ adds.taken)
      (followed.simulates.length_lt List.mem_cons_self member limit) read parsed idsListed selectorsListed

/-! ### Loading an entry -/

theorem simulates_start : Simulates setting modules [] [] ⟨fun _ => none, []⟩ := by
  refine ⟨.nil, ?_, ?_, rfl, ?_, ?_, ?_⟩
  · intro p listed
    cases listed
  · intro p onPath
    cases onPath
  · intro p
    constructor
    · intro state
      cases state
    · intro onPath
      cases onPath
  · intro p id
    constructor
    · intro state
      cases state
    · intro found
      cases found
  · intro index loaded found
    cases found

def FailsWithCycle (result : Except Failure Graph) : Prop :=
  ∃ error, result = .error (.error error) ∧ error.diagnostic.code = "IMPORT_CYCLE"

/-- Some cycle of imports is reachable. -/
def Setting.Cyclic (setting : Setting) (start : Path) : Prop :=
  ∃ path, ReflTransGen (Edge setting.imports) start path ∧ TransGen (Edge setting.imports) path path

/-- Loading fails at the cycles that are reachable, and otherwise returns what is reachable. -/
structure LoadsExactly (setting : Setting) (start : Path) (result : Except Failure Graph) : Prop where
  cycle : FailsWithCycle result ↔ setting.Cyclic start
  graph : ¬setting.Cyclic start → ∃ graph, result = .ok graph ∧ setting.Loads start graph

theorem visit_start {fuel : Nat} {requested : Path} (complete : setting.Complete modules)
    (member : setting.normalize requested ∈ modules) (limit : modules.card ≤ 2 ^ 32) (enough : modules.card < fuel) :
    LoadsExactly setting (setting.normalize requested) (setting.visit fuel ⟨fun _ => none, []⟩ requested none none >>=
      fun result => .ok ⟨result.2, result.1.modules, setting.roots⟩) := by
  have agrees : Agrees (Visited setting modules [] (setting.normalize requested))
      (explore setting.imports fuel [] [] (setting.normalize requested))
      (setting.visit fuel ⟨fun _ => none, []⟩ requested none none) :=
    visit_agrees complete limit simulates_start member rfl fun _ => rfl
  rcases explore_start complete.imports_mem member enough with
    ⟨c, found, reaches, cycle⟩ | ⟨done, found, listed, reachable, acyclic⟩
  · have cyclic : setting.Cyclic _ := ⟨c, reaches, cycle⟩
    rw [found] at agrees
    cases visited : setting.visit fuel ⟨fun _ => none, []⟩
        requested none none with
    | ok result =>
      rw [visited] at agrees
      exact agrees.elim
    | error failure =>
      rw [visited] at agrees
      cases failure with
      | error error => exact ⟨⟨fun _ => cyclic, fun _ => ⟨error, rfl, agrees⟩⟩, fun acyclic => absurd cyclic acyclic⟩
      | panics message => exact agrees.elim
      | outOfFuel => exact agrees.elim
  · rw [found] at agrees
    cases visited : setting.visit fuel ⟨fun _ => none, []⟩
        requested none none with
    | error failure =>
      rw [visited] at agrees
      exact agrees.elim
    | ok result =>
      rw [visited] at agrees
      obtain ⟨simulates, numbered⟩ := agrees
      refine ⟨⟨?_, ?_⟩, fun _ => ⟨_, rfl, ?_⟩⟩
      · rintro ⟨error, failed, _⟩
        cases failed
      · rintro ⟨path, reaches, cycle⟩
        exact absurd cycle (acyclic path reaches)
      · constructor
        · show result.1.modules[result.2.val]?.map (·.path) = _
          rw [← List.getElem?_map, simulates.paths, numbered]
        · show (result.1.modules.map (·.path)).Nodup
          rw [simulates.paths]
          exact simulates.listed.nodup
        · intro path
          show path ∈ result.1.modules.map (·.path) ↔ _
          rw [simulates.paths]
          exact reachable path
        · intro index loaded found
          show Setting.Fits _ (result.1.modules.map (·.path)) index loaded
          rw [simulates.paths]
          exact simulates.fits index loaded found

theorem load_exactly (environment : Environment) (overlays : Path → Option String) (standard : ModuleRoot)
    (extras : List ModuleRoot) (entry : Path) (modules : Finset Path) (fuel : Nat)
    (complete : (settingOf environment overlays standard extras entry).Complete modules)
    (member : environment.normalize (environment.normalize entry) ∈ modules) (limit : modules.card ≤ 2 ^ 32)
    (enough : modules.card < fuel) :
    LoadsExactly (settingOf environment overlays standard extras entry)
      (environment.normalize (environment.normalize entry)) (load fuel environment overlays standard extras entry) :=
  visit_start complete member limit enough

/-! ### A tree of modules

Each module of a directory imports two others, down to some depth. At the depth of thirty-two these are more modules than
there are numbers.
-/

section tree

def letter : Bool → Char
  | false => 'L'
  | true => 'R'

def moduleName (bits : List Bool) : List Char := 'M' :: bits.map letter

def fileName (bits : List Bool) : String := String.ofList (moduleName bits) ++ ".bn"

def filePath (bits : List Bool) : Path := ["src", fileName bits]

def bitsOf : List Char → Option (List Bool)
  | ['.', 'b', 'n'] => some []
  | 'L' :: rest => (bitsOf rest).map (false :: ·)
  | 'R' :: rest => (bitsOf rest).map (true :: ·)
  | _ => none

/-- The module that a file name names, within the depth. -/
def named (depth : Nat) (name : String) : Option (List Bool) :=
  match name.toList with
  | 'M' :: rest => (bitsOf rest).filter (·.length ≤ depth)
  | _ => none

def importText (bits : List Bool) (last : Bool) : List Char :=
  [' '].intercalate ["IMPORT".toList, moduleName (last :: bits), "AS".toList, [letter last]]

def treeText (depth : Nat) (bits : List Bool) : List Char :=
  if bits.length < depth then ['\n'].intercalate [importText bits false, importText bits true, []] else []

def importLine (line : List Char) (span : Span) : Except Diagnostic Item :=
  match line.splitOn ' ' with
  | [keyword, name, as, _] =>
    if keyword = "IMPORT".toList ∧ as = "AS".toList then .ok (.import [String.ofList name] span)
    else .error ⟨"PARSE", "expected declaration", span⟩
  | _ => .error ⟨"PARSE", "expected declaration", span⟩

/-- A parser for files that have nothing but imports. -/
def importLines (offset line : Nat) : List (List Char) → Except Diagnostic (List Item)
  | [] => .ok []
  | [] :: rest => importLines (offset + 1) (line + 1) rest
  | text :: rest => do
    let item ← importLine text ⟨⟨offset, line, 1⟩, ⟨offset + text.length + 1, line, text.length + 2⟩⟩
    let items ← importLines (offset + text.length + 1) (line + 1) rest
    return item :: items

def tree (depth : Nat) : Environment where
  normalize path := path
  readToString
    | ["src", name] => (named depth name).elim (.error "No such file or directory (os error 2)") fun bits =>
      .ok (String.ofList (treeText depth bits))
    | _ => .error "No such file or directory (os error 2)"
  hasExactEntry directory name := directory == ["src"] && (named depth name).isSome
  parse source := (importLines 0 1 (source.text.toList.splitOn '\n')).map Program.mk

def treeRoot : ModuleRoot := ⟨["src", "modules", "bn"], .stdlibDefault⟩

def treeSetting (depth : Nat) : Setting := settingOf (tree depth) (fun _ => none) treeRoot [] (filePath [])

def bitLists : Nat → Finset (List Bool)
  | 0 => {[]}
  | depth + 1 => insert [] ((bitLists depth).image (List.cons false) ∪ (bitLists depth).image (List.cons true))

@[irreducible] def treeModules (depth : Nat) : Finset Path := (bitLists depth).image filePath

variable {depth : Nat} {bits : List Bool}

theorem mem_bitLists : bits ∈ bitLists depth ↔ bits.length ≤ depth := by
  induction depth generalizing bits with
  | zero =>
    rw [bitLists, Finset.mem_singleton, Nat.le_zero, List.length_eq_zero_iff]
  | succ depth ih =>
    cases bits with
    | nil => simp [bitLists]
    | cons bit bits =>
      cases bit <;> simp [bitLists, ih]

theorem card_bitLists : (bitLists depth).card + 1 = 2 ^ (depth + 1) := by
  induction depth with
  | zero => rfl
  | succ depth ih =>
    have apart : Disjoint ((bitLists depth).image (List.cons false)) ((bitLists depth).image (List.cons true)) := by
      rw [Finset.disjoint_left]
      intro bits left right
      obtain ⟨_, _, rfl⟩ := Finset.mem_image.1 left
      obtain ⟨_, _, same⟩ := Finset.mem_image.1 right
      cases same
    have fresh : [] ∉ (bitLists depth).image (List.cons false) ∪ (bitLists depth).image (List.cons true) := by simp
    rw [bitLists, Finset.card_insert_of_notMem fresh, Finset.card_union_of_disjoint apart,
      Finset.card_image_of_injective _ List.cons_injective, Finset.card_image_of_injective _ List.cons_injective]
    rw [pow_succ, ← ih]
    omega

theorem mem_treeModules {path : Path} : path ∈ treeModules depth ↔ ∃ bits, bits.length ≤ depth ∧ filePath bits = path := by
  unfold treeModules
  simp only [Finset.mem_image, mem_bitLists]

theorem bitsOf_letters : bitsOf (bits.map letter ++ ['.', 'b', 'n']) = some bits := by
  induction bits with
  | nil => rfl
  | cons bit bits ih =>
    cases bit with
    | false => exact (congrArg _ ih : (bitsOf _).map (false :: ·) = _)
    | true => exact (congrArg _ ih : (bitsOf _).map (true :: ·) = _)

theorem toList_fileName : (fileName bits).toList = 'M' :: (bits.map letter ++ ['.', 'b', 'n']) := by
  unfold fileName moduleName
  rw [String.toList_append, String.toList_ofList]
  rfl

theorem named_fileName (within : bits.length ≤ depth) : named depth (fileName bits) = some bits := by
  unfold named
  rw [toList_fileName]
  show (bitsOf (bits.map letter ++ ['.', 'b', 'n'])).filter (·.length ≤ depth) = _
  rw [bitsOf_letters, Option.filter_some, if_pos (decide_eq_true within)]

theorem filePath_injective : Function.Injective filePath := by
  intro bits bits' same
  have names : fileName bits = fileName bits' := by
    unfold filePath at same
    injection same with _ same
    injection same
  have decoded := congrArg String.toList names
  rw [toList_fileName, toList_fileName, List.cons.injEq] at decoded
  have back := congrArg bitsOf decoded.2
  rw [bitsOf_letters, bitsOf_letters] at back
  exact Option.some.inj back

theorem letters_plain {c : Char} (member : c ∈ moduleName bits) : c = 'M' ∨ c = 'L' ∨ c = 'R' := by
  rcases List.mem_cons.1 member with rfl | later
  · exact .inl rfl
  · obtain ⟨bit, _, rfl⟩ := List.mem_map.1 later
    cases bit with
    | false => exact .inr (.inl rfl)
    | true => exact .inr (.inr rfl)

theorem importLine_importText (last : Bool) (span : Span) :
    importLine (importText bits last) span = .ok (.import [String.ofList (moduleName (last :: bits))] span) := by
  have plain : ∀ part ∈ ["IMPORT".toList, moduleName (last :: bits), "AS".toList, [letter last]], ' ' ∉ part := by
    intro part member space
    simp only [List.mem_cons, List.not_mem_nil, or_false] at member
    rcases member with rfl | rfl | rfl | rfl
    · exact absurd space (by decide)
    · rcases letters_plain space with same | same | same <;> cases same
    · exact absurd space (by decide)
    · cases last <;> exact absurd space (by decide)
  unfold importLine importText
  rw [List.splitOn_intercalate ' ' plain (List.cons_ne_nil _ _)]
  exact if_pos ⟨rfl, rfl⟩

theorem importLines_cons {offset line : Nat} {text : List Char} {rest : List (List Char)} (nonempty : text ≠ []) :
    importLines offset line (text :: rest) =
      importLine text ⟨⟨offset, line, 1⟩, ⟨offset + text.length + 1, line, text.length + 2⟩⟩ >>= fun item =>
        importLines (offset + text.length + 1) (line + 1) rest >>= fun items => .ok (item :: items) := by
  cases text with
  | nil => exact absurd rfl nonempty
  | cons c text => rfl

theorem importText_ne_nil (last : Bool) : importText bits last ≠ [] := by
  unfold importText
  intro empty
  cases empty

theorem importText_plain {last : Bool} : '\n' ∉ importText bits last := by
  have shape : importText bits last =
      ("IMPORT".toList ++ [' ']) ++ (moduleName (last :: bits) ++ [' '] ++ ("AS".toList ++ [' '] ++ [letter last])) := by
    unfold importText
    rw [List.intercalate_cons_cons, List.intercalate_cons_cons, List.intercalate_cons_cons, List.intercalate_singleton]
  rw [shape]
  intro newline
  rcases List.mem_append.1 newline with first | rest
  · exact absurd first (by decide)
  rcases List.mem_append.1 rest with name | rest
  · rcases List.mem_append.1 name with name | space
    · rcases letters_plain name with same | same | same <;> cases same
    · exact absurd space (by decide)
  · cases last <;> exact absurd rest (by decide)

theorem parse_tree (depth : Nat) (bits : List Bool) (name : String) : ∃ left right,
    (tree depth).parse ⟨name, String.ofList (treeText depth bits)⟩ =
      .ok ⟨if bits.length < depth then [.import [String.ofList (moduleName (false :: bits))] left,
      .import [String.ofList (moduleName (true :: bits))] right] else []⟩ := by
  by_cases inner : bits.length < depth
  · refine ⟨⟨⟨0, 1, 1⟩, ⟨0 + (importText bits false).length + 1, 1, (importText bits false).length + 2⟩⟩,
      ⟨⟨0 + (importText bits false).length + 1, 1 + 1, 1⟩, ⟨0 + (importText bits false).length + 1 +
        (importText bits true).length + 1, 1 + 1, (importText bits true).length + 2⟩⟩, ?_⟩
    have plain : ∀ line ∈ [importText bits false, importText bits true, []], '\n' ∉ line := by
      intro line member
      simp only [List.mem_cons, List.not_mem_nil, or_false] at member
      rcases member with rfl | rfl | rfl
      · exact importText_plain
      · exact importText_plain
      · exact List.not_mem_nil
    show ((importLines 0 1 ((String.ofList (treeText depth bits)).toList.splitOn '\n')).map Program.mk) = _
    rw [String.toList_ofList, treeText, if_pos inner, if_pos inner,
      List.splitOn_intercalate '\n' plain (List.cons_ne_nil _ _), importLines_cons (importText_ne_nil false),
      importLines_cons (importText_ne_nil true), importLine_importText, importLine_importText]
    rfl
  · refine ⟨defaultSpan, defaultSpan, ?_⟩
    show ((importLines 0 1 ((String.ofList (treeText depth bits)).toList.splitOn '\n')).map Program.mk) = _
    rw [String.toList_ofList, treeText, if_neg inner, if_neg inner]
    rfl

theorem readSource_tree (within : bits.length ≤ depth) : (treeSetting depth).readSource (filePath bits) none =
    .ok ⟨display (filePath bits), String.ofList (treeText depth bits)⟩ := by
  have text : (treeSetting depth).readToString (filePath bits) = .ok (String.ofList (treeText depth bits)) := by
    show (named depth (fileName bits)).elim _ _ = _
    rw [named_fileName within]
    rfl
  exact readSource_of_text rfl text

theorem importPath_tree (within : bits.length ≤ depth) : (treeSetting depth).importPath [String.ofList (moduleName bits)] =
      (filePath bits, some ⟨["src"], .entryDir⟩) := by
  have found : (treeSetting depth).exactModuleExists ["src"] [String.ofList (moduleName bits)] = true := by
    show (["src"] == ["src"] && (named depth (fileName bits)).isSome) = true
    rw [named_fileName within]
    rfl
  have roots : (treeSetting depth).roots = ⟨["src"], .entryDir⟩ ::
      [⟨["src", "modules"], .entryDir⟩, ⟨["src", "modules", "bn"], .stdlibDefault⟩] := by
    rfl
  have first : ((treeSetting depth).roots.find? fun root =>
      (treeSetting depth).exactModuleExists root.path [String.ofList (moduleName bits)]) = some ⟨["src"], .entryDir⟩ := by
    rw [roots]
    exact List.find?_cons_of_pos found
  have extension : setExtension (["src"] ++ [String.ofList (moduleName bits)]) "bn" = filePath bits := by
    have plain : ∀ c ∈ (String.ofList (moduleName bits)).toList.reverse, (c != '.') = true := by
      intro c member
      rw [String.toList_ofList, List.mem_reverse] at member
      rcases letters_plain member with rfl | rfl | rfl <;> rfl
    show ["src", if (((String.ofList (moduleName bits)).toList.reverse.dropWhile (· != '.')).drop 1).isEmpty
      then String.ofList (moduleName bits) ++ "." ++ "bn" else _] = _
    rw [List.dropWhile_eq_nil_iff.2 plain, if_pos (show (List.drop 1 ([] : List Char)).isEmpty = true from rfl),
      String.append_assoc]
    rfl
  unfold Setting.importPath
  rw [first]
  exact congrArg (·, _) extension

theorem resolveImport_tree (within : bits.length ≤ depth) (source : SourceFile) (span : Span) :
    (treeSetting depth).resolveImport [String.ofList (moduleName bits)] source span =
      .ok ⟨filePath bits, some ⟨["src"], .entryDir⟩, none⟩ := by
  have short : [String.ofList (moduleName bits)].length < 2 := Nat.lt_succ_self 1
  unfold Setting.resolveImport
  dsimp only
  rw [if_pos short, importPath_tree within]

theorem moduleImport_tree (span : Span) : moduleImport (.import [String.ofList (moduleName bits)] span) =
    some ([String.ofList (moduleName bits)], span) := by
  refine if_neg fun host => ?_
  have letters := congrArg String.toList (Option.some.inj host)
  rw [String.toList_ofList] at letters
  cases letters

theorem moduleImports_tree (left right : Span) :
    moduleImports ⟨[.import [String.ofList (moduleName (false :: bits))] left,
      .import [String.ofList (moduleName (true :: bits))] right]⟩ =
    [([String.ofList (moduleName (false :: bits))], left), ([String.ofList (moduleName (true :: bits))], right)] := by
  unfold moduleImports
  rw [List.filterMap_cons_some (moduleImport_tree left), List.filterMap_cons_some (moduleImport_tree right)]
  rfl

theorem complete_tree : (treeSetting depth).Complete (treeModules depth) := by
  constructor
  intro path member
  obtain ⟨bits, within, rfl⟩ := mem_treeModules.1 member
  obtain ⟨left, right, parsed⟩ := parse_tree depth bits (display (filePath bits))
  refine ⟨_, _, readSource_tree within, parsed, ?_⟩
  intro imported listed
  by_cases inner : bits.length < depth
  · rw [if_pos inner, moduleImports_tree] at listed
    have below : ∀ last, filePath (last :: bits) ∈ treeModules depth := fun last =>
      mem_treeModules.2 ⟨last :: bits, inner, rfl⟩
    rcases List.mem_cons.1 listed with rfl | second
    · exact ⟨_, resolveImport_tree inner _ _, rfl, below false⟩
    · obtain rfl := List.mem_singleton.1 second
      exact ⟨_, resolveImport_tree inner _ _, rfl, below true⟩
  · rw [if_neg inner] at listed
    cases listed

theorem imports_tree (within : bits.length ≤ depth) : (treeSetting depth).imports (filePath bits) =
    if bits.length < depth then [filePath (false :: bits), filePath (true :: bits)] else [] := by
  obtain ⟨left, right, parsed⟩ := parse_tree depth bits (display (filePath bits))
  rw [Setting.imports_eq (readSource_tree within) parsed]
  by_cases inner : bits.length < depth
  · have target (last : Bool) (source : SourceFile) (span : Span) : (treeSetting depth).target source
        ([String.ofList (moduleName (last :: bits))], span) = some (filePath (last :: bits)) := by
      unfold Setting.target
      rw [resolveImport_tree inner]
      rfl
    rw [if_pos inner, if_pos inner, moduleImports_tree, List.filterMap_cons_some (target false _ _),
      List.filterMap_cons_some (target true _ _)]
    rfl
  · rw [if_neg inner, if_neg inner]
    rfl

theorem edge_tree {last : Bool} (inner : bits.length < depth) :
    Edge (treeSetting depth).imports (filePath bits) (filePath (last :: bits)) := by
  unfold Edge
  rw [imports_tree (Nat.le_of_lt inner), if_pos inner]
  cases last with
  | false => exact List.mem_cons_self
  | true => exact List.mem_cons_of_mem _ List.mem_cons_self

theorem reaches_tree (within : bits.length ≤ depth) :
    ReflTransGen (Edge (treeSetting depth).imports) (filePath []) (filePath bits) := by
  induction bits with
  | nil => exact .refl
  | cons last bits ih =>
    rw [List.length_cons] at within
    exact (ih (by omega)).tail (edge_tree (by omega))

theorem descends_tree (within : bits.length ≤ depth) {path : Path}
    (reaches : TransGen (Edge (treeSetting depth).imports) (filePath bits) path) :
    ∃ below, path = filePath below ∧ bits.length < below.length ∧ below.length ≤ depth := by
  have step {bits : List Bool} (within : bits.length ≤ depth) {path : Path}
      (edge : Edge (treeSetting depth).imports (filePath bits) path) :
      ∃ below, path = filePath below ∧ bits.length < below.length ∧ below.length ≤ depth := by
    unfold Edge at edge
    rw [imports_tree within] at edge
    by_cases inner : bits.length < depth
    · rw [if_pos inner] at edge
      rcases List.mem_cons.1 edge with same | second
      · exact ⟨_, same, Nat.lt_succ_self _, inner⟩
      · exact ⟨_, List.mem_singleton.1 second, Nat.lt_succ_self _, inner⟩
    · rw [if_neg inner] at edge
      cases edge
  induction reaches with
  | single edge => exact step within edge
  | tail _ edge ih =>
    obtain ⟨below, rfl, deeper, within⟩ := ih
    obtain ⟨further, same, deeper', within'⟩ := step within edge
    exact ⟨further, same, by omega, within'⟩

theorem acyclic_tree : ¬(treeSetting depth).Cyclic (filePath []) := by
  rintro ⟨path, reaches, cycle⟩
  have inside : ∃ bits, path = filePath bits ∧ bits.length ≤ depth := by
    rcases reflTransGen_iff_eq_or_transGen.1 reaches with rfl | further
    · exact ⟨[], rfl, Nat.zero_le _⟩
    · obtain ⟨below, same, _, within⟩ := descends_tree (Nat.zero_le _) further
      exact ⟨below, same, within⟩
  obtain ⟨bits, rfl, within⟩ := inside
  obtain ⟨below, same, deeper, _⟩ := descends_tree within cycle
  rw [filePath_injective same] at deeper
  exact absurd deeper (Nat.lt_irrefl _)

theorem card_treeModules (depth : Nat) : (treeModules depth).card + 1 = 2 ^ (depth + 1) := by
  rw [treeModules, Finset.card_image_of_injective _ filePath_injective, card_bitLists]

theorem root_mem_treeModules : filePath [] ∈ treeModules depth := mem_treeModules.2 ⟨[], Nat.zero_le _, rfl⟩

theorem Setting.Loads.length_le {start : Path} {graph : Graph} (loads : setting.Loads start graph) :
    graph.modules.length ≤ 2 ^ 32 := by
  by_contra more
  have inside : 2 ^ 32 < graph.modules.length := Nat.lt_of_not_le more
  have fits := loads.fits (2 ^ 32) _ (List.getElem?_eq_getElem inside)
  have bound := (graph.modules[2 ^ 32]).id.isLt
  rw [fits.id] at bound
  exact absurd bound (Nat.lt_irrefl _)

theorem not_loads_tree {result : Except Failure Graph} : ¬LoadsExactly (treeSetting 32) (filePath []) result := by
  intro exactly
  obtain ⟨graph, _, loads⟩ := exactly.graph acyclic_tree
  have subset : treeModules 32 ⊆ (graph.modules.map (·.path)).toFinset := by
    intro path member
    obtain ⟨bits, within, rfl⟩ := mem_treeModules.1 member
    exact List.mem_toFinset.2 ((loads.reachable _).2 (reaches_tree within))
  have bounded := Finset.card_le_card subset
  rw [List.toFinset_card_of_nodup loads.once, List.length_map] at bounded
  have card : (treeModules 32).card + 1 = 2 ^ (32 + 1) := card_treeModules 32
  have small := loads.length_le
  omega

end tree

theorem load_exactly_tree : LoadsExactly (treeSetting 1) (filePath [])
    (load 5 (tree 1) (fun _ => none) treeRoot [] (filePath [])) := by
  have card : (treeModules 1).card + 1 = 2 ^ (1 + 1) := card_treeModules 1
  exact load_exactly (tree 1) (fun _ => none) treeRoot [] (filePath []) (treeModules 1) 5 complete_tree root_mem_treeModules
    (by omega) (by omega)

/-- With more modules than numbers the load of a tree fails, though none of its imports is on a cycle. -/
theorem not_load_exactly : ¬∀ (environment : Environment) (overlays : Path → Option String) (standard : ModuleRoot)
    (extras : List ModuleRoot) (entry : Path) (modules : Finset Path) (fuel : Nat),
    (settingOf environment overlays standard extras entry).Complete modules →
    environment.normalize (environment.normalize entry) ∈ modules → modules.card < fuel →
    LoadsExactly (settingOf environment overlays standard extras entry)
      (environment.normalize (environment.normalize entry)) (load fuel environment overlays standard extras entry) := by
  intro always
  have enough : (treeModules 32).card < (treeModules 32).card + 1 := Nat.lt_add_one _
  have exactly := always (tree 32) (fun _ => none) treeRoot [] (filePath []) (treeModules 32) ((treeModules 32).card + 1)
    complete_tree root_mem_treeModules enough
  exact not_loads_tree exactly

end BasicNext.Frontend.ModuleGraph
