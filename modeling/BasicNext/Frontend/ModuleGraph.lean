import BasicNext.Frontend.Lexer
import Mathlib.Data.Finset.Card

/-!
# Module graphs

The loader of a program: from its entry file it reads, lexes and parses every module that is imported, each once, and
numbers the modules in the order in which they are complete. The file system, the lexer and the parser are parameters.
-/

namespace BasicNext.Frontend.ModuleGraph

open Lib

/-- A path as the components by which paths are compared. -/
abbrev Path := List String

def display (path : Path) : String := "/" ++ "/".intercalate path

/-- The extension of the last component, which is what stands behind its last dot. -/
def setExtension (path : Path) (extension : String) : Path :=
  path.modifyLast fun name =>
    let characters := name.toList.reverse
    let stem := (characters.dropWhile (· != '.')).drop 1
    if stem.isEmpty then name ++ "." ++ extension else String.ofList stem.reverse ++ "." ++ extension

inductive StandardModule where
  | bnData | bnMath | bnLog | bnWeb | bnJson | bnDispatch | bnCrypto | bnCompress | bnSqlite | bnFfi
deriving DecidableEq, Repr

def standardFiles : List (String × StandardModule) :=
  [("BNData.bn", .bnData), ("BNMath.bn", .bnMath), ("BNLog.bn", .bnLog), ("BNWeb.bn", .bnWeb), ("BNJson.bn", .bnJson),
    ("BNDispatch.bn", .bnDispatch), ("BNCrypto.bn", .bnCrypto), ("BNCompress.bn", .bnCompress),
    ("BNSqlite.bn", .bnSqlite), ("BNFfi.bn", .bnFfi)]

def standardModule (path : Path) : Option StandardModule :=
  let inBn := ["modules", "bn"].isSuffixOf path.dropLast
  path.getLast?.bind fun name => if inBn then standardFiles.lookup name else none

inductive RootProvenance where
  | entryDir | bnHome | entryAncestor | cwd | exeInstall | stdlibDefault | config | cliFlag
deriving DecidableEq, Repr

structure ModuleRoot where
  path : Path
  provenance : RootProvenance
deriving DecidableEq, Repr

structure SourceFile where
  name : String
  text : String
deriving DecidableEq, Repr

structure Diagnostic where
  code : String
  text : String
  span : Span
deriving DecidableEq, Repr

structure ModuleError where
  source : SourceFile
  diagnostic : Diagnostic
deriving DecidableEq, Repr

/-- A top-level item, with what the loader reads of it. -/
inductive Item where
  | import (path : List String) (span : Span)
  | constant (exported : Bool) (name : String)
  | declaration (exported : Bool) (name : String)
deriving DecidableEq, Repr

structure Program where
  items : List Item
deriving DecidableEq, Repr

abbrev ModuleId := Fin (2 ^ 32)

structure LoadedModule where
  id : ModuleId
  path : Path
  source : SourceFile
  program : Program
  imports : List ModuleId
  exportSelectors : List (Option String)
  standardModule : Option StandardModule
  root : Option ModuleRoot
deriving DecidableEq, Repr

structure Graph where
  root : ModuleId
  modules : List LoadedModule
  roots : List ModuleRoot
deriving DecidableEq, Repr

/-- The file system, and the lexer followed by the parser. -/
structure Environment where
  normalize : Path → Path
  readToString : Path → Except String String
  hasExactEntry : Path → String → Bool
  parse : SourceFile → Except Diagnostic Program

inductive State where
  | visiting
  | loaded (id : ModuleId)
deriving DecidableEq, Repr

/-- What the loader does not change. -/
structure Setting extends Environment where
  rootDirectory : Path
  overlays : Path → Option String
  roots : List ModuleRoot

/-- What it does. -/
structure Loader where
  states : Path → Option State
  modules : List LoadedModule

/-- Why loading ends without a graph. -/
inductive Failure where
  | error (error : ModuleError)
  | panics (message : String)
  | outOfFuel
deriving DecidableEq, Repr

abbrev Importer := SourceFile × Span

def defaultSpan : Span := ⟨⟨0, 1, 1⟩, ⟨0, 1, 1⟩⟩

def moduleError (source : SourceFile) (code text : String) (span : Span) : ModuleError := ⟨source, code, text, span⟩

def moduleNotFound (name : String) (importer : Option Importer) (error : String) : ModuleError :=
  let (source, span) := importer.getD (⟨name, ""⟩, defaultSpan)
  moduleError source "MODULE_NOT_FOUND" (name ++ ": " ++ error) span

/-- The roots in their order; a path that comes again keeps its first provenance. -/
def effectiveModulePaths (environment : Environment) (rootDirectory : Path) (standard : ModuleRoot)
    (extras : List ModuleRoot) : List ModuleRoot :=
  let candidates := [⟨rootDirectory, .entryDir⟩, ⟨rootDirectory ++ ["modules"], .entryDir⟩, standard] ++ extras
  candidates.foldl (fun roots root =>
    let path := environment.normalize root.path
    if roots.any (·.path == path) then roots else roots ++ [⟨path, root.provenance⟩]) []

namespace Setting

variable (setting : Setting)

def readSource (path : Path) (importer : Option Importer) : Except ModuleError SourceFile :=
  let name := display path
  match (setting.overlays path).elim (setting.readToString path) .ok with
  | .ok text => .ok ⟨name, text⟩
  | .error error => .error (moduleNotFound name importer error)

/-- Whether each directory below a root has the next one, and the last the file. -/
def exactModuleExists : Path → List String → Bool
  | _, [] => false
  | directory, [file] => setting.hasExactEntry directory (file ++ ".bn")
  | directory, name :: next :: parts =>
    setting.hasExactEntry directory name && exactModuleExists (directory ++ [name]) (next :: parts)

def importPath (parts : List String) : Path × Option ModuleRoot :=
  match setting.roots.find? fun root => setting.exactModuleExists root.path parts with
  | some root => (setExtension (root.path ++ parts) "bn", some root)
  | none => (setExtension (setting.rootDirectory ++ parts) "bn", none)

def exports (program : Program) (name : String) : Bool :=
  program.items.any fun
    | .declaration exported declared => exported && declared == name
    | .constant exported declared => exported && declared == name
    | .import _ _ => false

/-- Where an import leads: its file, the root that holds it, and the export that it names there. -/
structure Resolution where
  path : Path
  root : Option ModuleRoot
  selector : Option String
deriving DecidableEq, Repr

def resolveImport (parts : List String) (importer : SourceFile) (span : Span) : Except ModuleError Resolution :=
  let nested := setting.importPath parts
  if parts.length < 2 then .ok ⟨nested.1, nested.2, none⟩
  else
    let moduleParts := parts.dropLast
    let exported := parts.getLast?.getD ""
    let parent := setting.importPath moduleParts
    if parent.2.isNone then .ok ⟨nested.1, nested.2, none⟩
    else do
      let source ← setting.readSource (setting.normalize parent.1) (some (importer, span))
      if (setting.parse source).toOption.any (exports · exported) then return ⟨parent.1, parent.2, some exported⟩
      if nested.2.isSome then return ⟨nested.1, nested.2, none⟩
      throw (moduleError importer "IMPORT_EXPORT_NOT_FOUND"
        ("'" ++ exported ++ "' is not an EXPORT of module '" ++ ".".intercalate moduleParts ++ "' and no nested module '" ++
          ".".intercalate parts ++ "' exists") span)

/-- An import no root holds letter for letter is not found, even where the file system would open its path. -/
def isUnrooted (path : Path) (importer : Option Importer) (root : Option ModuleRoot) : Bool :=
  root.isNone && importer.isSome && (setting.overlays path).isNone

end Setting

def moduleImport : Item → Option (List String × Span)
  | .import path span => if path.head? = some "HOST" then none else some (path, span)
  | _ => none

def moduleImports (program : Program) : List (List String × Span) := program.items.filterMap moduleImport

abbrev Visit := Loader → Path → Option Importer → Option ModuleRoot → Except Failure (Loader × ModuleId)

/-- What the items of a module have led to so far. -/
structure Imported where
  loader : Loader
  imports : List ModuleId
  exportSelectors : List (Option String)

def Loader.enter (loader : Loader) (path : Path) : Imported :=
  ⟨⟨Function.update loader.states path (some .visiting), loader.modules⟩, [], []⟩

/-- The module behind its imports, with the next number. -/
def finish (path : Path) (source : SourceFile) (program : Program) (root : Option ModuleRoot) (imported : Imported) :
    Except Failure (Loader × ModuleId) :=
  let loader := imported.loader
  if small : loader.modules.length < 2 ^ 32 then
    let id : ModuleId := ⟨loader.modules.length, small⟩
    .ok (⟨Function.update loader.states path (some (.loaded id)), loader.modules ++
        [⟨id, path, source, program, imported.imports, imported.exportSelectors, standardModule path, root⟩]⟩, id)
  else
    .error (.error (moduleError source "MODULE_LIMIT" "module graph exceeds the portable module limit" defaultSpan))

namespace Setting

variable (setting : Setting)

def visitItem (visit : Visit) (source : SourceFile) (imported : Imported) : Item → Except Failure Imported
  | .import path span =>
    if path.head? = some "HOST" then .ok imported
    else do
      let resolution ← (setting.resolveImport path source span).mapError .error
      let result ← visit imported.loader resolution.path (some (source, span)) resolution.root
      return ⟨result.1, imported.imports ++ [result.2], imported.exportSelectors ++ [resolution.selector]⟩
  | _ => .ok imported

def visit : Nat → Visit
  | 0, _, _, _, _ => .error .outOfFuel
  | fuel + 1, loader, requested, importer, root =>
    let path := setting.normalize requested
    if setting.isUnrooted path importer root then
      .error (.error (moduleNotFound (display requested) importer "entity not found"))
    else
      match loader.states path, importer with
      | some (.loaded id), _ => .ok (loader, id)
      | some .visiting, none => .error (.panics "root module cannot form an import cycle")
      | some .visiting, some (source, span) =>
        .error (.error (moduleError source "IMPORT_CYCLE" ("import cycle includes " ++ display path) span))
      | none, _ => do
        let source ← (setting.readSource path importer).mapError .error
        let program ← (setting.parse source).mapError fun diagnostic => .error ⟨source, diagnostic⟩
        let imported ← program.items.foldlM (setting.visitItem (visit fuel) source) (loader.enter path)
        finish path source program root imported

variable {setting} {visit : Visit} {source : SourceFile} {imported : Imported}

theorem visitItem_of_none {item : Item} (skipped : moduleImport item = none) :
    setting.visitItem visit source imported item = .ok imported := by
  cases item with
  | constant exported name => rfl
  | declaration exported name => rfl
  | «import» path span =>
    by_cases host : path.head? = some "HOST"
    · exact if_pos host
    · rw [moduleImport, if_neg host] at skipped
      cases skipped

theorem visitItem_of_some {item : Item} {path : List String} {span : Span} {resolution : Resolution}
    (named : moduleImport item = some (path, span)) (resolved : setting.resolveImport path source span = .ok resolution) :
    setting.visitItem visit source imported item =
      visit imported.loader resolution.path (some (source, span)) resolution.root >>= fun result =>
        .ok ⟨result.1, imported.imports ++ [result.2], imported.exportSelectors ++ [resolution.selector]⟩ := by
  cases item with
  | constant exported name => cases named
  | declaration exported name => cases named
  | «import» path' span' =>
    by_cases host : path'.head? = some "HOST"
    · rw [moduleImport, if_pos host] at named
      cases named
    · rw [moduleImport, if_neg host] at named
      cases named
      rw [visitItem, if_neg host, resolved]
      rfl

section visit

variable {fuel : Nat} {loader : Loader} {requested : Path} {importer : Option Importer} {root : Option ModuleRoot}

theorem visit_loaded {id : ModuleId} (rooted : setting.isUnrooted (setting.normalize requested) importer root = false)
    (state : loader.states (setting.normalize requested) = some (.loaded id)) :
    setting.visit (fuel + 1) loader requested importer root = .ok (loader, id) := by
  unfold visit
  dsimp only
  rw [rooted, if_neg Bool.false_ne_true, state]

theorem visit_visiting {span : Span}
    (rooted : setting.isUnrooted (setting.normalize requested) (some (source, span)) root = false)
    (state : loader.states (setting.normalize requested) = some .visiting) :
    setting.visit (fuel + 1) loader requested (some (source, span)) root = .error (.error (moduleError source "IMPORT_CYCLE"
        ("import cycle includes " ++ display (setting.normalize requested)) span)) := by
  unfold visit
  dsimp only
  rw [rooted, if_neg Bool.false_ne_true, state]

theorem visit_fresh {program : Program} (rooted : setting.isUnrooted (setting.normalize requested) importer root = false)
    (state : loader.states (setting.normalize requested) = none)
    (read : setting.readSource (setting.normalize requested) importer = .ok source)
    (parsed : setting.parse source = .ok program) :
    setting.visit (fuel + 1) loader requested importer root =
      program.items.foldlM (setting.visitItem (setting.visit fuel) source) (loader.enter (setting.normalize requested)) >>=
      finish (setting.normalize requested) source program root := by
  unfold visit
  dsimp only
  rw [rooted, if_neg Bool.false_ne_true, state, read]
  show ((setting.parse source).mapError _ >>= _) = _
  rw [parsed]
  rfl

end visit

end Setting

/-- The setting in which a program is loaded. -/
def settingOf (environment : Environment) (overlays : Path → Option String) (standard : ModuleRoot)
    (extras : List ModuleRoot) (entry : Path) : Setting :=
  let rootDirectory := (environment.normalize entry).dropLast
  ⟨environment, rootDirectory, overlays, effectiveModulePaths environment rootDirectory standard extras⟩

def load (fuel : Nat) (environment : Environment) (overlays : Path → Option String) (standard : ModuleRoot)
    (extras : List ModuleRoot) (entry : Path) : Except Failure Graph := do
  let setting := settingOf environment overlays standard extras entry
  let (loader, root) ← setting.visit fuel ⟨fun _ => none, []⟩ (environment.normalize entry) none none
  return ⟨root, loader.modules, setting.roots⟩

end BasicNext.Frontend.ModuleGraph
