/-
  LinkedData.Config — what can be configured, its defaults, and which configurations are valid.

  Every setting has a default, so a configuration can be read from any part of one (`read`).
  Reading takes whatever can be understood; `faults` lists what is wrong with the result, all
  of it at once.
-/

import LinkedData.Error
import LinkedData.FileTree.Location
import LinkedData.Json
import LinkedData.Rdf.Iri
import LinkedData.Settings

namespace LinkedData

open Std

/-- Where the stores are kept: locations, seen from the workspace. -/
structure StorageConfig where
  store : String
  mementos : String
  binaries : String
  deriving DecidableEq, Repr

structure LoggingConfig where
  level : String
  format : String
  output : String
  file : String
  color : Bool
  /-- Levels of modules. -/
  modules : ExtTreeMap String String compare
  deriving DecidableEq

structure Config where
  /-- The identifier of the root container. -/
  baseUrl : String
  /-- The space of names that bare names of agents belong to. -/
  agentSpace : String
  storage : StorageConfig
  /-- A memento is recorded of every committed state. -/
  versioning : Bool
  /-- How many profiles are kept at hand. -/
  cacheCapacity : Nat
  logging : LoggingConfig
  deriving DecidableEq

def StorageConfig.standard : StorageConfig := ⟨".ldp/store", ".ldp/mementos", ".ldp/binaries"⟩

def LoggingConfig.standard : LoggingConfig := ⟨"info", "text", "stderr", ".ldp/ldp-store.log", true, ∅⟩

def Config.standard : Config := ⟨"trellis:data/", "trellis:agent/", .standard, true, 100, .standard⟩

/-- The locations seen from where `root` is seen from. -/
def StorageConfig.resolve (s : StorageConfig) (root : String) : StorageConfig :=
  ⟨Location.join root s.store, Location.join root s.mementos, Location.join root s.binaries⟩

/-! ## Reading

  A group of settings is a table of them by name, or a list of them in their order. -/

namespace Config

open Setting

def read? {α : Type} (reader : Setting → Option α) (standard : α) : Option Setting → Option α
  | some s => reader s
  | none => some standard

/-- The setting of a name, which has number `index` in the order of its group. -/
def member? {α : Type} (group : Setting) (index : Nat) (name : String) (reader : Setting → Option α)
    (standard : α) :
    Option α :=
  match group with
  | table fs => read? reader standard (fs.lookup name)
  | list xs => read? reader standard xs[index]?
  | _ => none

def storage? (s : Setting) : Option StorageConfig := do
  let standard := StorageConfig.standard
  return ⟨← member? s 0 "store_path" text? standard.store, ← member? s 1 "mementos_path" text? standard.mementos,
    ← member? s 2 "binaries_path" text? standard.binaries⟩

def modules? : Setting → Option (ExtTreeMap String String compare)
  | table fs => do
    return .ofList (← fs.mapM fun f => (text? f.2).map (f.1, ·)) compare
  | _ => none

def logging? (s : Setting) : Option LoggingConfig := do
  let standard := LoggingConfig.standard
  return ⟨← member? s 0 "level" text? standard.level, ← member? s 1 "format" text? standard.format,
    ← member? s 2 "output" text? standard.output, ← member? s 3 "file" text? standard.file,
    ← member? s 4 "color" flag? standard.color, ← member? s 5 "modules" modules? standard.modules⟩

def greatestCapacity : Nat := 1 <<< 64 - 1

/-- The configuration of some settings: defaults where there are none, and nothing if one of them
    cannot be understood. -/
def read (s : Setting) : Option Config := do
  let standard := Config.standard
  return ⟨← member? s 0 "base_url" text? standard.baseUrl, ← member? s 1 "agent_namespace" text? standard.agentSpace,
    ← member? s 2 "storage" storage? standard.storage,
    ← member? s 3 "versioning" (fun v => member? v 0 "enabled" flag? standard.versioning) standard.versioning,
    ← member? s 4 "cache" (fun c => member? c 0 "capacity" (natural? greatestCapacity) standard.cacheCapacity)
      standard.cacheCapacity,
    ← member? s 5 "logging" logging? standard.logging⟩

end Config

/-! ## Validity -/

inductive ConfigFault
  | baseUrl (fault : IriFault)
  | noFinalSlash
  | emptyPath (name : String)
  | noCapacity
  deriving DecidableEq, Repr

def ConfigFault.message (c : Config) : ConfigFault → String
  | baseUrl f => "Base URL: " ++ (Error.malformedInput (f.message c.baseUrl)).message
  | noFinalSlash => "Base URL: '" ++ c.baseUrl ++ "' must end with '/'"
  | emptyPath name => "Storage: " ++ name ++ " cannot be empty"
  | noCapacity => "Cache: capacity must be greater than zero"

namespace Config

/-- Everything that is wrong. -/
def faults (c : Config) : List ConfigFault :=
  (Iri.fault? c.baseUrl.toList).toList.map .baseUrl ++
    (if c.baseUrl.toList.getLast? = some '/' then [] else [.noFinalSlash]) ++
    ([("store_path", c.storage.store), ("mementos_path", c.storage.mementos),
      ("binaries_path", c.storage.binaries)].filter (·.2 = "")).map (.emptyPath ·.1) ++
    (if c.cacheCapacity = 0 then [.noCapacity] else [])

def Valid (c : Config) : Prop := c.faults = []

instance (c : Config) : Decidable c.Valid := inferInstanceAs (Decidable (_ = _))

def messages (c : Config) : List String := c.faults.map (·.message c)

/-- The configuration, if it is valid. -/
def validated (c : Config) : Except Error Config :=
  if c.Valid then .ok c
  else .error (.config ("Configuration validation failed:\n" ++ "\n".intercalate c.messages))

/-! ## As a document -/

def document (c : Config) : Json :=
  .object [("base_url", .text c.baseUrl), ("agent_namespace", .text c.agentSpace),
    ("storage", .object [("store_path", .text c.storage.store), ("mementos_path", .text c.storage.mementos),
      ("binaries_path", .text c.storage.binaries)]),
    ("versioning", .object [("enabled", .bool c.versioning)]),
    ("cache", .object [("capacity", .number c.cacheCapacity)]),
    ("logging", .object [("level", .text c.logging.level), ("format", .text c.logging.format),
      ("output", .text c.logging.output), ("file", .text c.logging.file), ("color", .bool c.logging.color),
      ("modules", .object (c.logging.modules.toList.map fun m => (m.1, .text m.2)))])]

end Config

end LinkedData
