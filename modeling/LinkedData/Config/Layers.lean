/-
  LinkedData.Config.Layers — where settings come from, and which of them win.

  From the weakest to the strongest: defaults, the user's file, two files of the workspace,
  and the environment. Files that are not there count for nothing; one that is there and
  cannot be read spoils everything. A single file that is named takes the place of all of
  these but the defaults.
-/

import LinkedData.Config
import LinkedData.Decimal.Reader
import LinkedData.Encoding.Primitive
import LinkedData.Ini
import LinkedData.Json.Reader
import LinkedData.Json5
import LinkedData.Ron
import LinkedData.Toml.Document
import LinkedData.Yaml.Document

namespace LinkedData

/-- What a process finds around it: its environment, its directory and the files. -/
structure Surroundings where
  environment : List (String × String)
  /-- The current directory. -/
  here : Path
  files : FileTree

namespace Surroundings

def valueOf? (s : Surroundings) (name : String) : Option String := s.environment.lookup name

end Surroundings

namespace Config

abbrev Layer := List (String × Setting)

/-- Defaults that are settings like any others; the rest are filled in by the reader. -/
def defaults : Layer :=
  let standard := Config.standard
  [("base_url", .text standard.baseUrl), ("agent_namespace", .text standard.agentSpace),
    ("storage.store_path", .text standard.storage.store), ("storage.mementos_path", .text standard.storage.mementos),
    ("storage.binaries_path", .text standard.storage.binaries), ("versioning.enabled", .flag standard.versioning),
    ("cache.capacity", .integer standard.cacheCapacity)]

/-! ## Files -/

def unreadable : Error := .config "configuration cannot be read"

/-- The forms that a file of settings may have, by the ending of its name. -/
def forms : List (String × (String → Option Layer)) :=
  [("toml", Toml.parse), ("json", Json.Reader.parse), ("yaml", Yaml.parse), ("yml", Yaml.parse),
    ("ini", Ini.parse), ("ron", Ron.parse), ("json5", Json5.parse)]

/-- There is a file at the location. -/
def isFileAt (s : Surroundings) (location : String) : Bool := s.files.isFile (Location.path s.here location)

/-- The file of a location and how it is read: it is there exactly and of a known form, or it is there
    when its ending is added. -/
def findFile? (s : Surroundings) (location : String) : Option (String × (String → Option Layer)) :=
  if isFileAt s location then
    ((Location.fileName? location).bind Location.ending?).bind fun ending => (forms.lookup ending).map (location, ·)
  else forms.findSome? fun f => ((Location.withEnding? location f.1).filter (isFileAt s)).map (·, f.2)

/-- The text of a file. A mark of the order of its bytes is no part of it. -/
def textOf? (s : Surroundings) (location : String) : Option String := do
  let text ← Encoding.ofUtf8? (← (s.files.readFile (Location.path s.here location)).toOption)
  return if text.toList.head? = some '\ufeff' then String.ofList (text.toList.drop 1) else text

/-- The layer of a file. Without a text there is none, which is an error if it is `required`. -/
def fileLayer (s : Surroundings) (required : Bool) (location : String) : Except Error Layer :=
  match (findFile? s location).bind fun (place, read) => (textOf? s place).map (·, read) with
  | some (text, read) =>
    match read text with
    | some layer => .ok layer
    | none => .error unreadable
  | none => if required then .error unreadable else .ok []

/-- The user's file: below the directory for configuration, or below the home directory. -/
def userFile? (s : Surroundings) : Option String :=
  let base := match (s.valueOf? "XDG_CONFIG_HOME").filter (· ≠ "") with
    | some base => some base
    | none => (s.valueOf? "HOME").map (Location.join · ".config")
  base.map fun b => Location.join (Location.join b "ldp-store") "config.toml"

/-- The files of a workspace: one for every use of it, and one for the kind of use it has now. -/
def workspaceFiles (s : Surroundings) (workspace : String) : List String :=
  let directory := Location.join workspace "config"
  [Location.join directory "config.toml",
    Location.join directory ((s.valueOf? "LDP_ENV").getD "development" ++ ".toml")]

/-- Something is at the location. -/
def isAt (s : Surroundings) (location : String) : Bool := s.files.exists? (Location.path s.here location)

/-! ## The environment -/

/-- The value of a variable: a flag or a number if it looks like one. -/
def variableValue (s : String) : Setting :=
  if Text.lower s = "true" then .flag true
  else if Text.lower s = "false" then .flag false
  else match Text.integer? s.toList with
    | some n => .integer n
    | none =>
      match Binary64.ofText? s.toList with
      | some x => .real x
      | none => .text s

/-- Two underscores stand for the point of a path. -/
def dotted : List Char → List Char
  | '_' :: '_' :: cs => '.' :: dotted cs
  | c :: cs => c :: dotted cs
  | [] => []

def variableStart : List Char := "ldp_".toList

/-- The setting that a variable is for. -/
def variableName? (name : String) : Option String :=
  let cs := (Text.lower name).toList
  if variableStart.isPrefixOf cs then some (String.ofList (dotted (cs.drop variableStart.length))) else none

def environmentLayer (s : Surroundings) : Layer :=
  s.environment.filterMap fun v => (variableName? v.1).map (·, variableValue v.2)

/-! ## Layers put together -/

/-- The configuration of some layers, the weakest first. -/
def ofLayers (layers : List Layer) : Except Error Config :=
  match read (layers.foldl Setting.overlay (.table [])) with
  | some c => .ok c
  | none => .error unreadable

/-- The configuration of a workspace. -/
def load (s : Surroundings) (workspace : String) : Except Error Config := do
  let files := ((userFile? s).toList ++ workspaceFiles s workspace).filter (isAt s)
  ofLayers (defaults :: (← files.mapM (fileLayer s false)) ++ [environmentLayer s])

/-- The configuration of one file. -/
def loadFile (s : Surroundings) (location : String) : Except Error Config := do
  ofLayers [defaults, ← fileLayer s true location]

end Config

end LinkedData
