/-
  LinkedData.Config.Text — a configuration as the text of its file.

  Every setting is written, group by group, in the form that reading takes. The format's
  integers end at 2^63 - 1: a greater capacity cannot be written.
-/

import LinkedData.Config
import LinkedData.Toml.Writer

namespace LinkedData.Config

open Toml

def header (name : String) : List Char := '\n' :: '[' :: name.toList ++ [']', '\n']

def flagText (b : Bool) : List Char := (toString b).toList

def storageText (s : StorageConfig) : List Char :=
  header "storage" ++ writePair "store_path" (writeString s.store) ++
    writePair "mementos_path" (writeString s.mementos) ++ writePair "binaries_path" (writeString s.binaries)

def loggingText (l : LoggingConfig) : List Char :=
  header "logging" ++ writePair "level" (writeString l.level) ++ writePair "format" (writeString l.format) ++
    writePair "output" (writeString l.output) ++ writePair "file" (writeString l.file) ++
    writePair "color" (flagText l.color) ++ header "logging.modules" ++
    l.modules.toList.flatMap fun m => writePair m.1 (writeString m.2)

def greatestInteger : Nat := 1 <<< 63 - 1

def text (c : Config) : Except Error String :=
  if greatestInteger < c.cacheCapacity then
    .error (.internal "Failed to render configuration: out-of-range value for u64 type")
  else
    .ok (String.ofList (writePair "base_url" (writeString c.baseUrl) ++
      writePair "agent_namespace" (writeString c.agentSpace) ++ storageText c.storage ++
      header "versioning" ++ writePair "enabled" (flagText c.versioning) ++
      header "cache" ++ writePair "capacity" (Text.natural c.cacheCapacity) ++ loggingText c.logging))

end LinkedData.Config
