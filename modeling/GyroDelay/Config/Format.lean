import GyroDelay.Files
import GyroDelay.Json.Tree
import GyroDelay.Toml.Writer

/-!
# Formats of configurations

A configuration file is in the format of its extension.
-/

namespace GyroDelay.Config

/-- A format of configuration files. -/
inductive Format where
  | toml
  | json
deriving Repr, DecidableEq

namespace Format

/-- The name of a format. -/
def name : Format → String
  | toml => "toml"
  | json => "json"

/-- The format of an extension; letters of the Latin alphabet may be capitals. -/
def ofExtension? (extension : String) : Option Format :=
  let extension := Text.lowerLatin extension
  if extension = "toml" then some toml
  else if extension = "json" then some json
  else none

/-- What is reported when a text is not a configuration in a format. -/
def fault : Format → SyntaxFault
  | toml => .toml
  | json => .json

/-- The configuration that a text holds in a format. -/
def read? : Format → String → Option Config
  | toml, text => Toml.readConfig? text
  | json, text => Json.readConfig? text

/-- The text of a configuration in a format. -/
def render : Format → Config → String
  | toml, c => Toml.renderConfig c
  | json, c => Json.renderConfig c

end Format

/-- Reads a configuration and checks it. -/
def load (format : Format) (text : String) : Except (Fault Float) Config := do
  match format.read? text with
  | none => throw (.configSyntax format.fault)
  | some config =>
    config.validate
    return config

/-- The format of a file. -/
def formatOf (path : String) : Except (Fault Float) Format :=
  match Files.extension? path with
  | none => .error (.configSyntax .noExtension)
  | some extension =>
    match Format.ofExtension? extension with
    | some format => .ok format
    | none => .error (.configSyntax (.unknownExtension extension))

/-- Loads a configuration file, which is read only if its format is known. -/
def loadFile (files : Files) (path : String) : Except (Fault Float) Config := do
  let format ← formatOf path
  match files.text path with
  | .error fault => throw (.file fault)
  | .ok text => load format text

end GyroDelay.Config
