import TestDispatch.Path
import TestDispatch.Fs.Error
/-! Why a configuration could not be used: no file, not a file, a value that fails validation,
text that is not TOML, or a read failure. -/
namespace TestDispatch.Config

/-- Why a configuration could not be loaded, validated or written. -/
inductive ConfigError
  | notFound (path : Path)
  | notAFile (path : Path)
  | invalidValue (field message : String)
  | noHomeDir
  /-- The text is not a valid document for the configuration; the detail is kept as a cause. -/
  | tomlError (detail : String)
  /-- A value cannot be written as TOML. -/
  | tomlSerError (detail : String)
  | io (cause : Fs.IoError)
deriving DecidableEq, Repr

def ConfigError.message : ConfigError → String
  | .notFound p => s!"No config file found at {p.text}, try " ++
    "\x60grind config --generate\x60 first?"
  | .notAFile p => s!"Config location {p.text} is not a file"
  | .invalidValue field message => s!"Invalid configuration: {field} - {message}"
  | .noHomeDir => "Could not determine home directory"
  | .tomlError _ => "TOML parsing error"
  | .tomlSerError _ => "TOML serialization error"
  | .io _ => "IO error reading config"

end TestDispatch.Config
