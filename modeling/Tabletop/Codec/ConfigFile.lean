import Tabletop.Codec.Run
import Tabletop.Toml.Reader
/-!
# Configuration files
-/

namespace Tabletop

/-- Reads a configuration from a TOML text, and refuses one that no run should have. -/
def PipelineConfig.ofToml (text : String) : Except ConfigError PipelineConfig :=
  match (Document.ofToml? text).bind (Decode.pipelineConfig .toml) with
  | none => .error .malformed
  | some config => do
    config.validate
    return config

end Tabletop
