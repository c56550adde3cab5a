import InsertBatch.ReadError
import InsertBatch.Text.Quoted

namespace InsertBatch

inductive ConfigError where
  | fileNotFound (path : String)
  | unreadable (cause : ReadError)
  | malformed
  | unknownOption (key : String)
  | wrongType (key expected : String)
  | zeroPacket
  | invalidFlag (entry : String)
deriving DecidableEq, Repr

namespace ConfigError

def problem (text : String) : String := "sqlrewrite config error: " ++ text

-- A malformed file says where it is malformed in words that are not modeled.
def message : ConfigError → String
  | .fileNotFound path => problem s!"Config file not found: {path}"
  | .unreadable cause => s!"IO error: {cause.message}"
  | .malformed => "TOML parse error"
  | .unknownOption key => problem s!"Unknown config option: {key}"
  | .wrongType key expected => problem s!"Config option {key} must be {expected}"
  | .zeroPacket => problem "max_allowed_packet must be greater than 0"
  | .invalidFlag entry => problem s!"Invalid sql_mode flag: {Text.quoted entry}"

end ConfigError
end InsertBatch
