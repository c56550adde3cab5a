import InsertBatch.Config.Error
import InsertBatch.Settings
import InsertBatch.Text.Lowercase
import InsertBatch.Toml.Value

namespace InsertBatch

-- What one option of a configuration file sets. Each touches a field of its own.
inductive Assignment where
  | rawBackslash (b : Bool)
  | mergeRows (b : Bool)
  | joinStatements (b : Bool)
  | maxPacket (n : Nat)
  | cacheSize (n : Nat)
  | sqlMode (mode : SqlMode)
  | exclude (patterns : List String)
deriving DecidableEq, Repr

namespace Assignment

def asBool (key : String) : Toml.Value → Except ConfigError Bool
  | .boolean b => .ok b
  | _ => .error (.wrongType key "a boolean")

def asNat (key : String) : Toml.Value → Except ConfigError Nat
  | .integer n => if 0 ≤ n then .ok n.toNat else .error (.wrongType key "a non-negative integer")
  | _ => .error (.wrongType key "a non-negative integer")

def asMode (key : String) : Toml.Value → Except ConfigError SqlMode
  | .string text => (SqlMode.parseStrict text).mapError .invalidFlag
  | _ => .error (.wrongType key "a string")

-- Items that are not strings are passed over.
def asTexts (key : String) : Toml.Value → Except ConfigError (List String)
  | .array items => .ok (items.filterMap Toml.Value.asText?)
  | _ => .error (.wrongType key "an array of strings")

def asPacket (key : String) (value : Toml.Value) : Except ConfigError Nat :=
  match asNat key value with
  | .ok 0 => .error .zeroPacket
  | checked => checked

def ofEntry (key : String) (value : Toml.Value) : Except ConfigError Assignment :=
  if key = "no_backslash_escapes" then (asBool key value).map .rawBackslash
  else if key = "rewrite_batched_statements" then (asBool key value).map .mergeRows
  else if key = "allow_multi_queries" then (asBool key value).map .joinStatements
  else if key = "max_allowed_packet" then (asPacket key value).map .maxPacket
  else if key = "cache_size" then (asNat key value).map .cacheSize
  else if key = "sql_mode" then (asMode key value).map .sqlMode
  else if key = "exclude" then (asTexts key value).map .exclude
  else .error (.unknownOption key)

def apply (settings : Settings) : Assignment → Settings
  | .rawBackslash b => { settings with rawBackslash := b }
  | .mergeRows b => { settings with mergeRows := b }
  | .joinStatements b => { settings with joinStatements := b }
  | .maxPacket n => { settings with maxPacket := n }
  | .cacheSize n => { settings with cacheSize := n }
  | .sqlMode mode => { settings with sqlMode := some mode.toText }
  | .exclude patterns => { settings with exclude := patterns }

end Assignment

namespace Settings

-- The first entry at fault, in the order given, refuses all of them.
def assign (settings : Settings) : List (String × Toml.Value) → Except ConfigError Settings
  | [] => .ok settings
  | (key, value) :: rest =>
    match Assignment.ofEntry key value with
    | .ok assignment => (assignment.apply settings).assign rest
    | .error error => .error error

end Settings
end InsertBatch
