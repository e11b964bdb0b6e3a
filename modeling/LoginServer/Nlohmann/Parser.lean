import LoginServer.Nlohmann.Lexer
import LoginServer.Utils.Json

/-!
# The parser of `nlohmann::json`

`parser::sax_parse_internal` with the `json_sax_dom_parser`. The parser asks the lexer for
one token after the other and never for one again, so the tokens are a list here. `states`
and `ref_stack` are one stack of containers that are still open, the innermost first; a
container is handed to the one around it when it is closed.
-/

namespace LoginServer.Nlohmann

/-- An open container; an object has the key of the element that is parsed. -/
inductive Frame where
  | array (items : List Json)
  | object (members : List (Bytes × Json)) (key : Bytes)

/-- `std::isfinite` of a binary64 pattern. -/
def isfinite (bits : UInt64) : Bool := (bits.toNat >>> 52) % 2 ^ 11 ≠ 2047

mutual

/-- One turn of the loop up to the state evaluation. -/
def sax_parse_internal (states : List Frame) : List Token → Option (Json × List Token)
  | .begin_object :: .end_object :: tokens => evaluateState states (.object []) tokens
  | .begin_object :: .value_string key :: .name_separator :: tokens =>
    sax_parse_internal (.object [] key :: states) tokens
  | .begin_array :: .end_array :: tokens => evaluateState states (.array []) tokens
  | .begin_array :: tokens => sax_parse_internal (.array [] :: states) tokens
  | .value_float bits :: tokens =>
    if isfinite bits then evaluateState states (.number_float bits) tokens else none
  | .literal_false :: tokens => evaluateState states (.boolean false) tokens
  | .literal_null :: tokens => evaluateState states .null tokens
  | .literal_true :: tokens => evaluateState states (.boolean true) tokens
  | .value_integer n :: tokens => evaluateState states (.number n) tokens
  | .value_string s :: tokens => evaluateState states (.string s) tokens
  | .value_unsigned n :: tokens => evaluateState states (.number n) tokens
  | _ => none

/-- "we reached this line after we successfully parsed a value" -/
def evaluateState : List Frame → Json → List Token → Option (Json × List Token)
  | [], value, tokens => some (value, tokens)
  | .array items :: states, value, .value_separator :: tokens =>
    sax_parse_internal (.array (items ++ [value]) :: states) tokens
  | .array items :: states, value, .end_array :: tokens =>
    evaluateState states (.array (items ++ [value])) tokens
  | .object members key :: states, value,
      .value_separator :: .value_string key' :: .name_separator :: tokens =>
    sax_parse_internal (.object (Json.setMember members key value) key' :: states) tokens
  | .object members key :: states, value, .end_object :: tokens =>
    evaluateState states (.object (Json.setMember members key value)) tokens
  | _, _, _ => none

end

/-- `json::parse`, in strict mode; `none` when it throws. -/
def parse (strtod : Bytes → UInt64) (text : Bytes) : Option Json := do
  let input ← skip_bom text
  match sax_parse_internal [] (tokens strtod (input.length + 1) input) with
  | some (result, .end_of_input :: _) => some result
  | _ => none

end LoginServer.Nlohmann
