import LoginServer.Utils.Stoi

/-!
# The lexer of `nlohmann::json`

`lexer::scan` of the vendored header. `get()` takes the next byte of the input and `unget()`
puts it back, so a scanning function answers with the input that is left. `token_buffer` is
handed along. `std::strtod` is a parameter: a binary64 pattern for a text.
-/

namespace LoginServer.Nlohmann

inductive Token where
  | literal_true
  | literal_false
  | literal_null
  | value_string (token_buffer : Bytes)
  | value_unsigned (n : Nat)
  | value_integer (n : Int)
  | value_float (bits : UInt64)
  | begin_array
  | begin_object
  | end_array
  | end_object
  | name_separator
  | value_separator
  | parse_error
  | end_of_input
deriving DecidableEq

/-! ## Strings -/

def hexDigit (current : UInt8) : Option Nat :=
  if 0x30 ≤ current ∧ current ≤ 0x39 then some (current.toNat - 0x30)
  else if 0x41 ≤ current ∧ current ≤ 0x46 then some (current.toNat - 0x37)
  else if 0x61 ≤ current ∧ current ≤ 0x66 then some (current.toNat - 0x57)
  else none

/-- `none` is the code point -1. -/
def get_codepoint : Bytes → Option (Nat × Bytes)
  | a :: b :: c :: d :: input => do
    let a ← hexDigit a
    let b ← hexDigit b
    let c ← hexDigit c
    let d ← hexDigit d
    return (a <<< 12 + b <<< 8 + c <<< 4 + d <<< 0, input)
  | _ => none

/-- The bytes that are added, and the input after them. -/
def next_byte_in_range : List (UInt8 × UInt8) → Bytes → Option (Bytes × Bytes)
  | [], input => some ([], input)
  | (low, high) :: ranges, current :: input =>
    if low ≤ current ∧ current ≤ high then
      (next_byte_in_range ranges input).map fun r => (current :: r.1, r.2)
    else none
  | _ :: _, [] => none

/-- "translate codepoint into bytes" -/
def translate (codepoint : Nat) : Bytes :=
  if codepoint < 0x80 then [.ofNat codepoint]
  else if codepoint ≤ 0x7FF then
    [.ofNat (0xC0 ||| codepoint >>> 6), .ofNat (0x80 ||| codepoint &&& 0x3F)]
  else if codepoint ≤ 0xFFFF then
    [.ofNat (0xE0 ||| codepoint >>> 12), .ofNat (0x80 ||| codepoint >>> 6 &&& 0x3F),
      .ofNat (0x80 ||| codepoint &&& 0x3F)]
  else
    [.ofNat (0xF0 ||| codepoint >>> 18), .ofNat (0x80 ||| codepoint >>> 12 &&& 0x3F),
      .ofNat (0x80 ||| codepoint >>> 6 &&& 0x3F), .ofNat (0x80 ||| codepoint &&& 0x3F)]

/-- The case `'u'` of an escape. -/
def scan_codepoint (input : Bytes) : Option (Bytes × Bytes) := do
  let (codepoint1, input) ← get_codepoint input
  if 0xD800 ≤ codepoint1 ∧ codepoint1 ≤ 0xDBFF then
    match input with
    | 0x5C :: 0x75 :: input =>
      let (codepoint2, input) ← get_codepoint input
      if 0xDC00 ≤ codepoint2 ∧ codepoint2 ≤ 0xDFFF then
        return (translate (codepoint1 <<< 10 + codepoint2 - 0x35FDC00), input)
      else none
    | _ => none
  else if 0xDC00 ≤ codepoint1 ∧ codepoint1 ≤ 0xDFFF then none
  else return (translate codepoint1, input)

/-- After a backslash. -/
def scan_escape : Bytes → Option (Bytes × Bytes)
  | 0x22 :: input => some ([0x22], input)
  | 0x5C :: input => some ([0x5C], input)
  | 0x2F :: input => some ([0x2F], input)
  | 0x62 :: input => some ([0x08], input)
  | 0x66 :: input => some ([0x0C], input)
  | 0x6E :: input => some ([0x0A], input)
  | 0x72 :: input => some ([0x0D], input)
  | 0x74 :: input => some ([0x09], input)
  | 0x75 :: input => scan_codepoint input
  | _ => none

/-- The ranges that the bytes after `current` are checked for; `none` is an error. -/
def followingRanges (current : UInt8) : Option (List (UInt8 × UInt8)) :=
  if current < 0x20 then none
  else if current ≤ 0x7F then some []
  else if current < 0xC2 then none
  else if current ≤ 0xDF then some [(0x80, 0xBF)]
  else if current = 0xE0 then some [(0xA0, 0xBF), (0x80, 0xBF)]
  else if current = 0xED then some [(0x80, 0x9F), (0x80, 0xBF)]
  else if current ≤ 0xEF then some [(0x80, 0xBF), (0x80, 0xBF)]
  else if current = 0xF0 then some [(0x90, 0xBF), (0x80, 0xBF), (0x80, 0xBF)]
  else if current ≤ 0xF3 then some [(0x80, 0xBF), (0x80, 0xBF), (0x80, 0xBF)]
  else if current = 0xF4 then some [(0x80, 0x8F), (0x80, 0xBF), (0x80, 0xBF)]
  else none

/-- One turn of the loop of `scan_string` that does not meet the closing quote. -/
def scan_char : Bytes → Option (Bytes × Bytes)
  | [] => none
  | 0x5C :: input => scan_escape input
  | current :: input => do
    let ranges ← followingRanges current
    let (added, input) ← next_byte_in_range ranges input
    return (current :: added, input)

/-- After the opening quote. A turn takes at least one byte, which bounds the turns. -/
def scan_string : Nat → Bytes → Bytes → Option (Bytes × Bytes)
  | 0, _, _ => none
  | _ + 1, token_buffer, 0x22 :: input => some (token_buffer, input)
  | turns + 1, token_buffer, input => do
    let (added, input) ← scan_char input
    scan_string turns (token_buffer ++ added) input

/-! ## Numbers -/

inductive NumberState where
  | minus
  | zero
  | any1
  | decimal1
  | decimal2
  | exponent
  | sign
  | any2

inductive NumberType where
  | value_unsigned
  | value_integer
  | value_float
deriving DecidableEq

inductive NumberStep where
  | goto (state : NumberState)
  | done
  | error

open NumberState NumberStep

/-- The table of `scan_number`; `none` is the end of the input. -/
def NumberState.next (state : NumberState) (current : Option UInt8) : NumberStep :=
  let digit := current.any isDigit
  let exponentMark := current = some 0x65 ∨ current = some 0x45
  match state with
  | minus => if current = some 0x30 then goto zero else if digit then goto any1 else error
  | zero =>
    if current = some 0x2E then goto decimal1 else if exponentMark then goto exponent else done
  | any1 =>
    if digit then goto any1
    else if current = some 0x2E then goto decimal1
    else if exponentMark then goto exponent
    else done
  | decimal1 => if digit then goto decimal2 else error
  | decimal2 => if digit then goto decimal2 else if exponentMark then goto exponent else done
  | exponent =>
    if current = some 0x2B ∨ current = some 0x2D then goto sign
    else if digit then goto any2
    else error
  | sign => if digit then goto any2 else error
  | any2 => if digit then goto any2 else done

/-- `number_type` as a state sets it. -/
def NumberState.numberType (state : NumberState) (number_type : NumberType) : NumberType :=
  match state with
  | minus => .value_integer
  | decimal1 | exponent => .value_float
  | _ => number_type

/-- From a state on: the type of the number, `token_buffer` and the input that is left. -/
def scan_number_states : NumberState → NumberType → Bytes → Bytes →
    Option (NumberType × Bytes × Bytes)
  | state, number_type, token_buffer, [] =>
    match state.next none with
    | done => some (state.numberType number_type, token_buffer, [])
    | _ => none
  | state, number_type, token_buffer, current :: input =>
    match state.next (some current) with
    | goto state' =>
      scan_number_states state' (state.numberType number_type) (token_buffer ++ [current]) input
    | done => some (state.numberType number_type, token_buffer, current :: input)
    | error => none

/-- `scan_number_done`: an integer that its type cannot hold becomes a float. -/
def convertNumber (strtod : Bytes → UInt64) (token_buffer : Bytes) : NumberType → Token
  | .value_unsigned =>
    let x := digitsValue token_buffer
    if x < 2 ^ 64 then .value_unsigned x else .value_float (strtod token_buffer)
  | .value_integer =>
    let x : Int := -digitsValue token_buffer.tail
    if -2 ^ 63 ≤ x then .value_integer x else .value_float (strtod token_buffer)
  | .value_float => .value_float (strtod token_buffer)

/-- The number that begins with `current`. -/
def scan_number (strtod : Bytes → UInt64) (current : UInt8) (input : Bytes) : Token × Bytes :=
  let init := if current = 0x2D then minus else if current = 0x30 then zero else any1
  match scan_number_states init .value_unsigned [current] input with
  | some (number_type, token_buffer, input) =>
    (convertNumber strtod token_buffer number_type, input)
  | none => (.parse_error, [])

/-! ## Tokens -/

/-- The rest of a literal. -/
def scan_literal : Bytes → Token → Bytes → Token × Bytes
  | [], return_type, input => (return_type, input)
  | c :: literal_text, return_type, current :: input =>
    if current = c then scan_literal literal_text return_type input else (.parse_error, [])
  | _ :: _, _, [] => (.parse_error, [])

def isWhitespace (current : UInt8) : Bool :=
  current = 0x20 || current = 0x09 || current = 0x0A || current = 0x0D

/-- `none` is an invalid mark. -/
def skip_bom : Bytes → Option Bytes
  | 0xEF :: 0xBB :: 0xBF :: input => some input
  | 0xEF :: _ => none
  | input => some input

/-- The `switch (current)` of `scan`. What follows an error or the end of the input is not
read. -/
def scan_current (strtod : Bytes → UInt64) (current : UInt8) (input : Bytes) : Token × Bytes :=
  match current with
  | 0x5B => (.begin_array, input)
  | 0x5D => (.end_array, input)
  | 0x7B => (.begin_object, input)
  | 0x7D => (.end_object, input)
  | 0x3A => (.name_separator, input)
  | 0x2C => (.value_separator, input)
  | 0x74 => scan_literal (str "rue") .literal_true input
  | 0x66 => scan_literal (str "alse") .literal_false input
  | 0x6E => scan_literal (str "ull") .literal_null input
  | 0x22 =>
    match scan_string (input.length + 1) [] input with
    | some (token_buffer, input) => (.value_string token_buffer, input)
    | none => (.parse_error, [])
  | 0x00 => (.end_of_input, [])
  | _ => if current = 0x2D ∨ isDigit current then scan_number strtod current input
    else (.parse_error, [])

def scan (strtod : Bytes → UInt64) (input : Bytes) : Token × Bytes :=
  match input.dropWhile isWhitespace with
  | [] => (.end_of_input, [])
  | current :: input => scan_current strtod current input

/-- All tokens, up to the first that ends every use of the lexer. -/
def tokens (strtod : Bytes → UInt64) : Nat → Bytes → List Token
  | 0, _ => []
  | turns + 1, input =>
    match scan strtod input with
    | (.parse_error, _) => [.parse_error]
    | (.end_of_input, _) => [.end_of_input]
    | (token, input) => token :: tokens strtod turns input

end LoginServer.Nlohmann
