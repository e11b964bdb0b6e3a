import LoginServer.Nlohmann.Parser
import LoginServer.Relations.SortedMap

/-!
# The serializer of `nlohmann::json`

`dump()` with its default arguments: no indentation, no escapes for other than ASCII, and a
`type_error` on a text that is not UTF-8. `to_chars`, which writes a finite number that is no
integer, is a parameter. An object is a `std::map`, so that its members are written in the
order of their keys.
-/

namespace LoginServer.Nlohmann

/-! ## Strings -/

def UTF8_ACCEPT : Nat := 0

def UTF8_REJECT : Nat := 1

/-- The class of each byte, and from 256 on the next state for each state and class. -/
def utf8d : List Nat :=
  [0, 0, 0, 0, 0, 0, 0, 0, 0, 0, 0, 0, 0, 0, 0, 0, 0, 0, 0, 0, 0, 0, 0, 0, 0, 0, 0, 0, 0, 0, 0, 0,
   0, 0, 0, 0, 0, 0, 0, 0, 0, 0, 0, 0, 0, 0, 0, 0, 0, 0, 0, 0, 0, 0, 0, 0, 0, 0, 0, 0, 0, 0, 0, 0,
   0, 0, 0, 0, 0, 0, 0, 0, 0, 0, 0, 0, 0, 0, 0, 0, 0, 0, 0, 0, 0, 0, 0, 0, 0, 0, 0, 0, 0, 0, 0, 0,
   0, 0, 0, 0, 0, 0, 0, 0, 0, 0, 0, 0, 0, 0, 0, 0, 0, 0, 0, 0, 0, 0, 0, 0, 0, 0, 0, 0, 0, 0, 0, 0,
   1, 1, 1, 1, 1, 1, 1, 1, 1, 1, 1, 1, 1, 1, 1, 1, 9, 9, 9, 9, 9, 9, 9, 9, 9, 9, 9, 9, 9, 9, 9, 9,
   7, 7, 7, 7, 7, 7, 7, 7, 7, 7, 7, 7, 7, 7, 7, 7, 7, 7, 7, 7, 7, 7, 7, 7, 7, 7, 7, 7, 7, 7, 7, 7,
   8, 8, 2, 2, 2, 2, 2, 2, 2, 2, 2, 2, 2, 2, 2, 2, 2, 2, 2, 2, 2, 2, 2, 2, 2, 2, 2, 2, 2, 2, 2, 2,
   10, 3, 3, 3, 3, 3, 3, 3, 3, 3, 3, 3, 3, 4, 3, 3,
   11, 6, 6, 6, 5, 8, 8, 8, 8, 8, 8, 8, 8, 8, 8, 8,
   0, 1, 2, 3, 5, 8, 7, 1, 1, 1, 4, 6, 1, 1, 1, 1,
   1, 1, 1, 1, 1, 1, 1, 1, 1, 1, 1, 1, 1, 1, 1, 1, 1, 0, 1, 1, 1, 1, 1, 0, 1, 0, 1, 1, 1, 1, 1, 1,
   1, 2, 1, 1, 1, 1, 1, 2, 1, 2, 1, 1, 1, 1, 1, 1, 1, 1, 1, 1, 1, 1, 1, 2, 1, 1, 1, 1, 1, 1, 1, 1,
   1, 2, 1, 1, 1, 1, 1, 1, 1, 2, 1, 1, 1, 1, 1, 1, 1, 1, 1, 1, 1, 1, 1, 3, 1, 3, 1, 1, 1, 1, 1, 1,
   1, 3, 1, 1, 1, 1, 1, 3, 1, 3, 1, 1, 1, 1, 1, 1, 1, 3, 1, 1, 1, 1, 1, 1, 1, 1, 1, 1, 1, 1, 1, 1]

/-- The new state and code point. -/
def decode (state codep : Nat) (byte : UInt8) : Nat × Nat :=
  let type := utf8d.getD byte.toNat 0
  let codep :=
    if state ≠ UTF8_ACCEPT then byte.toNat &&& 0x3F ||| codep <<< 6
    else 0xFF >>> type &&& byte.toNat
  (utf8d.getD (256 + state * 16 + type) 0, codep)

def hexChar (n : Nat) : UInt8 := .ofNat (if n < 10 then 0x30 + n else 0x57 + n)

/-- `"\\u%04x"` -/
def unicodeEscape (codepoint : Nat) : Bytes :=
  [0x5C, 0x75, hexChar (codepoint / 4096 % 16), hexChar (codepoint / 256 % 16),
    hexChar (codepoint / 16 % 16), hexChar (codepoint % 16)]

/-- What is put into the buffer for an accepted code point, the last byte of which is `byte`. -/
def escape (codepoint : Nat) (byte : UInt8) : Bytes :=
  match codepoint with
  | 0x08 => [0x5C, 0x62]
  | 0x09 => [0x5C, 0x74]
  | 0x0A => [0x5C, 0x6E]
  | 0x0C => [0x5C, 0x66]
  | 0x0D => [0x5C, 0x72]
  | 0x22 => [0x5C, 0x22]
  | 0x5C => [0x5C, 0x5C]
  | _ => if codepoint ≤ 0x1F then unicodeEscape codepoint else [byte]

/-- The loop of `dump_escaped`: `o` has been written, and `bytes` of the string buffer are in
use. -/
structure Escaper where
  state : Nat := UTF8_ACCEPT
  codepoint : Nat := 0
  o : Bytes := []
  string_buffer : Bytes := []

/-- One turn; `none` when it throws. -/
def Escaper.step (e : Escaper) (byte : UInt8) : Option Escaper :=
  let (state, codepoint) := decode e.state e.codepoint byte
  if state = UTF8_ACCEPT then
    let string_buffer := e.string_buffer ++ escape codepoint byte
    -- "there must be 13 bytes left"
    if 512 - string_buffer.length < 13 then some ⟨state, codepoint, e.o ++ string_buffer, []⟩
    else some ⟨state, codepoint, e.o, string_buffer⟩
  else if state = UTF8_REJECT then none
  else some ⟨state, codepoint, e.o, e.string_buffer ++ [byte]⟩

def dump_escaped (s : Bytes) : Option Bytes := do
  let e ← s.foldlM Escaper.step {}
  if e.state = UTF8_ACCEPT then return e.o ++ e.string_buffer else none

/-! ## Numbers -/

def count_digits (x n_digits : Nat) : Nat :=
  if x < 10 then n_digits
  else if x < 100 then n_digits + 1
  else if x < 1000 then n_digits + 2
  else if x < 10000 then n_digits + 3
  else count_digits (x / 10000) (n_digits + 4)

def digits_to_99 (digits_index : Nat) : UInt8 × UInt8 :=
  (.ofNat (0x30 + digits_index / 10), .ofNat (0x30 + digits_index % 10))

/-- "jump to the end to generate the string from backward" -/
def fillDigits (number_buffer : Bytes) (buffer_ptr abs_value : Nat) : Bytes :=
  if abs_value ≥ 100 then
    let digits := digits_to_99 (abs_value % 100)
    fillDigits ((number_buffer.set (buffer_ptr - 1) digits.2).set (buffer_ptr - 2) digits.1)
      (buffer_ptr - 2) (abs_value / 100)
  else if abs_value ≥ 10 then
    let digits := digits_to_99 abs_value
    (number_buffer.set (buffer_ptr - 1) digits.2).set (buffer_ptr - 2) digits.1
  else number_buffer.set (buffer_ptr - 1) (.ofNat (0x30 + abs_value))

def remove_sign (x : Int) : Nat := (-(x + 1)).toNat + 1

/-- `number_buffer` is as the number before has left it. -/
def dump_integer (number_buffer : Bytes) (x : Int) : Bytes :=
  if x = 0 then [0x30]
  else if x < 0 then
    let abs_value := remove_sign x
    let n_chars := 1 + count_digits abs_value 1
    (fillDigits (number_buffer.set 0 0x2D) n_chars abs_value).take n_chars
  else
    let abs_value := x.toNat
    let n_chars := count_digits abs_value 1
    (fillDigits number_buffer n_chars abs_value).take n_chars

def dump_float (to_chars : UInt64 → Bytes) (x : UInt64) : Bytes :=
  if isfinite x then to_chars x else str "null"

/-! ## Documents -/

/-- With a comma between them. -/
def joined : List Bytes → Bytes
  | [] => []
  | [text] => text
  | text :: texts => text ++ 0x2C :: joined texts

mutual

def dump (to_chars : UInt64 → Bytes) : Json → Option Bytes
  | .object members => do
    let entries ← dumpMembers to_chars members
    return 0x7B :: (joined ((Relations.sortByKey entries).map Prod.snd) ++ [0x7D])
  | .array items => do
    let texts ← dumpItems to_chars items
    return 0x5B :: (joined texts ++ [0x5D])
  | .string s => do
    let s ← dump_escaped s
    return 0x22 :: (s ++ [0x22])
  | .boolean b => some (if b then str "true" else str "false")
  | .number n => some (dump_integer (List.replicate 64 0) n)
  | .number_float bits => some (dump_float to_chars bits)
  | .null => some (str "null")

def dumpItems (to_chars : UInt64 → Bytes) : List Json → Option (List Bytes)
  | [] => some []
  | item :: items => do
    let text ← dump to_chars item
    let texts ← dumpItems to_chars items
    return text :: texts

/-- Each member with its key. -/
def dumpMembers (to_chars : UInt64 → Bytes) :
    List (Bytes × Json) → Option (List (Bytes × Bytes))
  | [] => some []
  | (key, value) :: members => do
    let escaped ← dump_escaped key
    let text ← dump to_chars value
    let entries ← dumpMembers to_chars members
    return (key, 0x22 :: (escaped ++ 0x22 :: 0x3A :: text)) :: entries

end

end LoginServer.Nlohmann
