import LoginServer.Nlohmann.Parser

/-!
# The grammar of JSON

What a JSON text is and which document it denotes, without regard to how it is read. A text
is a sequence of lexemes with blanks between them (`Lexes`), and their tokens are a phrase of
the grammar (`Value`). An object keeps the last of several members with one key, and an
integer that neither 64-bit type holds is a float.
-/

namespace LoginServer.Nlohmann

/-! ## Lexemes -/

/-- Four hexadecimal digits and their value. -/
def CodeUnit (digits : Bytes) (n : Nat) : Prop :=
  ∃ a b c d w x y z, digits = [a, b, c, d] ∧ hexDigit a = some w ∧ hexDigit b = some x ∧
    hexDigit c = some y ∧ hexDigit d = some z ∧ n = w * 4096 + x * 256 + y * 16 + z

/-- The letters after a backslash and the bytes that they stand for. -/
def escapes : List (UInt8 × UInt8) :=
  [(0x22, 0x22), (0x5C, 0x5C), (0x2F, 0x2F), (0x62, 0x08), (0x66, 0x0C), (0x6E, 0x0A),
    (0x72, 0x0D), (0x74, 0x09)]

/-- A character between two quotes, and the bytes it stands for. -/
inductive Character : Bytes → Bytes → Prop where
  | unescaped {c : Char} (hc : 0x20 ≤ c.toNat ∧ c.toNat ≠ 0x22 ∧ c.toNat ≠ 0x5C) :
    Character (String.utf8EncodeChar c) (String.utf8EncodeChar c)
  | escaped {letter b : UInt8} (h : (letter, b) ∈ escapes) : Character [0x5C, letter] [b]
  | codepoint {c : Char} {digits : Bytes} (h : CodeUnit digits c.toNat) :
    Character (0x5C :: 0x75 :: digits) (String.utf8EncodeChar c)
  | surrogates {c : Char} {high low : Bytes} {n m : Nat} (hhigh : CodeUnit high n)
    (hlow : CodeUnit low m) (hn : 0xD800 ≤ n ∧ n ≤ 0xDBFF) (hm : 0xDC00 ≤ m ∧ m ≤ 0xDFFF)
    (hc : c.toNat = 0x10000 + (n - 0xD800) * 0x400 + (m - 0xDC00)) :
    Character (0x5C :: 0x75 :: (high ++ 0x5C :: 0x75 :: low)) (String.utf8EncodeChar c)

/-- What stands between two quotes, and the text it stands for. -/
inductive Characters : Bytes → Bytes → Prop where
  | nil : Characters [] []
  | cons {raw text raw' text' : Bytes} (h : Character raw text) (h' : Characters raw' text') :
    Characters (raw ++ raw') (text ++ text')

def Digits (digits : Bytes) : Prop := digits ≠ [] ∧ ∀ d ∈ digits, isDigit d

/-- Without leading zeros. -/
def Integer (digits : Bytes) : Prop := Digits digits ∧ (digits.head? = some 0x30 → digits = [0x30])

inductive Fraction : Bytes → Prop where
  | absent : Fraction []
  | present {digits : Bytes} (h : Digits digits) : Fraction (0x2E :: digits)

inductive Exponent : Bytes → Prop where
  | absent : Exponent []
  | present {mark : UInt8} {sign digits : Bytes} (hmark : mark = 0x65 ∨ mark = 0x45)
    (hsign : sign = [] ∨ sign = [0x2B] ∨ sign = [0x2D]) (h : Digits digits) :
    Exponent (mark :: (sign ++ digits))

inductive Lexeme (strtod : Bytes → UInt64) : Token → Bytes → Prop where
  | begin_array : Lexeme strtod .begin_array [0x5B]
  | end_array : Lexeme strtod .end_array [0x5D]
  | begin_object : Lexeme strtod .begin_object [0x7B]
  | end_object : Lexeme strtod .end_object [0x7D]
  | name_separator : Lexeme strtod .name_separator [0x3A]
  | value_separator : Lexeme strtod .value_separator [0x2C]
  | literal_true : Lexeme strtod .literal_true (str "true")
  | literal_false : Lexeme strtod .literal_false (str "false")
  | literal_null : Lexeme strtod .literal_null (str "null")
  | value_string {raw text : Bytes} (h : Characters raw text) :
    Lexeme strtod (.value_string text) (0x22 :: (raw ++ [0x22]))
  | value_unsigned {digits : Bytes} (h : Integer digits) (hfits : digitsValue digits < 2 ^ 64) :
    Lexeme strtod (.value_unsigned (digitsValue digits)) digits
  | value_integer {digits : Bytes} (h : Integer digits) (hfits : digitsValue digits ≤ 2 ^ 63) :
    Lexeme strtod (.value_integer (-digitsValue digits)) (0x2D :: digits)
  | value_float {minus digits fraction exponent : Bytes} (hminus : minus = [] ∨ minus = [0x2D])
    (h : Integer digits) (hfraction : Fraction fraction) (hexponent : Exponent exponent)
    (hfloat : fraction ≠ [] ∨ exponent ≠ [] ∨ minus = [] ∧ 2 ^ 64 ≤ digitsValue digits ∨
      minus = [0x2D] ∧ 2 ^ 63 < digitsValue digits) :
    Lexeme strtod (.value_float (strtod (minus ++ (digits ++ (fraction ++ exponent)))))
      (minus ++ (digits ++ (fraction ++ exponent)))

/-- The lexemes of a text, with blanks around them. -/
inductive Lexes (strtod : Bytes → UInt64) : Bytes → List Token → Prop where
  | nil {blanks : Bytes} (hblanks : ∀ b ∈ blanks, isWhitespace b) : Lexes strtod blanks []
  | cons {blanks lexeme text : Bytes} {token : Token} {tokens : List Token}
    (hblanks : ∀ b ∈ blanks, isWhitespace b) (hlexeme : Lexeme strtod token lexeme)
    (h : Lexes strtod text tokens) : Lexes strtod (blanks ++ (lexeme ++ text)) (token :: tokens)

/-! ## Phrases -/

mutual

/-- The tokens of a value. -/
inductive Value : List Token → Json → Prop where
  | literal_true : Value [.literal_true] (.boolean true)
  | literal_false : Value [.literal_false] (.boolean false)
  | literal_null : Value [.literal_null] .null
  | value_string (s : Bytes) : Value [.value_string s] (.string s)
  | value_unsigned (n : Nat) : Value [.value_unsigned n] (.number n)
  | value_integer (n : Int) : Value [.value_integer n] (.number n)
  | value_float {bits : UInt64} (h : isfinite bits) :
    Value [.value_float bits] (.number_float bits)
  | emptyArray : Value [.begin_array, .end_array] (.array [])
  | array {tokens : List Token} {items : List Json} (h : Elements tokens items) :
    Value (.begin_array :: (tokens ++ [.end_array])) (.array items)
  | emptyObject : Value [.begin_object, .end_object] (.object [])
  | object {tokens : List Token} {members : List (Bytes × Json)} (h : Members tokens members) :
    Value (.begin_object :: (tokens ++ [.end_object])) (.object members)

/-- The elements of an array, one at least. -/
inductive Elements : List Token → List Json → Prop where
  | one {tokens : List Token} {value : Json} (h : Value tokens value) : Elements tokens [value]
  | more {tokens tokens' : List Token} {items : List Json} {value : Json}
    (h : Elements tokens items) (hvalue : Value tokens' value) :
    Elements (tokens ++ .value_separator :: tokens') (items ++ [value])

/-- The members of an object, one at least, and the map they denote. -/
inductive Members : List Token → List (Bytes × Json) → Prop where
  | one {tokens : List Token} (key : Bytes) {value : Json} (h : Value tokens value) :
    Members (.value_string key :: .name_separator :: tokens) [(key, value)]
  | more {tokens tokens' : List Token} {members : List (Bytes × Json)} (key : Bytes) {value : Json}
    (h : Members tokens members) (hvalue : Value tokens' value) :
    Members (tokens ++ .value_separator :: .value_string key :: .name_separator :: tokens')
      (Json.setMember members key value)

end

/-- The text denotes the document. -/
def Denotes (strtod : Bytes → UInt64) (text : Bytes) (j : Json) : Prop :=
  ∃ tokens, Lexes strtod text tokens ∧ Value tokens j

end LoginServer.Nlohmann
