import LoginServer.Utils.Bytes

/-!
# JSON documents

The part of `nlohmann::json` that the server uses: the shape of a document, the
queries that the extractors guard their reads with, and member assignment as the
response builder does it. Members are kept in the order they were written; neither
`contains` nor `operator[]` can observe it.
-/

namespace LoginServer

inductive Json where
  | null
  | boolean (b : Bool)
  /-- `number_integer` and `number_unsigned`. -/
  | number (n : Int)
  /-- `number_float`, by its binary64 pattern. -/
  | number_float (bits : UInt64)
  | string (s : Bytes)
  | array (items : List Json)
  | object (members : List (Bytes × Json))

namespace Json

/-- The member under `key`, if the document is an object that has one. -/
def find? (j : Json) (key : Bytes) : Option Json :=
  match j with
  | .object members => members.lookup key
  | _ => none

def contains (j : Json) (key : Bytes) : Bool := (j.find? key).isSome

def is_object : Json → Bool
  | .object _ => true
  | _ => false

def is_string : Json → Bool
  | .string _ => true
  | _ => false

/-- `operator[]` on a constant document, which the server only calls on a member
that is there. -/
def member (j : Json) (key : Bytes) : Json := (j.find? key).getD .null

/-- `is_number_integer()` with `get<int>()`: a `static_cast` of the 64-bit value. -/
def int? : Json → Option Int
  | .number n => some (n.bmod (2 ^ 32))
  | _ => none

/-- `is_string()` with `get<std::string>()`. -/
def string? : Json → Option Bytes
  | .string s => some s
  | _ => none

/-- A binary64 pattern truncated to an integer. -/
def truncate (bits : UInt64) : Int :=
  let exponent := (bits.toNat >>> 52) % 2 ^ 11
  let mantissa := 2 ^ 52 + bits.toNat % 2 ^ 52
  let magnitude : Nat :=
    if exponent ≥ 1075 then mantissa <<< (exponent - 1075) else mantissa >>> (1075 - exponent)
  if bits.toNat ≥ 2 ^ 63 then -(magnitude : Int) else magnitude

/-- `get<long long>()`, which throws on anything but a number or a boolean. -/
def longLong? : Json → Option Int
  | .number n => some (n.bmod (2 ^ 64))
  | .number_float bits => some ((truncate bits).bmod (2 ^ 64))
  | .boolean b => some (if b then 1 else 0)
  | _ => none

def setMember (members : List (Bytes × Json)) (key : Bytes) (value : Json) :
    List (Bytes × Json) :=
  match members with
  | [] => [(key, value)]
  | (k, v) :: rest => if k = key then (k, value) :: rest else (k, v) :: setMember rest key value

/-- `j[key] = value`; on anything but an object the library starts a new object. -/
def set (j : Json) (key : Bytes) (value : Json) : Json :=
  match j with
  | .object members => .object (setMember members key value)
  | _ => .object [(key, value)]

theorem lookup_setMember (members : List (Bytes × Json)) (key key' : Bytes) (value : Json) :
    (setMember members key value).lookup key' =
      if key' = key then some value else members.lookup key' := by
  induction members with
  | nil =>
    by_cases h : key' = key
    · subst h
      simp [setMember]
    · have hb : (key' == key) = false := beq_false_of_ne h
      simp [setMember, List.lookup_cons, hb, h]
  | cons m rest ih =>
    obtain ⟨k, v⟩ := m
    by_cases hk : k = key
    · subst hk
      by_cases h : key' = k
      · subst h
        simp [setMember]
      · have hb : (key' == k) = false := beq_false_of_ne h
        simp [setMember, List.lookup_cons, hb, h]
    · by_cases h : key' = k
      · subst h
        simp [setMember, hk]
      · have hb : (key' == k) = false := beq_false_of_ne h
        simp only [setMember, hk, if_false, List.lookup_cons, hb, ih]

@[simp] theorem find?_set (j : Json) (key key' : Bytes) (value : Json) (h : j.is_object) :
    (j.set key value).find? key' = if key' = key then some value else j.find? key' := by
  cases j with
  | object members => exact lookup_setMember members key key' value
  | _ => cases h

@[simp] theorem is_object_set (j : Json) (key : Bytes) (value : Json) :
    (j.set key value).is_object = true := by
  cases j <;> rfl

end Json

end LoginServer
