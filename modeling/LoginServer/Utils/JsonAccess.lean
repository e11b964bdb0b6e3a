import LoginServer.Utils.Json

/-!
# Reads that throw

`operator[]` and `get` of a constant document, with their failures. Every field is read
behind a chain of tests joined by `&&`, and each test reads the document again: a chain in
the wrong order throws. `readField` is the chain of the extractors.
-/

namespace LoginServer

/-- What ends the block that `processMessage` tries. -/
inductive Thrown where
  | parse_error
  | type_error
  /-- `operator[]` of a constant object without the key, an assertion of the library. -/
  | missing_key
  | system_error

namespace Json

/-- `j[key]` of a constant document. -/
def subscript (j : Json) (key : Bytes) : Except Thrown Json :=
  match j with
  | .object members =>
    match members.lookup key with
    | some v => .ok v
    | none => .error .missing_key
  | _ => .error .type_error

def is_number_integer : Json → Bool
  | .number _ => true
  | _ => false

def is_number_float : Json → Bool
  | .number_float _ => true
  | _ => false

def getString : Json → Except Thrown Bytes
  | .string s => .ok s
  | _ => .error .type_error

/-- `get<int>()`, which takes any number and a boolean. -/
def getInt : Json → Except Thrown Int
  | .number n => .ok (n.bmod (2 ^ 32))
  | .number_float bits => .ok ((truncate bits).bmod (2 ^ 32))
  | .boolean b => .ok (if b then 1 else 0)
  | _ => .error .type_error

def getLongLong (j : Json) : Except Thrown Int :=
  match j.longLong? with
  | some n => .ok n
  | none => .error .type_error

/-- `static_cast<float>` of a `double`, to the nearest and to even in between. -/
def toFloat (bits : UInt64) : Float32.Model :=
  .pack <|
    match (Float.Model.ofBits bits).unpack with
    | .finite sign mantissa exponent _ => .round .binary32 sign mantissa exponent
    | special => special

def getFloat : Json → Except Thrown Float32.Model
  | .number n => .ok (.ofInt n)
  | .number_float bits => .ok (toFloat bits)
  | .boolean b => .ok (.ofInt (if b then 1 else 0))
  | _ => .error .type_error

/-- One guarded assignment of an extractor to a field that holds `initial`. -/
def readField {α : Type} (jsonData : Json) (section_ key : String) (is : Json → Bool)
    (get : Json → Except Thrown α) (initial : α) : Except Thrown α := do
  let guarded ←
    pure (jsonData.contains (str section_)) <&&>
      (return (← jsonData.subscript (str section_)).is_object) <&&>
      (return (← jsonData.subscript (str section_)).contains (str key)) <&&>
      (return is (← (← jsonData.subscript (str section_)).subscript (str key)))
  if guarded then get (← (← jsonData.subscript (str section_)).subscript (str key))
  else return initial

theorem subscript_of_find? {j v : Json} {key : Bytes} (h : j.find? key = some v) :
    j.subscript key = .ok v := by
  cases j with
  | object members =>
    change members.lookup key = some v at h
    rw [subscript, h]
  | _ => cases h

theorem contains_of_find? {j v : Json} {key : Bytes} (h : j.find? key = some v) :
    j.contains key = true := by
  rw [contains, h]
  rfl

theorem contains_of_find?_none {j : Json} {key : Bytes} (h : j.find? key = none) :
    j.contains key = false := by
  rw [contains, h]
  rfl

theorem find?_of_not_object {j : Json} (h : j.is_object = false) (key : Bytes) :
    j.find? key = none := by
  cases j with
  | object => cases h
  | _ => rfl

@[simp] theorem andM_ok (a : Bool) (rest : Except Thrown Bool) :
    (Except.ok a <&&> rest) = if a then rest else .ok false := by
  cases a <;> rfl

/-- The guarded read never throws of itself: it is `get` on a member that passes the test,
and the initial value everywhere else. -/
theorem readField_eq {α : Type} (jsonData : Json) (section_ key : String) (is : Json → Bool)
    (get : Json → Except Thrown α) (initial : α) :
    readField jsonData section_ key is get initial =
      match (jsonData.find? (str section_)).bind (find? · (str key)) with
      | some v => if is v then get v else .ok initial
      | none => .ok initial := by
  simp only [readField, pure, Except.pure, bind, Except.bind, andM_ok]
  cases hsection : jsonData.find? (str section_) with
  | none => simp [contains_of_find?_none hsection]
  | some section' =>
    simp only [contains_of_find? hsection, subscript_of_find? hsection, if_true,
      Option.bind_some]
    cases hobject : section'.is_object with
    | false => simp [find?_of_not_object hobject]
    | true =>
      cases hkey : section'.find? (str key) with
      | none => simp [contains_of_find?_none hkey]
      | some v =>
        simp only [contains_of_find? hkey, subscript_of_find? hkey, andM_ok, if_true]

end Json

end LoginServer
