import Mathlib.Algebra.Field.Rat
import LoginServer.Utils.Extractors
import LoginServer.Utils.Stoi

/-!
# The fields of a request

The extractors by field: the place that each of the twenty fields has in a document, and
what it holds when that place has the checked type.
-/

namespace LoginServer

open JSONParser

inductive IntegerField where
  | clientId
  | characterId
  | characterLevel
  | characterExp
  | characterCurrentHealth
  | characterCurrentMana

namespace IntegerField

def section_ : IntegerField → String
  | clientId => "header"
  | _ => "body"

def key : IntegerField → String
  | clientId => "clientId"
  | characterId => "characterId"
  | characterLevel => "characterLevel"
  | characterExp => "characterExp"
  | characterCurrentHealth => "characterCurrentHealth"
  | characterCurrentMana => "characterCurrentMana"

/-- The member of the parsed record. -/
def parsed (jsonData : Json) : IntegerField → Int
  | clientId => (parseClientData jsonData).clientId
  | characterId => (parseCharacterData jsonData).characterId
  | characterLevel => (parseCharacterData jsonData).characterLevel
  | characterExp => (parseCharacterData jsonData).characterExperiencePoints
  | characterCurrentHealth => (parseCharacterData jsonData).characterCurrentHealth
  | characterCurrentMana => (parseCharacterData jsonData).characterCurrentMana

/-- What the document has in the place of the field. -/
def inDocument (field : IntegerField) (jsonData : Json) : Option Json :=
  field? jsonData field.section_ field.key

theorem parsed_eq (jsonData : Json) (field : IntegerField) :
    field.parsed jsonData = ((field.inDocument jsonData).bind Json.int?).getD 0 := by
  cases field <;> rfl

theorem parsed_of_number {jsonData : Json} {field : IntegerField} {n : Int}
    (h : field.inDocument jsonData = some (.number n)) :
    field.parsed jsonData = n.bmod (2 ^ 32) := by
  rw [parsed_eq, h]
  rfl

theorem parsed_of_not_number {jsonData : Json} {field : IntegerField}
    (h : ∀ n, field.inDocument jsonData ≠ some (.number n)) : field.parsed jsonData = 0 := by
  rw [parsed_eq]
  cases hj : field.inDocument jsonData with
  | none => rfl
  | some j =>
    cases j with
    | number n => exact absurd hj (h n)
    | _ => rfl

end IntegerField

inductive StringField where
  | eventType
  | hash
  | status
  | message
  | login
  | password
  | clientVersion
  | characterName
  | characterClass
  | characterRace
  | characterGender

namespace StringField

def section_ : StringField → String
  | eventType | hash | status | message => "header"
  | _ => "body"

def key : StringField → String
  | eventType => "eventType"
  | hash => "hash"
  | status => "status"
  | message => "message"
  | login => "login"
  | password => "password"
  | clientVersion => "clientVersion"
  | characterName => "characterName"
  | characterClass => "characterClass"
  | characterRace => "characterRace"
  | characterGender => "characterGender"

/-- The member of the parsed record. -/
def parsed (jsonData : Json) : StringField → Bytes
  | eventType => parseEventType jsonData
  | hash => (parseClientData jsonData).hash
  | status => (parseMessage jsonData).status
  | message => (parseMessage jsonData).message
  | login => (parseClientData jsonData).login
  | password => (parseClientData jsonData).password
  | clientVersion => (parseClientData jsonData).clientVersion
  | characterName => (parseCharacterData jsonData).characterName
  | characterClass => (parseCharacterData jsonData).characterClass
  | characterRace => (parseCharacterData jsonData).characterRace
  | characterGender => (parseCharacterData jsonData).characterGender

/-- What the document has in the place of the field. -/
def inDocument (field : StringField) (jsonData : Json) : Option Json :=
  field? jsonData field.section_ field.key

theorem parsed_eq (jsonData : Json) (field : StringField) :
    field.parsed jsonData = ((field.inDocument jsonData).bind Json.string?).getD [] := by
  cases field <;> rfl

theorem parsed_of_string {jsonData : Json} {field : StringField} {s : Bytes}
    (h : field.inDocument jsonData = some (.string s)) : field.parsed jsonData = s := by
  rw [parsed_eq, h]
  rfl

theorem parsed_of_not_string {jsonData : Json} {field : StringField}
    (h : ∀ s, field.inDocument jsonData ≠ some (.string s)) : field.parsed jsonData = [] := by
  rw [parsed_eq]
  cases hj : field.inDocument jsonData with
  | none => rfl
  | some j =>
    cases j with
    | string s => exact absurd hj (h s)
    | _ => rfl

end StringField

inductive PositionField where
  | characterPosX
  | characterPosY
  | characterPosZ

namespace PositionField

def key : PositionField → String
  | characterPosX => "characterPosX"
  | characterPosY => "characterPosY"
  | characterPosZ => "characterPosZ"

/-- The member of the parsed record. -/
def parsed (jsonData : Json) : PositionField → Float32.Model
  | characterPosX => (parsePositionData jsonData).positionX
  | characterPosY => (parsePositionData jsonData).positionY
  | characterPosZ => (parsePositionData jsonData).positionZ

/-- What the document has in the place of the field. -/
def inDocument (field : PositionField) (jsonData : Json) : Option Json :=
  field? jsonData "body" field.key

theorem parsed_eq (jsonData : Json) (field : PositionField) :
    field.parsed jsonData =
      match field.inDocument jsonData with
      | some (.number n) => .ofInt n
      | some (.number_float bits) => Json.toFloat bits
      | _ => .ofInt 0 := by
  cases field <;> rfl

theorem parsed_of_number {jsonData : Json} {field : PositionField} {n : Int}
    (h : field.inDocument jsonData = some (.number n)) : field.parsed jsonData = .ofInt n := by
  rw [parsed_eq, h]

theorem parsed_of_number_float {jsonData : Json} {field : PositionField} {bits : UInt64}
    (h : field.inDocument jsonData = some (.number_float bits)) :
    field.parsed jsonData = Json.toFloat bits := by
  rw [parsed_eq, h]

theorem parsed_of_not_number {jsonData : Json} {field : PositionField}
    (hinteger : ∀ n, field.inDocument jsonData ≠ some (.number n))
    (hfloat : ∀ bits, field.inDocument jsonData ≠ some (.number_float bits)) :
    field.parsed jsonData = .ofInt 0 := by
  rw [parsed_eq]
  cases hj : field.inDocument jsonData with
  | none => rfl
  | some j =>
    cases j with
    | number n => exact absurd hj (hinteger n)
    | number_float bits => exact absurd hj (hfloat bits)
    | _ => rfl

end PositionField

/-- The number that a finite `float` is. -/
def floatValue (f : Float32.Model) : Option ℚ :=
  match f.unpack with
  | .finite .positive mantissa exponent _ => some (mantissa * 2 ^ exponent)
  | .finite .negative mantissa exponent _ => some (-(mantissa * 2 ^ exponent))
  | .zero _ => some 0
  | _ => none

end LoginServer
