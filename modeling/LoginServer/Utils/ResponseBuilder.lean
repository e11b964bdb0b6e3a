import LoginServer.Utils.Json

/-!
# `ResponseBuilder`
-/

namespace LoginServer

structure ResponseBuilder where
  header : List (Bytes × Json) := []
  body : List (Bytes × Json) := []

namespace ResponseBuilder

def setHeader (b : ResponseBuilder) (key : String) (value : Json) : ResponseBuilder :=
  { b with header := Json.setMember b.header (str key) value }

def setBody (b : ResponseBuilder) (key : String) (value : Json) : ResponseBuilder :=
  { b with body := Json.setMember b.body (str key) value }

def build (b : ResponseBuilder) : Json :=
  .object [(str "header", .object b.header), (str "body", .object b.body)]

end ResponseBuilder

/-- The statuses of a response. -/
theorem success_ne_error : str "success" ≠ str "error" := by
  rw [ne_eq, str_inj]
  decide

/-- `header.hash` of a response. -/
def headerHash (message : Json) : Option Json := (message.member (str "header")).find? (str "hash")

theorem headerHash_build (b : ResponseBuilder) :
    headerHash b.build = b.header.lookup (str "hash") := by
  have hkey : (str "header" == str "header") = true := by decide
  simp only [headerHash, Json.member, Json.find?, ResponseBuilder.build, List.lookup_cons, hkey,
    Option.getD_some]

theorem lookup_setHeader (b : ResponseBuilder) (key key' : String) (value : Json) :
    (b.setHeader key value).header.lookup (str key') =
      if key' = key then some value else b.header.lookup (str key') := by
  rw [ResponseBuilder.setHeader, Json.lookup_setMember]
  simp only [str_inj]

@[simp] theorem header_setBody (b : ResponseBuilder) (key : String) (value : Json) :
    (b.setBody key value).header = b.header :=
  rfl

theorem lookup_setBody (b : ResponseBuilder) (key key' : String) (value : Json) :
    (b.setBody key value).body.lookup (str key') =
      if key' = key then some value else b.body.lookup (str key') := by
  rw [ResponseBuilder.setBody, Json.lookup_setMember]
  simp only [str_inj]

@[simp] theorem body_setHeader (b : ResponseBuilder) (key : String) (value : Json) :
    (b.setHeader key value).body = b.body :=
  rfl

/-- What an error response is made from: an object with an object `header` whose `message`
is a text, and an object `body` that carries no error code of its own. -/
structure IsErrorMessage (message : Json) : Prop where
  parts : ∃ header body code,
    message = .object [(str "header", .object header), (str "body", .object body)] ∧
      header.lookup (str "message") = some (.string code) ∧
      body.lookup (str "errorCode") = none

theorem isErrorMessage_build {b : ResponseBuilder} {code : Bytes}
    (hmessage : b.header.lookup (str "message") = some (.string code))
    (hcode : b.body.lookup (str "errorCode") = none) : IsErrorMessage b.build :=
  ⟨b.header, b.body, code, rfl, hmessage, hcode⟩

end LoginServer
