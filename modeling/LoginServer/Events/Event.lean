import LoginServer.Data.DataStructs

/-!
# Events
-/

namespace LoginServer

inductive EventType where
  | PING_CLIENT
  | AUTH_CLIENT
  | DISCONNECT_CLIENT
  | GET_CHARACTERS_LIST
  | CREATE_CHARACTER
  | DELETE_CHARACTER
  | REGISTER_ACCOUNT
  | GET_CHARACTER_CREATION_OPTIONS
deriving DecidableEq

/-- The alternatives of the variant that the server puts into an event. -/
inductive EventData where
  | clientData (data : ClientDataStruct)
  | registration (data : RegistrationDataStruct)
deriving DecidableEq

structure Event where
  type : EventType
  clientID : Int
  eventData : EventData
  currentClientSocket : Option Socket
  /-- Set by `setTimestamps`. -/
  timestamps : Option TimestampStruct := none
deriving DecidableEq

end LoginServer
