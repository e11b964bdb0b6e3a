import LoginServer.Utils.Bytes

/-!
# The records of `DataStructs.hpp`

The fields that the modelled functions read or write, with their defaults. An `int` is
an integer; the extractors reduce what they read to 32 bits.
-/

namespace LoginServer

structure TimestampStruct where
  serverRecvMs : Int := 0
  serverSendMs : Int := 0
  clientSendMsEcho : Int := 0
  requestId : Bytes := []
deriving DecidableEq

/-- A `float` is its `binary32` value. -/
structure PositionStruct where
  positionX : Float32.Model := .ofInt 0
  positionY : Float32.Model := .ofInt 0
  positionZ : Float32.Model := .ofInt 0
  needDBUpdate : Bool := false
deriving DecidableEq

structure EquipmentPreviewItemStruct where
  slotId : Int := 0
  itemSlug : Bytes := []
deriving DecidableEq

structure CharacterDataStruct where
  characterId : Int := 0
  characterLevel : Int := 0
  characterExperiencePoints : Int := 0
  characterCurrentHealth : Int := 0
  characterCurrentMana : Int := 0
  characterName : Bytes := []
  characterClass : Bytes := []
  characterRace : Bytes := []
  characterGender : Bytes := []
  isOnline : Bool := false
deriving DecidableEq

structure ClientDataStruct where
  clientId : Int := 0
  login : Bytes := []
  password : Bytes := []
  hash : Bytes := []
  role : Int := 0
  clientVersion : Bytes := []
  /-- The `shared_ptr`, null in a default record. -/
  socket : Option Socket := none
  characterData : CharacterDataStruct := {}
  /-- `steady_clock` milliseconds of the last store, update or touch. -/
  lastSeenMs : Int := 0
deriving DecidableEq

structure MessageStruct where
  status : Bytes := []
  message : Bytes := []
deriving DecidableEq

/-- The payload of a REGISTER_ACCOUNT event. -/
structure RegistrationDataStruct where
  login : Bytes := []
  password : Bytes := []
  email : Bytes := []
  registrationIp : Bytes := []
  clientVersion : Bytes := []
  socket : Option Socket := none
deriving DecidableEq

end LoginServer
