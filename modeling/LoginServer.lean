import LoginServer.Network.Reassembly
import LoginServer.Network.Backlog
import LoginServer.Network.WriteOrder
import LoginServer.Network.ClientVersion
import LoginServer.Network.Dispatch
import LoginServer.Data.SessionHistory
import LoginServer.Server.Sessions
import LoginServer.Server.SessionActivity
import LoginServer.Server.Authentication
import LoginServer.Server.LoginThrottle
import LoginServer.Server.Ownership
import LoginServer.Server.Registration
import LoginServer.Server.CharacterLimits
import LoginServer.Server.CharacterCreation
import LoginServer.Server.CharacterAnswers
import LoginServer.Server.Answers
import LoginServer.Server.SessionCleanup
import LoginServer.Server.Disconnects
import LoginServer.Server.EventDispatch
import LoginServer.Server.CleanupCadence
import LoginServer.Network.Accounting
import LoginServer.Network.Oversize
import LoginServer.Utils.DatabasePool
import LoginServer.Network.VersionText
import LoginServer.Network.ErrorFrames
import LoginServer.Network.Malformed
import LoginServer.Services.CharacterName
import LoginServer.Services.RegistrationRules
import LoginServer.Server.RequestIntegers
import LoginServer.Utils.ConfigLayers
import LoginServer.Server.FailedLogins
import LoginServer.Migrations.GoldConservation
import LoginServer.DbScript.PlayerRows
import LoginServer.Server.CharacterRuns
import LoginServer.Migrations.InventoryUnique
import LoginServer.Events.EventOrder
import LoginServer.Utils.VersionStats
import LoginServer.Network.BufferBound
import LoginServer.Nlohmann.Integers
import LoginServer.Nlohmann.RoundTrip
import LoginServer.Server.Readability
import LoginServer.Server.Deadlock
import LoginServer.Database.Retained
import LoginServer.Server.CreatedCharacters
import LoginServer.Server.Credentials
