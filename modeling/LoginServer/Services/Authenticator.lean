import LoginServer.Server.Commands

/-!
# `Authenticator::authenticate`
-/

namespace LoginServer

inductive AuthStatus where
  | OK
  | INVALID_CREDENTIALS
  | LOCKED
  | DB_ERROR
  | BANNED
deriving DecidableEq

structure AuthOutcome where
  status : AuthStatus := .INVALID_CREDENTIALS
  userId : Int := 0
  banReason : Bytes := []
  banExpiresAt : Bytes := []
deriving DecidableEq

namespace Authenticator

/-- The triage of an empty `search_user` result. Whatever it throws is logged. -/
def probeUserStatus (login : Bytes) : M AuthStatus :=
  tryCatch
    (withWork do
      let probeRow ← execPrepared (.probeUserStatus login)
      let status := match probeRow with
        | (active, lockedUntil) :: _ =>
          if !active || lockedUntil.isSome then .LOCKED else .INVALID_CREDENTIALS
        | [] => .INVALID_CREDENTIALS
      abortWork
      return status)
    fun _ => return .INVALID_CREDENTIALS

/-- Step 3b, the manual ban; `none` when the user is not banned. -/
def checkActiveBan (userID : Int) : M (Option AuthOutcome) :=
  withWork do
    let banRow ← execPrepared (.checkActiveBan userID)
    abortWork
    match banRow with
    | (reason, expiresAt) :: _ =>
      return some
        { status := .BANNED, userId := 0, banReason := reason, banExpiresAt := expiresAt }
    | [] => return none

/-- Step 4, the session of a fresh token. -/
def createSession (userID : Int) (clientVersion : Bytes) : M Bytes := do
  let uniqueHash ← randomUuid
  withWork do
    execPrepared (.revokeUserSessions userID)
    execPrepared .cleanupExpiredSessions
    execPrepared (.createUserSession userID uniqueHash clientVersion)
    commitWork
    return uniqueHash

/-- From step 3b on: the password was right. -/
def openSession (userID role : Int) (login clientVersion : Bytes) : M AuthOutcome := do
  match ← checkActiveBan userID with
  | some banned => return banned
  | none =>
    let uniqueHash ← createSession userID clientVersion
    storeClientData
      { clientId := userID, login := login, hash := uniqueHash, role := role,
        clientVersion := clientVersion }
    return { status := .OK, userId := userID }

def authenticate (hashPassword : Bytes → Bytes) (login password clientIp clientVersion : Bytes) :
    M AuthOutcome :=
  tryCatch
    (withWork do
      match ← execPrepared (.searchUser login) with
      | [] =>
        let status ← probeUserStatus login
        abortWork
        return { status := status, userId := 0 }
      | row :: _ =>
        let userID ← asInt row.id
        let role := row.role.getD 0
        if row.password ≠ hashPassword password then
          execPrepared (.incrementFailedLogins login)
          commitWork
          return { status := .INVALID_CREDENTIALS, userId := 0 }
        else
          let ipStr := if clientIp.isEmpty then str "127.0.0.1" else clientIp
          execPrepared (.resetFailedLogins userID ipStr clientVersion)
          commitWork
          openSession userID role login clientVersion)
    fun _ => return { status := .DB_ERROR, userId := 0 }

end Authenticator

end LoginServer
