import LoginServer.Server.Commands

/-!
# `AccountManager::registerAccount`
-/

namespace LoginServer

inductive AccountRegisterResult where
  | OK
  | ERR_LOGIN_INVALID
  | ERR_LOGIN_TAKEN
  | ERR_PASSWORD_SHORT
  | ERR_PASSWORD_LONG
  | ERR_EMAIL_INVALID
  | ERR_DB
deriving DecidableEq

namespace AccountManager

def hexDigit (n : Nat) : UInt8 := if n < 10 then (48 + n).toUInt8 else (87 + n).toUInt8

/-- The digest in hexadecimal, two digits a byte; `sha256` stands for the calls of OpenSSL. -/
def hashPassword (sha256 : Bytes → Bytes) (plaintext : Bytes) : Bytes :=
  (sha256 plaintext).flatMap fun b => [hexDigit (b.toNat / 16), hexDigit (b.toNat % 16)]

theorem hexDigit_ne_zero : ∀ n < 16, hexDigit n ≠ 0 := by decide

theorem length_hashPassword (sha256 : Bytes → Bytes) (plaintext : Bytes) :
    (hashPassword sha256 plaintext).length = (sha256 plaintext).length * 2 := by
  simp [hashPassword]

theorem zero_notMem_hashPassword (sha256 : Bytes → Bytes) (plaintext : Bytes) :
    0 ∉ hashPassword sha256 plaintext := by
  intro hmem
  obtain ⟨b, -, hb⟩ := List.mem_flatMap.mp hmem
  have hb : 0 = hexDigit (b.toNat / 16) ∨ 0 = hexDigit (b.toNat % 16) := by simpa using hb
  rcases hb with hb | hb
  · have := b.toNat_lt
    exact hexDigit_ne_zero _ (by omega) hb.symm
  · exact hexDigit_ne_zero _ (Nat.mod_lt _ (by decide)) hb.symm

def isLetter (c : UInt8) : Bool := (65 ≤ c && c ≤ 90) || (97 ≤ c && c ≤ 122)

/-- `[A-Za-z0-9_]`. -/
def isLoginChar (c : UInt8) : Bool := isLetter c || (48 ≤ c && c ≤ 57) || c = 95

/-- `^[A-Za-z0-9_]{3,20}$`. -/
def matchesLoginRegex (login : Bytes) : Bool :=
  3 ≤ login.length && login.length ≤ 20 && login.all isLoginChar

theorem verbatim_of_matchesLoginRegex {login : Bytes} (h : matchesLoginRegex login = true) :
    Database.Verbatim 20 login := by
  simp only [matchesLoginRegex, Bool.and_eq_true, decide_eq_true_eq, List.all_eq_true] at h
  exact ⟨h.1.2, fun hnul => absurd (h.2 0 hnul) (by decide)⟩

def validateRegistration (login password email : Bytes) : AccountRegisterResult :=
  if !matchesLoginRegex login then .ERR_LOGIN_INVALID
  else if password.length < 8 then .ERR_PASSWORD_SHORT
  else if password.length > 100 then .ERR_PASSWORD_LONG
  else if !email.isEmpty && !email.contains 64 then .ERR_EMAIL_INVALID
  else .OK

/-- The uniqueness check, in a transaction of its own. -/
def checkLoginAvailable (login : Bytes) : M Bool :=
  withWork do
    let r ← execPrepared (.checkLoginAvailable login)
    abortWork
    return r.isEmpty

/-- The account and its session; `none` when the insert returned no row. -/
def createAccount (login passwordHash email ipStr clientVersion : Bytes) :
    M (Option (Int × Bytes)) :=
  withWork do
    match ← execPrepared (.registerUser login passwordHash email ipStr clientVersion) with
    | [] =>
      abortWork
      return none
    | id :: _ =>
      let userId ← asInt id
      let sessionHash ← randomUuid
      execPrepared (.revokeUserSessions userId)
      execPrepared .cleanupExpiredSessions
      execPrepared (.createUserSession userId sessionHash clientVersion)
      commitWork
      return some (userId, sessionHash)

/-- The part of `registerAccount` inside its try block. -/
def tryRegister (hashPassword : Bytes → Bytes)
    (login password email registrationIp clientVersion : Bytes) :
    M (AccountRegisterResult × Int × Bytes) := do
  if !(← checkLoginAvailable login) then return (.ERR_LOGIN_TAKEN, 0, [])
  else
    let passwordHash := hashPassword password
    let ipStr := if registrationIp.isEmpty then str "127.0.0.1" else registrationIp
    match ← createAccount login passwordHash email ipStr clientVersion with
    | none => return (.ERR_DB, 0, [])
    | some (userId, sessionHash) =>
      storeClientData
        { clientId := userId, login := login, hash := sessionHash,
          clientVersion := clientVersion }
      return (.OK, userId, sessionHash)

/-- The result with `outUserId` and `outHash`, which the caller starts at 0 and `""`. -/
def registerAccount (hashPassword : Bytes → Bytes)
    (login password email registrationIp clientVersion : Bytes) :
    M (AccountRegisterResult × Int × Bytes) :=
  let valid := validateRegistration login password email
  if valid ≠ .OK then return (valid, 0, [])
  else
    tryCatch (tryRegister hashPassword login password email registrationIp clientVersion)
      fun _ => return (.ERR_DB, 0, [])

end AccountManager

end LoginServer
