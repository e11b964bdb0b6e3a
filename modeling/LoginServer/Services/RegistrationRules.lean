import Mathlib.Tactic.SplitIfs
import LoginServer.Server.LoginServer
import LoginServer.Services.AccountManager
import LoginServer.Utils.Utf8

/-!
# The rules of a registration

The API states its rules in characters; `validateRegistration` counts bytes. For a login
and an email the two agree, since the login regex accepts ASCII alone and `@` is ASCII.
The length of a password is another matter: `passwordLengthsDiffer` are the passwords
that are on one side of a bound in characters and on the other in bytes.

A registration that is refused leaves no trace, whatever the other threads do meanwhile:
no call that it makes changes the committed data or the session store
(`registerAccount_refused`).
-/

namespace LoginServer

open Database Interleaving

namespace AccountManager

/-- 3 to 20 characters of `[A-Za-z0-9_]`. -/
def LoginRule (login : String) : Prop :=
  3 ≤ login.length ∧ login.length ≤ 20 ∧ ∀ c ∈ login.toList, c.isAlphanum = true ∨ c = '_'

instance (login : String) : Decidable (LoginRule login) :=
  have := List.decidableBAll (fun c : Char => c.isAlphanum = true ∨ c = '_') login.toList
  inferInstanceAs (Decidable (_ ∧ _))

/-- The documented rules, in the documented order. A character is a code point. -/
def documentedResult (login password email : String) : AccountRegisterResult :=
  if ¬ LoginRule login then .ERR_LOGIN_INVALID
  else if password.length < 8 then .ERR_PASSWORD_SHORT
  else if 100 < password.length then .ERR_PASSWORD_LONG
  else if email ≠ "" ∧ '@' ∉ email.toList then .ERR_EMAIL_INVALID
  else .OK

/-- A bound on the length lies between the characters and the bytes of the password. -/
def passwordLengthsDiffer (password : String) : Prop :=
  password.length < 8 ∧ 8 ≤ (str password).length ∨
    password.length ≤ 100 ∧ 100 < (str password).length

/-! ## Characters and bytes -/

theorem isLoginChar_iff_toNat {b : UInt8} :
    isLoginChar b = true ↔ 65 ≤ b.toNat ∧ b.toNat ≤ 90 ∨ 97 ≤ b.toNat ∧ b.toNat ≤ 122 ∨
      48 ≤ b.toNat ∧ b.toNat ≤ 57 ∨ b.toNat = 95 := by
  have hunderscore : b = 95 ↔ b.toNat = 95 := UInt8.toNat_inj.symm
  simp only [isLoginChar, isLetter, Bool.or_eq_true, Bool.and_eq_true, decide_eq_true_eq,
    UInt8.le_iff_toNat_le, hunderscore, or_assoc]
  rfl

theorem isLoginChar_lt {b : UInt8} (h : isLoginChar b = true) : b < 128 := by
  rw [isLoginChar_iff_toNat] at h
  rw [UInt8.lt_iff_toNat_lt]
  change b.toNat < 128
  omega

theorem isAlphanum_iff_toNat {c : Char} :
    c.isAlphanum = true ↔ 65 ≤ c.val.toNat ∧ c.val.toNat ≤ 90 ∨
      97 ≤ c.val.toNat ∧ c.val.toNat ≤ 122 ∨ 48 ≤ c.val.toNat ∧ c.val.toNat ≤ 57 := by
  have hclasses : c.isAlphanum =
      ((decide (65 ≤ c.val ∧ c.val ≤ 90) || 97 ≤ c.val && c.val ≤ 122) ||
        48 ≤ c.val && c.val ≤ 57) := rfl
  rw [hclasses]
  simp only [Bool.or_eq_true, Bool.and_eq_true, decide_eq_true_eq, UInt32.le_iff_toNat_le,
    or_assoc]
  rfl

/-- The bytes of the login class are the characters of the documented class. -/
theorem isLoginChar_iff {c : Char} :
    c.val ≤ 127 ∧ isLoginChar c.val.toUInt8 = true ↔ c.isAlphanum = true ∨ c = '_' := by
  have hunderscore : c = '_' ↔ c.val.toNat = 95 := by
    rw [← Char.val_inj, ← UInt32.toNat_inj]
    rfl
  have hascii : c.val ≤ 127 ↔ c.val.toNat ≤ 127 := UInt32.le_iff_toNat_le
  rw [isLoginChar_iff_toNat, isAlphanum_iff_toNat, hunderscore, hascii, UInt32.toNat_toUInt8]
  omega

theorem matchesLoginRegex_iff (login : String) :
    matchesLoginRegex (str login) = true ↔ LoginRule login := by
  have hchars : (str login).all isLoginChar = true ↔
      ∀ c ∈ login.toList, c.isAlphanum = true ∨ c = '_' := by
    rw [List.all_eq_true, forall_mem_str_iff fun b => isLoginChar_lt]
    exact forall₂_congr fun c _ => isLoginChar_iff
  simp only [matchesLoginRegex, LoginRule, Bool.and_eq_true, decide_eq_true_eq, hchars, and_assoc]
  by_cases hall : ∀ c ∈ login.toList, c.isAlphanum = true ∨ c = '_'
  · -- such a login is ASCII, so its bytes are its characters
    rw [length_str_of_ascii fun c hc => (isLoginChar_iff.mpr (hall c hc)).1]
  · simp only [hall, and_false]

theorem contains_at_iff (email : String) :
    (str email).contains 64 = true ↔ '@' ∈ email.toList := by
  rw [List.contains_iff_mem, mem_str_iff (by decide)]
  constructor
  · rintro ⟨c, hc, hascii, hbyte⟩
    have hat : c = '@' := by
      rw [← Char.val_inj, ← UInt32.toNat_inj]
      rw [UInt32.le_iff_toNat_le] at hascii
      have hval := congrArg UInt8.toNat hbyte
      rw [UInt32.toNat_toUInt8] at hval
      change c.val.toNat ≤ 127 at hascii
      change c.val.toNat % 256 = 64 at hval
      change c.val.toNat = 64
      omega
    exact hat ▸ hc
  · exact fun h => ⟨'@', h, by decide, by decide⟩

theorem isEmpty_str_iff (s : String) : (str s).isEmpty = true ↔ s = "" := by
  rw [List.isEmpty_iff]
  exact str_inj (t := "")

/-! ## The validation -/

theorem validateRegistration_eq (login password email : String) :
    validateRegistration (str login) (str password) (str email) =
      if ¬ LoginRule login then .ERR_LOGIN_INVALID
      else if (str password).length < 8 then .ERR_PASSWORD_SHORT
      else if 100 < (str password).length then .ERR_PASSWORD_LONG
      else if email ≠ "" ∧ '@' ∉ email.toList then .ERR_EMAIL_INVALID
      else .OK := by
  have hlogin : (!matchesLoginRegex (str login)) = true ↔ ¬ LoginRule login := by
    rw [Bool.not_eq_true', ← matchesLoginRegex_iff, Bool.not_eq_true]
  have hemail : (!(str email).isEmpty && !(str email).contains 64) = true ↔
      email ≠ "" ∧ '@' ∉ email.toList := by
    rw [Bool.and_eq_true, Bool.not_eq_true', Bool.not_eq_true', ← contains_at_iff, ne_eq,
      ← isEmpty_str_iff, Bool.not_eq_true, Bool.not_eq_true]
  unfold validateRegistration
  simp only [hlogin, hemail, gt_iff_lt]

/-- The byte counts decide as the character counts would, unless the login is in order and
a bound lies between the two counts of the password. -/
theorem validateRegistration_eq_documented_iff (login password email : String) :
    validateRegistration (str login) (str password) (str email) =
        documentedResult login password email ↔
      ¬ (LoginRule login ∧ passwordLengthsDiffer password) := by
  have hle := length_le_length_str password
  rw [validateRegistration_eq]
  unfold documentedResult passwordLengthsDiffer
  by_cases hlogin : LoginRule login
  · simp only [hlogin, not_true, if_false, true_and]
    split_ifs
    all_goals first
      | exact iff_of_true rfl (by omega)
      | exact iff_of_false (fun h => by cases h) (by omega)
  · simp [hlogin]

end AccountManager

/-! ## A refused registration -/

/-- Wherever a thread makes this call and gets this answer, the committed data and the
session store stay as they are. -/
def LeavesData (f : SqlFunctions) (e : Σ c : Cmd, c.Reply) : Prop :=
  ∀ t x s s', Server.exec f t e.1 x s = some (e.2, s') →
    s'.store.committed = s.store.committed ∧ s'.clientData = s.clientData

/-- A call of a service that stores nothing and does not commit. -/
inductive Refused : (Σ c : Cmd, c.Reply) → Prop where
  | beginWork (r : Option Unit) : Refused ⟨.beginWork, r⟩
  | execPrepared (q : Query) (r : Option q.Rows) : Refused ⟨.execPrepared q, r⟩
  | commitFailed : Refused ⟨.commitWork, none⟩
  | abortWork : Refused ⟨.abortWork, ()⟩
  | unwindWork : Refused ⟨.unwindWork, ()⟩
  | randomUuid (r : Bytes) : Refused ⟨.randomUuid, r⟩

theorem Refused.leavesData {f : SqlFunctions} {e : Σ c : Cmd, c.Reply} (h : Refused e) :
    LeavesData f e := by
  intro t x s s' hexec
  have hdata := Server.exec_clientData hexec
  cases h <;> cases Server.exec_cases hexec <;> exact ⟨rfl, hdata⟩

/-- All calls so far were refused ones. -/
def AllRefused (h : Hist) : Prop := ∀ e ∈ h, Refused e

theorem AllRefused.cons {h : Hist} {e : Σ c : Cmd, c.Reply} (he : Refused e)
    (hh : AllRefused h) : AllRefused (e :: h) :=
  List.forall_mem_cons.mpr ⟨he, hh⟩

namespace AccountManager

variable {h : Hist}

/-- A transaction: what its body throws is rolled back. -/
theorem refused_withWork {α : Type} {body : M α} {Q : Hist → α → Prop} (hh : AllRefused h)
    (hbody : ∀ h', AllRefused h' → ObeysE (fun _ _ => True) Q (fun h' _ => AllRefused h') h' body) :
    ObeysE (fun _ _ => True) Q (fun h' _ => AllRefused h') h (withWork body) := by
  refine obeysE_withWork trivial (hh.cons (.beginWork _)) ?_
  refine (hbody _ (hh.cons (.beginWork _))).mono (fun _ _ hq => hq) fun h' _ hh' => ?_
  exact ⟨trivial, hh'.cons .unwindWork⟩

theorem refused_exec {β : Type} {q : Query} {g : q.Rows → M β} {Q : Hist → β → Prop}
    (hh : AllRefused h)
    (hg : ∀ rows h', AllRefused h' →
      ObeysE (fun _ _ => True) Q (fun h' _ => AllRefused h') h' (g rows)) :
    ObeysE (fun _ _ => True) Q (fun h' _ => AllRefused h') h (execPrepared q >>= g) := by
  refine obeysE_bind.mpr (obeysE_execPrepared trivial ?_ (hh.cons (.execPrepared q none)))
  exact fun rows => hg rows _ (hh.cons (.execPrepared q (some rows)))

theorem refused_abort {β : Type} {g : Unit → M β} {Q : Hist → β → Prop} (hh : AllRefused h)
    (hg : ∀ h', AllRefused h' →
      ObeysE (fun _ _ => True) Q (fun h' _ => AllRefused h') h' (g ())) :
    ObeysE (fun _ _ => True) Q (fun h' _ => AllRefused h') h (abortWork >>= g) := by
  refine obeysE_bind.mpr (obeysE_call (c := .abortWork) |>.mpr ⟨trivial, fun r => ?_⟩)
  exact hg _ (hh.cons .abortWork)

theorem checkLoginAvailable_refused (login : Bytes) (hh : AllRefused h) :
    ObeysE (fun _ _ => True) (fun h' _ => AllRefused h') (fun h' _ => AllRefused h') h
      (checkLoginAvailable login) := by
  refine refused_withWork hh fun h₁ hh₁ => refused_exec hh₁ fun rows h₂ hh₂ => ?_
  exact refused_abort hh₂ fun h₃ hh₃ => obeysE_pure.mpr hh₃

/-- Up to the commit the account may still fail to be created; then it is there. -/
theorem createAccount_refused (login passwordHash email ipStr clientVersion : Bytes)
    (hh : AllRefused h) :
    ObeysE (fun _ _ => True) (fun h' r => r = none → AllRefused h') (fun h' _ => AllRefused h') h
      (createAccount login passwordHash email ipStr clientVersion) := by
  refine refused_withWork hh fun h₁ hh₁ => refused_exec hh₁ fun rows h₂ hh₂ => ?_
  cases rows with
  | nil => exact refused_abort hh₂ fun h₃ hh₃ => obeysE_pure.mpr fun _ => hh₃
  | cons id rest =>
    refine obeysE_bind.mpr (obeysE_orThrow (fun userId _ => ?_) fun _ => hh₂)
    refine obeysE_bind.mpr (obeysE_call (c := .randomUuid) |>.mpr ⟨trivial, fun sessionHash => ?_⟩)
    have hh₃ := hh₂.cons (.randomUuid sessionHash)
    refine refused_exec hh₃ fun _ h₄ hh₄ => refused_exec hh₄ fun _ h₅ hh₅ => ?_
    refine refused_exec hh₅ fun _ h₆ hh₆ => ?_
    refine obeysE_bind.mpr (obeysE_commitWork trivial ?_ (hh₆.cons .commitFailed))
    exact obeysE_pure.mpr fun hnone => by cases hnone

/-- What holds at the end of `registerAccount`. -/
def RefusedEnd (h : Hist) (out : AccountRegisterResult × Int × Bytes) : Prop :=
  out.1 ≠ .OK → out.2.1 = 0 ∧ out.2.2 = [] ∧ AllRefused h

theorem tryRegister_refused (hashPassword : Bytes → Bytes)
    (login password email registrationIp clientVersion : Bytes) (hh : AllRefused h) :
    ObeysE (fun _ _ => True) RefusedEnd (fun h' _ => AllRefused h') h
      (tryRegister hashPassword login password email registrationIp clientVersion) := by
  refine obeysE_bind.mpr ((checkLoginAvailable_refused login hh).mono ?_ fun _ _ hh' => hh')
  intro h₁ available hh₁
  cases available with
  | false => exact obeysE_pure.mpr fun _ => ⟨rfl, rfl, hh₁⟩
  | true =>
    refine obeysE_bind.mpr ((createAccount_refused login (hashPassword password) email _
      clientVersion hh₁).mono ?_ fun _ _ hh' => hh')
    intro h₂ account hh₂
    cases account with
    | none => exact obeysE_pure.mpr fun _ => ⟨rfl, rfl, hh₂ rfl⟩
    | some account =>
      refine obeysE_bind.mpr (obeysE_call (c := .storeClientData _) |>.mpr ⟨trivial, fun _ => ?_⟩)
      exact obeysE_pure.mpr fun hok => absurd rfl hok

/-- However it goes, `registerAccount` returns, and what is not OK has left no trace. -/
theorem registerAccount_refused (hashPassword : Bytes → Bytes)
    (login password email registrationIp clientVersion : Bytes) :
    ObeysE (fun _ _ => True) RefusedEnd (fun _ _ => False) []
      (registerAccount hashPassword login password email registrationIp clientVersion) := by
  have hnil : AllRefused [] := fun e he => by cases he
  unfold registerAccount
  dsimp only
  split_ifs with hvalid
  · exact obeysE_pure.mpr fun _ => ⟨rfl, rfl, hnil⟩
  · refine obeysE_tryCatch.mpr ((tryRegister_refused hashPassword login password email
      registrationIp clientVersion hnil).mono (fun _ _ hq => hq) fun h' _ hh' => ?_)
    exact obeysE_pure.mpr fun _ => ⟨rfl, rfl, hh'⟩

/-- A registration follows the documented rules, but for passwords whose characters and
bytes are on different sides of a bound; and one that is refused leaves the outputs, the
committed data and the session store as they were. -/
theorem registration_documented_iff (f : SqlFunctions) (hashPassword : Bytes → Bytes)
    (login password email : String) (registrationIp clientVersion : Bytes) :
    (validateRegistration (str login) (str password) (str email) =
          documentedResult login password email ∧
        ∀ h result outUserId outHash,
          Ends [] (registerAccount hashPassword (str login) (str password) (str email)
            registrationIp clientVersion).run h (.ok (result, outUserId, outHash)) →
          result ≠ .OK → outUserId = 0 ∧ outHash = [] ∧ ∀ e ∈ h, LeavesData f e) ↔
      ¬ (LoginRule login ∧ passwordLengthsDiffer password) := by
  refine (and_iff_left ?_).trans (validateRegistration_eq_documented_iff login password email)
  intro h result outUserId outHash hends hrefused
  have hend := obeys_iff_ends.mp (registerAccount_refused hashPassword (str login) (str password)
    (str email) registrationIp clientVersion) h _ hends
  obtain ⟨hid, hhash, hcalls⟩ := hend hrefused
  exact ⟨hid, hhash, fun e he => (hcalls e he).leavesData⟩

/-- Six characters, twelve bytes. -/
theorem validateRegistration_short_password :
    validateRegistration (str "player") (str "пароль") (str "") = .OK ∧
      documentedResult "player" "пароль" "" = .ERR_PASSWORD_SHORT := by
  decide

end AccountManager

end LoginServer
