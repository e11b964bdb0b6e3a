import Mathlib.Data.Prod.Lex
import LoginServer.Utils.Json
import LoginServer.Utils.Stoi
import LoginServer.Utils.WireFraming

/-!
# The version gate

`compareVersions` subtracts 32-bit integers. The order it is meant to decide is the
lexicographic one, `≤` on `Version`; `compareVersions_neg_iff` says that it does so
exactly where the deciding difference is an `int`, and that it answers the opposite
everywhere else.
-/

namespace LoginServer

structure Version where
  major : Int := 0
  minor : Int := 0
  patch : Int := 0
deriving DecidableEq

/-- `std::getline(ss, segment, '.')` on what is left of the stream; `none` is a stream
that has reached its end. -/
def getline (stream : Option Bytes) : Option (Bytes × Option Bytes) :=
  match stream with
  | none => none
  | some [] => none
  | some s =>
    match s.dropWhile (fun c => c ≠ 46) with
    | [] => some (s, none)
    | _ :: rest => some (s.takeWhile (fun c => c ≠ 46), some rest)

def parseVersion (s : Bytes) : Option Version := do
  let (segment, ss) ← getline (some s)
  let major ← stoi segment
  let (segment, ss) ← getline ss
  let minor ← stoi segment
  let (segment, _) ← getline ss
  let patch ← stoi segment
  return ⟨major, minor, patch⟩

/-- `a - b` of two 32-bit integers, which wraps. -/
def sub32 (a b : Int) : Int := (a - b).bmod (2 ^ 32)

def compareVersions (a b : Version) : Int :=
  if a.major ≠ b.major then sub32 a.major b.major
  else if a.minor ≠ b.minor then sub32 a.minor b.minor
  else sub32 a.patch b.patch

/-- The limits of `LoginServerConfig` that the gate reads. -/
structure VersionLimits where
  minClientVersion : Bytes
  maxClientVersion : Bytes

def versionError (limits : VersionLimits) (eventType : Bytes) (errorCode : String) : Json :=
  .object [(str "header", .object [(str "eventType", .string eventType),
      (str "message", .string (str errorCode))]),
    (str "body", .object [(str "serverVersion", .string protocol.kProtocolVersion),
      (str "minClientVersion", .string limits.minClientVersion),
      (str "maxClientVersion", .string limits.maxClientVersion)])]

/-- The error response of `checkClientVersion`, or `none` when it returns true. -/
def checkClientVersion (limits : VersionLimits) (clientVersion eventType : Bytes) : Option Json :=
  match parseVersion clientVersion, parseVersion limits.minClientVersion,
    parseVersion limits.maxClientVersion with
  | some client, some vmin, some vmax =>
    if compareVersions client vmin < 0 then
      some (versionError limits eventType "ERR_VERSION_OUTDATED")
    else if compareVersions client vmax > 0 then
      some (versionError limits eventType "ERR_VERSION_TOO_NEW")
    else none
  | _, _, _ => some (versionError limits eventType "ERR_VERSION_OUTDATED")

theorem checkClientVersion_eq_some {limits : VersionLimits} {clientVersion eventType : Bytes}
    {error : Json} (h : checkClientVersion limits clientVersion eventType = some error) :
    ∃ errorCode, error = versionError limits eventType errorCode := by
  unfold checkClientVersion at h
  split at h
  · split at h
    · exact ⟨_, (Option.some.inj h).symm⟩
    · split at h
      · exact ⟨_, (Option.some.inj h).symm⟩
      · cases h
  · exact ⟨_, (Option.some.inj h).symm⟩

example : parseVersion (str "1.2.3") = some ⟨1, 2, 3⟩ := by decide

example : parseVersion (str "1.2.") = none := by decide

/-! ## The lexicographic order -/

namespace Version

def key (v : Version) : Int ×ₗ Int ×ₗ Int := toLex (v.major, toLex (v.minor, v.patch))

theorem key_injective : Function.Injective key := by
  intro v w h
  obtain ⟨hmajor, hrest⟩ := Prod.mk.inj (toLex_inj.mp h)
  obtain ⟨hminor, hpatch⟩ := Prod.mk.inj (toLex_inj.mp hrest)
  cases v
  cases w
  subst hmajor hminor hpatch
  rfl

instance : LinearOrder Version := LinearOrder.lift' key key_injective

theorem lt_iff {v w : Version} :
    v < w ↔ v.major < w.major ∨ v.major = w.major ∧
      (v.minor < w.minor ∨ v.minor = w.minor ∧ v.patch < w.patch) := by
  change key v < key w ↔ _
  rw [key, key, Prod.Lex.toLex_lt_toLex, Prod.Lex.toLex_lt_toLex]

/-- The integer whose sign decides between `v` and `w`. -/
def difference (v w : Version) : Int :=
  if v.major ≠ w.major then v.major - w.major
  else if v.minor ≠ w.minor then v.minor - w.minor
  else v.patch - w.patch

theorem difference_neg_iff {v w : Version} : difference v w < 0 ↔ v < w := by
  rw [lt_iff]
  unfold difference
  split_ifs <;> omega

theorem difference_pos_iff {v w : Version} : 0 < difference v w ↔ w < v := by
  rw [lt_iff]
  unfold difference
  split_ifs <;> omega

/-- All components are of type `int`. -/
structure IsInt32 (v : Version) : Prop where
  major : LoginServer.IsInt32 v.major
  minor : LoginServer.IsInt32 v.minor
  patch : LoginServer.IsInt32 v.patch

theorem difference_lt {v w : Version} (hv : v.IsInt32) (hw : w.IsInt32) :
    -2 ^ 32 < difference v w ∧ difference v w < 2 ^ 32 := by
  obtain ⟨⟨_, _⟩, ⟨_, _⟩, ⟨_, _⟩⟩ := hv
  obtain ⟨⟨_, _⟩, ⟨_, _⟩, ⟨_, _⟩⟩ := hw
  unfold difference
  split_ifs <;> omega

end Version

theorem isInt32_of_parseVersion {s : Bytes} {v : Version} (h : parseVersion s = some v) :
    v.IsInt32 := by
  simp only [parseVersion, Option.bind_eq_bind, Option.pure_def, Option.bind_eq_some_iff,
    Option.some.injEq] at h
  obtain ⟨_, _, major, hmajor, _, _, minor, hminor, _, _, patch, hpatch, rfl⟩ := h
  exact ⟨isInt32_of_stoi hmajor, isInt32_of_stoi hminor, isInt32_of_stoi hpatch⟩

theorem compareVersions_eq (a b : Version) :
    compareVersions a b = (a.difference b).bmod (2 ^ 32) := by
  unfold compareVersions Version.difference
  split_ifs <;> rfl

/-- The subtraction that decides is exact just where its result is an `int`. -/
theorem compareVersions_eq_difference_iff {a b : Version} :
    compareVersions a b = a.difference b ↔ IsInt32 (a.difference b) := by
  rw [compareVersions_eq, Int.bmod_def]
  unfold IsInt32
  split <;> omega

/-- A wrapped difference has the other sign. -/
theorem compareVersions_neg_iff {a b : Version} (ha : a.IsInt32) (hb : b.IsInt32) :
    compareVersions a b < 0 ↔ if IsInt32 (a.difference b) then a < b else b < a := by
  have hrange := Version.difference_lt ha hb
  rw [compareVersions_eq, Int.bmod_def]
  by_cases hfits : IsInt32 (a.difference b)
  · rw [if_pos hfits, ← Version.difference_neg_iff]
    unfold IsInt32 at hfits
    split_ifs <;> omega
  · rw [if_neg hfits, ← Version.difference_pos_iff]
    unfold IsInt32 at hfits
    split_ifs <;> omega

theorem compareVersions_pos_iff {a b : Version} (ha : a.IsInt32) (hb : b.IsInt32) :
    0 < compareVersions a b ↔ if IsInt32 (a.difference b) then b < a else a < b := by
  have hrange := Version.difference_lt ha hb
  rw [compareVersions_eq, Int.bmod_def]
  by_cases hfits : IsInt32 (a.difference b)
  · rw [if_pos hfits, ← Version.difference_pos_iff]
    unfold IsInt32 at hfits
    split_ifs <;> omega
  · rw [if_neg hfits, ← Version.difference_neg_iff]
    unfold IsInt32 at hfits
    split_ifs <;> omega

end LoginServer
