import LoginServer.Services.CharacterManager

/-!
# The language of character names

The comment in `createCharacter` allows 2 to 20 letters, spaces and apostrophes with a
letter at each end and no double space. Of the two alternatives of the regex the first
keeps to that; the second, `^[A-Za-z]{1,20}$`, also lets a single letter through.
-/

namespace LoginServer

namespace CharacterManager

open AccountManager (isLetter)
open Interleaving

/-- The stated rules for a name. -/
structure IsName (name : Bytes) : Prop where
  two_le : 2 ≤ name.length
  le_twenty : name.length ≤ 20
  chars : ∀ c ∈ name, isNameChar c
  first : ∃ c, name.head? = some c ∧ isLetter c
  last : ∃ c, name.getLast? = some c ∧ isLetter c
  spaces : ¬ str "  " <:+: name

theorem hasDoubleSpace_iff (name : Bytes) :
    hasDoubleSpace name = true ↔ str "  " <:+: name := by
  have hpair : str "  " = [32, 32] := by decide
  suffices h : hasDoubleSpace name = true ↔ [32, 32] <:+: name by rw [h, hpair]
  induction name with
  | nil => simp [hasDoubleSpace]
  | cons a rest ih =>
      rw [List.infix_cons_iff, ← ih]
      cases rest with
      | nil => simp [hasDoubleSpace]
      | cons b bs =>
          rw [hasDoubleSpace, Bool.or_eq_true, Bool.and_eq_true, decide_eq_true_eq,
            decide_eq_true_eq, List.cons_prefix_cons, List.cons_prefix_cons]
          simp only [List.nil_prefix, and_true, eq_comm]

/-- The two ends of a name that has two ends. -/
theorem exists_ends {name : Bytes} (h : 2 ≤ name.length) :
    ∃ a middle b, name = a :: (middle ++ [b]) := by
  obtain ⟨a, rest, rfl⟩ := List.exists_cons_of_length_pos (by omega : 0 < name.length)
  have hrest : rest ≠ [] := by
    rintro rfl
    simp at h
  exact ⟨a, rest.dropLast, rest.getLast hrest, by rw [List.dropLast_append_getLast]⟩

theorem isNameChar_of_isLetter {c : UInt8} (h : isLetter c = true) : isNameChar c = true := by
  simp [isNameChar, h]

/-- From two characters on the second alternative adds nothing to the first. -/
theorem matchesNameRegex_iff {name : Bytes} (h : 2 ≤ name.length) :
    matchesNameRegex name = true ↔
      name.length ≤ 20 ∧ (∀ c ∈ name, isNameChar c) ∧
        (∃ c, name.head? = some c ∧ isLetter c) ∧ ∃ c, name.getLast? = some c ∧ isLetter c := by
  obtain ⟨a, middle, b, rfl⟩ := exists_ends h
  have hlast : (a :: (middle ++ [b])).getLast? = some b := by
    rw [← List.cons_append, List.getLast?_concat]
  have hmiddle : (a :: (middle ++ [b])).tail.dropLast = middle := by simp
  unfold matchesNameRegex
  simp only [hlast, hmiddle, List.head?_cons, Option.any_some, Bool.or_eq_true, Bool.and_eq_true,
    decide_eq_true_eq, List.all_eq_true, h, true_and, Option.some.injEq, exists_eq_left']
  constructor
  · rintro (⟨⟨⟨hlength, ha⟩, hb⟩, hchars⟩ | ⟨⟨-, hlength⟩, hletters⟩)
    · refine ⟨hlength, ?_, ha, hb⟩
      intro c hc
      rcases List.mem_cons.mp hc with rfl | hc
      · exact isNameChar_of_isLetter ha
      · rcases List.mem_append.mp hc with hc | hc
        · exact hchars c hc
        · exact List.mem_singleton.mp hc ▸ isNameChar_of_isLetter hb
    · exact ⟨hlength, fun c hc => isNameChar_of_isLetter (hletters c hc), hletters a (by simp),
        hletters b (by simp)⟩
  · rintro ⟨hlength, hchars, ha, hb⟩
    exact Or.inl ⟨⟨⟨hlength, ha⟩, hb⟩, fun c hc => hchars c (by simp [hc])⟩

/-- A valid name is stored as it is. -/
theorem verbatim_of_matchesNameRegex {name : Bytes} (h : matchesNameRegex name = true) :
    Database.Verbatim 20 name := by
  have hchars : ∀ c ∈ name, isNameChar c = true := by
    by_cases hlength : 2 ≤ name.length
    · exact ((matchesNameRegex_iff hlength).mp h).2.1
    · simp only [matchesNameRegex, hlength, decide_false, Bool.false_and, Bool.false_or,
        Bool.and_eq_true, List.all_eq_true] at h
      exact fun c hc => isNameChar_of_isLetter (h.2 c hc)
  refine ⟨?_, fun hnul => absurd (hchars 0 hnul) (by decide)⟩
  simp only [matchesNameRegex, Bool.or_eq_true, Bool.and_eq_true, decide_eq_true_eq] at h
  omega

/-- A name that passes both checks: one that follows the rules, or a single letter. -/
theorem passes_iff (name : Bytes) :
    (matchesNameRegex name = true ∧ hasDoubleSpace name = false) ↔
      IsName name ∨ ∃ c, name = [c] ∧ isLetter c := by
  have hspaces : hasDoubleSpace name = false ↔ ¬ str "  " <:+: name := by
    rw [← hasDoubleSpace_iff, Bool.not_eq_true]
  rw [hspaces]
  by_cases htwo : 2 ≤ name.length
  · rw [matchesNameRegex_iff htwo]
    constructor
    · rintro ⟨⟨hlength, hchars, hfirst, hlast⟩, hnone⟩
      exact Or.inl ⟨htwo, hlength, hchars, hfirst, hlast, hnone⟩
    · rintro (h | ⟨c, rfl, -⟩)
      · exact ⟨⟨h.le_twenty, h.chars, h.first, h.last⟩, h.spaces⟩
      · exact absurd htwo (by simp)
  · constructor
    · rintro ⟨hmatch, -⟩
      cases name with
      | nil => cases hmatch
      | cons c cs =>
          cases cs with
          | nil => exact Or.inr ⟨c, rfl, by simpa [matchesNameRegex] using hmatch⟩
          | cons d ds => exact absurd htwo (by simp)
    · rintro (h | ⟨c, rfl, hc⟩)
      · exact absurd h.two_le htwo
      · exact ⟨by simp [matchesNameRegex, hc], by rw [← hasDoubleSpace_iff]; simp [hasDoubleSpace]⟩

/-! ## The checks of `createCharacter` -/

section Checks

variable (accountId : Int) (characterName characterClass characterRace characterGender : Bytes)

/-- What `createCharacter` does once the name has passed: all its database work. -/
def afterNameChecks : M Int :=
  tryCatch (tryCreate accountId characterName characterClass characterRace characterGender)
    fun _ => return CharacterCreateResult.ERR_DB

/-- The database work begins with a call, so it is no mere return. -/
theorem afterNameChecks_ne_return (code : Int) :
    afterNameChecks accountId characterName characterClass characterRace characterGender ≠
      return code := by
  intro h
  cases congrArg ExceptT.run h

variable {accountId characterName characterClass characterRace characterGender}

theorem createCharacter_eq (hclass : characterClass ≠ []) (hrace : characterRace ≠ [])
    (hgender : characterGender ≠ []) (hname : characterName ≠ []) :
    createCharacter accountId characterName characterClass characterRace characterGender =
      if matchesNameRegex characterName = true ∧ hasDoubleSpace characterName = false then
        afterNameChecks accountId characterName characterClass characterRace characterGender
      else return CharacterCreateResult.ERR_NAME_INVALID := by
  have hpresent : (characterName.isEmpty || characterClass.isEmpty || characterRace.isEmpty ||
      characterGender.isEmpty) = false := by
    simp [hname, hclass, hrace, hgender]
  unfold createCharacter
  rw [hpresent, if_neg (by simp)]
  cases matchesNameRegex characterName <;> cases hasDoubleSpace characterName <;> rfl

end Checks

/-- The checks accept exactly the stated names, and refuse every other name before any
database access, but for a name of a single letter. -/
theorem createCharacter_name_iff (accountId : Int)
    (characterName characterClass characterRace characterGender : Bytes)
    (hclass : characterClass ≠ []) (hrace : characterRace ≠ []) (hgender : characterGender ≠ []) :
    ((createCharacter accountId characterName characterClass characterRace characterGender =
          afterNameChecks accountId characterName characterClass characterRace characterGender ↔
        IsName characterName) ∧
      (¬ IsName characterName → characterName ≠ [] →
        createCharacter accountId characterName characterClass characterRace characterGender =
          return CharacterCreateResult.ERR_NAME_INVALID)) ↔
      ¬ ∃ c, characterName = [c] ∧ isLetter c := by
  have hne := afterNameChecks_ne_return accountId characterName characterClass characterRace
    characterGender
  by_cases hname : characterName = []
  · subst hname
    have hmissing : createCharacter accountId [] characterClass characterRace characterGender =
        return CharacterCreateResult.ERR_MISSING_FIELD := rfl
    have hno : ¬ IsName [] := fun h => absurd h.two_le (by simp)
    refine iff_of_true ⟨iff_of_false ?_ hno, fun _ h => absurd rfl h⟩ (by simp)
    rw [hmissing]
    exact fun heq => hne _ heq.symm
  have hcases := @createCharacter_eq accountId _ _ _ _ hclass hrace hgender hname
  by_cases hletter : ∃ c, characterName = [c] ∧ isLetter c
  · -- a single letter is no name, and the database work begins
    have hno : ¬ IsName characterName := by
      obtain ⟨c, rfl, -⟩ := hletter
      exact fun h => absurd h.two_le (by simp)
    rw [if_pos ((passes_iff characterName).mpr (Or.inr hletter))] at hcases
    refine iff_of_false ?_ (not_not.mpr hletter)
    rintro ⟨-, hrefused⟩
    exact hne _ (hcases.symm.trans (hrefused hno hname))
  refine iff_of_true ?_ hletter
  by_cases hgood : IsName characterName
  · rw [if_pos ((passes_iff characterName).mpr (Or.inl hgood))] at hcases
    exact ⟨iff_of_true hcases hgood, fun hno => absurd hgood hno⟩
  · rw [if_neg (fun h => ((passes_iff characterName).mp h).elim hgood hletter)] at hcases
    refine ⟨iff_of_false ?_ hgood, fun _ _ => hcases⟩
    exact fun heq => hne _ (heq.symm.trans hcases)

theorem createCharacter_name_iff_bear :
    ((createCharacter 7 (str "Bear") (str "mage") (str "human") (str "male") =
          afterNameChecks 7 (str "Bear") (str "mage") (str "human") (str "male") ↔
        IsName (str "Bear")) ∧
      (¬ IsName (str "Bear") → str "Bear" ≠ [] →
        createCharacter 7 (str "Bear") (str "mage") (str "human") (str "male") =
          return CharacterCreateResult.ERR_NAME_INVALID)) ↔
      ¬ ∃ c, str "Bear" = [c] ∧ isLetter c :=
  createCharacter_name_iff 7 (str "Bear") (str "mage") (str "human") (str "male") (by decide)
    (by decide) (by decide)

/-- The name `A` is too short and goes to the database. -/
theorem createCharacter_accepts_A :
    ¬ IsName (str "A") ∧
      createCharacter 7 (str "A") (str "mage") (str "human") (str "male") =
        afterNameChecks 7 (str "A") (str "mage") (str "human") (str "male") ∧
      createCharacter 7 (str "A") (str "mage") (str "human") (str "male") ≠
        return CharacterCreateResult.ERR_NAME_INVALID := by
  have hpast : createCharacter 7 (str "A") (str "mage") (str "human") (str "male") =
      afterNameChecks 7 (str "A") (str "mage") (str "human") (str "male") := by
    rw [createCharacter_eq (by decide) (by decide) (by decide) (by decide)]
    exact if_pos (by decide)
  refine ⟨fun h => absurd h.two_le (by decide), hpast, ?_⟩
  rw [hpast]
  exact afterNameChecks_ne_return _ _ _ _ _ _

end CharacterManager

end LoginServer
