import LoginServer.Network.ClientVersion
import LoginServer.Utils.Numeral

/-!
# The language of `parseVersion`

The gate means to accept `major.minor.patch`. What it accepts is three numerals, each with
the blanks, the sign and the trailing text that `std::stoi` lets pass, and after a third
dot anything at all. `VersionText` is this larger language; a text of it that is not a
plain triple is `Garbled`.
-/

namespace LoginServer

/-! ## Splitting at the dots -/

theorem takeWhile_not_dot {segment : Bytes} (h : 46 ∉ segment) (rest : Bytes) :
    (segment ++ 46 :: rest).takeWhile (fun c => c ≠ 46) = segment ∧
      (segment ++ 46 :: rest).dropWhile (fun c => c ≠ 46) = 46 :: rest := by
  have hall : ∀ c ∈ segment, decide (c ≠ 46) = true := by
    intro c hc
    exact decide_eq_true (fun heq => h (heq ▸ hc))
  rw [List.takeWhile_append_of_pos hall, List.dropWhile_append_of_pos hall]
  simp

theorem getline_of_ne_nil {s : Bytes} (h : s ≠ []) :
    getline (some s) =
      match s.dropWhile (fun c => c ≠ 46) with
      | [] => some (s, none)
      | _ :: rest => some (s.takeWhile (fun c => c ≠ 46), some rest) := by
  cases s with
  | nil => exact absurd rfl h
  | cons c cs => rfl

theorem getline_append {segment : Bytes} (h : 46 ∉ segment) (rest : Bytes) :
    getline (some (segment ++ 46 :: rest)) = some (segment, some rest) := by
  obtain ⟨htake, hdrop⟩ := takeWhile_not_dot h rest
  rw [getline_of_ne_nil (by simp), hdrop, htake]

theorem getline_last {segment : Bytes} (h : 46 ∉ segment) (hne : segment ≠ []) :
    getline (some segment) = some (segment, none) := by
  have hdrop : segment.dropWhile (fun c => c ≠ 46) = [] := by
    rw [List.dropWhile_eq_nil_iff]
    intro c hc
    exact decide_eq_true (fun heq => h (heq ▸ hc))
  rw [getline_of_ne_nil hne, hdrop]

/-- The text of what is left of the stream after a segment. -/
def afterSegment : Option Bytes → Bytes
  | none => []
  | some rest => 46 :: rest

/-- What `getline` hands out has no dot, and a dot is all that it takes away. -/
theorem split_of_getline {s segment : Bytes} {rest : Option Bytes}
    (h : getline (some s) = some (segment, rest)) :
    46 ∉ segment ∧ s = segment ++ afterSegment rest := by
  have hsplit := List.takeWhile_append_dropWhile (p := fun c => decide (c ≠ 46)) (l := s)
  have hfree : 46 ∉ s.takeWhile (fun c => decide (c ≠ 46)) := by
    intro hmem
    simpa using List.mem_takeWhile_imp hmem
  have hne : s ≠ [] := by
    rintro rfl
    cases h
  rw [getline_of_ne_nil hne] at h
  cases hdrop : s.dropWhile (fun c => decide (c ≠ 46)) with
  | nil =>
      rw [hdrop] at h hsplit
      cases h
      rw [List.append_nil] at hsplit
      exact ⟨hsplit ▸ hfree, (List.append_nil _).symm⟩
  | cons d ds =>
      have hd : d = 46 := by
        have := List.head?_dropWhile_not (fun c => decide (c ≠ 46)) s
        rw [hdrop] at this
        simpa using this
      rw [hdrop] at h hsplit
      cases h
      subst hd
      exact ⟨hfree, hsplit.symm⟩

/-! ## The texts that the parser accepts -/

structure VersionText where
  major : Numeral
  minor : Numeral
  patch : Numeral
  /-- What follows a third dot. -/
  rest : Option Bytes
  major_dot : 46 ∉ major.text
  minor_dot : 46 ∉ minor.text
  patch_dot : 46 ∉ patch.text

namespace VersionText

def text (t : VersionText) : Bytes :=
  t.major.text ++ 46 :: (t.minor.text ++ 46 :: (t.patch.text ++ afterSegment t.rest))

def version (t : VersionText) : Version := ⟨t.major.value, t.minor.value, t.patch.value⟩

/-- Three runs of digits and two dots. -/
def Plain (t : VersionText) : Prop :=
  t.major.Bare ∧ t.minor.Bare ∧ t.patch.Bare ∧ t.rest = none

theorem getline_patch (t : VersionText) :
    getline (some (t.patch.text ++ afterSegment t.rest)) = some (t.patch.text, t.rest) := by
  cases h : t.rest with
  | none =>
      rw [afterSegment, List.append_nil]
      exact getline_last t.patch_dot t.patch.text_ne_nil
  | some rest => exact getline_append t.patch_dot rest

theorem text_injective {t t' : VersionText} (h : t.text = t'.text) : t = t' := by
  have hmajor := getline_append t.major_dot (t.minor.text ++ 46 :: (t.patch.text ++
    afterSegment t.rest))
  rw [← text, h, text, getline_append t'.major_dot, Option.some.injEq, Prod.mk.injEq,
    Option.some.injEq] at hmajor
  have hminor := getline_append t.minor_dot (t.patch.text ++ afterSegment t.rest)
  rw [← hmajor.2, getline_append t'.minor_dot, Option.some.injEq, Prod.mk.injEq,
    Option.some.injEq] at hminor
  have hpatch := t.getline_patch
  rw [← hminor.2, t'.getline_patch, Option.some.injEq, Prod.mk.injEq] at hpatch
  cases t
  cases t'
  cases Numeral.text_injective hmajor.1
  cases Numeral.text_injective hminor.1
  cases Numeral.text_injective hpatch.1
  cases hpatch.2
  rfl

end VersionText

theorem parseVersion_eq_some_iff {s : Bytes} {v : Version} :
    parseVersion s = some v ↔
      ∃ t : VersionText, t.text = s ∧ t.version = v ∧ v.IsInt32 := by
  constructor
  · intro h
    have hv := isInt32_of_parseVersion h
    simp only [parseVersion, Option.bind_eq_bind, Option.pure_def, Option.bind_eq_some_iff,
      Option.some.injEq, Prod.exists] at h
    obtain ⟨a, ss, ha, major, hmajor, b, ss', hb, minor, hminor, c, rest, hc, patch, hpatch,
      rfl⟩ := h
    obtain ⟨ma, rfl, rfl, -⟩ := stoi_eq_some_iff.mp hmajor
    obtain ⟨mb, rfl, rfl, -⟩ := stoi_eq_some_iff.mp hminor
    obtain ⟨mc, rfl, rfl, -⟩ := stoi_eq_some_iff.mp hpatch
    obtain ⟨hadot, rfl⟩ := split_of_getline ha
    -- a stream at its end has no second segment
    cases ss with
    | none => cases hb
    | some r =>
        obtain ⟨hbdot, rfl⟩ := split_of_getline hb
        cases ss' with
        | none => cases hc
        | some r' =>
            obtain ⟨hcdot, rfl⟩ := split_of_getline hc
            exact ⟨⟨ma, mb, mc, rest, hadot, hbdot, hcdot⟩, rfl, rfl, hv⟩
  · rintro ⟨t, rfl, rfl, hmajor, hminor, hpatch⟩
    have hstoi : ∀ m : Numeral, IsInt32 m.value → stoi m.text = some m.value :=
      fun m hm => stoi_eq_some_iff.mpr ⟨m, rfl, rfl, hm⟩
    simp only [parseVersion, VersionText.text, getline_append t.major_dot,
      getline_append t.minor_dot, t.getline_patch, hstoi _ hmajor, hstoi _ hminor,
      hstoi _ hpatch, Option.bind_eq_bind, Option.bind_some, Option.pure_def]
    rfl

/-! ## The documented language -/

/-- A non-empty string of decimal digits. -/
structure IsDigits (d : Bytes) : Prop where
  ne_nil : d ≠ []
  digit : ∀ c ∈ d, isDigit c

/-- `s` is `major.minor.patch`, each a string of digits that fits an `int`, and `v` are
their values. -/
def DottedTriple (s : Bytes) (v : Version) : Prop :=
  ∃ d₁ d₂ d₃, IsDigits d₁ ∧ IsDigits d₂ ∧ IsDigits d₃ ∧
    s = d₁ ++ str "." ++ d₂ ++ str "." ++ d₃ ∧
    v = ⟨digitsValue d₁, digitsValue d₂, digitsValue d₃⟩ ∧ v.IsInt32

/-- A text that the parser reads although it is not a plain triple: it has a blank, a sign
or trailing text in a segment, or something after the third segment. -/
def Garbled (s : Bytes) : Prop :=
  ∃ t : VersionText, t.text = s ∧ t.version.IsInt32 ∧ ¬ t.Plain

theorem Numeral.Bare.text_eq {m : Numeral} (h : m.Bare) : m.text = m.digits := by
  obtain ⟨hblanks, hsign, htrailing⟩ := h
  rw [text, hblanks, hsign, htrailing]
  simp

theorem Numeral.Bare.value_eq {m : Numeral} (h : m.Bare) : m.value = digitsValue m.digits := by
  rw [value, h.2.1]
  exact if_neg (by decide)

theorem IsDigits.dot_notMem {d : Bytes} (h : IsDigits d) : 46 ∉ d :=
  fun hmem => absurd (h.digit 46 hmem) (by decide)

/-- The numeral that is just its digits. -/
def IsDigits.numeral {d : Bytes} (h : IsDigits d) : Numeral where
  blanks := []
  sign := []
  digits := d
  trailing := []
  blanks_space := by simp
  sign_mem := Or.inl rfl
  digits_ne_nil := h.ne_nil
  digits_digit := h.digit
  trailing_head := by simp

theorem IsDigits.bare {d : Bytes} (h : IsDigits d) : h.numeral.Bare := ⟨rfl, rfl, rfl⟩

theorem dottedTriple_iff {s : Bytes} {v : Version} :
    DottedTriple s v ↔
      ∃ t : VersionText, t.text = s ∧ t.Plain ∧ t.version = v ∧ v.IsInt32 := by
  constructor
  · rintro ⟨d₁, d₂, d₃, h₁, h₂, h₃, rfl, rfl, hv⟩
    refine ⟨⟨h₁.numeral, h₂.numeral, h₃.numeral, none, ?_, ?_, ?_⟩, ?_,
      ⟨h₁.bare, h₂.bare, h₃.bare, rfl⟩, ?_, hv⟩
    · exact h₁.bare.text_eq ▸ h₁.dot_notMem
    · exact h₂.bare.text_eq ▸ h₂.dot_notMem
    · exact h₃.bare.text_eq ▸ h₃.dot_notMem
    · simp only [VersionText.text, h₁.bare.text_eq, h₂.bare.text_eq, h₃.bare.text_eq,
        afterSegment, List.append_nil, List.append_assoc]
      rfl
    · simp only [VersionText.version, h₁.bare.value_eq, h₂.bare.value_eq, h₃.bare.value_eq]
      rfl
  · rintro ⟨t, rfl, ⟨h₁, h₂, h₃, hrest⟩, rfl, hv⟩
    have isDigits : ∀ m : Numeral, IsDigits m.digits :=
      fun m => ⟨m.digits_ne_nil, m.digits_digit⟩
    refine ⟨_, _, _, isDigits t.major, isDigits t.minor, isDigits t.patch, ?_, ?_, hv⟩
    · simp only [VersionText.text, h₁.text_eq, h₂.text_eq, h₃.text_eq, hrest, afterSegment,
        List.append_nil, List.append_assoc]
      rfl
    · simp only [VersionText.version, h₁.value_eq, h₂.value_eq, h₃.value_eq]

/-- The parser accepts exactly the dotted triples, with their values, but for the garbled
texts, which it accepts as well. -/
theorem parseVersion_dottedTriple_iff (s : Bytes) :
    (∀ v, parseVersion s = some v ↔ DottedTriple s v) ↔ ¬ Garbled s := by
  constructor
  · rintro h ⟨t, rfl, hfits, hplain⟩
    have hread : parseVersion t.text = some t.version :=
      parseVersion_eq_some_iff.mpr ⟨t, rfl, rfl, hfits⟩
    obtain ⟨t', htext, hplain', -⟩ := dottedTriple_iff.mp ((h _).mp hread)
    exact hplain (VersionText.text_injective htext ▸ hplain')
  · intro h v
    rw [parseVersion_eq_some_iff, dottedTriple_iff]
    constructor
    · rintro ⟨t, rfl, rfl, hfits⟩
      have hplain : t.Plain := by
        by_contra hplain
        exact h ⟨t, rfl, hfits, hplain⟩
      exact ⟨t, rfl, hplain, rfl, hfits⟩
    · rintro ⟨t, rfl, -, rfl, hfits⟩
      exact ⟨t, rfl, rfl, hfits⟩

/-- A fourth segment, blanks, a sign and trailing letters, all in one accepted version. -/
theorem parseVersion_accepts_garbled :
    parseVersion (str " +1.2 .3rc.4") = some ⟨1, 2, 3⟩ ∧
      ¬ ∃ v, DottedTriple (str " +1.2 .3rc.4") v := by
  refine ⟨by decide, ?_⟩
  rintro ⟨v, d₁, d₂, d₃, h₁, -, -, heq, -⟩
  obtain ⟨c, ds, rfl⟩ := List.exists_cons_of_ne_nil h₁.ne_nil
  have hc : c = 32 := by
    have hhead : (str " +1.2 .3rc.4").head? = some 32 := by decide
    rw [heq] at hhead
    exact Option.some.inj hhead
  exact absurd (h₁.digit c List.mem_cons_self) (by rw [hc]; decide)

end LoginServer
