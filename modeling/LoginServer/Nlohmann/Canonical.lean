import LoginServer.Nlohmann.Documents
import LoginServer.Nlohmann.Escaping
import LoginServer.Transactions.Tables
import LoginServer.Utils.Utf8

/-!
# Canonical documents

The members of a document are a list here and a map in the library. What `dump` writes
depends on the map alone (`dump_same`), and it throws exactly if some text of the document
is not UTF-8 (`dump_isSome_iff`). The canonical form of a document is what `dump` shows of
it.
-/

namespace LoginServer.Nlohmann

variable {to_chars : UInt64 → Bytes}

/-! ## Canonical documents -/

mutual

/-- As it is read back: members in the order of their keys, and no number that is not
finite. -/
def canonical : Json → Json
  | .object members => .object (Relations.sortByKey (canonicalMembers members))
  | .array items => .array (canonicalItems items)
  | .number_float bits => if isfinite bits then .number_float bits else .null
  | .string s => .string s
  | .number n => .number n
  | .boolean b => .boolean b
  | .null => .null

def canonicalItems : List Json → List Json
  | [] => []
  | item :: items => canonical item :: canonicalItems items

def canonicalMembers : List (Bytes × Json) → List (Bytes × Json)
  | [] => []
  | (key, value) :: members => (key, canonical value) :: canonicalMembers members

end

theorem canonicalItems_eq (items : List Json) : canonicalItems items = items.map canonical := by
  induction items with
  | nil => rw [canonicalItems, List.map_nil]
  | cons item items ih => rw [canonicalItems, ih, List.map_cons]

theorem canonicalMembers_eq (members : List (Bytes × Json)) :
    canonicalMembers members = members.map fun m => (m.1, canonical m.2) := by
  induction members with
  | nil => rw [canonicalMembers, List.map_nil]
  | cons m members ih => rw [canonicalMembers, ih, List.map_cons]

/-- What `nlohmann::json` can hold: 64-bit integers, a map of members, and numbers with
`P`. -/
inductive Representable (P : UInt64 → Prop) : Json → Prop where
  | null : Representable P .null
  | boolean (b : Bool) : Representable P (.boolean b)
  | number {n : Int} (h : -2 ^ 63 ≤ n ∧ n < 2 ^ 64) : Representable P (.number n)
  | number_float {bits : UInt64} (h : P bits) : Representable P (.number_float bits)
  | string (s : Bytes) : Representable P (.string s)
  | array {items : List Json} (h : ∀ j ∈ items, Representable P j) : Representable P (.array items)
  | object {members : List (Bytes × Json)} (hkeys : (members.map Prod.fst).Nodup)
    (h : ∀ m ∈ members, Representable P m.2) : Representable P (.object members)

/-! ## Dumping lists -/

def DumpsMember (to_chars : UInt64 → Bytes) (m : Bytes × Json) (entry : Bytes × Bytes) : Prop :=
  ∃ escaped text, dump_escaped m.1 = some escaped ∧ dump to_chars m.2 = some text ∧
    entry = (m.1, 0x22 :: (escaped ++ 0x22 :: 0x3A :: text))

theorem dumpItems_eq_some_iff {items : List Json} {texts : List Bytes} :
    dumpItems to_chars items = some texts ↔
      List.Forall₂ (fun j text => dump to_chars j = some text) items texts := by
  induction items generalizing texts with
  | nil =>
    rw [dumpItems, List.forall₂_nil_left_iff]
    exact ⟨fun h => (Option.some.inj h).symm, fun h => by rw [h]⟩
  | cons item items ih =>
    simp only [dumpItems, Option.bind_eq_bind, Option.bind_eq_some_iff, ih,
      List.forall₂_cons_left_iff, Option.pure_def, Option.some.injEq]
    constructor
    · rintro ⟨text, htext, texts', htexts, rfl⟩
      exact ⟨text, texts', htext, htexts, rfl⟩
    · rintro ⟨text, texts', htext, htexts, rfl⟩
      exact ⟨text, htext, texts', htexts, rfl⟩

theorem dumpMembers_eq_some_iff {members : List (Bytes × Json)} {entries : List (Bytes × Bytes)} :
    dumpMembers to_chars members = some entries ↔
      List.Forall₂ (DumpsMember to_chars) members entries := by
  induction members generalizing entries with
  | nil =>
    rw [dumpMembers, List.forall₂_nil_left_iff]
    exact ⟨fun h => (Option.some.inj h).symm, fun h => by rw [h]⟩
  | cons m members ih =>
    simp only [dumpMembers, Option.bind_eq_bind, Option.bind_eq_some_iff, ih,
      List.forall₂_cons_left_iff, Option.pure_def, Option.some.injEq, DumpsMember]
    constructor
    · rintro ⟨escaped, hkey, text, htext, entries', hentries, rfl⟩
      exact ⟨_, entries', ⟨escaped, text, hkey, htext, rfl⟩, hentries, rfl⟩
    · rintro ⟨_, entries', ⟨escaped, text, hkey, htext, rfl⟩, hentries, rfl⟩
      exact ⟨escaped, hkey, text, htext, entries', hentries, rfl⟩

theorem dumpItems_congr {items items' : List Json} (hlength : items.length = items'.length)
    (h : ∀ (i : Nat) (j j' : Json), items[i]? = some j → items'[i]? = some j' →
      dump to_chars j = dump to_chars j') :
    dumpItems to_chars items = dumpItems to_chars items' := by
  induction items generalizing items' with
  | nil => rw [List.eq_nil_of_length_eq_zero hlength.symm]
  | cons item items ih =>
    cases items' with
    | nil => cases hlength
    | cons item' items' =>
      rw [dumpItems, dumpItems, h 0 item item' rfl rfl,
        ih (Nat.succ.inj hlength) fun i j j' hj hj' => h (i + 1) j j' hj hj']

/-- Entries have the keys of the members. -/
theorem DumpsMember.keys {members : List (Bytes × Json)} {entries : List (Bytes × Bytes)}
    (h : List.Forall₂ (DumpsMember to_chars) members entries) :
    entries.map Prod.fst = members.map Prod.fst := by
  induction h with
  | nil => rfl
  | cons hm _ ih =>
    obtain ⟨escaped, text, -, -, rfl⟩ := hm
    rw [List.map_cons, List.map_cons, ih]

theorem DumpsMember.congr {m m' : Bytes × Json} {entry : Bytes × Bytes}
    (h : DumpsMember to_chars m entry) (hkey : m.1 = m'.1)
    (hvalue : dump to_chars m.2 = dump to_chars m'.2) : DumpsMember to_chars m' entry := by
  obtain ⟨escaped, text, hescaped, htext, rfl⟩ := h
  exact ⟨escaped, text, by rw [← hkey, hescaped], by rw [← hvalue, htext], by rw [hkey]⟩

theorem DumpsMember.unique {m : Bytes × Json} {entry entry' : Bytes × Bytes}
    (h : DumpsMember to_chars m entry) (h' : DumpsMember to_chars m entry') : entry = entry' := by
  obtain ⟨escaped, text, hescaped, htext, rfl⟩ := h
  obtain ⟨escaped', text', hescaped', htext', rfl⟩ := h'
  rw [hescaped] at hescaped'
  rw [htext] at htext'
  cases hescaped'
  cases htext'
  rfl

theorem exists_forall₂ {α β : Type} {R : α → β → Prop} {xs : List α}
    (h : ∀ x ∈ xs, ∃ y, R x y) : ∃ ys, List.Forall₂ R xs ys := by
  induction xs with
  | nil => exact ⟨[], .nil⟩
  | cons x xs ih =>
    obtain ⟨y, hy⟩ := h x List.mem_cons_self
    obtain ⟨ys, hys⟩ := ih fun x' hx' => h x' (List.mem_cons_of_mem x hx')
    exact ⟨y :: ys, .cons hy hys⟩

/-- Two lists of members with the same keys, under which the same is dumped. -/
structure SameDumps (to_chars : UInt64 → Bytes) (members members' : List (Bytes × Json)) :
    Prop where
  nodup : (members.map Prod.fst).Nodup
  nodup' : (members'.map Prod.fst).Nodup
  keys : ∀ key, members.lookup key = none ↔ members'.lookup key = none
  values : ∀ key v v', members.lookup key = some v → members'.lookup key = some v' →
    dump to_chars v = dump to_chars v'

namespace SameDumps

variable {members members' : List (Bytes × Json)}

theorem symm (h : SameDumps to_chars members members') : SameDumps to_chars members' members :=
  ⟨h.nodup', h.nodup, fun key => (h.keys key).symm,
    fun key v v' hv hv' => (h.values key v' v hv' hv).symm⟩

theorem counterpart (h : SameDumps to_chars members members') {m : Bytes × Json}
    (hm : m ∈ members) : ∃ m' ∈ members', m.1 = m'.1 ∧ dump to_chars m.2 = dump to_chars m'.2 := by
  have hlookup := (Relations.lookup_eq_some_iff_mem h.nodup).mpr hm
  cases hlookup' : members'.lookup m.1 with
  | none =>
    rw [← h.keys, hlookup] at hlookup'
    cases hlookup'
  | some v' =>
    exact ⟨(m.1, v'), (Relations.lookup_eq_some_iff_mem h.nodup').mp hlookup', rfl,
      h.values m.1 m.2 v' hlookup hlookup'⟩

theorem mem_entries (h : SameDumps to_chars members members')
    {entries entries' : List (Bytes × Bytes)}
    (hentries : List.Forall₂ (DumpsMember to_chars) members entries)
    (hentries' : List.Forall₂ (DumpsMember to_chars) members' entries') {entry : Bytes × Bytes}
    (hentry : entry ∈ entries) : entry ∈ entries' := by
  obtain ⟨m, hm, hdumps⟩ := Transactions.forall₂_exists hentries.flip hentry
  obtain ⟨m', hm', hkey, hvalue⟩ := h.counterpart hm
  obtain ⟨entry', hentry', hdumps'⟩ := Transactions.forall₂_exists hentries' hm'
  obtain rfl : entry = entry' := (DumpsMember.congr hdumps hkey hvalue).unique hdumps'
  exact hentry'

/-- The same entries, in some order. -/
theorem perm (h : SameDumps to_chars members members') {entries : List (Bytes × Bytes)}
    (hdump : dumpMembers to_chars members = some entries) :
    ∃ entries', dumpMembers to_chars members' = some entries' ∧ entries.Perm entries' := by
  have hentries := dumpMembers_eq_some_iff.mp hdump
  have hdumps : ∀ m' ∈ members', ∃ entry, DumpsMember to_chars m' entry := by
    intro m' hm'
    obtain ⟨m, hm, hkey, hvalue⟩ := h.symm.counterpart hm'
    obtain ⟨entry, -, hdumps⟩ := Transactions.forall₂_exists hentries hm
    exact ⟨entry, hdumps.congr hkey.symm hvalue.symm⟩
  obtain ⟨entries', hentries'⟩ := exists_forall₂ hdumps
  refine ⟨entries', dumpMembers_eq_some_iff.mpr hentries', ?_⟩
  have hnodup : entries.Nodup := .of_map Prod.fst (DumpsMember.keys hentries ▸ h.nodup)
  have hnodup' : entries'.Nodup := .of_map Prod.fst (DumpsMember.keys hentries' ▸ h.nodup')
  refine (List.perm_ext_iff_of_nodup hnodup hnodup').mpr fun entry => ?_
  exact ⟨h.mem_entries hentries hentries', h.symm.mem_entries hentries' hentries⟩

/-- A map is dumped in one way. -/
theorem dump_eq (h : SameDumps to_chars members members') :
    dump to_chars (.object members) = dump to_chars (.object members') := by
  rw [dump, dump]
  cases hdump : dumpMembers to_chars members with
  | none =>
    cases hdump' : dumpMembers to_chars members' with
    | none => rfl
    | some entries' =>
      obtain ⟨entries, hentries, -⟩ := h.symm.perm hdump'
      rw [hdump] at hentries
      cases hentries
  | some entries =>
    obtain ⟨entries', hdump', hperm⟩ := h.perm hdump
    have hnodup : (entries.map Prod.fst).Nodup := by
      rw [DumpsMember.keys (dumpMembers_eq_some_iff.mp hdump)]
      exact h.nodup
    rw [hdump']
    simp only [Option.bind_eq_bind, Option.bind_some]
    rw [Relations.sortByKey_eq_of_perm hnodup hperm]

end SameDumps

/-- Documents that are the same up to the order of members are dumped alike. -/
theorem dump_same {P Q : UInt64 → Prop} {j j' : Json} (h : j.Same j') (hj : Representable P j)
    (hj' : Representable Q j') : dump to_chars j = dump to_chars j' := by
  induction h with
  | refl => rfl
  | nonFinite bits hbits =>
    have hfinite : isfinite bits = false := by simpa [isfinite] using hbits
    rw [dump, dump, dump_float, hfinite]
    rfl
  | array hlength _ ih =>
    cases hj with
    | array hitems =>
      cases hj' with
      | array hitems' =>
        rw [dump, dump, dumpItems_congr hlength]
        intro i j j' hget hget'
        exact ih i j j' hget hget' (hitems j (List.mem_of_getElem? hget))
          (hitems' j' (List.mem_of_getElem? hget'))
  | @object members members' hkeys _ ih =>
    cases hj with
    | object hnodup hmembers =>
      cases hj' with
      | object hnodup' hmembers' =>
        apply SameDumps.dump_eq
        refine ⟨hnodup, hnodup', hkeys, fun key v v' hv hv' => ?_⟩
        exact ih key v v' hv hv'
          (hmembers _ ((Relations.lookup_eq_some_iff_mem hnodup).mp hv))
          (hmembers' _ ((Relations.lookup_eq_some_iff_mem hnodup').mp hv'))

/-! ## The canonical form -/

theorem keys_canonicalMembers (members : List (Bytes × Json)) :
    (canonicalMembers members).map Prod.fst = members.map Prod.fst := by
  rw [canonicalMembers_eq, List.map_map]
  rfl

theorem keys_sortByKey_nodup {members : List (Bytes × Json)} (h : (members.map Prod.fst).Nodup) :
    ((Relations.sortByKey (canonicalMembers members)).map Prod.fst).Nodup := by
  rw [((Relations.sortByKey_perm _).map Prod.fst).nodup_iff, keys_canonicalMembers]
  exact h

theorem lookup_map_snd (f : Json → Json) (members : List (Bytes × Json)) (key : Bytes) :
    (members.map fun m => (m.1, f m.2)).lookup key = (members.lookup key).map f := by
  induction members with
  | nil => rfl
  | cons m members ih =>
    rw [List.map_cons, List.lookup_cons, List.lookup_cons, ih]
    split <;> rfl

theorem lookup_canonical {members : List (Bytes × Json)} (h : (members.map Prod.fst).Nodup)
    (key : Bytes) : (Relations.sortByKey (canonicalMembers members)).lookup key =
      (members.lookup key).map canonical := by
  rw [Relations.lookup_of_perm (keys_sortByKey_nodup h) (Relations.sortByKey_perm _),
    canonicalMembers_eq, lookup_map_snd]

theorem same_canonical {P : UInt64 → Prop} {j : Json} (h : Representable P j) :
    j.Same (canonical j) := by
  induction h with
  | null | boolean | number | string => exact .refl _
  | @number_float bits _ =>
    rw [canonical]
    split_ifs with hfinite
    · exact .refl _
    · exact .nonFinite bits (by simpa [isfinite] using hfinite)
  | @array items _ ih =>
    rw [canonical, canonicalItems_eq]
    refine .array (List.length_map _).symm fun i j j' hj hj' => ?_
    rw [List.getElem?_map, hj] at hj'
    cases hj'
    exact ih j (List.mem_of_getElem? hj)
  | @object members hkeys _ ih =>
    rw [canonical]
    refine .object (fun key => ?_) fun key v v' hv hv' => ?_
    · rw [lookup_canonical hkeys, Option.map_eq_none_iff]
    · rw [lookup_canonical hkeys, hv] at hv'
      cases hv'
      exact ih (key, v) ((Relations.lookup_eq_some_iff_mem hkeys).mp hv)

theorem Representable.canonical {P : UInt64 → Prop} {j : Json} (h : Representable P j) :
    Representable (fun bits => isfinite bits) (canonical j) := by
  induction h with
  | null => exact .null
  | boolean b => exact .boolean b
  | number h => exact .number h
  | string s => exact .string s
  | number_float =>
    rw [Nlohmann.canonical]
    split_ifs with hfinite
    · exact .number_float hfinite
    · exact .null
  | array _ ih =>
    rw [Nlohmann.canonical, canonicalItems_eq]
    refine .array fun j hj => ?_
    obtain ⟨item, hitem, rfl⟩ := List.mem_map.mp hj
    exact ih item hitem
  | object hkeys _ ih =>
    rw [Nlohmann.canonical]
    refine .object (keys_sortByKey_nodup hkeys) fun m hm => ?_
    rw [(Relations.sortByKey_perm _).mem_iff, canonicalMembers_eq] at hm
    obtain ⟨member, hmember, rfl⟩ := List.mem_map.mp hm
    exact ih member hmember

/-! ## Texts that are not UTF-8 -/

theorem isText_iff {s : Bytes} : IsText s ↔ Unicode.IsUtf8 s := by
  constructor
  · rintro ⟨text, rfl⟩
    exact ⟨text.toList, (str_eq_flatMap text).symm⟩
  · rintro ⟨cs, rfl⟩
    refine ⟨String.ofList cs, ?_⟩
    rw [str_eq_flatMap, String.toList_ofList]

theorem exists_dump_escaped {s : Bytes} (h : IsText s) : ∃ out, dump_escaped s = some out :=
  Option.isSome_iff_exists.mp (dump_escaped_isSome_iff.mpr (isText_iff.mp h))

theorem isText_of_dump_escaped {s out : Bytes} (h : dump_escaped s = some out) : IsText s :=
  isText_iff.mpr (dump_escaped_isSome_iff.mp (Option.isSome_iff_exists.mpr ⟨out, h⟩))

theorem exists_dump {j : Json} (h : j.IsUtf8) : ∃ text, dump to_chars j = some text := by
  induction h with
  | null | boolean | number | number_float => exact ⟨_, by rw [dump]⟩
  | string h =>
    obtain ⟨out, hout⟩ := exists_dump_escaped h
    exact ⟨_, by rw [dump, hout]; rfl⟩
  | array _ ih =>
    obtain ⟨texts, htexts⟩ := exists_forall₂ ih
    exact ⟨_, by rw [dump, dumpItems_eq_some_iff.mpr htexts]; rfl⟩
  | @object members hkeys _ ih =>
    have hmembers : ∀ m ∈ members, ∃ entry, DumpsMember to_chars m entry := by
      intro m hm
      obtain ⟨escaped, hescaped⟩ := exists_dump_escaped (hkeys m hm)
      obtain ⟨text, htext⟩ := ih m hm
      exact ⟨_, escaped, text, hescaped, htext, rfl⟩
    obtain ⟨entries, hentries⟩ := exists_forall₂ hmembers
    exact ⟨_, by rw [dump, dumpMembers_eq_some_iff.mpr hentries]; rfl⟩

mutual

theorem isUtf8_of_dump : ∀ (j : Json) {text : Bytes}, dump to_chars j = some text → j.IsUtf8
  | .null, _, _ => .null
  | .boolean b, _, _ => .boolean b
  | .number n, _, _ => .number n
  | .number_float bits, _, _ => .number_float bits
  | .string s, _, h => by
    rw [dump] at h
    obtain ⟨out, hout, -⟩ := Option.bind_eq_some_iff.mp h
    exact .string (isText_of_dump_escaped hout)
  | .array items, _, h => by
    rw [dump] at h
    obtain ⟨texts, htexts, -⟩ := Option.bind_eq_some_iff.mp h
    exact .array (isUtf8_of_dumpItems items htexts)
  | .object members, _, h => by
    rw [dump] at h
    obtain ⟨entries, hentries, -⟩ := Option.bind_eq_some_iff.mp h
    have hmembers := isUtf8_of_dumpMembers members hentries
    exact .object (fun m hm => (hmembers m hm).1) fun m hm => (hmembers m hm).2

theorem isUtf8_of_dumpItems : ∀ (items : List Json) {texts : List Bytes},
    dumpItems to_chars items = some texts → ∀ j ∈ items, j.IsUtf8
  | [], _, _ => by simp
  | item :: items, _, h => by
    rw [dumpItems] at h
    obtain ⟨text, htext, h⟩ := Option.bind_eq_some_iff.mp h
    obtain ⟨texts, htexts, -⟩ := Option.bind_eq_some_iff.mp h
    exact List.forall_mem_cons.mpr ⟨isUtf8_of_dump item htext, isUtf8_of_dumpItems items htexts⟩

theorem isUtf8_of_dumpMembers :
    ∀ (members : List (Bytes × Json)) {entries : List (Bytes × Bytes)},
      dumpMembers to_chars members = some entries → ∀ m ∈ members, IsText m.1 ∧ m.2.IsUtf8
  | [], _, _ => by simp
  | (key, value) :: members, _, h => by
    rw [dumpMembers] at h
    obtain ⟨escaped, hescaped, h⟩ := Option.bind_eq_some_iff.mp h
    obtain ⟨text, htext, h⟩ := Option.bind_eq_some_iff.mp h
    obtain ⟨entries, hentries, -⟩ := Option.bind_eq_some_iff.mp h
    exact List.forall_mem_cons.mpr
      ⟨⟨isText_of_dump_escaped hescaped, isUtf8_of_dump value htext⟩,
        isUtf8_of_dumpMembers members hentries⟩

end

/-- `dump` throws on the documents with a text that is not UTF-8, and on no others. -/
theorem dump_isSome_iff (to_chars : UInt64 → Bytes) (j : Json) :
    (dump to_chars j).isSome ↔ j.IsUtf8 := by
  rw [Option.isSome_iff_exists]
  constructor
  · rintro ⟨text, h⟩
    exact isUtf8_of_dump j h
  · exact exists_dump

end LoginServer.Nlohmann
