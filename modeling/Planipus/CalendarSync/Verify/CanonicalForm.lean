import Planipus.CalendarSync.CanonicalJson
import Planipus.Library.Outcomes

/-!
# Canonical JSON is a canonical form

`form` is the document whose text `canonicalizeJson` writes. A string can be read back from its text
(`stringify_spelling`), so the text determines the document; and two values have one document exactly
when they are the `Same` (`form_eq_iff`).
-/

namespace Planipus.CalendarSync

open Library

/-! ## Values -/

/-- The members of an object that are not `undefined`. -/
def defined (members : List (CodeUnits × Option JsonValue)) : List (CodeUnits × JsonValue) :=
  members.filterMap fun m => m.2.map fun member => (m.1, member)

theorem defined_none (key : CodeUnits) (members : List (CodeUnits × Option JsonValue)) :
    defined ((key, none) :: members) = defined members := rfl

theorem defined_some (key : CodeUnits) (member : JsonValue)
    (members : List (CodeUnits × Option JsonValue)) :
    defined ((key, some member) :: members) = (key, member) :: defined members := rfl

/-- The values that a value is made of. -/
def JsonValue.parts : JsonValue → List JsonValue
  | .array items => items
  | .object members => (defined members).map Prod.snd
  | .null | .boolean _ | .number _ | .string _ => []

theorem sizeOf_part {p v : JsonValue} (hp : p ∈ v.parts) : sizeOf p < sizeOf v := by
  cases v with
  | null | boolean value | number value | string value => exact absurd hp List.not_mem_nil
  | array items =>
    have hlt := List.sizeOf_lt_of_mem (show p ∈ items from hp)
    simp only [JsonValue.array.sizeOf_spec]
    omega
  | object members =>
    obtain ⟨m, hm, rfl⟩ := List.mem_map.1 (show p ∈ (defined members).map Prod.snd from hp)
    obtain ⟨⟨key, member⟩, hmember, hdefined⟩ := List.mem_filterMap.1 hm
    obtain ⟨value, rfl, rfl⟩ := Option.map_eq_some_iff.1 hdefined
    have hlt := List.sizeOf_lt_of_mem hmember
    simp only [JsonValue.object.sizeOf_spec, Prod.mk.sizeOf_spec, Option.some.sizeOf_spec] at hlt ⊢
    omega

theorem JsonValue.part_induction {P : JsonValue → Prop}
    (step : ∀ v : JsonValue, (∀ p ∈ v.parts, P p) → P v) (v : JsonValue) : P v :=
  step v fun p hp =>
    have := sizeOf_part hp
    part_induction step p
termination_by sizeOf v

/-- The value is the other one or a part in its depth. -/
inductive Inside (w : JsonValue) : JsonValue → Prop
  | refl : Inside w w
  | part {p v : JsonValue} : p ∈ v.parts → Inside w p → Inside w v

theorem forall_inside_iff (P : JsonValue → Prop) (v : JsonValue) :
    (∀ w, Inside w v → P w) ↔ P v ∧ ∀ p ∈ v.parts, ∀ w, Inside w p → P w := by
  constructor
  · intro h
    exact ⟨h v .refl, fun p hp w hw => h w (.part hp hw)⟩
  · rintro ⟨hv, hparts⟩ w hw
    cases hw with
    | refl => exact hv
    | part hp hw => exact hparts _ hp w hw

section Values

variable (nfc : CodeUnits → CodeUnits)

/-- The normalized keys of the members. -/
def keysOf (members : List (CodeUnits × JsonValue)) : List CodeUnits :=
  members.map fun m => nfc m.1

/-- A number that is not a safe integer, or an object with NFC-equivalent keys. -/
def Faulty : JsonValue → Prop
  | .number value => value.safeInteger? = none
  | .object members => ¬(keysOf nfc (defined members)).Nodup
  | .null | .boolean _ | .string _ | .array _ => False

/-- Nothing in the value is faulty. -/
def Sound (v : JsonValue) : Prop := ∀ w, Inside w v → ¬Faulty nfc w

theorem sound_iff (v : JsonValue) :
    Sound nfc v ↔ ¬Faulty nfc v ∧ ∀ p ∈ v.parts, Sound nfc p := forall_inside_iff _ v

end Values

/-- The number, with one zero. -/
def JsNumber.unsigned : JsNumber → JsNumber
  | .negativeZero => .finite 0
  | .nan => .nan
  | .infinity negative => .infinity negative
  | .finite value => .finite value

/-- The values are equal up to the order of members, members that are `undefined`, NFC and the sign of
zero: the defined members of objects can be listed so that they correspond. -/
inductive Same (nfc : CodeUnits → CodeUnits) : JsonValue → JsonValue → Prop
  | null : Same nfc .null .null
  | boolean (value : Bool) : Same nfc (.boolean value) (.boolean value)
  | number {n n' : JsNumber} : n.unsigned = n'.unsigned → Same nfc (.number n) (.number n')
  | string {s s' : CodeUnits} : nfc s = nfc s' → Same nfc (.string s) (.string s')
  | array {items items' : List JsonValue} :
      List.Forall₂ (Same nfc) items items' → Same nfc (.array items) (.array items')
  | object {members members' : List (CodeUnits × Option JsonValue)}
      {listed listed' : List (CodeUnits × JsonValue)} :
      listed.Perm (defined members) → listed'.Perm (defined members') →
      keysOf nfc listed = keysOf nfc listed' →
      List.Forall₂ (Same nfc) (listed.map Prod.snd) (listed'.map Prod.snd) →
      Same nfc (.object members) (.object members')

/-! ## The document -/

section Document

variable (nfc : CodeUnits → CodeUnits)

mutual

/-- The document of a value; nothing is said about its faulty parts. -/
def form : JsonValue → JsonDoc CodeUnits
  | .null => .null
  | .boolean value => .bool value
  | .number value => .integer (value.safeInteger?.getD 0)
  | .string value => .string (nfc value)
  | .array items => .array (formItems items)
  | .object members => .object ((formMembers members).insertionSort keyBefore)

def formItems : List JsonValue → List (JsonDoc CodeUnits)
  | [] => []
  | item :: items => form item :: formItems items

def formMembers : List (CodeUnits × Option JsonValue) → List (CodeUnits × JsonDoc CodeUnits)
  | [] => []
  | (_, none) :: members => formMembers members
  | (key, some member) :: members => (nfc key, form member) :: formMembers members

end

theorem formItems_eq (items : List JsonValue) : formItems nfc items = items.map (form nfc) := by
  induction items with
  | nil => rfl
  | cons item items ih => rw [formItems, ih, List.map_cons]

/-- The members as the document has them. -/
def entriesOf (listed : List (CodeUnits × JsonValue)) :
    List (CodeUnits × JsonDoc CodeUnits) :=
  listed.map fun m => (nfc m.1, form nfc m.2)

theorem formMembers_eq (members : List (CodeUnits × Option JsonValue)) :
    formMembers nfc members = entriesOf nfc (defined members) := by
  induction members with
  | nil => rfl
  | cons m members ih =>
    obtain ⟨key, _ | member⟩ := m
    · rw [formMembers, ih, defined_none]
    · rw [formMembers, ih, defined_some, entriesOf, entriesOf, List.map_cons]

theorem canonicalizeItems_eq (items : List JsonValue) :
    canonicalizeItems nfc items = items.mapM (canonicalizeJson nfc) := by
  induction items with
  | nil => rfl
  | cons item items ih =>
    rw [canonicalizeItems, ih, List.mapM_cons]
    cases canonicalizeJson nfc item with
    | error e => rfl
    | ok text =>
      cases items.mapM (canonicalizeJson nfc) with
      | error e => rfl
      | ok texts => rfl

theorem canonicalizeMembers_eq (members : List (CodeUnits × Option JsonValue)) :
    canonicalizeMembers nfc members =
      (defined members).map fun m => (nfc m.1, canonicalizeJson nfc m.2) := by
  induction members with
  | nil => rfl
  | cons m members ih =>
    obtain ⟨key, _ | member⟩ := m
    · rw [canonicalizeMembers, ih, defined_none]
    · rw [canonicalizeMembers, ih, defined_some, List.map_cons]

end Document

/-! ## Strings -/

def hexValue (c : Nat) : Nat := if c < 58 then c - 48 else c - 87

theorem hexValue_hexDigit {n : Nat} (h : n < 16) : hexValue (hexDigit n) = n := by
  unfold hexValue hexDigit
  by_cases hn : n < 10
  · rw [if_pos hn, if_pos (by omega)]
    omega
  · rw [if_neg hn, if_neg (by omega)]
    omega

def readHex : CodeUnits → Option (Nat × CodeUnits)
  | a :: b :: c :: d :: rest =>
    some (4096 * hexValue a + 256 * hexValue b + 16 * hexValue c + hexValue d, rest)
  | _ => none

def readShort (c : Nat) : Nat :=
  if c = 98 then 8
  else if c = 116 then 9
  else if c = 110 then 10
  else if c = 102 then 12
  else if c = 114 then 13
  else c

/-- The rest of an escape, behind the backslash. -/
def readEscape : CodeUnits → Option (Nat × CodeUnits)
  | [] => none
  | c :: rest => if c = 117 then readHex rest else some (readShort c, rest)

/-- The first code unit of a string in its text, and the text after it; `none` where the string ends. -/
def readUnit : CodeUnits → Option (Nat × CodeUnits)
  | [] => none
  | c :: rest =>
    if c = 34 then none
    else if c = 92 then readEscape rest
    else some (c, rest)

theorem readUnit_quote (r : CodeUnits) : readUnit (34 :: r) = none := rfl

theorem readUnit_plain {c : Nat} (hquote : c ≠ 34) (hslash : c ≠ 92) (r : CodeUnits) :
    readUnit (c :: r) = some (c, r) := by
  rw [readUnit, if_neg hquote, if_neg hslash]

theorem readUnit_unicodeEscape {c : Nat} (hc : c < 65536) (r : CodeUnits) :
    readUnit (unicodeEscape c ++ r) = some (c, r) := by
  have hread : readUnit (unicodeEscape c ++ r) =
      some (4096 * hexValue (hexDigit (c / 4096 % 16)) + 256 * hexValue (hexDigit (c / 256 % 16)) +
        16 * hexValue (hexDigit (c / 16 % 16)) + hexValue (hexDigit (c % 16)), r) := rfl
  rw [hread, hexValue_hexDigit (by omega), hexValue_hexDigit (by omega),
    hexValue_hexDigit (by omega), hexValue_hexDigit (by omega)]
  congr 2
  omega

theorem isHighSurrogate_iff (c : Nat) : isHighSurrogate c = true ↔ 0xD800 ≤ c ∧ c ≤ 0xDBFF := by
  simp [isHighSurrogate]

theorem isLowSurrogate_iff (c : Nat) : isLowSurrogate c = true ↔ 0xDC00 ≤ c ∧ c ≤ 0xDFFF := by
  simp [isLowSurrogate]

/-- A unit that is written reads back as itself. -/
theorem readUnit_quoteUnit (c : Nat) (r : CodeUnits) :
    readUnit (quoteUnit c ++ r) = some (c, r) := by
  unfold quoteUnit
  split_ifs with h8 h9 h10 h12 h13 h34 h92 hescaped
  · rw [h8]
    rfl
  · rw [h9]
    rfl
  · rw [h10]
    rfl
  · rw [h12]
    rfl
  · rw [h13]
    rfl
  · rw [h34]
    rfl
  · rw [h92]
    rfl
  · simp only [Bool.or_eq_true, decide_eq_true_eq, isHighSurrogate_iff, isLowSurrogate_iff]
      at hescaped
    exact readUnit_unicodeEscape (by omega) r
  · exact readUnit_plain h34 h92 r

/-- The text spells the string, unit by unit. -/
inductive Spells : CodeUnits → CodeUnits → Prop
  | nil : Spells [] []
  | cons {c : Nat} {s t u : CodeUnits} :
      (∀ r, readUnit (u ++ r) = some (c, r)) → Spells s t → Spells (c :: s) (u ++ t)

theorem spells_quoteUnits (s : CodeUnits) : Spells s (quoteUnits s) := by
  induction s using quoteUnits.induct with
  | case1 => exact .nil
  | case2 c =>
    have h := Spells.cons (readUnit_quoteUnit c) .nil
    rwa [List.append_nil] at h
  | case3 c d rest hpair ih =>
    rw [quoteUnits, if_pos hpair]
    rw [Bool.and_eq_true, isHighSurrogate_iff, isLowSurrogate_iff] at hpair
    have hd : Spells (d :: rest) ([d] ++ quoteUnits rest) :=
      .cons (readUnit_plain (by omega) (by omega)) ih
    exact Spells.cons (u := [c]) (readUnit_plain (by omega) (by omega)) hd
  | case4 c d rest hpair ih =>
    rw [quoteUnits, if_neg hpair]
    exact .cons (readUnit_quoteUnit c) ih

/-- The closing quotation mark shows where a string ends. -/
theorem Spells.decodable {s s' t t' r r' : CodeUnits} (hs : Spells s t) (hs' : Spells s' t')
    (h : t ++ 34 :: r = t' ++ 34 :: r') : s = s' ∧ r = r' := by
  induction hs generalizing s' t' with
  | nil =>
    cases hs' with
    | nil => exact ⟨rfl, (List.cons_eq_cons.1 h).2⟩
    | cons hread _ =>
      have hnone := readUnit_quote r
      rw [show 34 :: r = _ from h, List.append_assoc, hread] at hnone
      cases hnone
  | cons hread _ ih =>
    cases hs' with
    | nil =>
      have hnone := readUnit_quote r'
      rw [show 34 :: r' = _ from h.symm, List.append_assoc, hread] at hnone
      cases hnone
    | cons hread' hrest' =>
      rw [List.append_assoc, List.append_assoc] at h
      have hsame := congrArg readUnit h
      rw [hread, hread'] at hsame
      obtain ⟨rfl, hrest⟩ := Prod.mk.inj (Option.some.inj hsame)
      obtain ⟨rfl, hend⟩ := ih hrest' hrest
      exact ⟨rfl, hend⟩

theorem stringify_spelling : Spelling stringifyString where
  quoted s := ⟨quoteUnits s ++ [34], rfl⟩
  decodable s s' r r' h := by
    have hbody : quoteUnits s ++ 34 :: r = quoteUnits s' ++ 34 :: r' := by
      simpa only [stringifyString, List.cons_append, List.append_assoc, List.nil_append,
        List.cons.injEq, true_and] using h
    exact (spells_quoteUnits s).decodable (spells_quoteUnits s') hbody

/-! ## The text of a value -/

section Canonical

variable {nfc : CodeUnits → CodeUnits}

/-- The defined members in the order of their normalized keys. -/
def inOrder (nfc : CodeUnits → CodeUnits) (members : List (CodeUnits × Option JsonValue)) :
    List (CodeUnits × JsonValue) :=
  (defined members).insertionSort fun left right => ¬lessThan (nfc right.1) (nfc left.1)

theorem inOrder_perm (members : List (CodeUnits × Option JsonValue)) :
    (inOrder nfc members).Perm (defined members) := List.perm_insertionSort _ _

/-- Sorting the entries is sorting the members. -/
theorem sort_entries {α : Type} (f : JsonValue → α) (members : List (CodeUnits × Option JsonValue)) :
    ((defined members).map fun m => (nfc m.1, f m.2)).insertionSort keyBefore =
      (inOrder nfc members).map fun m => (nfc m.1, f m.2) :=
  (List.map_insertionSort (fun left right => ¬lessThan (nfc right.1) (nfc left.1)) keyBefore
    (fun m => (nfc m.1, f m.2)) (defined members) fun _ _ _ _ => Iff.rfl).symm

theorem form_object (members : List (CodeUnits × Option JsonValue)) :
    form nfc (.object members) =
      .object (entriesOf nfc (inOrder nfc members)) := by
  rw [form, formMembers_eq, entriesOf, sort_entries, entriesOf]

theorem canonicalizeJson_object (members : List (CodeUnits × Option JsonValue))
    (hkeys : (keysOf nfc (defined members)).Nodup) :
    canonicalizeJson nfc (.object members) =
      ((inOrder nfc members).mapM fun m =>
        memberText (nfc m.1, canonicalizeJson nfc m.2)).map (bracketed 123 125) := by
  have hnodup : ((canonicalizeMembers nfc members).map Prod.fst).Nodup := by
    rw [canonicalizeMembers_eq, List.map_map]
    exact hkeys
  rw [canonicalizeJson, if_pos hnodup, canonicalizeMembers_eq, sort_entries, List.mapM_map]
  rfl

theorem canonicalNumber_safe {n : JsNumber} {i : Int} (h : n.safeInteger? = some i) :
    canonicalNumber n = .ok (asciiUnits (toString i)) := by
  cases n with
  | nan | infinity negative => cases h
  | negativeZero | finite value =>
    rw [canonicalNumber, h]
    rfl

theorem canonicalNumber_unsafe {n : JsNumber} (h : n.safeInteger? = none) :
    ∃ e, canonicalNumber n = .error e := by
  rw [canonicalNumber, h]
  cases n.isFinite with
  | true => exact ⟨_, rfl⟩
  | false => exact ⟨_, rfl⟩

/-- A sound value has the text of its document. -/
theorem canonicalizeJson_of_sound (v : JsonValue) (hv : Sound nfc v) :
    canonicalizeJson nfc v = .ok ((form nfc v).render stringifyString) := by
  induction v using JsonValue.part_induction with
  | step v ih =>
    obtain ⟨hfaulty, hparts⟩ := (sound_iff nfc v).1 hv
    cases v with
    | null => rfl
    | boolean value =>
      cases value with
      | true => rfl
      | false => rfl
    | number value =>
      obtain ⟨i, hi⟩ := Option.ne_none_iff_exists'.1 hfaulty
      rw [canonicalizeJson, canonicalNumber_safe hi, form, hi]
      rfl
    | string value => rfl
    | array items =>
      have hitems : items.mapM (canonicalizeJson nfc) =
          .ok (items.map fun item => (form nfc item).render stringifyString) :=
        mapM_eq_map fun item hitem => ih item hitem (hparts item hitem)
      rw [canonicalizeJson, canonicalizeItems_eq, hitems, form, JsonDoc.render,
        JsonDoc.renderItems_eq, formItems_eq, List.map_map]
      rfl
    | object members =>
      have hmembers : (inOrder nfc members).mapM
          (fun m => memberText (nfc m.1, canonicalizeJson nfc m.2)) =
          .ok ((inOrder nfc members).map fun m =>
            stringifyString (nfc m.1) ++ 58 :: (form nfc m.2).render stringifyString) := by
        refine mapM_eq_map fun m hm => ?_
        have hpart := List.mem_map_of_mem (f := Prod.snd) ((inOrder_perm members).mem_iff.1 hm)
        rw [memberText, ih m.2 hpart (hparts m.2 hpart)]
        rfl
      rw [canonicalizeJson_object members (not_not.1 hfaulty), hmembers, form_object, JsonDoc.render,
        JsonDoc.renderMembers_eq, entriesOf, List.map_map]
      rfl

/-- A value that is not sound has no text. -/
theorem canonicalizeJson_of_not_sound (v : JsonValue) (hv : ¬Sound nfc v) :
    ∃ e, canonicalizeJson nfc v = .error e := by
  induction v using JsonValue.part_induction with
  | step v ih =>
    rw [sound_iff] at hv
    push Not at hv
    by_cases hfaulty : Faulty nfc v
    · cases v with
      | null | boolean value | string value | array items => cases hfaulty
      | number value => exact canonicalNumber_unsafe hfaulty
      | object members =>
        have hdup : ¬((canonicalizeMembers nfc members).map Prod.fst).Nodup := by
          rw [canonicalizeMembers_eq, List.map_map]
          exact hfaulty
        rw [canonicalizeJson, if_neg hdup]
        exact ⟨_, rfl⟩
    · obtain ⟨p, hp, hnot⟩ := hv hfaulty
      obtain ⟨e, he⟩ := ih p hp hnot
      cases v with
      | null | boolean value | number value | string value => exact absurd hp List.not_mem_nil
      | array items =>
        obtain ⟨e', he'⟩ := mapM_fails (f := canonicalizeJson nfc) (show p ∈ items from hp) he
        rw [canonicalizeJson, canonicalizeItems_eq, he']
        exact ⟨e', rfl⟩
      | object members =>
        obtain ⟨m, hm, rfl⟩ := List.mem_map.1 (show p ∈ (defined members).map Prod.snd from hp)
        have hmember : memberText (nfc m.1, canonicalizeJson nfc m.2) = .error e := by
          rw [memberText, he]
          rfl
        obtain ⟨e', he'⟩ := mapM_fails
          (f := fun m => memberText (nfc m.1, canonicalizeJson nfc m.2))
          ((inOrder_perm members).mem_iff.2 hm) hmember
        rw [canonicalizeJson_object members (not_not.1 hfaulty), he']
        exact ⟨e', rfl⟩

instance keyBefore_total {α : Type} : Std.Total (keyBefore (α := α)) :=
  ⟨fun a b => List.le_total a.1 b.1⟩

instance keyBefore_trans {α : Type} : IsTrans (CodeUnits × α) keyBefore :=
  ⟨fun _ _ _ hab hbc => List.le_trans (α := Nat) hab hbc⟩

/-- The keys are distinct, so the members have one order. -/
theorem sort_eq_of_perm {α : Type} {l l' : List (CodeUnits × α)} (hperm : l.Perm l')
    (hnodup : (l.map Prod.fst).Nodup) :
    l.insertionSort keyBefore = l'.insertionSort keyBefore := by
  have hsorted : (l.insertionSort keyBefore).Perm (l'.insertionSort keyBefore) :=
    (List.perm_insertionSort _ _).trans (hperm.trans (List.perm_insertionSort _ _).symm)
  refine List.Perm.eq_of_pairwise ?_ (List.pairwise_insertionSort keyBefore l)
    (List.pairwise_insertionSort keyBefore l') hsorted
  intro a b ha hb hab hba
  have hkey : a.1 = b.1 := List.le_antisymm (α := Nat) hab hba
  have hmem : b ∈ l := hperm.mem_iff.2 ((List.mem_insertionSort _).1 hb)
  exact List.inj_on_of_nodup_map hnodup ((List.mem_insertionSort _).1 ha) hmem hkey

theorem unsigned_eq_iff {n n' : JsNumber} (h : n.safeInteger? ≠ none) (h' : n'.safeInteger? ≠ none) :
    n.safeInteger?.getD 0 = n'.safeInteger?.getD 0 ↔ n.unsigned = n'.unsigned := by
  have safe : ∀ n : JsNumber, n.safeInteger? ≠ none →
      n.unsigned = .finite (n.safeInteger?.getD 0 : Int) := by
    intro n hn
    cases n with
    | nan | infinity negative => exact absurd rfl hn
    | negativeZero => rfl
    | finite value =>
      rw [JsNumber.safeInteger?] at hn ⊢
      split_ifs at hn ⊢ with hsafe
      · rw [Bool.and_eq_true, Rat.isInt, beq_iff_eq] at hsafe
        rw [Option.getD_some, JsNumber.unsigned, Rat.coe_int_num_of_den_eq_one hsafe.1]
      · exact absurd rfl hn
  rw [safe n h, safe n' h', JsNumber.finite.injEq, Rat.intCast_inj]

section Same

variable {items items' : List JsonValue} {listed listed' : List (CodeUnits × JsonValue)}

theorem forms_eq_iff
    (hitems : ∀ v ∈ items, ∀ v', Sound nfc v' → (form nfc v = form nfc v' ↔ Same nfc v v'))
    (hsound : ∀ v' ∈ items', Sound nfc v') :
    items.map (form nfc) = items'.map (form nfc) ↔ List.Forall₂ (Same nfc) items items' := by
  induction items generalizing items' with
  | nil =>
    cases items' with
    | nil => simp
    | cons v' items' => simp
  | cons v items ih =>
    cases items' with
    | nil => simp
    | cons v' items' =>
      rw [List.map_cons, List.map_cons, List.cons_eq_cons, List.forall₂_cons,
        hitems v (.head _) v' (hsound v' (.head _)),
        ih (fun w hw => hitems w (.tail _ hw)) fun w hw => hsound w (.tail _ hw)]

theorem entries_keys (listed : List (CodeUnits × JsonValue)) :
    (entriesOf nfc listed).map Prod.fst = keysOf nfc listed := by
  rw [entriesOf, List.map_map]
  rfl

theorem entries_eq_iff : entriesOf nfc listed = entriesOf nfc listed' ↔
    keysOf nfc listed = keysOf nfc listed' ∧
      (listed.map Prod.snd).map (form nfc) = (listed'.map Prod.snd).map (form nfc) := by
  have hvalues : ∀ listed : List (CodeUnits × JsonValue),
      (entriesOf nfc listed).map Prod.snd = (listed.map Prod.snd).map (form nfc) := by
    intro listed
    rw [entriesOf, List.map_map, List.map_map]
    rfl
  constructor
  · intro h
    rw [← entries_keys, ← entries_keys, ← hvalues, ← hvalues, h]
    exact ⟨rfl, rfl⟩
  · rintro ⟨hkeys, hforms⟩
    have hzip : ∀ listed : List (CodeUnits × JsonValue), entriesOf nfc listed =
        (keysOf nfc listed).zip ((listed.map Prod.snd).map (form nfc)) :=
      fun listed => List.zip_of_prod (entries_keys listed) (hvalues listed)
    rw [hzip, hzip, hkeys, hforms]

end Same

/-- Two sound values have one document exactly when they are the same. -/
theorem form_eq_iff (v v' : JsonValue) (hv : Sound nfc v) (hv' : Sound nfc v') :
    form nfc v = form nfc v' ↔ Same nfc v v' := by
  induction v using JsonValue.part_induction generalizing v' with
  | step v ih =>
    obtain ⟨hfaulty, hparts⟩ := (sound_iff nfc v).1 hv
    obtain ⟨hfaulty', hparts'⟩ := (sound_iff nfc v').1 hv'
    have hpart : ∀ p ∈ v.parts, ∀ p', Sound nfc p' → (form nfc p = form nfc p' ↔ Same nfc p p') :=
      fun p hp p' hp' => ih p hp p' (hparts p hp) hp'
    constructor
    · intro h
      cases v with
      | null =>
        cases v' <;> cases h
        exact .null
      | boolean value =>
        cases v' <;> cases h
        exact .boolean value
      | number value =>
        cases v' <;> simp only [form, JsonDoc.integer.injEq, reduceCtorEq] at h
        exact .number ((unsigned_eq_iff hfaulty hfaulty').1 h)
      | string value =>
        cases v' <;> simp only [form, JsonDoc.string.injEq, reduceCtorEq] at h
        exact .string h
      | array items =>
        cases v' <;> simp only [form, JsonDoc.array.injEq, formItems_eq, reduceCtorEq] at h
        exact .array ((forms_eq_iff hpart hparts').1 h)
      | object members =>
        rw [form_object] at h
        cases v' with
        | null | boolean value | number value | string value | array items => cases h
        | object members' =>
          rw [form_object] at h
          obtain ⟨hkeys, hforms⟩ := entries_eq_iff.1 (JsonDoc.object.inj h)
          refine .object (inOrder_perm members) (inOrder_perm members') hkeys ?_
          refine (forms_eq_iff (fun p hp => hpart p ?_) fun p' hp' => hparts' p' ?_).1 hforms
          · exact ((inOrder_perm members).map Prod.snd).mem_iff.1 hp
          · exact ((inOrder_perm members').map Prod.snd).mem_iff.1 hp'
    · intro h
      cases h with
      | null => rfl
      | boolean value => rfl
      | number h =>
        rw [form, form, (unsigned_eq_iff hfaulty hfaulty').2 h]
      | string h => rw [form, form, h]
      | array h =>
        have hforms := (forms_eq_iff hpart hparts').2 h
        simp only [JsonValue.parts] at hforms
        rw [form, form, formItems_eq, formItems_eq, hforms]
      | object hperm hperm' hkeys hvalues =>
        have hforms := (forms_eq_iff
          (fun p hp => hpart p ((hperm.map Prod.snd).mem_iff.1 hp))
          fun p' hp' => hparts' p' ((hperm'.map Prod.snd).mem_iff.1 hp')).2 hvalues
        have hentries := entries_eq_iff.2 ⟨hkeys, hforms⟩
        have hboth := ((hperm.map _).symm.trans (.of_eq hentries)).trans (hperm'.map _)
        rw [form, form, formMembers_eq, formMembers_eq]
        refine congrArg JsonDoc.object (sort_eq_of_perm hboth ?_)
        rw [entries_keys]
        exact not_not.1 hfaulty

theorem sound_of_ok {v : JsonValue} {text : CodeUnits} (h : canonicalizeJson nfc v = .ok text) :
    Sound nfc v := by
  by_contra hv
  obtain ⟨e, he⟩ := canonicalizeJson_of_not_sound v hv
  rw [h] at he
  cases he

theorem texts_eq_iff {v v' : JsonValue} {text text' : CodeUnits}
    (h : canonicalizeJson nfc v = .ok text) (h' : canonicalizeJson nfc v' = .ok text') :
    text = text' ↔ Same nfc v v' := by
  have hv := sound_of_ok h
  have hv' := sound_of_ok h'
  rw [canonicalizeJson_of_sound v hv] at h
  rw [canonicalizeJson_of_sound v' hv'] at h'
  rw [← Except.ok.inj h, ← Except.ok.inj h', ← form_eq_iff v v' hv hv']
  exact ⟨JsonDoc.render_inj stringify_spelling, fun hform => by rw [hform]⟩

theorem rejected_iff (v : JsonValue) :
    (∃ e, canonicalizeJson nfc v = .error e) ↔ ∃ w, Inside w v ∧ Faulty nfc w := by
  have hsound : (∃ w, Inside w v ∧ Faulty nfc w) ↔ ¬Sound nfc v := by
    simp only [Sound, not_forall, not_not, exists_prop]
  rw [hsound]
  constructor
  · rintro ⟨e, he⟩ hv
    rw [canonicalizeJson_of_sound v hv] at he
    cases he
  · exact canonicalizeJson_of_not_sound v

end Canonical

end Planipus.CalendarSync
