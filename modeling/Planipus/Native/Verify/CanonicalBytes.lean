import Mathlib.Data.List.Pairwise
import Planipus.CalendarSync.Verify.CanonicalForm
import Planipus.Library.Utf16
import Planipus.Native.CanonicalJson

/-!
# The canonical bytes of the two editions

`toJs` is a value of the Mac as the server has it. The two editions write the same characters and the
same numerals, and reject the same values; they order keys by code units and by scalars. So the bytes
are the same unless two keys of an object clash (`sameBytes_iff`).
-/

namespace Planipus.Native

open Library CalendarSync

/-! ## Values -/

def utf16 (s : String) : CodeUnits := units s.toList

theorem utf16_injective {s s' : String} (h : utf16 s = utf16 s') : s = s' :=
  String.toList_inj.1 (units_injective h)

mutual

/-- The value on the server. -/
def JSONValue.toJs : JSONValue → JsonValue
  | .object members => .object (JSONValue.membersToJs members)
  | .array values => .array (JSONValue.valuesToJs values)
  | .string value => .string (utf16 value)
  | .number value => .number value
  | .bool value => .boolean value
  | .null => .null

def JSONValue.valuesToJs : List JSONValue → List JsonValue
  | [] => []
  | value :: values => value.toJs :: JSONValue.valuesToJs values

def JSONValue.membersToJs : List (String × JSONValue) → List (CodeUnits × Option JsonValue)
  | [] => []
  | (key, member) :: members => (utf16 key, some member.toJs) :: JSONValue.membersToJs members

end

namespace JSONValue

theorem valuesToJs_eq (values : List JSONValue) : valuesToJs values = values.map toJs := by
  induction values with
  | nil => rfl
  | cons value values ih => rw [valuesToJs, ih, List.map_cons]

theorem defined_membersToJs (members : List (String × JSONValue)) :
    defined (membersToJs members) = members.map fun m => (utf16 m.1, m.2.toJs) := by
  induction members with
  | nil => rfl
  | cons m members ih =>
    obtain ⟨key, member⟩ := m
    rw [membersToJs, defined_some, ih, List.map_cons]

/-- The values that a value is made of. -/
def parts : JSONValue → List JSONValue
  | .array values => values
  | .object members => members.map Prod.snd
  | .null | .bool _ | .number _ | .string _ => []

theorem parts_toJs (v : JSONValue) : v.toJs.parts = v.parts.map toJs := by
  cases v with
  | null | bool value | number value | string value => rfl
  | array values => rw [toJs, JsonValue.parts, valuesToJs_eq, parts]
  | object members =>
    rw [toJs, JsonValue.parts, defined_membersToJs, parts, List.map_map, List.map_map]
    rfl

theorem sizeOf_part {p v : JSONValue} (hp : p ∈ v.parts) : sizeOf p < sizeOf v := by
  cases v with
  | null | bool value | number value | string value => exact absurd hp List.not_mem_nil
  | array values =>
    have hlt := List.sizeOf_lt_of_mem (show p ∈ values from hp)
    simp only [JSONValue.array.sizeOf_spec]
    omega
  | object members =>
    obtain ⟨⟨key, member⟩, hm, rfl⟩ := List.mem_map.1 (show p ∈ members.map Prod.snd from hp)
    have hlt := List.sizeOf_lt_of_mem hm
    simp only [JSONValue.object.sizeOf_spec, Prod.mk.sizeOf_spec] at hlt ⊢
    omega

theorem part_induction {P : JSONValue → Prop}
    (step : ∀ v : JSONValue, (∀ p ∈ v.parts, P p) → P v) (v : JSONValue) : P v :=
  step v fun p hp =>
    have := sizeOf_part hp
    part_induction step p
termination_by sizeOf v

end JSONValue

/-! ## Characters -/

theorem quoteUnits_cons {c : Nat} (h : c < 0xD800 ∨ 0xE000 ≤ c) (s : CodeUnits) :
    quoteUnits (c :: s) = quoteUnit c ++ quoteUnits s := by
  cases s with
  | nil => rw [quoteUnits, quoteUnits, List.append_nil]
  | cons d s =>
    have hnot : ¬(isHighSurrogate c && isLowSurrogate d) = true := by
      rw [Bool.and_eq_true, isHighSurrogate_iff]
      omega
    rw [quoteUnits, if_neg hnot]

theorem quoteUnits_pair {h l : Nat} (hh : 0xD800 ≤ h ∧ h < 0xDC00) (hl : 0xDC00 ≤ l ∧ l < 0xE000)
    (s : CodeUnits) : quoteUnits (h :: l :: s) = h :: l :: quoteUnits s := by
  have hpair : (isHighSurrogate h && isLowSurrogate l) = true := by
    rw [Bool.and_eq_true, isHighSurrogate_iff, isLowSurrogate_iff]
    omega
  rw [quoteUnits, if_pos hpair]

theorem unitsOf_hexChar : ∀ n < 16, unitsOf (hexChar n) = [hexDigit n] := by decide

theorem units_escapedScalar {c : Char} (hc : c.toNat < 0x10000)
    (hc' : c.toNat < 0xD800 ∨ 0xE000 ≤ c.toNat) : units (escapedScalar c) = quoteUnit c.toNat := by
  unfold escapedScalar quoteUnit
  have hsurrogate : (isHighSurrogate c.toNat || isLowSurrogate c.toNat) = false := by
    rw [Bool.or_eq_false_iff, ← Bool.not_eq_true, ← Bool.not_eq_true, isHighSurrogate_iff,
      isLowSurrogate_iff]
    omega
  have hcontrol : (c.toNat < 32) = (c.toNat ≤ 0x1F) := propext (by omega)
  rw [Bool.or_assoc, hsurrogate, Bool.or_false]
  simp only [decide_eq_true_eq, hcontrol]
  split_ifs
  · rfl
  · rfl
  · rfl
  · rfl
  · rfl
  · rfl
  · rfl
  · simp only [units_cons, units_nil, unitsOf_hexChar _ (Nat.mod_lt _ (by decide : 16 > 0))]
    rfl
  · rw [units_cons, unitsOf_basic hc]
    rfl

/-- The two editions escape alike. -/
theorem units_escapedScalars (text : List Char) :
    units (text.flatMap escapedScalar) = quoteUnits (units text) := by
  induction text with
  | nil => rfl
  | cons c text ih =>
    rw [List.flatMap_cons, units_append, ih, units_cons]
    rcases unitsOf_cases c with ⟨hc, hlt, hrange⟩ | ⟨h, l, hc, hh, hl, hnumber⟩
    · rw [units_escapedScalar hlt hrange, hc, List.singleton_append, quoteUnits_cons hrange]
    · have hescaped : escapedScalar c = [c] := by
        unfold escapedScalar
        simp only
        rw [if_neg (by omega), if_neg (by omega), if_neg (by omega), if_neg (by omega),
          if_neg (by omega), if_neg (by omega), if_neg (by omega), if_neg (by omega)]
      rw [hescaped, units_cons, units_nil, List.append_nil, hc]
      exact (quoteUnits_pair hh hl _).symm

theorem units_escapedJSONString (s : String) :
    units (escapedJSONString s) = stringifyString (utf16 s) := by
  rw [escapedJSONString, units_cons, units_append, units_escapedScalars]
  rfl

theorem units_toString (i : Int) : units (toString i).toList = asciiUnits (toString i) := by
  refine unitsOf_ascii fun c hc => ?_
  have hmem : c.toNat ∈ asciiUnits (toString i) := List.mem_map_of_mem hc
  rcases units_int i with ⟨k, -, hk⟩ | ⟨k, -, hk⟩
  · rw [hk] at hmem
    have hdigit := units_digit _ hmem
    omega
  · rw [hk] at hmem
    rcases List.mem_cons.1 hmem with hminus | hmem
    · omega
    · have hdigit := units_digit _ hmem
      omega

theorem units_joined {opening closing : Char} (hopening : opening.toNat < 0x10000)
    (hclosing : closing.toNat < 0x10000) (texts : List (List Char)) :
    units (joined opening closing texts) =
      bracketed opening.toNat closing.toNat (texts.map units) := by
  have hcommas : ∀ texts : List (List Char),
      units ([','].intercalate texts) = [44].intercalate (texts.map units) := by
    intro texts
    induction texts with
    | nil => rfl
    | cons text texts ih =>
      cases texts with
      | nil => simp [List.intercalate]
      | cons text' texts =>
        rw [List.intercalate_cons_cons, units_append, units_append, ih, List.map_cons, List.map_cons,
          List.map_cons, List.intercalate_cons_cons]
        rfl
  rw [joined, units_cons, unitsOf_basic hopening, units_append, hcommas, units_cons,
    unitsOf_basic hclosing]
  rfl

/-! ## The document -/

section Document

variable (precomposed : String → String)

mutual

/-- The document of a value on the Mac. -/
def macForm : JSONValue → JsonDoc CodeUnits
  | .null => .null
  | .bool value => .bool value
  | .number value => .integer (value.safeInteger?.getD 0)
  | .string value => .string (utf16 (precomposed value))
  | .array values => .array (macForms values)
  | .object members =>
    .object (((macMembers members).insertionSort (sortedBefore precomposed)).map fun entry =>
      (utf16 entry.1, entry.2))

def macForms : List JSONValue → List (JsonDoc CodeUnits)
  | [] => []
  | value :: values => macForm value :: macForms values

def macMembers : List (String × JSONValue) → List (String × JsonDoc CodeUnits)
  | [] => []
  | (key, member) :: members => (precomposed key, macForm member) :: macMembers members

end

theorem macForms_eq (values : List JSONValue) :
    macForms precomposed values = values.map (macForm precomposed) := by
  induction values with
  | nil => rfl
  | cons value values ih => rw [macForms, ih, List.map_cons]

theorem macMembers_eq (members : List (String × JSONValue)) :
    macMembers precomposed members =
      members.map fun m => (precomposed m.1, macForm precomposed m.2) := by
  induction members with
  | nil => rfl
  | cons m members ih =>
    obtain ⟨key, member⟩ := m
    rw [macMembers, ih, List.map_cons]

theorem canonicalValues_eq (values : List JSONValue) :
    canonicalValues precomposed values = values.mapM (canonicalJSON precomposed) := by
  induction values with
  | nil => rfl
  | cons value values ih =>
    rw [canonicalValues, ih, List.mapM_cons]
    cases canonicalJSON precomposed value with
    | error e => rfl
    | ok text =>
      cases values.mapM (canonicalJSON precomposed) with
      | error e => rfl
      | ok texts => rfl

/-- The members in the order of their normalized keys. -/
def macOrder (members : List (String × JSONValue)) : List (String × JSONValue) :=
  members.insertionSort fun left right =>
    ¬lessThan (comparedScalars precomposed (precomposed right.1))
      (comparedScalars precomposed (precomposed left.1))

variable {precomposed} in
theorem macOrder_perm (members : List (String × JSONValue)) :
    (macOrder precomposed members).Perm members := List.perm_insertionSort _ _

theorem sort_members {α : Type} (f : JSONValue → α) (members : List (String × JSONValue)) :
    (members.map fun m => (precomposed m.1, f m.2)).insertionSort (sortedBefore precomposed) =
      (macOrder precomposed members).map fun m => (precomposed m.1, f m.2) :=
  (List.map_insertionSort (fun left right =>
      ¬lessThan (comparedScalars precomposed (precomposed right.1))
        (comparedScalars precomposed (precomposed left.1)))
    (sortedBefore precomposed) (fun m => (precomposed m.1, f m.2)) members
    fun _ _ _ _ => Iff.rfl).symm

theorem macForm_object (members : List (String × JSONValue)) :
    macForm precomposed (.object members) =
      .object ((macOrder precomposed members).map fun m =>
        (utf16 (precomposed m.1), macForm precomposed m.2)) := by
  rw [macForm, macMembers_eq, sort_members, List.map_map]
  rfl

end Document

/-- What the two normal forms have to do with each other: they are one form of a string, and a string in
the form is left as it is. -/
structure NormalForm (nfc : CodeUnits → CodeUnits) (precomposed : String → String) : Prop where
  same : ∀ s, nfc (utf16 s) = utf16 (precomposed s)
  idempotent : ∀ s, precomposed (precomposed s) = precomposed s

section Text

variable {nfc : CodeUnits → CodeUnits} {precomposed : String → String}
  (hnormal : NormalForm nfc precomposed)

include hnormal

theorem normalizeMembers_cons (normalized : List (String × Except String (List Char)))
    (hkeys : ∀ entry ∈ normalized, precomposed entry.1 = entry.1) (m : String × JSONValue)
    (members : List (String × JSONValue)) :
    normalizeMembers precomposed normalized (m :: members) =
      if precomposed m.1 ∈ normalized.map Prod.fst then
        .error "Canonical JSON contains NFC-equivalent duplicate keys"
      else
        normalizeMembers precomposed
          (normalized ++ [(precomposed m.1, canonicalJSON precomposed m.2)]) members := by
  have hany : (normalized.any fun entry => equalStrings precomposed entry.1 (precomposed m.1)) =
      decide (precomposed m.1 ∈ normalized.map Prod.fst) := by
    rw [Bool.eq_iff_iff, List.any_eq_true, decide_eq_true_eq, List.mem_map]
    refine exists_congr fun entry => and_congr_right fun hentry => ?_
    rw [decide_eq_true_eq, equalStrings, hkeys entry hentry, hnormal.idempotent]
  rw [normalizeMembers, hany]
  simp only [decide_eq_true_eq]

/-- The loop takes every member if their keys differ in the normal form, and stops if they do not. -/
theorem normalizeMembers_spec (members : List (String × JSONValue))
    (normalized : List (String × Except String (List Char)))
    (hkeys : ∀ entry ∈ normalized, precomposed entry.1 = entry.1)
    (hnodup : (normalized.map Prod.fst).Nodup) :
    if (normalized.map Prod.fst ++ members.map fun m => precomposed m.1).Nodup then
      normalizeMembers precomposed normalized members =
        .ok (normalized ++ members.map fun m => (precomposed m.1, canonicalJSON precomposed m.2))
    else ∃ e, normalizeMembers precomposed normalized members = .error e := by
  induction members generalizing normalized with
  | nil =>
    rw [List.map_nil, List.append_nil, if_pos hnodup, List.map_nil, List.append_nil, normalizeMembers]
  | cons m members ih =>
    rw [normalizeMembers_cons hnormal normalized hkeys]
    by_cases hmem : precomposed m.1 ∈ normalized.map Prod.fst
    · rw [if_pos hmem, if_neg]
      · exact ⟨_, rfl⟩
      · intro h
        exact (List.nodup_append.1 h).2.2 _ hmem _ (.head _) rfl
    · rw [if_neg hmem]
      have hkeys' : ∀ entry ∈ normalized ++ [(precomposed m.1, canonicalJSON precomposed m.2)],
          precomposed entry.1 = entry.1 := by
        intro entry hentry
        rcases List.mem_append.1 hentry with hentry | hentry
        · exact hkeys entry hentry
        · rw [List.mem_singleton.1 hentry]
          exact hnormal.idempotent m.1
      have hnodup' : ((normalized ++ [(precomposed m.1, canonicalJSON precomposed m.2)]).map
          Prod.fst).Nodup := by
        rw [List.map_append]
        refine List.nodup_append.2 ⟨hnodup, List.nodup_singleton _, ?_⟩
        intro a ha b hb hab
        rw [hab, List.mem_singleton.1 hb] at ha
        exact hmem ha
      have hspec := ih _ hkeys' hnodup'
      rwa [List.map_append, List.append_assoc, List.append_assoc] at hspec

/-- The keys that the server compares are those that the Mac compares. -/
theorem keysOf_membersToJs (members : List (String × JSONValue)) :
    keysOf nfc (defined (JSONValue.membersToJs members)) =
      members.map fun m => utf16 (precomposed m.1) := by
  rw [JSONValue.defined_membersToJs, keysOf, List.map_map]
  exact List.map_congr_left fun m _ => hnormal.same m.1

theorem faulty_object (members : List (String × JSONValue)) :
    Faulty nfc (JSONValue.object members).toJs ↔ ¬(members.map fun m => precomposed m.1).Nodup := by
  rw [JSONValue.toJs, Faulty, keysOf_membersToJs hnormal]
  have hmap : (members.map fun m => utf16 (precomposed m.1)) =
      (members.map fun m => precomposed m.1).map utf16 := by
    rw [List.map_map]
    rfl
  rw [hmap, List.nodup_map_iff fun _ _ => utf16_injective]

omit hnormal in
theorem canonicalDouble_safe {n : JsNumber} {i : Int} (h : n.safeInteger? = some i) :
    canonicalDouble n = .ok (toString i).toList := by
  cases n with
  | nan | infinity negative => cases h
  | negativeZero =>
    cases h
    rfl
  | finite value =>
    rw [JsNumber.safeInteger?] at h
    split_ifs at h with hsafe
    cases h
    rw [canonicalDouble, if_pos hsafe]

omit hnormal in
theorem canonicalDouble_unsafe {n : JsNumber} (h : n.safeInteger? = none) :
    ∃ e, canonicalDouble n = .error e := by
  cases n with
  | nan | infinity negative => exact ⟨_, rfl⟩
  | negativeZero => cases h
  | finite value =>
    rw [JsNumber.safeInteger?] at h
    split_ifs at h with hsafe
    rw [canonicalDouble, if_neg hsafe]
    exact ⟨_, rfl⟩

theorem canonicalJSON_object (members : List (String × JSONValue))
    (hnodup : (members.map fun m => precomposed m.1).Nodup) :
    canonicalJSON precomposed (.object members) =
      ((macOrder precomposed members).mapM fun m =>
        memberJSON (precomposed m.1, canonicalJSON precomposed m.2)).map (joined '\x7b' '\x7d') := by
  have hspec := normalizeMembers_spec hnormal members [] (fun _ h => nomatch h) List.nodup_nil
  rw [List.map_nil, List.nil_append, if_pos hnodup, List.nil_append] at hspec
  rw [canonicalJSON, hspec]
  simp only
  rw [sort_members, List.mapM_map]
  rfl

/-- A sound value has the text of its document on the Mac. -/
theorem canonicalJSON_of_sound (v : JSONValue) (hv : Sound nfc v.toJs) :
    ∃ text, canonicalJSON precomposed v = .ok text ∧
      units text = (macForm precomposed v).render stringifyString := by
  induction v using JSONValue.part_induction with
  | step v ih =>
    obtain ⟨hfaulty, hparts⟩ := (sound_iff nfc v.toJs).1 hv
    have hpart : ∀ p ∈ v.parts, ∃ text, canonicalJSON precomposed p = .ok text ∧
        units text = (macForm precomposed p).render stringifyString := by
      intro p hp
      refine ih p hp (hparts p.toJs ?_)
      rw [JSONValue.parts_toJs]
      exact List.mem_map_of_mem hp
    choose! text htext hunits using hpart
    cases v with
    | null =>
      refine ⟨_, rfl, ?_⟩
      rw [macForm, JsonDoc.render]
      decide
    | bool value =>
      cases value with
      | true =>
        refine ⟨_, rfl, ?_⟩
        rw [macForm, JsonDoc.render]
        decide
      | false =>
        refine ⟨_, rfl, ?_⟩
        rw [macForm, JsonDoc.render]
        decide
    | number value =>
      obtain ⟨i, hi⟩ := Option.ne_none_iff_exists'.1 hfaulty
      refine ⟨_, canonicalDouble_safe hi, ?_⟩
      rw [units_toString, macForm, hi]
      rfl
    | string value => exact ⟨_, rfl, units_escapedJSONString _⟩
    | array values =>
      refine ⟨joined '[' ']' (values.map text), ?_, ?_⟩
      · have hvalues : values.mapM (canonicalJSON precomposed) = .ok (values.map text) := mapM_eq_map htext
        rw [canonicalJSON, canonicalValues_eq, hvalues]
        rfl
      · rw [units_joined (by decide) (by decide), macForm, JsonDoc.render, JsonDoc.renderItems_eq,
          macForms_eq, List.map_map, List.map_map]
        exact congrArg _ (List.map_congr_left hunits)
    | object members =>
      rw [faulty_object hnormal, not_not] at hfaulty
      have hmember : ∀ m ∈ macOrder precomposed members, m.2 ∈ (JSONValue.object members).parts :=
        fun m hm => List.mem_map_of_mem ((macOrder_perm members).mem_iff.1 hm)
      have htexts : (macOrder precomposed members).mapM
          (fun m => memberJSON (precomposed m.1, canonicalJSON precomposed m.2)) =
          .ok ((macOrder precomposed members).map fun m =>
            escapedJSONString (precomposed m.1) ++ ':' :: text m.2) := by
        refine mapM_eq_map fun m hm => ?_
        rw [memberJSON, htext m.2 (hmember m hm)]
        rfl
      refine ⟨_, by rw [canonicalJSON_object hnormal members hfaulty, htexts]; rfl, ?_⟩
      rw [units_joined (by decide) (by decide), macForm_object, JsonDoc.render,
        JsonDoc.renderMembers_eq, List.map_map, List.map_map]
      refine congrArg _ (List.map_congr_left fun m hm => ?_)
      simp only [Function.comp_apply, JsonDoc.memberText, units_append, units_cons,
        units_escapedJSONString, hunits m.2 (hmember m hm)]
      rfl

theorem canonicalJSON_of_not_sound (v : JSONValue) (hv : ¬Sound nfc v.toJs) :
    ∃ e, canonicalJSON precomposed v = .error e := by
  induction v using JSONValue.part_induction with
  | step v ih =>
    rw [sound_iff] at hv
    push Not at hv
    by_cases hfaulty : Faulty nfc v.toJs
    · cases v with
      | null | bool value | string value | array values => cases hfaulty
      | number value => exact canonicalDouble_unsafe hfaulty
      | object members =>
        rw [faulty_object hnormal] at hfaulty
        have hspec := normalizeMembers_spec hnormal members [] (fun _ h => nomatch h) List.nodup_nil
        rw [List.map_nil, List.nil_append, if_neg hfaulty] at hspec
        obtain ⟨e, he⟩ := hspec
        exact ⟨e, by rw [canonicalJSON, he]⟩
    · obtain ⟨p, hp, hnot⟩ := hv hfaulty
      rw [JSONValue.parts_toJs] at hp
      obtain ⟨q, hq, rfl⟩ := List.mem_map.1 hp
      obtain ⟨e, he⟩ := ih q hq hnot
      cases v with
      | null | bool value | number value | string value => exact absurd hq List.not_mem_nil
      | array values =>
        obtain ⟨e', he'⟩ := mapM_fails (f := canonicalJSON precomposed) (show q ∈ values from hq) he
        rw [canonicalJSON, canonicalValues_eq, he']
        exact ⟨e', rfl⟩
      | object members =>
        rw [faulty_object hnormal, not_not] at hfaulty
        obtain ⟨m, hm, rfl⟩ := List.mem_map.1 (show q ∈ members.map Prod.snd from hq)
        have hmember : memberJSON (precomposed m.1, canonicalJSON precomposed m.2) = .error e := by
          rw [memberJSON, he]
          rfl
        have hmem : m ∈ macOrder precomposed members := (macOrder_perm members).mem_iff.2 hm
        obtain ⟨e', he'⟩ := mapM_fails
          (f := fun m : String × JSONValue =>
            memberJSON (precomposed m.1, canonicalJSON precomposed m.2)) hmem hmember
        rw [canonicalJSON_object hnormal members hfaulty, he']
        exact ⟨e', rfl⟩

end Text

/-! ## The bytes -/

/-- Keys of an object clash. -/
def Clashing (nfc : CodeUnits → CodeUnits) : JsonValue → Prop
  | .object members =>
    ∃ k ∈ keysOf nfc (defined members), ∃ k' ∈ keysOf nfc (defined members), clash k k' = true
  | .null | .boolean _ | .number _ | .string _ | .array _ => False

/-- The Mac rejects the value, or its bytes are the UTF-8 of the text of the server. -/
def SameBytes (nfc : CodeUnits → CodeUnits) (precomposed : String → String) (v : JSONValue) : Prop :=
  ∀ bytes, encode precomposed v = .ok bytes →
    ∃ text, canonicalizeJson nfc v.toJs = .ok (utf16 text) ∧ bytes = text.toUTF8

section Bytes

variable {nfc : CodeUnits → CodeUnits} {precomposed : String → String}
  (hnormal : NormalForm nfc precomposed)

include hnormal

theorem sameBytes_iff_forms {v : JSONValue} (hv : Sound nfc v.toJs) :
    SameBytes nfc precomposed v ↔ macForm precomposed v = form nfc v.toJs := by
  obtain ⟨text, htext, hunits⟩ := canonicalJSON_of_sound hnormal v hv
  have hbytes : encode precomposed v = .ok (String.ofList text).toUTF8 := by
    rw [encode, htext]
    rfl
  constructor
  · intro h
    obtain ⟨text', hserver, hsame⟩ := h _ hbytes
    rw [canonicalizeJson_of_sound v.toJs hv] at hserver
    have htext' : String.ofList text = text' := String.toByteArray_inj.1 hsame
    refine JsonDoc.render_inj stringify_spelling ?_
    rw [← hunits, Except.ok.inj hserver, ← htext', utf16, String.toList_ofList]
  · intro h bytes hencode
    rw [hbytes] at hencode
    refine ⟨String.ofList text, ?_, (Except.ok.inj hencode).symm⟩
    rw [canonicalizeJson_of_sound v.toJs hv, ← h, ← hunits, utf16, String.toList_ofList]

/-- The members in the order of the server. -/
theorem form_membersToJs (members : List (String × JSONValue)) :
    form nfc (JSONValue.object members).toJs =
      .object ((members.insertionSort fun left right =>
        ¬lessThan (utf16 (precomposed right.1)) (utf16 (precomposed left.1))).map fun m =>
          (utf16 (precomposed m.1), form nfc m.2.toJs)) := by
  have hentries : entriesOf nfc (defined (JSONValue.membersToJs members)) =
      members.map fun m => (utf16 (precomposed m.1), form nfc m.2.toJs) := by
    rw [entriesOf, JSONValue.defined_membersToJs, List.map_map]
    refine List.map_congr_left fun m _ => ?_
    rw [Function.comp_apply, hnormal.same]
  rw [JSONValue.toJs, form, formMembers_eq, hentries]
  exact congrArg _ (List.map_insertionSort (fun left right : String × JSONValue =>
      ¬lessThan (utf16 (precomposed right.1)) (utf16 (precomposed left.1))) keyBefore
    (fun m => (utf16 (precomposed m.1), form nfc m.2.toJs)) members fun _ _ _ _ => Iff.rfl).symm

theorem comparedScalars_precomposed (s : String) :
    comparedScalars precomposed (precomposed s) = (precomposed s).toList.map Char.toNat := by
  rw [comparedScalars, hnormal.idempotent]

/-- Without clashes the orders are one. -/
theorem order_eq_of_noClash {members : List (String × JSONValue)}
    (hclash : ∀ m ∈ members, ∀ m' ∈ members,
      clash (utf16 (precomposed m.1)) (utf16 (precomposed m'.1)) = false) :
    macOrder precomposed members = members.insertionSort fun left right =>
      ¬lessThan (utf16 (precomposed right.1)) (utf16 (precomposed left.1)) := by
  have horders : ∀ left ∈ members, ∀ right ∈ members,
      ¬lessThan (comparedScalars precomposed (precomposed right.1))
        (comparedScalars precomposed (precomposed left.1)) ↔
      ¬lessThan (utf16 (precomposed right.1)) (utf16 (precomposed left.1)) := by
    intro left hleft right hright
    rw [comparedScalars_precomposed hnormal, comparedScalars_precomposed hnormal]
    refine not_congr ?_
    rcases order_cases (precomposed right.1).toList (precomposed left.1).toList with h | h | h
    · exact absurd h.clash (Bool.eq_false_iff.1 (hclash right hright left hleft))
    · exact absurd h.clash (Bool.eq_false_iff.1 (hclash left hleft right hright))
    · exact h.1.less
  have hmap := List.map_insertionSort _ (fun left right : String × JSONValue =>
    ¬lessThan (utf16 (precomposed right.1)) (utf16 (precomposed left.1))) id members horders
  rwa [List.map_id, List.map_id] at hmap

omit hnormal in
theorem pairwise_sort {α : Type} (f : α → List Nat) (l : List α) :
    (l.insertionSort fun a b => ¬lessThan (f b) (f a)).Pairwise fun a b => ¬lessThan (f b) (f a) := by
  have : Std.Total fun a b : α => ¬lessThan (f b) (f a) := ⟨fun a b => List.le_total (f a) (f b)⟩
  have : IsTrans α fun a b => ¬lessThan (f b) (f a) :=
    ⟨fun _ _ _ hab hbc => List.le_trans (α := Nat) hab hbc⟩
  exact List.pairwise_insertionSort _ l

/-- If the orders list the keys alike, none clash. -/
theorem noClash_of_order_eq {members : List (String × JSONValue)}
    (horder : (macOrder precomposed members).map (fun m => utf16 (precomposed m.1)) =
      (members.insertionSort fun left right =>
        ¬lessThan (utf16 (precomposed right.1)) (utf16 (precomposed left.1))).map fun m =>
          utf16 (precomposed m.1)) :
    ∀ m ∈ members, ∀ m' ∈ members,
      clash (utf16 (precomposed m.1)) (utf16 (precomposed m'.1)) = false := by
  let key : String × JSONValue → List Char := fun m => (precomposed m.1).toList
  have hinjective : Function.Injective units := fun _ _ => units_injective
  have hkeys : (macOrder precomposed members).map key = (members.insertionSort fun left right =>
      ¬lessThan (utf16 (precomposed right.1)) (utf16 (precomposed left.1))).map key := by
    refine hinjective.list_map ?_
    rw [List.map_map, List.map_map]
    exact horder
  have hscalars : ((macOrder precomposed members).map key).Pairwise fun a b => ¬scalarsLess b a := by
    rw [List.pairwise_map]
    refine (pairwise_sort (fun m : String × JSONValue => comparedScalars precomposed (precomposed m.1))
      members).imp fun {m m'} h => ?_
    rwa [comparedScalars_precomposed hnormal, comparedScalars_precomposed hnormal] at h
  have hunits : ((macOrder precomposed members).map key).Pairwise fun a b => ¬unitsLess b a := by
    rw [hkeys, List.pairwise_map]
    exact pairwise_sort (fun m : String × JSONValue => utf16 (precomposed m.1)) members
  -- Of any two keys one comes first, in both orders.
  have hfirst : ∀ a ∈ (macOrder precomposed members).map key,
      ∀ b ∈ (macOrder precomposed members).map key,
      (¬scalarsLess b a ∧ ¬unitsLess b a) ∨ (¬scalarsLess a b ∧ ¬unitsLess a b) := by
    have : Std.Symm fun a b : List Char =>
        (¬scalarsLess b a ∧ ¬unitsLess b a) ∨ (¬scalarsLess a b ∧ ¬unitsLess a b) :=
      ⟨fun _ _ => Or.symm⟩
    refine List.Pairwise.forall_of_forall (fun a _ => ?_) ((hscalars.and hunits).imp Or.inl)
    exact Or.inl ⟨List.lt_irrefl _, List.lt_irrefl _⟩
  intro m hm m' hm'
  refine Bool.eq_false_iff.2 fun hclash => ?_
  have hreversed := reversed_of_clash hclash
  rcases hfirst (key m) (List.mem_map_of_mem ((macOrder_perm members).mem_iff.2 hm))
    (key m') (List.mem_map_of_mem ((macOrder_perm members).mem_iff.2 hm')) with h | h
  · exact h.1 hreversed.scalars
  · exact h.2 hreversed.units

theorem clashing_object (members : List (String × JSONValue)) :
    ¬Clashing nfc (JSONValue.object members).toJs ↔ ∀ m ∈ members, ∀ m' ∈ members,
      clash (utf16 (precomposed m.1)) (utf16 (precomposed m'.1)) = false := by
  rw [JSONValue.toJs, Clashing, keysOf_membersToJs hnormal]
  constructor
  · intro h m hm m' hm'
    refine Bool.eq_false_iff.2 fun hclash => h ?_
    exact ⟨_, List.mem_map_of_mem hm, _, List.mem_map_of_mem hm', hclash⟩
  · rintro h ⟨k, hk, k', hk', hclash⟩
    obtain ⟨m, hm, rfl⟩ := List.mem_map.1 hk
    obtain ⟨m', hm', rfl⟩ := List.mem_map.1 hk'
    exact Bool.eq_false_iff.1 (h m hm m' hm') hclash

/-- The two documents of an object are one when its members have one document each and no keys
clash. -/
theorem forms_object_iff {members : List (String × JSONValue)}
    (hnodup : (members.map fun m => precomposed m.1).Nodup) :
    macForm precomposed (.object members) = form nfc (JSONValue.object members).toJs ↔
      ¬Clashing nfc (JSONValue.object members).toJs ∧
        ∀ m ∈ members, macForm precomposed m.2 = form nfc m.2.toJs := by
  rw [macForm_object, form_membersToJs hnormal, JsonDoc.object.injEq, clashing_object hnormal]
  constructor
  · intro h
    refine ⟨noClash_of_order_eq hnormal ?_, fun m hm => ?_⟩
    · have hkeys := congrArg (List.map Prod.fst) h
      rwa [List.map_map, List.map_map] at hkeys
    · have hmac : (utf16 (precomposed m.1), macForm precomposed m.2) ∈
          (macOrder precomposed members).map fun m =>
            (utf16 (precomposed m.1), macForm precomposed m.2) :=
        List.mem_map_of_mem ((macOrder_perm members).mem_iff.2 hm)
      rw [h] at hmac
      obtain ⟨m', hm', hentry⟩ := List.mem_map.1 hmac
      obtain ⟨hkey, hdocument⟩ := Prod.mk.inj hentry
      have hsame : m' = m :=
        List.inj_on_of_nodup_map hnodup ((List.mem_insertionSort _).1 hm') hm (utf16_injective hkey)
      rw [← hdocument, hsame]
  · rintro ⟨hclash, hdocuments⟩
    rw [order_eq_of_noClash hnormal hclash]
    refine List.map_congr_left fun m hm => ?_
    rw [hdocuments m ((List.mem_insertionSort _).1 hm)]

theorem forms_eq_iff_noClash (v : JSONValue) (hv : Sound nfc v.toJs) :
    macForm precomposed v = form nfc v.toJs ↔ ∀ w, Inside w v.toJs → ¬Clashing nfc w := by
  induction v using JSONValue.part_induction with
  | step v ih =>
    obtain ⟨hfaulty, hparts⟩ := (sound_iff nfc v.toJs).1 hv
    rw [JSONValue.parts_toJs, List.forall_mem_map] at hparts
    rw [forall_inside_iff, JSONValue.parts_toJs, List.forall_mem_map]
    have hpart : (∀ p ∈ v.parts, ∀ w, Inside w p.toJs → ¬Clashing nfc w) ↔
        ∀ p ∈ v.parts, macForm precomposed p = form nfc p.toJs :=
      forall₂_congr fun p hp => (ih p hp (hparts p hp)).symm
    rw [hpart]
    cases v with
    | null | bool value | number value =>
      exact ⟨fun _ => ⟨not_false, fun p hp => absurd hp List.not_mem_nil⟩, fun _ => rfl⟩
    | string value =>
      refine ⟨fun _ => ⟨not_false, fun p hp => absurd hp List.not_mem_nil⟩, fun _ => ?_⟩
      rw [macForm, JSONValue.toJs, form, hnormal.same]
    | array values =>
      rw [macForm, macForms_eq, JSONValue.toJs, form, formItems_eq, JSONValue.valuesToJs_eq,
        JsonDoc.array.injEq, List.map_map, List.map_inj_left]
      exact ⟨fun h => ⟨not_false, h⟩, fun h => h.2⟩
    | object members =>
      rw [faulty_object hnormal, not_not] at hfaulty
      rw [forms_object_iff hnormal hfaulty, JSONValue.parts, List.forall_mem_map]

/-- **Canonical JSON is a canonical form.** Texts are equal exactly when the values are the same; what
is rejected has a faulty part; and the Mac has the bytes of the server exactly for the values that both
reject and those without clashing keys. -/
theorem canonicalJson_canonical :
    (∀ v v' text text', canonicalizeJson nfc v = .ok text → canonicalizeJson nfc v' = .ok text' →
      (text = text' ↔ Same nfc v v')) ∧
    (∀ v, (∃ e, canonicalizeJson nfc v = .error e) ↔ ∃ w, Inside w v ∧ Faulty nfc w) ∧
    (∀ v, SameBytes nfc precomposed v ↔
      (∃ w, Inside w v.toJs ∧ Faulty nfc w) ∨ ∀ w, Inside w v.toJs → ¬Clashing nfc w) := by
  refine ⟨fun v v' text text' => texts_eq_iff, rejected_iff, fun v => ?_⟩
  rw [← rejected_iff]
  by_cases hv : Sound nfc v.toJs
  · have hnot : ¬∃ e, canonicalizeJson nfc v.toJs = .error e := by
      rintro ⟨e, he⟩
      rw [canonicalizeJson_of_sound v.toJs hv] at he
      cases he
    rw [sameBytes_iff_forms hnormal hv, forms_eq_iff_noClash hnormal v hv, or_iff_right hnot]
  · obtain ⟨e, he⟩ := canonicalJSON_of_not_sound hnormal v hv
    refine iff_of_true (fun bytes hbytes => ?_) (Or.inl (canonicalizeJson_of_not_sound v.toJs hv))
    rw [encode, he] at hbytes
    cases hbytes

end Bytes

/-- Text that both normal forms leave as it is. -/
theorem normalForm_id : NormalForm id id := ⟨fun _ => rfl, fun _ => rfl⟩

theorem canonicalJson_canonical_members :
    Same id
      (.object [([98], some (.number (.finite 2))), ([97], none), ([99], some (.number .negativeZero))])
      (.object [([99], some (.number (.finite 0))), ([98], some (.number (.finite 2)))]) :=
  ((canonicalJson_canonical normalForm_id).1 _ _ _ _ rfl rfl).1 rfl

/-- `U+FF5E` is before `U+1F600` on the Mac and behind it on the server. -/
def fullwidthAndEmoji : JSONValue :=
  .object [("\uff5e", .number (.finite 1)), (String.singleton (Char.ofNat 0x1F600), .number (.finite 2))]

theorem fullwidthAndEmoji_differs : ¬SameBytes id id fullwidthAndEmoji := by
  have hsound : Sound id fullwidthAndEmoji.toJs :=
    sound_of_ok (show canonicalizeJson id fullwidthAndEmoji.toJs = .ok _ from rfl)
  rw [sameBytes_iff_forms normalForm_id hsound, forms_eq_iff_noClash normalForm_id _ hsound]
  intro h
  refine h _ .refl ⟨[0xD83D, 0xDE00], ?_, [0xFF5E], ?_, ?_⟩
  · decide
  · decide
  · decide

end Planipus.Native
