import Planipus.Library.Reparse
import Planipus.Planning.Input

/-!
# The fields of a rule

What a field parser returns, it reads again as it is (`Library.Settles`): a trimmed text in normal form
is both, a time with seconds keeps them, sorted days are in order, and a default is one of the values.
`Documented` says what this takes of Unicode.
-/

namespace Planipus.Planning.Input

open CalendarSync Library

/-- What Unicode says about the parts of the runtime. -/
structure Runtime.Documented (rt : Runtime) : Prop where
  /-- Normal forms are closed under substrings. -/
  normalizeNFC_part : ∀ {s} t, s <:+: rt.normalizeNFC t → rt.normalizeNFC s = s
  /-- What is in lower case is so in normal form, and its substrings are. -/
  toLowerCase_part : ∀ {s} t, s <:+: rt.normalizeNFC (rt.toLowerCase t) → rt.toLowerCase s = s
  /-- No lower case of a character is a control or format character. -/
  toLowerCase_plain : ∀ s, (codePoints s).any rt.isControlOrFormat = false →
    (codePoints (rt.toLowerCase s)).any rt.isControlOrFormat = false

variable {rt : Runtime}

theorem require_eq_ok {holds : Bool} {message : String} {u : Unit} :
    require holds message = .ok u ↔ holds = true := by
  cases holds <;> simp [require]

/-! ## White space -/

theorem trim_part (text : CodeUnits) : trim text <:+: text :=
  (List.rdropWhile_prefix _ _).isInfix.trans (List.dropWhile_suffix _).isInfix

theorem trim_eq_self_of_ends {text : CodeUnits}
    (hhead : ∀ c ∈ text.head?, isWhiteSpace c = false)
    (hlast : ∀ c ∈ text.getLast?, isWhiteSpace c = false) : trim text = text := by
  have hleft : text.dropWhile isWhiteSpace = text := by
    cases text with
    | nil => rfl
    | cons c rest => exact List.dropWhile_cons_of_neg (by simp [hhead c rfl])
  rw [trim, hleft]
  refine List.rdropWhile_eq_self_iff.2 fun hne => ?_
  simp [hlast _ (List.getLast?_eq_some_getLast hne)]

theorem trim_of_no_space {text : CodeUnits} (h : ∀ c ∈ text, isWhiteSpace c = false) :
    trim text = text :=
  trim_eq_self_of_ends (fun c hc => h c (List.mem_of_mem_head? hc))
    fun c hc => h c (List.mem_of_getLast? hc)

theorem trim_trim (text : CodeUnits) : trim (trim text) = trim text := by
  refine trim_eq_self_of_ends (fun c hc => ?_) fun c hc => ?_
  · -- what is left of the end starts where the text does
    obtain ⟨rest, hrest⟩ := List.rdropWhile_prefix isWhiteSpace (text.dropWhile isWhiteSpace)
    have hhead : (text.dropWhile isWhiteSpace).head? = some c := by
      rw [← hrest, List.head?_append]
      rw [trim] at hc
      rw [hc]
      rfl
    have hnot := List.head?_dropWhile_not isWhiteSpace text
    rw [hhead] at hnot
    simpa using hnot
  · obtain ⟨hne, hlast⟩ := List.mem_getLast?_eq_getLast hc
    have hnot := List.rdropWhile_last_not isWhiteSpace _ hne
    rw [hlast]
    exact Bool.eq_false_iff.2 hnot

/-! ## Fields -/

theorem text_eq_ok {value : Option JsonValue} {field : String} {max : Nat} {result : CodeUnits} :
    Field.text rt value field max = .ok result ↔
      ∃ raw, value = some (.string raw) ∧ trim (rt.normalizeNFC raw) = result ∧
        (1 ≤ result.length && (codePoints result).length ≤ max &&
          !(codePoints result).any rt.isControlOrFormat) = true := by
  unfold Field.text
  constructor
  · intro h
    split at h
    · rename_i raw
      obtain ⟨_, hrequired, h⟩ := bind_eq_ok.1 h
      cases h
      exact ⟨raw, rfl, rfl, require_eq_ok.1 hrequired⟩
    · cases h
  · rintro ⟨raw, rfl, rfl, hrequired⟩
    exact bind_eq_ok.2 ⟨(), require_eq_ok.2 hrequired, rfl⟩

theorem text_settles (hrt : rt.Documented) (field : String) (max : Nat) :
    Settles (fun value => Field.text rt value field max) (fun result => some (text result)) := by
  intro value result h
  obtain ⟨raw, -, rfl, hrequired⟩ := text_eq_ok.1 h
  have hnormal : rt.normalizeNFC (trim (rt.normalizeNFC raw)) = trim (rt.normalizeNFC raw) :=
    hrt.normalizeNFC_part raw (trim_part _)
  exact text_eq_ok.2 ⟨_, rfl, by rw [hnormal, trim_trim], hrequired⟩

theorem optionalText_settles (hrt : rt.Documented) (field : String) (max : Nat) :
    Settles (fun value => Field.optionalText rt value field max) (·.map text) := by
  intro value result h
  cases result with
  | none => rfl
  | some result =>
    have htext : ∃ value, Field.text rt value field max = .ok result := by
      unfold Field.optionalText at h
      dsimp only at h
      split at h
      · cases h
      · cases h
      · cases h
      · obtain ⟨result', htext, heq⟩ := map_eq_ok.1 h
        cases heq
        exact ⟨_, htext⟩
    obtain ⟨value, htext⟩ := htext
    have hagain := text_settles hrt field max value result htext
    have hne : result ≠ [] := by
      obtain ⟨-, -, -, hrequired⟩ := text_eq_ok.1 htext
      rintro rfl
      simp at hrequired
    cases result with
    | nil => exact absurd rfl hne
    | cons c rest => exact map_eq_ok.2 ⟨_, hagain, rfl⟩

theorem id_eq_ok {value : Option JsonValue} {field : String} {result : CodeUnits} :
    Field.id rt value field = .ok result ↔
      value = some (.string result) ∧ (1 ≤ result.length && result.length ≤ 200 &&
        !(codePoints result).any rt.isControlOrFormat) = true := by
  unfold Field.id
  constructor
  · intro h
    split at h
    · obtain ⟨_, hrequired, h⟩ := bind_eq_ok.1 h
      cases h
      exact ⟨rfl, require_eq_ok.1 hrequired⟩
    · cases h
  · rintro ⟨rfl, hrequired⟩
    exact bind_eq_ok.2 ⟨(), require_eq_ok.2 hrequired, rfl⟩

theorem id_settles (field : String) :
    Settles (fun value => Field.id rt value field) (fun result => some (text result)) :=
  fun _ _ h => id_eq_ok.2 ⟨rfl, (id_eq_ok.1 h).2⟩

theorem ids_eq_ok {value : Option JsonValue} {field : String} {limit : Nat}
    {result : List CodeUnits} :
    Field.ids rt value field limit = .ok result ↔
      ∃ items, value = some (.array items) ∧ items.length ≤ limit ∧
        items.mapM (fun item => Field.id rt (some item) field) = .ok result ∧ result.Nodup := by
  unfold Field.ids
  constructor
  · intro h
    split at h
    · rename_i items
      obtain ⟨_, hlimit, h⟩ := bind_eq_ok.1 h
      obtain ⟨_, hids, h⟩ := bind_eq_ok.1 h
      obtain ⟨_, hunique, h⟩ := bind_eq_ok.1 h
      cases h
      exact ⟨items, rfl, of_decide_eq_true (require_eq_ok.1 hlimit), hids,
        of_decide_eq_true (require_eq_ok.1 hunique)⟩
    · cases h
  · rintro ⟨items, rfl, hlimit, hids, hunique⟩
    refine bind_eq_ok.2 ⟨(), require_eq_ok.2 (decide_eq_true hlimit), ?_⟩
    refine bind_eq_ok.2 ⟨_, hids, ?_⟩
    exact bind_eq_ok.2 ⟨(), require_eq_ok.2 (decide_eq_true hunique), rfl⟩

theorem ids_settles (field : String) (limit : Nat) :
    Settles (fun value => Field.ids rt value field limit)
      (fun result => some (.array (result.map text))) := by
  intro value result h
  obtain ⟨items, -, hlimit, hids, hunique⟩ := ids_eq_ok.1 h
  have hsettles : Settles (fun item => Field.id rt (some item) field) text :=
    fun item result h => id_settles field _ result h
  refine ids_eq_ok.2 ⟨_, rfl, ?_, hsettles.mapM hids, hunique⟩
  rwa [List.length_map, ← (mapM_eq_ok_iff.1 hids).length_eq]

theorem safeInteger?_number {n : Nat} (h : n ≤ maxSafe) :
    JsNumber.safeInteger? (.finite n) = some (n : Int) := by
  simp [JsNumber.safeInteger?, Rat.isInt, h]

theorem natAbs_le_of_safeInteger? {number : JsNumber} {n : Int} (h : number.safeInteger? = some n) :
    n.natAbs ≤ maxSafe := by
  cases number with
  | finite value =>
    unfold JsNumber.safeInteger? at h
    dsimp only at h
    split at h
    · rename_i hsafe
      cases h
      simp only [Bool.and_eq_true, decide_eq_true_eq] at hsafe
      exact hsafe.2
    · cases h
  | negativeZero =>
    cases h
    decide
  | nan => cases h
  | infinity negative => cases h

theorem integer_eq_ok {value : Option JsonValue} {field : String} {min max result : Nat} :
    Field.integer value field min max = .ok result ↔
      (min ≤ result ∧ result ≤ max) ∧
        ∃ raw : JsNumber, value = some (.number raw) ∧ raw.safeInteger? = some (result : Int) := by
  unfold Field.integer
  constructor
  · intro h
    split at h
    · rename_i raw
      split at h
      · rename_i n hsafe
        obtain ⟨_, hrequired, h⟩ := bind_eq_ok.1 h
        simp only [require_eq_ok, Bool.and_eq_true, decide_eq_true_eq] at hrequired
        cases h
        exact ⟨by omega, raw, rfl, by rw [hsafe]; congr 1; omega⟩
      · cases h
    · cases h
  · rintro ⟨⟨hmin, hmax⟩, raw, rfl, hsafe⟩
    simp only [hsafe]
    refine bind_eq_ok.2 ⟨(), require_eq_ok.2 ?_, rfl⟩
    simp only [Bool.and_eq_true, decide_eq_true_eq]
    omega

theorem integer_settles (field : String) (min max : Nat) :
    Settles (fun value => Field.integer value field min max) (fun n => some (number n)) := by
  intro value result h
  obtain ⟨hbounds, raw, -, hsafe⟩ := integer_eq_ok.1 h
  have hle : result ≤ maxSafe := natAbs_le_of_safeInteger? hsafe
  exact integer_eq_ok.2 ⟨hbounds, _, rfl, safeInteger?_number hle⟩

/-- The days are some days of the week, in order. -/
theorem weekdays_spec {value : Option JsonValue} {field : String} {days : List Nat}
    (h : Field.weekdays value field = .ok days) :
    (1 ≤ days.length ∧ days.length ≤ 7) ∧ (∀ day ∈ days, 1 ≤ day ∧ day ≤ 7) ∧ days.Nodup ∧
      days.Pairwise (· ≤ ·) := by
  unfold Field.weekdays at h
  split at h
  · rename_i items
    obtain ⟨_, hlength, h⟩ := bind_eq_ok.1 h
    obtain ⟨unsorted, hdays, h⟩ := bind_eq_ok.1 h
    obtain ⟨_, hunique, h⟩ := bind_eq_ok.1 h
    simp only [require_eq_ok, Bool.and_eq_true, decide_eq_true_eq] at hlength hunique
    cases h
    have hperm := List.perm_insertionSort (· ≤ ·) unsorted
    refine ⟨?_, fun day hday => ?_, hperm.nodup_iff.2 hunique, List.pairwise_insertionSort _ _⟩
    · rwa [hperm.length_eq, ← (mapM_eq_ok_iff.1 hdays).length_eq]
    · obtain ⟨item, -, hitem⟩ := mapM_mem hdays day (hperm.mem_iff.1 hday)
      exact (integer_eq_ok.1 hitem).1
  · cases h

theorem weekdays_settles (field : String) :
    Settles (fun value => Field.weekdays value field)
      (fun days => some (.array (days.map number))) := by
  intro value days h
  obtain ⟨hlength, hdays, hunique, hsorted⟩ := weekdays_spec h
  have hagain : (days.map number).mapM (fun item => Field.integer (some item) field 1 7) =
      .ok days := by
    refine mapM_write_iff.2 fun day hday => ?_
    have hbounds := hdays day hday
    exact integer_eq_ok.2 ⟨hbounds, _, rfl, safeInteger?_number (hbounds.2.trans (by decide))⟩
  refine bind_eq_ok.2 ⟨(), require_eq_ok.2 ?_, bind_eq_ok.2 ⟨days, hagain, bind_eq_ok.2
    ⟨(), require_eq_ok.2 (decide_eq_true hunique), ?_⟩⟩⟩
  · rw [List.length_map, Bool.and_eq_true, decide_eq_true_eq, decide_eq_true_eq]
    exact hlength
  · rw [hsorted.insertionSort_eq]
    rfl

theorem bool_settles (fallback : Bool) :
    Settles (fun value => Field.bool value fallback) (fun value => some (.boolean value)) :=
  fun _ _ _ => rfl

theorem visibility_settles :
    Settles Field.visibility (fun visibility => some (text (visibilityText visibility))) := by
  intro _ visibility _
  cases visibility <;> rfl

theorem conflictPolicy_settles :
    Settles Field.conflictPolicy (fun policy => some (text (conflictPolicyText policy))) := by
  intro _ policy _
  cases policy <;> rfl

theorem clockPattern_length {text : CodeUnits} (h : clockPattern text = true) :
    text.length = 5 ∨ text.length = 8 := by
  unfold clockPattern at h
  split at h
  · exact Or.inl rfl
  · exact Or.inr rfl
  · cases h

theorem clockPattern_seconds {text : CodeUnits} (h : clockPattern text = true)
    (hlength : text.length = 5) : clockPattern (text ++ asciiUnits ":00") = true := by
  unfold clockPattern at h
  split at h
  · change (_ && _ && _ && _ && _) = true
    rw [h]
    rfl
  · cases hlength
  · cases h

/-- The time has seconds. -/
theorem clock_spec {value : Option JsonValue} {field : String} {result : CodeUnits}
    (h : Field.clock value field = .ok result) :
    clockPattern result = true ∧ result.length = 8 := by
  unfold Field.clock at h
  split at h
  · rename_i raw
    obtain ⟨_, hpattern, h⟩ := bind_eq_ok.1 h
    rw [require_eq_ok] at hpattern
    cases h
    rcases clockPattern_length hpattern with hlength | hlength
    · rw [if_pos hlength, List.length_append, hlength]
      exact ⟨clockPattern_seconds hpattern hlength, rfl⟩
    · rw [if_neg (by omega)]
      exact ⟨hpattern, hlength⟩
  · cases h

theorem clock_settles (field : String) :
    Settles (fun value => Field.clock value field) (fun result => some (text result)) := by
  intro value result h
  obtain ⟨hpattern, hlength⟩ := clock_spec h
  refine bind_eq_ok.2 ⟨(), require_eq_ok.2 hpattern, ?_⟩
  rw [if_neg (by omega)]
  rfl

theorem localDate_eq_ok {value : Option JsonValue} {result : CodeUnits} :
    Field.localDate value = .ok result ↔
      value = some (.string result) ∧ datePattern result = true := by
  unfold Field.localDate
  constructor
  · intro h
    split at h
    · obtain ⟨_, hpattern, h⟩ := bind_eq_ok.1 h
      cases h
      exact ⟨rfl, require_eq_ok.1 hpattern⟩
    · cases h
  · rintro ⟨rfl, hpattern⟩
    exact bind_eq_ok.2 ⟨(), require_eq_ok.2 hpattern, rfl⟩

theorem localDate_settles : Settles Field.localDate (fun result => some (text result)) :=
  fun _ _ h => localDate_eq_ok.2 ⟨rfl, (localDate_eq_ok.1 h).2⟩

theorem timeZone_settles : Settles (Field.timeZone rt) (fun result => some (text result)) := by
  intro value result h
  unfold Field.timeZone at h
  split at h
  · obtain ⟨_, hrequired, h⟩ := bind_eq_ok.1 h
    cases h
    exact bind_eq_ok.2 ⟨(), hrequired, rfl⟩
  · cases h

end Planipus.Planning.Input
