import Planipus.Library.Tokens
import Planipus.Native.Verify.PolicyAgreement

/-!
# The no-sync marker as a whole token

Both editions put the escaped marker into a regular expression between two conditions on the
neighbouring characters, one with a prefix that consumes the character before the marker, the other
with a lookbehind. Both searches are `scanToken`, so each finds the marker wherever it stands as a
token.

The editions differ in what equals the marker. JavaScript compares character by character under the
simple case folding; `NSRegularExpression` compares literal text under the full one, by which ß
equals ss. And the flag for the case applies to the class of word characters too: a character that
folds like a letter hides the marker beside it, in both editions.
-/

namespace Planipus.Native.Policy

open CalendarSync Library

/-- What the documentation of the two engines says of case. -/
structure Folding (env : Platform) (services : Services) : Prop where
  variants : ∀ c a, a ∈ env.caseVariants c ↔ env.simpleCaseFold a = env.simpleCaseFold c
  /-- Characters with the same simple folding have the same full one. -/
  full : ∀ a b, env.simpleCaseFold a = env.simpleCaseFold b →
    services.fullCaseFold a = services.fullCaseFold b
  nonempty : ∀ c, services.fullCaseFold c ≠ []
  /-- `toLowerCase` has another lower case for a sigma at the end of a word, and they fold alike. -/
  lowercased : ∀ text, (services.lowercased text).toList.map env.simpleCaseFold =
    (env.toLowerCase text).toList.map env.simpleCaseFold

/-- The texts of an event that may hold the marker. -/
def noSyncTexts (input : PolicyEvaluationInput) : List String :=
  [input.source.content.summary, input.source.content.description,
    input.source.relationship.responseNote].filterMap id

/-- After NFC and lower-casing. -/
def lowered (env : Platform) (text : String) : List Char :=
  (env.toLowerCase (env.normalizeNFC text)).toList

/-- The marker stands in one of the texts as a token, up to `fold`. -/
def Marked (env : Platform) (word : Char → Bool) (fold : List Char → List Char)
    (input : PolicyEvaluationInput) : Prop :=
  let marker := lowered env input.policy.selection.sourceExclusionMarker
  marker ≠ [] ∧ ∃ text ∈ noSyncTexts input,
    HasToken word (fun token => fold token = fold marker) (lowered env text)

def simpleFolding (env : Platform) (text : List Char) : List Char := text.map env.simpleCaseFold

def fullFolding (services : Services) (text : List Char) : List Char :=
  text.flatMap services.fullCaseFold

/-- `containsNoSync` says whether the marker stands in a text between characters that are no letter,
no number and no underscore, and the editions agree. -/
def WholeTokens (env : Platform) (services : Services) (input : PolicyEvaluationInput) : Prop :=
  (CalendarSync.containsNoSync env input = true ↔
    Marked env (isWordChar env) (simpleFolding env) input) ∧
  containsNoSync env services input = CalendarSync.containsNoSync env input

/-- Where the marker is a token, it is one that no character hides which only folds like a letter;
and where it is one up to full case folding, it is one up to simple case folding. -/
structure PlainTokens (env : Platform) (services : Services) (input : PolicyEvaluationInput) :
    Prop where
  visible : Marked env (isWordChar env) (simpleFolding env) input →
    Marked env (matchesWordChar env) (simpleFolding env) input
  simple : Marked env (matchesWordChar env) (fullFolding services) input →
    Marked env (matchesWordChar env) (simpleFolding env) input

section Search

variable {env : Platform} {services : Services} {input : PolicyEvaluationInput}

/-! ## Characters -/

theorem matchesWordChar_iff (h : Folding env services) {c : Char} :
    matchesWordChar env c = true ↔
      ∃ a, env.simpleCaseFold a = env.simpleCaseFold c ∧ isWordChar env a = true := by
  simp only [matchesWordChar, List.any_eq_true, h.variants]

theorem matchesWordChar_of_isWordChar (h : Folding env services) {c : Char}
    (hc : isWordChar env c = true) : matchesWordChar env c = true :=
  (matchesWordChar_iff h).2 ⟨c, rfl, hc⟩

theorem matchesWordChar_congr (h : Folding env services) {c c' : Char}
    (hc : env.simpleCaseFold c = env.simpleCaseFold c') :
    matchesWordChar env c = matchesWordChar env c' := by
  rw [Bool.eq_iff_iff, matchesWordChar_iff h, matchesWordChar_iff h, hc]

theorem fullFolding_congr (h : Folding env services) {text text' : List Char}
    (hfold : simpleFolding env text = simpleFolding env text') :
    fullFolding services text = fullFolding services text' := by
  induction text generalizing text' with
  | nil =>
    rw [List.map_eq_nil_iff.1 hfold.symm]
  | cons c cs ih =>
    obtain ⟨c', cs', rfl, hc, hcs⟩ := List.map_eq_cons_iff.1 hfold.symm
    rw [fullFolding, List.flatMap_cons, fullFolding, List.flatMap_cons, h.full c c' hc.symm]
    exact congrArg _ (ih hcs.symm)

/-! ## Matchers -/

theorem matchMarker_matches (env : Platform) (marker : List Char) :
    Matches (matchMarker env marker)
      fun token => simpleFolding env token = simpleFolding env marker := by
  intro text rest
  induction marker generalizing text with
  | nil =>
    rw [matchMarker, Option.some.injEq]
    constructor
    · intro h
      exact ⟨[], rfl, h⟩
    · rintro ⟨token, htoken, htext⟩
      rw [List.map_eq_nil_iff.1 htoken] at htext
      exact htext
  | cons m ms ih =>
    cases text with
    | nil =>
      rw [matchMarker]
      refine iff_of_false (by simp) ?_
      rintro ⟨token, htoken, htext⟩
      obtain ⟨rfl, -⟩ := List.append_eq_nil_iff.1 htext.symm
      cases htoken
    | cons c cs =>
      rw [matchMarker]
      by_cases hm : env.simpleCaseFold m = env.simpleCaseFold c
      · rw [if_pos hm, ih cs]
        constructor
        · rintro ⟨token, htoken, hcs⟩
          refine ⟨c :: token, ?_, by rw [hcs, List.cons_append]⟩
          simp only [simpleFolding, List.map_cons, hm] at htoken ⊢
          rw [htoken]
        · rintro ⟨token, htoken, htext⟩
          obtain ⟨d, token', rfl, -, hrest⟩ := List.map_eq_cons_iff.1 htoken
          exact ⟨token', hrest, (List.cons_eq_cons.1 htext).2⟩
      · rw [if_neg hm]
        refine iff_of_false (by simp) ?_
        rintro ⟨token, htoken, htext⟩
        obtain ⟨d, token', rfl, hd, -⟩ := List.map_eq_cons_iff.1 htoken
        rw [← (List.cons_eq_cons.1 htext).1] at hd
        exact hm hd.symm

/-- No folding is empty, so the token is what the folded literal determines. -/
theorem matchFolded_matches (hne : ∀ c, services.fullCaseFold c ≠ []) (literal : List Char) :
    Matches (matchFolded services literal) fun token => fullFolding services token = literal := by
  have hempty : ∀ token, fullFolding services token = [] → token = [] := by
    intro token htoken
    refine List.eq_nil_iff_forall_not_mem.2 fun c hc => ?_
    exact hne c (List.flatMap_eq_nil_iff.1 htoken c hc)
  intro text rest
  induction text generalizing literal with
  | nil =>
    cases literal with
    | nil =>
      rw [matchFolded, Option.some.injEq]
      constructor
      · intro h
        exact ⟨[], rfl, h⟩
      · rintro ⟨token, -, htext⟩
        exact (List.append_eq_nil_iff.1 htext.symm).2.symm
    | cons l ls =>
      rw [matchFolded]
      refine iff_of_false (by simp) ?_
      rintro ⟨token, htoken, htext⟩
      obtain ⟨rfl, -⟩ := List.append_eq_nil_iff.1 htext.symm
      cases htoken
  | cons c cs ih =>
    cases literal with
    | nil =>
      rw [matchFolded, Option.some.injEq]
      constructor
      · intro h
        exact ⟨[], rfl, h⟩
      · rintro ⟨token, htoken, htext⟩
        rw [hempty token htoken] at htext
        exact htext
    | cons l ls =>
      rw [matchFolded]
      constructor
      · intro h
        split at h
        · rename_i hprefix
          obtain ⟨later, hlater⟩ := List.isPrefixOf_iff_prefix.1 hprefix
          rw [← hlater, List.drop_left] at h
          obtain ⟨token, htoken, hcs⟩ := (ih later).1 h
          refine ⟨c :: token, ?_, by rw [hcs, List.cons_append]⟩
          dsimp only
          rw [fullFolding, List.flatMap_cons, ← hlater]
          exact congrArg _ htoken
        · cases h
      · rintro ⟨token, htoken, htext⟩
        cases token with
        | nil => cases htoken
        | cons d token =>
          obtain ⟨rfl, hcs⟩ := List.cons_eq_cons.1 htext
          rw [fullFolding, List.flatMap_cons] at htoken
          rw [if_pos (List.isPrefixOf_iff_prefix.2 ⟨_, htoken⟩), ← htoken, List.drop_left]
          exact (ih _).2 ⟨token, rfl, hcs⟩

/-! ## Searches -/

/-- The prefix that consumes a character leaves the search at every position. -/
theorem testMarker_eq_scanToken (env : Platform) (marker : List Char) (previous : Option Char)
    (text : List Char) :
    testMarker env marker (!previous.any (matchesWordChar env)) text =
      scanToken (matchesWordChar env) (matchMarker env marker) previous text := by
  have hends : endsToken env = fun rest => !rest.head?.any (matchesWordChar env) := by
    funext rest
    cases rest with
    | nil => rfl
    | cons c cs => rfl
  induction text generalizing previous with
  | nil =>
    unfold testMarker scanToken
    rw [hends]
  | cons c cs ih =>
    unfold testMarker scanToken
    dsimp only
    rw [hends, ← ih (some c)]
    rfl

theorem firstMatch_eq_scanToken (env : Platform) (services : Services) (literal : List Char)
    (previous : Option Char) (text : List Char) :
    firstMatch env services literal previous text =
      scanToken (matchesWordChar env) (matchFolded services literal) previous text := by
  induction text generalizing previous with
  | nil => rfl
  | cons c cs ih =>
    unfold firstMatch scanToken
    dsimp only
    rw [ih (some c)]

/-- **The TypeScript search** finds the marker up to simple folding, where no neighbour folds like a
word character. -/
theorem containsNoSync_text_iff (env : Platform) (input : PolicyEvaluationInput) :
    CalendarSync.containsNoSync env input = true ↔
      Marked env (matchesWordChar env) (simpleFolding env) input := by
  have htest : ∀ marker text, testMarker env marker true text = true ↔ HasToken
      (matchesWordChar env) (fun token => simpleFolding env token = simpleFolding env marker) text := by
    intro marker text
    rw [← scanToken_iff (matchMarker_matches env marker), ← testMarker_eq_scanToken env marker none]
    rfl
  unfold CalendarSync.containsNoSync Marked
  dsimp only
  by_cases hmarker : lowered env input.policy.selection.sourceExclusionMarker = []
  · have hempty := List.isEmpty_iff.2 hmarker
    rw [lowered] at hempty
    simp [hempty, hmarker]
  · have hempty : ¬(lowered env input.policy.selection.sourceExclusionMarker).isEmpty = true :=
      fun h => hmarker (List.isEmpty_iff.1 h)
    rw [lowered] at hempty
    simp only [if_neg hempty, hmarker, ne_eq, not_false_eq_true, true_and, List.any_eq_true,
      Option.any_eq_true, htest, noSyncTexts, List.mem_filterMap, id_eq]
    constructor
    · rintro ⟨field, hfield, text, htext, htoken⟩
      exact ⟨text, ⟨field, hfield, htext⟩, htoken⟩
    · rintro ⟨text, ⟨field, hfield, htext⟩, htoken⟩
      exact ⟨field, hfield, text, htext, htoken⟩

/-- **The Swift search** finds the marker up to full folding. -/
theorem containsNoSync_swift_iff (h : Folding env services) (input : PolicyEvaluationInput) :
    containsNoSync env services input = true ↔
      Marked env (matchesWordChar env) (fullFolding services) input := by
  have hfold : ∀ text, simpleFolding env (services.lowercased (env.normalizeNFC text)).toList =
      simpleFolding env (lowered env text) := fun text => h.lowercased _
  -- Two lower cases of one text hold the same tokens.
  have htoken : ∀ {text text' marker marker' : List Char},
      simpleFolding env text = simpleFolding env text' →
      simpleFolding env marker = simpleFolding env marker' →
      HasToken (matchesWordChar env)
        (fun token => fullFolding services token = fullFolding services marker) text →
      HasToken (matchesWordChar env)
        (fun token => fullFolding services token = fullFolding services marker') text' := by
    intro text text' marker marker' htext hmarker htoken
    have hmoved := htoken.of_map_eq htext
      (fun token token' hsame hP => (fullFolding_congr h hsame).symm.trans hP)
      (fun c c' => matchesWordChar_congr h)
    refine hmoved.mono (fun token hP => ?_) fun c hc => hc
    exact hP.trans (fullFolding_congr h hmarker)
  have hscan : ∀ literal text, firstMatch env services literal none text = true ↔
      HasToken (matchesWordChar env) (fun token => fullFolding services token = literal) text := by
    intro literal text
    rw [firstMatch_eq_scanToken, scanToken_iff (matchFolded_matches h.nonempty literal)]
  have hmarker := hfold input.policy.selection.sourceExclusionMarker
  have hempty : (services.lowercased
      (env.normalizeNFC input.policy.selection.sourceExclusionMarker)).isEmpty = true ↔
        lowered env input.policy.selection.sourceExclusionMarker = [] := by
    rw [String.isEmpty_iff, ← String.toList_eq_nil_iff, ← List.map_eq_nil_iff
      (f := env.simpleCaseFold), ← List.map_eq_nil_iff (f := env.simpleCaseFold) (l := lowered _ _)]
    exact ⟨fun hnil => hmarker.symm.trans hnil, fun hnil => hmarker.trans hnil⟩
  unfold containsNoSync Marked
  dsimp only
  by_cases hnil : lowered env input.policy.selection.sourceExclusionMarker = []
  · simp [hempty.2 hnil, hnil]
  · rw [if_neg fun hmark => hnil (hempty.1 hmark)]
    simp only [hnil, ne_eq, not_false_eq_true, true_and, List.any_eq_true, noSyncTexts,
      List.mem_filterMap, Option.map_eq_some_iff, id_eq]
    constructor
    · rintro ⟨value, ⟨field, hfield, text, htext, rfl⟩, hfound⟩
      exact ⟨text, ⟨field, hfield, htext⟩, htoken (hfold text) hmarker ((hscan _ _).1 hfound)⟩
    · rintro ⟨text, ⟨field, hfield, htext⟩, hfound⟩
      refine ⟨_, ⟨field, hfield, text, htext, rfl⟩, (hscan _ _).2 ?_⟩
      exact htoken (hfold text).symm hmarker.symm hfound

theorem Marked.mono {word word' : Char → Bool} {fold fold' : List Char → List Char}
    (h : Marked env word fold input)
    (hfold : ∀ token marker, fold token = fold marker → fold' token = fold' marker)
    (hword : ∀ c, word' c = true → word c = true) : Marked env word' fold' input := by
  obtain ⟨hmarker, text, htext, htoken⟩ := h
  exact ⟨hmarker, text, htext, htoken.mono (fun token => hfold token _) hword⟩

end Search

/-- **When the marker matches whole tokens**: the search is exact and the editions agree exactly if
no token of the marker is hidden and none needs the full case folding. -/
theorem wholeTokens_iff (env : Platform) (services : Services) (input : PolicyEvaluationInput)
    (h : Folding env services) : WholeTokens env services input ↔ PlainTokens env services input := by
  have hstrict : Marked env (matchesWordChar env) (simpleFolding env) input →
      Marked env (isWordChar env) (simpleFolding env) input := fun hmarked =>
    hmarked.mono (fun _ _ hfold => hfold) fun _ hc => matchesWordChar_of_isWordChar h hc
  have hfull : Marked env (matchesWordChar env) (simpleFolding env) input →
      Marked env (matchesWordChar env) (fullFolding services) input := fun hmarked =>
    hmarked.mono (fun _ _ hfold => fullFolding_congr h hfold) fun _ hc => hc
  have hagree : containsNoSync env services input = CalendarSync.containsNoSync env input ↔
      (Marked env (matchesWordChar env) (fullFolding services) input ↔
        Marked env (matchesWordChar env) (simpleFolding env) input) := by
    rw [Bool.eq_iff_iff, containsNoSync_swift_iff h, containsNoSync_text_iff]
  rw [WholeTokens, hagree, containsNoSync_text_iff]
  constructor
  · rintro ⟨hexact, hagree⟩
    exact ⟨hexact.2, hagree.1⟩
  · rintro ⟨hvisible, hsimple⟩
    exact ⟨⟨hstrict, hvisible⟩, ⟨hsimple, hfull⟩⟩

section Example

/-- A meeting with a title, under a policy with a marker. -/
def markedInput (marker summary : String) : PolicyEvaluationInput :=
  let input := summaryInput "busy"
  { input with
    policy := { input.policy with
      selection := { input.policy.selection with sourceExclusionMarker := marker } }
    source := { input.source with content := { input.source.content with summary := some summary } } }

theorem asciiFolding : Folding asciiPlatform asciiServices where
  variants _ _ := List.mem_singleton
  full _ _ h := congrArg (fun c => [c]) h
  nonempty _ := List.cons_ne_nil _ _
  lowercased _ := rfl

/-- On ASCII text every token is plain. -/
theorem wholeTokens_ascii :
    WholeTokens asciiPlatform asciiServices (markedInput "#nosync" "review (#nosync)") := by
  have hword : ∀ c, matchesWordChar asciiPlatform c = true → isWordChar asciiPlatform c = true := by
    intro c hc
    obtain ⟨a, ha, hword⟩ := (matchesWordChar_iff asciiFolding).1 hc
    rwa [show a = c from ha] at hword
  have hfold : ∀ text, fullFolding asciiServices text = simpleFolding asciiPlatform text :=
    fun text => (List.flatMap_singleton' text).trans (List.map_id text).symm
  refine (wholeTokens_iff _ _ _ asciiFolding).2 ⟨fun h => ?_, fun h => ?_⟩
  · exact h.mono (fun _ _ hsame => hsame) hword
  · refine h.mono (fun token marker hsame => ?_) fun _ hc => hc
    rwa [hfold, hfold] at hsame

/-- The full case folding of ß. -/
def germanServices : Services :=
  { asciiServices with fullCaseFold := fun c => if c = 'ß' then ['s', 's'] else [c] }

/-- To the Mac edition alone, "strasse" holds the marker "straße". -/
theorem strasse_not_wholeTokens :
    Folding asciiPlatform germanServices ∧
      ¬ WholeTokens asciiPlatform germanServices (markedInput "straße" "strasse") := by
  have hfolding : Folding asciiPlatform germanServices := by
    refine ⟨asciiFolding.variants, fun a b h => congrArg germanServices.fullCaseFold h, fun c => ?_,
      fun _ => rfl⟩
    dsimp only [germanServices]
    split
    · exact List.cons_ne_nil _ _
    · exact List.cons_ne_nil _ _
  refine ⟨hfolding, ?_⟩
  rintro ⟨-, hagree⟩
  have hdiffer : containsNoSync asciiPlatform germanServices (markedInput "straße" "strasse") = true ∧
      CalendarSync.containsNoSync asciiPlatform (markedInput "straße" "strasse") = false := by
    decide +kernel
  rw [hdiffer.1, hdiffer.2] at hagree
  cases hagree

/-- The iota subscript U+0345 is no letter and folds like one. -/
def greekPlatform : Platform :=
  { asciiPlatform with
    isLetterOrNumber := fun c => c.isAlphanum || c == 'ι'
    simpleCaseFold := fun c => if c == '\u0345' then 'ι' else c
    caseVariants := fun c => if c == '\u0345' || c == 'ι' then ['\u0345', 'ι'] else [c] }

/-- It hides a marker that it precedes. -/
example :
    isWordChar greekPlatform '\u0345' = false ∧
      CalendarSync.containsNoSync greekPlatform (markedInput "#nosync" "\u0345#nosync") = false := by
  decide +kernel

end Example

end Planipus.Native.Policy
