import Planipus.Library.Rolling
import Planipus.Library.Rows

/-!
# Limits by fixed windows

A hit opens a window of a fixed span for its key, or counts in the window that is open. A hit is admitted
while the count is within the limit. Windows do not roll, so what they bound is twice the limit in a span
that moves (`Paced.bound`), and a hit is refused for a full window only (`Paced.refused`). Windows that are
over may be forgotten (`Paced.forget`), at any time and for any of the keys.
-/

namespace Planipus.Library

structure Window where
  count : Nat
  resetAt : Int
deriving DecidableEq

/-- The window after a hit. -/
def Window.hit (span now : Int) : Option Window → Window
  | some current =>
    if current.resetAt ≤ now then ⟨1, now + span⟩ else ⟨current.count + 1, current.resetAt⟩
  | none => ⟨1, now + span⟩

section Since

variable {start start' now : Int} {times : List Int}

theorem since_snoc_of_le (h : start ≤ now) : since start (times ++ [now]) = since start times + 1 := by
  simp [since, List.countP_append, h]

theorem since_snoc_le : since start (times ++ [now]) ≤ since start times + 1 := by
  unfold since
  rw [List.countP_append]
  exact Nat.add_le_add_left List.countP_le_length _

theorem since_anti (h : start ≤ start') : since start' times ≤ since start times := by
  refine List.countP_mono_left fun x _ hx => ?_
  rw [decide_eq_true_eq] at hx ⊢
  omega

theorem since_eq_zero (h : ∀ x ∈ times, x < start) : since start times = 0 := by
  refine List.countP_eq_zero.2 fun x hx => ?_
  have hlt := h x hx
  simp only [decide_eq_true_eq]
  omega

end Since

section Paced

variable {span now now' : Int} {limit : Nat} {window : Option Window} {current : Window} {times : List Int}

/-- Nothing counts against a hit at `now`, and at most one window lies behind it within a span. -/
structure Idle (span : Int) (limit : Nat) (times : List Int) (now : Int) : Prop where
  past : ∀ x ∈ times, x < now
  recent : ∀ start, now - span < start → since start times ≤ limit

theorem Idle.mono (h : Idle span limit times now) (hle : now ≤ now') : Idle span limit times now' :=
  ⟨fun x hx => Int.lt_of_lt_of_le (h.past x hx) hle, fun start hstart => h.recent start (by omega)⟩

/-- The window counts the admitted hits since it opened, and before it there was at most one other within
a span. -/
structure Open (span : Int) (limit : Nat) (current : Window) (times : List Int) (now : Int) : Prop where
  opened : current.resetAt - span ≤ now
  ends : ∀ x ∈ times, x < current.resetAt
  count : since (current.resetAt - span) times = min current.count limit
  before : ∀ start, current.resetAt - 2 * span < start →
    since start times ≤ limit + since (current.resetAt - span) times

/-- The admitted hits of a key, and its window if it is remembered. -/
structure Paced (span : Int) (limit : Nat) (window : Option Window) (times : List Int) (now : Int) :
    Prop where
  past : ∀ x ∈ times, x ≤ now
  bound : RollingBound (2 * limit) (span - 1) times
  idle : window = none → Idle span limit times now
  current : ∀ current, window = some current → Open span limit current times now

theorem paced_nil : Paced span limit none [] now :=
  ⟨nofun, rollingBound_nil, fun _ => ⟨nofun, fun _ _ => Nat.zero_le _⟩, nofun⟩

theorem Paced.mono (h : Paced span limit window times now) (hle : now ≤ now') :
    Paced span limit window times now' :=
  ⟨fun x hx => Int.le_trans (h.past x hx) hle, h.bound, fun hnone => (h.idle hnone).mono hle,
    fun current hcurrent =>
      ⟨Int.le_trans (h.current current hcurrent).opened hle, (h.current current hcurrent).ends,
        (h.current current hcurrent).count, (h.current current hcurrent).before⟩⟩

/-- A window that is over leaves its key idle. -/
theorem Open.idle (h : Open span limit current times now) (hover : current.resetAt ≤ now) :
    Idle span limit times now := by
  refine ⟨fun x hx => Int.lt_of_lt_of_le (h.ends x hx) hover, fun start hstart => ?_⟩
  calc since start times ≤ since (current.resetAt - span) times := since_anti (by omega)
    _ = min current.count limit := h.count
    _ ≤ limit := Nat.min_le_right _ _

/-- A window that is over may be forgotten. -/
theorem Paced.forget (h : Paced span limit (some current) times now) (hover : current.resetAt ≤ now) :
    Paced span limit none times now :=
  ⟨h.past, h.bound, fun _ => (h.current current rfl).idle hover, nofun⟩

/-- A hit of an idle key opens a window. -/
theorem Idle.hit (h : Idle span limit times now) (hspan : 0 < span) (hlimit : 0 < limit)
    (hbound : RollingBound (2 * limit) (span - 1) times) :
    Paced span limit (some ⟨1, now + span⟩) (times ++ [now]) now := by
  have hrecent : since (now - (span - 1)) times ≤ limit := h.recent _ (by omega)
  have hnow : since now (times ++ [now]) = 1 := by
    rw [since_snoc_of_le (Int.le_refl now), since_eq_zero h.past]
  refine ⟨fun x hx => ?_, hbound.snoc (by omega), nofun, fun current hcurrent => ?_⟩
  · rcases List.mem_append.1 hx with hx | hx
    · exact Int.le_of_lt (h.past x hx)
    · exact Int.le_of_eq (List.mem_singleton.1 hx)
  · cases hcurrent
    have hstart : now + span - span = now := by omega
    constructor
    · exact Int.le_of_eq hstart
    · intro x hx
      dsimp only
      rcases List.mem_append.1 hx with hx | hx
      · have hlt := h.past x hx
        omega
      · rw [List.mem_singleton.1 hx]
        omega
    · dsimp only
      rw [hstart, hnow]
      omega
    · intro start hbefore
      dsimp only at hbefore ⊢
      rw [hstart, hnow]
      exact Nat.le_trans since_snoc_le (Nat.add_le_add_right (h.recent start (by omega)) 1)

/-- A hit in a window that is not full counts. -/
theorem Open.counts (h : Open span limit current times now) (hin : now < current.resetAt)
    (hroom : current.count < limit) (hpast : ∀ x ∈ times, x ≤ now)
    (hbound : RollingBound (2 * limit) (span - 1) times) :
    Paced span limit (some ⟨current.count + 1, current.resetAt⟩) (times ++ [now]) now := by
  have hcount := h.count
  have hopened := h.opened
  have hbefore := h.before (now - (span - 1)) (by omega)
  have hsnoc : since (current.resetAt - span) (times ++ [now]) =
      since (current.resetAt - span) times + 1 := since_snoc_of_le h.opened
  refine ⟨fun x hx => ?_, hbound.snoc (by omega), nofun, fun next hnext => ?_⟩
  · rcases List.mem_append.1 hx with hx | hx
    · exact hpast x hx
    · exact Int.le_of_eq (List.mem_singleton.1 hx)
  · cases hnext
    refine ⟨h.opened, fun x hx => ?_, ?_, fun start hstart => ?_⟩
    · rcases List.mem_append.1 hx with hx | hx
      · exact h.ends x hx
      · rw [List.mem_singleton.1 hx]
        exact hin
    · dsimp only
      omega
    · have hle := h.before start hstart
      have hgrow : since start (times ++ [now]) ≤ since start times + 1 := since_snoc_le
      dsimp only
      omega

/-- A hit in a full window is counted there, and admitted nowhere. -/
theorem Open.refuse (h : Open span limit current times now) (hfull : limit ≤ current.count)
    (hpast : ∀ x ∈ times, x ≤ now) (hbound : RollingBound (2 * limit) (span - 1) times) :
    Paced span limit (some ⟨current.count + 1, current.resetAt⟩) times now := by
  refine ⟨hpast, hbound, nofun, fun next hnext => ?_⟩
  cases hnext
  refine ⟨h.opened, h.ends, ?_, h.before⟩
  have hcount := h.count
  dsimp only
  omega

/-- A window that is full is full of admitted hits, all of them within the span. -/
theorem Paced.refused (h : Paced span limit (some current) times now) (hin : now < current.resetAt)
    (hfull : limit ≤ current.count) : limit ≤ within (span - 1) now times := by
  have hcount := (h.current current rfl).count
  rw [Nat.min_eq_right hfull] at hcount
  rw [← hcount]
  refine List.countP_mono_left fun x hx hsince => ?_
  have hle := h.past x hx
  rw [decide_eq_true_eq] at hsince
  rw [Bool.and_eq_true, decide_eq_true_eq, decide_eq_true_eq]
  omega

/-- **A hit**, admitted while its count is within the limit. -/
theorem Paced.hit (h : Paced span limit window times now) (hspan : 0 < span) (hlimit : 0 < limit) :
    Paced span limit (some (Window.hit span now window))
      (if (Window.hit span now window).count ≤ limit then times ++ [now] else times) now := by
  cases window with
  | none =>
    rw [Window.hit, if_pos (show (⟨1, now + span⟩ : Window).count ≤ limit from hlimit)]
    exact (h.idle rfl).hit hspan hlimit h.bound
  | some current =>
    have hopen := h.current current rfl
    rw [Window.hit]
    by_cases hover : current.resetAt ≤ now
    · rw [if_pos hover, if_pos (show (⟨1, now + span⟩ : Window).count ≤ limit from hlimit)]
      exact (hopen.idle hover).hit hspan hlimit h.bound
    · rw [if_neg hover]
      by_cases hroom : current.count < limit
      · rw [if_pos (Nat.succ_le_of_lt hroom)]
        exact hopen.counts (by omega) hroom h.past h.bound
      · rw [if_neg (by dsimp only; omega)]
        exact hopen.refuse (by omega) h.past h.bound

/-- A hit that is not admitted finds a full span. -/
theorem Paced.hit_refused (h : Paced span limit window times now) (hlimit : 0 < limit)
    (hover : limit < (Window.hit span now window).count) : limit ≤ within (span - 1) now times := by
  cases window with
  | none => exact absurd (Nat.lt_of_lt_of_le hover (Nat.succ_le_of_lt hlimit)) (Nat.lt_irrefl _)
  | some current =>
    rw [Window.hit] at hover
    by_cases hreset : current.resetAt ≤ now
    · rw [if_pos hreset] at hover
      exact absurd (Nat.lt_of_lt_of_le hover (Nat.succ_le_of_lt hlimit)) (Nat.lt_irrefl _)
    · rw [if_neg hreset] at hover
      exact h.refused (by omega) (Nat.le_of_lt_succ hover)

end Paced

section Table

variable {κ : Type} [DecidableEq κ] {span : κ → Int} {limit : κ → Nat} {rows : List (κ × Window)}
  {log : List (κ × Int)} {now now' : Int} {key k : κ}

def windowOf (rows : List (κ × Window)) (key : κ) : Option Window :=
  (rows.find? fun row => row.1 = key).map (·.2)

/-- When the key was hit. -/
def timesOf (log : List (κ × Int)) (key : κ) : List Int :=
  (log.filter fun hit => hit.1 = key).map (·.2)

def purge (now : Int) (rows : List (κ × Window)) : List (κ × Window) :=
  rows.filter fun row => now < row.2.resetAt

theorem windowOf_upsertRow_self {window : Window} :
    windowOf (upsertRow (·.1) (key, window) rows) key = some window :=
  have hfound : (upsertRow (fun row : κ × Window => row.1) (key, window) rows).find?
      (fun row => row.1 = (key, window).1) = some (key, window) := find?_upsertRow_self
  congrArg (Option.map Prod.snd) hfound

theorem windowOf_upsertRow_of_ne {window : Window} (hk : k ≠ key) :
    windowOf (upsertRow (·.1) (key, window) rows) k = windowOf rows k :=
  have hfound : (upsertRow (fun row : κ × Window => row.1) (key, window) rows).find?
      (fun row => row.1 = k) = rows.find? fun row => row.1 = k := find?_upsertRow_of_ne hk
  congrArg (Option.map Prod.snd) hfound

theorem windowOf_purge (hkeys : (rows.map (·.1)).Nodup) :
    windowOf (purge now rows) key = (windowOf rows key).filter fun current => now < current.resetAt := by
  have hfound : (purge now rows).find? (fun row => row.1 = key) =
      (rows.find? fun row => row.1 = key).filter fun row => now < row.2.resetAt := find?_filter_key hkeys
  rw [windowOf, hfound, windowOf, Option.filter_map]
  rfl

theorem timesOf_snoc_self : timesOf (log ++ [(key, now)]) key = timesOf log key ++ [now] := by
  simp [timesOf]

theorem timesOf_snoc_of_ne (h : k ≠ key) : timesOf (log ++ [(key, now)]) k = timesOf log k := by
  simp [timesOf, Ne.symm h]

variable (span limit rows log now) in
/-- The rows are the windows of the hits in the log. -/
structure Limits : Prop where
  keys : (rows.map (·.1)).Nodup
  paced : ∀ key, Paced (span key) (limit key) (windowOf rows key) (timesOf log key) now

theorem limits_nil : Limits span limit [] [] now := ⟨.nil, fun _ => paced_nil⟩

theorem Limits.mono (h : Limits span limit rows log now) (hle : now ≤ now') :
    Limits span limit rows log now' :=
  ⟨h.keys, fun key => (h.paced key).mono hle⟩

/-- A hit of one key shows nowhere else. -/
theorem Limits.hit (h : Limits span limit rows log now) (key : κ) (hspan : 0 < span key) (hlimit : 0 < limit key) :
    Limits span limit (upsertRow (·.1) (key, Window.hit (span key) now (windowOf rows key)) rows)
      (if (Window.hit (span key) now (windowOf rows key)).count ≤ limit key then log ++ [(key, now)]
        else log) now := by
  refine ⟨nodup_upsertRow h.keys, fun k => ?_⟩
  by_cases hk : k = key
  · subst hk
    have hpaced := (h.paced k).hit hspan hlimit
    rw [windowOf_upsertRow_self]
    split at hpaced
    · rename_i hroom
      rw [if_pos hroom, timesOf_snoc_self]
      exact hpaced
    · rename_i hfull
      rw [if_neg hfull]
      exact hpaced
  · have hpaced := h.paced k
    rw [windowOf_upsertRow_of_ne hk]
    split
    · rw [timesOf_snoc_of_ne hk]
      exact hpaced
    · exact hpaced

/-- **Forgetting the windows that are over changes no limit.** -/
theorem Limits.purge (h : Limits span limit rows log now) :
    Limits span limit (purge now rows) log now := by
  refine ⟨h.keys.sublist (List.filter_sublist.map _), fun key => ?_⟩
  have hpaced := h.paced key
  rw [windowOf_purge h.keys]
  cases hwindow : windowOf rows key with
  | none =>
    rw [hwindow] at hpaced
    exact hpaced
  | some current =>
    rw [hwindow] at hpaced
    rw [Option.filter_some]
    split
    · exact hpaced
    · rename_i hover
      exact hpaced.forget (by simpa using hover)

/-- A key starts again. -/
theorem Limits.delete (h : Limits span limit rows log now) (key : κ) :
    Limits span limit (rows.filter fun row => row.1 ≠ key) (log.filter fun hit => hit.1 ≠ key) now := by
  refine ⟨h.keys.sublist (List.filter_sublist.map _), fun k => ?_⟩
  by_cases hk : k = key
  · subst hk
    have hwindow : windowOf (rows.filter fun row => row.1 ≠ k) k = none :=
      have hfound : (rows.filter fun row => row.1 ≠ k).find? (fun row => row.1 = k) = none :=
        find?_delete_self
      congrArg (Option.map Prod.snd) hfound
    have htimes : timesOf (log.filter fun hit => hit.1 ≠ k) k = [] := by
      simp [timesOf, List.filter_filter]
    rw [hwindow, htimes]
    exact paced_nil
  · have hwindow : windowOf (rows.filter fun row => row.1 ≠ key) k = windowOf rows k := by
      have hfound : (rows.filter fun row => row.1 ≠ key).find? (fun row => row.1 = k) =
          rows.find? fun row => row.1 = k := find?_delete_of_ne hk
      rw [windowOf, hfound]
      rfl
    have htimes : timesOf (log.filter fun hit => hit.1 ≠ key) k = timesOf log k := by
      rw [timesOf, List.filter_filter, timesOf]
      congr 1
      refine List.filter_congr fun hit _ => ?_
      by_cases hhit : hit.1 = k
      · simp [hhit, hk]
      · simp [hhit]
    rw [hwindow, htimes]
    exact h.paced k

end Table

end Planipus.Library
