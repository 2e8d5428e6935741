import Mathlib.Tactic.Common

/-!
# Event-driven machines and their runs

A machine reacts to every event: a disabled event leaves the state as it is. A run is restricted by
a predicate `ok` on the state before an event and the event, so that one machine serves every
statement about its runs: what an environment may do, or a condition each step meets, is an `ok`.
`Leads.invariant` is the induction rule every safety theorem is derived from.
-/

namespace Planipus.Library

/-- Initial states and a total reaction to events. -/
structure Machine (σ ε : Type) where
  Init : σ → Prop
  step : σ → ε → σ

namespace Machine

variable {σ ε : Type} {m : Machine σ ε} {ok : σ → ε → Prop} {s t u : σ}

/-- `t` is reached from `s` by events that `ok` admits in the state before them. -/
inductive Leads (m : Machine σ ε) (ok : σ → ε → Prop) (s : σ) : σ → Prop
  | refl : Leads m ok s s
  | snoc {t : σ} {e : ε} (h : Leads m ok s t) (hok : ok t e) : Leads m ok s (m.step t e)

/-- `t` is reached from some initial state by events that `ok` admits. -/
def Reachable (m : Machine σ ε) (ok : σ → ε → Prop) (t : σ) : Prop :=
  ∃ s, m.Init s ∧ m.Leads ok s t

/-- **The invariant rule**: what holds at the start and is kept by every admitted event holds at
the end of every run. -/
theorem Leads.invariant {I : σ → Prop} (h : m.Leads ok s t) (hs : I s)
    (hstep : ∀ t e, I t → ok t e → I (m.step t e)) : I t := by
  induction h with
  | refl => exact hs
  | snoc _ hok ih => exact hstep _ _ ih hok

theorem Leads.trans (h₁ : m.Leads ok s t) (h₂ : m.Leads ok t u) : m.Leads ok s u := by
  induction h₂ with
  | refl => exact h₁
  | snoc _ hok ih => exact .snoc ih hok

theorem Reachable.invariant {I : σ → Prop} (h : m.Reachable ok t) (hinit : ∀ s, m.Init s → I s)
    (hstep : ∀ t e, I t → ok t e → I (m.step t e)) : I t := by
  obtain ⟨s, hs, hst⟩ := h
  exact hst.invariant (hinit s hs) hstep

/-- The invariant rule where the step may use that the state before it is reachable. -/
theorem Reachable.invariant_reachable {I : σ → Prop} (h : m.Reachable ok t)
    (hinit : ∀ s, m.Init s → I s)
    (hstep : ∀ t e, m.Reachable ok t → I t → ok t e → I (m.step t e)) : I t := by
  obtain ⟨s, hs, hst⟩ := h
  induction hst with
  | refl => exact hinit s hs
  | snoc hst hok ih => exact hstep _ _ ⟨s, hs, hst⟩ ih hok

/-! ## Runs given by their events -/

/-- The state after a list of events. -/
def run (m : Machine σ ε) (s : σ) (es : List ε) : σ := es.foldl m.step s

/-- Every event of the list is admitted in the state it meets. -/
def Admits (m : Machine σ ε) (ok : σ → ε → Prop) : σ → List ε → Prop
  | _, [] => True
  | s, e :: es => ok s e ∧ Admits m ok (m.step s e) es

instance Admits.decidable (m : Machine σ ε) (ok : σ → ε → Prop) [∀ s e, Decidable (ok s e)] :
    ∀ (s : σ) (es : List ε), Decidable (m.Admits ok s es)
  | _, [] => isTrue trivial
  | s, e :: es =>
    @instDecidableAnd _ _ (inferInstance : Decidable (ok s e)) (Admits.decidable m ok (m.step s e) es)

theorem leads_run : ∀ (es : List ε) (s : σ), m.Admits ok s es → m.Leads ok s (m.run s es)
  | [], _, _ => .refl
  | e :: es, s, h => (Leads.snoc (.refl (s := s)) h.1).trans (leads_run es (m.step s e) h.2)

/-- A run without restriction is given by its events alone. -/
theorem leads_run_free (es : List ε) (s : σ) : m.Leads (fun _ _ => True) s (m.run s es) := by
  refine leads_run es s ?_
  induction es generalizing s with
  | nil => trivial
  | cons e es ih => exact ⟨trivial, ih _⟩

/-! ## Properties of whole runs -/

/-- `P` holds of every state of the run and `Q` of every step. -/
def Throughout (m : Machine σ ε) (P : σ → Prop) (Q : σ → ε → Prop) : σ → List ε → Prop
  | s, [] => P s
  | s, e :: es => P s ∧ Q s e ∧ Throughout m P Q (m.step s e) es

instance Throughout.decidable (m : Machine σ ε) (P : σ → Prop) (Q : σ → ε → Prop)
    [∀ s, Decidable (P s)] [∀ s e, Decidable (Q s e)] :
    ∀ (s : σ) (es : List ε), Decidable (m.Throughout P Q s es)
  | s, [] => (inferInstance : Decidable (P s))
  | s, e :: es =>
    @instDecidableAnd _ _ (inferInstance : Decidable (P s))
      (@instDecidableAnd _ _ (inferInstance : Decidable (Q s e))
        (Throughout.decidable m P Q (m.step s e) es))

theorem Throughout.here {P : σ → Prop} {Q : σ → ε → Prop} {es : List ε}
    (h : m.Throughout P Q s es) : P s := by
  cases es with
  | nil => exact h
  | cons e es => exact h.1

theorem Throughout.there {P : σ → Prop} {Q : σ → ε → Prop} {es : List ε}
    (h : m.Throughout P Q s es) : P (m.run s es) := by
  induction es generalizing s with
  | nil => exact h
  | cons e es ih => exact ih h.2.2

/-- An invariant that gives `P`, kept by steps that have `Q`, gives both along the whole run. -/
theorem Admits.throughout {I P : σ → Prop} {Q : σ → ε → Prop} {es : List ε}
    (h : m.Admits ok s es) (hs : I s) (hP : ∀ s, I s → P s)
    (hstep : ∀ s e, I s → ok s e → Q s e ∧ I (m.step s e)) : m.Throughout P Q s es := by
  induction es generalizing s with
  | nil => exact hP s hs
  | cons e es ih =>
    obtain ⟨hQ, hI⟩ := hstep s e hs h.1
    exact ⟨hP s hs, hQ, ih h.2 hI⟩

/-- **Exact conditions on runs**: if an invariant that gives `P` is kept by the steps `ok` admits,
and every other step breaks `Q` or leads to a state without `P`, then the runs that keep both are
the runs whose steps are all admitted. -/
theorem throughout_iff_admits {I P : σ → Prop} {Q : σ → ε → Prop} (hP : ∀ s, I s → P s)
    (hstep : ∀ s e, I s → ok s e → Q s e ∧ I (m.step s e))
    (hfail : ∀ s e, I s → Q s e → P (m.step s e) → ok s e) (es : List ε) (hs : I s) :
    m.Throughout P Q s es ↔ m.Admits ok s es := by
  refine ⟨fun h => ?_, fun h => h.throughout hs hP hstep⟩
  induction es generalizing s with
  | nil => trivial
  | cons e es ih =>
    obtain ⟨_, hQ, hrest⟩ := h
    have hok := hfail s e hs hQ hrest.here
    exact ⟨hok, ih (hstep s e hs hok).2 hrest⟩

/-- **Exact conditions under an assumption**: the same, where the steps of the run are known to be
admitted by `env`. -/
theorem throughout_iff_admits_of {env : σ → ε → Prop} {I P : σ → Prop} (hP : ∀ s, I s → P s)
    (hstep : ∀ s e, I s → env s e → ok s e → I (m.step s e))
    (hfail : ∀ s e, I s → env s e → P (m.step s e) → ok s e) {es : List ε} (hs : I s)
    (henv : m.Admits env s es) : m.Throughout P (fun _ _ => True) s es ↔ m.Admits ok s es := by
  induction es generalizing s with
  | nil => exact ⟨fun _ => trivial, fun _ => hP s hs⟩
  | cons e es ih =>
    constructor
    · rintro ⟨-, -, hrest⟩
      have hok := hfail s e hs henv.1 hrest.here
      exact ⟨hok, (ih (hstep s e hs henv.1 hok) henv.2).1 hrest⟩
    · rintro ⟨hok, hrest⟩
      exact ⟨hP s hs, trivial, (ih (hstep s e hs henv.1 hok) henv.2).2 hrest⟩

end Machine

end Planipus.Library
