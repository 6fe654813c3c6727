import Mathlib.Data.List.Induction

/-!
# Daichod.Library.Machine

Runs of a deterministic machine: a step function on states, driven by a list of events in
which all nondeterminism is spelled out.

A condition on a run is a condition on each event in the state it meets (`Along`). The
rules below turn a step lemma into a run lemma, once for invariants of the state and once
for invariants that also see the events so far. `trace` is a run that never ends; its one
rule, `trace_leadsTo`, is what a schedule that keeps coming back to an event is good for.
-/

universe u v w

namespace Machine

variable {σ : Type u} {ε : Type v} (step : σ → ε → σ)

/-- The state after a run. -/
def run (s : σ) (events : List ε) : σ := events.foldl step s

/-- `P` holds of every event of the run, in the state the event meets. -/
def Along (P : σ → ε → Prop) : σ → List ε → Prop
  | _, [] => True
  | s, e :: events => P s e ∧ Along P (step s e) events

variable {step} {s : σ} {P Q : σ → ε → Prop} {events events' : List ε} {e : ε}

/-- A run of no events stays where it is. -/
@[simp] theorem run_nil : run step s [] = s := rfl

/-- A run begins with its first event. -/
@[simp] theorem run_cons : run step s (e :: events) = run step (step s e) events := rfl

/-- A run in two parts: the second one starts where the first one ends. -/
theorem run_append : run step s (events ++ events') = run step (run step s events) events' :=
  List.foldl_append

/-- A run ends with its last event. -/
@[simp] theorem run_concat : run step s (events ++ [e]) = step (run step s events) e := by
  rw [run_append]
  rfl

/-- A condition on a run in two parts is one on each, from where it starts. -/
theorem along_append :
    Along step P s (events ++ events') ↔
      Along step P s events ∧ Along step P (run step s events) events' := by
  induction events generalizing s with
  | nil => simp [Along]
  | cons e events ih => simp [Along, ih, and_assoc]

/-- The last event meets its condition in the state the others lead to. -/
theorem along_concat :
    Along step P s (events ++ [e]) ↔ Along step P s events ∧ P (run step s events) e := by
  rw [along_append]
  simp [Along]

/-- Along a run means at each of its events. -/
theorem along_iff_forall :
    Along step P s events ↔ ∀ es e, es ++ [e] <+: events → P (run step s es) e := by
  constructor
  · intro h es e hprefix
    obtain ⟨rest, hes⟩ := hprefix
    rw [← hes, along_append, along_concat] at h
    exact h.1.2
  · intro h
    induction events using List.reverseRecOn with
    | nil => trivial
    | append_singleton events e ih =>
      refine along_concat.mpr ⟨ih fun es e' hes => ?_, h events e List.prefix_rfl⟩
      exact h es e' (hes.trans (List.prefix_append _ _))

/-- A weaker condition holds along the same run. -/
theorem Along.mono (h : Along step P s events) (hPQ : ∀ s e, P s e → Q s e) :
    Along step Q s events := by
  induction events generalizing s with
  | nil => trivial
  | cons e events ih => exact ⟨hPQ _ _ h.1, ih h.2⟩

/-- Two conditions that hold along a run hold together. -/
theorem Along.and (h : Along step P s events) (h' : Along step Q s events) :
    Along step (fun s e => P s e ∧ Q s e) s events := by
  induction events generalizing s with
  | nil => trivial
  | cons e events ih => exact ⟨⟨h.1, h'.1⟩, ih h.2 h'.2⟩

/-- A condition on events alone holds along a run when it holds of each of its events. -/
theorem along_of_forall {P : ε → Prop} :
    Along step (fun _ e => P e) s events ↔ ∀ e ∈ events, P e := by
  induction events generalizing s with
  | nil => simp [Along]
  | cons e events ih => simp [Along, ih]

/-- **Invariant rule.** -/
theorem Along.invariant {I : σ → Prop} (h : Along step P s events) (hinit : I s)
    (hstep : ∀ s e, I s → P s e → I (step s e)) : I (run step s events) := by
  induction events generalizing s with
  | nil => exact hinit
  | cons e events ih => exact ih h.2 (hstep s e hinit h.1)

/-- Under an invariant one condition on a run gives another. -/
theorem Along.imp {I : σ → Prop} (h : Along step P s events) (hinit : I s)
    (hstep : ∀ s e, I s → P s e → I (step s e)) (hPQ : ∀ s e, I s → P s e → Q s e) :
    Along step Q s events := by
  induction events generalizing s with
  | nil => trivial
  | cons e events ih => exact ⟨hPQ s e hinit h.1, ih h.2 (hstep s e hinit h.1)⟩

/-- **Invariant rule with history**: the invariant also speaks of the events so far. -/
theorem Along.invariant_history {I : List ε → σ → Prop} (h : Along step P s events)
    (hinit : I [] s)
    (hstep : ∀ es e, es ++ [e] <+: events → I es (run step s es) → P (run step s es) e →
      I (es ++ [e]) (step (run step s es) e)) :
    I events (run step s events) := by
  induction events using List.reverseRecOn with
  | nil => exact hinit
  | append_singleton events e ih =>
    obtain ⟨hpre, he⟩ := along_concat.mp h
    rw [run_concat]
    refine hstep events e List.prefix_rfl (ih hpre fun es e' hes => ?_) he
    exact hstep es e' (hes.trans (List.prefix_append _ _))

/-- An invariant with history of all runs. -/
theorem run_invariant_history {I : List ε → σ → Prop} (hinit : I [] s)
    (hstep : ∀ es e, I es (run step s es) → I (es ++ [e]) (step (run step s es) e)) :
    I events (run step s events) := by
  induction events using List.reverseRecOn with
  | nil => exact hinit
  | append_singleton events e ih =>
    rw [run_concat]
    exact hstep events e ih

/-! ### What a run lets out

A step may also answer something. The answers of a run are those of its steps, in order, each
given in the state its event met. -/

/-- What each event of a run answers, in order. -/
def outputs {ο : Type w} (step : σ → ε → σ) (out : σ → ε → ο) : σ → List ε → List ο
  | _, [] => []
  | s, e :: events => out s e :: outputs step out (step s e) events

/-- **Two-run rule**: two runs of the same events that stay related answer the same exactly
when each of the events does. -/
theorem outputs_eq_iff {ο : Type w} {out : σ → ε → ο} (R : σ → σ → Prop)
    (hstep : ∀ s s' e, R s s' → R (step s e) (step s' e))
    (hout : ∀ s s' e, R s s' → (out s e = out s' e ↔ P s e)) {s s' : σ} (h : R s s') :
    outputs step out s events = outputs step out s' events ↔ Along step P s events := by
  induction events generalizing s s' with
  | nil => simp [outputs, Along]
  | cons e events ih =>
    simp only [outputs, Along, List.cons.injEq]
    rw [hout s s' e h, ih (hstep s s' e h)]

/-! ### Runs that never end

A schedule gives an event for every time. Safety is a property of each state, as before; progress
needs a schedule that comes back to what it owes. -/

/-- The state after the first `n` events of a schedule. -/
def trace (step : σ → ε → σ) (s : σ) (schedule : ℕ → ε) : ℕ → σ
  | 0 => s
  | n + 1 => step (trace step s schedule n) (schedule n)

variable {schedule : ℕ → ε}

/-- Events with the property come again and again. -/
def Often (schedule : ℕ → ε) (E : ε → Prop) : Prop := ∀ n, ∃ m ≥ n, E (schedule m)

/-- An invariant holds at every time. -/
theorem trace_invariant {I : σ → Prop} (hinit : I s) (hstep : ∀ s e, I s → I (step s e)) (n : ℕ) :
    I (trace step s schedule n) := by
  induction n with
  | zero => exact hinit
  | succ n ih => exact hstep _ _ ih

/-- **Progress rule**: where `P` lasts until `Q`, and a helpful event makes `Q` of it, a
schedule that often has one leads from `P` to `Q`. -/
theorem trace_leadsTo (A B : σ → Prop) {E : ε → Prop} (hoften : Often schedule E)
    (hlasts : ∀ s e, A s → A (step s e) ∨ B (step s e))
    (hhelps : ∀ s e, A s → E e → B (step s e)) {n : ℕ} (h : A (trace step s schedule n)) :
    ∃ m > n, B (trace step s schedule m) := by
  obtain ⟨m, hm, hE⟩ := hoften n
  obtain ⟨k, rfl⟩ := Nat.exists_eq_add_of_le hm
  clear hm
  -- The helpful event is `k` steps ahead.
  induction k generalizing n with
  | zero => exact ⟨n + 1, Nat.lt_succ_self n, hhelps _ _ h hE⟩
  | succ k ih =>
    rcases hlasts _ (schedule n) h with hA | hB
    · have hA : A (trace step s schedule (n + 1)) := hA
      have hahead : n + (k + 1) = n + 1 + k := by omega
      obtain ⟨m, hm, hB⟩ := ih hA (hahead ▸ hE)
      exact ⟨m, by omega, hB⟩
    · exact ⟨n + 1, Nat.lt_succ_self n, hB⟩

end Machine
