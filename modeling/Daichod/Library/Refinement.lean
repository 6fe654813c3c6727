import Daichod.Library.Machine
import Mathlib.Data.List.ReduceOption

/-!
# Daichod.Library.Refinement

A machine that carries out a serial one. Each event of the concrete machine performs one
operation of the serial machine or none (`performed`), and a concrete run ends where the
serial run of the operations performed ends (`run_performed`). Conditions on the serial run
are conditions on the concrete one (`along_performed`).
-/

universe u v w x

namespace Machine

variable {σ : Type u} {ε : Type v} {ο : Type w} {τ : Type x} {step : σ → ε → σ}
  {op : σ → ε → Option ο} {s : σ} {events events' : List ε} {e : ε}

/-- The operations a run performs, in order. -/
def performed (step : σ → ε → σ) (op : σ → ε → Option ο) (s : σ) (events : List ε) : List ο :=
  (outputs step op s events).reduceOption

@[simp] theorem performed_nil : performed step op s [] = [] := rfl

theorem performed_cons : performed step op s (e :: events)
    = (op s e).toList ++ performed step op (step s e) events := by
  unfold performed
  cases h : op s e with
  | none => simp [outputs, h]
  | some o => simp [outputs, h]

/-- A run performs what its first part performs, and then the rest. -/
theorem performed_append : performed step op s (events ++ events')
    = performed step op s events ++ performed step op (run step s events) events' := by
  induction events generalizing s with
  | nil => rfl
  | cons e events ih =>
    rw [List.cons_append, performed_cons, performed_cons, ih, run_cons, List.append_assoc]

theorem performed_concat : performed step op s (events ++ [e])
    = performed step op s events ++ (op (run step s events) e).toList := by
  rw [performed_append, performed_cons, performed_nil, List.append_nil]

/-- Operations that do not depend on the state are picked from the events. -/
theorem performed_eq_filterMap {pick : ε → Option ο} :
    performed step (fun _ e => pick e) s events = events.filterMap pick := by
  induction events generalizing s with
  | nil => rfl
  | cons e events ih =>
    rw [performed_cons, ih, List.filterMap_cons]
    cases pick e <;> rfl

section Simulation

variable {serial : τ → ο → τ} {abs : σ → τ} {P : τ → ο → Prop}

/-- **Refinement rule under an invariant**: where each event does to the abstract state what
the operation it performs does, a run does what its operations do one after the other. -/
theorem Along.run_performed {I : σ → Prop} {Q : σ → ε → Prop} (h : Along step Q s events)
    (hinit : I s) (hinv : ∀ s e, I s → Q s e → I (step s e))
    (hstep : ∀ s e, I s → Q s e → abs (step s e) = (op s e).elim (abs s) (serial (abs s))) :
    abs (run step s events) = run serial (abs s) (performed step op s events) := by
  induction events generalizing s with
  | nil => rfl
  | cons e events ih =>
    obtain ⟨he, hrest⟩ := h
    rw [run_cons, performed_cons, run_append, ih hrest (hinv s e hinit he), hstep s e hinit he]
    cases op s e <;> rfl

/-- **Refinement rule**, for all runs. -/
theorem run_performed
    (hstep : ∀ s e, abs (step s e) = (op s e).elim (abs s) (serial (abs s))) :
    abs (run step s events) = run serial (abs s) (performed step op s events) := by
  have htrue : Along step (fun _ _ => True) s events :=
    along_of_forall (P := fun _ => True).mpr fun _ _ => trivial
  exact htrue.run_performed (I := fun _ => True) trivial (fun _ _ _ _ => trivial)
    fun s e _ _ => hstep s e

/-- A condition on the operations performed is a condition on the run. -/
theorem along_performed
    (hstep : ∀ s e, abs (step s e) = (op s e).elim (abs s) (serial (abs s))) :
    Along serial P (abs s) (performed step op s events) ↔
      Along step (fun s e => ∀ o, op s e = some o → P (abs s) o) s events := by
  induction events generalizing s with
  | nil => exact Iff.rfl
  | cons e events ih =>
    rw [performed_cons, along_append]
    cases hop : op s e with
    | none =>
      have habs : abs (step s e) = abs s := by rw [hstep, hop]; rfl
      simp only [Option.toList_none, Along, run_nil, true_and, hop]
      rw [← habs, ih]
      simp
    | some o =>
      have habs : abs (step s e) = serial (abs s) o := by rw [hstep, hop]; rfl
      simp only [Option.toList_some, Along, run_cons, run_nil, and_true, hop]
      rw [← habs, ih]
      simp

end Simulation

end Machine
