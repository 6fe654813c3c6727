import Daichod.Engine.Lifecycle

/-!
# Daichod.Properties.SessionStates

**A session is open or closed, never in between**: `Session` says twice whether it is open,
in `session_` and in `open_`, and writes the two apart. What `Session::Open` and
`Session::Close` have in hand is always in the condition the next call of the engine asks
for, and the engine is done with all its other sessions (`Lifecycle.Sound`); so every call
comes back to its caller, both answers agree when it does, and nobody ever sees an open
session that is not alive (`session_keepsPromises`).

## Proof shape

Three conditions of one engine session (`Unbegun`, `Begun`, `Live`), and two of one that is over
(`Released`, `Retired`), with a lemma for each engine call that leads from one to the next.
`Lifecycle.Sound` says for every place at which the engine thread can stand what the two members
say and which of these conditions the session in hand has; all others are `Retired`. One step of
`Open` or of `Close` is a case of the source's statements, and each case is one of those lemmas
(`Sound.stepOpen`, `Sound.stepClose`).

That every call comes back is a count of the statements still to come, which each step lowers;
nothing in either function loops.
-/

namespace Daichod

/-! ### What the calls do to a session -/

namespace QofSession

/-- A session that has not been begun. -/
structure Unbegun (session : QofSession) : Prop where
  not_begun : session.begun = false
  not_ended : .end ∉ session
  not_destroyed : .destroy ∉ session

/-- A session that has been begun, and not ended. -/
structure Begun (session : QofSession) : Prop where
  begun : session.begun = true
  not_ended : .end ∉ session
  not_destroyed : .destroy ∉ session

variable {session : QofSession} {mode : OpenMode} {e : SessionError}

/-- A session just created. -/
theorem unbegun_new : Unbegun [.new] := by
  constructor
  · rfl
  · simp
  · simp

/-- A `begin` that was refused leaves it as it was. -/
theorem Unbegun.refused (h : session.Unbegun) : Unbegun (.begin mode (some e) :: session) := by
  obtain ⟨hbegun, hend, hdestroy⟩ := h
  constructor
  · simpa [QofSession.begun, QofCall.begins] using hbegun
  · simp [hend]
  · simp [hdestroy]

/-- A `begin` that succeeded. -/
theorem Unbegun.begin (h : session.Unbegun) : Begun (.begin mode none :: session) := by
  obtain ⟨-, hend, hdestroy⟩ := h
  constructor
  · simp [QofSession.begun, QofCall.begins]
  · simp [hend]
  · simp [hdestroy]

/-- What was never begun has nothing to end. -/
theorem Unbegun.released (h : session.Unbegun) : session.Released := by
  constructor
  · rw [h.not_begun, List.count_eq_zero_of_not_mem h.not_ended]
    rfl
  · exact h.not_destroyed

/-- A load that succeeded makes the session usable. -/
theorem Begun.load (h : session.Begun) : Live (.load none :: session) := by
  obtain ⟨hbegun, hend, hdestroy⟩ := h
  constructor
  · simpa [QofSession.begun, QofCall.begins] using hbegun
  · simp
  · simp [hend]
  · simp [hdestroy]

/-- A load that failed leaves it begun, so it has to be ended. -/
theorem Begun.unloadable (h : session.Begun) : Begun (.load (some e) :: session) := by
  obtain ⟨hbegun, hend, hdestroy⟩ := h
  constructor
  · simpa [QofSession.begun, QofCall.begins] using hbegun
  · simp [hend]
  · simp [hdestroy]

/-- An end leaves it to be destroyed. -/
theorem Begun.end (h : session.Begun) : Released (.end :: session) := by
  obtain ⟨hbegun, hend, hdestroy⟩ := h
  have hstill : QofSession.begun (.end :: session) = true := by
    simpa [QofSession.begun, QofCall.begins] using hbegun
  constructor
  · rw [hstill, List.count_cons_self, List.count_eq_zero_of_not_mem hend]
    rfl
  · simp [hdestroy]

/-- What is usable was begun. -/
theorem Live.isBegun (h : session.Live) : session.Begun := ⟨h.begun, h.not_ended, h.not_destroyed⟩

/-- A save leaves it usable, whether it succeeded or not. -/
theorem Live.save (h : session.Live) {error : Option SessionError} :
    Live (.save error :: session) := by
  obtain ⟨hbegun, hloaded, hend, hdestroy⟩ := h
  constructor
  · simpa [QofSession.begun, QofCall.begins] using hbegun
  · simp [hloaded]
  · simp [hend]
  · simp [hdestroy]

/-- A retired session was ended exactly once if it was begun, -/
theorem Retired.count_end (h : session.Retired) :
    session.count .end = if session.begun then 1 else 0 := by
  obtain ⟨calls, rfl, hended, -⟩ := h
  simpa [QofSession.begun, QofCall.begins] using hended

/-- and destroyed exactly once. -/
theorem Retired.count_destroy (h : session.Retired) : session.count .destroy = 1 := by
  obtain ⟨calls, rfl, -, hdestroy⟩ := h
  rw [List.count_cons_self, List.count_eq_zero_of_not_mem hdestroy]

/-- A session to be destroyed was ended once at most. -/
theorem Released.count_end_le (h : session.Released) : session.count .end ≤ 1 := by
  rw [h.ended]
  split <;> omega

/-- So was one that is destroyed. -/
theorem Retired.count_end_le (h : session.Retired) : session.count .end ≤ 1 := by
  rw [h.count_end]
  split <;> omega

/-- If it was begun it was ended exactly once, and destroyed once. -/
theorem Retired.count (h : session.Retired) (hbegun : session.begun = true) :
    session.count .end = 1 ∧ session.count .destroy = 1 :=
  ⟨h.count_end.trans (if_pos hbegun), h.count_destroy⟩

end QofSession

/-! ### One session in hand

The engine's sessions are a list in order of their creation, and the thread holds one of them by
its place in it. Nothing is done to the others, which are over. -/

/-- The engine is done with all its sessions. -/
def Cleared (sessions : List QofSession) : Prop := ∀ session ∈ sessions, session.Retired

/-- One session is in the given condition, and the engine is done with all the others. -/
structure Holding (sessions : List QofSession) (id : ℕ) (P : QofSession → Prop) : Prop where
  held : ∃ session, sessions[id]? = some session ∧ P session
  others : ∀ other session, other ≠ id → sessions[other]? = some session → session.Retired

section Holding

variable {sessions : List QofSession} {id : ℕ} {P Q : QofSession → Prop} {c : QofCall}

/-- A weaker condition of the one in hand. -/
theorem Holding.mono (h : Holding sessions id P) (hPQ : ∀ session, P session → Q session) :
    Holding sessions id Q := by
  obtain ⟨⟨session, hsession, hP⟩, hothers⟩ := h
  exact ⟨⟨session, hsession, hPQ session hP⟩, hothers⟩

/-- A call on the session in hand. -/
theorem Holding.call (h : Holding sessions id P) (hPQ : ∀ session, P session → Q (c :: session)) :
    Holding (sessions.modify id (c :: ·)) id Q := by
  obtain ⟨⟨session, hsession, hP⟩, hothers⟩ := h
  constructor
  · exact ⟨c :: session, by simp [hsession], hPQ session hP⟩
  · intro other session' hne hsession'
    rw [List.getElem?_modify_ne _ _ (Ne.symm hne)] at hsession'
    exact hothers other session' hne hsession'

/-- The last call on it. -/
theorem Holding.destroy (h : Holding sessions id QofSession.Released) :
    Cleared (sessions.modify id (.destroy :: ·)) := by
  have hcall : Holding (sessions.modify id (.destroy :: ·)) id QofSession.Retired :=
    h.call fun session hreleased => ⟨session, rfl, hreleased⟩
  intro session hmem
  obtain ⟨i, hi⟩ := List.mem_iff_getElem?.mp hmem
  by_cases heq : i = id
  · obtain ⟨held, hheld, hretired⟩ := hcall.held
    rw [heq, hheld] at hi
    exact Option.some.inj hi ▸ hretired
  · exact hcall.others i session heq hi

/-- A new session is taken in hand when none was left. -/
theorem Cleared.new (h : Cleared sessions) :
    Holding (sessions ++ [[.new]]) sessions.length QofSession.Unbegun := by
  constructor
  · exact ⟨[.new], by simp, QofSession.unbegun_new⟩
  · intro other session hne hsession
    have hlt : other < (sessions ++ [[QofCall.new]]).length := by
      exact (List.getElem?_eq_some_iff.mp hsession).1
    have hold : other < sessions.length := by
      rw [List.length_append, List.length_singleton] at hlt
      omega
    rw [List.getElem?_append_left hold] at hsession
    exact h session (List.mem_of_getElem? hsession)

/-- No session was ended twice: none in hand. -/
theorem Cleared.count_end_le (h : Cleared sessions) :
    ∀ session ∈ sessions, session.count .end ≤ 1 :=
  fun session hmem => (h session hmem).count_end_le

/-- No session was ended twice: one in hand. -/
theorem Holding.count_end_le (h : Holding sessions id P)
    (hP : ∀ session, P session → session.count .end ≤ 1) :
    ∀ session ∈ sessions, session.count .end ≤ 1 := by
  intro session hmem
  obtain ⟨i, hi⟩ := List.mem_iff_getElem?.mp hmem
  by_cases heq : i = id
  · obtain ⟨held, hheld, hcondition⟩ := h.held
    rw [heq, hheld] at hi
    exact Option.some.inj hi ▸ hP held hcondition
  · exact (h.others i session heq hi).count_end_le

end Holding

namespace Lifecycle

/-- What holds of the object and the engine's sessions, by where the engine thread is. -/
def Sound (s : Lifecycle) : Prop :=
  match s.stage with
  | .idle =>
    s.session = none ∧ s.isOpen = false ∧ Cleared s.sessions ∨
    ∃ id, s.session = some id ∧ s.isOpen = true ∧ Holding s.sessions id QofSession.Live
  | .opening .news => s.session = none ∧ s.isOpen = false ∧ Cleared s.sessions
  | .opening (.begins id) | .opening (.asks id _) | .opening (.breaks id) =>
    s.session = none ∧ s.isOpen = false ∧ Holding s.sessions id QofSession.Unbegun
  | .opening (.loads id) | .opening (.ends id _) =>
    s.session = none ∧ s.isOpen = false ∧ Holding s.sessions id QofSession.Begun
  | .opening (.destroys id _) =>
    s.session = none ∧ s.isOpen = false ∧ Holding s.sessions id QofSession.Released
  | .opening (.keeps id) =>
    s.session = none ∧ s.isOpen = false ∧ Holding s.sessions id QofSession.Live
  | .opening .flags =>
    ∃ id, s.session = some id ∧ s.isOpen = false ∧ Holding s.sessions id QofSession.Live
  | .closing _ (.flags id) =>
    s.session = some id ∧ s.isOpen = true ∧ Holding s.sessions id QofSession.Live
  | .closing _ (.saves id) | .closing _ (.ends id _) =>
    s.session = some id ∧ s.isOpen = false ∧ Holding s.sessions id QofSession.Live
  | .closing _ (.destroys id _) =>
    s.session = some id ∧ s.isOpen = false ∧ Holding s.sessions id QofSession.Released
  -- The pointer dangles until it is cleared.
  | .closing _ (.clears _) => s.isOpen = false ∧ Cleared s.sessions
  | .destroyed => s.session = none ∧ s.isOpen = false ∧ Cleared s.sessions

variable {config : Config} {s : Lifecycle} {fate : SessionFate}

/-- Before the first call there is no session. -/
theorem sound_init : init.Sound := Or.inl ⟨rfl, rfl, fun _ h => absurd h (List.not_mem_nil)⟩

/-- **One statement of `Session::Open`.** -/
theorem Sound.stepOpen {step : OpenStep} (h : s.Sound) (hstage : s.stage = .opening step) :
    (s.stepOpen config fate step).1.Sound := by
  obtain ⟨session, isOpen, stage, sessions⟩ := s
  obtain rfl : stage = .opening step := hstage
  cases step with
  | news =>
    obtain ⟨rfl, rfl, hcleared⟩ := h
    exact ⟨rfl, rfl, hcleared.new⟩
  -- A refusal for a lock is asked about, any other one destroys the session.
  | begins id =>
    obtain ⟨rfl, rfl, hholding⟩ := h
    simp only [Lifecycle.stepOpen, call]
    cases fate.beginError with
    | none => exact ⟨rfl, rfl, hholding.call fun _ => QofSession.Unbegun.begin⟩
    | some e =>
      have hrefused := hholding.call (c := .begin (mode config) (some e))
        fun _ => QofSession.Unbegun.refused
      rw [afterBegin]
      split
      · exact ⟨rfl, rfl, hrefused⟩
      · exact ⟨rfl, rfl, hrefused.mono fun _ => QofSession.Unbegun.released⟩
  | asks id e =>
    obtain ⟨rfl, rfl, hholding⟩ := h
    simp only [Lifecycle.stepOpen, afterAsking]
    split
    · exact ⟨rfl, rfl, hholding⟩
    · exact ⟨rfl, rfl, hholding.mono fun _ => QofSession.Unbegun.released⟩
  | breaks id =>
    obtain ⟨rfl, rfl, hholding⟩ := h
    simp only [Lifecycle.stepOpen, call]
    cases fate.breakLockError with
    | none => exact ⟨rfl, rfl, hholding.call fun _ => QofSession.Unbegun.begin⟩
    | some e =>
      have hrefused := hholding.call (c := .begin .breakLock (some e))
        fun _ => QofSession.Unbegun.refused
      exact ⟨rfl, rfl, hrefused.mono fun _ => QofSession.Unbegun.released⟩
  -- From here on a failure has a session to end.
  | loads id =>
    obtain ⟨rfl, rfl, hholding⟩ := h
    simp only [Lifecycle.stepOpen, call]
    cases fate.loadError with
    | none => exact ⟨rfl, rfl, hholding.call fun _ => QofSession.Begun.load⟩
    | some e => exact ⟨rfl, rfl, hholding.call fun _ => QofSession.Begun.unloadable⟩
  -- Here the two members disagree, but nobody can look.
  | keeps id =>
    obtain ⟨rfl, rfl, hholding⟩ := h
    exact ⟨id, rfl, rfl, hholding⟩
  | flags =>
    obtain ⟨id, rfl, rfl, hholding⟩ := h
    exact Or.inr ⟨id, rfl, rfl, hholding⟩
  | ends id e =>
    obtain ⟨rfl, rfl, hholding⟩ := h
    exact ⟨rfl, rfl, hholding.call fun _ => QofSession.Begun.end⟩
  | destroys id e =>
    obtain ⟨rfl, rfl, hholding⟩ := h
    exact Or.inl ⟨rfl, rfl, hholding.destroy⟩

/-- **One statement of `Session::Close`**, or of the destructor, which is the same without the
exception. -/
theorem Sound.stepClose {destructs : Bool} {step : CloseStep} (h : s.Sound)
    (hstage : s.stage = .closing destructs step) :
    (s.stepClose config destructs fate step).1.Sound := by
  obtain ⟨session, isOpen, stage, sessions⟩ := s
  obtain rfl : stage = .closing destructs step := hstage
  cases step with
  | flags id =>
    obtain ⟨rfl, rfl, hholding⟩ := h
    simp only [Lifecycle.stepClose]
    split
    · exact ⟨rfl, rfl, hholding⟩
    · exact ⟨rfl, rfl, hholding⟩
  | saves id =>
    obtain ⟨rfl, rfl, hholding⟩ := h
    simp only [Lifecycle.stepClose, call]
    split
    · exact ⟨rfl, rfl, hholding⟩
    · exact ⟨rfl, rfl, hholding.call fun _ hlive => hlive.save⟩
  | ends id e =>
    obtain ⟨rfl, rfl, hholding⟩ := h
    exact ⟨rfl, rfl, hholding.call fun _ hlive => hlive.isBegun.end⟩
  | destroys id e =>
    obtain ⟨rfl, rfl, hholding⟩ := h
    exact ⟨rfl, hholding.destroy⟩
  | clears e =>
    obtain ⟨rfl, hcleared⟩ := h
    cases destructs with
    | true => exact ⟨rfl, rfl, hcleared⟩
    | false => exact Or.inl ⟨rfl, rfl, hcleared⟩

/-- One event. -/
theorem Sound.next (h : s.Sound) (e : Event) : (s.next config e).Sound := by
  obtain ⟨session, isOpen, stage, sessions⟩ := s
  cases e with
  | step fate =>
    cases stage with
    | opening step => exact h.stepOpen rfl
    | closing destructs step => exact h.stepClose rfl
    | idle => exact h
    | destroyed => exact h
  | isOpen => cases stage <;> exact h
  | «open» =>
    cases stage with
    | idle =>
      simp only [Lifecycle.next, react, callOpen]
      split
      · exact h
      · next hnone =>
        split
        · rcases h with ⟨rfl, hopen, hcleared⟩ | ⟨id, rfl, -⟩
          · exact ⟨rfl, hopen, hcleared⟩
          · exact absurd rfl hnone
        · exact h
    | _ => exact h
  | close =>
    cases stage with
    | idle =>
      rcases h with ⟨rfl, hopen, hcleared⟩ | ⟨id, rfl, hopen, hholding⟩
      · exact Or.inl ⟨rfl, hopen, hcleared⟩
      · exact ⟨rfl, hopen, hholding⟩
    | _ => exact h
  | destruct =>
    cases stage with
    | idle =>
      rcases h with ⟨rfl, hopen, hcleared⟩ | ⟨id, rfl, hopen, hholding⟩
      · exact ⟨rfl, hopen, hcleared⟩
      · exact ⟨rfl, hopen, hholding⟩
    | _ => exact h

/-- **Every run** is sound. -/
theorem Sound.run (h : s.Sound) (events : List Event) : (run config s events).Sound := by
  induction events generalizing s with
  | nil => exact h
  | cons e events ih => exact ih (h.next e)

/-! ### What comes back -/

/-- No call is under way. -/
def AtRest (s : Lifecycle) : Prop := s.stage = .idle ∨ s.stage = .destroyed

/-- The object has a session, and the engine has it begun, loaded and alive. -/
def HasLive (s : Lifecycle) : Prop :=
  ∃ id session, s.session = some id ∧ s.sessions[id]? = some session ∧ session.Live

/-- Between calls there is an open session, and the engine is done with all others; or there
is none, and the engine is done with all. -/
theorem Sound.atRest (h : s.Sound) (hrest : s.AtRest) :
    s.session = none ∧ s.isOpen = false ∧ Cleared s.sessions ∨
    ∃ id, s.session = some id ∧ s.isOpen = true ∧ Holding s.sessions id QofSession.Live := by
  obtain ⟨session, isOpen, stage, sessions⟩ := s
  rcases hrest with hstage | hstage
  · obtain rfl : stage = .idle := hstage
    exact h
  · obtain rfl : stage = .destroyed := hstage
    exact Or.inl h

/-- Where the flag says so, there is a live session. -/
theorem Sound.isOpen (h : s.Sound) (hopen : s.isOpen = true) : s.HasLive := by
  obtain ⟨session, isOpen, stage, sessions⟩ := s
  obtain rfl : isOpen = true := hopen
  have live : ∀ id, session = some id → Holding sessions id QofSession.Live →
      HasLive ⟨session, true, stage, sessions⟩ := by
    intro id hid hholding
    obtain ⟨q, hq, hlive⟩ := hholding.held
    exact ⟨id, q, hid, hq, hlive⟩
  cases stage with
  | idle =>
    rcases h with ⟨-, hclosed, -⟩ | ⟨id, hid, -, hholding⟩
    · cases hclosed
    · exact live id hid hholding
  | opening step =>
    cases step with
    | flags =>
      obtain ⟨-, -, hclosed, -⟩ := h
      cases hclosed
    | _ =>
      obtain ⟨-, hclosed, -⟩ := h
      cases hclosed
  | closing destructs step =>
    cases step with
    | flags id =>
      obtain ⟨hid, -, hholding⟩ := h
      exact live id hid hholding
    | clears e =>
      obtain ⟨hclosed, -⟩ := h
      cases hclosed
    | _ =>
      obtain ⟨-, hclosed, -⟩ := h
      cases hclosed
  | destroyed =>
    obtain ⟨-, hclosed, -⟩ := h
    cases hclosed

/-- At no time has a session been ended twice. -/
theorem Sound.count_end_le (h : s.Sound) : ∀ session ∈ s.sessions, session.count .end ≤ 1 := by
  obtain ⟨session, isOpen, stage, sessions⟩ := s
  have unended : ∀ q : QofSession, .end ∉ q → q.count .end ≤ 1 := fun q hend => by
    rw [List.count_eq_zero_of_not_mem hend]
    omega
  cases stage with
  | idle =>
    rcases h with ⟨-, -, hcleared⟩ | ⟨id, -, -, hholding⟩
    · exact hcleared.count_end_le
    · exact hholding.count_end_le fun q hlive => unended q hlive.not_ended
  | opening step =>
    cases step with
    | news => exact h.2.2.count_end_le
    | begins id | asks id e | breaks id =>
      exact h.2.2.count_end_le fun q hunbegun => unended q hunbegun.not_ended
    | loads id | ends id e =>
      exact h.2.2.count_end_le fun q hbegun => unended q hbegun.not_ended
    | keeps id => exact h.2.2.count_end_le fun q hlive => unended q hlive.not_ended
    | flags =>
      obtain ⟨id, -, -, hholding⟩ := h
      exact hholding.count_end_le fun q hlive => unended q hlive.not_ended
    | destroys id e => exact h.2.2.count_end_le fun q => QofSession.Released.count_end_le
  | closing destructs step =>
    cases step with
    | flags id | saves id | ends id e =>
      exact h.2.2.count_end_le fun q hlive => unended q hlive.not_ended
    | destroys id e => exact h.2.2.count_end_le fun q => QofSession.Released.count_end_le
    | clears e => exact h.2.count_end_le
  | destroyed => exact h.2.2.count_end_le

/-- What the object is like when a call comes back with an answer. -/
def Fits (before after : Lifecycle) : Output → Prop
  | .opened => after.stage = .idle ∧ after.session.isSome = true
  | .openThrew _ | .closed | .closeThrew _ => after.stage = .idle ∧ after.session = none
  | .destructed => after.stage = .destroyed ∧ after.session = none
  | .isOpen answer => answer = before.isOpen

/-- **What a call answers** is what the object is like then. -/
theorem Sound.fits {e : Event} {o : Output} (h : s.Sound) (hout : out config s e = some o) :
    Fits s (s.next config e) o := by
  obtain ⟨session, isOpen, stage, sessions⟩ := s
  -- An answer is given only by the last statement of a call, or at once by a call that has nothing
  -- to do.
  cases e with
  | isOpen =>
    cases stage <;> first | cases hout; rfl | cases hout
  | step fate =>
    cases stage with
    | opening step =>
      cases step with
      | flags =>
        obtain ⟨id, rfl, -⟩ := h
        cases hout
        exact ⟨rfl, rfl⟩
      | destroys id e =>
        obtain ⟨hnone, -⟩ := h
        cases hout
        exact ⟨rfl, hnone⟩
      | _ => cases hout
    | closing destructs step =>
      cases step with
      | clears e =>
        cases hout
        cases destructs with
        | true => exact ⟨rfl, rfl⟩
        | false => cases e <;> exact ⟨rfl, rfl⟩
      | _ => cases hout
    | _ => cases hout
  | «open» =>
    cases stage with
    | idle =>
      simp only [out, react, callOpen, Lifecycle.next] at hout ⊢
      cases session with
      | some id =>
        cases hout
        exact ⟨rfl, rfl⟩
      | none =>
        simp only [Option.isSome_none, Bool.false_eq_true, if_false] at hout ⊢
        split at hout
        · cases hout
        · next hscheme =>
          cases hout
          rw [if_neg hscheme]
          exact ⟨rfl, rfl⟩
    | _ => cases hout
  | close =>
    cases stage with
    | idle =>
      cases session with
      | none =>
        cases hout
        exact ⟨rfl, rfl⟩
      | some id => cases hout
    | _ => cases hout
  | destruct =>
    cases stage with
    | idle =>
      cases session with
      | none =>
        cases hout
        exact ⟨rfl, rfl⟩
      | some id => cases hout
    | _ => cases hout

end Lifecycle

/-! ### Every call comes back -/

/-- How many steps `Session::Open` still makes, at most, -/
def OpenStep.remaining : OpenStep → ℕ
  | .news => 7
  | .begins _ => 6
  | .asks .. => 5
  | .breaks _ => 4
  | .loads _ => 3
  | .keeps _ | .ends .. => 2
  | .flags | .destroys .. => 1

/-- `Session::Close`, -/
def CloseStep.remaining : CloseStep → ℕ
  | .flags _ => 5
  | .saves _ => 4
  | .ends .. => 3
  | .destroys .. => 2
  | .clears _ => 1

/-- and the call under way. -/
def Stage.remaining : Stage → ℕ
  | .opening step => step.remaining
  | .closing _ step => step.remaining
  | .idle | .destroyed => 0

/-- The output is the answer of the call that is under way. -/
def Stage.Answers : Stage → Lifecycle.Output → Prop
  | .opening _, .opened | .opening _, .openThrew _ => True
  | .closing false _, .closed | .closing false _, .closeThrew _ => True
  | .closing true _, .destructed => True
  | _, _ => False

namespace Lifecycle

/-- The call under way makes a step. -/
def Event.isStep : Event → Bool
  | .step _ => true
  | _ => false

/-- No new call is made. -/
def Event.Continues (e : Event) : Prop := e.isStep = true ∨ e = .isOpen

variable {config : Config} {s : Lifecycle} {fate : SessionFate} {e : Event}

/-- Nothing is left to do exactly between the calls. -/
theorem atRest_iff : s.AtRest ↔ s.stage.remaining = 0 := by
  unfold AtRest
  cases s.stage with
  | idle => simp [Stage.remaining]
  | opening step => cases step <;> simp [Stage.remaining, OpenStep.remaining]
  | closing destructs step => cases step <;> simp [Stage.remaining, CloseStep.remaining]
  | destroyed => simp [Stage.remaining]

/-- After the first `begin` there are five statements left at most. -/
theorem remaining_afterBegin {config : Config} {id : ℕ} {error : Option SessionError} :
    (afterBegin config id error).remaining ≤ 5 := by
  cases error with
  | none => simp [afterBegin, OpenStep.remaining]
  | some e =>
    rw [afterBegin]
    split <;> simp [OpenStep.remaining]

/-- **Each statement** is one less to come. -/
theorem remaining_next_step :
    (s.next config (.step fate)).stage.remaining ≤ s.stage.remaining - 1 := by
  obtain ⟨session, isOpen, stage, sessions⟩ := s
  cases stage with
  | idle => exact le_rfl
  | destroyed => exact le_rfl
  | opening step =>
    cases step with
    | begins id => exact remaining_afterBegin
    | asks id e =>
      simp only [next, react, stepOpen, afterAsking]
      split <;> simp [Stage.remaining, OpenStep.remaining]
    | breaks id =>
      simp only [next, react, stepOpen]
      cases fate.breakLockError <;> simp [afterBreaking, Stage.remaining, OpenStep.remaining]
    | loads id =>
      simp only [next, react, stepOpen]
      cases fate.loadError <;> simp [afterLoad, Stage.remaining, OpenStep.remaining]
    | _ => simp [next, react, stepOpen, Stage.remaining, OpenStep.remaining]
  | closing destructs step =>
    cases step with
    | flags id =>
      simp only [next, react, stepClose]
      split <;> simp [Stage.remaining, CloseStep.remaining]
    | clears e => cases destructs <;> simp [next, react, stepClose, Stage.remaining]
    | _ => simp [next, react, stepClose, Stage.remaining, CloseStep.remaining]

/-- Looking changes nothing. -/
theorem next_isOpen : s.next config .isOpen = s := by
  unfold next react
  cases s.stage <;> rfl

/-- A run without new calls. -/
theorem remaining_run {later : List Event} (h : ∀ e ∈ later, e.Continues) :
    (run config s later).stage.remaining ≤ s.stage.remaining - later.countP Event.isStep := by
  induction later generalizing s with
  | nil => exact le_rfl
  | cons e later ih =>
    have hrest := @ih (s.next config e) fun e he => h e (List.mem_cons_of_mem _ he)
    rw [run] at hrest ⊢
    rw [Machine.run_cons]
    rcases h e List.mem_cons_self with hstep | rfl
    · cases e with
      | step fate =>
        have hnext := @remaining_next_step config s fate
        rw [List.countP_cons_of_pos hstep]
        omega
      | _ => cases hstep
    · rw [next_isOpen] at hrest ⊢
      rwa [List.countP_cons_of_neg (by simp [Event.isStep])]

/-- No call takes more than seven. -/
theorem remaining_le (stage : Stage) : stage.remaining ≤ 7 := by
  cases stage with
  | opening step => cases step <;> simp [Stage.remaining, OpenStep.remaining]
  | closing destructs step => cases step <;> simp [Stage.remaining, CloseStep.remaining]
  | _ => simp [Stage.remaining]

/-- A call does not come to its end without an answer. -/
theorem exists_answers (hcall : ¬s.AtRest) (hrest : (s.next config e).AtRest) :
    ∃ o, out config s e = some o ∧ s.stage.Answers o := by
  obtain ⟨session, isOpen, stage, sessions⟩ := s
  cases stage with
  | idle => exact absurd (Or.inl rfl) hcall
  | destroyed => exact absurd (Or.inr rfl) hcall
  | opening step =>
    cases e with
    | step fate =>
      cases step with
      | flags => exact ⟨_, rfl, trivial⟩
      | destroys id e => exact ⟨_, rfl, trivial⟩
      | _ => rcases hrest with hidle | hgone <;> contradiction
    | _ => exact absurd hrest hcall
  | closing destructs step =>
    cases e with
    | step fate =>
      cases step with
      | clears error =>
        refine ⟨_, rfl, ?_⟩
        cases destructs with
        | true => trivial
        | false => cases error <;> trivial
      | _ => rcases hrest with hidle | hgone <;> contradiction
    | _ => exact absurd hrest hcall

/-- What the object promises to those who use it: its state, and an event that it meets. -/
structure KeepsPromises (config : Config) (s : Lifecycle) (e : Event) : Prop where
  /-- `Open` returns with a live session, -/
  opened : out config s e = some .opened →
    (s.next config e).HasLive ∧ (s.next config e).isOpen = true
  /-- or throws without one. -/
  openThrew : ∀ error, out config s e = some (.openThrew error) →
    (s.next config e).session = none ∧ (s.next config e).isOpen = false
  /-- `Close` leaves no session, whether it returns, throws or is the destructor's; every
  session that was ever begun has then been ended once and destroyed once. -/
  closed : ∀ o, o = .closed ∨ (∃ error, o = .closeThrew error) ∨ o = .destructed →
    out config s e = some o →
    (s.next config e).session = none ∧ (s.next config e).isOpen = false ∧
      ∀ session ∈ (s.next config e).sessions, session.begun = true →
        session.count .end = 1 ∧ session.count .destroy = 1
  /-- `Open` does nothing on a live session only. -/
  noop : s.stage = .idle → out config s .open = some .opened → s.HasLive
  /-- Nobody sees an open session that is not alive. -/
  isOpen : out config s e = some (.isOpen true) → s.HasLive
  /-- No session is ended twice, -/
  ended_le_one : ∀ session ∈ s.sessions, session.count .end ≤ 1
  /-- and between calls each that was begun has been ended, but for the one that is open. -/
  ended : s.AtRest → ∀ (id : ℕ) (session : QofSession), s.sessions[id]? = some session →
    session.begun = true → s.session ≠ some id →
      session.count .end = 1 ∧ session.count .destroy = 1
  /-- A call comes back with its answer, -/
  answers : ¬s.AtRest → (s.next config e).AtRest → ∃ o, out config s e = some o ∧ s.stage.Answers o
  /-- after seven steps at most. -/
  returns : ∀ later : List Event, (∀ e ∈ later, e.Continues) → 7 ≤ later.countP Event.isStep →
    (run config s later).AtRest

/-- **The session is open or closed, never in between.** Whatever calls are made on the
object, however the engine answers and whenever other threads look, it keeps its
promises. -/
theorem session_keepsPromises (config : Config) (events : List Event) (e : Event) :
    KeepsPromises config (run config init events) e := by
  have hsound : (run config init events).Sound := sound_init.run events
  generalize run config init events = s at hsound
  have hnext : (s.next config e).Sound := hsound.next e
  -- What a call without a session leaves.
  have closed : (s.next config e).AtRest → (s.next config e).session = none →
      (s.next config e).isOpen = false ∧ Cleared (s.next config e).sessions := by
    intro hrest hnone
    rcases hnext.atRest hrest with ⟨-, hopen, hcleared⟩ | ⟨id, hid, -⟩
    · exact ⟨hopen, hcleared⟩
    · rw [hnone] at hid
      cases hid
  constructor
  · intro hout
    obtain ⟨hidle, hsome⟩ := hsound.fits hout
    rcases hnext.atRest (Or.inl hidle) with ⟨hnone, -⟩ | ⟨id, -, hopen, -⟩
    · rw [hnone] at hsome
      cases hsome
    · exact ⟨hnext.isOpen hopen, hopen⟩
  · intro error hout
    obtain ⟨hidle, hnone⟩ := hsound.fits hout
    exact ⟨hnone, (closed (Or.inl hidle) hnone).1⟩
  · intro o ho hout
    have hrest : (s.next config e).AtRest ∧ (s.next config e).session = none := by
      rcases ho with rfl | ⟨error, rfl⟩ | rfl
      · obtain ⟨hidle, hnone⟩ := hsound.fits hout
        exact ⟨Or.inl hidle, hnone⟩
      · obtain ⟨hidle, hnone⟩ := hsound.fits hout
        exact ⟨Or.inl hidle, hnone⟩
      · obtain ⟨hgone, hnone⟩ := hsound.fits hout
        exact ⟨Or.inr hgone, hnone⟩
    obtain ⟨hopen, hcleared⟩ := closed hrest.1 hrest.2
    exact ⟨hrest.2, hopen, fun session hmem => (hcleared session hmem).count⟩
  · intro hidle hout
    rcases hsound.atRest (Or.inl hidle) with ⟨hnone, -⟩ | ⟨id, -, hopen, -⟩
    · simp only [out, react, hidle, callOpen, hnone, Option.isSome_none, Bool.false_eq_true,
        if_false] at hout
      split at hout <;> cases hout
    · exact hsound.isOpen hopen
  · intro hout
    exact hsound.isOpen (hsound.fits hout).symm
  · exact hsound.count_end_le
  · intro hrest id session hsession hbegun hne
    rcases hsound.atRest hrest with ⟨-, -, hcleared⟩ | ⟨kept, hkept, -, hholding⟩
    · exact (hcleared session (List.mem_of_getElem? hsession)).count hbegun
    · have hother : id ≠ kept := fun heq => hne (heq ▸ hkept)
      exact (hholding.others id session hother hsession).count hbegun
  · exact exists_answers
  · intro later hlater hsteps
    have hremaining : (run config s later).stage.remaining ≤ _ := remaining_run hlater
    have hbound := remaining_le s.stage
    exact atRest_iff.mpr (by omega)

end Lifecycle

end Daichod
