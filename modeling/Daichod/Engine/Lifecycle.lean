import Daichod.Engine.Session
import Daichod.Library.Machine

/-!
# Daichod.Engine.Lifecycle

`engine/session.cpp`: a `Session` object from its constructor to its destructor, step by step.

`Session::Open`, `Session::Close` and `Session::~Session` move between calls of the engine,
each of which may fail. Other threads may call `is_open()` before and after any step. Of each
of its own sessions the engine keeps what has been done to it, so that a pointer to a session
says nothing yet about whether that session is alive.
-/

namespace Daichod

/-! ### The engine's sessions

A session is the list of the calls made on it. Whether it is live, or may be destroyed, is read
off that list. -/

/-- `SessionOpenMode`. -/
inductive OpenMode
  | readOnly
  | normalOpen
  | breakLock
  deriving Repr, DecidableEq

/-- A call on a `QofSession`, with what `qof_session_get_error` says after it. -/
inductive QofCall
  | new
  | begin (mode : OpenMode) (error : Option SessionError)
  | load (error : Option SessionError)
  | save (error : Option SessionError)
  | «end»
  | destroy
  deriving Repr, DecidableEq

/-- A begin that succeeds. -/
def QofCall.begins : QofCall → Bool
  | .begin _ none => true
  | _ => false

/-- The calls on one session, the last one first. -/
abbrev QofSession := List QofCall

namespace QofSession

/-- The session was begun successfully. -/
def begun (session : QofSession) : Bool := session.any QofCall.begins

/-- The session is begun and loaded, and neither ended nor destroyed. -/
structure Live (session : QofSession) : Prop where
  begun : session.begun = true
  loaded : .load none ∈ session
  not_ended : .end ∉ session
  not_destroyed : .destroy ∉ session

/-- The session may be destroyed: it was ended once if it had been begun. -/
structure Released (session : QofSession) : Prop where
  ended : session.count .end = if session.begun then 1 else 0
  not_destroyed : .destroy ∉ session

/-- Nothing is left of the session: it was released, and the last call on it destroyed it. -/
def Retired (session : QofSession) : Prop :=
  ∃ calls : QofSession, session = .destroy :: calls ∧ calls.Released

end QofSession

/-! ### The object

The member functions cut at their calls of the engine, so that anything can happen between two of
them: the stage says which call comes next, and holds the pointer the code has at hand. -/

/-- Where `Session::Open` stands: before -/
inductive OpenStep
  /-- `qof_session_new`, -/
  | news
  /-- the first `qof_session_begin`, -/
  | begins (session : ℕ)
  /-- `GncLockIsProvablyStale` and, where it says so, -/
  | asks (session : ℕ) (error : SessionError)
  /-- the begin with `SESSION_BREAK_LOCK`, -/
  | breaks (session : ℕ)
  /-- `qof_session_load`, -/
  | loads (session : ℕ)
  /-- `session_ = session`, -/
  | keeps (session : ℕ)
  /-- and `open_.store(true)`; on an error before `qof_session_end`, once it is begun, -/
  | flags
  | ends (session : ℕ) (error : SessionError)
  /-- and `qof_session_destroy`. -/
  | destroys (session : ℕ) (error : SessionError)
  deriving DecidableEq

/-- Where `Session::Close` stands: before -/
inductive CloseStep
  /-- `open_.store(false)`, -/
  | flags (session : ℕ)
  /-- the fail point and `qof_session_save`, -/
  | saves (session : ℕ)
  /-- `qof_session_end`, -/
  | ends (session : ℕ) (saveError : Option ShimError)
  /-- `qof_session_destroy`, -/
  | destroys (session : ℕ) (saveError : Option ShimError)
  /-- and `session_ = nullptr`. -/
  | clears (saveError : Option ShimError)
  deriving DecidableEq

/-- Where the engine thread is. -/
inductive Stage
  /-- Between two calls. -/
  | idle
  | opening (step : OpenStep)
  /-- In `Close`, called by the destructor or by anybody else. -/
  | closing (destructs : Bool) (step : CloseStep)
  /-- Past the destructor. -/
  | destroyed
  deriving DecidableEq

/-- A `Session` object, with the engine's sessions in the order they are made. -/
structure Lifecycle where
  /-- `session_`. -/
  session : Option ℕ
  /-- `open_`. -/
  isOpen : Bool
  stage : Stage
  sessions : List QofSession

/-- The answers a step may need. -/
structure SessionFate extends OpenFate, CloseFate where
  /-- `DAICHOD_FAIL_AT` names `session_close_save`. -/
  failPoint : Bool

namespace Lifecycle

/-- What the engine thread, or another thread, does next. -/
inductive Event
  | «open»
  | close
  | destruct
  /-- The call under way makes a step. -/
  | step (fate : SessionFate)
  /-- Another thread calls `is_open()`. -/
  | isOpen

/-- What a call gives its caller. -/
inductive Output
  | opened
  | openThrew (error : ShimError)
  | closed
  | closeThrew (error : ShimError)
  | destructed
  | isOpen (answer : Bool)
  deriving DecidableEq

/-- A new object. -/
def init : Lifecycle := ⟨none, false, .idle, []⟩

variable (config : Config) (s : Lifecycle)

/-- The engine's sessions after a call on one of them. -/
def call (session : ℕ) (call : QofCall) : List QofSession := s.sessions.modify session (call :: ·)

/-- The error for a scheme that is not supported. -/
def unsupportedScheme : ShimError :=
  ⟨.invalidArgument, "unsupported book URI scheme; only sqlite3:// and postgres:// books are crash-safe",
    config.bookUri⟩

/-- What `FailPointMaybe("session_close_save")` throws. -/
def injectedFailure : ShimError :=
  ⟨.engineError, "injected failure at fail point", "session_close_save"⟩

/-- The mode of the first begin. -/
def mode : OpenMode := if config.readOnly then .readOnly else .normalOpen

/-- What follows on the answer to the first begin, -/
def afterBegin (session : ℕ) : Option SessionError → OpenStep
  | none => .loads session
  | some e =>
    if e.error = .locked ∧ config.readOnly = false then .asks session e else .destroys session e

/-- on that of `GncLockIsProvablyStale`, -/
def afterAsking (session : ℕ) (e : SessionError) (stale : Bool) : OpenStep :=
  if hasScheme config.bookUri "sqlite3://" = false ∨ stale = true then .breaks session
  else .destroys session e

/-- on the answer to the begin that breaks the lock, -/
def afterBreaking (session : ℕ) : Option SessionError → OpenStep
  | none => .loads session
  | some e => .destroys session e

/-- and on that to the load. -/
def afterLoad (session : ℕ) : Option SessionError → OpenStep
  | none => .keeps session
  | some e => .ends session e

/-- `Session::Open` up to its first call of the engine. -/
def callOpen : Lifecycle × Option Output :=
  if s.session.isSome then (s, some .opened)
  else if hasSupportedScheme config.bookUri then ({ s with stage := .opening .news }, none)
  else (s, some (.openThrew (unsupportedScheme config)))

/-- A step of `Session::Open`. -/
def stepOpen (fate : SessionFate) : OpenStep → Lifecycle × Option Output
  | .news =>
    ({ s with
        stage := .opening (.begins s.sessions.length), sessions := s.sessions ++ [[.new]] }, none)
  | .begins session =>
    ({ s with
        stage := .opening (afterBegin config session fate.beginError)
        sessions := s.call session (.begin (mode config) fate.beginError) }, none)
  | .asks session e =>
    ({ s with stage := .opening (afterAsking config session e fate.lockIsProvablyStale) }, none)
  | .breaks session =>
    ({ s with
        stage := .opening (afterBreaking session fate.breakLockError)
        sessions := s.call session (.begin .breakLock fate.breakLockError) }, none)
  | .loads session =>
    ({ s with
        stage := .opening (afterLoad session fate.loadError)
        sessions := s.call session (.load fate.loadError) }, none)
  | .keeps session => ({ s with session := some session, stage := .opening .flags }, none)
  | .flags => ({ s with isOpen := true, stage := .idle }, some .opened)
  | .ends session e =>
    ({ s with stage := .opening (.destroys session e), sessions := s.call session .end }, none)
  | .destroys session e =>
    ({ s with stage := .idle, sessions := s.call session .destroy },
      some (.openThrew (e.toShimError config.bookUri)))

/-- What the save of `Session::Close` throws. -/
def saveError (fate : SessionFate) : Option ShimError :=
  if fate.failPoint then some injectedFailure
  else fate.saveError.map (·.toShimError config.bookUri)

/-- How `Session::Close` comes back to its caller; the destructor swallows its error. -/
def closed (destructs : Bool) (error : Option ShimError) : Output :=
  if destructs then .destructed
  else match error with
    | none => .closed
    | some e => .closeThrew e

/-- A step of `Session::Close`. -/
def stepClose (destructs : Bool) (fate : SessionFate) : CloseStep → Lifecycle × Option Output
  | .flags session =>
    ({ s with
        isOpen := false
        stage := .closing destructs (
          if config.readOnly then .ends session none else .saves session) }, none)
  | .saves session =>
    ({ s with
        stage := .closing destructs (.ends session (saveError config fate))
        sessions := if fate.failPoint then s.sessions else s.call session (.save fate.saveError) }, none)
  | .ends session e =>
    ({ s with stage := .closing destructs (.destroys session e), sessions := s.call session .end }, none)
  | .destroys session e =>
    ({ s with stage := .closing destructs (.clears e), sessions := s.call session .destroy }, none)
  | .clears e =>
    ({ s with session := none, stage := if destructs then .destroyed else .idle },
      some (closed destructs e))

/-- `Session::Close`, up to its first step. -/
def callClose : Lifecycle × Option Output :=
  match s.session with
  | none => (s, some .closed)
  | some session => ({ s with stage := .closing false (.flags session) }, none)

/-- `Session::~Session`, up to the first step of its `Close`. -/
def destruct : Lifecycle × Option Output :=
  match s.session with
  | none => ({ s with stage := .destroyed }, some .destructed)
  | some session => ({ s with stage := .closing true (.flags session) }, none)

/-- What an event does, and what it answers. -/
def react : Event → Lifecycle × Option Output
  | .open => match s.stage with
    | .idle => s.callOpen config
    | _ => (s, none)
  | .close => match s.stage with
    | .idle => s.callClose
    | _ => (s, none)
  | .destruct => match s.stage with
    | .idle => s.destruct
    | _ => (s, none)
  | .step fate => match s.stage with
    | .opening step => s.stepOpen config fate step
    | .closing destructs step => s.stepClose config destructs fate step
    | _ => (s, none)
  | .isOpen => match s.stage with
    | .destroyed => (s, none)
    | _ => (s, some (.isOpen s.isOpen))

/-- The object after an event. -/
def next (e : Event) : Lifecycle := (react config s e).1

/-- What an event answers. -/
def out (e : Event) : Option Output := (react config s e).2

/-- The object after a run. -/
abbrev run (events : List Event) : Lifecycle := Machine.run (next config) s events

/-! ### A call that nobody interrupts

A call goes through a fixed number of steps and ends. Each lemma on `Finishes` is about one stage,
counted from the end backwards, and they chain by `Finishes.step`. -/

/-- What all the events of a run answer. -/
def answers (events : List Event) : List Output :=
  (Machine.outputs (next config) (out config) s events).reduceOption

/-- After `n` steps the call under way is over: it has given its caller `o`, and there is a
session or not. -/
structure Finishes (fate : SessionFate) (n : ℕ) (o : Output) (isSome : Bool) : Prop where
  idle : (run config s (List.replicate n (.step fate))).stage = .idle
  session : (run config s (List.replicate n (.step fate))).session.isSome = isSome
  answers : answers config s (List.replicate n (.step fate)) = [o]

section Uninterrupted

variable {config s} {s' : Lifecycle} {fate : SessionFate} {n : ℕ} {o : Output} {isSome : Bool}
  {session : ℕ}

/-- An object that nobody has called does nothing. -/
theorem run_steps_idle (h : s.stage = .idle) :
    run config s (List.replicate n (.step fate)) = s ∧
      answers config s (List.replicate n (.step fate)) = [] := by
  have hreact : react config s (.step fate) = (s, none) := by simp [react, h]
  induction n with
  | zero => exact ⟨rfl, rfl⟩
  | succ n ih =>
    simp only [answers] at ih ⊢
    rw [List.replicate_succ, run, Machine.run_cons, Machine.outputs, next, out, hreact]
    exact ih

/-- One step more before the call is over. -/
theorem Finishes.step (h : react config s (.step fate) = (s', none))
    (hrest : Finishes config s' fate n o isSome) : Finishes config s fate (n + 1) o isSome := by
  have hnext : next config s (.step fate) = s' := congrArg Prod.fst h
  have hout : out config s (.step fate) = none := congrArg Prod.snd h
  constructor
  · rw [List.replicate_succ, run, Machine.run_cons, hnext]
    exact hrest.idle
  · rw [List.replicate_succ, run, Machine.run_cons, hnext]
    exact hrest.session
  · rw [List.replicate_succ, Lifecycle.answers, Machine.outputs, hnext, hout]
    exact hrest.answers

/-- The call's last step, with its answer. -/
theorem Finishes.last (h : react config s (.step fate) = (s', some o)) (hidle : s'.stage = .idle)
    (hsession : s'.session.isSome = isSome) : Finishes config s fate (n + 1) o isSome := by
  have hnext : next config s (.step fate) = s' := congrArg Prod.fst h
  have hout : out config s (.step fate) = some o := congrArg Prod.snd h
  obtain ⟨hrun, hanswers⟩ := @run_steps_idle config s' fate n hidle
  rw [run] at hrun
  constructor
  · rw [List.replicate_succ, run, Machine.run_cons, hnext, hrun]
    exact hidle
  · rw [List.replicate_succ, run, Machine.run_cons, hnext, hrun]
    exact hsession
  · rw [List.replicate_succ, Lifecycle.answers, Machine.outputs, hnext, hout]
    exact congrArg (o :: ·) hanswers

/-- What `Session::Open` gives its caller after an error, or none. -/
def openOutput (config : Config) (error : Option SessionError) : Output :=
  match error.map (·.toShimError config.bookUri) with
  | none => .opened
  | some e => .openThrew e

/-- Destroying the session ends an `Open` that has failed. -/
theorem finishes_destroys {e : SessionError} (h : s.stage = .opening (.destroys session e))
    (hnone : s.session = none) :
    Finishes config s fate (n + 1) (openOutput config (some e)) false :=
  .last (by simp only [react, h, stepOpen]; rfl) rfl (by simp [hnone])

/-- `Session::Open` after its last begin. -/
theorem finishes_begun {error : Option SessionError}
    (h : s.stage = .opening (afterBreaking session error)) (hnone : s.session = none) :
    Finishes config s fate (n + 3) (openOutput config (error.or fate.loadError))
      (error.or fate.loadError).isNone := by
  cases error with
  | some e => exact finishes_destroys h hnone
  | none =>
    rw [afterBreaking] at h
    cases hload : fate.loadError with
    | none =>
      refine .step (by simp only [react, h, stepOpen, hload, afterLoad]; rfl) ?_
      refine .step (by simp only [react, stepOpen]; rfl) ?_
      exact .last (by simp only [react, stepOpen]; rfl) rfl rfl
    | some e =>
      refine .step (by simp only [react, h, stepOpen, hload, afterLoad]; rfl) ?_
      refine .step (by simp only [react, stepOpen]; rfl) ?_
      exact finishes_destroys rfl hnone

/-- `Session::Open` from its first call of the engine on. -/
theorem finishes_news (h : s.stage = .opening .news) (hnone : s.session = none) :
    Finishes config s fate 7
      (openOutput config ((Session.beginError fate.toOpenFate config).or fate.loadError))
      ((Session.beginError fate.toOpenFate config).or fate.loadError).isNone := by
  refine .step (by simp only [react, h, stepOpen]; rfl) ?_
  refine .step (by simp only [react, stepOpen]; rfl) ?_
  unfold Session.beginError
  cases hbegin : fate.beginError with
  | none => exact finishes_begun rfl hnone
  | some e =>
    by_cases hlocked : e.error = .locked ∧ config.readOnly = false
    · simp only [afterBegin, if_pos hlocked]
      refine .step (by simp only [react, stepOpen]; rfl) ?_
      rw [afterAsking]
      by_cases hbreaks : hasScheme config.bookUri "sqlite3://" = false ∨
          fate.lockIsProvablyStale = true
      · rw [if_pos hbreaks, if_pos ⟨hlocked.1, hlocked.2, hbreaks⟩]
        refine .step (by simp only [react, stepOpen]; rfl) ?_
        exact finishes_begun rfl hnone
      · rw [if_neg hbreaks, if_neg fun h => hbreaks h.2.2]
        exact finishes_destroys rfl hnone
    · simp only [afterBegin, if_neg hlocked]
      rw [if_neg fun h => hlocked ⟨h.1, h.2.1⟩]
      exact finishes_destroys rfl hnone

/-- `Session::Close` from its first step on. -/
theorem finishes_closing (h : s.stage = .closing false (.flags session)) :
    Finishes config s fate (n + 5)
      (closed false (if config.readOnly then none else saveError config fate)) false := by
  refine .step (by simp only [react, h, stepClose]; rfl) ?_
  cases hread : config.readOnly with
  | true =>
    refine .step (by simp only [react, stepClose]; rfl) ?_
    refine .step (by simp only [react, stepClose]; rfl) ?_
    exact .last (by simp only [react, stepClose]; rfl) rfl rfl
  | false =>
    refine .step (by simp only [react, stepClose]; rfl) ?_
    refine .step (by simp only [react, stepClose]; rfl) ?_
    refine .step (by simp only [react, stepClose]; rfl) ?_
    exact .last (by simp only [react, stepClose]; rfl) rfl rfl

/-- A call that comes back at once. -/
theorem react_then_idle {e : Event} (h : react config s e = (s, some o)) (hidle : s.stage = .idle) :
    run config s (e :: List.replicate n (.step fate)) = s ∧
      answers config s (e :: List.replicate n (.step fate)) = [o] := by
  have hnext : next config s e = s := congrArg Prod.fst h
  have hout : out config s e = some o := congrArg Prod.snd h
  obtain ⟨hrun, hanswers⟩ := @run_steps_idle config s fate n hidle
  rw [run, Machine.run_cons, Lifecycle.answers, Machine.outputs, hnext, hout]
  exact ⟨hrun, congrArg (o :: ·) hanswers⟩

/-- A call that makes `n` steps. -/
theorem react_then_finishes {e : Event} (h : react config s e = (s', none))
    (hrest : Finishes config s' fate n o isSome) :
    (run config s (e :: List.replicate n (.step fate))).stage = .idle ∧
      (run config s (e :: List.replicate n (.step fate))).session.isSome = isSome ∧
      answers config s (e :: List.replicate n (.step fate)) = [o] := by
  have hnext : next config s e = s' := congrArg Prod.fst h
  have hout : out config s e = none := congrArg Prod.snd h
  rw [run, Machine.run_cons, Lifecycle.answers, Machine.outputs, hnext, hout]
  exact ⟨hrest.idle, hrest.session, hrest.answers⟩

end Uninterrupted

/-! ### The calls as the daemon sees them

The daemon's model of a session is one step a call. It is the object's, run through without an
interruption. -/

section Refinement

variable [Wire] {config s} {w : World} {fate : SessionFate}

omit [Wire] in
/-- With a supported scheme, opening fails as beginning or as loading does. -/
theorem openError_of_hasSupportedScheme (h : hasSupportedScheme config.bookUri = true) :
    Session.openError fate.toOpenFate config
      = ((Session.beginError fate.toOpenFate config).or fate.loadError).map
          (·.toShimError config.bookUri) := by
  rw [Session.openError, if_pos h]
  cases Session.beginError fate.toOpenFate config <;> rfl

/-- What a call that ends so gives its caller. -/
def outputs (returned : Output) (threw : ShimError → Output) :
    EStateM.Result Exn World Unit → List Output
  | .ok _ _ => [returned]
  | .error (.shim e) _ => [threw e]
  | .error _ _ => []

/-- The object is between two calls, and has a session if the daemon has one. -/
structure Agrees (s : Lifecycle) (w : World) : Prop where
  idle : s.stage = .idle
  session : s.session.isSome = w.session.isSome

/-- **Uninterrupted**, a call of `Session::Open` is `Session.open`. -/
theorem run_open (h : s.Agrees w) (hconfig : w.config = config) :
    (run config s (.open :: List.replicate 7 (.step fate))).Agrees
        (worldAfter (Session.open fate.toOpenFate w)) ∧
      answers config s (.open :: List.replicate 7 (.step fate))
        = outputs .opened .openThrew (Session.open fate.toOpenFate w) := by
  obtain ⟨hidle, hsession⟩ := h
  subst hconfig
  rw [Session.run_open, ← hsession]
  -- an object that has a session answers at once
  cases hsome : s.session with
  | some kept =>
    obtain ⟨hrun, hanswers⟩ := @react_then_idle w.config s fate 7 .opened .open
      (by simp [react, hidle, callOpen, hsome]) hidle
    rw [hrun, hanswers]
    exact ⟨⟨hidle, hsession⟩, rfl⟩
  | none =>
    by_cases hscheme : hasSupportedScheme w.config.bookUri = true
    · have hreact : react w.config s .open = ({ s with stage := .opening .news }, none) := by
        simp [react, hidle, callOpen, hsome, hscheme]
      have hnews := @finishes_news w.config { s with stage := .opening .news } fate rfl hsome
      obtain ⟨hstage, hkept, hanswers⟩ := react_then_finishes hreact hnews
      rw [hanswers, if_neg (by simp), openError_of_hasSupportedScheme hscheme]
      -- the call is over after at most seven more steps, with the first error there was
      cases herror : (Session.beginError fate.toOpenFate w.config).or fate.loadError with
      | some e =>
        rw [herror] at hkept
        rw [hsome] at hsession
        exact ⟨⟨hstage, hkept.trans hsession⟩, rfl⟩
      | none =>
        rw [herror] at hkept
        exact ⟨⟨hstage, hkept⟩, rfl⟩
    · obtain ⟨hrun, hanswers⟩ := @react_then_idle w.config s fate 7
        (.openThrew (unsupportedScheme w.config)) .open
        (by simp [react, hidle, callOpen, hsome, hscheme]) hidle
      rw [hrun, hanswers, if_neg (by simp), Session.openError, if_neg hscheme]
      exact ⟨⟨hidle, hsession⟩, rfl⟩

/-- **Uninterrupted**, and with no fail point, a call of `Session::Close` is `Session.close`. -/
theorem run_close (h : s.Agrees w) (hconfig : w.config = config) (hfail : fate.failPoint = false) :
    (run config s (.close :: List.replicate 5 (.step fate))).Agrees
        (worldAfter (Session.close fate.toCloseFate w)) ∧
      answers config s (.close :: List.replicate 5 (.step fate))
        = outputs .closed .closeThrew (Session.close fate.toCloseFate w) := by
  obtain ⟨hidle, hsession⟩ := h
  subst hconfig
  rw [Session.run_close]
  cases hsome : s.session with
  | none =>
    have hnone : w.session.isNone = true := by simpa [hsome] using hsession
    obtain ⟨hrun, hanswers⟩ := @react_then_idle w.config s fate 5 .closed .close
      (by simp [react, hidle, callClose, hsome]) hidle
    rw [hrun, hanswers, if_pos hnone]
    exact ⟨⟨hidle, hsession⟩, rfl⟩
  | some session =>
    have hkept : ¬w.session.isNone = true := by
      simpa [Option.isSome_iff_ne_none, hsome] using hsession.symm
    have hreact : react w.config s .close
        = ({ s with stage := .closing false (.flags session) }, none) := by
      simp [react, hidle, callClose, hsome]
    have hclosing := @finishes_closing w.config { s with stage := .closing false (.flags session) }
      fate 0 session rfl
    obtain ⟨hstage, hleft, hanswers⟩ := react_then_finishes hreact hclosing
    rw [hanswers, if_neg hkept, saveError, hfail, Session.closeError]
    -- a read-only session is not saved
    cases hread : w.config.readOnly with
    | true => exact ⟨⟨hstage, hleft⟩, rfl⟩
    | false =>
      cases hsave : fate.saveError with
      | none => exact ⟨⟨hstage, hleft⟩, rfl⟩
      | some e => exact ⟨⟨hstage, hleft⟩, rfl⟩

end Refinement

end Lifecycle

end Daichod
