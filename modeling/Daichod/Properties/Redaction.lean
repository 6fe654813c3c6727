import Daichod.Engine.Uri
import Daichod.Reference
import Daichod.Rpc.SessionService

/-!
# Daichod.Properties.Redaction

**Whether replies depend on the password of the book's URI.** Two daemons that differ in
nothing but that password are run through the same events, with the same answers of the
engine, and their replies are compared.

`BookInfo` carries the URI through `RedactUri`, which hides what stands between the first
`':'` and the first `'@'`; a backend error of opening or saving carries the URI as it is,
and so does the refusal of an unsupported scheme. So the replies agree exactly when no
`OpenBook` or `CloseBook` of the run fails that way, and `RedactUri` leaves the same of both
passwords wherever a `BookInfo` is answered (`replies_eq_iff`).

## Proof shape

The two daemons stay twins (`BookUri.Twins`): the same world up to the password in the URI. That
is the invariant, and every event keeps it, since what becomes of the world does not depend on the
password. So their replies are compared event by event (`reply_eq_iff`), each from twin worlds.
-/

namespace Daichod

/-! ### A URI with credentials -/

namespace BookUri

variable (u : BookUri) {p p' : List Char}

/-- Schemes are told apart before the credentials begin. -/
theorem isPrefixOf_scheme {name scheme rest rest' : List Char} (hname : ':' ∉ name)
    (hscheme : ':' ∉ scheme) :
    (name ++ "://".toList).isPrefixOf (scheme ++ "://".toList ++ rest)
      = (name ++ "://".toList).isPrefixOf (scheme ++ "://".toList ++ rest') := by
  induction scheme generalizing name with
  | nil =>
    cases name with
    | nil => rfl
    | cons c name =>
      have hc : (c == ':') = false :=
        beq_eq_false_iff_ne.mpr fun heq => hname (heq ▸ List.mem_cons_self)
      simp [List.isPrefixOf, hc]
  | cons d scheme ih =>
    cases name with
    | nil =>
      have hd : (':' == d) = false :=
        beq_eq_false_iff_ne.mpr fun heq => hscheme (heq ▸ List.mem_cons_self)
      simp [List.isPrefixOf, hd]
    | cons c name =>
      have htail := ih (fun hmem => hname (List.mem_cons_of_mem _ hmem))
        (fun hmem => hscheme (List.mem_cons_of_mem _ hmem))
      simp only [List.cons_append, List.isPrefixOf] at htail ⊢
      rw [htail]

/-- Both URIs have the same scheme, whatever the passwords are. -/
theorem hasScheme_withPassword {scheme : String} (h : scheme ∈ ["sqlite3://", "postgres://"])
    (p p' : List Char) : hasScheme (u.withPassword p) scheme = hasScheme (u.withPassword p') scheme := by
  have hscheme : ∃ name : List Char, ':' ∉ name ∧ scheme.toList = name ++ "://".toList := by
    rcases List.mem_pair.mp h with rfl | rfl
    · exact ⟨"sqlite3".toList, by decide, rfl⟩
    · exact ⟨"postgres".toList, by decide, rfl⟩
  obtain ⟨name, hname, heq⟩ := hscheme
  simp only [hasScheme, withPassword, String.toList_ofList, heq]
  exact isPrefixOf_scheme hname u.scheme_plain

end BookUri

section Replies

/-! ### Replies -/

variable [Wire]

/-- What can happen to the daemon, as far as its session is concerned. -/
inductive SessionEvent
  | «openBook» (fate : OpenFate) (info : EngineInfo)
  | closeBook (fate : CloseFate)
  | getBookInfo (info : EngineInfo)
  /-- Other calls, and what they make of the journal, the store and the pending error. -/
  | others (journal : Journal) (store : EditStore Entity) (error : Option SessionError)

/-- What a client is answered. -/
inductive SessionReply
  | bookInfo (reply : Reply BookInfo)
  | closed (reply : Reply Unit)
  | others

namespace SessionEvent

variable [Engine]

/-- The world behind an event. -/
def step (w : World) : SessionEvent → World
  | .openBook fate info => worldAfter (SessionService.openBook fate info w)
  | .closeBook fate => worldAfter (SessionService.closeBook fate w)
  | .getBookInfo info => worldAfter (SessionService.getBookInfo info w)
  | .others journal store error =>
    { w with journal, store, session := w.session.map ({ · with error }) }

/-- What the event's client is answered. -/
def reply (w : World) : SessionEvent → SessionReply
  | .openBook fate info => .bookInfo (replyOf (SessionService.openBook fate info w))
  | .closeBook fate => .closed (replyOf (SessionService.closeBook fate w))
  | .getBookInfo info => .bookInfo (replyOf (SessionService.getBookInfo info w))
  | .others .. => .others

end SessionEvent

/-! ### The errors that carry the URI -/

omit [Wire] in
/-- A status shows all of an error: its code, message and context. -/
theorem ShimError.toStatus_inj {e e' : ShimError} : e.toStatus = e'.toStatus ↔ e = e' := by
  constructor
  · intro h
    obtain ⟨code, message, context⟩ := e
    simp only [ShimError.toStatus, packStatus, Status.error.injEq, ErrorDetail.mk.injEq] at h
    obtain ⟨-, -, rfl, rfl, rfl⟩ := h
    rfl
  · rintro rfl
    rfl

namespace Session

omit [Wire] in
/-- A backend error is the same for every URI but for carrying it. -/
theorem toShimError_context (error : SessionError) (uri uri' : String) :
    error.toShimError uri = { error.toShimError uri' with context := uri } := by
  obtain ⟨kind, message⟩ := error
  cases kind <;> rfl

omit [Wire] in
/-- So are the errors of opening, among URIs of one scheme. -/
theorem openError_of_hasScheme {fate : OpenFate} {config : Config} {uri : String}
    (hscheme : ∀ scheme ∈ ["sqlite3://", "postgres://"],
      hasScheme uri scheme = hasScheme config.bookUri scheme) :
    openError fate { config with bookUri := uri }
      = (openError fate config).map ({ · with context := uri }) := by
  have hsqlite := hscheme "sqlite3://" (by simp)
  have hpostgres := hscheme "postgres://" (by simp)
  have hbegin : beginError fate { config with bookUri := uri } = beginError fate config := by
    simp only [beginError, hsqlite]
  have hsupported : hasSupportedScheme uri = hasSupportedScheme config.bookUri := by
    simp only [hasSupportedScheme, hsqlite, hpostgres]
  simp only [openError, hsupported, hbegin]
  cases hasSupportedScheme config.bookUri with
  | false => rfl
  | true =>
    simp only [if_true]
    cases beginError fate config with
    | some e => exact congrArg some (toShimError_context e _ _)
    | none =>
      cases fate.loadError with
      | some e => exact congrArg some (toShimError_context e _ _)
      | none => rfl

omit [Wire] in
/-- An error of opening carries the URI. -/
theorem openError_context {fate : OpenFate} {config : Config} {e : ShimError}
    (h : openError fate config = some e) : e.context = config.bookUri := by
  have hsame := @openError_of_hasScheme fate config config.bookUri fun _ _ => rfl
  rw [h] at hsame
  exact congrArg ShimError.context (Option.some.inj hsame)

omit [Wire] in
/-- With another URI, closing fails the same way and carries that URI. -/
theorem closeError_withUri {fate : CloseFate} {config : Config} {uri : String} :
    closeError fate { config with bookUri := uri }
      = (closeError fate config).map ({ · with context := uri }) := by
  simp only [closeError]
  cases config.readOnly with
  | true => rfl
  | false =>
    cases fate.saveError with
    | some e => exact congrArg some (toShimError_context e _ _)
    | none => rfl

omit [Wire] in
/-- An error of closing carries the URI. -/
theorem closeError_context {fate : CloseFate} {config : Config} {e : ShimError}
    (h : closeError fate config = some e) : e.context = config.bookUri := by
  have hsame := @closeError_withUri fate config config.bookUri
  rw [h] at hsame
  exact congrArg ShimError.context (Option.some.inj hsame)

end Session

/-! ### Two daemons side by side

What the engine answers is the same for both by assumption: it is part of the event. -/

/-- The world with another URI of the book. -/
def World.withUri (uri : String) (w : World) : World :=
  { w with config := { w.config with bookUri := uri } }

/-- The engine refuses the event with an error. -/
def SessionEvent.Refused (w : World) : SessionEvent → Prop
  | .openBook fate _ => w.session = none ∧ ¬Session.Opens fate w.config
  | .closeBook fate => w.session ≠ none ∧ w.config.readOnly = false ∧ fate.saveError ≠ none
  | .getBookInfo _ | .others .. => False

/-- The event is one that answers a `BookInfo`, if nothing is wrong. -/
def SessionEvent.Informs (w : World) : SessionEvent → Prop
  | .openBook .. => True
  | .getBookInfo _ => w.session ≠ none
  | .closeBook _ | .others .. => False

/-- No error is answered with the URI in it, and the `BookInfo` shows the same of both
passwords. -/
def BookUri.Conceals (u : BookUri) (p p' : List Char) (w : World) (e : SessionEvent) : Prop :=
  ¬e.Refused w ∧ (e.Informs w → u.unredacted p = u.unredacted p')

namespace SessionEvent

variable [Engine] (w : World)

/-- `OpenBook` as one expression: it answers the open book, the error, or the book it has just
opened. -/
theorem run_openBook (fate : OpenFate) (info : EngineInfo) :
    SessionService.openBook fate info w =
      if w.session.isSome then .ok (SessionService.bookInfo info w) w
      else match Session.openError fate w.config with
        | some e => .error (.shim e) w
        | none => .ok (SessionService.bookInfo info w) { w.load fate.loadOrder with
            session := some { error := none, checked := false, reconciled := false } } := by
  simp only [SessionService.openBook, run_bind, Session.run_open]
  cases hs : w.session with
  | some s =>
    simp only [Option.isSome_some, if_true, SessionService.run_fillBookInfo, hs]
    rfl
  | none =>
    cases Session.openError fate w.config with
    | some e => rfl
    | none =>
      simp only [Option.isSome_none, Bool.false_eq_true, if_false, SessionService.run_fillBookInfo]
      rfl

/-- `GetBookInfo` changes nothing. -/
theorem step_getBookInfo (info : EngineInfo) : step w (.getBookInfo info) = w := by
  simp only [step, SessionService.getBookInfo, SessionService.run_fillBookInfo]
  split <;> rfl

end SessionEvent

section TwoRuns

variable [Engine] (u : BookUri) {p p' : List Char} {w w' : World}

/-- Two worlds that differ in the password only. -/
def BookUri.Twins (p p' : List Char) (w w' : World) : Prop :=
  w.config.bookUri = u.withPassword p ∧ w' = w.withUri (u.withPassword p')

variable {u}

namespace BookUri.Twins

omit [Wire] [Engine] in
/-- An error that carries the one URI and the same with the other. -/
theorem toStatus_eq_iff {e : ShimError} (h : e.context = u.withPassword p) :
    e.toStatus = ({ e with context := u.withPassword p' } : ShimError).toStatus ↔ p = p' := by
  rw [ShimError.toStatus_inj, ← u.withPassword_inj, ← h]
  obtain ⟨code, message, context⟩ := e
  simp

variable (h : u.Twins p p' w w')
include h

omit [Engine] in
/-- Both openings go the same way, with each one's URI in the error. -/
theorem openError (fate : OpenFate) :
    Session.openError fate w'.config
      = (Session.openError fate w.config).map ({ · with context := u.withPassword p' }) := by
  obtain ⟨huri, rfl⟩ := h
  refine Session.openError_of_hasScheme fun scheme hscheme => ?_
  rw [huri]
  exact u.hasScheme_withPassword hscheme p' p

omit [Engine] in
/-- And both closings. -/
theorem closeError (fate : CloseFate) :
    Session.closeError fate w'.config
      = (Session.closeError fate w.config).map ({ · with context := u.withPassword p' }) := by
  obtain ⟨huri, rfl⟩ := h
  exact Session.closeError_withUri

/-- The same happens to both. -/
theorem step (e : SessionEvent) : u.Twins p p' (e.step w) (e.step w') := by
  have herror := h.openError
  have hclose := h.closeError
  obtain ⟨huri, rfl⟩ := h
  cases e with
  | others journal store error => exact ⟨huri, rfl⟩
  | getBookInfo info =>
    rw [SessionEvent.step_getBookInfo, SessionEvent.step_getBookInfo]
    exact ⟨huri, rfl⟩
  | «openBook» fate info =>
    simp only [SessionEvent.step, SessionEvent.run_openBook, herror]
    have hsession : (w.withUri (u.withPassword p')).session = w.session := rfl
    rw [hsession]
    cases w.session.isSome with
    | true => exact ⟨huri, rfl⟩
    | false =>
      cases Session.openError fate w.config with
      | some e => exact ⟨huri, rfl⟩
      | none => exact ⟨huri, rfl⟩
  | closeBook fate =>
    simp only [SessionEvent.step, SessionService.closeBook, Session.run_close, hclose]
    have hsession : (w.withUri (u.withPassword p')).session = w.session := rfl
    have hreadOnly : (w.withUri (u.withPassword p')).config.readOnly = w.config.readOnly := rfl
    rw [hsession, hreadOnly]
    cases w.session.isNone with
    | true => exact ⟨huri, rfl⟩
    | false =>
      cases Session.closeError fate w.config with
      | some e => exact ⟨huri, rfl⟩
      | none => cases w.config.readOnly <;> exact ⟨huri, rfl⟩

/-- When both clients are answered the same `BookInfo`. -/
theorem bookInfo_eq_iff (info : EngineInfo) :
    SessionService.bookInfo info w = SessionService.bookInfo info w' ↔
      u.unredacted p = u.unredacted p' := by
  obtain ⟨huri, rfl⟩ := h
  rw [← u.redactUri_eq_iff, ← huri]
  simp [SessionService.bookInfo, World.withUri]

/-- When both clients are answered the same. -/
theorem reply_eq_iff (e : SessionEvent) :
    e.reply w = e.reply w' ↔ p = p' ∨ u.Conceals p p' w e := by
  have herror := h.openError
  have hclose := h.closeError
  have hinfo := h.bookInfo_eq_iff
  have hrefl : p = p' → u.unredacted p = u.unredacted p' := fun heq => heq ▸ rfl
  obtain ⟨huri, rfl⟩ := h
  have hsession : (w.withUri (u.withPassword p')).session = w.session := rfl
  -- an error shows the whole URI, so it tells the passwords apart; a `BookInfo` shows what
  -- `RedactUri` leaves
  cases e with
  | others journal store error => simp [SessionEvent.reply, BookUri.Conceals,
      SessionEvent.Refused, SessionEvent.Informs]
  | getBookInfo info =>
    simp only [SessionEvent.reply, SessionService.getBookInfo, SessionService.run_fillBookInfo,
      hsession, BookUri.Conceals, SessionEvent.Refused, SessionEvent.Informs]
    cases hs : w.session with
    | none => simp [replyOf]
    | some s =>
      simp [replyOf, hinfo]
      exact hrefl
  | «openBook» fate info =>
    simp only [SessionEvent.reply, SessionEvent.run_openBook, herror, hsession, BookUri.Conceals,
      SessionEvent.Refused, SessionEvent.Informs, ← Session.openError_eq_none_iff]
    cases hs : w.session with
    | some s =>
      simp [replyOf, hinfo]
      exact hrefl
    | none =>
      cases he : Session.openError fate w.config with
      | some e =>
        have huri := (Session.openError_context he).trans huri
        simp [replyOf, statusFromException, toStatus_eq_iff huri]
      | none =>
        simp [replyOf, hinfo]
        exact hrefl
  | closeBook fate =>
    have hrefused : Session.closeError fate w.config ≠ none ↔
        w.config.readOnly = false ∧ fate.saveError ≠ none := by
      rw [ne_eq, Session.closeError_eq_none_iff]
      simp
    simp only [SessionEvent.reply, SessionService.closeBook, Session.run_close, hclose, hsession,
      BookUri.Conceals, SessionEvent.Refused, SessionEvent.Informs, ← hrefused]
    cases hs : w.session with
    | none => simp [replyOf]
    | some s =>
      cases he : Session.closeError fate w.config with
      | some e =>
        have huri := (Session.closeError_context he).trans huri
        simp [replyOf, statusFromException, toStatus_eq_iff huri]
      | none => simp [replyOf]

end BookUri.Twins

/-- **When the replies of a run do not depend on the password.** -/
theorem replies_eq_iff (u : BookUri) (p p' : List Char) (w : World) (events : List SessionEvent) :
    Machine.outputs SessionEvent.step SessionEvent.reply (w.withUri (u.withPassword p)) events
        = Machine.outputs SessionEvent.step SessionEvent.reply (w.withUri (u.withPassword p')) events
      ↔ Machine.Along SessionEvent.step (fun w e => p = p' ∨ u.Conceals p p' w e)
          (w.withUri (u.withPassword p)) events :=
  Machine.outputs_eq_iff (u.Twins p p') (fun _ _ e h => h.step e) (fun _ _ e h => h.reply_eq_iff e)
    ⟨rfl, rfl⟩

end TwoRuns

end Replies

/-! ### A password in a reply -/

section Passwords

open Reference

attribute [local instance] Reference.engine Reference.wire

/-- The replies of a daemon that has the book open, with a password for it. -/
def repliesWith (password : String) (events : List SessionEvent) : List SessionReply :=
  Machine.outputs SessionEvent.step SessionEvent.reply
    (started.world.withUri (booksUri.withPassword password.toList)) events

/-- The disk is full when the book is saved. -/
def failingClose : SessionEvent := .closeBook ⟨some ⟨.other 1, "disk full"⟩⟩

/-- The client asks for the `BookInfo`. -/
def askInfo : SessionEvent :=
  .getBookInfo { gncVersion := "5.10", daichodVersion := "0.1", bookIsReadonly := false }

/-- A failed save answers the password; a password with an `'@'` is not hidden either. -/
theorem passwords_shown :
    repliesWith "one" [failingClose] ≠ repliesWith "two" [failingClose] ∧
      repliesWith "p@ss" [askInfo] ≠ repliesWith "p@th" [askInfo] := by
  have hopen : started.world.session ≠ none := by decide +kernel
  have hwritable : started.world.config.readOnly = false := by decide +kernel
  have htwins : ∀ p p', booksUri.Twins p p' (started.world.withUri (booksUri.withPassword p))
      (started.world.withUri (booksUri.withPassword p')) := fun p p' => ⟨rfl, rfl⟩
  constructor
  · intro h
    rcases (htwins _ _).reply_eq_iff failingClose |>.mp (List.cons.inj h).1 with heq | ⟨hquiet, -⟩
    · exact absurd heq (by decide)
    · exact hquiet ⟨hopen, hwritable, by simp⟩
  · intro h
    rcases (htwins _ _).reply_eq_iff askInfo |>.mp (List.cons.inj h).1 with heq | ⟨-, hhidden⟩
    · exact absurd heq (by decide)
    · exact absurd (hhidden hopen) (by decide)

end Passwords

end Daichod
