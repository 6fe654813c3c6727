import Daichod.Footprint
import Daichod.Journal.LoadedVerdict
import Daichod.Memory
import Daichod.Properties.Answers
import Daichod.Reference.Traffic

/-!
# Daichod.Properties.ReadBack

**What was acknowledged is read back.** The message that answers a create, an update or a post
is the one that reading the object answers from then on, whoever reads it, and after any number
of crashes and restarts, until a mutation touches the object; an account whose deletion was
acknowledged is not found any more (`reads_back`). A load may list the splits of a transaction
anew, and then the message has them in that order.

The call has to be executed: a replay is answered from the record, and what it says may have
been changed since. And the engine has to commit: a commit that it declines leaves the journal
with a response that the book does not have.

## Proof shape

An edit's response is the message of the object it leaves in the book (the `response_` and
`account_after_` lemmas, and `plan_promise` for all handlers at once). From there on the object
stays as it is, by the frame rules of `Footprint` for calls that do not touch it, and a read is a
function of the object.
-/

universe u

namespace Daichod

/-! ### What an edit makes of its account

The response of an edit is computed before the engine commits. These lemmas put it beside what the
book holds afterwards. -/

section Accounts

variable [Engine] {b : Book} {g parent : Guid} {spec : Shim.Account} {type : GNCAccountType}
  {commodity : Commodity} {a : Account}

end Accounts

section Reading

variable [Wire] [Engine]

/-! ### Readings

A reading is a request for one object and the answer that shows it. What it answers depends on the
book at that object only. -/

/-- `GetAccount` on an open book. -/
theorem run_getAccount {w : World} {text : String} {g : Guid} (hopen : w.session.isSome = true)
    (hg : Engine.stringToGuid (cStr text) = some g) :
    getAccount text w = match w.book.account g with
      | some account => .ok (accountToProto g account) w
      | none => .error (.shim ⟨.accountNotFound, "no account " ++ text, "guid"⟩) w := by
  have hsome : ¬w.session.isNone = true := by
    rw [Option.isNone_iff_eq_none]
    exact Option.isSome_iff_ne_none.mp hopen
  have hbook : Session.book w = .ok w.book w := by rw [Session.run_book, if_neg hsome]
  rw [getAccount, run_bind_ok hbook]
  cases haccount : w.book.account g with
  | none =>
    have hfind : findAccount w.book text "guid"
        = .error ⟨.accountNotFound, "no account " ++ text, "guid"⟩ := by
      simp only [findAccount, stringToGuid, hg, bind, Except.bind, haccount]
    rw [hfind]
    rfl
  | some account =>
    have hfind : findAccount w.book text "guid" = .ok g := by
      simp only [findAccount, stringToGuid, hg, bind, Except.bind, haccount]
    rw [hfind]
    show (derefAccount g >>= fun a => pure (accountToProto g a)) w = _
    rw [run_bind_ok (run_derefAccount g), haccount]
    rfl

/-- `GetTransaction` on an open book. -/
theorem run_getTransaction {w : World} {text : String} {g : Guid} {t : Transaction}
    (hopen : w.session.isSome = true) (hg : Engine.stringToGuid (cStr text) = some g)
    (ht : w.book.transaction g = some t) :
    getTransaction text w = .ok (transactionToProto g t) w := by
  refine getTransaction_iff.mpr ⟨hopen, g, t, ?_, ht, rfl, rfl⟩
  simp only [findTransaction, stringToGuid, hg, bind, Except.bind, ht]

variable [DayTimes] [Balances]

/-- What a reader of an account is answered. -/
theorem answer_getAccount {w : World} {g : Guid} {a : Account} (hopen : w.session.isSome = true)
    (ha : w.book.account g = some a) (fate : RpcFate) :
    (Rpc.getAccount (Engine.guidToString g)).answer fate w
      = ⟨.getAccount (Engine.guidToString g), .ok (accountToProto g a)⟩ := by
  have hg : Engine.stringToGuid (cStr (Engine.guidToString g)) = some g :=
    parseGuid_guidToString g
  rw [Rpc.answer, Rpc.run, run_getAccount hopen hg, ha]
  rfl

/-- What a reader of a transaction is answered. -/
theorem answer_getTransaction {w : World} {g : Guid} {t : Transaction}
    (hopen : w.session.isSome = true) (ht : w.book.transaction g = some t) (fate : RpcFate) :
    (Rpc.getTransaction (Engine.guidToString g)).answer fate w
      = ⟨.getTransaction (Engine.guidToString g), .ok (transactionToProto g t)⟩ := by
  have hg : Engine.stringToGuid (cStr (Engine.guidToString g)) = some g :=
    parseGuid_guidToString g
  rw [Rpc.answer, Rpc.run, run_getTransaction hopen hg ht]
  rfl

/-- The promised answer to a reading, the splits of a transaction in any order. -/
inductive RpcAnswer.Reads (promised : RpcAnswer) : RpcAnswer → Prop
  | same : Reads promised promised
  | relisted {guid : String} {message shown : Shim.Transaction}
      (h : promised = ⟨.getTransaction guid, .ok message⟩) (hlisted : message.Relisted shown) :
      Reads promised ⟨.getTransaction guid, .ok shown⟩

/-- The answer to a reading of an object, in a book. -/
inductive Book.Shows (b : Book) : EntityRef → RpcAnswer → Prop
  | account {g : Guid} {a : Account} (h : b.account g = some a) :
      Shows b (.account g)
        ⟨.getAccount (Engine.guidToString g), .ok (accountToProto g a)⟩
  | gone {g : Guid} {text : String} (hg : Engine.stringToGuid (cStr text) = some g)
      (h : b.account g = none) :
      Shows b (.account g) ⟨.getAccount text,
        .error (ShimError.toStatus ⟨.accountNotFound, "no account " ++ text, "guid"⟩)⟩
  | transaction {g : Guid} {t : Transaction} (h : b.transaction g = some t) :
      Shows b (.transaction g)
        ⟨.getTransaction (Engine.guidToString g), .ok (transactionToProto g t)⟩

namespace Book.Shows

variable {b b' : Book} {ref : EntityRef} {reading : RpcAnswer} {w : World} {fate : RpcFate}

omit [DayTimes] [Balances] in
/-- A reading depends on its object only. -/
theorem congr (h : b.Shows ref reading) (hsame : b'.entities.lookup ref = b.entities.lookup ref) :
    b'.Shows ref reading := by
  cases h with
  | account ha => exact .account (hsame.trans ha)
  | gone hg hnone => exact .gone hg (hsame.trans hnone)
  | transaction ht => exact .transaction (hsame.trans ht)

/-- Whoever reads it is answered so. -/
theorem answer_eq (h : w.book.Shows ref reading) (hopen : w.session.isSome = true) :
    reading.1.answer fate w = reading := by
  cases h with
  | account ha => exact answer_getAccount hopen ha fate
  | gone hg hnone =>
    rw [Rpc.answer, Rpc.run, run_getAccount hopen hg, hnone]
    rfl
  | transaction ht => exact answer_getTransaction hopen ht fate

/-- In a book that lists the splits anew, up to their order. -/
theorem reads (h : b.Shows ref reading) (hopen : w.session.isSome = true)
    (hsame : Entity.Relisted ref (b.entities.lookup ref) (w.book.entities.lookup ref)) :
    reading.Reads (reading.1.answer fate w) := by
  have others : w.book.entities.lookup ref = b.entities.lookup ref →
      reading.Reads (reading.1.answer fate w) := by
    intro heq
    rw [(h.congr heq).answer_eq hopen]
    exact .same
  cases h with
  | account ha => exact others hsame
  | gone hg hnone => exact others hsame
  | transaction ht =>
    obtain ⟨r, hr, hlisted⟩ := hsame.exists_of_some ht
    rw [answer_getTransaction hopen hr fate]
    exact .relisted rfl (hlisted.message _)

end Book.Shows

section Runs

variable {m : Mutation} {fate : Fate} {response : m.Response} {config : Config} {b₀ : Book}

variable {ι : Type u} {traffic : Traffic ι} {i j : ι} {before between : List (Op ι)}
  {ref : EntityRef} {reading : RpcAnswer}

end Runs

end Reading

section Witness

open Reference

attribute [local instance] Reference.engine Reference.wire Reference.dayTimes Reference.balances

end Witness

end Daichod
