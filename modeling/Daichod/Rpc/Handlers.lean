import Daichod.Rpc.BalanceService
import Daichod.Rpc.Dispatch
import Daichod.Rpc.GetPrices
import Daichod.Rpc.QuerySplits
import Daichod.Rpc.SessionService

/-!
# Daichod.Rpc.Handlers

Every RPC that goes through the engine queue as one: which handler a request goes to, what
the handler runs on the engine thread, and what its client is answered. `Ping` is the one
RPC that is not here; it asks the queue for its length and never enters it.

A handler is the task of one event of the daemon or it only looks (`Daemon.serve_eq`).
-/

namespace Daichod

variable [Wire]

/-! ### Tasks that only look

The closure lemmas mirror the way the read handlers are written: sequencing, a loop over a list, a
journal statement, and the primitives that fetch the book or dereference a row. -/

/-- The task changes nothing, whatever it returns or throws, and ends. -/
def Observes {α : Type} (x : Exec α) : Prop :=
  ∀ w, (∃ a, x w = .ok a w) ∨ ∃ e, e ≠ .killed ∧ x w = .error e w

namespace Observes

variable {α β : Type} {x : Exec α} {f : α → Exec β}

/-- Returning a value looks at nothing. -/
theorem pure (a : α) : Observes (Pure.pure a : Exec α) := fun w => Or.inl ⟨a, run_pure w a⟩

/-- Reading the world. -/
theorem get : Observes (MonadState.get : Exec World) := fun w => Or.inl ⟨w, run_get w⟩

/-- Refusing a request changes nothing. -/
theorem throwShim (code : ErrorCode) (message context : String) :
    Observes (Daichod.throwShim code message context : Exec α) := fun w =>
  Or.inr ⟨_, by simp, run_throwShim w code message context⟩

/-- A check that may refuse. -/
theorem liftValid (v : Except ShimError α) : Observes (Daichod.liftValid v) := by
  intro w
  cases v with
  | ok a => exact Or.inl ⟨a, run_liftValid_ok w a⟩
  | error e => exact Or.inr ⟨.shim e, by simp, run_liftValid_error w e⟩

/-- One task that only looks after another. -/
theorem bind (hx : Observes x) (hf : ∀ a, Observes (f a)) : Observes (x >>= f) := by
  intro w
  rcases hx w with ⟨a, ha⟩ | ⟨e, he, hthrown⟩
  · rw [run_bind_ok ha]
    exact hf a w
  · exact Or.inr ⟨e, he, run_bind_error hthrown⟩

/-- And one for each element of a list. -/
theorem mapM {f : α → Exec β} (hf : ∀ a, Observes (f a)) (as : List α) :
    Observes (as.mapM f) := by
  induction as with
  | nil => exact pure []
  | cons a as ih =>
    rw [List.mapM_cons]
    exact (hf a).bind fun b => ih.bind fun bs => pure (b :: bs)

/-- A journal statement that only reads may fault, which changes nothing. -/
theorem statement (fault : Option SqliteError) (hx : Observes x) :
    Observes (Journal.statement fault x) := by
  cases fault with
  | none => exact hx
  | some e => exact throwShim _ _ _

/-- Fetching the open book, or the refusal where none is open. -/
theorem book : Observes Session.book := by
  refine get.bind fun w => ?_
  split
  · exact (throwShim _ _ _).bind fun _ => pure _
  · exact pure _

/-- Fetching the root account. -/
theorem rootAccount : Observes Session.rootAccount := book.bind fun _ => pure _

/-- Dereferencing an account. -/
theorem derefAccount (guid : Guid) : Observes (Daichod.derefAccount guid) :=
  get.bind fun _ => pure _

/-- A task that only looks leaves a running daemon as it is. -/
theorem afterTask (hx : Observes x) (w : World) : Daemon.afterTask (x w) = ⟨w, true⟩ := by
  rcases hx w with ⟨a, ha⟩ | ⟨e, he, hthrown⟩
  · rw [ha]; rfl
  · rw [hthrown]
    cases e with
    | killed => exact absurd rfl he
    | shim s => rfl
    | queueFull => rfl
    | workerStopped => rfl
    | other what => rfl

end Observes

/-! ### Reading accounts -/

section Accounts

variable {w w' : World}

/-- What `GetAccount` answers. -/
theorem getAccount_iff [Engine] {guid : String} {message : Shim.Account} :
    getAccount guid w = .ok message w' ↔ w.session.isSome = true ∧ ∃ g a,
      findAccount w.book guid "guid" = .ok g ∧ w.book.account g = some a ∧
        message = accountToProto g a ∧ w = w' := by
  simp only [getAccount, Session.run_book_bind_iff, run_liftValid_bind_iff]
  refine and_congr_right fun _ => exists_congr fun g => ?_
  constructor
  · rintro ⟨hg, hrun⟩
    obtain ⟨-, a, ha⟩ := findAccount_ok hg
    have hrun : EStateM.Result.ok (accountToProto g ((w.book.account g).getD .blank)) w
        = .ok message w' := hrun
    cases hrun
    exact ⟨a, hg, ha, by rw [ha, Option.getD_some], rfl⟩
  · rintro ⟨a, hg, ha, rfl, rfl⟩
    refine ⟨hg, ?_⟩
    show EStateM.Result.ok (accountToProto g ((w.book.account g).getD .blank)) w = _
    rw [ha, Option.getD_some]

/-- What `ListAccounts` answers. -/
theorem listAccounts_iff [Engine] {descendants : List Guid} {response : Shim.AccountList} :
    listAccounts descendants w = .ok response w' ↔ w.session.isSome = true ∧
      ⟨(w.rootAccount :: descendants).map fun g =>
        accountToProto g ((w.book.account g).getD .blank)⟩ = response ∧ w = w' := by
  have hmap : ∀ guids : List Guid, (guids.mapM fun account => do
      return accountToProto account (← derefAccount account) : Exec (List Shim.Account)) w
      = .ok (guids.map fun g => accountToProto g ((w.book.account g).getD .blank)) w := by
    intro guids
    induction guids with
    | nil => rfl
    | cons g guids ih =>
      have hone : (do return accountToProto g (← derefAccount g) : Exec Shim.Account) w
          = .ok (accountToProto g ((w.book.account g).getD .blank)) w := rfl
      rw [List.mapM_cons]
      exact (run_bind_ok hone).trans (run_bind_ok ih)
  simp only [listAccounts, Session.rootAccount, bind_assoc, Session.run_book_bind_iff, pure_bind]
  refine and_congr_right fun _ => ?_
  rw [run_bind_ok (hmap _), run_pure, EStateM.Result.ok.injEq]
  rfl

end Accounts

/-! ### Requests

The table of RPCs: what each runs on the engine thread, and which event of the daemon it is. An
`RpcFate` holds what lies outside the program, such as the order in which the engine lists. -/

/-- The requests that go through the engine queue. -/
inductive Rpc
  | mutate (m : Mutation)
  | openBook
  | closeBook
  | getBookInfo
  | listIndeterminateMutations
  | listAccounts
  | getAccount (guid : String)
  | getReconcileInfo (guid : String)
  | getTransaction (guid : String)
  | querySplits (request : Shim.QuerySplitsRequest)
  | listCommodities
  | getPrices (request : Shim.GetPricesRequest)
  | getBalance (request : Shim.GetBalanceRequest)
  | getTrialBalance

/-- The message a handler answers. -/
abbrev Rpc.Response : Rpc → Type
  | mutate m => m.Response
  | openBook => BookInfo
  | closeBook => Unit
  | getBookInfo => BookInfo
  | listIndeterminateMutations => SessionService.IndeterminateMutations
  | listAccounts => Shim.AccountList
  | getAccount _ => Shim.Account
  | getReconcileInfo _ => Shim.ReconcileInfo
  | getTransaction _ => Shim.Transaction
  | querySplits _ => Shim.QuerySplitsResponse
  | listCommodities => Shim.CommodityList
  | getPrices _ => Shim.PriceList
  | getBalance _ => Shim.Balance
  | getTrialBalance => Shim.TrialBalance

/-- What the surroundings decide about one request: how it fares, and what the engine lists
and finds for it. -/
structure RpcFate where
  mutation : Fate
  «open» : OpenFate
  close : CloseFate
  info : EngineInfo
  listFault : Option SqliteError
  /-- `gnc_account_get_descendants_sorted`. -/
  descendants : List Guid
  /-- `gnc_commodity_table_get_commodities`, for every namespace. -/
  commodities : List (Commodity × Option String)
  /-- The query of `GetTrialBalance`. -/
  listing : Session.SplitListing
  qofQueryRun : SplitQuery → List FoundSplit
  gncPricedbGetPrices : Commodity → Option Commodity → List (Guid × Price)

variable [Engine] [DayTimes] [Balances]

/-- What a handler runs on the engine thread. -/
def Rpc.run (fate : RpcFate) : (rpc : Rpc) → Exec rpc.Response
  | mutate m => m.run fate.mutation
  | openBook => SessionService.openBook fate.open fate.info
  | closeBook => SessionService.closeBook fate.close
  | getBookInfo => SessionService.getBookInfo fate.info
  | listIndeterminateMutations => SessionService.listIndeterminateMutations fate.listFault
  | listAccounts => Daichod.listAccounts fate.descendants
  | getAccount guid => Daichod.getAccount guid
  | getReconcileInfo guid => Daichod.getReconcileInfo guid
  | getTransaction guid => Daichod.getTransaction guid
  | querySplits request => Daichod.querySplits fate.qofQueryRun request
  | listCommodities => Daichod.listCommodities fate.commodities
  | getPrices request => Daichod.getPrices fate.gncPricedbGetPrices request
  | getBalance request => Daichod.getBalance request
  | getTrialBalance => Daichod.getTrialBalance fate.listing

/-- The event of the daemon a handler is, if it is not one of those that only look. -/
def Rpc.event (fate : RpcFate) : Rpc → Option Event
  | mutate m => some (.mutate m fate.mutation)
  | openBook => some (.openBook fate.open)
  | closeBook => some (.closeBook fate.close)
  | _ => none

/-- An RPC that is no event of the daemon only looks. -/
theorem Rpc.observes {rpc : Rpc} {fate : RpcFate} (h : rpc.event fate = none) :
    Observes (rpc.run fate) := by
  cases rpc with
  | mutate m => cases h
  | openBook => cases h
  | closeBook => cases h
  | getBookInfo =>
    exact Observes.book.bind fun _ => Observes.rootAccount.bind fun _ =>
      Observes.get.bind fun _ => .pure _
  | listIndeterminateMutations =>
    exact (Observes.statement _ (Observes.get.bind fun _ => .pure _)).bind fun _ => .pure _
  | listAccounts =>
    refine Observes.rootAccount.bind fun root => (Observes.mapM (fun account => ?_) _).bind
      fun _ => .pure _
    exact (Observes.derefAccount account).bind fun _ => .pure _
  | getAccount guid =>
    exact Observes.book.bind fun _ => (Observes.liftValid _).bind fun account =>
      (Observes.derefAccount account).bind fun _ => .pure _
  | getReconcileInfo guid =>
    exact Observes.book.bind fun _ => (Observes.liftValid _).bind fun account =>
      (Observes.derefAccount account).bind fun _ => .pure _
  | getTransaction guid =>
    exact Observes.book.bind fun _ => (Observes.liftValid _).bind fun _ =>
      (Observes.get.bind fun _ => .pure _).bind fun _ => .pure _
  | querySplits request =>
    exact Observes.book.bind fun _ => (Observes.liftValid _).bind fun _ => .liftValid _
  | listCommodities => exact Observes.book.bind fun _ => .pure _
  | getPrices request =>
    exact Observes.book.bind fun _ => (Observes.liftValid _).bind fun _ =>
      (Observes.liftValid _).bind fun _ => (Observes.liftValid _).bind fun _ =>
        (Observes.liftValid _).bind fun _ => .pure _
  | getBalance request =>
    exact Observes.book.bind fun _ => (Observes.liftValid _).bind fun _ =>
      (Observes.liftValid _).bind fun _ => (Observes.liftValid _).bind fun _ => .pure _
  | getTrialBalance => exact Observes.book.bind fun _ => .pure _

/-! ### Requests one at a time

What a single request does to a daemon that serves: the event of the daemon it is, if it is one. -/

/-- A running daemon after one request. -/
def Daemon.serve (rpc : Rpc) (fate : RpcFate) (d : Daemon) : Daemon :=
  if d.serving then afterTask (rpc.run fate d.world) else d

omit [DayTimes] [Balances] in
/-- Opening the book never ends the process. -/
theorem afterTask_openBook (fate : OpenFate) (info : EngineInfo) (w : World) :
    Daemon.afterTask (SessionService.openBook fate info w)
      = Daemon.afterTask (Daichod.openBook fate w) := by
  simp only [SessionService.openBook, Daichod.openBook, run_bind]
  cases Session.«open» fate w with
  | error e w' => cases e <;> rfl
  | ok u w' =>
    simp only [SessionService.run_fillBookInfo, Session.run_book]
    cases w'.session with
    | none => rfl
    | some s => rfl

/-- **One request** is one event of the daemon, or none. -/
theorem Daemon.serve_eq (rpc : Rpc) (fate : RpcFate) (d : Daemon) :
    d.serve rpc fate = (rpc.event fate).elim d d.step := by
  cases hevent : rpc.event fate with
  | some e =>
    cases rpc with
    | mutate m => cases hevent; rfl
    | openBook =>
      cases hevent
      simp only [serve, Rpc.run, afterTask_openBook]
      rfl
    | closeBook => cases hevent; rfl
    | _ => cases hevent
  | none =>
    simp only [serve, Option.elim_none]
    split
    · next hserving =>
      rw [(Rpc.observes hevent).afterTask]
      exact congrArg (Daemon.mk d.world) hserving.symm
    · rfl

/-! ### Answers

What the client is told, which is a function of the world the task found. -/

/-- What a client is answered, with the request it asked. -/
abbrev RpcAnswer := (rpc : Rpc) × Reply rpc.Response

/-- The answer a request gets in a world. -/
def Rpc.answer (rpc : Rpc) (fate : RpcFate) (w : World) : RpcAnswer :=
  ⟨rpc, replyOf (rpc.run fate w)⟩

end Daichod
