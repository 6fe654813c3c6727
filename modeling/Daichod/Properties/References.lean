import Daichod.Journal.Verdict
import Daichod.Properties.AccountTree
import Daichod.Reference.Traffic

/-!
# Daichod.Properties.References

**What is named can be looked up.** The answers of the reading RPCs name accounts and
transactions by their GUIDs. In every state of a run whose edits are all finished, whatever an
answer names can be read in that state (`mentions_resolve`), and `ListAccounts` answers every
account that `GetAccount` would answer, each once and behind its parent, so that a client builds
the tree in one pass (`accounts_listed`).

Both rest on the tree of accounts: a parent is an account, and so is the account of a split.

## Proof shape

The tree is an invariant of the book (`Book.Rooted`): the root is an account, a parent is an
account, and so is the account of every split. The two results are then about one book. What each
answer names is in the table or reached by one of these references, and the engine's listing below
the root is every account because every account reaches the root.
-/

namespace Daichod

/-- An object that an answer names. -/
inductive Mention
  | account (guid : String)
  | transaction (guid : String)
  deriving Repr, DecidableEq

/-- An account names its parent. -/
def Shim.Account.mentions (message : Shim.Account) : List Mention :=
  .account message.guid :: message.parentGuid.toList.map .account

/-- A transaction names the accounts of its splits. -/
def Shim.Transaction.mentions (message : Shim.Transaction) : List Mention :=
  .transaction message.guid :: message.splits.map fun split => .account split.accountGuid

/-- A split that was found names its account and its transaction. -/
def Shim.SplitWithContext.mentions (message : Shim.SplitWithContext) : List Mention :=
  [.transaction message.transactionGuid, .account message.split.accountGuid]

section References

variable [Wire] [Engine]

/-- The objects that the answer of a reading RPC names. An answer to a mutation that is replayed
may be about an object that is gone by now. -/
def Rpc.mentions : (rpc : Rpc) → rpc.Response → List Mention
  | .getBookInfo, info => [.account info.rootAccountGuid]
  | .listAccounts, list => list.accounts.flatMap Shim.Account.mentions
  | .getAccount _, message => message.mentions
  | .getReconcileInfo _, info => [.account info.accountGuid]
  | .getTransaction _, message => message.mentions
  | .querySplits _, page => page.splits.flatMap Shim.SplitWithContext.mentions
  | _, _ => []

/-- The object can be read. -/
def Mention.Resolves (w : World) : Mention → Prop
  | .account guid => ∃ message, getAccount guid w = .ok message w ∧ message.guid = guid
  | .transaction guid => ∃ message, getTransaction guid w = .ok message w ∧ message.guid = guid

/-- The engine lists accounts and splits of its book. -/
structure RpcFate.Lists (fate : RpcFate) (b : Book) : Prop where
  descendants : ∀ g ∈ fate.descendants, g ∈ b.accountGuids
  splits : ∀ query, ∀ node ∈ fate.qofQueryRun query,
    b.transaction node.transactionGuid = some node.transaction ∧
      node.split ∈ node.transaction.splits

/-! ### Resolving -/

variable {w w' : World} {g : Guid}

omit [Wire] in
/-- The text of an account's GUID finds the account. -/
theorem findAccount_guidToString {b : Book} {context : String} (h : g ∈ b.accountGuids) :
    findAccount b (Engine.guidToString g) context = .ok g := by
  obtain ⟨a, ha⟩ := Option.isSome_iff_exists.mp h
  have hparse : Engine.stringToGuid (cStr (Engine.guidToString g)) = some g :=
    parseGuid_guidToString g
  simp only [findAccount, stringToGuid, hparse, bind, Except.bind, ha]

omit [Wire] in
/-- The text of a transaction's GUID finds the transaction. -/
theorem findTransaction_guidToString {b : Book} {t : Transaction} {context : String}
    (ht : b.transaction g = some t) :
    findTransaction b (Engine.guidToString g) context = .ok g := by
  have hparse : Engine.stringToGuid (cStr (Engine.guidToString g)) = some g :=
    parseGuid_guidToString g
  simp only [findTransaction, stringToGuid, hparse, bind, Except.bind, ht]

/-- An account of the open book can be read. -/
theorem resolves_account (hopen : w.session.isSome = true) (h : g ∈ w.book.accountGuids) :
    (Mention.account (Engine.guidToString g)).Resolves w := by
  obtain ⟨a, ha⟩ := Option.isSome_iff_exists.mp h
  exact ⟨_, getAccount_iff.mpr ⟨hopen, g, a, findAccount_guidToString h, ha, rfl, rfl⟩, rfl⟩

/-- And so can a transaction. -/
theorem resolves_transaction {t : Transaction} (hopen : w.session.isSome = true)
    (ht : w.book.transaction g = some t) :
    (Mention.transaction (Engine.guidToString g)).Resolves w :=
  ⟨_, getTransaction_iff.mpr ⟨hopen, g, t, findTransaction_guidToString ht, ht, rfl, rfl⟩, rfl⟩

/-- What an account of a tree names. -/
theorem resolves_of_mem_account {a : Account} (hrooted : w.book.Rooted)
    (hopen : w.session.isSome = true) (ha : w.book.account g = some a) :
    ∀ mention ∈ (accountToProto g a).mentions, mention.Resolves w := by
  intro mention hmention
  have hg : g ∈ w.book.accountGuids := Option.isSome_iff_exists.mpr ⟨a, ha⟩
  rcases List.mem_cons.mp hmention with rfl | hparent
  · exact resolves_account hopen hg
  · obtain ⟨guid, hguid, rfl⟩ := List.mem_map.mp hparent
    rw [Option.mem_toList] at hguid
    obtain ⟨p, hp, rfl⟩ := Option.map_eq_some_iff.mp hguid
    have hparentOf : w.book.parentOf g = some p := by
      rw [Book.parentOf, ha]
      exact hp
    exact resolves_account hopen (hrooted.tree.parent_mem hparentOf)

/-- What a split of a transaction of the book names. -/
theorem resolves_split {t : Transaction} {s : Split} (hrooted : w.book.Rooted)
    (hopen : w.session.isSome = true) (ht : w.book.transaction g = some t) (hs : s ∈ t.splits) :
    (Mention.account (splitToProto s).accountGuid).Resolves w :=
  resolves_account hopen (hrooted.splits g t ht s hs)

variable [DayTimes] [Balances]

/-- **Every answer in a state with a tree** names what can be read there. -/
theorem Book.Rooted.resolves_mentions {rpc : Rpc} {fate : RpcFate} {response : rpc.Response}
    (hrooted : w.book.Rooted) (hlists : fate.Lists w.book) (hreads : rpc.event fate = none)
    (hanswer : rpc.run fate w = .ok response w') :
    ∀ mention ∈ rpc.mentions response, mention.Resolves w := by
  intro mention hmention
  -- each read in turn: it names nothing, or accounts and transactions that are in the book
  cases rpc with
  | mutate m => cases hreads
  | openBook => cases hreads
  | closeBook => cases hreads
  | listIndeterminateMutations => cases hmention
  | listCommodities => cases hmention
  | getPrices request => cases hmention
  | getBalance request => cases hmention
  | getTrialBalance => cases hmention
  | getBookInfo =>
    have hinfo : SessionService.getBookInfo fate.info w = .ok response w' := hanswer
    rw [SessionService.getBookInfo, SessionService.run_fillBookInfo] at hinfo
    split at hinfo
    · cases hinfo
    · next hsome =>
      cases hinfo
      have hopen : w.session.isSome = true :=
        Option.isSome_iff_ne_none.mpr (by simpa using hsome)
      obtain rfl := List.mem_singleton.mp hmention
      exact resolves_account hopen hrooted.tree.root_mem
  | listAccounts =>
    obtain ⟨hopen, rfl, -⟩ := listAccounts_iff.mp hanswer
    obtain ⟨message, hmessage, hmention⟩ := List.mem_flatMap.mp hmention
    obtain ⟨g, hg, rfl⟩ := List.mem_map.mp hmessage
    have hmem : g ∈ w.book.accountGuids := by
      rcases List.mem_cons.mp hg with rfl | hbelow
      · exact hrooted.tree.root_mem
      · exact hlists.descendants g hbelow
    obtain ⟨a, ha⟩ := Option.isSome_iff_exists.mp hmem
    rw [ha, Option.getD_some] at hmention
    exact resolves_of_mem_account hrooted hopen ha mention hmention
  | getAccount guid =>
    obtain ⟨hopen, g, a, -, ha, rfl, -⟩ := getAccount_iff.mp hanswer
    exact resolves_of_mem_account hrooted hopen ha mention hmention
  | getReconcileInfo guid =>
    obtain ⟨hopen, g, hfind, rfl, -⟩ := getReconcileInfo_iff.mp hanswer
    obtain ⟨-, a, ha⟩ := findAccount_ok hfind
    obtain rfl := List.mem_singleton.mp hmention
    exact resolves_account hopen (Option.isSome_iff_exists.mpr ⟨a, ha⟩)
  | getTransaction guid =>
    obtain ⟨hopen, g, t, -, ht, rfl, -⟩ := getTransaction_iff.mp hanswer
    rcases List.mem_cons.mp hmention with rfl | hsplit
    · exact resolves_transaction hopen ht
    · obtain ⟨message, hmessage, rfl⟩ := List.mem_map.mp hsplit
      obtain ⟨s, hs, rfl⟩ := List.mem_map.mp hmessage
      exact resolves_split hrooted hopen ht (List.mem_of_mem_filter hs)
  | querySplits request =>
    obtain ⟨hopen, filter, -, hpage, -⟩ := querySplits_iff.mp hanswer
    obtain ⟨row, hrow, hmention⟩ := List.mem_flatMap.mp hmention
    obtain ⟨node, hnode, rfl⟩ := servePage_entry (pageSize_pos _) hpage row hrow
    obtain ⟨ht, hs⟩ := hlists.splits _ node hnode
    rcases List.mem_cons.mp hmention with rfl | hsplit
    · exact resolves_transaction hopen ht
    · obtain rfl := List.mem_singleton.mp hsplit
      exact resolves_split hrooted hopen ht hs

/-- **What is named can be looked up**, in every state of a tended run. -/
theorem mentions_resolve {config : Config} {b₀ : Book} {events : List Event} {rpc : Rpc}
    {fate : RpcFate} {response : rpc.Response} (hrooted : b₀.Rooted)
    (hlive : ∀ g a, b₀.account g = some a → a.destroying = false)
    (htended : Machine.Along Daemon.step Daemon.Tended (Daemon.fresh config b₀) events)
    (hlists : fate.Lists ((Daemon.fresh config b₀).run events).world.book)
    (hreads : rpc.event fate = none)
    (hanswer : rpc.run fate ((Daemon.fresh config b₀).run events).world = .ok response w') :
    ∀ mention ∈ rpc.mentions response,
      mention.Resolves ((Daemon.fresh config b₀).run events).world := by
  obtain ⟨htree, hbook⟩ := Tree.run hrooted hlive htended
  refine Book.Rooted.resolves_mentions ?_ hlists hreads hanswer
  rw [hbook]
  exact htree.rooted

/-! ### The list of accounts

`ListAccounts` is the root and what the engine lists below it. That this is the whole tree, in an
order from which it can be built, is put together from the engine's documented order and from the
invariant. -/

/-- The row of `m'` is the one that `m` names as its parent. -/
def Shim.Account.ChildOf (m m' : Shim.Account) : Prop := m.parentGuid = some m'.guid

/-- A list of accounts from which a client builds the tree in one pass. -/
structure BuildsTree (w : World) (accounts : List Shim.Account) : Prop where
  nodup : (accounts.map Shim.Account.guid).Nodup
  /-- It has the accounts that can be read, as they are read. -/
  exact : ∀ message, message ∈ accounts ↔ ∃ guid, getAccount guid w = .ok message w
  /-- The root account is the first. -/
  root : ∃ message rest, accounts = message :: rest ∧
    message.guid = Engine.guidToString w.book.rootAccount ∧ message.parentGuid = none
  behind : ∀ before message after, accounts = before ++ message :: after →
    ∀ parent ∈ message.parentGuid, ∃ m ∈ before, m.guid = parent
  /-- From every row its parents lead to the root account, over rows of the list. -/
  climbs : ∀ message ∈ accounts, ∃ root ∈ accounts.head?,
    Relation.ReflTransGen (fun m m' => m' ∈ accounts ∧ m.ChildOf m') message root

omit [DayTimes] [Balances] in
/-- **The list of accounts of a tree.** -/
theorem Book.Rooted.buildsTree {descendants : List Guid} {response : Shim.AccountList}
    (hrooted : w.book.Rooted)
    (hlists : Forest.ListsBelow w.book.parentOf w.book.rootAccount descendants)
    (hanswer : listAccounts descendants w = .ok response w') : BuildsTree w response.accounts := by
  obtain ⟨hopen, rfl, -⟩ := listAccounts_iff.mp hanswer
  have hmem : ∀ g, g ∈ w.rootAccount :: descendants ↔ g ∈ w.book.accountGuids :=
    fun g => hrooted.tree.mem_listing_iff hlists
  -- What is listed is what reading it answers.
  have hread : ∀ g ∈ w.rootAccount :: descendants, ∃ a, w.book.account g = some a ∧
      accountToProto g ((w.book.account g).getD .blank) = accountToProto g a := by
    intro g hg
    obtain ⟨a, ha⟩ := Option.isSome_iff_exists.mp ((hmem g).mp hg)
    exact ⟨a, ha, by rw [ha, Option.getD_some]⟩
  have hparent : ∀ {g : Guid} {text : String},
      text ∈ (accountToProto g ((w.book.account g).getD .blank)).parentGuid →
      g ∈ w.rootAccount :: descendants →
      ∃ p, w.book.parentOf g = some p ∧ text = Engine.guidToString p := by
    intro g text htext hg
    obtain ⟨a, ha, hsame⟩ := hread g hg
    rw [hsame] at htext
    obtain ⟨p, hp, rfl⟩ := Option.map_eq_some_iff.mp htext
    refine ⟨p, ?_, rfl⟩
    rw [Book.parentOf, ha]
    exact hp
  have hroot : w.book.parentOf w.rootAccount = none := hrooted.tree.root_top
  have hnotin : w.rootAccount ∉ descendants := fun h => ((hlists.mem_iff _).mp h).1 rfl
  constructor
  · rw [List.map_map]
    have hguids : (Shim.Account.guid ∘ fun g =>
        accountToProto g ((w.book.account g).getD .blank)) = Engine.guidToString := rfl
    rw [hguids]
    exact (List.nodup_cons.mpr ⟨hnotin, hlists.nodup⟩).map Engine.guidToString_injective
  · intro message
    rw [List.mem_map]
    constructor
    · rintro ⟨g, hg, rfl⟩
      obtain ⟨a, ha, hsame⟩ := hread g hg
      exact ⟨_, getAccount_iff.mpr
        ⟨hopen, g, a, findAccount_guidToString ((hmem g).mp hg), ha, hsame, rfl⟩⟩
    · rintro ⟨guid, hguid⟩
      obtain ⟨-, g, a, -, ha, rfl, -⟩ := getAccount_iff.mp hguid
      exact ⟨g, (hmem g).mpr (Option.isSome_iff_exists.mpr ⟨a, ha⟩), by rw [ha, Option.getD_some]⟩
  · refine ⟨accountToProto w.rootAccount ((w.book.account w.rootAccount).getD .blank),
      descendants.map fun g => accountToProto g ((w.book.account g).getD .blank), rfl, rfl, ?_⟩
    cases htext : (accountToProto w.rootAccount
        ((w.book.account w.rootAccount).getD .blank)).parentGuid with
    | none => rfl
    | some text =>
      obtain ⟨p, hp, -⟩ := hparent htext List.mem_cons_self
      rw [hroot] at hp
      cases hp
  · intro before message after hsplit parent hin
    obtain ⟨front, back, hguids, rfl, hback⟩ := List.map_eq_append_iff.mp hsplit
    obtain ⟨g, rest, rfl, rfl, rfl⟩ := List.map_eq_cons_iff.mp hback
    have hg : g ∈ w.rootAccount :: descendants := by
      rw [hguids]
      exact List.mem_append_right _ List.mem_cons_self
    obtain ⟨p, hp, rfl⟩ := hparent hin hg
    exact ⟨_, List.mem_map_of_mem (hlists.behind_cons hroot hguids hp), rfl⟩
  · intro message hmessage
    obtain ⟨g, hg, rfl⟩ := List.mem_map.mp hmessage
    refine ⟨_, rfl, ?_⟩
    have hclimbs : Forest.Climbs w.book.parentOf g w.rootAccount :=
      hrooted.tree.climbs g ((hmem g).mp hg)
    -- From the root down: each step of the climb is between two rows.
    induction hclimbs using Relation.ReflTransGen.head_induction_on with
    | refl => exact .refl
    | @head child parent hparentOf _ ih =>
      have hmemParent := (hmem parent).mpr (hrooted.tree.parent_mem hparentOf)
      have hrow := List.mem_map_of_mem
        (f := fun g => accountToProto g ((w.book.account g).getD .blank)) hmemParent
      refine .head ⟨hrow, ?_⟩ (ih hmemParent hrow)
      obtain ⟨a, ha, hsame⟩ := hread child hg
      rw [Book.parentOf, ha] at hparentOf
      have hparentOf : a.parent = some parent := hparentOf
      rw [hsame, Shim.Account.ChildOf, accountToProto, hparentOf]
      rfl

omit [DayTimes] [Balances] in
/-- **`ListAccounts` lists all there is**, in every state of a tended run. -/
theorem accounts_listed {config : Config} {b₀ : Book} {events : List Event}
    {descendants : List Guid} {response : Shim.AccountList} (hrooted : b₀.Rooted)
    (hlive : ∀ g a, b₀.account g = some a → a.destroying = false)
    (htended : Machine.Along Daemon.step Daemon.Tended (Daemon.fresh config b₀) events)
    (hlists : Forest.ListsBelow ((Daemon.fresh config b₀).run events).world.book.parentOf
      ((Daemon.fresh config b₀).run events).world.book.rootAccount descendants)
    (hanswer : listAccounts descendants ((Daemon.fresh config b₀).run events).world
      = .ok response w') :
    BuildsTree ((Daemon.fresh config b₀).run events).world response.accounts := by
  obtain ⟨htree, hbook⟩ := Tree.run hrooted hlive htended
  refine Book.Rooted.buildsTree ?_ hlists hanswer
  rw [hbook]
  exact htree.rooted

end References

section Witness

open Reference

attribute [local instance] Reference.engine Reference.wire Reference.dayTimes Reference.balances

/-- The example daemon's start is a tended run, -/
theorem started_tended :
    Machine.Along Daemon.step Daemon.Tended (Daemon.fresh config book) [.start (starts [])] :=
  ⟨trivial, trivial⟩

/-- and no account of its book is marked for destruction. -/
theorem book_live : ∀ g a, book.account g = some a → a.destroying = false :=
  fun g a ha => book_atRest (.account g) a ha

/-- The accounts below the root of the book. -/
theorem book_listsBelow : Forest.ListsBelow started.world.book.parentOf
    started.world.book.rootAccount [2, 3] := by
  rw [started_book]
  have hparents : book.parentOf 2 = some 1 ∧ book.parentOf 3 = some 1 := by decide +kernel
  have htops : book.parentOf 0 = none ∧ book.parentOf 1 = none := by decide +kernel
  have hnone : ∀ g : ℕ, g ≠ 2 → g ≠ 3 → book.parentOf g = none := by
    intro g h2 h3
    by_cases hlt : 3 < g
    · exact book_parentOf hlt
    · have hcases : g = 0 ∨ g = 1 := by omega
      rcases hcases with rfl | rfl
      · exact htops.1
      · exact htops.2
  refine ⟨by decide, fun g => ⟨fun hg => ?_, fun hbelow => ?_⟩, fun before g after hsplit p hp => ?_⟩
  · simp only [List.mem_cons, List.not_mem_nil, or_false] at hg
    rcases hg with rfl | rfl
    · exact ⟨by decide, .single hparents.1⟩
    · exact ⟨by decide, .single hparents.2⟩
  · obtain ⟨hne, hclimbs⟩ := hbelow
    rcases Relation.ReflTransGen.cases_head hclimbs with heq | ⟨p, hp, -⟩
    · exact absurd heq hne
    · by_contra hnot
      simp only [List.mem_cons, List.not_mem_nil, or_false, not_or] at hnot
      rw [hnone g hnot.1 hnot.2] at hp
      cases hp
  · have hg : g ∈ ([2, 3] : List Guid) := by simp [hsplit]
    simp only [List.mem_cons, List.not_mem_nil, or_false] at hg
    rcases hg with rfl | rfl
    · exact Or.inl (Option.some.inj (hp.symm.trans hparents.1))
    · exact Or.inl (Option.some.inj (hp.symm.trans hparents.2))

/-- The example book has three accounts, and all of them are listed. -/
theorem accounts_listed_started : ∃ response : Shim.AccountList,
    listAccounts [2, 3] started.world = .ok response started.world ∧
      response.accounts.length = 3 ∧ BuildsTree started.world response.accounts := by
  have hopen : started.world.session.isSome = true := by decide +kernel
  have hanswer : listAccounts [2, 3] started.world = .ok ⟨(started.world.rootAccount ::
      ([2, 3] : List Guid)).map fun g =>
        accountToProto g ((started.world.book.account g).getD .blank)⟩ started.world :=
    listAccounts_iff.mpr ⟨hopen, rfl, rfl⟩
  exact ⟨_, hanswer, rfl,
    accounts_listed book_rooted book_live started_tended book_listsBelow hanswer⟩

/-- Cash names the root account, which can be read. -/
theorem mentions_resolve_started :
    (Mention.account (guidToString 1)).Resolves started.world := by
  have hopen : started.world.session.isSome = true := by decide +kernel
  have hsome : (started.world.book.account 2).isSome = true := by decide +kernel
  have hparent : started.world.book.parentOf 2 = some 1 := by decide +kernel
  obtain ⟨a, ha⟩ := Option.isSome_iff_exists.mp hsome
  have hanswer : (Rpc.getAccount (guidToString 2)).run (calmRpc 16) started.world
      = .ok (accountToProto 2 a) started.world :=
    getAccount_iff.mpr ⟨hopen, 2, a, findAccount_guidToString hsome, ha, rfl, rfl⟩
  have hlists : (calmRpc 16).Lists started.world.book := by
    refine ⟨fun g hg => ?_, fun query node hnode => by cases hnode⟩
    have hg : g ∈ ([2, 3] : List Guid) := hg
    simp only [List.mem_cons, List.not_mem_nil, or_false] at hg
    rcases hg with rfl | rfl
    · exact hsome
    · exact (by decide +kernel : (started.world.book.account 3).isSome = true)
  refine mentions_resolve book_rooted book_live started_tended hlists rfl hanswer _ ?_
  rw [Book.parentOf, ha] at hparent
  have hparent : a.parent = some 1 := hparent
  exact List.mem_cons_of_mem _ (by rw [accountToProto, hparent]; exact List.mem_singleton.mpr rfl)

end Witness

end Daichod
