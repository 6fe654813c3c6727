import Daichod.Properties.Pagination
import Daichod.Properties.References
import Daichod.Properties.StartupSums

/-!
# Daichod.Properties.SplitReport

**Two ways to read the splits.** `QuerySplits` hands out splits page by page, `GetTransaction`
transaction by transaction. In every state of a run, a walk through the pages gives the rows that
`GetTransaction` gives for the transactions they name, those that match the request and no other,
and no GUID twice (`reports_agree`).

A page token is the GUID of a split, so that this rests on an invariant of the book: a GUID names
one split (`books_named`). Who owns a GUID is ghost state (`Entity.OwnedBy`); an edit gives new
GUIDs to one transaction and takes none from another.

## Proof shape

`books_named` is an invariant of the book, with the owner of each GUID as a ghost: an edit hands
the GUIDs it draws to its own transaction and moves no other (`named_insert`). With GUIDs that
name one split, page tokens are unambiguous, so the pages of a walk make up the whole listing
(`walk_rows`, by `Walk.flatten_eq`). A row of it is the row that its transaction's message has
(`exists_node_iff`).
-/

namespace Daichod

/-! ### Who owns a GUID

Two transactions with splits of one GUID would need two owners of it. That there is one owner for
each is a statement about each entity by itself, and so it is preserved edit by edit. -/

/-- The splits of a transaction have GUIDs of their own, and it owns them. -/
def Entity.OwnedBy (owner : Guid → Guid) : (ref : EntityRef) → Entity ref → Prop
  | .transaction g, t => ((t : Transaction).splits.map Split.guid).Nodup ∧
      ∀ s ∈ (t : Transaction).splits, owner s.guid = g
  | _, _ => True

/-- A GUID names one split of the book. -/
def Book.SplitsNamed (b : Book) : Prop := ∃ owner, b.entities.All (Entity.OwnedBy owner)

/-- The engine draws GUIDs that no split has. -/
structure Fate.FreshSplits (fate : Fate) (b : Book) : Prop where
  injective : Function.Injective fate.newGuid
  unused : ∀ g t, b.transaction g = some t → ∀ i, fate.newGuid i ∉ t.splits.map Split.guid

namespace Book.SplitsNamed

variable {b : Book} {g g' : Guid} {t t' : Transaction} {s s' : Split}

/-- Splits with one GUID are one split of one transaction. -/
theorem unique (h : b.SplitsNamed) (ht : b.transaction g = some t) (hs : s ∈ t.splits)
    (ht' : b.transaction g' = some t') (hs' : s' ∈ t'.splits) (hguid : s.guid = s'.guid) :
    g = g' ∧ t = t' ∧ s = s' := by
  obtain ⟨owner, howner⟩ := h
  obtain ⟨hnodup, howned⟩ := howner (.transaction g) t ht
  obtain ⟨-, howned'⟩ := howner (.transaction g') t' ht'
  have hg : g = g' := (howned s hs).symm.trans ((congrArg owner hguid).trans (howned' s' hs'))
  subst hg
  obtain rfl : t = t' := Option.some.inj (ht.symm.trans ht')
  exact ⟨rfl, rfl, List.inj_on_of_nodup_map hnodup hs hs' hguid⟩

/-- A book without transactions has no GUIDs to name anything. -/
theorem of_empty (hempty : ∀ g, b.transaction g = none) : b.SplitsNamed := by
  refine ⟨id, fun ref e he => ?_⟩
  cases ref with
  | account g => trivial
  | price g => trivial
  | transaction g =>
    have hnone := hempty g
    rw [Book.transaction, he] at hnone
    cases hnone

end Book.SplitsNamed

section Named

variable [Engine] {owner : Guid → Guid} {g : Guid} {b : Book} {fate : Fate}

/-- Marking, committing and rounding make no GUIDs. -/
theorem Entity.ownedBy_kept (owner : Guid → Guid) : Entity.Kept (Entity.OwnedBy owner) where
  account _ _ := trivial
  destroyed g t h := by
    unfold Transaction.destroy
    split
    · exact h
    · exact h
  settled g t h :=
    ⟨h.1.sublist (List.filter_sublist.map _), fun s hs => h.2 s (List.mem_of_mem_filter hs)⟩
  -- rounding maps over the splits and keeps the GUIDs
  rerounded g t account commodity h := by
    have hguids : ∀ s : Split, (if s.account = account then
        { s with amount := storeRounded commodity.fraction s.amount s.amount } else s).guid
          = s.guid := by
      intro s
      split <;> rfl
    constructor
    · rw [Transaction.reround, List.map_map]
      simpa only [Function.comp_def, hguids] using h.1
    · intro s hs
      obtain ⟨s₀, hs₀, rfl⟩ := List.mem_map.mp hs
      rw [hguids]
      exact h.2 s₀ hs₀
  priced _ _ _ _ _ _ _ := trivial
  listed _ _ _ := trivial
  relisted g t r hlisted h :=
    ⟨(hlisted.splits.map _).nodup_iff.mpr h.1, fun s hs => h.2 s (hlisted.splits.mem_iff.mp hs)⟩

omit [Engine] in
/-- One transaction is replaced, and its splits keep their GUIDs or get new ones. -/
theorem named_insert {newGuid : ℕ → Guid} {t : Transaction}
    (h : b.entities.All (Entity.OwnedBy owner))
    (hunused : ∀ g t, b.transaction g = some t → ∀ i, newGuid i ∉ t.splits.map Split.guid)
    (hnodup : (t.splits.map Split.guid).Nodup)
    (hguids : ∀ s ∈ t.splits, (∃ i, newGuid i = s.guid) ∨
      ∃ old, b.transaction g = some old ∧ s.guid ∈ old.splits.map Split.guid) :
    ∃ owner', (b.entities.insert (.transaction g) t).All (Entity.OwnedBy owner') := by
  classical
  -- The new GUIDs change hands, all the others stay where they are.
  refine ⟨fun guid => if ∃ i, newGuid i = guid then g else owner guid, fun ref e he => ?_⟩
  have hkept : ∀ {g' : Guid} {t' : Transaction} {s : Split}, b.transaction g' = some t' →
      s.guid ∈ t'.splits.map Split.guid →
      (if ∃ i, newGuid i = s.guid then g else owner s.guid) = g' := by
    intro g' t' s ht' hs
    have hold : ¬∃ i, newGuid i = s.guid := by
      rintro ⟨i, hi⟩
      exact hunused g' t' ht' i (hi ▸ hs)
    rw [if_neg hold]
    obtain ⟨s', hs', hguid⟩ := List.mem_map.mp hs
    rw [← hguid]
    exact (h (.transaction g') t' ht').2 s' hs'
  cases ref with
  | account g' => trivial
  | price g' => trivial
  | transaction g' =>
    -- the replaced transaction owns what it had and what is new; the others own what they had
    by_cases hg : g' = g
    · subst hg
      rw [Finmap.lookup_insert] at he
      obtain rfl := Option.some.inj he
      refine ⟨hnodup, fun s hs => ?_⟩
      rcases hguids s hs with hnew | ⟨old, hold, hguid⟩
      · exact if_pos hnew
      · exact hkept hold hguid
    · have hne : EntityRef.transaction g' ≠ .transaction g := fun heq =>
        hg (EntityRef.transaction.inj heq)
      rw [Finmap.lookup_insert_of_ne _ hne] at he
      exact ⟨(h (.transaction g') e he).1, fun s hs => hkept he (List.mem_map_of_mem hs)⟩

/-- What an accepted plan commits: GUIDs of the old splits, and new ones. -/
theorem committed_named {now : Int64} {spec : Shim.Transaction} {existing : Option Transaction}
    {plan : TransactionPlan} {newGuid : ℕ → Guid}
    (hplan : planTransaction now b spec existing = .ok plan)
    (hguids : UniqueGuids newGuid (existing.getD .blank)) :
    ((plan.committed newGuid b (existing.getD .blank)).splits.map Split.guid).Nodup ∧
      ∀ s ∈ (plan.committed newGuid b (existing.getD .blank)).splits,
        (∃ i, newGuid i = s.guid) ∨
          ∃ old, existing = some old ∧ s.guid ∈ old.splits.map Split.guid := by
  have haccepted := planTransaction_accepted hplan
  refine ⟨(applyPlan_nodup haccepted hguids).sublist (List.filter_sublist.map _), fun s hs => ?_⟩
  have hs := List.mem_of_mem_filter hs
  rw [applyPlan_splits haccepted hguids, List.mem_append] at hs
  -- an old split under its GUID, or a new one under a GUID drawn for it
  rcases hs with hs | hs
  · obtain ⟨s₀, hs₀, rfl⟩ := List.mem_map.mp hs
    rw [revised_guid]
    have hguid : s₀.guid ∈ (existing.getD .blank).splits.map Split.guid :=
      setHeader_guids plan _ ▸ List.mem_map_of_mem hs₀
    cases existing with
    | none => cases hguid
    | some old => exact Or.inr ⟨old, rfl, hguid⟩
  · obtain ⟨k, p, -, -, rfl⟩ := mem_created.mp hs
    exact Or.inl ⟨_, rfl⟩

variable [Wire]

/-- **One edit** leaves each GUID with one split. -/
theorem plan_named {m : Mutation} {edit : Edit m.Response} (hfresh : fate.FreshSplits b)
    (hrest : AtRest b.entities) (hplan : m.plan fate b = .ok edit) (h : b.SplitsNamed) :
    (edit.after b).SplitsNamed := by
  obtain ⟨owner, h⟩ := h
  -- only posts and updates make splits
  cases hspec : m.transactionSpec with
  | none =>
    refine ⟨owner, (Entity.ownedBy_kept owner).after hplan (fun spec _ _ _ heq => ?_) h⟩
    rw [hspec] at heq
    cases heq
  | some spec =>
    cases m with
    | createAccount request => cases hspec
    | updateAccount request => cases hspec
    | deleteAccount request => cases hspec
    | setReconcileInfo request => cases hspec
    | deleteTransaction request => cases hspec
    | addPrice request => cases hspec
    | postTransaction request =>
      obtain ⟨plan, haccepted, rfl⟩ := plan_postTransaction_ok hplan
      have hguids : UniqueGuids fate.newGuid ((none : Option Transaction).getD .blank) :=
        ⟨hfresh.injective, fun i => List.not_mem_nil, List.nodup_nil⟩
      obtain ⟨hnodup, hsplits⟩ := committed_named haccepted hguids
      rw [Book.SplitsNamed, after_postTransactionEdit]
      refine named_insert h hfresh.unused hnodup fun s hs => (hsplits s hs).imp id ?_
      rintro ⟨old, hold, -⟩
      cases hold
    | updateTransaction request =>
      obtain ⟨g, plan, hfind, haccepted, rfl⟩ := plan_updateTransaction_ok hplan
      obtain ⟨-, t, ht⟩ := findTransaction_ok hfind
      rw [ht] at haccepted
      have hguids : UniqueGuids fate.newGuid ((some t).getD .blank) :=
        ⟨hfresh.injective, hfresh.unused g t ht, (h (.transaction g) t ht).1⟩
      obtain ⟨hnodup, hsplits⟩ := committed_named haccepted hguids
      rw [Book.SplitsNamed, after_updateTransactionEdit ht (hrest (.transaction g) t ht).live]
      refine named_insert h hfresh.unused hnodup fun s hs => (hsplits s hs).imp id ?_
      rintro ⟨old, hold, hguid⟩
      exact ⟨old, ht.trans hold, hguid⟩

/-- The condition on a run: it is orderly, and the engine draws GUIDs that no split has. -/
def Daemon.Names (d : Daemon) (e : Event) : Prop :=
  d.Orderly e ∧ ∀ m fate, e = .mutate m fate → fate.FreshSplits d.world.book

/-- **A GUID names one split**, in every state of such a run. -/
theorem books_named {config : Config} {b₀ : Book} {events : List Event}
    (hnamed : b₀.SplitsNamed) (hrest : AtRest b₀.entities)
    (hrun : Machine.Along Daemon.step Daemon.Names (Daemon.fresh config b₀) events) :
    ∃ b, ((Daemon.fresh config b₀).run events).world.Holds b ∧
      AtRest b.entities ∧ b.SplitsNamed := by
  refine Along.book_of_calls (I := fun b => AtRest b.entities ∧ b.SplitsNamed)
    (C := fun b _ fate => fate.FreshSplits b) hrun ⟨hrest, hnamed⟩ ?_ ?_
  · rintro b o ⟨hrest, owner, howned⟩
    exact ⟨(Book.relisted_relist o b).atRest hrest, owner, (Entity.ownedBy_kept owner).relist howned o⟩
  rintro m fate b edit ⟨hrest, hnamed⟩ hfreshSplits - hplan
  exact ⟨plan_atRest hplan hrest, plan_named hfreshSplits hrest hplan hnamed⟩

end Named
/-! ### Rows

A row of `QuerySplits` and a row of `GetTransaction` are both read off a split and its
transaction. -/

/-- The splits of a transaction as `QuerySplits` shows them. -/
def Shim.Transaction.rows (message : Shim.Transaction) : List Shim.SplitWithContext :=
  message.splits.map fun split =>
    { split
      transactionGuid := message.guid
      postDate := message.postDate
      description := message.description
      txnCurrency := message.currency }

/-- The engine's query finds the splits of the book whose rows match, each once. -/
structure Finds [Engine] (b : Book) (Matches : Shim.SplitWithContext → Prop)
    (listing : List FoundSplit) : Prop where
  nodup : listing.Nodup
  mem_iff : ∀ node, node ∈ listing ↔ b.transaction node.transactionGuid = some node.transaction ∧
    node.split ∈ node.transaction.splits ∧ Matches node.toProto

section Rows

variable [Engine] {b : Book} {listing : List FoundSplit} {Matches : Shim.SplitWithContext → Prop}

/-- A GUID is listed once. -/
theorem Finds.nodup_keys (h : Finds b Matches listing) (hnamed : b.SplitsNamed) :
    (listing.map FoundSplit.key).Nodup := by
  refine h.nodup.map_on fun node hnode node' hnode' hkey => ?_
  obtain ⟨ht, hs, -⟩ := (h.mem_iff node).mp hnode
  obtain ⟨ht', hs', -⟩ := (h.mem_iff node').mp hnode'
  have hguid : node.split.guid = node'.split.guid := Engine.guidToString_injective hkey
  -- two rows under one token are one split of one transaction
  obtain ⟨hg, htransaction, hsplit⟩ := hnamed.unique ht hs ht' hs' hguid
  obtain ⟨split, g, t⟩ := node
  obtain ⟨split', g', t'⟩ := node'
  subst hg htransaction hsplit
  rfl

/-- The rows of a transaction at rest are its splits as the query finds them. -/
theorem rows_transactionToProto {g : Guid} {t : Transaction} (hrest : t.AtRest) :
    (transactionToProto g t).rows = t.splits.map fun s => FoundSplit.toProto ⟨s, g, t⟩ := by
  rw [Shim.Transaction.rows, transactionToProto, hrest.liveSplits_eq, List.map_map]
  rfl

variable [Wire]

/-- **A row of the book** is a row of the transaction that it names. -/
theorem exists_node_iff {w : World} (hopen : w.session.isSome = true)
    (hrest : AtRest w.book.entities) {row : Shim.SplitWithContext} :
    (∃ node : FoundSplit, (w.book.transaction node.transactionGuid = some node.transaction ∧
        node.split ∈ node.transaction.splits) ∧ node.toProto = row) ↔
      ∃ message, getTransaction row.transactionGuid w = .ok message w ∧ row ∈ message.rows := by
  -- from a split of the book to the message it is in, and back
  constructor
  · rintro ⟨⟨split, g, t⟩, ⟨ht, hs⟩, rfl⟩
    refine ⟨transactionToProto g t, getTransaction_iff.mpr
      ⟨hopen, g, t, findTransaction_guidToString ht, ht, rfl, rfl⟩, ?_⟩
    rw [rows_transactionToProto (hrest (.transaction g) t ht)]
    exact List.mem_map_of_mem hs
  · rintro ⟨message, hmessage, hrow⟩
    obtain ⟨-, g, t, -, ht, rfl, -⟩ := getTransaction_iff.mp hmessage
    rw [rows_transactionToProto (hrest (.transaction g) t ht)] at hrow
    obtain ⟨s, hs, rfl⟩ := List.mem_map.mp hrow
    exact ⟨⟨s, g, t⟩, ⟨ht, hs⟩, rfl⟩

/-! ### Walks

Each page is read over the same book, so that the walk is one of `Paging` over one listing. -/

variable {request : Shim.QuerySplitsRequest} {call : QueryCall} {filter : SplitFilter}

/-- A walk over one book makes up what the query finds within the value bounds. -/
theorem walk_rows (hprinted : ∀ g, Engine.guidToString g ≠ "")
    (hplan : planQuery call.world.book request = .ok filter)
    (hnodup : ((call.qofQueryRun filter.query).map FoundSplit.key).Nodup) {n : ℕ}
    {responses : List Shim.QuerySplitsResponse}
    (hwalk : QueryWalk request "" (List.replicate n call) responses) :
    responses.flatMap Shim.QuerySplitsResponse.splits
      = ((call.qofQueryRun filter.query).filter
          fun node => filter.inBounds node.split.value).map FoundSplit.toProto := by
  obtain ⟨pages, hpages, hsplits⟩ := hwalk.walk hprinted
  -- every call of the walk reads the same listing, with the same bounds
  have hsame : ∀ r ∈ (List.replicate n call).map (·.read request),
      r.listed = call.qofQueryRun filter.query ∧
        r.keep = fun node => filter.inBounds node.split.value := by
    intro r hr
    obtain ⟨call', hcall', rfl⟩ := List.mem_map.mp hr
    obtain rfl := List.eq_of_mem_replicate hcall'
    have hlisted : call'.listing request = call'.qofQueryRun filter.query := by
      rw [QueryCall.listing, hplan]
    refine ⟨hlisted, funext fun node => ?_⟩
    show call'.inBounds request node = _
    rw [QueryCall.inBounds, hplan]
  obtain ⟨rest, hrest, hflatten⟩ := hpages.flatten_eq hnodup hsame
  obtain rfl := Option.some.inj ((Paging.behind_none _ _).symm.trans hrest)
  rw [List.flatMap_def, hsplits, ← List.map_flatten, hflatten]

/-- A walk over one book ends. -/
theorem exists_walk_of_plan (hprinted : ∀ g, Engine.guidToString g ≠ "")
    (hopen : call.world.session.isSome = true)
    (hplan : planQuery call.world.book request = .ok filter)
    (hnodup : ((call.qofQueryRun filter.query).map FoundSplit.key).Nodup) :
    ∃ n responses, QueryWalk request "" (List.replicate n call) responses := by
  have hkeys : ((call.read request).keys FoundSplit.key).Nodup := by
    show ((call.listing request).map FoundSplit.key).Nodup
    rw [QueryCall.listing, hplan]
    exact hnodup
  have hnone : call.world.session.isNone = false := by
    rw [← Option.not_isSome, hopen]
    rfl
  have hask : call.ask request "" = .ok (pageToProto ((call.read request).pageOf FoundSplit.key
      (call.listing request))) call.world := by
    have hpage : (call.read request).page FoundSplit.key (cursorOf "")
        = some ((call.read request).pageOf FoundSplit.key (call.listing request)) := by
      show (Paging.behind FoundSplit.key none (call.listing request)).map _ = _
      rw [Paging.behind_none, Option.map_some]
    rw [QueryCall.ask_of_plan hnone hplan, hpage]
  obtain ⟨reads, pages, hsame, hwalk⟩ := Paging.exists_walk (call.read request) hkeys
    (Paging.behind_none FoundSplit.key (call.listing request))
  exact exists_queryWalk hprinted hask hsame hwalk rfl

/-- **The two ways to read agree**, in every state of a run whose GUIDs are new: a GUID names one
split of the book, and the pages of `QuerySplits` can be walked to the end, and hold the rows that
`GetTransaction` gives for the transactions they name, exactly those that match the request, and
no GUID twice. -/
theorem reports_agree (hprinted : ∀ g, Engine.guidToString g ≠ "") {config : Config} {b₀ : Book}
    {events : List Event} (hnamed : b₀.SplitsNamed) (hrest : AtRest b₀.entities)
    (hrun : Machine.Along Daemon.step Daemon.Names (Daemon.fresh config b₀) events)
    (hcall : call.world = ((Daemon.fresh config b₀).run events).world)
    (hopen : call.world.session.isSome = true)
    {MatchesQuery : SplitQuery → Shim.SplitWithContext → Prop}
    (hfinds : ∀ query, Finds call.world.book (MatchesQuery query) (call.qofQueryRun query))
    (hplan : planQuery call.world.book request = .ok filter) :
    call.world.book.SplitsNamed ∧
    (∃ n responses, QueryWalk request "" (List.replicate n call) responses) ∧
    ∀ n responses, QueryWalk request "" (List.replicate n call) responses →
      ((responses.flatMap Shim.QuerySplitsResponse.splits).map (·.split.guid)).Nodup ∧
      ∀ row, row ∈ responses.flatMap Shim.QuerySplitsResponse.splits ↔
        (∃ message, getTransaction row.transactionGuid call.world = .ok message call.world ∧
          row ∈ message.rows) ∧
        MatchesQuery filter.query row ∧
        filter.inBounds ⟨row.split.value.num, row.split.value.denom⟩ = true := by
  obtain ⟨b, hholds, hrest', hnamed'⟩ := books_named hnamed hrest hrun
  rw [← hcall] at hholds
  rw [← hholds.book] at hrest' hnamed'
  have hfound := hfinds filter.query
  have hnodup := hfound.nodup_keys hnamed'
  refine ⟨hnamed', exists_walk_of_plan hprinted hopen hplan hnodup, fun n responses hwalk => ?_⟩
  rw [walk_rows hprinted hplan hnodup hwalk]
  -- no GUID comes twice: a sublist of the keys
  constructor
  · have hguids : ((call.qofQueryRun filter.query).filter fun node =>
        filter.inBounds node.split.value).map ((·.split.guid) ∘ FoundSplit.toProto)
          = ((call.qofQueryRun filter.query).filter fun node =>
              filter.inBounds node.split.value).map FoundSplit.key := rfl
    rw [List.map_map, hguids]
    exact hnodup.sublist (List.filter_sublist.map _)
  · intro row
    rw [← exists_node_iff hopen hrest', List.mem_map]
    constructor
    · rintro ⟨node, hnode, rfl⟩
      obtain ⟨hlisted, hbounds⟩ := List.mem_filter.mp hnode
      obtain ⟨ht, hs, hmatch⟩ := (hfound.mem_iff node).mp hlisted
      exact ⟨⟨node, ⟨ht, hs⟩, rfl⟩, hmatch, hbounds⟩
    · rintro ⟨⟨node, ⟨ht, hs⟩, rfl⟩, hmatch, hbounds⟩
      exact ⟨node, List.mem_filter.mpr ⟨(hfound.mem_iff node).mpr ⟨ht, hs, hmatch⟩, hbounds⟩, rfl⟩

end Rows

section Witness

open Reference

attribute [local instance] Reference.engine Reference.wire

/-- Post the receipt. -/
def receiptPosted : List Event := [.start (starts []), .mutate (post '1' 100) (calm 16)]

/-- Posting the receipt draws GUIDs that no split has. -/
theorem receiptPosted_names :
    Machine.Along Daemon.step Daemon.Names (Daemon.fresh config book) receiptPosted := by
  have hinjective : Function.Injective (calm 16).newGuid := fun i j h => Nat.add_left_cancel h
  have hstart : (Daemon.fresh config book).step (.start (starts [])) = started := rfl
  refine ⟨⟨⟨trivial, fun m fate he => by cases he⟩, fun m fate he => by cases he⟩, ?_, trivial⟩
  rw [hstart, Daemon.Names, Daemon.Orderly, started_book]
  refine ⟨⟨⟨rfl, trivial⟩, fun m fate he => ?_⟩, fun m fate he => ?_⟩
  · cases he
    exact calm_fresh (by decide) none
  · cases he
    refine ⟨hinjective, fun g t ht => ?_⟩
    rw [book_transaction g] at ht
    cases ht

/-- The walk over the receipt, one split on a page. -/
theorem reports_agree_receipt : ∃ n responses,
    QueryWalk byOne "" (List.replicate n receiptQuery) responses ∧
      ((responses.flatMap Shim.QuerySplitsResponse.splits).map (·.split.guid)).Nodup := by
  have hbook : posted.book
      = book.setEntities (book.entities.insert (.transaction 16) receipt) := by decide +kernel
  have hfinds : ∀ query : SplitQuery,
      Finds receiptQuery.world.book (fun _ => True) (receiptQuery.qofQueryRun query) := by
    intro query
    refine ⟨?_, fun node => ?_⟩
    · refine List.Nodup.map (fun s s' h => (FoundSplit.mk.inj h).1) ?_
      decide +kernel
    · show node ∈ receipt.splits.map (fun split => FoundSplit.mk split 16 receipt) ↔
        posted.book.transaction node.transactionGuid = some node.transaction ∧ _
      rw [hbook]
      obtain ⟨s, g, t⟩ := node
      simp only [List.mem_map, FoundSplit.mk.injEq, and_true]
      constructor
      · rintro ⟨s, hs, rfl, rfl, rfl⟩
        exact ⟨Finmap.lookup_insert _, hs⟩
      · rintro ⟨ht, hs⟩
        by_cases hg : g = 16
        · subst hg
          obtain rfl : receipt = t := Option.some.inj ((Finmap.lookup_insert _).symm.trans ht)
          exact ⟨s, hs, rfl, rfl, rfl⟩
        · have hne : EntityRef.transaction g ≠ .transaction 16 := fun heq =>
            hg (EntityRef.transaction.inj heq)
          have hnone : book.transaction g = some t :=
            (Finmap.lookup_insert_of_ne _ hne).symm.trans ht
          rw [book_transaction g] at hnone
          cases hnone
  have hplan : ∃ filter, planQuery receiptQuery.world.book byOne = .ok filter := ⟨_, rfl⟩
  obtain ⟨filter, hplan⟩ := hplan
  obtain ⟨-, ⟨n, responses, hwalk⟩, hrows⟩ := reports_agree guidToString_ne_empty
    (.of_empty book_transaction) book_atRest receiptPosted_names rfl (by decide +kernel) hfinds hplan
  exact ⟨n, responses, hwalk, (hrows n responses hwalk).1⟩

end Witness

end Daichod
