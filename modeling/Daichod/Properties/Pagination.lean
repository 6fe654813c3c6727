import Daichod.Properties.FullReplacement
import Daichod.Rpc.QuerySplits

/-!
# Daichod.Properties.Pagination

**Pagination neither loses nor repeats** (`pagination_exact`). A client walks through the
result of `QuerySplits` by handing each page token back, while mutations run between its
calls. The rules of `Paging` say what it gets; what is left to say here is that the calls are
reads in that sense, and that an empty token, which ends the walk, is never the name of a
split.

## Proof shape

A call of `QuerySplits` is a read of `Paging` (`QueryCall.read`): a listing, a filter and a size.
A walk of calls is then a walk of reads (`QueryWalk.walk`), and the three parts of the property
are the library's: what is listed throughout comes exactly once, a token leads past what was
served, and over one listing the pages make up the whole.
-/

namespace Daichod

section Pagination

variable [Wire] [Engine]

/-- One call of `QuerySplits`: the daemon it meets, and what the engine's query returns
there. -/
structure QueryCall where
  world : World
  qofQueryRun : SplitQuery → List FoundSplit

namespace QueryCall

variable (request : Shim.QuerySplitsRequest) (call : QueryCall)

/-- The call with a page token in place of the request's. -/
def ask (token : String) : EStateM.Result Exn World Shim.QuerySplitsResponse :=
  querySplits call.qofQueryRun { request with pageToken := token } call.world

/-- The engine's result list. -/
def listing : List FoundSplit :=
  match planQuery call.world.book request with
  | .ok filter => call.qofQueryRun filter.query
  | .error _ => []

/-- Does a split satisfy the value bounds? -/
def inBounds (node : FoundSplit) : Bool :=
  match planQuery call.world.book request with
  | .ok filter => filter.inBounds node.split.value
  | .error _ => false

/-- The call as a read of a list. -/
def read : Paging.Read FoundSplit where
  listed := call.listing request
  keep := call.inBounds request
  size := (pageSize request.pageSize).toNatClampNeg
  size_pos := pageSize_pos request.pageSize

variable {request} {call} {token : String} {response : Shim.QuerySplitsResponse}

/-- What a call comes to, once its filter is resolved. -/
theorem ask_of_plan {filter : SplitFilter} (hopen : call.world.session.isNone = false)
    (hplan : planQuery call.world.book request = .ok filter) (token : String) :
    call.ask request token =
      match (call.read request).page FoundSplit.key (cursorOf token) with
      | none => .error (.shim ⟨.invalidArgument, "page_token does not match any current result",
          "page_token"⟩) call.world
      | some page => .ok (pageToProto page) call.world := by
  have hread : call.read request
      = filter.read (pageSize request.pageSize).toNatClampNeg (pageSize_pos request.pageSize)
          (call.qofQueryRun filter.query) := by
    simp only [read, listing, SplitFilter.read, hplan, Paging.Read.mk.injEq, and_true, true_and]
    funext node
    simp only [inBounds, hplan]
  have hplan' : planQuery call.world.book { request with pageToken := token } = .ok filter := hplan
  rw [ask, querySplits, run_bind, Session.run_book, hopen, if_neg (by simp)]
  simp only [run_bind, hplan', run_liftValid_ok]
  rw [servePage_eq (pageSize_pos request.pageSize), ← hread]
  cases (call.read request).page FoundSplit.key (cursorOf token) with
  | none => rfl
  | some page => rfl

/-- A call that is answered has its book open and its filter resolved. -/
theorem plan_of_ask {w : World} (h : call.ask request token = .ok response w) :
    call.world.session.isNone = false ∧
      ∃ filter, planQuery call.world.book request = .ok filter := by
  rw [ask, querySplits, run_bind, Session.run_book] at h
  cases hopen : call.world.session.isNone with
  | true =>
    rw [hopen, if_pos rfl] at h
    cases h
  | false =>
    refine ⟨rfl, ?_⟩
    cases hplan : planQuery call.world.book request with
    | ok filter => exact ⟨filter, rfl⟩
    | error e =>
      have hplan' : planQuery call.world.book { request with pageToken := token } = .error e :=
        hplan
      simp only [hopen, Bool.false_eq_true, if_false, run_bind, hplan', run_liftValid_error] at h
      cases h

/-- A call that is answered hands out a page, and changes nothing. -/
theorem page_of_ask {w : World} (h : call.ask request token = .ok response w) :
    w = call.world ∧ ∃ page,
      (call.read request).page FoundSplit.key (cursorOf token) = some page ∧
      response = pageToProto page := by
  obtain ⟨hopen, filter, hplan⟩ := plan_of_ask h
  rw [ask_of_plan hopen hplan] at h
  split at h
  · cases h
  · next page hpage =>
    cases h
    exact ⟨rfl, page, hpage, rfl⟩

/-- Where one token is answered, so is every token that has a position. -/
theorem ask_of_page {w : World} {page : Paging.Page FoundSplit String} {token' : String}
    (h : call.ask request token = .ok response w)
    (hpage : (call.read request).page FoundSplit.key (cursorOf token') = some page) :
    call.ask request token' = .ok (pageToProto page) call.world := by
  obtain ⟨hopen, filter, hplan⟩ := plan_of_ask h
  rw [ask_of_plan hopen hplan, hpage]

end QueryCall

/-! ### Walks

A token is the printed GUID of the last split served, and the empty token says that there is none.
The two are told apart since no GUID prints as nothing. -/

/-- A complete walk from a token: each call hands back the token of the answer before, and an
empty token ends it. -/
inductive QueryWalk (request : Shim.QuerySplitsRequest) :
    String → List QueryCall → List Shim.QuerySplitsResponse → Prop
  | last {token : String} {call : QueryCall} {response : Shim.QuerySplitsResponse} {w : World}
      (hask : call.ask request token = .ok response w) (hdone : response.nextPageToken = "") :
      QueryWalk request token [call] [response]
  | more {token : String} {call : QueryCall} {response : Shim.QuerySplitsResponse} {w : World}
      {calls : List QueryCall} {responses : List Shim.QuerySplitsResponse}
      (hask : call.ask request token = .ok response w) (hnext : response.nextPageToken ≠ "")
      (hrest : QueryWalk request response.nextPageToken calls responses) :
      QueryWalk request token (call :: calls) (response :: responses)

variable {request : Shim.QuerySplitsRequest} {token : String} {calls : List QueryCall}
  {responses : List Shim.QuerySplitsResponse}

/-- A page is the last one exactly if its token is empty: GUIDs do not print empty. -/
theorem nextPageToken_eq_empty_iff (hprinted : ∀ g, Engine.guidToString g ≠ "")
    {call : QueryCall} {cursor : Option String} {page : Paging.Page FoundSplit String}
    (hpage : (call.read request).page FoundSplit.key cursor = some page) :
    (pageToProto page).nextPageToken = "" ↔ page.next = none := by
  obtain ⟨rest, further, hserved⟩ := Paging.Read.served hpage
  cases hnext : page.next with
  | none => simp [pageToProto, hnext]
  | some k =>
    obtain ⟨-, init, node, -, rfl⟩ := hserved.next k hnext
    have hkey : node.key ≠ "" := hprinted node.split.guid
    simpa [pageToProto, hnext] using hkey

/-- A walk of the client is a walk over the lists its calls read. -/
theorem QueryWalk.walk (hprinted : ∀ g, Engine.guidToString g ≠ "")
    (h : QueryWalk request token calls responses) :
    ∃ pages, Paging.Walk FoundSplit.key (cursorOf token) (calls.map (·.read request)) pages ∧
      responses.map Shim.QuerySplitsResponse.splits = pages.map (·.map FoundSplit.toProto) := by
  induction h with
  | last hask hdone =>
    obtain ⟨-, page, hpage, rfl⟩ := QueryCall.page_of_ask hask
    have hnext := (nextPageToken_eq_empty_iff hprinted hpage).mp hdone
    refine ⟨[page.items], .last ?_, rfl⟩
    rw [hpage, ← hnext]
  | more hask hmore hrest ih =>
    obtain ⟨-, page, hpage, rfl⟩ := QueryCall.page_of_ask hask
    obtain ⟨pages, hwalk, hsplits⟩ := ih
    rw [cursorOf_of_ne hmore] at hwalk
    cases hnext : page.next with
    | none => exact absurd ((nextPageToken_eq_empty_iff hprinted hpage).mpr hnext) hmore
    | some next =>
      have htoken : (pageToProto page).nextPageToken = next := by simp [pageToProto, hnext]
      rw [htoken] at hwalk
      refine ⟨page.items :: pages, .more ?_ hwalk, ?_⟩
      · rw [hpage, ← hnext]
      · rw [List.map_cons, List.map_cons, hsplits]
        rfl

/-- Where one call is answered, a walk over the list it reads is a walk of the client. -/
theorem exists_queryWalk (hprinted : ∀ g, Engine.guidToString g ≠ "") {call : QueryCall}
    {response : Shim.QuerySplitsResponse} {w : World}
    (hask : call.ask request token = .ok response w) {cursor : Option String}
    {reads : List (Paging.Read FoundSplit)} {pages : List (List FoundSplit)}
    (hsame : ∀ r ∈ reads, r = call.read request)
    (h : Paging.Walk FoundSplit.key cursor reads pages) {start : String}
    (hstart : cursorOf start = cursor) :
    ∃ n responses, QueryWalk request start (List.replicate n call) responses := by
  induction h generalizing start with
  | @last cursor r items hpage =>
    obtain rfl := hsame r (by simp)
    rw [← hstart] at hpage
    have hlast := (nextPageToken_eq_empty_iff hprinted hpage).mpr rfl
    exact ⟨1, _, .last (QueryCall.ask_of_page hask hpage) hlast⟩
  | @more cursor r items next reads pages hpage hwalk ih =>
    obtain rfl := hsame r (by simp)
    rw [← hstart] at hpage
    have hmore : next ≠ "" := by
      intro hempty
      have hnone := (nextPageToken_eq_empty_iff hprinted hpage).mp hempty
      cases hnone
    obtain ⟨n, responses, hrest⟩ := ih (fun r hr => hsame r (List.mem_cons_of_mem _ hr))
      (cursorOf_of_ne hmore)
    exact ⟨n + 1, _, .more (QueryCall.ask_of_page hask hpage) hmore hrest⟩

/-! ### What a walk gets

The walk of calls as a walk of reads, and the library's rules on it. -/

/-- The GUIDs an answer lists. -/
def guidsOf (response : Shim.QuerySplitsResponse) : List String :=
  response.splits.map fun entry => entry.split.guid

namespace QueryCall

variable (request) (call : QueryCall)

/-- The GUIDs of the engine's result list. -/
def listed : List String := (call.listing request).map FoundSplit.key

/-- The splits listed that satisfy the value bounds. -/
def matching : List FoundSplit := (call.listing request).filter (call.inBounds request)

/-- Splits listed for both calls are listed in the same order. -/
def SameOrder (call call' : QueryCall) : Prop :=
  ∀ a b, Paging.Precedes (call.listed request) a b → a ∈ call'.listed request →
    b ∈ call'.listed request → Paging.Precedes (call'.listed request) a b

end QueryCall

/-- **Pagination is exact.**

* Over changing books: a split that every call of a walk lists and finds in bounds is
  returned exactly once.
* No page is longer than the limit, and its token is empty unless a further split behind it
  is in bounds.
* Over one book: the walk ends, and its pages are the list without pages. -/
theorem pagination_exact (hprinted : ∀ g, Engine.guidToString g ≠ "")
    (request : Shim.QuerySplitsRequest) :
    (∀ calls responses, QueryWalk request "" calls responses →
      (∀ call ∈ calls, (call.listed request).Nodup) →
      calls.IsChain (QueryCall.SameOrder request) →
      ∀ guid, (∀ call ∈ calls, guid ∈ (call.matching request).map FoundSplit.key) →
        (responses.flatMap guidsOf).count guid = 1) ∧
    (∀ (call : QueryCall) token response w, call.ask request token = .ok response w →
      response.splits.length
          ≤ min (if 0 < request.pageSize.toInt then request.pageSize.toInt else 100) 500 ∧
        (response.nextPageToken ≠ "" → ∃ node ∈ call.matching request,
          Paging.Precedes (call.listed request) response.nextPageToken node.key)) ∧
    (∀ call : QueryCall, (call.listed request).Nodup →
      (∃ response w, call.ask request "" = .ok response w) →
      (∃ n responses, QueryWalk request "" (List.replicate n call) responses) ∧
        ∀ n responses, QueryWalk request "" (List.replicate n call) responses →
          responses.flatMap Shim.QuerySplitsResponse.splits
            = (call.matching request).map FoundSplit.toProto) := by
  refine ⟨?_, ?_, ?_⟩
  · intro calls responses hwalk hnodup horder guid hguid
    obtain ⟨pages, hpages, hsplits⟩ := hwalk.walk hprinted
    have hguids : responses.flatMap guidsOf = pages.flatten.map FoundSplit.key := by
      calc responses.flatMap guidsOf
          = (responses.map Shim.QuerySplitsResponse.splits).flatten.map (·.split.guid) := by
            rw [List.map_flatten, List.map_map]
            rfl
        _ = pages.flatten.map FoundSplit.key := by
            rw [hsplits, ← List.map_flatten, List.map_map]
            rfl
    -- the reads are without repetition, keep their order and all list the split, as the calls do
    rw [hguids]
    refine hpages.count_eq_one ?_ ?_ ?_
    · intro r hr
      obtain ⟨call, hcall, rfl⟩ := List.mem_map.mp hr
      exact hnodup call hcall
    · rw [List.isChain_map]
      exact horder
    · intro r hr
      obtain ⟨call, hcall, rfl⟩ := List.mem_map.mp hr
      exact hguid call hcall
  -- one page: at most as many as were asked for, and its token names a split served on it
  · intro call token response w hask
    obtain ⟨-, page, hpage, rfl⟩ := QueryCall.page_of_ask hask
    obtain ⟨rest, further, hserved⟩ := Paging.Read.served hpage
    constructor
    · have hlength : page.items.length ≤ (pageSize request.pageSize).toNatClampNeg :=
        hserved.length_le
      have hclamp := Int32.toNat_toInt (pageSize request.pageSize)
      have hpos := pageSize_pos request.pageSize
      rw [← pageSize_eq request.pageSize]
      simp only [pageToProto, List.length_map]
      omega
    · intro htoken
      have hnext : page.next ≠ none :=
        mt (nextPageToken_eq_empty_iff hprinted hpage).mpr htoken
      obtain ⟨next, hnext⟩ := Option.ne_none_iff_exists'.mp hnext
      obtain ⟨node, hnode⟩ := List.exists_mem_of_ne_nil _ (hserved.next next hnext).1
      have htoken : (pageToProto page).nextPageToken = next := by simp [pageToProto, hnext]
      refine ⟨node, ?_, ?_⟩
      · have hfound : node ∈ rest.filter (call.read request).keep := by
          rw [hserved.filter_eq]
          exact List.mem_append_right _ hnode
        obtain ⟨hrest, hkeep⟩ := List.mem_filter.mp hfound
        exact List.mem_filter.mpr
          ⟨(Paging.behind_isSuffix hserved.behind_eq).subset hrest, hkeep⟩
      · rw [htoken]
        exact hserved.precedes_of_further hnext (List.mem_map_of_mem hnode)
  -- over one book: the walk ends, and its pages make up what the query finds
  · intro call hnodup hanswers
    obtain ⟨response, w, hask⟩ := hanswers
    constructor
    · obtain ⟨reads, pages, hsame, hwalk⟩ := Paging.exists_walk (call.read request) hnodup
        (Paging.behind_none FoundSplit.key (call.listing request))
      exact exists_queryWalk hprinted hask hsame hwalk rfl
    · intro n responses hwalk
      obtain ⟨pages, hpages, hsplits⟩ := hwalk.walk hprinted
      have hsame : ∀ r ∈ (List.replicate n call).map (·.read request),
          r.listed = call.listing request ∧ r.keep = call.inBounds request := by
        intro r hr
        obtain ⟨call', hcall', rfl⟩ := List.mem_map.mp hr
        obtain rfl := List.eq_of_mem_replicate hcall'
        exact ⟨rfl, rfl⟩
      obtain ⟨rest, hrest, hflatten⟩ := hpages.flatten_eq hnodup hsame
      obtain rfl := Option.some.inj ((Paging.behind_none _ _).symm.trans hrest)
      rw [List.flatMap_def, hsplits, ← List.map_flatten, hflatten]
      rfl

end Pagination

section Receipt

open Reference

attribute [local instance] Reference.engine Reference.wire

/-- The receipt's splits, one on a page. -/
def byOne : Shim.QuerySplitsRequest where
  accountGuids := []
  dateFrom := none
  dateTo := none
  descriptionContains := ""
  memoContains := ""
  valueMin := none
  valueMax := none
  states := []
  pageSize := 1
  pageToken := ""

/-- The query on the book that has the receipt. -/
def receiptQuery : QueryCall where
  world := posted
  qofQueryRun _ := receipt.splits.map fun split => ⟨split, 16, receipt⟩

/-- The receipt, one split on a page. -/
theorem pagination_exact_receipt :
    ∃ n responses, QueryWalk byOne "" (List.replicate n receiptQuery) responses ∧
      responses.flatMap Shim.QuerySplitsResponse.splits
        = (receiptQuery.matching byOne).map FoundSplit.toProto := by
  have hasked : ∃ response w, receiptQuery.ask byOne "" = .ok response w := by
    have hopen : receiptQuery.world.session.isNone = false := by decide +kernel
    rw [QueryCall.ask_of_plan hopen rfl]
    exact ⟨_, _, rfl⟩
  obtain ⟨⟨n, responses, hwalk⟩, hpages⟩ :=
    (pagination_exact guidToString_ne_empty byOne).2.2 receiptQuery (by decide +kernel) hasked
  exact ⟨n, responses, hwalk, hpages n responses hwalk⟩

end Receipt

end Daichod
