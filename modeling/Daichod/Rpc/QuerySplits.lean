import Daichod.Engine.Map
import Daichod.Library.Paging
import Daichod.Engine.Session

/-!
# Daichod.Rpc.QuerySplits

`QuerySplits` (`rpc/transaction_service.cpp`): the engine runs the query, and one loop over
its result skips to the page token, filters by value and fills the page. What the engine's
query returns is a parameter of the call; everything the handler does with it is here.

The loop is a page of `Paging` (`servePage_eq`): the token is the cursor, the value bounds
are the filter.
-/

namespace Daichod

/-! ### Messages -/

namespace Shim

/-- `QuerySplitsRequest`. -/
structure QuerySplitsRequest where
  accountGuids : List String
  dateFrom : Option Date
  dateTo : Option Date
  descriptionContains : String
  memoContains : String
  valueMin : Option Numeric
  valueMax : Option Numeric
  states : List ReconcileState
  pageSize : Int32
  pageToken : String
  deriving Repr, DecidableEq

/-- `SplitWithContext`. -/
structure SplitWithContext where
  split : Split
  transactionGuid : String
  postDate : Option Date
  description : String
  txnCurrency : Option CommodityId
  deriving Repr, DecidableEq

/-- `QuerySplitsResponse`. -/
structure QuerySplitsResponse where
  splits : List SplitWithContext
  nextPageToken : String
  deriving Repr, DecidableEq

end Shim

/-! ### The engine's query -/

/-- The predicates put on the query. A date bound stands for the start or the end of that
day. -/
structure SplitQuery where
  /-- `xaccQueryAddAccountMatch`; none where the list is empty. -/
  accounts : List Guid
  dateFrom : Option GDate
  dateTo : Option GDate
  /-- `xaccQueryAddDescriptionMatch`. -/
  description : Option String
  /-- `xaccQueryAddMemoMatch`. -/
  memo : Option String
  /-- `xaccQueryAddClearedMatch`. -/
  cleared : Option ℕ

/-- A split of the result, with its parent. -/
structure FoundSplit where
  split : Split
  transactionGuid : Guid
  transaction : Transaction

/-- One flag of a `cleared_match_t`. -/
def clearedMatch (state : Shim.ReconcileState) : Except ShimError ℕ :=
  match state with
  | .notReconciled => .ok 0x0001
  | .cleared => .ok 0x0002
  | .reconciled => .ok 0x0004
  | .frozen => .ok 0x0008
  | .voided => .ok 0x0010
  | .unspecified | .unrecognized _ =>
    .error ⟨.invalidArgument, "unspecified reconcile state", "states"⟩

/-- `ClearedMaskFromStates`. -/
def clearedMaskFromStates (states : List Shim.ReconcileState) : Except ShimError ℕ :=
  states.foldlM (fun mask state => do return mask ||| (← clearedMatch state)) 0

/-- What the handler has resolved before the query object exists. -/
structure SplitFilter where
  query : SplitQuery
  valueMin : Option GncNumeric
  valueMax : Option GncNumeric

/-- The value bounds of the loop. -/
def SplitFilter.inBounds (filter : SplitFilter) (value : GncNumeric) : Bool :=
  !filter.valueMin.any (fun valueMin => gncNumericCompare value valueMin < 0) &&
    !filter.valueMax.any (fun valueMax => gncNumericCompare value valueMax > 0)

/-- A C++ string where it is not empty. -/
def nonEmpty (text : String) : Option String := if text.isEmpty then none else some text

/-- The page token as a cursor. -/
def cursorOf (token : String) : Option String := nonEmpty token

theorem cursorOf_of_ne {token : String} (h : token ≠ "") : cursorOf token = some token := by
  simp [cursorOf, nonEmpty, h]

def kDefaultPageSize : Int32 := 100
def kMaxPageSize : Int32 := 500

/-- The page size served for the one requested. -/
def pageSize (requested : Int32) : Int32 :=
  let size := if requested ≤ 0 then kDefaultPageSize else requested
  if size > kMaxPageSize then kMaxPageSize else size

/-- The size asked for where that is positive, else 100; 500 at most. -/
theorem pageSize_eq (requested : Int32) :
    (pageSize requested).toInt
      = min (if 0 < requested.toInt then requested.toInt else 100) 500 := by
  have hdefault : kDefaultPageSize.toInt = 100 := rfl
  have hmax : kMaxPageSize.toInt = 500 := rfl
  have hzero : (0 : Int32).toInt = 0 := rfl
  simp only [pageSize, gt_iff_lt, Int32.lt_iff_toInt_lt, Int32.le_iff_toInt_le, hzero]
  by_cases hpos : requested.toInt ≤ 0
  · rw [if_pos hpos, if_neg (not_lt.mpr hpos), hdefault, hmax, if_neg (by omega)]
    omega
  · rw [if_neg hpos, if_pos (not_le.mp hpos), hmax]
    split
    · omega
    · omega

/-- The page size as a number of entries. -/
theorem pageSize_pos (requested : Int32) : 0 < (pageSize requested).toNatClampNeg := by
  have h := pageSize_eq requested
  have hclamp : (pageSize requested).toNatClampNeg = (pageSize requested).toInt.toNat := rfl
  split at h <;> omega

variable [Engine]

/-- The validation of `QuerySplits`, in the order of the handler. -/
def planQuery (book : Book) (request : Shim.QuerySplitsRequest) : Except ShimError SplitFilter := do
  let accounts ← request.accountGuids.foldlM (fun accounts guid => do
    return (← findAccount book guid "account_guids") :: accounts) []
  let dateFrom ← request.dateFrom.mapM (dateFromProto · "date_from")
  let dateTo ← request.dateTo.mapM (dateFromProto · "date_to")
  let clearedMask ← clearedMaskFromStates request.states
  let valueMin ← request.valueMin.mapM (numericFromProto · "value_min")
  let valueMax ← request.valueMax.mapM (numericFromProto · "value_max")
  return {
    query := {
      accounts
      dateFrom
      dateTo
      description := nonEmpty request.descriptionContains
      memo := nonEmpty request.memoContains
      cleared := if request.states.isEmpty then none else some clearedMask }
    valueMin
    valueMax }

/-! ### The cursor loop -/

/-- The GUID that a split of the result is told by. -/
def FoundSplit.key (node : FoundSplit) : String := Engine.guidToString node.split.guid

/-- One entry of the response. -/
def FoundSplit.toProto (node : FoundSplit) : Shim.SplitWithContext where
  split := splitToProto node.split
  transactionGuid := Engine.guidToString node.transactionGuid
  postDate := (node.transaction.postDate.filter GDate.valid).map dateToProto
  description := node.transaction.description
  txnCurrency := node.transaction.currency.map commodityIdToProto

/-- The locals of the loop. -/
structure CursorLoop where
  skipping : Bool
  tokenSeen : Bool
  emitted : ℕ
  response : Shim.QuerySplitsResponse

/-- The loop over the result of the query. -/
def cursorLoop (token : String) (filter : SplitFilter) (pageSize : ℕ) :
    CursorLoop → List FoundSplit → CursorLoop
  | s, [] => s
  | s, node :: rest =>
    if s.skipping then
      if node.key = token then
        cursorLoop token filter pageSize { s with skipping := false, tokenSeen := true } rest
      else cursorLoop token filter pageSize s rest
    else if !filter.inBounds node.split.value then cursorLoop token filter pageSize s rest
    else if s.emitted = pageSize then
      -- `break`
      { s with response := { s.response with
          nextPageToken := (s.response.splits[s.emitted - 1]?).elim "" (·.split.guid) } }
    else
      cursorLoop token filter pageSize
        { s with
          emitted := s.emitted + 1
          response := { s.response with splits := s.response.splits ++ [node.toProto] } } rest

/-- The loop from its start, and the check behind it. -/
def servePage (token : String) (filter : SplitFilter) (pageSize : ℕ) (results : List FoundSplit) :
    Except ShimError Shim.QuerySplitsResponse :=
  let s := cursorLoop token filter pageSize
    { skipping := !token.isEmpty, tokenSeen := false, emitted := 0, response := ⟨[], ""⟩ } results
  if s.skipping && !s.tokenSeen then
    .error ⟨.invalidArgument, "page_token does not match any current result", "page_token"⟩
  else .ok s.response

/-! ### The loop is a page -/

section Loop

variable {token : String} {filter : SplitFilter} {size : ℕ} {results rest : List FoundSplit}

/-- What the loop reads. -/
def SplitFilter.read (filter : SplitFilter) (size : ℕ) (hsize : 0 < size)
    (results : List FoundSplit) : Paging.Read FoundSplit where
  listed := results
  keep node := filter.inBounds node.split.value
  size := size
  size_pos := hsize

/-- The response that shows a page. -/
def pageToProto (page : Paging.Page FoundSplit String) : Shim.QuerySplitsResponse where
  splits := page.items.map FoundSplit.toProto
  nextPageToken := page.next.getD ""

/-- While it skips, the loop looks for the token and nothing else. -/
theorem cursorLoop_skipping (response : Shim.QuerySplitsResponse) :
    cursorLoop token filter size ⟨true, false, 0, response⟩ results =
      match Paging.behind FoundSplit.key (some token) results with
      | none => ⟨true, false, 0, response⟩
      | some rest => cursorLoop token filter size ⟨false, true, 0, response⟩ rest := by
  induction results with
  | nil => rfl
  | cons node results ih =>
    rw [cursorLoop, if_pos rfl, Paging.behind]
    split
    · rfl
    · exact ih

/-- Past the token, the loop fills a page: `done` is what it has emitted so far. -/
theorem cursorLoop_emitting (tokenSeen : Bool) (done : List FoundSplit)
    (hdone : done.length ≤ size) :
    ∃ emitted, cursorLoop token filter size
        ⟨false, tokenSeen, done.length, ⟨done.map FoundSplit.toProto, ""⟩⟩ rest
      = ⟨false, tokenSeen, emitted, pageToProto (Paging.cut FoundSplit.key size
          (done ++ rest.filter fun node => filter.inBounds node.split.value))⟩ := by
  induction rest generalizing done with
  | nil =>
    refine ⟨done.length, ?_⟩
    rw [cursorLoop, List.filter_nil, List.append_nil, Paging.cut_of_length_le _ hdone]
    rfl
  | cons node rest ih =>
    rw [cursorLoop, if_neg (by simp)]
    cases hkeep : filter.inBounds node.split.value with
    | false =>
      -- Out of bounds: neither emitted nor counted.
      obtain ⟨emitted, hloop⟩ := ih done hdone
      refine ⟨emitted, ?_⟩
      rw [if_pos (by simp), hloop, List.filter_cons_of_neg (by simp [hkeep])]
    | true =>
      rw [if_neg (by simp), List.filter_cons_of_pos (by simp [hkeep])]
      by_cases hfull : done.length = size
      · -- The page is full, and there is one more for the next.
        refine ⟨done.length, ?_⟩
        rw [if_pos hfull, Paging.cut_of_full _ hfull]
        have hlast : (done.map FoundSplit.toProto)[done.length - 1]?
            = done.getLast?.map FoundSplit.toProto := by
          rw [List.getElem?_map, List.getLast?_eq_getElem?]
        simp only [pageToProto, hlast]
        cases done.getLast? with
        | none => rfl
        | some last => rfl
      · obtain ⟨emitted, hloop⟩ := ih (done ++ [node]) (by simp; omega)
        refine ⟨emitted, ?_⟩
        rw [if_neg hfull, List.append_cons done node, ← hloop]
        simp

/-- **The loop hands out a page**, or finds no position for the token. -/
theorem servePage_eq (hsize : 0 < size) :
    servePage token filter size results =
      match (filter.read size hsize results).page FoundSplit.key (cursorOf token) with
      | none => .error
          ⟨.invalidArgument, "page_token does not match any current result", "page_token"⟩
      | some page => .ok (pageToProto page) := by
  have hserve : ∀ (tokenSeen : Bool) (rest : List FoundSplit), ∃ emitted,
      cursorLoop token filter size ⟨false, tokenSeen, 0, ⟨[], ""⟩⟩ rest
        = ⟨false, tokenSeen, emitted,
            pageToProto ((filter.read size hsize results).pageOf FoundSplit.key rest)⟩ :=
    fun tokenSeen rest => cursorLoop_emitting tokenSeen [] (Nat.zero_le _)
  unfold servePage cursorOf nonEmpty
  cases hempty : token.isEmpty with
  | true =>
    obtain ⟨emitted, hloop⟩ := hserve false results
    simp only [Bool.not_true, hloop, if_true, Paging.Read.page, Paging.behind_none]
    rfl
  | false =>
    have hlisted : (filter.read size hsize results).listed = results := rfl
    simp only [Bool.not_false, cursorLoop_skipping, Bool.false_eq_true, if_false, Paging.Read.page,
      hlisted]
    cases hbehind : Paging.behind FoundSplit.key (some token) results with
    | none => rfl
    | some rest =>
      obtain ⟨emitted, hloop⟩ := hserve true rest
      simp only [hloop]
      rfl

/-- Every entry of a page shows a split of the result. -/
theorem servePage_entry {token : String} {filter : SplitFilter} {size : ℕ} (hsize : 0 < size)
    {results : List FoundSplit} {response : Shim.QuerySplitsResponse}
    (h : servePage token filter size results = .ok response) :
    ∀ entry ∈ response.splits, ∃ node ∈ results, node.toProto = entry := by
  rw [servePage_eq hsize] at h
  cases hpage : (filter.read size hsize results).page FoundSplit.key (cursorOf token) with
  | none => rw [hpage] at h; cases h
  | some page =>
    rw [hpage] at h
    obtain rfl := Except.ok.inj h
    intro entry hentry
    obtain ⟨node, hnode, rfl⟩ := List.mem_map.mp hentry
    obtain ⟨rest, further, hserved⟩ := Paging.Read.served hpage
    have hrest : node ∈ rest.filter _ := hserved.filter_eq ▸ List.mem_append_left _ hnode
    exact ⟨node, (Paging.behind_isSuffix hserved.behind_eq).subset (List.mem_filter.mp hrest).1, rfl⟩

end Loop

/-- `QuerySplits`. -/
def querySplits [Wire] (qofQueryRun : SplitQuery → List FoundSplit)
    (request : Shim.QuerySplitsRequest) : Exec Shim.QuerySplitsResponse := do
  let book ← Session.book
  let filter ← liftValid (planQuery book request)
  liftValid (servePage request.pageToken filter (pageSize request.pageSize).toNatClampNeg
    (qofQueryRun filter.query))

/-- What `QuerySplits` answers. -/
theorem querySplits_iff [Wire] {run : SplitQuery → List FoundSplit} {request : Shim.QuerySplitsRequest}
    {w w' : World} {response : Shim.QuerySplitsResponse} :
    querySplits run request w = .ok response w' ↔ w.session.isSome = true ∧ ∃ filter,
      planQuery w.book request = .ok filter ∧
      servePage request.pageToken filter (pageSize request.pageSize).toNatClampNeg
        (run filter.query) = .ok response ∧ w = w' := by
  simp only [querySplits, Session.run_book_bind_iff, run_liftValid_bind_iff, run_liftValid_iff]

end Daichod
