import Daichod.Engine.Days
import Daichod.Engine.Session

/-!
# Daichod.Rpc.GetPrices

`GetPrices` (`rpc/commodity_service.cpp`): of the prices that the engine lists for a commodity,
those between two dates. The list is a parameter of the call.
-/

namespace Daichod

namespace Shim

/-- `GetPricesRequest`. -/
structure GetPricesRequest where
  commodity : CommodityId
  currency : Option CommodityId
  dateFrom : Option Date
  dateTo : Option Date
  deriving Repr, DecidableEq

/-- `PriceList`. -/
structure PriceList where
  prices : List Price
  deriving Repr, DecidableEq

end Shim

/-- The bounds of the loop: a price before `from` or after `to` is passed over. -/
def inTimes (dateFrom dateTo : Option Int64) (time : Int64) : Bool :=
  !dateFrom.any (time < ·) && !dateTo.any (time > ·)

/-- A date bound, where it is set. -/
def dateBound (date : Option Shim.Date) (context : String) : Except ShimError (Option GDate) :=
  date.mapM (dateFromProto · context)

/-- An accepted bound is a date. -/
theorem dateBound_valid {date : Option Shim.Date} {context : String} {bound : Option GDate}
    (h : dateBound date context = .ok bound) : ∀ d ∈ bound, d.valid = true := by
  cases date with
  | none =>
    cases h
    intro d hd
    cases hd
  | some date =>
    simp only [dateBound, Option.mapM_some] at h
    cases hdate : dateFromProto date context with
    | error e => rw [hdate] at h; cases h
    | ok d' =>
      rw [hdate] at h
      cases h
      intro d hd
      rw [← Option.some.inj hd]
      exact dateFromProto_valid hdate

variable [Engine]

/-- The response that shows prices. -/
def priceListToProto (prices : List (Guid × Price)) : Shim.PriceList where
  prices := prices.map fun price => priceToProto price.1 price.2

variable [DayTimes]

/-- The loop over the prices listed. -/
def pricesBetween (dateFrom dateTo : Option GDate) (listed : List (Guid × Price)) :
    List (Guid × Price) :=
  listed.filter fun price =>
    inTimes (dateFrom.map DayTimes.dmy2time64) (dateTo.map DayTimes.dmy2time64End) price.2.time

/-- `GetPrices`. -/
def getPrices [Wire] (gncPricedbGetPrices : Commodity → Option Commodity → List (Guid × Price))
    (request : Shim.GetPricesRequest) : Exec Shim.PriceList := do
  let book ← Session.book
  let commodity ← liftValid (findCommodity book request.commodity "commodity")
  let currency ← liftValid (request.currency.mapM (findCommodity book · "currency"))
  let dateFrom ← liftValid (dateBound request.dateFrom "date_from")
  let dateTo ← liftValid (dateBound request.dateTo "date_to")
  return priceListToProto (pricesBetween dateFrom dateTo (gncPricedbGetPrices commodity currency))

/-- What `GetPrices` answers. -/
theorem getPrices_iff [Wire] {list : Commodity → Option Commodity → List (Guid × Price)}
    {request : Shim.GetPricesRequest} {w w' : World} {response : Shim.PriceList} :
    getPrices list request w = .ok response w' ↔ w.session.isSome = true ∧
      ∃ commodity, findCommodity w.book request.commodity "commodity" = .ok commodity ∧
      ∃ currency, request.currency.mapM (findCommodity w.book · "currency") = .ok currency ∧
      ∃ dateFrom, dateBound request.dateFrom "date_from" = .ok dateFrom ∧
      ∃ dateTo, dateBound request.dateTo "date_to" = .ok dateTo ∧
      priceListToProto (pricesBetween dateFrom dateTo (list commodity currency)) = response ∧
      w = w' := by
  simp only [getPrices, Session.run_book_bind_iff, run_liftValid_bind_iff]
  simp

end Daichod
