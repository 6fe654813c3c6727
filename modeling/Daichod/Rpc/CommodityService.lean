import Daichod.Engine.Session
import Daichod.Rpc.Mutation

/-!
# Daichod.Rpc.CommodityService

`AddPrice`, the mutating handler of `rpc/commodity_service.cpp`. Its edit ends differently
from the others: committing the price's own edit writes nothing, since no database holds
the price yet; it reaches the book with `gnc_pricedb_add_price`, whose result the handler
does not look at.
-/

namespace Daichod

variable [Wire] [Engine]

namespace Shim

/-- `Commodity`. -/
structure Commodity where
  id : CommodityId
  fullname : String
  fraction : Int32
  isCurrency : Bool
  deriving Repr, DecidableEq

/-- `CommodityList`. -/
structure CommodityList where
  commodities : List Commodity
  deriving Repr, DecidableEq

end Shim

/-- `CommodityToProto`; a commodity that was never given a full name has none. -/
def commodityToProto (commodity : Commodity) (fullname : Option String) : Shim.Commodity where
  id := commodityIdToProto commodity.name
  fullname := fullname.getD ""
  fraction := commodity.fraction.toInt32
  isCurrency := gncCommodityIsCurrency commodity

/-- `ListCommodities`; `listed` is what the engine's table lists, namespace by namespace, each
commodity with its full name. -/
def listCommodities (listed : List (Commodity × Option String)) : Exec Shim.CommodityList := do
  let _ ← Session.book
  return { commodities := listed.map fun entry => commodityToProto entry.1 entry.2 }

/-- What `gnc_price_create` allocates, with the setters of `AddPrice` run on it. -/
def newPrice (commodity currency : Commodity) (date : GDate) (value : GncNumeric)
    (source : String) : Price :=
  { commodity := commodity.name, currency := currency.name
    time := Engine.dmy2time64Neutral date, value
    source := Engine.priceSource (if source.isEmpty then "shim:api" else cStr source)
    inDb := false }

/-- `gnc_price_commit_edit`, `gnc_pricedb_add_price` and `gnc_price_unref`. -/
def addToPriceDb (fate : Fate) (price : Guid) : Exec Unit :=
  finalStep fate
    (fun store => ((store.close (.price price)).write (gncPricedbAddPrice price)).flush)
    (fun store => (store.close (.price price)).revert)

/-- `AddPrice`. -/
def addPrice (request : Shim.AddPriceRequest) (fate : Fate)
    (recordPending : PendingRecorder Shim.Price) : Exec Shim.Price := do
  let spec := request.price
  unless spec.guid.isEmpty do
    throwShim .invalidArgument "guid must be empty on create; the engine assigns" "price.guid"
  let book ← Session.book
  let commodity ← liftValid (findCommodity book spec.commodity "price.commodity")
  let currency ← liftValid (findCommodity book spec.currency "price.currency")
  if !gncCommodityIsCurrency currency then
    throwShim .currencyMismatch "price currency is not a currency commodity" "price.currency"
  match spec.date with
  | none => throwShim .invalidArgument "date is required" "price.date"
  | some date =>
    let date ← liftValid (dateFromProto date "price.date")
    let value ← liftValid (numericFromProto spec.value "price.value")
    let price := fate.newGuid 0
    onStore (.beginEdit (.price price))
    onStore (.write (·.insert (.price price)
      (newPrice commodity currency date value spec.source)))
    let out := priceToProto price (newPrice commodity currency date value spec.source)
    recordPending out
    addToPriceDb fate price
    return out

end Daichod
