import Daichod.Reference.Days
import Daichod.Server

/-!
# Daichod.Reference.Traffic

The small daemon with clients in front of it.
-/

universe u

namespace Daichod.Reference

section Traffic

attribute [local instance] engine wire dayTimes balances

/-- Surroundings of a request in which nothing fails; new GUIDs count up from `firstGuid`. -/
def calmRpc (firstGuid : Guid) : RpcFate where
  mutation := calm firstGuid
  «open» := opens
  close := ⟨none⟩
  info := ⟨"5.10", "0.1", false⟩
  listFault := none
  descendants := [2, 3]
  commodities := [(usd, some "US Dollar")]
  listing := []
  qofQueryRun _ := []
  gncPricedbGetPrices _ _ := []

variable {ι : Type u} [DecidableEq ι] (traffic : Traffic ι)

/-- The daemon is started on the small book, with room for 256 tasks. -/
def startedServer : Server ι :=
  (Server.fresh 256 config book).run traffic 256 [.start (starts [])]

theorem startedServer_resting : (startedServer traffic).Resting := by
  have hdown : (Server.fresh (ι := ι) 256 config book).daemon.serving = false := rfl
  exact Server.resting_start traffic hdown started_serving (by decide)

end Traffic

end Daichod.Reference
