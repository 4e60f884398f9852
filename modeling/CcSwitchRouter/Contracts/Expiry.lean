import CcSwitchRouter.Contracts.Runs

namespace CcSwitchRouter

open Store Store.Tx Ledger

variable {id cid : String} {s t : Db} {c snap : Contract} {cursor now : Instant}

variable {e : Instant}

end CcSwitchRouter
