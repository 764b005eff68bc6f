import SolanaPsm.Aborts
import SolanaPsm.Accrual
import SolanaPsm.ClientTrades
import SolanaPsm.Dilution
import SolanaPsm.FeeInverse
import SolanaPsm.Grants
import SolanaPsm.Powers
import SolanaPsm.Privileges
import SolanaPsm.RateBounds
import SolanaPsm.SwapOrder
import SolanaPsm.TwoSided
import SolanaPsm.ValueLaws
