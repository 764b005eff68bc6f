import SolanaPsm.Movement
import SolanaPsm.Tokens

/-!
# What the checks of a trade establish

A trading instruction reads and checks its accounts, then makes the calls of its script. This
module says once what holds between the two: `CheckedTrade` relates the prepared trade to the
pool that is stored, and `MayCall` lists the calls a script can make. `trade_checked` gives
both for every trading instruction; later proofs open neither the processors nor the scripts.
-/

namespace SolanaPsm

namespace SwapV1

/-- The reserve of a token. The source names the two sides; trades are about a side. -/
def reserve (state : SwapV1) : PoolToken → Pubkey
  | .a => state.tokenA
  | .b => state.tokenB

/-- The mint of a token, on its side. -/
def mint (state : SwapV1) : PoolToken → Pubkey
  | .a => state.tokenAMint
  | .b => state.tokenBMint

/-- The two reserves of a swap, in its direction: the source side of the trade is the reserve that
was listed first. -/
theorem reserve_of_direction {state : SwapV1} {source destination : Pubkey}
    (hsource : source = state.tokenA ∨ source = state.tokenB)
    (hdestination : destination = state.tokenA ∨ destination = state.tokenB)
    (hne : source ≠ destination) {dir : TradeDirection}
    (hdir : dir = if source = state.tokenA then .aToB else .bToA) :
    source = state.reserve dir.source ∧ destination = state.reserve dir.destination := by
  split at hdir
  · rename_i hsourceA
    subst hdir
    exact ⟨hsourceA, hdestination.resolve_left fun h => hne (hsourceA.trans h.symm)⟩
  · rename_i hsourceA
    subst hdir
    have hsourceB := hsource.resolve_left hsourceA
    exact ⟨hsourceB, hdestination.resolve_right fun h => hne (hsourceB.trans h.symm)⟩

end SwapV1

/-- Where a trading instruction lists the accounts it may change. -/
def SwapInstruction.writablePositions : SwapInstruction → List ℕ
  | swap _ => [3, 4, 5, 6, 7, 8, 14]
  | depositAllTokenTypes _ => [3, 4, 5, 6, 7, 8]
  | withdrawAllTokenTypes _ => [3, 4, 5, 6, 7, 8, 9]
  | depositSingleTokenTypeExactAmountIn _ => [3, 4, 5, 6, 7, 11, 12]
  | withdrawSingleTokenTypeExactAmountOut _ => [3, 4, 5, 6, 7, 8, 12]
  | initializeSwap _ | setRates _ | initializePermission _ | updatePermission _ => []

/-- Deposits ask for a curve that takes them. Withdrawals do not, so nobody is locked in. -/
def SwapInstruction.Deposits : SwapInstruction → Prop
  | depositAllTokenTypes _ | depositSingleTokenTypeExactAmountIn _ => True
  | _ => False

/-- Where a trading instruction lists the pool fee account. A two-sided deposit has none, and a
one-sided one may leave it out. -/
def SwapInstruction.feePosition : SwapInstruction → Option ℕ
  | swap _ | withdrawSingleTokenTypeExactAmountOut _ => some 8
  | withdrawAllTokenTypes _ => some 9
  | depositSingleTokenTypeExactAmountIn _ => some 11
  | depositAllTokenTypes _ | initializeSwap _ | setRates _ | initializePermission _
  | updatePermission _ => none

/-- Where it may list an account of the host. It comes last, so that it can be left out. -/
def SwapInstruction.hostPosition : SwapInstruction → Option ℕ
  | swap _ => some 14
  | depositSingleTokenTypeExactAmountIn _ | withdrawSingleTokenTypeExactAmountOut _ => some 12
  | depositAllTokenTypes _ | withdrawAllTokenTypes _ | initializeSwap _ | setRates _
  | initializePermission _ | updatePermission _ => none

/-- The account listed at a position, if the list is that long. -/
def listedAt (accounts : List AccountInfo) (position : Option ℕ) : Option Pubkey :=
  position.bind fun position => (accounts[position]?).map (·.key)

/-- The accounts that may receive pool tokens for the fees of a trade: that of the pool, when it
is listed and can receive them, and that of a host, when one is listed. -/
def SwapV1.feeAccounts [Solana] (state : SwapV1) (l : Ledger) (instruction : SwapInstruction)
    (accounts : List AccountInfo) : FeeAccounts where
  poolFee := state.poolFeeAccount
  poolFeeOk := (listedAt accounts instruction.feePosition).isSome &&
    (state.checkPoolFeeInfo state.poolFeeAccount l).isOk
  host := listedAt accounts instruction.hostPosition

/-- The accounts are these when the fee account that is listed was checked. -/
theorem SwapV1.feeAccounts_eq [Solana] {state : SwapV1} {l : Ledger} {instruction : SwapInstruction}
    {accounts : List AccountInfo} {key : Pubkey} {host : Option Pubkey}
    (hkey : key = state.poolFeeAccount)
    (hlisted : listedAt accounts instruction.feePosition = some key)
    (hhost : host = listedAt accounts instruction.hostPosition) :
    ⟨key, (state.checkPoolFeeInfo key l).isOk, host⟩ =
      state.feeAccounts l instruction accounts := by
  subst hkey hhost
  rw [SwapV1.feeAccounts, hlisted]
  rfl

namespace TradeInstruction

/-- The instruction of the program that asks for the trade. -/
def request : TradeInstruction → SwapInstruction
  | swap _ instruction => .swap instruction
  | depositAllTokenTypes _ instruction => .depositAllTokenTypes instruction
  | withdrawAllTokenTypes _ instruction => .withdrawAllTokenTypes instruction
  | depositSingleTokenTypeExactAmountIn _ _ instruction =>
    .depositSingleTokenTypeExactAmountIn instruction
  | withdrawSingleTokenTypeExactAmountOut _ _ instruction =>
    .withdrawSingleTokenTypeExactAmountOut instruction

/-- Whether the trade moves a token: a single-sided one leaves the other side alone. -/
def Moves : TradeInstruction → PoolToken → Prop
  | swap _ _, _ | depositAllTokenTypes _ _, _ | withdrawAllTokenTypes _ _, _ => True
  | depositSingleTokenTypeExactAmountIn dir _ _, token
  | withdrawSingleTokenTypeExactAmountOut dir _ _, token => token = dir.source

/-- Pool tokens for an owner fee, or a look at an account. They go to nobody but the two fee
accounts. -/
def MintsFee (accounts : FeeAccounts) : PoolEffect → Prop
  | .mintTo account _ =>
    (accounts.poolFeeOk = true ∧ account = accounts.poolFee) ∨ accounts.host = some account
  | .unpackHostFeeAccount _ => True
  | _ => False

/-- The withdraw fee and the pool tokens that are withdrawn leave an account. -/
def TakesShares (accounts : FeeAccounts) (source : Pubkey) : PoolEffect → Prop
  | .burn account _ => account = source
  | .transferPool account destination _ => account = source ∧ destination = accounts.poolFee
  | _ => False

/-- The calls a trade can make, whatever its amounts are. Which accounts these reach is read off
here. -/
def MayCall (accounts : FeeAccounts) : TradeInstruction → PoolEffect → Prop
  | swap dir _, e => (∃ token, e = .unpackMint token) ∨ (∃ x, e = .payIn dir.source x) ∨
      (∃ x, e = .payOut dir.destination x) ∨ MintsFee accounts e
  | depositAllTokenTypes destination _, e =>
    (∃ token x, e = .payIn token x) ∨ ∃ x, e = .mintTo destination x
  | withdrawAllTokenTypes source _, e =>
    (∃ token x, e = .payOut token x) ∨ TakesShares accounts source e
  | depositSingleTokenTypeExactAmountIn dir destination _, e =>
    (∃ x, e = .payIn dir.source x) ∨ (∃ x, e = .mintTo destination x) ∨ MintsFee accounts e
  | withdrawSingleTokenTypeExactAmountOut dir source _, e =>
    (∃ x, e = .payOut dir.source x) ∨ TakesShares accounts source e ∨ MintsFee accounts e

/-- An instruction lists an account at a position. Positions are those of the source. -/
def Lists (accounts : List AccountInfo) (position : ℕ) (key : Pubkey) : Prop :=
  (accounts[position]?).map (·.key) = some key

/-- Where a trading instruction lists the accounts of the user. -/
def ListsUser (calls : TradeCalls) (accounts : List AccountInfo) : TradeInstruction → Prop
  | swap dir _ => Lists accounts 3 (calls.side dir.source).user ∧
      Lists accounts 6 (calls.side dir.destination).user
  | depositAllTokenTypes destination _ => Lists accounts 3 (calls.side .a).user ∧
      Lists accounts 4 (calls.side .b).user ∧ Lists accounts 8 destination
  | withdrawAllTokenTypes source _ => Lists accounts 4 source ∧
      Lists accounts 7 (calls.side .a).user ∧ Lists accounts 8 (calls.side .b).user
  | depositSingleTokenTypeExactAmountIn dir destination _ =>
    Lists accounts 3 (calls.side dir.source).user ∧ Lists accounts 7 destination
  | withdrawSingleTokenTypeExactAmountOut dir source _ => Lists accounts 4 source ∧
      Lists accounts 7 (calls.side dir.source).user

/-- The accounts a call can change, at the token programs. -/
def Changes (calls : TradeCalls) : PoolEffect → Pubkey → Prop
  | .unpackMint _, _ | .unpackHostFeeAccount _, _ => False
  | .payIn token _, key | .payOut token _, key =>
    key = (calls.side token).user ∨ key = (calls.side token).reserve
  | .mintTo account _, key | .burn account _, key => key = account ∨ key = calls.poolMint
  | .transferPool source destination _, key => key = source ∨ key = destination

/-- Every account that a call of the trade can change is listed where it may be changed. -/
def ListsWritable (calls : TradeCalls) (fees : FeeAccounts) (accounts : List AccountInfo)
    (trade : TradeInstruction) : Prop :=
  ∀ e, trade.MayCall fees e → ∀ key, Changes calls e key →
    ∃ position ∈ trade.request.writablePositions, Lists accounts position key

/-- A minted fee changes a fee account and the pool mint. -/
theorem MintsFee.changes {calls : TradeCalls} {fees : FeeAccounts} {e : PoolEffect} {key : Pubkey}
    (h : MintsFee fees e) (hkey : Changes calls e key) :
    (fees.poolFeeOk = true ∧ key = fees.poolFee) ∨ fees.host = some key ∨ key = calls.poolMint := by
  cases e with
  | mintTo account x =>
    rcases hkey with rfl | rfl
    · rcases h with ⟨hok, rfl⟩ | hhost
      · exact .inl ⟨hok, rfl⟩
      · exact .inr (.inl hhost)
    · exact .inr (.inr rfl)
  | unpackHostFeeAccount account => exact hkey.elim
  | unpackMint | payIn | payOut | burn | transferPool => exact h.elim

/-- What is taken changes the account of the withdrawer, and the pool mint or the fee account. -/
theorem TakesShares.changes {calls : TradeCalls} {fees : FeeAccounts} {source : Pubkey}
    {e : PoolEffect} {key : Pubkey} (h : TakesShares fees source e) (hkey : Changes calls e key) :
    key = source ∨ key = calls.poolMint ∨ key = fees.poolFee := by
  cases e with
  | burn account x =>
    obtain rfl : account = source := h
    exact hkey.imp_right .inl
  | transferPool account destination x =>
    obtain ⟨rfl, rfl⟩ : account = source ∧ destination = fees.poolFee := h
    exact hkey.imp_right .inr
  | unpackMint | unpackHostFeeAccount | payIn | payOut | mintTo => exact h.elim

/-- A trade moves the tokens it may move, and no others. -/
theorem MayCall.moves {fees : FeeAccounts} {instruction : TradeInstruction}
    {token : PoolToken} {x : U64} {e : PoolEffect} (h : instruction.MayCall fees e)
    (he : e = .payIn token x ∨ e = .payOut token x) : instruction.Moves token := by
  cases instruction with
  | swap | depositAllTokenTypes | withdrawAllTokenTypes => exact trivial
  | depositSingleTokenTypeExactAmountIn dir destination instruction =>
    rcases he with rfl | rfl
    · rcases h with ⟨_, h⟩ | ⟨_, h⟩ | h
      · exact (PoolEffect.payIn.inj h).1
      · cases h
      · exact h.elim
    · rcases h with ⟨_, h⟩ | ⟨_, h⟩ | h
      · cases h
      · cases h
      · exact h.elim
  | withdrawSingleTokenTypeExactAmountOut dir source instruction =>
    rcases he with rfl | rfl
    · rcases h with ⟨_, h⟩ | h | h
      · cases h
      · exact h.elim
      · exact h.elim
    · rcases h with ⟨_, h⟩ | h | h
      · exact (PoolEffect.payOut.inj h).1
      · exact h.elim
      · exact h.elim

end TradeInstruction

/-! ## The calls of the scripts -/

namespace Amounts

open Script TradeInstruction

variable {P : PoolEffect → Prop} {fees : Fees} {accounts : FeeAccounts}

/-- Checks and computations make no calls. -/
@[simp] theorem emits_reject {c : Prop} [Decidable c] {e : SwapError} :
    (reject c e).Emits P := emits_lift _

@[simp] theorem emits_require {α : Type} {x : Option α} {e : SwapError} :
    (require x e).Emits P := emits_lift _

@[simp] theorem emits_compute {α : Type} {x : Calc α} {e : SwapError} :
    (compute x e).Emits P := emits_lift _

/-- The script mints for a host only when one is listed. -/
theorem emits_mintHostFee (host : Option Pubkey) (amount : U128) (hhost : accounts.host = host) :
    (mintHostFee fees host amount).Emits (MintsFee accounts) := by
  cases host with
  | none => exact emits_pure _
  | some host =>
    refine (emits_emit.mpr trivial).bind fun _ => emits_require.bind fun _ => ?_
    split
    · exact emits_require.bind fun _ => (emits_lift _).bind fun _ =>
        (emits_emit.mpr (.inr hhost)).bind fun _ => emits_pure _
    · exact emits_pure _

/-- It mints for the pool fee account only when that can receive. -/
theorem emits_mintPoolFee (amount : U128) :
    (mintPoolFee accounts amount).Emits (MintsFee accounts) := by
  rw [mintPoolFee]
  split
  · rename_i hok
    exact (emits_lift _).bind fun _ => emits_emit.mpr (.inl ⟨hok, rfl⟩)
  · exact emits_pure _

/-- The withdraw fee is computed without calls. -/
theorem emits_withdrawFee (source : Pubkey) (x : U128) :
    (withdrawFee fees accounts source x).Emits P := by
  rw [withdrawFee]
  split
  · split
    · exact emits_pure _
    · exact emits_require
  · exact emits_pure _

/-- It is paid by the withdrawer. -/
theorem emits_payWithdrawFee (source : Pubkey) (fee : U128) :
    (payWithdrawFee accounts source fee).Emits (TakesShares accounts source) := by
  rw [payWithdrawFee]
  split
  · exact (emits_lift _).bind fun _ => emits_emit.mpr ⟨rfl, rfl⟩
  · exact emits_pure _

/-- A payment is one call, or none. -/
theorem emits_payOutPositive {token : PoolToken} {amount : U64} (h : P (.payOut token amount)) :
    (payOutPositive token amount).Emits P := by
  rw [payOutPositive]
  split
  · exact emits_emit.mpr h
  · exact emits_pure _

/-- The adjusted reserves are computed without calls. -/
theorem emits_adjustReserves (balances : Balances) (dir : TradeDirection)
    (change : U128 → Option U128) (fee : U128) :
    (adjustReserves balances dir change fee).Emits P := by
  cases dir with
  | aToB | bToA =>
    exact emits_require.bind fun _ => emits_require.bind fun _ => emits_pure _

/-- Pool tokens are minted for a fee when there is some left. -/
theorem emits_mintFees {amount : U128} {next : U128 → TradeScript Unit}
    (hnext : ∀ x, (next x).Emits (MintsFee accounts)) :
    (if 0#128 < amount then mintHostFee fees accounts.host amount >>= next
      else return ()).Emits (MintsFee accounts) := by
  split
  · exact (emits_mintHostFee accounts.host amount rfl).bind hnext
  · exact emits_pure _

/-- The rest of a fee goes to the pool fee account, if there is any. -/
theorem emits_mintPoolFee_positive (amount : U128) :
    (if 0#128 < amount then mintPoolFee accounts amount else return ()).Emits
      (MintsFee accounts) := by
  split
  · exact emits_mintPoolFee amount
  · exact emits_pure _

section Trades

variable [SplMath] {curve : SwapCurve} {ts : Option U128} {balances : Balances}

/-- The owner fee of a swap is minted as a fee, and nothing else is. -/
theorem emits_mintSwapOwnerFee (dir : TradeDirection) (result : SwapResult) :
    (mintSwapOwnerFee curve fees ts balances accounts dir result).Emits (MintsFee accounts) := by
  cases dir with
  | aToB | bToA =>
    simp only [mintSwapOwnerFee]
    split
    · refine (emits_require.bind fun _ => emits_pure _).bind fun _ => ?_
      exact emits_compute.bind fun _ => emits_mintFees emits_mintPoolFee_positive
    · exact emits_pure _

/-- So is that of a one-sided deposit. -/
theorem emits_mintDepositOwnerFee (dir : TradeDirection) (x m : U64) (fee : U128) :
    (mintDepositOwnerFee curve fees ts balances accounts dir x m fee).Emits
      (MintsFee accounts) := by
  rw [mintDepositOwnerFee]
  split
  · refine (emits_adjustReserves _ _ _ _).bind fun _ => emits_require.bind fun _ => ?_
    exact emits_compute.bind fun _ => emits_mintFees emits_mintPoolFee_positive
  · exact emits_pure _

/-- So is that of a one-sided withdrawal. -/
theorem emits_mintWithdrawOwnerFee (dir : TradeDirection) (x : U64) (burn fee : U128) :
    (mintWithdrawOwnerFee curve fees ts balances accounts dir x burn fee).Emits
      (MintsFee accounts) := by
  rw [mintWithdrawOwnerFee]
  split
  · refine (emits_adjustReserves _ _ _ _).bind fun _ => emits_require.bind fun _ => ?_
    exact emits_compute.bind fun _ => emits_mintFees emits_mintPoolFee
  · exact emits_pure _

/-- A trade makes the calls it may, one case for each script. -/
theorem emits_mayCall (instruction : TradeInstruction) :
    (instruction.amounts curve fees ts balances accounts).Emits (instruction.MayCall accounts) := by
  cases instruction with
  | swap dir instruction =>
    refine emits_compute.bind fun r => (emits_lift _).bind fun x => ?_
    refine (emits_emit.mpr (.inl ⟨_, rfl⟩)).bind fun _ => ?_
    refine (emits_emit.mpr (.inl ⟨_, rfl⟩)).bind fun _ => (emits_lift _).bind fun y => ?_
    refine emits_reject.bind fun _ => (emits_emit.mpr (.inr (.inl ⟨_, rfl⟩))).bind fun _ => ?_
    refine ((emits_mintSwapOwnerFee dir r).imp fun h => .inr (.inr (.inr h))).bind fun _ => ?_
    exact emits_emit.mpr (.inr (.inr (.inl ⟨_, rfl⟩)))
  | depositAllTokenTypes destination instruction =>
    refine emits_compute.bind fun r => (emits_lift _).bind fun a => emits_reject.bind fun _ => ?_
    refine (emits_lift _).bind fun b => emits_reject.bind fun _ => emits_reject.bind fun _ => ?_
    refine (emits_emit.mpr (.inl ⟨_, _, rfl⟩)).bind fun _ => ?_
    exact (emits_emit.mpr (.inl ⟨_, _, rfl⟩)).bind fun _ => emits_emit.mpr (.inr ⟨_, rfl⟩)
  | withdrawAllTokenTypes source instruction =>
    refine (emits_withdrawFee source _).bind fun fee => emits_require.bind fun t => ?_
    refine emits_compute.bind fun r => (emits_lift _).bind fun a => emits_reject.bind fun _ => ?_
    refine (emits_lift _).bind fun b => emits_reject.bind fun _ => emits_reject.bind fun _ => ?_
    refine emits_reject.bind fun _ => ((emits_payWithdrawFee source fee).imp .inr).bind ?_
    refine fun _ => (emits_lift _).bind fun _ => (emits_emit.mpr (.inr rfl)).bind fun _ => ?_
    exact (emits_payOutPositive (.inl ⟨_, _, rfl⟩)).bind fun _ =>
      emits_payOutPositive (.inl ⟨_, _, rfl⟩)
  | depositSingleTokenTypeExactAmountIn dir destination instruction =>
    refine emits_compute.bind fun r => (emits_lift _).bind fun m => emits_reject.bind fun _ => ?_
    refine emits_reject.bind fun _ => ?_
    refine ((emits_mintDepositOwnerFee dir _ _ _).imp fun h => .inr (.inr h)).bind fun _ => ?_
    exact (emits_emit.mpr (.inl ⟨_, rfl⟩)).bind fun _ => emits_emit.mpr (.inr (.inl ⟨_, rfl⟩))
  | withdrawSingleTokenTypeExactAmountOut dir source instruction =>
    refine emits_compute.bind fun r => (emits_withdrawFee source _).bind fun fee => ?_
    refine ((emits_mintWithdrawOwnerFee dir _ _ _).imp fun h => .inr (.inr h)).bind fun _ => ?_
    refine emits_require.bind fun _ => (emits_lift _).bind fun _ => emits_reject.bind fun _ => ?_
    refine emits_reject.bind fun _ => ?_
    refine ((emits_payWithdrawFee source fee).imp fun h => .inr (.inl h)).bind fun _ => ?_
    refine (emits_lift _).bind fun _ => (emits_emit.mpr (.inr (.inl rfl))).bind fun _ => ?_
    exact emits_emit.mpr (.inl ⟨_, rfl⟩)

end Trades

end Amounts

/-! ## What is checked -/

section Checks

variable [Solana]

/-- The shared checks: the accounts are those of the pool. -/
theorem checkAccounts_eq_ok {state : SwapV1} {swap authority tokenA tokenB poolMint
    poolTokenProgram : Pubkey} {userTokenA userTokenB poolFeeAccount : Option Pubkey}
    {l : Ledger} {u : Unit}
    (h : checkAccounts state swap authority tokenA tokenB poolMint poolTokenProgram userTokenA
      userTokenB poolFeeAccount l = .ok u) :
    (l swap).owner = ID ∧ authorityId swap state.bumpSeed = .ok authority ∧
    tokenA = state.tokenA ∧ tokenB = state.tokenB ∧ poolMint = state.poolMint ∧
    poolTokenProgram = state.tokenProgramId ∧ userTokenA ≠ some tokenA ∧
    userTokenB ≠ some tokenB ∧ ∀ account ∈ poolFeeAccount, account = state.poolFeeAccount := by
  simp only [checkAccounts, Outcome.bind_eq_ok, Outcome.rejectIf_eq_ok, exists_const, not_not] at h
  obtain ⟨howner, derived, hderived, rfl, rfl, rfl, rfl, rfl, ha, hb, hfee⟩ := h
  refine ⟨howner, hderived, rfl, rfl, rfl, rfl, ha, hb, ?_⟩
  intro account haccount
  cases poolFeeAccount with
  | none => cases haccount
  | some poolFeeAccount =>
    obtain rfl := Option.some.inj haccount
    exact not_not.mp (Outcome.rejectIf_eq_ok.mp hfee)

/-- A trading instruction of a pool whose accounts were accepted. -/
structure CheckedTrade (accounts : List AccountInfo) (instruction : SwapInstruction)
    (clock : Clock) (l : Ledger) (state : SwapV1) (prepared : PreparedTrade) : Prop where
  /-- the pool comes first -/
  named : ∃ info rest, accounts = info :: rest ∧ info.key = prepared.calls.swap
  /-- it is stored -/
  stored : l.StoresPool prepared.calls.swap state
  /-- its authority signs -/
  bumpSeed : prepared.calls.bumpSeed = state.bumpSeed
  /-- the authority is derived from it -/
  authority : authorityId prepared.calls.swap state.bumpSeed = .ok prepared.calls.authority
  /-- others sign for themselves -/
  signers : prepared.calls.signers = signersOf accounts
  /-- pool tokens are those of the pool -/
  poolMint : prepared.calls.poolMint = state.poolMint
  /-- in its token program -/
  poolTokenProgram : prepared.calls.poolTokenProgram = state.tokenProgramId
  /-- the reserves are those of the pool -/
  reserve : ∀ token, (prepared.calls.side token).reserve = state.reserve token
  /-- the user trades with the reserve, not the reserve with itself -/
  user : ∀ token, prepared.trade.instruction.Moves token →
    (prepared.calls.side token).user ≠ state.reserve token
  /-- the accounts of the user are where they should be -/
  listed : prepared.trade.instruction.ListsUser prepared.calls accounts
  /-- and so is whatever may change -/
  writable : prepared.trade.instruction.ListsWritable prepared.calls prepared.trade.accounts
    accounts
  /-- fees go to the accounts that are listed for them -/
  feeAccounts : prepared.trade.accounts = state.feeAccounts l instruction accounts
  /-- the trade is what was asked for -/
  request : prepared.trade.instruction.request = instruction
  /-- on the curve of the pool -/
  curve : prepared.trade.curve = state.swapCurve
  /-- which takes deposits, if it is one -/
  deposits : instruction.Deposits → state.swapCurve.calculator.allowsDeposits = true
  /-- at the time of the clock -/
  timestamp : prepared.trade.timestamp = state.swapCurve.currentTimestampOpt clock
  /-- at the fees of the pool -/
  fees : prepared.fees = state.fees
  /-- the reserves were read -/
  balances : ∀ token, ∃ a, l.TokenAt (state.reserve token) a ∧
    a.amount = prepared.balances.reserve token
  /-- and so was the supply -/
  supply : ∃ m, l.MintAt state.poolMint m ∧ m.supply = prepared.balances.supply

variable {accounts : List AccountInfo} {clock : Clock} {l : Ledger} {prepared : PreparedTrade}

/-- The shared checks make a trade a checked one. The user's account of a token that moves
is among the accounts that were checked. -/
theorem CheckedTrade.of_checkAccounts {instruction : SwapInstruction} {state : SwapV1}
    {info : AccountInfo} {rest : List AccountInfo} {userTokenA userTokenB fee : Option Pubkey}
    {a b : TokenAccount} {m : Mint} {u : Unit} (haccounts : accounts = info :: rest)
    (hinfo : info.key = prepared.calls.swap)
    (hunpack : SwapVersion.unpack (l prepared.calls.swap).data = .ok state)
    (hcheck : checkAccounts state prepared.calls.swap prepared.calls.authority
      (prepared.calls.side .a).reserve (prepared.calls.side .b).reserve prepared.calls.poolMint
      prepared.calls.poolTokenProgram userTokenA userTokenB fee l = .ok u)
    (ha : l.TokenAt (prepared.calls.side .a).reserve a)
    (hb : l.TokenAt (prepared.calls.side .b).reserve b)
    (hm : l.MintAt prepared.calls.poolMint m)
    (hbalances : prepared.balances = ⟨a.amount, b.amount, m.supply⟩)
    (huserA : prepared.trade.instruction.Moves .a → userTokenA = some (prepared.calls.side .a).user)
    (huserB : prepared.trade.instruction.Moves .b → userTokenB = some (prepared.calls.side .b).user)
    (hlisted : prepared.trade.instruction.ListsUser prepared.calls accounts)
    (hwritable : prepared.trade.instruction.ListsWritable prepared.calls prepared.trade.accounts
      accounts)
    (hfee : (∀ account ∈ fee, account = state.poolFeeAccount) →
      prepared.trade.accounts = state.feeAccounts l instruction accounts)
    (hbumpSeed : prepared.calls.bumpSeed = state.bumpSeed)
    (hsigners : prepared.calls.signers = signersOf accounts)
    (hrequest : prepared.trade.instruction.request = instruction)
    (hdeposits : instruction.Deposits → state.swapCurve.calculator.allowsDeposits = true)
    (htrade : prepared.trade.curve = state.swapCurve ∧
      prepared.trade.timestamp = state.swapCurve.currentTimestampOpt clock ∧
      prepared.fees = state.fees) :
    CheckedTrade accounts instruction clock l state prepared := by
  obtain ⟨howner, hauthority, htokenA, htokenB, hmint, hprogram, hneA, hneB, hfeeAccount⟩ :=
    checkAccounts_eq_ok hcheck
  rw [htokenA] at ha hneA
  rw [htokenB] at hb hneB
  rw [hmint] at hm
  exact {
    named := ⟨info, rest, haccounts, hinfo⟩
    stored := ⟨howner, hunpack⟩
    bumpSeed := hbumpSeed
    authority := hauthority
    signers := hsigners
    poolMint := hmint
    poolTokenProgram := hprogram
    reserve := fun token => by cases token <;> assumption
    user := fun token hmoves huser => by
      cases token with
      | a => exact hneA ((huserA hmoves).trans (congrArg some huser))
      | b => exact hneB ((huserB hmoves).trans (congrArg some huser))
    listed := hlisted
    writable := hwritable
    feeAccounts := hfee hfeeAccount
    request := hrequest
    curve := htrade.1
    deposits := hdeposits
    timestamp := htrade.2.1
    fees := htrade.2.2
    balances := fun token => by
      rw [hbalances]
      cases token with
      | a => exact ⟨a, ha, rfl⟩
      | b => exact ⟨b, hb, rfl⟩
    supply := ⟨m, hm, by rw [hbalances]⟩ }

/-- What is checked of a two-sided deposit: the list is taken apart account by account, then the
shared checks apply. -/
theorem prepareDepositAllTokenTypes_checked {instruction : DepositAllTokenTypes}
    (h : prepareDepositAllTokenTypes accounts clock l instruction = .ok prepared) :
    ∃ state, CheckedTrade accounts (.depositAllTokenTypes instruction) clock l state prepared := by
  obtain ⟨swap, _, rfl, h⟩ := nextAccountInfo_bind_eq_ok.mp h
  obtain ⟨authority, _, rfl, h⟩ := nextAccountInfo_bind_eq_ok.mp h
  obtain ⟨userAuthority, _, rfl, h⟩ := nextAccountInfo_bind_eq_ok.mp h
  obtain ⟨sourceA, _, rfl, h⟩ := nextAccountInfo_bind_eq_ok.mp h
  obtain ⟨sourceB, _, rfl, h⟩ := nextAccountInfo_bind_eq_ok.mp h
  obtain ⟨tokenA, _, rfl, h⟩ := nextAccountInfo_bind_eq_ok.mp h
  obtain ⟨tokenB, _, rfl, h⟩ := nextAccountInfo_bind_eq_ok.mp h
  obtain ⟨poolMint, _, rfl, h⟩ := nextAccountInfo_bind_eq_ok.mp h
  obtain ⟨destination, _, rfl, h⟩ := nextAccountInfo_bind_eq_ok.mp h
  obtain ⟨tokenAMint, _, rfl, h⟩ := nextAccountInfo_bind_eq_ok.mp h
  obtain ⟨tokenBMint, _, rfl, h⟩ := nextAccountInfo_bind_eq_ok.mp h
  obtain ⟨tokenAProgram, _, rfl, h⟩ := nextAccountInfo_bind_eq_ok.mp h
  obtain ⟨tokenBProgram, _, rfl, h⟩ := nextAccountInfo_bind_eq_ok.mp h
  obtain ⟨poolProgram, _, rfl, h⟩ := nextAccountInfo_bind_eq_ok.mp h
  simp only [Outcome.bind_eq_ok, Outcome.rejectIf_eq_ok, exists_const, Outcome.pure_eq,
    Outcome.ok.injEq, Ledger.unpackTokenAccount_eq_ok] at h
  obtain ⟨state, hunpack, hdeposits, _, hcheck, a, ⟨ha, -⟩, b, ⟨hb, -⟩, m, hm, rfl⟩ := h
  refine ⟨state, .of_checkAccounts rfl rfl hunpack hcheck ha hb hm rfl (fun _ => rfl)
    (fun _ => rfl) ⟨rfl, rfl, rfl⟩ ?_ (fun _ => rfl) rfl rfl rfl
    (fun _ => Bool.eq_true_of_not_eq_false hdeposits) ⟨rfl, rfl, rfl⟩⟩
  intro e he key hkey
  change ∃ position ∈ [3, 4, 5, 6, 7, 8], _
  rcases he with ⟨token, x, rfl⟩ | ⟨x, rfl⟩
  · rcases hkey with rfl | rfl
    · cases token with
      | a => exact ⟨3, by decide, rfl⟩
      | b => exact ⟨4, by decide, rfl⟩
    · cases token with
      | a => exact ⟨5, by decide, rfl⟩
      | b => exact ⟨6, by decide, rfl⟩
  · rcases hkey with rfl | rfl
    · exact ⟨8, by decide, rfl⟩
    · exact ⟨7, by decide, rfl⟩

/-- What is checked of a two-sided withdrawal. -/
theorem prepareWithdrawAllTokenTypes_checked {instruction : WithdrawAllTokenTypes}
    (h : prepareWithdrawAllTokenTypes accounts clock l instruction = .ok prepared) :
    ∃ state,
      CheckedTrade accounts (.withdrawAllTokenTypes instruction) clock l state prepared := by
  obtain ⟨swap, _, rfl, h⟩ := nextAccountInfo_bind_eq_ok.mp h
  obtain ⟨authority, _, rfl, h⟩ := nextAccountInfo_bind_eq_ok.mp h
  obtain ⟨userAuthority, _, rfl, h⟩ := nextAccountInfo_bind_eq_ok.mp h
  obtain ⟨poolMint, _, rfl, h⟩ := nextAccountInfo_bind_eq_ok.mp h
  obtain ⟨source, _, rfl, h⟩ := nextAccountInfo_bind_eq_ok.mp h
  obtain ⟨tokenA, _, rfl, h⟩ := nextAccountInfo_bind_eq_ok.mp h
  obtain ⟨tokenB, _, rfl, h⟩ := nextAccountInfo_bind_eq_ok.mp h
  obtain ⟨destinationA, _, rfl, h⟩ := nextAccountInfo_bind_eq_ok.mp h
  obtain ⟨destinationB, _, rfl, h⟩ := nextAccountInfo_bind_eq_ok.mp h
  obtain ⟨feeAccount, _, rfl, h⟩ := nextAccountInfo_bind_eq_ok.mp h
  obtain ⟨tokenAMint, _, rfl, h⟩ := nextAccountInfo_bind_eq_ok.mp h
  obtain ⟨tokenBMint, _, rfl, h⟩ := nextAccountInfo_bind_eq_ok.mp h
  obtain ⟨poolProgram, _, rfl, h⟩ := nextAccountInfo_bind_eq_ok.mp h
  obtain ⟨tokenAProgram, _, rfl, h⟩ := nextAccountInfo_bind_eq_ok.mp h
  obtain ⟨tokenBProgram, _, rfl, h⟩ := nextAccountInfo_bind_eq_ok.mp h
  simp only [Outcome.bind_eq_ok, Outcome.pure_eq, Outcome.ok.injEq,
    Ledger.unpackTokenAccount_eq_ok] at h
  obtain ⟨state, hunpack, _, hcheck, a, ⟨ha, -⟩, b, ⟨hb, -⟩, m, hm, rfl⟩ := h
  refine ⟨state, .of_checkAccounts rfl rfl hunpack hcheck ha hb hm rfl (fun _ => rfl)
    (fun _ => rfl) ⟨rfl, rfl, rfl⟩ ?_ ?_ rfl rfl rfl False.elim ⟨rfl, rfl, rfl⟩⟩
  · intro e he key hkey
    change ∃ position ∈ [3, 4, 5, 6, 7, 8, 9], _
    rcases he with ⟨token, x, rfl⟩ | he
    · rcases hkey with rfl | rfl
      · cases token with
        | a => exact ⟨7, by decide, rfl⟩
        | b => exact ⟨8, by decide, rfl⟩
      · cases token with
        | a => exact ⟨5, by decide, rfl⟩
        | b => exact ⟨6, by decide, rfl⟩
    · rcases he.changes hkey with rfl | rfl | rfl
      · exact ⟨4, by decide, rfl⟩
      · exact ⟨3, by decide, rfl⟩
      · exact ⟨9, by decide, rfl⟩
  · exact fun hfee => SwapV1.feeAccounts_eq (hfee _ rfl) rfl rfl

/-- What is checked of a one-sided deposit. The side of the trade is that of the user's account, and
only this account is compared with its reserve. -/
theorem prepareDepositSingleTokenTypeExactAmountIn_checked
    {instruction : DepositSingleTokenTypeExactAmountIn}
    (h : prepareDepositSingleTokenTypeExactAmountIn accounts clock l instruction = .ok prepared) :
    ∃ state, CheckedTrade accounts (.depositSingleTokenTypeExactAmountIn instruction) clock l state
      prepared := by
  obtain ⟨swap, _, rfl, h⟩ := nextAccountInfo_bind_eq_ok.mp h
  obtain ⟨authority, _, rfl, h⟩ := nextAccountInfo_bind_eq_ok.mp h
  obtain ⟨userAuthority, _, rfl, h⟩ := nextAccountInfo_bind_eq_ok.mp h
  obtain ⟨source, _, rfl, h⟩ := nextAccountInfo_bind_eq_ok.mp h
  obtain ⟨tokenA, _, rfl, h⟩ := nextAccountInfo_bind_eq_ok.mp h
  obtain ⟨tokenB, _, rfl, h⟩ := nextAccountInfo_bind_eq_ok.mp h
  obtain ⟨poolMint, _, rfl, h⟩ := nextAccountInfo_bind_eq_ok.mp h
  obtain ⟨destination, _, rfl, h⟩ := nextAccountInfo_bind_eq_ok.mp h
  obtain ⟨sourceMint, _, rfl, h⟩ := nextAccountInfo_bind_eq_ok.mp h
  obtain ⟨sourceProgram, _, rfl, h⟩ := nextAccountInfo_bind_eq_ok.mp h
  obtain ⟨poolProgram, rest, rfl, h⟩ := nextAccountInfo_bind_eq_ok.mp h
  simp only [Outcome.bind_eq_ok, Outcome.rejectIf_eq_ok, exists_const, Outcome.pure_eq,
    Outcome.ok.injEq, Ledger.unpackTokenAccount_eq_ok] at h
  obtain ⟨state, hunpack, hdeposits, _, -, a, ⟨ha, -⟩, b, ⟨hb, -⟩, dir, -, _, hcheck, m, hm,
    rfl⟩ := h
  -- only the side of the trade is checked, and only that one moves
  refine ⟨state, .of_checkAccounts rfl rfl hunpack hcheck ha hb hm rfl ?_ ?_ ?_ ?_ ?_ rfl rfl rfl
    (fun _ => Bool.eq_true_of_not_eq_false hdeposits) ⟨rfl, rfl, rfl⟩⟩
  · intro hmoves
    cases dir with
    | aToB => rfl
    | bToA => cases hmoves
  · intro hmoves
    cases dir with
    | aToB => cases hmoves
    | bToA => rfl
  · cases dir <;> exact ⟨rfl, rfl⟩
  · intro e he key hkey
    change ∃ position ∈ [3, 4, 5, 6, 7, 11, 12], _
    rcases he with ⟨x, rfl⟩ | ⟨x, rfl⟩ | he
    · rcases hkey with rfl | rfl
      · cases dir <;> exact ⟨3, by decide, rfl⟩
      · cases dir with
        | aToB => exact ⟨4, by decide, rfl⟩
        | bToA => exact ⟨5, by decide, rfl⟩
    · rcases hkey with rfl | rfl
      · exact ⟨7, by decide, rfl⟩
      · exact ⟨6, by decide, rfl⟩
    · rcases he.changes hkey with ⟨hok, rfl⟩ | hhost | rfl
      · cases rest with
        | nil => cases hok
        | cons info rest => exact ⟨11, by decide, rfl⟩
      · rcases rest with _ | ⟨_, _ | ⟨info, rest⟩⟩
        · cases hhost
        · cases hhost
        · exact ⟨12, by decide, hhost⟩
      · exact ⟨6, by decide, rfl⟩
  · intro hfee
    cases rest with
    | nil => rfl
    | cons info rest => exact SwapV1.feeAccounts_eq (hfee _ rfl) rfl (by cases rest <;> rfl)

/-- What is checked of a one-sided withdrawal. -/
theorem prepareWithdrawSingleTokenTypeExactAmountOut_checked
    {instruction : WithdrawSingleTokenTypeExactAmountOut}
    (h : prepareWithdrawSingleTokenTypeExactAmountOut accounts clock l instruction =
      .ok prepared) :
    ∃ state, CheckedTrade accounts (.withdrawSingleTokenTypeExactAmountOut instruction) clock l
      state prepared := by
  obtain ⟨swap, _, rfl, h⟩ := nextAccountInfo_bind_eq_ok.mp h
  obtain ⟨authority, _, rfl, h⟩ := nextAccountInfo_bind_eq_ok.mp h
  obtain ⟨userAuthority, _, rfl, h⟩ := nextAccountInfo_bind_eq_ok.mp h
  obtain ⟨poolMint, _, rfl, h⟩ := nextAccountInfo_bind_eq_ok.mp h
  obtain ⟨source, _, rfl, h⟩ := nextAccountInfo_bind_eq_ok.mp h
  obtain ⟨tokenA, _, rfl, h⟩ := nextAccountInfo_bind_eq_ok.mp h
  obtain ⟨tokenB, _, rfl, h⟩ := nextAccountInfo_bind_eq_ok.mp h
  obtain ⟨destination, _, rfl, h⟩ := nextAccountInfo_bind_eq_ok.mp h
  obtain ⟨feeAccount, _, rfl, h⟩ := nextAccountInfo_bind_eq_ok.mp h
  obtain ⟨destinationMint, _, rfl, h⟩ := nextAccountInfo_bind_eq_ok.mp h
  obtain ⟨poolProgram, _, rfl, h⟩ := nextAccountInfo_bind_eq_ok.mp h
  obtain ⟨destinationProgram, rest, rfl, h⟩ := nextAccountInfo_bind_eq_ok.mp h
  simp only [Outcome.bind_eq_ok, Outcome.pure_eq, Outcome.ok.injEq,
    Ledger.unpackTokenAccount_eq_ok] at h
  obtain ⟨state, hunpack, _, -, a, ⟨ha, -⟩, b, ⟨hb, -⟩, dir, -, _, hcheck, m, hm, rfl⟩ := h
  -- only the side of the trade is checked, and only that one moves
  refine ⟨state, .of_checkAccounts rfl rfl hunpack hcheck ha hb hm rfl ?_ ?_ ?_ ?_ ?_ rfl rfl rfl
    False.elim ⟨rfl, rfl, rfl⟩⟩
  · intro hmoves
    cases dir with
    | aToB => rfl
    | bToA => cases hmoves
  · intro hmoves
    cases dir with
    | aToB => cases hmoves
    | bToA => rfl
  · cases dir <;> exact ⟨rfl, rfl⟩
  · intro e he key hkey
    change ∃ position ∈ [3, 4, 5, 6, 7, 8, 12], _
    rcases he with ⟨x, rfl⟩ | he | he
    · rcases hkey with rfl | rfl
      · cases dir <;> exact ⟨7, by decide, rfl⟩
      · cases dir with
        | aToB => exact ⟨5, by decide, rfl⟩
        | bToA => exact ⟨6, by decide, rfl⟩
    · rcases he.changes hkey with rfl | rfl | rfl
      · exact ⟨4, by decide, rfl⟩
      · exact ⟨3, by decide, rfl⟩
      · exact ⟨8, by decide, rfl⟩
    · rcases he.changes hkey with ⟨-, rfl⟩ | hhost | rfl
      · exact ⟨8, by decide, rfl⟩
      · cases rest with
        | nil => cases hhost
        | cons info rest => exact ⟨12, by decide, hhost⟩
      · exact ⟨3, by decide, rfl⟩
  · exact fun hfee => SwapV1.feeAccounts_eq (hfee _ rfl) rfl (by cases rest <;> rfl)

/-- What is checked of a swap. It does not use the shared checks: the source compares its accounts
one by one. -/
theorem prepareSwap_checked {instruction : Swap}
    (h : prepareSwap accounts clock l instruction = .ok prepared) :
    ∃ state, CheckedTrade accounts (.swap instruction) clock l state prepared := by
  obtain ⟨swap, _, rfl, h⟩ := nextAccountInfo_bind_eq_ok.mp h
  obtain ⟨authority, _, rfl, h⟩ := nextAccountInfo_bind_eq_ok.mp h
  obtain ⟨userAuthority, _, rfl, h⟩ := nextAccountInfo_bind_eq_ok.mp h
  obtain ⟨source, _, rfl, h⟩ := nextAccountInfo_bind_eq_ok.mp h
  obtain ⟨swapSource, _, rfl, h⟩ := nextAccountInfo_bind_eq_ok.mp h
  obtain ⟨swapDestination, _, rfl, h⟩ := nextAccountInfo_bind_eq_ok.mp h
  obtain ⟨destination, _, rfl, h⟩ := nextAccountInfo_bind_eq_ok.mp h
  obtain ⟨poolMint, _, rfl, h⟩ := nextAccountInfo_bind_eq_ok.mp h
  obtain ⟨feeAccount, _, rfl, h⟩ := nextAccountInfo_bind_eq_ok.mp h
  obtain ⟨sourceMint, _, rfl, h⟩ := nextAccountInfo_bind_eq_ok.mp h
  obtain ⟨destinationMint, _, rfl, h⟩ := nextAccountInfo_bind_eq_ok.mp h
  obtain ⟨sourceProgram, _, rfl, h⟩ := nextAccountInfo_bind_eq_ok.mp h
  obtain ⟨destinationProgram, _, rfl, h⟩ := nextAccountInfo_bind_eq_ok.mp h
  obtain ⟨poolProgram, rest, rfl, h⟩ := nextAccountInfo_bind_eq_ok.mp h
  simp -zeta only [Outcome.bind_eq_ok, Outcome.rejectIf_eq_ok, exists_const, Outcome.pure_eq,
    not_not, Ledger.unpackTokenAccount_eq_ok] at h
  obtain ⟨howner, state, hunpack, derived, hauthority, rfl, hswapSource, hswapDestination, hne,
    hsource, hdestination, hmint, hfee, hprogram, a, ⟨ha, -⟩, b, ⟨hb, -⟩, m, hm, h⟩ := h
  obtain rfl := Outcome.ok.inj h
  obtain ⟨dir, hdir⟩ : ∃ dir : TradeDirection,
      dir = if swapSource.key = state.tokenA then .aToB else .bToA := ⟨_, rfl⟩
  obtain ⟨hreserveSource, hreserveDestination⟩ :=
    SwapV1.reserve_of_direction hswapSource hswapDestination hne hdir
  rw [hreserveSource] at ha hsource
  rw [hreserveDestination] at hb hdestination
  rw [hmint] at hm
  simp only [← hdir]
  exact ⟨state, {
    named := ⟨swap, _, rfl, rfl⟩
    stored := ⟨howner, hunpack⟩
    bumpSeed := rfl
    authority := hauthority
    signers := rfl
    poolMint := hmint
    poolTokenProgram := hprogram
    reserve := fun token => by
      by_cases htoken : token = dir.source
      · simp only [htoken, if_true]
        exact hreserveSource
      · simp only [if_neg htoken]
        rw [dir.eq_destination htoken]
        exact hreserveDestination
    user := fun token _ huser => by
      by_cases htoken : token = dir.source
      · simp only [htoken, if_true] at huser
        exact hsource huser.symm
      · simp only [if_neg htoken] at huser
        rw [dir.eq_destination htoken] at huser
        exact hdestination huser.symm
    listed := by cases dir <;> exact ⟨rfl, rfl⟩
    writable := fun e he key hkey => by
      change ∃ position ∈ [3, 4, 5, 6, 7, 8, 14], _
      rcases he with ⟨token, rfl⟩ | ⟨x, rfl⟩ | ⟨x, rfl⟩ | he
      · exact hkey.elim
      · rcases hkey with rfl | rfl
        · cases dir <;> exact ⟨3, by decide, rfl⟩
        · cases dir <;> exact ⟨4, by decide, rfl⟩
      · rcases hkey with rfl | rfl
        · cases dir <;> exact ⟨6, by decide, rfl⟩
        · cases dir <;> exact ⟨5, by decide, rfl⟩
      · rcases he.changes hkey with ⟨-, rfl⟩ | hhost | rfl
        · exact ⟨8, by decide, rfl⟩
        · cases rest with
          | nil => cases hhost
          | cons info rest => exact ⟨14, by decide, hhost⟩
        · exact ⟨7, by decide, rfl⟩
    feeAccounts := SwapV1.feeAccounts_eq hfee rfl (by cases rest <;> rfl)
    request := rfl
    curve := rfl
    deposits := False.elim
    timestamp := rfl
    fees := rfl
    balances := fun token => by
      cases dir with
      | aToB =>
        cases token with
        | a => exact ⟨a, ha, rfl⟩
        | b => exact ⟨b, hb, rfl⟩
      | bToA =>
        cases token with
        | a => exact ⟨b, hb, rfl⟩
        | b => exact ⟨a, ha, rfl⟩
    supply := ⟨m, hm, by cases dir <;> rfl⟩ }⟩

/-- A trading instruction is its checks, then the calls of its script. -/
theorem trade_checked [SplMath] {swapConstraints : Option SwapConstraints}
    {instruction : SwapInstruction} {l' : Ledger} (htrade : instruction.IsTrade)
    (h : processInstruction swapConstraints accounts instruction clock l = .ok l') :
    ∃ prepared state, CheckedTrade accounts instruction clock l state prepared ∧
      prepared.perform l = .ok l' := by
  cases instruction with
  | swap data =>
    obtain ⟨prepared, hprepared, h⟩ := Outcome.bind_eq_ok.mp h
    obtain ⟨state, hchecked⟩ := prepareSwap_checked hprepared
    exact ⟨prepared, state, hchecked, h⟩
  | depositAllTokenTypes data =>
    obtain ⟨prepared, hprepared, h⟩ := Outcome.bind_eq_ok.mp h
    obtain ⟨state, hchecked⟩ := prepareDepositAllTokenTypes_checked hprepared
    exact ⟨prepared, state, hchecked, h⟩
  | withdrawAllTokenTypes data =>
    obtain ⟨prepared, hprepared, h⟩ := Outcome.bind_eq_ok.mp h
    obtain ⟨state, hchecked⟩ := prepareWithdrawAllTokenTypes_checked hprepared
    exact ⟨prepared, state, hchecked, h⟩
  | depositSingleTokenTypeExactAmountIn data =>
    obtain ⟨prepared, hprepared, h⟩ := Outcome.bind_eq_ok.mp h
    obtain ⟨state, hchecked⟩ := prepareDepositSingleTokenTypeExactAmountIn_checked hprepared
    exact ⟨prepared, state, hchecked, h⟩
  | withdrawSingleTokenTypeExactAmountOut data =>
    obtain ⟨prepared, hprepared, h⟩ := Outcome.bind_eq_ok.mp h
    obtain ⟨state, hchecked⟩ := prepareWithdrawSingleTokenTypeExactAmountOut_checked hprepared
    exact ⟨prepared, state, hchecked, h⟩
  | initializeSwap | setRates | initializePermission | updatePermission => exact htrade.elim

end Checks

end SolanaPsm
