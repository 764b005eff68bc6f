import SolanaPsm.Clients
import SolanaPsm.Limits

/-!
# Who receives the pool tokens

A `ShareBook` is the account of the pool tokens of a trade: what every account gives up and
receives, and what is minted and burned. The scripts keep books in closed form
(`TradeInstruction.Books`): the owner fee buys pool tokens as a deposit would, a host gets its
share of these and the pool fee account the rest, and what nobody is listed for is not minted.
The withdraw fee goes from the withdrawer to the pool fee account.

`pool_tokens_are_shared_out` states the books on the ledger, for every account of pool tokens.
-/

namespace SolanaPsm

open PoolEffect

/-! ## Books -/

/-- What happens to pool tokens: the entries of a trade, for every account and for the supply. Books
of single calls are added up. -/
@[ext] structure ShareBook : Type where
  /-- given up by an account -/
  taken : Pubkey → ℕ
  /-- received by an account -/
  given : Pubkey → ℕ
  /-- added to the supply -/
  minted : ℕ
  /-- removed from the supply -/
  burned : ℕ

namespace ShareBook

instance : Zero ShareBook := ⟨⟨0, 0, 0, 0⟩⟩

instance : Add ShareBook := ⟨fun x y =>
  ⟨x.taken + y.taken, x.given + y.given, x.minted + y.minted, x.burned + y.burned⟩⟩

/-- Nothing is taken where nothing happens; the other entries are as simple, and so are sums. -/
@[simp] theorem taken_zero : (0 : ShareBook).taken = 0 := rfl

@[simp] theorem given_zero : (0 : ShareBook).given = 0 := rfl

@[simp] theorem minted_zero : (0 : ShareBook).minted = 0 := rfl

@[simp] theorem burned_zero : (0 : ShareBook).burned = 0 := rfl

@[simp] theorem taken_add (x y : ShareBook) : (x + y).taken = x.taken + y.taken := rfl

@[simp] theorem given_add (x y : ShareBook) : (x + y).given = x.given + y.given := rfl

@[simp] theorem minted_add (x y : ShareBook) : (x + y).minted = x.minted + y.minted := rfl

@[simp] theorem burned_add (x y : ShareBook) : (x + y).burned = x.burned + y.burned := rfl

instance : AddCommMonoid ShareBook where
  add_assoc x y z := by ext <;> simp [add_assoc]
  zero_add x := by ext <;> simp
  add_zero x := by ext <;> simp
  add_comm x y := by ext <;> simp [add_comm]
  nsmul := nsmulRec

/-- New pool tokens for an account. They count for the supply. -/
def mint (account : Pubkey) (amount : ℕ) : ShareBook :=
  ⟨0, fun key => if account = key then amount else 0, amount, 0⟩

/-- Pool tokens of an account, destroyed. They no longer count for the supply. -/
def burn (account : Pubkey) (amount : ℕ) : ShareBook :=
  ⟨fun key => if account = key then amount else 0, 0, 0, amount⟩

/-- Pool tokens from an account to another one. The supply does not see them. -/
def move (source destination : Pubkey) (amount : ℕ) : ShareBook :=
  ⟨fun key => if source = key then amount else 0,
    fun key => if destination = key then amount else 0, 0, 0⟩

/-- Minting nothing leaves no entry. -/
@[simp] theorem mint_zero (account : Pubkey) : mint account 0 = 0 := by
  ext <;> simp [mint]

/-- Moving nothing leaves no entry. -/
@[simp] theorem move_zero (source destination : Pubkey) : move source destination 0 = 0 := by
  ext <;> simp [move]

end ShareBook

/-- The books of a log: what its calls do to every account of pool tokens, and to the supply. -/
def PoolEffect.book (log : List PoolEffect) : ShareBook where
  taken key := total (sharesTaken key) log
  given key := total (sharesGiven key) log
  minted := total minted log
  burned := total burned log

namespace PoolEffect

variable {log log' : List PoolEffect}

@[simp] theorem book_nil : book [] = 0 := rfl

/-- The books of a script are those of its parts. -/
@[simp] theorem book_append : book (log ++ log') = book log + book log' := by
  ext <;> simp [book]

/-- Payments are not made in pool tokens. -/
@[simp] theorem book_payIn {token : PoolToken} {amount : U64} :
    book (.payIn token amount :: log) = book log := by
  ext <;> simp [book, sharesTaken, sharesGiven, minted, burned]

@[simp] theorem book_payOut {token : PoolToken} {amount : U64} :
    book (.payOut token amount :: log) = book log := by
  ext <;> simp [book, sharesTaken, sharesGiven, minted, burned]

@[simp] theorem book_unpackMint {token : PoolToken} :
    book (.unpackMint token :: log) = book log := by
  ext <;> simp [book, sharesTaken, sharesGiven, minted, burned]

@[simp] theorem book_unpackHostFeeAccount {account : Pubkey} :
    book (.unpackHostFeeAccount account :: log) = book log := by
  ext <;> simp [book, sharesTaken, sharesGiven, minted, burned]

/-- Pool tokens are minted for an account. -/
@[simp] theorem book_mintTo {account : Pubkey} {amount : U64} :
    book (.mintTo account amount :: log) = .mint account amount.toNat + book log := by
  ext <;> simp [book, ShareBook.mint, sharesTaken, sharesGiven, minted, burned]

/-- Pool tokens are burned from an account. -/
@[simp] theorem book_burn {account : Pubkey} {amount : U64} :
    book (.burn account amount :: log) = .burn account amount.toNat + book log := by
  ext <;> simp [book, ShareBook.burn, sharesTaken, sharesGiven, minted, burned]

/-- Pool tokens are sent on, as the withdraw fee is. -/
@[simp] theorem book_transferPool {source destination : Pubkey} {amount : U64} :
    book (.transferPool source destination amount :: log) =
      .move source destination amount.toNat + book log := by
  ext <;> simp [book, ShareBook.move, sharesTaken, sharesGiven, minted, burned]

end PoolEffect

/-! ## The books of the fees -/

/-- The host's part of the pool tokens for an owner fee. -/
def Fees.hostShare (fees : Fees) (shares : ℕ) : ℕ :=
  feeOf fees.hostFeeNumerator.toNat fees.hostFeeDenominator.toNat shares

namespace FeeAccounts

/-- What the pool fee account receives, when it can. Otherwise nobody does: these pool tokens are
not minted. -/
def poolShare (accounts : FeeAccounts) (shares : ℕ) : ShareBook :=
  if accounts.poolFeeOk then .mint accounts.poolFee shares else 0

/-- How the pool tokens for an owner fee are shared out: a host that is listed is first, and the
pool fee account has the rest. -/
def shareOut (accounts : FeeAccounts) (fees : Fees) (shares : ℕ) : ShareBook :=
  match accounts.host with
  | none => accounts.poolShare shares
  | some host =>
    .mint host (fees.hostShare shares) + accounts.poolShare (shares - fees.hostShare shares)

/-- The withdraw fee: there is none on withdrawals of the fee account itself, nor when it cannot
receive any. -/
def withdrawShare (accounts : FeeAccounts) (fees : Fees) (source : Pubkey) (shares : ℕ) : ℕ :=
  if accounts.poolFeeOk = true ∧ accounts.poolFee ≠ source then
    feeOf fees.ownerWithdrawFeeNumerator.toNat fees.ownerWithdrawFeeDenominator.toNat shares
  else 0

/-- Of nothing the pool fee account receives nothing. -/
@[simp] theorem poolShare_zero (accounts : FeeAccounts) : accounts.poolShare 0 = 0 := by
  simp [poolShare]

/-- There is nothing to share out of nothing. -/
@[simp] theorem shareOut_zero (accounts : FeeAccounts) (fees : Fees) :
    accounts.shareOut fees 0 = 0 := by
  rw [shareOut]
  cases accounts.host <;> simp [Fees.hostShare, feeOf_zero_right]

/-- Without an account to receive it, an owner fee buys nothing. -/
theorem shareOut_unlisted {accounts : FeeAccounts} (fees : Fees) (shares : ℕ)
    (hpool : accounts.poolFeeOk = false) (hhost : accounts.host = none) :
    accounts.shareOut fees shares = 0 := by
  simp [shareOut, hhost, poolShare, hpool]

end FeeAccounts

namespace Amounts

open Script

variable {fees : Fees} {accounts : FeeAccounts} {log : List PoolEffect}

/-- The script mints for the pool fee account what is meant for it. -/
theorem book_mintPoolFee {amount : U128} (h : (mintPoolFee accounts amount).Returns log ()) :
    book log = accounts.poolShare amount.toNat := by
  rw [mintPoolFee] at h
  rw [FeeAccounts.poolShare]
  split at h
  · simp only [returns_lift_bind, returns_emit, toU64_eq_ok] at h
    obtain ⟨x, hx, rfl⟩ := h
    simp [*]
  · obtain ⟨rfl, -⟩ := returns_pure.mp h
    simp [*]

/-- And so it does where it first asks whether there is anything. -/
theorem book_mintPoolFee_positive {amount : U128}
    (h : (if 0#128 < amount then mintPoolFee accounts amount else return ()).Returns log ()) :
    book log = accounts.poolShare amount.toNat := by
  split at h
  · exact book_mintPoolFee h
  · rename_i hpos
    obtain ⟨rfl, -⟩ := returns_pure.mp h
    have hzero : amount.toNat = 0 := Nat.eq_zero_of_not_pos hpos
    simp [hzero]

/-- The host receives its share, then the pool receives the rest. -/
theorem book_mintFees {amount : U128} {next : U128 → TradeScript Unit}
    (hnext : ∀ {rest log}, (next rest).Returns log () →
      book log = accounts.poolShare rest.toNat)
    (h : (if 0#128 < amount then mintHostFee fees accounts.host amount >>= next
      else return ()).Returns log ()) : book log = accounts.shareOut fees amount.toNat := by
  split at h
  · obtain ⟨rest, log₁, log₂, hfirst, hthen, rfl⟩ := returns_bind.mp h
    rw [book_append, hnext hthen, FeeAccounts.shareOut]
    cases hhost : accounts.host with
    | none =>
      rw [hhost] at hfirst
      obtain ⟨rfl, rfl⟩ := returns_pure.mp hfirst
      rw [book_nil, zero_add]
    | some host =>
      rw [hhost] at hfirst
      simp only [mintHostFee, returns_emit_bind, returns_require_bind] at hfirst
      obtain ⟨log₃, ⟨hostFee, hfee, hmint⟩, rfl⟩ := hfirst
      have hshare : fees.hostShare amount.toNat = hostFee.toNat := (Fees.hostFee_eq_some hfee).symm
      rw [hshare]
      split at hmint
      · simp only [returns_require_bind, returns_lift_bind, returns_emit_bind, returns_pure,
          BitVec.checkedSub_eq_some, toU64_eq_ok] at hmint
        obtain ⟨rest, ⟨-, hrest⟩, x, hx, _, ⟨rfl, rfl⟩, rfl⟩ := hmint
        rw [hrest]
        simp [hx]
      · rename_i hpos
        obtain ⟨rfl, rfl⟩ := returns_pure.mp hmint
        have hzero : hostFee.toNat = 0 := Nat.eq_zero_of_not_pos hpos
        simp [hzero]
  · rename_i hpos
    obtain ⟨rfl, -⟩ := returns_pure.mp h
    have hzero : amount.toNat = 0 := Nat.eq_zero_of_not_pos hpos
    simp [hzero]

/-- The withdraw fee, when one is due. It is computed before anything is moved. -/
theorem withdrawFee_shares {source : Pubkey} {x fee : U128}
    (h : (withdrawFee fees accounts source x).Returns log fee) :
    log = [] ∧ fee.toNat = accounts.withdrawShare fees source x.toNat := by
  rw [withdrawFee] at h
  rw [FeeAccounts.withdrawShare]
  split at h
  · rename_i hok
    split at h
    · rename_i hself
      obtain ⟨rfl, rfl⟩ := returns_pure.mp h
      rw [if_neg fun hdue => hdue.2 hself]
      exact ⟨rfl, rfl⟩
    · rename_i hne
      obtain ⟨rfl, hfee⟩ := returns_lift.mp h
      rw [if_pos ⟨hok, hne⟩]
      exact ⟨rfl, Fees.ownerWithdrawFee_eq_some (Outcome.ofOption_eq_ok.mp hfee)⟩
  · rename_i hok
    obtain ⟨rfl, rfl⟩ := returns_pure.mp h
    rw [if_neg fun hdue => hok hdue.1]
    exact ⟨rfl, rfl⟩

/-- The withdraw fee is sent from the account of the withdrawer. -/
theorem book_payWithdrawFee {source : Pubkey} {fee : U128}
    (h : (payWithdrawFee accounts source fee).Returns log ()) :
    book log = .move source accounts.poolFee fee.toNat := by
  rw [payWithdrawFee] at h
  split at h
  · simp only [returns_lift_bind, returns_emit, toU64_eq_ok] at h
    obtain ⟨x, hx, rfl⟩ := h
    simp [hx]
  · rename_i hpos
    obtain ⟨rfl, -⟩ := returns_pure.mp h
    have hzero : fee.toNat = 0 := Nat.eq_zero_of_not_pos hpos
    simp [hzero]

/-- What is paid out of a reserve is no business of the pool tokens. -/
theorem book_payOutPositive {token : PoolToken} {amount : U64}
    (h : (payOutPositive token amount).Returns log ()) : book log = 0 := by
  rw [payOutPositive] at h
  split at h
  · obtain rfl := returns_emit.mp h
    simp
  · obtain ⟨rfl, -⟩ := returns_pure.mp h
    rfl

end Amounts

/-! ## The books of a trade -/

section Books

variable [SplMath]

/-- Pool tokens for an owner fee that the reserves include on the source side: what a deposit of
the fee into the reserves without it buys. -/
def SwapCurve.FeeBuys (curve : SwapCurve) (ts : Option U128) (dir : TradeDirection) (fee : U128)
    (supply : ℕ) (r : Reserves) (shares : ℕ) : Prop :=
  if 0#128 < fee then
    ∃ a b total pool : U128, a.toNat = r.without dir.source fee.toNat .a ∧
      b.toNat = r.without dir.source fee.toNat .b ∧ total.toNat = supply ∧
      curve.calculator.depositSingleTokenType fee a b total dir ts = .ok pool ∧
      pool.toNat = shares
  else shares = 0

/-- The books of a trade between two balances. The fees are named in closed form, by the amounts
that the curve computes, so that nothing of the script is left to be read. -/
def TradeInstruction.Books (curve : SwapCurve) (fees : Fees) (ts : Option U128) (s s' : Balances)
    (accounts : FeeAccounts) : TradeInstruction → ShareBook → Prop
  | swap dir data, book => ∃ r shares,
      curve.swap (data.amountIn.widen 128) ((s.reserve dir.source).widen 128)
        ((s.reserve dir.destination).widen 128) dir fees ts = .ok r ∧
      curve.FeeBuys ts dir r.ownerFee s.supply.toNat s'.reserves shares ∧
      book = accounts.shareOut fees shares
  | depositAllTokenTypes destination data, book =>
    book = .mint destination data.poolTokenAmount.toNat
  | withdrawAllTokenTypes source data, book =>
    book = .move source accounts.poolFee
        (accounts.withdrawShare fees source data.poolTokenAmount.toNat) +
      .burn source (data.poolTokenAmount.toNat -
        accounts.withdrawShare fees source data.poolTokenAmount.toNat)
  | depositSingleTokenTypeExactAmountIn dir destination data, book => ∃ r shares,
      curve.depositSingleTokenType (data.sourceTokenAmount.widen 128) (s.tokenA.widen 128)
        (s.tokenB.widen 128) (s.supply.widen 128) dir fees ts = .ok r ∧
      curve.FeeBuys ts dir r.ownerFee (s.supply.toNat + r.amount.toNat) s'.reserves shares ∧
      book = accounts.shareOut fees shares + .mint destination r.amount.toNat
  | withdrawSingleTokenTypeExactAmountOut dir source data, book => ∃ r shares,
      curve.withdrawSingleTokenTypeExactOut (data.destinationTokenAmount.widen 128)
        (s.tokenA.widen 128) (s.tokenB.widen 128) (s.supply.widen 128) dir fees ts = .ok r ∧
      curve.FeeBuys ts dir r.ownerFee (s.supply.toNat - r.amount.toNat) s'.reserves shares ∧
      book = accounts.shareOut fees shares +
        .move source accounts.poolFee (accounts.withdrawShare fees source r.amount.toNat) +
        .burn source r.amount.toNat

namespace Amounts

open Script

variable {curve : SwapCurve} {fees : Fees} {ts : Option U128} {accounts : FeeAccounts}
  {log : List PoolEffect} {s s' : Balances} {dir : TradeDirection}

/-- Pool tokens are minted for a fee and shared out, in the reserves without it. -/
theorem feeBuys_of_deposit {fee supply a b : U128} {r : Reserves} {next : U128 → TradeScript Unit}
    (hpos : 0#128 < fee) (ha : a.toNat = r.without dir.source fee.toNat .a)
    (hb : b.toNat = r.without dir.source fee.toNat .b)
    (hnext : ∀ {rest log}, (next rest).Returns log () → book log = accounts.poolShare rest.toNat)
    (h : (do
      let amount ← compute (curve.calculator.depositSingleTokenType fee a b supply dir ts)
        .feeCalculationFailure
      if 0#128 < amount then mintHostFee fees accounts.host amount >>= next
      else return () : TradeScript Unit).Returns log ()) :
    ∃ shares, curve.FeeBuys ts dir fee supply.toNat r shares ∧
      book log = accounts.shareOut fees shares := by
  rw [returns_compute_bind] at h
  obtain ⟨pool, hpool, h⟩ := h
  refine ⟨pool.toNat, ?_, book_mintFees hnext h⟩
  rw [SwapCurve.FeeBuys, if_pos hpos]
  exact ⟨a, b, supply, pool, ha, hb, rfl, hpool, rfl⟩

/-- There is nothing to share out without a fee. -/
theorem feeBuys_of_not_pos {fee : U128} {supply : ℕ} {r : Reserves} (hpos : ¬ 0#128 < fee) :
    ∃ shares, curve.FeeBuys ts dir fee supply r shares ∧
      book [] = accounts.shareOut fees shares := by
  refine ⟨0, ?_, (accounts.shareOut_zero fees).symm⟩
  rw [SwapCurve.FeeBuys, if_neg hpos]

/-- The owner fee of a swap; `r` are the reserves after it. -/
theorem book_mintSwapOwnerFee {result : SwapResult} {r : Reserves}
    (hsource : r dir.source = result.newSwapSourceAmount.toNat)
    (hdestination : r dir.destination = result.newSwapDestinationAmount.toNat)
    (h : (mintSwapOwnerFee curve fees ts s accounts dir result).Returns log ()) :
    ∃ shares, curve.FeeBuys ts dir result.ownerFee s.supply.toNat r shares ∧
      book log = accounts.shareOut fees shares := by
  simp only [mintSwapOwnerFee] at h
  by_cases hpos : 0#128 < result.ownerFee
  · rw [← U64.toNat_widen s.supply]
    cases dir with
    | aToB =>
      simp only [if_pos hpos, bind_assoc, pure_bind, returns_require_bind,
        BitVec.checkedSub_eq_some] at h
      obtain ⟨a, ⟨-, ha⟩, h⟩ := h
      rw [← hsource] at ha
      exact feeBuys_of_deposit hpos ha hdestination.symm book_mintPoolFee_positive h
    | bToA =>
      simp only [if_pos hpos, bind_assoc, pure_bind, returns_require_bind,
        BitVec.checkedSub_eq_some] at h
      obtain ⟨b, ⟨-, hb⟩, h⟩ := h
      rw [← hsource] at hb
      exact feeBuys_of_deposit hpos hdestination.symm hb book_mintPoolFee_positive h
  · obtain rfl : log = [] := by
      cases dir <;> simpa only [if_neg hpos, returns_pure, and_true] using h
    exact feeBuys_of_not_pos hpos

/-- The owner fee of a one-sided deposit; `r` are the reserves after it. -/
theorem book_mintDepositOwnerFee {x m : U64} {fee : U128} {r : Reserves}
    (hsource : r dir.source = s.reserves dir.source + x.toNat)
    (hdestination : r dir.destination = s.reserves dir.destination)
    (h : (mintDepositOwnerFee curve fees ts s accounts dir x m fee).Returns log ()) :
    ∃ shares, curve.FeeBuys ts dir fee (s.supply.toNat + m.toNat) r shares ∧
      book log = accounts.shareOut fees shares := by
  rw [mintDepositOwnerFee] at h
  split at h
  · rename_i hpos
    obtain ⟨⟨a, b⟩, log₁, log₂, hadjust, hmints, rfl⟩ := returns_bind.mp h
    obtain ⟨rfl, c, hc, -, hab⟩ := adjustReserves_returns hadjust
    rw [BitVec.checkedAdd_eq_some, U64.toNat_widen, U64.toNat_widen] at hc
    rw [returns_require_bind] at hmints
    obtain ⟨supply, hsupply, hmints⟩ := hmints
    rw [BitVec.checkedAdd_eq_some, U64.toNat_widen, U64.toNat_widen] at hsupply
    obtain ⟨ha, hb⟩ := hab r (hsource.trans hc.symm) hdestination
    rw [← hsupply]
    exact feeBuys_of_deposit hpos ha hb book_mintPoolFee_positive hmints
  · rename_i hpos
    obtain ⟨rfl, -⟩ := returns_pure.mp h
    exact feeBuys_of_not_pos hpos

/-- The owner fee of a one-sided withdrawal; `r` are the reserves after it. -/
theorem book_mintWithdrawOwnerFee {x : U64} {burn fee : U128} {r : Reserves}
    (hsource : r dir.source + x.toNat = s.reserves dir.source)
    (hdestination : r dir.destination = s.reserves dir.destination)
    (h : (mintWithdrawOwnerFee curve fees ts s accounts dir x burn fee).Returns log ()) :
    ∃ shares, curve.FeeBuys ts dir fee (s.supply.toNat - burn.toNat) r shares ∧
      book log = accounts.shareOut fees shares := by
  rw [mintWithdrawOwnerFee] at h
  split at h
  · rename_i hpos
    obtain ⟨⟨a, b⟩, log₁, log₂, hadjust, hmints, rfl⟩ := returns_bind.mp h
    obtain ⟨rfl, c, hc, -, hab⟩ := adjustReserves_returns hadjust
    rw [BitVec.checkedSub_eq_some, U64.toNat_widen, U64.toNat_widen] at hc
    rw [returns_require_bind] at hmints
    obtain ⟨supply, hsupply, hmints⟩ := hmints
    rw [BitVec.checkedSub_eq_some, U64.toNat_widen] at hsupply
    have hr : r dir.source = c.toNat := by
      have hreserve := s.toNat_reserve dir.source
      omega
    obtain ⟨ha, hb⟩ := hab r hr hdestination
    rw [← hsupply.2]
    exact feeBuys_of_deposit hpos ha hb book_mintPoolFee hmints
  · rename_i hpos
    obtain ⟨rfl, -⟩ := returns_pure.mp h
    exact feeBuys_of_not_pos hpos

/-- A swap: the owner fee is shared out, and that is all. -/
theorem swap_books {instruction : Swap}
    (h : (swap curve fees ts s accounts dir instruction).Returns log ())
    (hlog : performAll PoolEffect.apply log s = .ok s') :
    (TradeInstruction.swap dir instruction).Books curve fees ts s s' accounts (book log) := by
  simp only [swap, returns_compute_bind, returns_lift_bind, returns_emit_bind,
    returns_reject_bind, toU64_eq_ok] at h
  obtain ⟨r, hr, x, hx, log₁, ⟨log₂, ⟨y, hy, -, log₃, htail, rfl⟩, rfl⟩, rfl⟩ := h
  obtain ⟨_, log₄, log₅, hmints, hout, rfl⟩ := returns_bind.mp htail
  obtain rfl := returns_emit.mp hout
  obtain ⟨net, w, base, -, -, -, hsource, hle, hdestination⟩ := SwapCurve.swap_eq_ok hr
  rw [U64.toNat_widen, Balances.toNat_reserve] at hsource hle hdestination
  have hlog₄ := mintsOnly_of_emits (emits_mintSwapOwnerFee dir r) hmints
  -- the reserves after the log are the ones the curve announces
  obtain ⟨hreserves, -⟩ := performAll_apply hlog
  have hsrc := hreserves dir.source
  have hdest := hreserves dir.destination
  simp only [total_cons, total_append, total_nil, received, paid, hlog₄.received_eq,
    hlog₄.paid_eq, if_neg dir.destination_ne_source, if_neg dir.destination_ne_source.symm,
    if_true, Nat.zero_add, Nat.add_zero] at hsrc hdest
  obtain ⟨shares, hbuys, hbook⟩ := book_mintSwapOwnerFee (r := s'.reserves) (by omega) (by omega)
    hmints
  refine ⟨r, shares, hr, hbuys, ?_⟩
  simp [hbook]

/-- A two-sided deposit mints what it names, for the depositor. -/
theorem depositAllTokenTypes_books {destination : Pubkey} {instruction : DepositAllTokenTypes}
    (h : (depositAllTokenTypes curve s destination instruction).Returns log ()) :
    (TradeInstruction.depositAllTokenTypes destination instruction).Books curve fees ts s s'
      accounts (book log) := by
  simp only [depositAllTokenTypes, returns_compute_bind, returns_lift_bind, returns_emit_bind,
    returns_reject_bind, returns_emit] at h
  obtain ⟨r, -, a, -, -, b, -, -, -, _, ⟨_, rfl, rfl⟩, rfl⟩ := h
  simp [TradeInstruction.Books]

/-- A two-sided withdrawal sends the withdraw fee on and burns the rest. -/
theorem withdrawAllTokenTypes_books {source : Pubkey} {instruction : WithdrawAllTokenTypes}
    (h : (withdrawAllTokenTypes curve fees s accounts source instruction).Returns log ()) :
    (TradeInstruction.withdrawAllTokenTypes source instruction).Books curve fees ts s s'
      accounts (book log) := by
  rw [withdrawAllTokenTypes] at h
  obtain ⟨fee, log₀, log, hfee, hrest, rfl⟩ := returns_bind.mp h
  obtain ⟨rfl, hshare⟩ := withdrawFee_shares hfee
  simp only [returns_require_bind, returns_compute_bind, returns_lift_bind, returns_reject_bind,
    BitVec.checkedSub_eq_some] at hrest
  obtain ⟨t, ⟨-, ht⟩, r, -, a, -, -, b, -, -, -, -, htail⟩ := hrest
  obtain ⟨_, log₁, log₂, hpay, hburn, rfl⟩ := returns_bind.mp htail
  simp only [returns_lift_bind, returns_emit_bind, toU64_eq_ok] at hburn
  obtain ⟨burn, hburn, log₃, houts, rfl⟩ := hburn
  obtain ⟨_, logA, logB, houtA, houtB, rfl⟩ := returns_bind.mp houts
  rw [U64.toNat_widen] at hshare ht
  simp [TradeInstruction.Books, book_payWithdrawFee hpay, book_payOutPositive houtA,
    book_payOutPositive houtB, hburn, ht, hshare]

/-- A one-sided deposit: the owner fee is shared out, and the depositor has the pool tokens for what
is left. -/
theorem depositSingleTokenTypeExactAmountIn_books {destination : Pubkey}
    {instruction : DepositSingleTokenTypeExactAmountIn}
    (h : (depositSingleTokenTypeExactAmountIn curve fees ts s accounts dir destination
      instruction).Returns log ())
    (hlog : performAll PoolEffect.apply log s = .ok s') :
    (TradeInstruction.depositSingleTokenTypeExactAmountIn dir destination instruction).Books curve
      fees ts s s' accounts (book log) := by
  simp only [depositSingleTokenTypeExactAmountIn, returns_compute_bind, returns_lift_bind,
    returns_reject_bind, toU64_eq_ok] at h
  obtain ⟨r, hr, m, hm, -, -, htail⟩ := h
  obtain ⟨_, log₁, log₂, hmints, hrest, rfl⟩ := returns_bind.mp htail
  simp only [returns_emit_bind, returns_emit] at hrest
  obtain ⟨_, rfl, rfl⟩ := hrest
  have hlog₁ := mintsOnly_of_emits (emits_mintDepositOwnerFee dir _ _ _) hmints
  obtain ⟨hreserves, -⟩ := performAll_apply hlog
  have hsrc := hreserves dir.source
  have hdest := hreserves dir.destination
  simp only [total_cons, total_append, total_nil, received, paid, hlog₁.received_eq,
    hlog₁.paid_eq, if_neg dir.destination_ne_source.symm, if_true, Nat.zero_add,
    Nat.add_zero] at hsrc hdest
  obtain ⟨shares, hbuys, hbook⟩ := book_mintDepositOwnerFee hsrc hdest hmints
  rw [hm] at hbuys
  refine ⟨r, shares, hr, hbuys, ?_⟩
  simp [hbook, hm]

/-- A one-sided withdrawal: the owner fee is shared out, the withdraw fee is sent on, and the pool
tokens for what is withdrawn are burned. -/
theorem withdrawSingleTokenTypeExactAmountOut_books {source : Pubkey}
    {instruction : WithdrawSingleTokenTypeExactAmountOut}
    (h : (withdrawSingleTokenTypeExactAmountOut curve fees ts s accounts dir source
      instruction).Returns log ())
    (hlog : performAll PoolEffect.apply log s = .ok s') :
    (TradeInstruction.withdrawSingleTokenTypeExactAmountOut dir source instruction).Books curve
      fees ts s s' accounts (book log) := by
  simp only [withdrawSingleTokenTypeExactAmountOut, returns_compute_bind] at h
  obtain ⟨r, hr, h⟩ := h
  obtain ⟨fee, log₀, log, hfee, hrest, rfl⟩ := returns_bind.mp h
  obtain ⟨rfl, hshare⟩ := withdrawFee_shares hfee
  obtain ⟨_, log₁, log₂, hmints, htail, rfl⟩ := returns_bind.mp hrest
  simp only [returns_require_bind, returns_lift_bind, returns_reject_bind] at htail
  obtain ⟨t, -, t', -, -, -, htail⟩ := htail
  obtain ⟨_, log₃, log₄, hpay, hburn, rfl⟩ := returns_bind.mp htail
  simp only [returns_lift_bind, returns_emit_bind, returns_emit, toU64_eq_ok] at hburn
  obtain ⟨burn, hburn, _, rfl, rfl⟩ := hburn
  have hlog₁ := mintsOnly_of_emits (emits_mintWithdrawOwnerFee dir _ _ _) hmints
  obtain ⟨hreceived, hpaid, -, -⟩ := payWithdrawFee_returns hpay
  obtain ⟨hreserves, -⟩ := performAll_apply hlog
  have hsrc := hreserves dir.source
  have hdest := hreserves dir.destination
  simp only [List.nil_append, total_cons, total_append, total_nil, received, paid,
    hlog₁.received_eq, hlog₁.paid_eq, hreceived, hpaid, if_neg dir.destination_ne_source.symm,
    if_true, Nat.zero_add, Nat.add_zero] at hsrc hdest
  obtain ⟨shares, hbuys, hbook⟩ := book_mintWithdrawOwnerFee hsrc hdest hmints
  refine ⟨r, shares, hr, hbuys, ?_⟩
  simp [hbook, book_payWithdrawFee hpay, hburn, hshare, add_assoc]

/-- The log of a trade keeps its books, one case for each trade. -/
theorem books_of_returns {instruction : TradeInstruction}
    (h : (instruction.amounts curve fees ts s accounts).Returns log ())
    (hlog : performAll PoolEffect.apply log s = .ok s') :
    instruction.Books curve fees ts s s' accounts (book log) := by
  cases instruction with
  | swap => exact swap_books h hlog
  | depositAllTokenTypes => exact depositAllTokenTypes_books h
  | withdrawAllTokenTypes => exact withdrawAllTokenTypes_books h
  | depositSingleTokenTypeExactAmountIn => exact depositSingleTokenTypeExactAmountIn_books h hlog
  | withdrawSingleTokenTypeExactAmountOut =>
    exact withdrawSingleTokenTypeExactAmountOut_books h hlog

end Amounts

end Books

/-! ## The books on the ledger -/

section Ledger

variable [Solana] [SplMath] [TokenProgram] {swapConstraints : Option SwapConstraints}
  {l l' : Ledger} {state : SwapV1} {authority : Pubkey} {s : Balances} {info : AccountInfo}
  {rest : List AccountInfo} {instruction : SwapInstruction} {clock : Clock}

/-- A trade of a pool in custody keeps its books, and settles the accounts of pool tokens by
them. -/
theorem trade_books (info : AccountInfo) (hpool : l.StoresPool info.key state)
    (hcustody : l.Custody state authority s) (htrade : instruction.IsTrade)
    (h : processInstruction swapConstraints (info :: rest) instruction clock l = .ok l') :
    ∃ prepared log s', CheckedTrade (info :: rest) instruction clock l state prepared ∧
      (prepared.trade.amounts state.fees s).Returns log () ∧
      Script.performAll PoolEffect.apply log s = .ok s' ∧ l'.Custody state authority s' ∧
      prepared.trade.instruction.Books state.swapCurve state.fees
        (state.swapCurve.currentTimestampOpt clock) s s'
        (state.feeAccounts l instruction (info :: rest)) (book log) ∧
      ∀ key, l.Changes l' key state.poolMint ((book log).taken key) ((book log).given key) := by
  obtain ⟨prepared, log, hchecked, hscript, hlog⟩ := trade_performs hpool hcustody htrade h
  have huser := hchecked.user_ne hscript
  obtain ⟨s', hrun, hcustody'⟩ :=
    hcustody.performAll hchecked.poolMint hchecked.reserve huser hlog
  have hbooks := Amounts.books_of_returns hscript hrun
  rw [hchecked.curve, hchecked.timestamp, hchecked.feeAccounts] at hbooks
  refine ⟨prepared, log, s', hchecked, hscript, hrun, hcustody', hbooks, ?_⟩
  intro key a ha hmint
  exact hcustody.settlesAll (fun h => h.settles_shares) hchecked.poolMint hchecked.reserve huser
    hlog ha hmint

/-- Every pool token of a successful trade is accounted for. The supply and every account of pool
tokens change as the books of the trade say: an owner fee buys pool tokens as a deposit of it
would, of which a listed host gets its share and the pool fee account the rest, if it is listed
and can receive them; a withdraw fee leaves the withdrawer for the pool fee account. -/
theorem pool_tokens_are_shared_out (hpool : l.StoresPool info.key state)
    (hcustody : l.Custody state authority s) (htrade : instruction.IsTrade)
    (h : processInstruction swapConstraints (info :: rest) instruction clock l = .ok l') :
    ∃ (trade : TradeInstruction) (calls : TradeCalls) (books : ShareBook) (s' : Balances),
      trade.request = instruction ∧ trade.ListsUser calls (info :: rest) ∧
      trade.Books state.swapCurve state.fees (state.swapCurve.currentTimestampOpt clock) s s'
        (state.feeAccounts l instruction (info :: rest)) books ∧
      l'.Custody state authority s' ∧
      s'.supply.toNat + books.burned = s.supply.toNat + books.minted ∧
      ∀ key, l.Changes l' key state.poolMint (books.taken key) (books.given key) := by
  obtain ⟨prepared, log, s', hchecked, -, hrun, hcustody', hbooks, hchanges⟩ :=
    trade_books info hpool hcustody htrade h
  exact ⟨prepared.trade.instruction, prepared.calls, book log, s', hchecked.request,
    hchecked.listed, hbooks, hcustody', (performAll_apply hrun).2, hchanges⟩

/-! ## One-sided deposits of the clients -/

/-- The builders list no account for the owner fee of a one-sided deposit, so it stays in the pool:
the deposit raises the reserve by all that is paid in and mints pool tokens for the depositor
only. -/
theorem built_deposits_leave_the_owner_fee {keys : DepositSingleKeys}
    {data : DepositSingleTokenTypeExactAmountIn} {signers : List Pubkey}
    (hpool : l.StoresPool keys.swap state) (hcustody : l.Custody state authority s)
    (h : ((TradeOrder.depositSingleTokenTypeExactAmountIn keys data).build ID).process
      swapConstraints signers clock l = .ok l') :
    ∃ (dir : TradeDirection) (s' : Balances) (shares : ℕ),
      data.minimumPoolTokenAmount.toNat ≤ shares ∧ l'.Custody state authority s' ∧
      s'.reserves dir.source = s.reserves dir.source + data.sourceTokenAmount.toNat ∧
      s'.reserves dir.destination = s.reserves dir.destination ∧
      s'.supply.toNat = s.supply.toNat + shares ∧
      l.Changes l' keys.destination state.poolMint 0 shares ∧
      ∀ key, key ≠ keys.destination → l.Changes l' key state.poolMint 0 0 := by
  rw [Instruction.process_of_unpack
    ((TradeOrder.depositSingleTokenTypeExactAmountIn keys data).unpack_build ID)] at h
  have htrade : (SwapInstruction.depositSingleTokenTypeExactAmountIn data).IsTrade := trivial
  obtain ⟨⟨calls, ⟨curve, ts, accounts, trade⟩, fees, balances⟩, log, s', hchecked, hscript, hrun,
    hcustody', hbooks, hchanges⟩ := trade_books ⟨keys.swap, _⟩ hpool hcustody htrade h
  have hwithin := Amounts.within_of_returns hscript
  have hrequest := hchecked.request
  have hlisted := hchecked.listed
  cases trade with
  | swap | depositAllTokenTypes | withdrawAllTokenTypes
  | withdrawSingleTokenTypeExactAmountOut => cases hrequest
  | depositSingleTokenTypeExactAmountIn dir destination data' =>
    obtain rfl : data' = data := SwapInstruction.depositSingleTokenTypeExactAmountIn.inj hrequest
    obtain rfl : keys.destination = destination := Option.some.inj hlisted.2
    obtain ⟨hreceived, hpaid, -, hmin⟩ := hwithin
    obtain ⟨hreserves, hsupply⟩ := performAll_apply hrun
    obtain ⟨r, shares, -, -, hbook⟩ := hbooks
    rw [FeeAccounts.shareOut_unlisted state.fees shares rfl rfl, zero_add] at hbook
    have hminted : total minted log = r.amount.toNat := congrArg ShareBook.minted hbook
    have hburned : total burned log = 0 := congrArg ShareBook.burned hbook
    have hgiven (key : Pubkey) : total (sharesGiven key) log =
        if keys.destination = key then r.amount.toNat else 0 :=
      congrArg (fun book => book.given key) hbook
    rw [hminted, hburned, Nat.add_zero] at hsupply
    rw [hgiven, if_pos rfl] at hmin
    rw [hbook] at hchanges
    refine ⟨dir, s', r.amount.toNat, hmin, hcustody', ?_, ?_, hsupply, ?_, ?_⟩
    · have hsource := hreserves dir.source
      rwa [hpaid, hreceived, if_pos rfl, Nat.add_zero] at hsource
    · have hdestination := hreserves dir.destination
      rwa [hpaid, hreceived, if_neg dir.destination_ne_source, Nat.add_zero,
        Nat.add_zero] at hdestination
    · have hdeposited := hchanges keys.destination
      simpa [ShareBook.mint] using hdeposited
    · intro key hkey
      have hothers := hchanges key
      simpa [ShareBook.mint, hkey.symm] using hothers

end Ledger

section Market

attribute [local instance] Solana.bank SplMath.reference Solana.Bank.promises

/-- The swap of the market, of which the owner takes one percent. -/
theorem pool_tokens_are_shared_out_market :
    ∃ l₁ l₂ state s, Step none Market.ledger Market.initializeEvent l₁ ∧
      Step none l₁ Market.swapEvent l₂ ∧ PoolOpened l₁ World.swap Market.initializeData state s ∧
      ∃ (trade : TradeInstruction) (calls : TradeCalls) (books : ShareBook) (s' : Balances),
        trade.request = .swap Market.swapData ∧ trade.ListsUser calls Market.swapAccounts ∧
        trade.Books state.swapCurve state.fees (state.swapCurve.currentTimestampOpt World.later) s
          s' (state.feeAccounts l₁ (.swap Market.swapData) Market.swapAccounts) books ∧
        l₂.Custody state (poolAuthority World.swap) s' ∧
        s'.supply.toNat + books.burned = s.supply.toNat + books.minted ∧
        ∀ key, l₁.Changes l₂ key state.poolMint (books.taken key) (books.given key) := by
  obtain ⟨l₁, l₂, hinit, hswap⟩ := Market.steps
  obtain ⟨state, s, hopened⟩ := Market.opened hinit
  have hprocess := hswap
  rw [Market.swapEvent, Step,
    processWithConstraints_of_unpack none Market.unpack_swapInput] at hprocess
  exact ⟨l₁, l₂, state, s, hinit, hswap, hopened,
    pool_tokens_are_shared_out hopened.stored hopened.custody trivial hprocess⟩

/-- A deposit of token A by the user of the market. -/
def Market.depositKeys : DepositSingleKeys :=
  ⟨SPL_TOKEN_ID, SPL_TOKEN_ID, World.swap, World.authority, Market.user, 11#256, 3#256, 4#256,
    5#256, 9#256, 6#256⟩

/-- Its amounts. -/
def Market.depositData : DepositSingleTokenTypeExactAmountIn := ⟨10000#64, 1#64⟩

/-- The deposit of the market, which pays an owner fee. -/
theorem built_deposits_leave_the_owner_fee_market :
    ∃ (l₁ l₂ : Ledger) (state : SwapV1) (s : Balances),
      Step none Market.ledger Market.initializeEvent l₁ ∧
      ((TradeOrder.depositSingleTokenTypeExactAmountIn Market.depositKeys
        Market.depositData).build ID).process none [Market.user] World.later l₁ = .ok l₂ ∧
      ∃ (dir : TradeDirection) (s' : Balances) (shares : ℕ), 1 ≤ shares ∧
        l₂.Custody state (poolAuthority World.swap) s' ∧
        s'.reserves dir.source = s.reserves dir.source + 10000 ∧
        s'.reserves dir.destination = s.reserves dir.destination ∧
        s'.supply.toNat = s.supply.toNat + shares ∧
        l₁.Changes l₂ 9#256 state.poolMint 0 shares ∧
        ∀ key, key ≠ 9#256 → l₁.Changes l₂ key state.poolMint 0 0 := by
  have hrun : (do
      let l₁ ← processWithConstraints none Market.initializeAccounts Market.initializeInput
        World.clock Market.ledger
      ((TradeOrder.depositSingleTokenTypeExactAmountIn Market.depositKeys
        Market.depositData).build ID).process none [Market.user] World.later l₁).isOk := by
    decide +kernel
  obtain ⟨l₂, hrun⟩ := Outcome.isOk_iff.mp hrun
  obtain ⟨l₁, hinit, hdeposit⟩ := Outcome.bind_eq_ok.mp hrun
  obtain ⟨state, s, hopened⟩ := Market.opened hinit
  exact ⟨l₁, l₂, state, s, hinit, hdeposit,
    built_deposits_leave_the_owner_fee hopened.stored hopened.custody hdeposit⟩

end Market

end SolanaPsm
