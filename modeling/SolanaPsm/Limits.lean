import SolanaPsm.CustodyRuns

/-!
# What a trade does to the accounts of the user

`Settles` is the account of one token account over the calls of a trade: what it was given and
what was taken from it. Every call settles every account of its mint (`Custody.settles_token`,
`Custody.settles_shares`), so a trade settles them by the totals of its log.

The scripts bound these totals by the limits of the instruction (`TradeInstruction.Within`), and
`trade_within_limits` states on the ledger what the user gets from a successful trade. A swap has
a limit on one side only: the user pays what the curve charges for the amount that is offered.
-/

namespace SolanaPsm

open PoolEffect

/-! ## One account -/

section Settling

variable [Solana]

namespace Ledger

variable {l l' l'' : Ledger} {key mint source destination account : Pubkey} {amount : U64}
  {a b c : TokenAccount} {m : Mint} {taken given taken' given' : ℕ}

/-- An account after amounts were taken from it and given to it. -/
def Settles (l' : Ledger) (key : Pubkey) (a : TokenAccount) (taken given : ℕ) : Prop :=
  ∃ a', l'.TokenAt key a' ∧ a.Moved a' ∧ a'.amount.toNat + taken = a.amount.toNat + given

theorem settles_of_sameAt (h : l.TokenAt key a) (hsame : l.SameAt l' key) :
    l'.Settles key a 0 0 := ⟨a, h.sameAt hsame, .refl a, rfl⟩

theorem Settles.trans (h : l'.Settles key a taken given)
    (h' : ∀ {a'}, l'.TokenAt key a' → a.Moved a' → l''.Settles key a' taken' given') :
    l''.Settles key a (taken + taken') (given + given') := by
  obtain ⟨a', ha', hmoved, hamount⟩ := h
  obtain ⟨a'', ha'', hmoved', hamount'⟩ := h' ha' hmoved
  exact ⟨a'', ha'', hmoved.trans hmoved', by omega⟩

/-- A transfer takes from the source and gives to the destination. -/
theorem Transferred.settles (h : l.Transferred l' source destination amount a b)
    (ha : l.TokenAt source a) (hb : l.TokenAt destination b) (hc : l.TokenAt key c) :
    l'.Settles key c (if source = key then amount.toNat else 0)
      (if destination = key then amount.toNat else 0) := by
  by_cases hself : source = destination
  · obtain ⟨c', hc', hmoved, hamount⟩ := settles_of_sameAt hc (h.frame (.inr hself))
    rw [hself]
    exact ⟨c', hc', hmoved, by omega⟩
  by_cases hsource : source = key
  · rw [hsource] at ha hself
    obtain rfl := hc.unique ha
    obtain ⟨c', hc', hmoved, hamount⟩ := h.leaves (hsource ▸ hself)
    have henough := h.enough
    rw [if_pos hsource, if_neg (Ne.symm hself)]
    exact ⟨c', hsource ▸ hc', hmoved, by omega⟩
  by_cases hdestination : destination = key
  · rw [hdestination] at hb
    obtain rfl := hc.unique hb
    obtain ⟨c', hc', hmoved, hamount⟩ := h.arrives hself
    rw [if_neg hsource, if_pos hdestination]
    exact ⟨c', hdestination ▸ hc', hmoved, by omega⟩
  · rw [if_neg hsource, if_neg hdestination]
    exact settles_of_sameAt hc (h.frame (.inl ⟨Ne.symm hsource, Ne.symm hdestination⟩))

variable [TokenProgram]

/-- Minting gives to the destination. -/
theorem Minted.settles (h : l.Minted l' mint destination amount m b) (hm : l.MintAt mint m)
    (hb : l.TokenAt destination b) (hc : l.TokenAt key c) :
    l'.Settles key c 0 (if destination = key then amount.toNat else 0) := by
  by_cases hdestination : destination = key
  · rw [hdestination] at hb
    obtain rfl := hc.unique hb
    obtain ⟨c', hc', hmoved, hamount⟩ := h.arrives
    rw [if_pos hdestination]
    exact ⟨c', hdestination ▸ hc', hmoved, hamount⟩
  · rw [if_neg hdestination]
    refine settles_of_sameAt hc (h.frame ?_ (Ne.symm hdestination))
    rintro rfl
    exact TokenProgram.exclusive hc hm

/-- Burning takes from the account. -/
theorem Burned.settles (h : l.Burned l' account mint amount a m) (ha : l.TokenAt account a)
    (hm : l.MintAt mint m) (hc : l.TokenAt key c) :
    l'.Settles key c (if account = key then amount.toNat else 0) 0 := by
  by_cases haccount : account = key
  · rw [haccount] at ha
    obtain rfl := hc.unique ha
    obtain ⟨c', hc', hmoved, hamount⟩ := h.leaves
    have henough := h.enough
    rw [if_pos haccount]
    exact ⟨c', haccount ▸ hc', hmoved, by omega⟩
  · rw [if_neg haccount]
    refine settles_of_sameAt hc (h.frame (Ne.symm haccount) ?_)
    rintro rfl
    exact TokenProgram.exclusive hc hm

end Ledger

/-! ## The calls of a trade -/

/-- What a call takes from an account: the user pays in, the reserve pays out. -/
def TradeCalls.tokenTaken (calls : TradeCalls) (t : PoolToken) (key : Pubkey) (e : PoolEffect) :
    ℕ :=
  (if (calls.side t).user = key then e.received t else 0) +
    (if (calls.side t).reserve = key then e.paid t else 0)

/-- What a call gives to an account. -/
def TradeCalls.tokenGiven (calls : TradeCalls) (t : PoolToken) (key : Pubkey) (e : PoolEffect) :
    ℕ :=
  (if (calls.side t).reserve = key then e.received t else 0) +
    (if (calls.side t).user = key then e.paid t else 0)

/-- What a call takes from an account of pool tokens. -/
def PoolEffect.sharesTaken (key : Pubkey) : PoolEffect → ℕ
  | burn account amount => if account = key then amount.toNat else 0
  | transferPool source _ amount => if source = key then amount.toNat else 0
  | _ => 0

/-- What a call gives to an account of pool tokens. -/
def PoolEffect.sharesGiven (key : Pubkey) : PoolEffect → ℕ
  | mintTo account amount => if account = key then amount.toNat else 0
  | transferPool _ destination amount => if destination = key then amount.toNat else 0
  | _ => 0

namespace Ledger.Custody

variable [TokenProgram] {l l' : Ledger} {key mint authority : Pubkey} {state : SwapV1}
  {s : Balances} {calls : TradeCalls} {e : PoolEffect} {c : TokenAccount}

/-- A transfer of one mint settles the accounts of another one. -/
theorem settles_of_mint_ne {source destination other : Pubkey} {amount : U64} {a b : TokenAccount}
    (ha : l.TokenAt source a) (hb : l.TokenAt destination b)
    (hmints : a.mint = other ∧ b.mint = other)
    (htransfer : l.Transferred l' source destination amount a b) (hc : l.TokenAt key c)
    (hne : c.mint ≠ other) : l'.Settles key c 0 0 :=
  settles_of_sameAt hc ((sameAt_of_transferred ha hb hmints htransfer).2 hc hne)

/-- A call settles the accounts of a token of the pool. -/
theorem settles_token (h : l.Custody state authority s)
    (hreserve : ∀ token, (calls.side token).reserve = state.reserve token)
    (hperformed : Performed l l' state calls e) {t : PoolToken} (hc : l.TokenAt key c)
    (hmint : c.mint = state.mint t) :
    l'.Settles key c (calls.tokenTaken t key e) (calls.tokenGiven t key e) := by
  simp only [TradeCalls.tokenTaken, TradeCalls.tokenGiven, hreserve]
  cases e with
  | unpackMint | unpackHostFeeAccount =>
    obtain rfl : l' = l := hperformed
    simpa [received, paid] using settles_of_sameAt hc (.refl l' key)
  | payIn token amount =>
    obtain ⟨a, b, ha, hb, hmintA, hmintB, htransfer⟩ := hperformed
    by_cases htoken : token = t
    · subst htoken
      simpa [received, paid] using htransfer.settles ha hb hc
    · have hne : c.mint ≠ state.mint token := hmint ▸ h.differ.mint_ne (Ne.symm htoken)
      simpa [received, paid, htoken] using
        settles_of_mint_ne ha hb ⟨hmintA, hmintB⟩ htransfer hc hne
  | payOut token amount =>
    obtain ⟨a, b, ha, hb, hmintA, hmintB, htransfer⟩ := hperformed
    by_cases htoken : token = t
    · subst htoken
      simpa [received, paid] using htransfer.settles ha hb hc
    · have hne : c.mint ≠ state.mint token := hmint ▸ h.differ.mint_ne (Ne.symm htoken)
      simpa [received, paid, htoken] using
        settles_of_mint_ne ha hb ⟨hmintA, hmintB⟩ htransfer hc hne
  | mintTo account amount =>
    obtain ⟨m, b, hm, hb, hmintB, hminted⟩ := hperformed
    have hsame : l.SameAt l' key := by
      refine hminted.frame ?_ ?_
      · rintro rfl
        exact TokenProgram.exclusive hc hm
      · rintro rfl
        exact h.differ.poolMint t (hmint.symm.trans (hc.unique hb ▸ hmintB))
    simpa [received, paid] using settles_of_sameAt hc hsame
  | burn account amount =>
    obtain ⟨a, m, ha, hm, hmintA, hburned⟩ := hperformed
    have hsame : l.SameAt l' key := by
      refine hburned.frame ?_ ?_
      · rintro rfl
        exact h.differ.poolMint t (hmint.symm.trans (hc.unique ha ▸ hmintA))
      · rintro rfl
        exact TokenProgram.exclusive hc hm
    simpa [received, paid] using settles_of_sameAt hc hsame
  | transferPool source destination amount =>
    obtain ⟨a, b, ha, hb, hmintA, hmintB, htransfer⟩ := hperformed
    have hne : c.mint ≠ state.poolMint := hmint ▸ h.differ.poolMint t
    simpa [received, paid] using settles_of_mint_ne ha hb ⟨hmintA, hmintB⟩ htransfer hc hne

/-- A call settles the accounts of pool tokens. -/
theorem settles_shares (h : l.Custody state authority s)
    (hperformed : Performed l l' state calls e) (hc : l.TokenAt key c)
    (hmint : c.mint = state.poolMint) :
    l'.Settles key c (e.sharesTaken key) (e.sharesGiven key) := by
  cases e with
  | unpackMint | unpackHostFeeAccount =>
    obtain rfl : l' = l := hperformed
    exact settles_of_sameAt hc (.refl l' key)
  | payIn token amount | payOut token amount =>
    obtain ⟨a, b, ha, hb, hmintA, hmintB, htransfer⟩ := hperformed
    exact settles_of_mint_ne ha hb ⟨hmintA, hmintB⟩ htransfer hc
      (hmint ▸ (h.differ.poolMint token).symm)
  | mintTo account amount =>
    obtain ⟨m, b, hm, hb, -, hminted⟩ := hperformed
    exact hminted.settles hm hb hc
  | burn account amount =>
    obtain ⟨a, m, ha, hm, -, hburned⟩ := hperformed
    exact hburned.settles ha hm hc
  | transferPool source destination amount =>
    obtain ⟨a, b, ha, hb, -, -, htransfer⟩ := hperformed
    exact htransfer.settles ha hb hc

/-- A log settles an account by its totals, when each of its calls does. -/
theorem settlesAll {taken given : PoolEffect → ℕ} {log : List PoolEffect}
    (hcalls : ∀ {l l' : Ledger} {s e c}, l.Custody state authority s →
      Performed l l' state calls e → l.TokenAt key c → c.mint = mint →
      l'.Settles key c (taken e) (given e))
    (h : l.Custody state authority s) (hpoolMint : calls.poolMint = state.poolMint)
    (hreserve : ∀ token, (calls.side token).reserve = state.reserve token)
    (huser : ∀ e ∈ log, ∀ token x, e = .payIn token x ∨ e = .payOut token x →
      (calls.side token).user ≠ state.reserve token)
    (hlog : Script.performAll calls.perform log l = .ok l') (hc : l.TokenAt key c)
    (hmint : c.mint = mint) : l'.Settles key c (total taken log) (total given log) := by
  induction log generalizing l s c with
  | nil =>
    obtain rfl := Outcome.ok.inj hlog
    exact settles_of_sameAt hc (.refl l key)
  | cons e log ih =>
    obtain ⟨l₁, hcall, hlog⟩ := Outcome.bind_eq_ok.mp hlog
    rw [List.forall_mem_cons] at huser
    obtain ⟨s₁, -, h₁⟩ := h.call hpoolMint hreserve huser.1 hcall
    have hsettled := hcalls h (h.performed hpoolMint hreserve hcall) hc hmint
    rw [total_cons, total_cons]
    exact hsettled.trans fun hc₁ hmoved => ih h₁ huser.2 hlog hc₁ (hmoved.mint.trans hmint)

end Ledger.Custody

end Settling

/-! ## Totals -/

section Totals

variable {calls : TradeCalls} {t : PoolToken} {key : Pubkey} {log : List PoolEffect}

theorem total_tokenTaken (log : List PoolEffect) : total (calls.tokenTaken t key) log =
    (if (calls.side t).user = key then total (received t) log else 0) +
      (if (calls.side t).reserve = key then total (paid t) log else 0) := by
  induction log with
  | nil => simp
  | cons e log ih =>
    rw [total_cons, ih, TradeCalls.tokenTaken]
    split <;> split <;> simp only [total_cons] <;> omega

theorem total_tokenGiven (log : List PoolEffect) : total (calls.tokenGiven t key) log =
    (if (calls.side t).reserve = key then total (received t) log else 0) +
      (if (calls.side t).user = key then total (paid t) log else 0) := by
  induction log with
  | nil => simp
  | cons e log ih =>
    rw [total_cons, ih, TradeCalls.tokenGiven]
    split <;> split <;> simp only [total_cons] <;> omega

end Totals

/-! ## The limits of the scripts -/

namespace TradeInstruction

/-- What the curve charges and pays for the amount that a swap offers. -/
def Quotes [SplMath] (curve : SwapCurve) (fees : Fees) (ts : Option U128) (balances : Balances)
    (dir : TradeDirection) (instruction : Swap) (r : SwapResult) : Prop :=
  curve.swap (instruction.amountIn.widen 128) ((balances.reserve dir.source).widen 128)
    ((balances.reserve dir.destination).widen 128) dir fees ts = .ok r

/-- What the log of a trade adds up to: the limits of the instruction, and for a swap the charge
of the curve. -/
def Within [SplMath] (curve : SwapCurve) (fees : Fees) (ts : Option U128) (balances : Balances) :
    TradeInstruction → List PoolEffect → Prop
  | swap dir instruction, log =>
    (∀ token, token ≠ dir.source → total (received token) log = 0) ∧
      (∀ token, token ≠ dir.destination → total (paid token) log = 0) ∧
      ∃ r, Quotes curve fees ts balances dir instruction r ∧
        total (received dir.source) log = r.sourceAmountSwapped.toNat ∧
        total (paid dir.destination) log = r.destinationAmountSwapped.toNat ∧
        instruction.minimumAmountOut.toNat ≤ r.destinationAmountSwapped.toNat
  | depositAllTokenTypes destination instruction, log =>
    total (received .a) log ≤ instruction.maximumTokenAAmount.toNat ∧
      total (received .b) log ≤ instruction.maximumTokenBAmount.toNat ∧
      (∀ token, total (paid token) log = 0) ∧
      total (sharesTaken destination) log = 0 ∧
      total (sharesGiven destination) log = instruction.poolTokenAmount.toNat
  | withdrawAllTokenTypes source instruction, log =>
    instruction.minimumTokenAAmount.toNat ≤ total (paid .a) log ∧
      instruction.minimumTokenBAmount.toNat ≤ total (paid .b) log ∧
      (∀ token, total (received token) log = 0) ∧
      total (sharesTaken source) log = instruction.poolTokenAmount.toNat ∧
      total (sharesGiven source) log = 0
  | depositSingleTokenTypeExactAmountIn dir destination instruction, log =>
    (∀ token, total (received token) log =
        if token = dir.source then instruction.sourceTokenAmount.toNat else 0) ∧
      (∀ token, total (paid token) log = 0) ∧
      total (sharesTaken destination) log = 0 ∧
      instruction.minimumPoolTokenAmount.toNat ≤ total (sharesGiven destination) log
  | withdrawSingleTokenTypeExactAmountOut dir source instruction, log =>
    (∀ token, total (paid token) log =
        if token = dir.source then instruction.destinationTokenAmount.toNat else 0) ∧
      (∀ token, total (received token) log = 0) ∧
      total (sharesTaken source) log ≤ instruction.maximumPoolTokenAmount.toNat

end TradeInstruction

namespace Amounts

open Script TradeInstruction

variable {fees : Fees} {accounts : FeeAccounts} {log : List PoolEffect}

/-- Fees are minted. -/
theorem mintsOnly_of_emits {α : Type} {x : TradeScript α} {a : α}
    (h : x.Emits (MintsFee accounts)) (hreturns : x.Returns log a) : MintsOnly log := by
  intro e he
  have hfee := h.of_returns hreturns e he
  cases e with
  | mintTo account amount => exact .inl ⟨account, amount, rfl⟩
  | unpackHostFeeAccount account => exact .inr ⟨account, rfl⟩
  | unpackMint | payIn | payOut | burn | transferPool => exact hfee.elim

theorem sharesTaken_of_mintsOnly (h : MintsOnly log) (key : Pubkey) :
    total (sharesTaken key) log = 0 := by
  refine total_eq_zero fun e he => ?_
  rcases h e he with ⟨_, _, rfl⟩ | ⟨_, rfl⟩ <;> rfl

/-- There is no withdraw fee on the fee account itself. -/
theorem withdrawFee_source {source : Pubkey} {x fee : U128}
    (h : (withdrawFee fees accounts source x).Returns log fee) :
    log = [] ∧ (0#128 < fee → accounts.poolFee ≠ source) := by
  rw [withdrawFee] at h
  split at h
  · split at h
    · obtain ⟨rfl, rfl⟩ := returns_pure.mp h
      exact ⟨rfl, fun hpos => absurd hpos (by decide)⟩
    · rename_i hne
      exact ⟨(returns_lift.mp h).1, fun _ => hne⟩
  · obtain ⟨rfl, rfl⟩ := returns_pure.mp h
    exact ⟨rfl, fun hpos => absurd hpos (by decide)⟩

/-- The withdraw fee leaves the account it is taken from. -/
theorem payWithdrawFee_shares {source : Pubkey} {fee : U128}
    (hne : 0#128 < fee → accounts.poolFee ≠ source)
    (h : (payWithdrawFee accounts source fee).Returns log ()) :
    total (sharesTaken source) log = fee.toNat ∧ total (sharesGiven source) log = 0 := by
  rw [payWithdrawFee] at h
  split at h
  · rename_i hpos
    simp only [returns_lift_bind, returns_emit, toU64_eq_ok] at h
    obtain ⟨x, hx, rfl⟩ := h
    simp [sharesTaken, sharesGiven, hne hpos, hx]
  · rename_i hzero
    obtain ⟨rfl, -⟩ := returns_pure.mp h
    exact ⟨(Nat.eq_zero_of_not_pos hzero).symm, rfl⟩

/-- A payment of a two-sided withdrawal moves no pool tokens. -/
theorem payOutPositive_shares {token : PoolToken} {amount : U64} (key : Pubkey)
    (h : (payOutPositive token amount).Returns log ()) :
    total (sharesTaken key) log = 0 ∧ total (sharesGiven key) log = 0 := by
  rw [payOutPositive] at h
  split at h
  · obtain rfl := returns_emit.mp h
    exact ⟨rfl, rfl⟩
  · obtain ⟨rfl, -⟩ := returns_pure.mp h
    exact ⟨rfl, rfl⟩

section Trades

variable [SplMath] {curve : SwapCurve} {ts : Option U128} {balances : Balances}

theorem swap_within {dir : TradeDirection} {instruction : Swap}
    (h : (swap curve fees ts balances accounts dir instruction).Returns log ()) :
    (TradeInstruction.swap dir instruction).Within curve fees ts balances log := by
  simp only [swap, returns_compute_bind, returns_lift_bind, returns_emit_bind,
    returns_reject_bind, toU64_eq_ok, BitVec.lt_def, not_lt] at h
  obtain ⟨r, hr, x, hx, log₁, ⟨log₂, ⟨y, hy, hmin, log₃, htail, rfl⟩, rfl⟩, rfl⟩ := h
  obtain ⟨_, log₄, log₅, hmints, hout, rfl⟩ := returns_bind.mp htail
  obtain rfl := returns_emit.mp hout
  have hlog₄ := mintsOnly_of_emits (emits_mintSwapOwnerFee dir r) hmints
  refine ⟨?_, ?_, r, hr, ?_, ?_, hy ▸ hmin⟩
  · intro token htoken
    simp [received, hlog₄.received_eq, Ne.symm htoken]
  · intro token htoken
    simp [paid, hlog₄.paid_eq, Ne.symm htoken]
  · simp [received, hlog₄.received_eq, hx]
  · simp [paid, hlog₄.paid_eq, hy]

theorem depositAllTokenTypes_within {destination : Pubkey} {instruction : DepositAllTokenTypes}
    (h : (depositAllTokenTypes curve balances destination instruction).Returns log ()) :
    (TradeInstruction.depositAllTokenTypes destination instruction).Within curve fees ts balances
      log := by
  simp only [depositAllTokenTypes, returns_compute_bind, returns_lift_bind, returns_emit_bind,
    returns_reject_bind, returns_emit, toU64_eq_ok, BitVec.lt_def, not_lt] at h
  obtain ⟨r, -, a, -, hmaxA, b, -, hmaxB, -, _, ⟨_, rfl, rfl⟩, rfl⟩ := h
  refine ⟨?_, ?_, fun _ => rfl, rfl, ?_⟩
  · simpa [received] using hmaxA
  · simpa [received] using hmaxB
  · simp [sharesGiven]

theorem withdrawAllTokenTypes_within {source : Pubkey} {instruction : WithdrawAllTokenTypes}
    (h : (withdrawAllTokenTypes curve fees balances accounts source instruction).Returns log ()) :
    (TradeInstruction.withdrawAllTokenTypes source instruction).Within curve fees ts balances
      log := by
  rw [withdrawAllTokenTypes] at h
  obtain ⟨fee, log₀, log, hfee, hrest, rfl⟩ := returns_bind.mp h
  obtain ⟨rfl, hne⟩ := withdrawFee_source hfee
  simp only [returns_require_bind, returns_compute_bind, returns_lift_bind, returns_reject_bind,
    toU64_eq_ok, BitVec.lt_def, not_lt, BitVec.checkedSub_eq_some] at hrest
  obtain ⟨t, ⟨hle, ht⟩, r, -, a, -, hminA, b, -, hminB, -, -, htail⟩ := hrest
  obtain ⟨_, log₁, log₂, hpay, hburn, rfl⟩ := returns_bind.mp htail
  simp only [returns_lift_bind, returns_emit_bind, toU64_eq_ok] at hburn
  obtain ⟨burn, hburn, log₃, houts, rfl⟩ := hburn
  obtain ⟨_, logA, logB, houtA, houtB, rfl⟩ := returns_bind.mp houts
  obtain ⟨hreceived, hpaid, -, -⟩ := payWithdrawFee_returns hpay
  obtain ⟨hreceivedA, hpaidA, -, -⟩ := payOutPositive_returns houtA
  obtain ⟨hreceivedB, hpaidB, -, -⟩ := payOutPositive_returns houtB
  obtain ⟨htaken, hgiven⟩ := payWithdrawFee_shares hne hpay
  obtain ⟨htakenA, hgivenA⟩ := payOutPositive_shares source houtA
  obtain ⟨htakenB, hgivenB⟩ := payOutPositive_shares source houtB
  rw [U64.toNat_widen] at hle ht
  refine ⟨?_, ?_, ?_, ?_, ?_⟩
  · simpa [paid, hpaid, hpaidA, hpaidB] using hminA
  · simpa [paid, hpaid, hpaidA, hpaidB] using hminB
  · intro token
    simp [received, hreceived, hreceivedA, hreceivedB]
  · simp [sharesTaken, htaken, htakenA, htakenB]
    omega
  · simp [sharesGiven, hgiven, hgivenA, hgivenB]

theorem depositSingleTokenTypeExactAmountIn_within {dir : TradeDirection} {destination : Pubkey}
    {instruction : DepositSingleTokenTypeExactAmountIn}
    (h : (depositSingleTokenTypeExactAmountIn curve fees ts balances accounts dir destination
      instruction).Returns log ()) :
    (TradeInstruction.depositSingleTokenTypeExactAmountIn dir destination instruction).Within
      curve fees ts balances log := by
  simp only [depositSingleTokenTypeExactAmountIn, returns_compute_bind, returns_lift_bind,
    returns_reject_bind, toU64_eq_ok, BitVec.lt_def, not_lt] at h
  obtain ⟨r, -, m, -, hmin, -, htail⟩ := h
  obtain ⟨_, log₁, log₂, hmints, hout, rfl⟩ := returns_bind.mp htail
  simp only [returns_emit_bind, returns_emit] at hout
  obtain ⟨_, rfl, rfl⟩ := hout
  have hlog₁ := mintsOnly_of_emits (emits_mintDepositOwnerFee dir _ _ _) hmints
  refine ⟨?_, ?_, ?_, ?_⟩
  · intro token
    simp [received, hlog₁.received_eq, eq_comm]
  · intro token
    simp [paid, hlog₁.paid_eq]
  · simp [sharesTaken, sharesTaken_of_mintsOnly hlog₁]
  · simp [sharesGiven]
    omega

theorem withdrawSingleTokenTypeExactAmountOut_within {dir : TradeDirection} {source : Pubkey}
    {instruction : WithdrawSingleTokenTypeExactAmountOut}
    (h : (withdrawSingleTokenTypeExactAmountOut curve fees ts balances accounts dir source
      instruction).Returns log ()) :
    (TradeInstruction.withdrawSingleTokenTypeExactAmountOut dir source instruction).Within
      curve fees ts balances log := by
  simp only [withdrawSingleTokenTypeExactAmountOut, returns_compute_bind] at h
  obtain ⟨r, -, h⟩ := h
  obtain ⟨fee, log₀, log, hfee, hrest, rfl⟩ := returns_bind.mp h
  obtain ⟨rfl, hne⟩ := withdrawFee_source hfee
  obtain ⟨_, log₁, log₂, hmints, htail, rfl⟩ := returns_bind.mp hrest
  simp only [returns_require_bind, returns_lift_bind, returns_reject_bind, toU64_eq_ok,
    BitVec.lt_def, not_lt, BitVec.checkedAdd_eq_some] at htail
  obtain ⟨t, ht, t', ht', hmax, -, htail⟩ := htail
  obtain ⟨_, log₃, log₄, hpay, hburn, rfl⟩ := returns_bind.mp htail
  simp only [returns_lift_bind, returns_emit_bind, returns_emit, toU64_eq_ok] at hburn
  obtain ⟨burn, hburn, _, rfl, rfl⟩ := hburn
  have hlog₁ := mintsOnly_of_emits (emits_mintWithdrawOwnerFee dir _ _ _) hmints
  obtain ⟨hreceived, hpaid, -, -⟩ := payWithdrawFee_returns hpay
  obtain ⟨htaken, -⟩ := payWithdrawFee_shares hne hpay
  refine ⟨?_, ?_, ?_⟩
  · intro token
    simp [paid, hpaid, hlog₁.paid_eq, eq_comm]
  · intro token
    simp [received, hreceived, hlog₁.received_eq]
  · simp [sharesTaken, htaken, sharesTaken_of_mintsOnly hlog₁]
    omega

/-- The log of a trade is within the limits of its instruction. -/
theorem within_of_returns {instruction : TradeInstruction}
    (h : (instruction.amounts curve fees ts balances accounts).Returns log ()) :
    instruction.Within curve fees ts balances log := by
  cases instruction with
  | swap => exact swap_within h
  | depositAllTokenTypes => exact depositAllTokenTypes_within h
  | withdrawAllTokenTypes => exact withdrawAllTokenTypes_within h
  | depositSingleTokenTypeExactAmountIn => exact depositSingleTokenTypeExactAmountIn_within h
  | withdrawSingleTokenTypeExactAmountOut => exact withdrawSingleTokenTypeExactAmountOut_within h

end Trades

end Amounts

/-! ## The limits on the ledger -/

section Ledger

variable [Solana]

/-- Every account of a mint at the address is settled. -/
def Ledger.Changes (l l' : Ledger) (key mint : Pubkey) (taken given : ℕ) : Prop :=
  ∀ a, l.TokenAt key a → a.mint = mint → l'.Settles key a taken given

/-- The user pays into the reserve of a token, and the reserve pays the user. -/
def TradeCalls.Exchanges (calls : TradeCalls) (state : SwapV1) (l l' : Ledger) (t : PoolToken)
    (paidIn paidOut : ℕ) : Prop :=
  l.Changes l' (calls.side t).user (state.mint t) paidIn paidOut ∧
    l.Changes l' (state.reserve t) (state.mint t) paidOut paidIn

/-- What a trade does to the accounts of the user and to the reserves, on the balances of the pool.

A swap takes what the curve of the pool charges for the offered amount, at the rates of the moment,
and pays what the curve pays for it, at least the minimum asked for. Deposits take no more tokens
than agreed and mint no fewer pool tokens; withdrawals pay no fewer tokens than agreed and take no
more pool tokens. Whatever the user pays, the reserve receives, and the other way round. -/
def TradeInstruction.Honored [SplMath] (state : SwapV1) (clock : Clock) (s : Balances)
    (calls : TradeCalls) (l l' : Ledger) : TradeInstruction → Prop
  | swap dir instruction => ∃ r,
      Quotes state.swapCurve state.fees (state.swapCurve.currentTimestampOpt clock) s dir
        instruction r ∧
      instruction.minimumAmountOut.toNat ≤ r.destinationAmountSwapped.toNat ∧
      calls.Exchanges state l l' dir.source r.sourceAmountSwapped.toNat 0 ∧
      calls.Exchanges state l l' dir.destination 0 r.destinationAmountSwapped.toNat
  | depositAllTokenTypes destination instruction => ∃ a b,
      a ≤ instruction.maximumTokenAAmount.toNat ∧ b ≤ instruction.maximumTokenBAmount.toNat ∧
      calls.Exchanges state l l' .a a 0 ∧ calls.Exchanges state l l' .b b 0 ∧
      l.Changes l' destination state.poolMint 0 instruction.poolTokenAmount.toNat
  | withdrawAllTokenTypes source instruction => ∃ a b,
      instruction.minimumTokenAAmount.toNat ≤ a ∧ instruction.minimumTokenBAmount.toNat ≤ b ∧
      calls.Exchanges state l l' .a 0 a ∧ calls.Exchanges state l l' .b 0 b ∧
      l.Changes l' source state.poolMint instruction.poolTokenAmount.toNat 0
  | depositSingleTokenTypeExactAmountIn dir destination instruction => ∃ shares,
      instruction.minimumPoolTokenAmount.toNat ≤ shares ∧
      calls.Exchanges state l l' dir.source instruction.sourceTokenAmount.toNat 0 ∧
      l.Changes l' destination state.poolMint 0 shares
  | withdrawSingleTokenTypeExactAmountOut dir source instruction => ∃ shares given,
      shares ≤ instruction.maximumPoolTokenAmount.toNat ∧
      calls.Exchanges state l l' dir.source 0 instruction.destinationTokenAmount.toNat ∧
      l.Changes l' source state.poolMint shares given

variable [SplMath] {l l' : Ledger} {state : SwapV1} {clock : Clock} {s : Balances}

/-- A log within the limits honors them, when the accounts are settled by its totals. -/
theorem TradeInstruction.Within.honored {trade : TradeInstruction} {calls : TradeCalls}
    {log : List PoolEffect}
    (h : trade.Within state.swapCurve state.fees (state.swapCurve.currentTimestampOpt clock) s log)
    (hexchanges : ∀ {t}, trade.Moves t →
      calls.Exchanges state l l' t (total (received t) log) (total (paid t) log))
    (hshares : ∀ key, l.Changes l' key state.poolMint (total (sharesTaken key) log)
      (total (sharesGiven key) log)) : trade.Honored state clock s calls l l' := by
  cases trade with
  | swap dir instruction =>
    obtain ⟨hreceived, hpaid, r, hquotes, hcharged, hbought, hmin⟩ := h
    have hsource := hexchanges (t := dir.source) trivial
    have hdestination := hexchanges (t := dir.destination) trivial
    rw [hpaid _ dir.destination_ne_source.symm, hcharged] at hsource
    rw [hreceived _ dir.destination_ne_source, hbought] at hdestination
    exact ⟨r, hquotes, hmin, hsource, hdestination⟩
  | depositAllTokenTypes destination instruction =>
    obtain ⟨hmaxA, hmaxB, hpaid, htaken, hgiven⟩ := h
    have hchangesA := hexchanges (t := .a) trivial
    have hchangesB := hexchanges (t := .b) trivial
    have hminted := hshares destination
    rw [hpaid] at hchangesA hchangesB
    rw [htaken, hgiven] at hminted
    exact ⟨_, _, hmaxA, hmaxB, hchangesA, hchangesB, hminted⟩
  | withdrawAllTokenTypes source instruction =>
    obtain ⟨hminA, hminB, hreceived, htaken, hgiven⟩ := h
    have hchangesA := hexchanges (t := .a) trivial
    have hchangesB := hexchanges (t := .b) trivial
    have hburned := hshares source
    rw [hreceived] at hchangesA hchangesB
    rw [htaken, hgiven] at hburned
    exact ⟨_, _, hminA, hminB, hchangesA, hchangesB, hburned⟩
  | depositSingleTokenTypeExactAmountIn dir destination instruction =>
    obtain ⟨hreceived, hpaid, htaken, hmin⟩ := h
    have hsource := hexchanges (t := dir.source) rfl
    have hminted := hshares destination
    rw [hreceived, if_pos rfl, hpaid] at hsource
    rw [htaken] at hminted
    exact ⟨_, hmin, hsource, hminted⟩
  | withdrawSingleTokenTypeExactAmountOut dir source instruction =>
    obtain ⟨hpaid, hreceived, hmax⟩ := h
    have hsource := hexchanges (t := dir.source) rfl
    rw [hpaid, if_pos rfl, hreceived] at hsource
    exact ⟨_, _, hmax, hsource, hshares source⟩

variable [TokenProgram] {swapConstraints : Option SwapConstraints} {authority : Pubkey}
  {info : AccountInfo} {rest : List AccountInfo} {instruction : SwapInstruction}

/-- A successful trade of a pool in custody keeps to the limits of its instruction, on the ledger:
the accounts of the user are where the instruction lists them, what they pay the reserves receive,
they are paid at least the minimum, and pool tokens are minted and taken as agreed. A swap pays
what the curve charges for the offered amount. -/
theorem trade_within_limits (hpool : l.StoresPool info.key state)
    (hcustody : l.Custody state authority s) (htrade : instruction.IsTrade)
    (h : processInstruction swapConstraints (info :: rest) instruction clock l = .ok l') :
    ∃ (trade : TradeInstruction) (calls : TradeCalls), trade.request = instruction ∧
      trade.ListsUser calls (info :: rest) ∧ trade.Honored state clock s calls l l' := by
  obtain ⟨prepared, log, hchecked, hscript, hlog⟩ := trade_performs hpool hcustody htrade h
  have huser := hchecked.user_ne hscript
  have htoken {t key a} (ha : l.TokenAt key a) (hmint : a.mint = state.mint t) :
      l'.Settles key a (total (prepared.calls.tokenTaken t key) log)
        (total (prepared.calls.tokenGiven t key) log) :=
    hcustody.settlesAll (fun h hperformed => h.settles_token hchecked.reserve hperformed)
      hchecked.poolMint hchecked.reserve huser hlog ha hmint
  have hshares (key : Pubkey) : l.Changes l' key state.poolMint (total (sharesTaken key) log)
      (total (sharesGiven key) log) := fun _ ha hmint =>
    hcustody.settlesAll (fun h => h.settles_shares) hchecked.poolMint hchecked.reserve huser hlog
      ha hmint
  -- where the user trades with the reserve, both are settled by what is paid in and out
  have hexchanges {t} (hmoves : prepared.trade.instruction.Moves t) :
      prepared.calls.Exchanges state l l' t (total (received t) log) (total (paid t) log) := by
    have hne := hchecked.user t hmoves
    refine ⟨?_, ?_⟩
    · intro a ha hmint
      have hsettles := htoken ha hmint
      rwa [total_tokenTaken, total_tokenGiven, hchecked.reserve, if_pos rfl, if_pos rfl,
        if_neg hne.symm, Nat.add_zero, if_neg hne.symm, Nat.zero_add] at hsettles
    · intro a ha hmint
      have hsettles := htoken ha hmint
      rwa [total_tokenTaken, total_tokenGiven, hchecked.reserve, if_neg hne, if_pos rfl,
        if_pos rfl, Nat.zero_add, if_neg hne, Nat.add_zero] at hsettles
  have hwithin := Amounts.within_of_returns hscript
  rw [hchecked.curve, hchecked.timestamp] at hwithin
  exact ⟨prepared.trade.instruction, prepared.calls, hchecked.request, hchecked.listed,
    hwithin.honored hexchanges hshares⟩

end Ledger

section Market

attribute [local instance] Solana.bank SplMath.reference Solana.Bank.promises

/-- The swap of the market. -/
theorem trade_within_limits_market :
    ∃ l₁ l₂ state s, Step none Market.ledger Market.initializeEvent l₁ ∧
      Step none l₁ Market.swapEvent l₂ ∧ PoolOpened l₁ World.swap Market.initializeData state s ∧
      ∃ (trade : TradeInstruction) (calls : TradeCalls), trade.request = .swap Market.swapData ∧
        trade.ListsUser calls Market.swapAccounts ∧
        trade.Honored state World.later s calls l₁ l₂ := by
  obtain ⟨l₁, l₂, hinit, hswap⟩ := Market.steps
  obtain ⟨state, s, hopened⟩ := Market.opened hinit
  have hprocess := hswap
  rw [Market.swapEvent, Step,
    processWithConstraints_of_unpack none Market.unpack_swapInput] at hprocess
  exact ⟨l₁, l₂, state, s, hinit, hswap, hopened,
    trade_within_limits hopened.stored hopened.custody trivial hprocess⟩

end Market

end SolanaPsm
