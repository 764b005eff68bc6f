import SolanaPsm.Amounts

/-!
# What a trade moves

One specification for each trading instruction: from a script that returns and whose
calls the token program accepts to the numbers moved. `Swapped`, `DepositedAll`,
`WithdrewAll`, `DepositedSingle` and `WithdrewSingle` relate the balances before and
after, and bound what is moved by the price and the pool token supply. Results about
the value of a pool are proved from these and never open a script.

The owner fee is the delicate part of three of them: pool tokens are minted for it
against the reserves without the fee (`FeeMint`).
-/

namespace SolanaPsm

/-! ## Totals of a log -/

namespace PoolEffect

/-- What a call moves into the reserve of a token. -/
def received (token : PoolToken) : PoolEffect → ℕ
  | payIn t amount => if t = token then amount.toNat else 0
  | _ => 0

/-- What a call moves out of the reserve of a token. -/
def paid (token : PoolToken) : PoolEffect → ℕ
  | payOut t amount => if t = token then amount.toNat else 0
  | _ => 0

/-- The pool tokens a call mints. -/
def minted : PoolEffect → ℕ
  | mintTo _ amount => amount.toNat
  | _ => 0

/-- The pool tokens a call burns. -/
def burned : PoolEffect → ℕ
  | burn _ amount => amount.toNat
  | _ => 0

/-- The sum over the calls of a log. -/
def total (f : PoolEffect → ℕ) (log : List PoolEffect) : ℕ := (log.map f).sum

@[simp] theorem total_nil (f : PoolEffect → ℕ) : total f [] = 0 := rfl

@[simp] theorem total_cons (f : PoolEffect → ℕ) (e : PoolEffect) (log : List PoolEffect) :
    total f (e :: log) = f e + total f log := List.sum_cons

@[simp] theorem total_append (f : PoolEffect → ℕ) (log log' : List PoolEffect) :
    total f (log ++ log') = total f log + total f log' := by
  rw [total, List.map_append, List.sum_append]
  rfl

theorem total_eq_zero {f : PoolEffect → ℕ} {log : List PoolEffect} (h : ∀ e ∈ log, f e = 0) :
    total f log = 0 := by
  induction log with
  | nil => rfl
  | cons e log ih =>
    rw [List.forall_mem_cons] at h
    rw [total_cons, h.1, ih h.2]

end PoolEffect

/-- Reserves as numbers. -/
abbrev Reserves : Type := PoolToken → ℕ

namespace Balances

/-- The reserves as numbers. -/
def reserves (balances : Balances) : Reserves := fun token => (balances.reserve token).toNat

@[simp] theorem toNat_tokenA (balances : Balances) :
    balances.tokenA.toNat = balances.reserves .a := rfl

@[simp] theorem toNat_tokenB (balances : Balances) :
    balances.tokenB.toNat = balances.reserves .b := rfl

@[simp] theorem toNat_reserve (balances : Balances) (token : PoolToken) :
    (balances.reserve token).toNat = balances.reserves token := rfl

theorem reserve_setReserve (balances : Balances) (t token : PoolToken) (amount : U64) :
    (balances.setReserve t amount).reserve token =
      if t = token then amount else balances.reserve token := by
  cases t <;> cases token <;> rfl

@[simp] theorem supply_setReserve (balances : Balances) (t : PoolToken) (amount : U64) :
    (balances.setReserve t amount).supply = balances.supply := by
  cases t <;> rfl

end Balances

open PoolEffect

/-- The balances after an accepted call. -/
theorem PoolEffect.apply_eq_ok {e : PoolEffect} {s s' : Balances} (h : e.apply s = .ok s') :
    (∀ token, s'.reserves token + e.paid token = s.reserves token + e.received token) ∧
    s'.supply.toNat + e.burned = s.supply.toNat + e.minted := by
  cases e with
  | unpackMint | unpackHostFeeAccount | transferPool =>
    obtain rfl := Outcome.ok.inj h
    exact ⟨fun _ => rfl, rfl⟩
  | payIn t amount =>
    simp only [apply] at h
    split at h
    · rename_i x hx
      obtain rfl := Outcome.ok.inj h
      rw [BitVec.checkedAdd_eq_some] at hx
      refine ⟨fun token => ?_, by rw [Balances.supply_setReserve]; rfl⟩
      simp only [Balances.reserves, Balances.reserve_setReserve, received, paid]
      split
      · subst token
        exact hx
      · rfl
    · cases h
  | payOut t amount =>
    simp only [apply] at h
    split at h
    · rename_i x hx
      obtain rfl := Outcome.ok.inj h
      rw [BitVec.checkedSub_eq_some] at hx
      refine ⟨fun token => ?_, by rw [Balances.supply_setReserve]; rfl⟩
      simp only [Balances.reserves, Balances.reserve_setReserve, received, paid]
      split
      · subst token
        rw [hx.2]
        exact Nat.sub_add_cancel hx.1
      · rfl
    · cases h
  | mintTo account amount =>
    simp only [apply] at h
    split at h
    · rename_i x hx
      obtain rfl := Outcome.ok.inj h
      exact ⟨fun _ => rfl, BitVec.checkedAdd_eq_some.mp hx⟩
    · cases h
  | burn account amount =>
    simp only [apply] at h
    split at h
    · rename_i x hx
      obtain rfl := Outcome.ok.inj h
      rw [BitVec.checkedSub_eq_some] at hx
      refine ⟨fun _ => rfl, ?_⟩
      change x.toNat + amount.toNat = s.supply.toNat
      omega
    · cases h

/-- The balances after an accepted log. -/
theorem performAll_apply {log : List PoolEffect} {s s' : Balances}
    (h : Script.performAll PoolEffect.apply log s = .ok s') :
    (∀ token, s'.reserves token + total (paid token) log =
      s.reserves token + total (received token) log) ∧
    s'.supply.toNat + total burned log = s.supply.toNat + total minted log := by
  induction log generalizing s with
  | nil =>
    obtain rfl := Outcome.ok.inj h
    exact ⟨fun _ => rfl, rfl⟩
  | cons e log ih =>
    obtain ⟨u, hu, h⟩ := Outcome.bind_eq_ok.mp h
    obtain ⟨hreserves, hsupply⟩ := PoolEffect.apply_eq_ok hu
    obtain ⟨hreserves', hsupply'⟩ := ih h
    simp only [total_cons]
    refine ⟨fun token => ?_, by omega⟩
    have := hreserves token
    have := hreserves' token
    omega

/-! ## Reserves and their value -/

namespace Linear

/-- The value of one token at price `p`, in token A scaled by `RAY`. -/
def unitValue (p : ℕ) : PoolToken → ℕ
  | .a => ray
  | .b => p

end Linear

namespace Reserves

open Linear

/-- The exact value, in token A scaled by `RAY`. -/
def value (p : ℕ) (r : Reserves) : ℕ := r .a * ray + r .b * p

/-- The value truncated to whole units of token A, as the curve computes it. -/
def truncated (p : ℕ) (r : Reserves) : ℕ := totalValue p (r .a) (r .b)

/-- The reserves without `x` units of a token. -/
def without (r : Reserves) (token : PoolToken) (x : ℕ) : Reserves :=
  fun t => if t = token then r t - x else r t

@[simp] theorem without_self (r : Reserves) (token : PoolToken) (x : ℕ) :
    r.without token x token = r token - x := if_pos rfl

theorem without_of_ne {r : Reserves} {t token : PoolToken} {x : ℕ} (h : t ≠ token) :
    r.without token x t = r t := if_neg h

/-- The value is the value of the two sides of a trade. -/
theorem value_eq (p : ℕ) (r : Reserves) (dir : TradeDirection) :
    r.value p = r dir.source * unitValue p dir.source +
      r dir.destination * unitValue p dir.destination := by
  cases dir with
  | aToB => rfl
  | bToA => exact Nat.add_comm _ _

theorem truncated_mul_le (p : ℕ) (r : Reserves) : r.truncated p * ray ≤ r.value p := by
  have := Nat.div_mul_le_self (r .b * p) ray
  rw [truncated, totalValue, value]
  rw [Nat.add_mul]
  omega

theorem value_lt (p : ℕ) (r : Reserves) : r.value p < (r.truncated p + 1) * ray := by
  have := Nat.lt_div_mul_add (a := r .b * p) ray_pos
  rw [truncated, totalValue, value]
  rw [Nat.add_mul, Nat.add_mul]
  omega

end Reserves

namespace TradeDirection

theorem destination_ne_source (dir : TradeDirection) : dir.destination ≠ dir.source := by
  cases dir <;> decide

/-- A trade has two sides only. -/
theorem eq_destination (dir : TradeDirection) {token : PoolToken} (h : token ≠ dir.source) :
    token = dir.destination := by
  cases dir <;> cases token <;> first | rfl | exact absurd rfl h

end TradeDirection

namespace Linear

theorem givenValue_mul_le (p x : ℕ) (dir : TradeDirection) :
    givenValue p x dir * ray ≤ x * unitValue p dir.source := by
  cases dir with
  | aToB => exact le_rfl
  | bToA => exact Nat.div_mul_le_self _ _

theorem le_givenValue_succ_mul (p x : ℕ) (dir : TradeDirection) :
    x * unitValue p dir.source ≤ (givenValue p x dir + 1) * ray := by
  cases dir with
  | aToB => exact Nat.mul_le_mul_right _ (Nat.le_succ _)
  | bToA =>
    have := Nat.lt_div_mul_add (a := x * p) ray_pos
    rw [givenValue, Nat.add_mul, Nat.one_mul]
    exact this.le

theorem givenValue_mono {p x y : ℕ} (h : x ≤ y) (dir : TradeDirection) :
    givenValue p x dir ≤ givenValue p y dir := by
  cases dir with
  | aToB => exact h
  | bToA => exact Nat.div_le_div_right (Nat.mul_le_mul_right p h)

/-- One-sided reserves are worth what is on that side. -/
theorem truncated_of_one_sided {p : ℕ} {r : Reserves} {dir : TradeDirection}
    (h : r dir.destination = 0) : r.truncated p = givenValue p (r dir.source) dir := by
  cases dir with
  | aToB =>
    change r .b = 0 at h
    simp only [Reserves.truncated, totalValue, h, Nat.zero_mul, Nat.zero_div, Nat.zero_add]
    rfl
  | bToA =>
    change r .a = 0 at h
    simp only [Reserves.truncated, totalValue, h, Nat.add_zero]
    rfl

/-- What is bought is worth at most what is used of the source. -/
theorem boughtAmount_value_le (p s : ℕ) (dir : TradeDirection) :
    boughtAmount p s dir * unitValue p dir.destination ≤
      usedAmount p s dir * unitValue p dir.source := by
  cases dir with
  | aToB =>
    have hceil := (ceilDiv_le_iff_le_mul ray_pos).mp (le_refl (boughtAmount p s .aToB * p ⌈/⌉ ray))
    rw [Nat.mul_comm ray] at hceil
    exact hceil
  | bToA => exact Nat.div_mul_le_self _ _

end Linear

/-! ## Pool tokens for the owner fee -/

/-- The calls of a log mint pool tokens, or only look at an account. -/
def MintsOnly (log : List PoolEffect) : Prop :=
  ∀ e ∈ log, (∃ account amount, e = .mintTo account amount) ∨
    ∃ account, e = .unpackHostFeeAccount account

namespace MintsOnly

variable {log log' : List PoolEffect}

theorem nil : MintsOnly [] := List.forall_mem_nil _

theorem append (h : MintsOnly log) (h' : MintsOnly log') : MintsOnly (log ++ log') := by
  intro e he
  rcases List.mem_append.mp he with he | he
  · exact h e he
  · exact h' e he

theorem mintTo (account : Pubkey) (amount : U64) : MintsOnly [.mintTo account amount] :=
  List.forall_mem_singleton.mpr (Or.inl ⟨account, amount, rfl⟩)

theorem unpackHostFeeAccount (account : Pubkey) : MintsOnly [.unpackHostFeeAccount account] :=
  List.forall_mem_singleton.mpr (Or.inr ⟨account, rfl⟩)

theorem received_eq (h : MintsOnly log) (token : PoolToken) :
    total (received token) log = 0 := by
  refine total_eq_zero fun e he => ?_
  rcases h e he with ⟨_, _, rfl⟩ | ⟨_, rfl⟩ <;> rfl

theorem paid_eq (h : MintsOnly log) (token : PoolToken) : total (paid token) log = 0 := by
  refine total_eq_zero fun e he => ?_
  rcases h e he with ⟨_, _, rfl⟩ | ⟨_, rfl⟩ <;> rfl

theorem burned_eq (h : MintsOnly log) : total burned log = 0 := by
  refine total_eq_zero fun e he => ?_
  rcases h e he with ⟨_, _, rfl⟩ | ⟨_, rfl⟩ <;> rfl

end MintsOnly

/-- `minted` pool tokens for an owner fee that the reserves `r` include on the source
side: at most the share of the supply `S` that the fee is of the reserves without it. -/
structure FeeMint (p : ℕ) (dir : TradeDirection) (fee S : ℕ) (r : Reserves) (minted : ℕ) :
    Prop where
  /-- the reserve covers the fee -/
  fee_le : fee ≤ r dir.source
  /-- no fee, no pool tokens -/
  none : fee = 0 → minted = 0
  /-- the share is taken of something -/
  pos : 0 < fee → 0 < (r.without dir.source fee).truncated p
  /-- the share is rounded down -/
  le : minted * (r.without dir.source fee).truncated p ≤ S * Linear.givenValue p fee dir

/-- The pool tokens minted for an owner fee are all of its share, but for the rounding. -/
def FullFeeMint (p : ℕ) (dir : TradeDirection) (fee S : ℕ) (r : Reserves) (minted : ℕ) : Prop :=
  S * Linear.givenValue p fee dir < (minted + 1) * (r.without dir.source fee).truncated p

namespace FeeMint

variable {p S : ℕ} {dir : TradeDirection} {r : Reserves}

/-- Without a fee nothing is minted. -/
theorem zero : FeeMint p dir 0 S r 0 where
  fee_le := Nat.zero_le _
  none _ := rfl
  pos h := absurd h (lt_irrefl 0)
  le := by
    rw [Nat.zero_mul]
    exact Nat.zero_le _

/-- What a linear curve mints for a single-sided deposit of the fee. -/
theorem of_deposit [SplMath] {calculator : Calculator} (hlin : calculator.IsLinear)
    {ts : Option U128} {fee a b supply pool : U128} {minted : ℕ} (hpos : 0 < fee.toNat)
    (hfee : fee.toNat ≤ r dir.source) (ha : a.toNat = r.without dir.source fee.toNat .a)
    (hb : b.toNat = r.without dir.source fee.toNat .b)
    (h : calculator.depositSingleTokenType fee a b supply dir ts = .ok pool)
    (hminted : minted ≤ pool.toNat) :
    ∃ p, calculator.tokenBPrice ts = .ok p ∧
      FeeMint p.toNat dir fee.toNat supply.toNat r minted ∧
      (minted = pool.toNat → FullFeeMint p.toNat dir fee.toNat supply.toNat r minted) := by
  rw [hlin.depositSingleTokenType] at h
  obtain ⟨p, hp, h⟩ := Outcome.bind_eq_ok.mp h
  obtain ⟨htotal, hpool⟩ := Linear.tradingTokensToPoolTokens_spec h
  rw [ha, hb] at htotal hpool
  change pool.toNat = supply.toNat * Linear.givenValue p.toNat fee.toNat dir /
    (r.without dir.source fee.toNat).truncated p.toNat at hpool
  refine ⟨p, hp, ⟨hfee, fun h0 => absurd h0 hpos.ne', fun _ => htotal, ?_⟩, ?_⟩
  · calc minted * (r.without dir.source fee.toNat).truncated p.toNat
        ≤ pool.toNat * (r.without dir.source fee.toNat).truncated p.toNat :=
          Nat.mul_le_mul_right _ hminted
      _ ≤ supply.toNat * Linear.givenValue p.toNat fee.toNat dir := by
          rw [hpool]
          exact Nat.div_mul_le_self _ _
  · intro hfull
    rw [FullFeeMint, hfull, hpool, Nat.add_mul, Nat.one_mul]
    exact Nat.lt_div_mul_add htotal

/-- The price is the same one everywhere in a trade. -/
theorem of_price [SplMath] {calculator : Calculator} {ts : Option U128} {price : U256}
    {fee minted : ℕ} (hprice : calculator.tokenBPrice ts = .ok price)
    (h : (fee = 0 ∧ minted = 0) ∨ ∃ p, calculator.tokenBPrice ts = .ok p ∧
      FeeMint p.toNat dir fee S r minted) : FeeMint price.toNat dir fee S r minted := by
  rcases h with ⟨rfl, rfl⟩ | ⟨p, hp, hmint⟩
  · exact zero
  · obtain rfl := Outcome.ok.inj (hp.symm.trans hprice)
    exact hmint

end FeeMint

namespace Amounts

open Script

variable {fees : Fees} {accounts : FeeAccounts} {log : List PoolEffect}

/-- The host's part and the rest make up the amount. -/
theorem mintHostFee_returns {host : Option Pubkey} {amount rest : U128}
    (h : (mintHostFee fees host amount).Returns log rest) :
    MintsOnly log ∧ total minted log + rest.toNat = amount.toNat := by
  cases host with
  | none =>
    obtain ⟨rfl, rfl⟩ := returns_pure.mp h
    exact ⟨MintsOnly.nil, Nat.zero_add _⟩
  | some host =>
    simp only [mintHostFee, returns_emit_bind, returns_require_bind] at h
    obtain ⟨log, ⟨hostFee, -, h⟩, rfl⟩ := h
    split at h
    · simp only [returns_require_bind, returns_lift_bind, returns_emit_bind, returns_pure,
        BitVec.checkedSub_eq_some, toU64_eq_ok] at h
      obtain ⟨rest, ⟨hle, hrest⟩, fee, hfee, _, ⟨rfl, rfl⟩, rfl⟩ := h
      refine ⟨(MintsOnly.unpackHostFeeAccount host).append (MintsOnly.mintTo host fee), ?_⟩
      simp only [total_cons, total_nil, minted]
      omega
    · obtain ⟨rfl, rfl⟩ := returns_pure.mp h
      exact ⟨MintsOnly.unpackHostFeeAccount host, Nat.zero_add _⟩

/-- The pool's part is at most the amount, and all of it as long as there is an account to
mint to. -/
theorem mintPoolFee_spec {amount : U128} {u : Unit}
    (h : (mintPoolFee accounts amount).Returns log u) :
    MintsOnly log ∧ total minted log ≤ amount.toNat ∧
      (accounts.poolFeeOk = true → total minted log = amount.toNat) := by
  rw [mintPoolFee] at h
  split at h
  · simp only [returns_lift_bind, returns_emit, toU64_eq_ok] at h
    obtain ⟨x, hx, rfl⟩ := h
    exact ⟨MintsOnly.mintTo _ _, hx.le, fun _ => hx⟩
  · rename_i hok
    obtain ⟨rfl, -⟩ := returns_pure.mp h
    exact ⟨MintsOnly.nil, Nat.zero_le _, fun h => absurd h hok⟩

/-- The pool's part is at most the amount. -/
theorem mintPoolFee_returns {amount : U128} {u : Unit}
    (h : (mintPoolFee accounts amount).Returns log u) :
    MintsOnly log ∧ total minted log ≤ amount.toNat :=
  (mintPoolFee_spec h).imp_right And.left

/-- Both parts together are at most the amount. -/
theorem mintFees_returns {amount : U128} {u : Unit} {next : U128 → TradeScript Unit}
    (hnext : ∀ {amount log}, (next amount).Returns log u →
      MintsOnly log ∧ total minted log ≤ amount.toNat)
    (h : (mintHostFee fees accounts.host amount >>= next).Returns log u) :
    MintsOnly log ∧ total minted log ≤ amount.toNat := by
  obtain ⟨rest, log₁, log₂, h₁, h₂, rfl⟩ := returns_bind.mp h
  obtain ⟨hlog₁, hsum₁⟩ := mintHostFee_returns h₁
  obtain ⟨hlog₂, hsum₂⟩ := hnext h₂
  rw [total_append]
  exact ⟨hlog₁.append hlog₂, by omega⟩

/-- Both parts together are the amount, as long as there is an account to mint to. -/
theorem mintFees_full {amount : U128} {u : Unit} (hok : accounts.poolFeeOk = true)
    (h : (mintHostFee fees accounts.host amount >>= mintPoolFee accounts).Returns log u) :
    total minted log = amount.toNat := by
  obtain ⟨rest, log₁, log₂, h₁, h₂, rfl⟩ := returns_bind.mp h
  have hhost := (mintHostFee_returns h₁).2
  have hpool := (mintPoolFee_spec h₂).2.2 hok
  rw [total_append, hpool, hhost]

/-- The pool's part, when something is left of the amount. -/
theorem mintPoolFee_positive_returns {amount : U128} {u : Unit}
    (h : (if 0#128 < amount then mintPoolFee accounts amount else return ()).Returns log u) :
    MintsOnly log ∧ total minted log ≤ amount.toNat := by
  split at h
  · exact mintPoolFee_returns h
  · obtain ⟨rfl, -⟩ := returns_pure.mp h
    exact ⟨MintsOnly.nil, Nat.zero_le _⟩

/-- The reserves after a change on the source side, without the owner fee. -/
theorem adjustReserves_returns {balances : Balances} {dir : TradeDirection}
    {change : U128 → Option U128} {ownerFee : U128} {ab : U128 × U128}
    (h : (adjustReserves balances dir change ownerFee).Returns log ab) :
    log = [] ∧ ∃ c, change ((balances.reserve dir.source).widen 128) = some c ∧
      ownerFee.toNat ≤ c.toNat ∧ ∀ r : Reserves, r dir.source = c.toNat →
        r dir.destination = balances.reserves dir.destination →
        ab.1.toNat = r.without dir.source ownerFee.toNat .a ∧
        ab.2.toNat = r.without dir.source ownerFee.toNat .b := by
  cases dir with
  | aToB =>
    simp only [adjustReserves, returns_require_bind, returns_pure, BitVec.checkedSub_eq_some] at h
    obtain ⟨c, hc, a, ⟨hle, ha⟩, rfl, rfl⟩ := h
    refine ⟨rfl, c, hc, hle, fun r hsource hdestination => ⟨?_, ?_⟩⟩
    · rw [ha, ← hsource]
      rfl
    · exact (U64.toNat_widen _).trans hdestination.symm
  | bToA =>
    simp only [adjustReserves, returns_require_bind, returns_pure, BitVec.checkedSub_eq_some] at h
    obtain ⟨c, hc, b, ⟨hle, hb⟩, rfl, rfl⟩ := h
    refine ⟨rfl, c, hc, hle, fun r hsource hdestination => ⟨?_, ?_⟩⟩
    · exact (U64.toNat_widen _).trans hdestination.symm
    · rw [hb, ← hsource]
      rfl

/-- The withdraw fee is computed without calls, and nothing is charged for nothing. -/
theorem withdrawFee_returns {source : Pubkey} {x fee : U128}
    (h : (withdrawFee fees accounts source x).Returns log fee) :
    log = [] ∧ (x.toNat = 0 → fee.toNat = 0) := by
  rw [withdrawFee] at h
  split at h
  · split at h
    · obtain ⟨rfl, rfl⟩ := returns_pure.mp h
      exact ⟨rfl, fun _ => rfl⟩
    · obtain ⟨rfl, hfee⟩ := returns_lift.mp h
      refine ⟨rfl, fun hx => ?_⟩
      rw [Fees.ownerWithdrawFee_eq_some (Outcome.ofOption_eq_ok.mp hfee), hx, feeOf_zero_right]
  · obtain ⟨rfl, rfl⟩ := returns_pure.mp h
    exact ⟨rfl, fun _ => rfl⟩

/-- A payment of a two-sided withdrawal. -/
theorem payOutPositive_returns {token : PoolToken} {amount : U64}
    (h : (payOutPositive token amount).Returns log ()) :
    (∀ t, total (received t) log = 0) ∧
    (∀ t, total (paid t) log = if token = t then amount.toNat else 0) ∧
    total minted log = 0 ∧ total burned log = 0 := by
  rw [payOutPositive] at h
  split at h
  · obtain rfl := returns_emit.mp h
    exact ⟨fun _ => rfl, fun _ => Nat.add_zero _, rfl, rfl⟩
  · rename_i hzero
    obtain ⟨rfl, -⟩ := returns_pure.mp h
    have hamount : amount.toNat = 0 := Nat.eq_zero_of_not_pos hzero
    refine ⟨fun _ => rfl, fun t => ?_, rfl, rfl⟩
    rw [hamount, ite_self]
    rfl

/-- The withdraw fee moves pool tokens between accounts only. -/
theorem payWithdrawFee_returns {source : Pubkey} {fee : U128}
    (h : (payWithdrawFee accounts source fee).Returns log ()) :
    (∀ t, total (received t) log = 0) ∧ (∀ t, total (paid t) log = 0) ∧
    total minted log = 0 ∧ total burned log = 0 := by
  rw [payWithdrawFee] at h
  split at h
  · simp only [returns_lift_bind, returns_emit] at h
    obtain ⟨x, -, rfl⟩ := h
    exact ⟨fun _ => rfl, fun _ => rfl, rfl, rfl⟩
  · obtain ⟨rfl, -⟩ := returns_pure.mp h
    exact ⟨fun _ => rfl, fun _ => rfl, rfl, rfl⟩

section Linear

variable [SplMath] {curve : SwapCurve} {ts : Option U128} {balances s' : Balances}
  {dir : TradeDirection}

/-- Pool tokens for the owner fee of a swap; `r` are the reserves after it. -/
theorem mintSwapOwnerFee_returns (hlin : curve.calculator.IsLinear) {result : SwapResult}
    (h : (mintSwapOwnerFee curve fees ts balances accounts dir result).Returns log ()) :
    MintsOnly log ∧ ∀ r : Reserves, r dir.source = result.newSwapSourceAmount.toNat →
      r dir.destination = result.newSwapDestinationAmount.toNat →
      (result.ownerFee.toNat = 0 ∧ total minted log = 0) ∨
        ∃ p, curve.calculator.tokenBPrice ts = .ok p ∧
          FeeMint p.toNat dir result.ownerFee.toNat balances.supply.toNat r
            (total minted log) := by
  simp only [mintSwapOwnerFee] at h
  by_cases hpos : 0#128 < result.ownerFee
  · have hpos' : 0 < result.ownerFee.toNat := hpos
    -- the fee comes off the source side, whichever token that is
    obtain ⟨a, b, hab, h⟩ : ∃ a b : U128, (∀ r : Reserves,
        r dir.source = result.newSwapSourceAmount.toNat →
        r dir.destination = result.newSwapDestinationAmount.toNat →
        result.ownerFee.toNat ≤ r dir.source ∧
        a.toNat = r.without dir.source result.ownerFee.toNat .a ∧
        b.toNat = r.without dir.source result.ownerFee.toNat .b) ∧
        (do
          let amount ← compute (curve.calculator.depositSingleTokenType result.ownerFee a b
            (balances.supply.widen 128) dir ts) .feeCalculationFailure
          if 0#128 < amount then do
            let amount ← mintHostFee fees accounts.host amount
            if 0#128 < amount then mintPoolFee accounts amount else return ()
          else return () : TradeScript Unit).Returns log () := by
      cases dir with
      | aToB =>
        simp only [if_pos hpos, bind_assoc, pure_bind, returns_require_bind,
          BitVec.checkedSub_eq_some] at h
        obtain ⟨a, ⟨hle, ha⟩, h⟩ := h
        refine ⟨a, _, fun r hsource hdestination => ?_, h⟩
        rw [← hsource] at hle ha
        exact ⟨hle, ha, hdestination.symm⟩
      | bToA =>
        simp only [if_pos hpos, bind_assoc, pure_bind, returns_require_bind,
          BitVec.checkedSub_eq_some] at h
        obtain ⟨b, ⟨hle, hb⟩, h⟩ := h
        refine ⟨_, b, fun r hsource hdestination => ?_, h⟩
        rw [← hsource] at hle hb
        exact ⟨hle, hdestination.symm, hb⟩
    rw [returns_compute_bind] at h
    obtain ⟨pool, hpool, h⟩ := h
    obtain ⟨hlog, hminted⟩ : MintsOnly log ∧ total minted log ≤ pool.toNat := by
      split at h
      · exact mintFees_returns mintPoolFee_positive_returns h
      · obtain ⟨rfl, -⟩ := returns_pure.mp h
        exact ⟨MintsOnly.nil, Nat.zero_le _⟩
    refine ⟨hlog, fun r hsource hdestination => Or.inr ?_⟩
    obtain ⟨hfee, ha, hb⟩ := hab r hsource hdestination
    obtain ⟨p, hp, hmint, -⟩ := FeeMint.of_deposit hlin hpos' hfee ha hb hpool hminted
    rw [U64.toNat_widen] at hmint
    exact ⟨p, hp, hmint⟩
  · have hzero : result.ownerFee.toNat = 0 := Nat.eq_zero_of_not_pos hpos
    have hnil : log = [] := by
      cases dir <;> simpa only [if_neg hpos, returns_pure, and_true] using h
    rw [hnil]
    exact ⟨MintsOnly.nil, fun _ _ _ => Or.inl ⟨hzero, rfl⟩⟩

/-- Pool tokens for the owner fee of a single-sided deposit of `x` for `m` pool tokens;
`r` are the reserves after the deposit. -/
theorem mintDepositOwnerFee_returns (hlin : curve.calculator.IsLinear) {x m : U64}
    {ownerFee : U128}
    (h : (mintDepositOwnerFee curve fees ts balances accounts dir x m ownerFee).Returns log ()) :
    MintsOnly log ∧ ∀ r : Reserves, r dir.source = balances.reserves dir.source + x.toNat →
      r dir.destination = balances.reserves dir.destination →
      (ownerFee.toNat = 0 ∧ total minted log = 0) ∨
        ∃ p, curve.calculator.tokenBPrice ts = .ok p ∧
          FeeMint p.toNat dir ownerFee.toNat (balances.supply.toNat + m.toNat) r
            (total minted log) := by
  rw [mintDepositOwnerFee] at h
  split at h
  · rename_i hpos
    obtain ⟨⟨a, b⟩, log₁, log₂, hadjust, hmints, rfl⟩ := returns_bind.mp h
    obtain ⟨rfl, c, hc, hfee, hab⟩ := adjustReserves_returns hadjust
    rw [BitVec.checkedAdd_eq_some, U64.toNat_widen,
      U64.toNat_widen] at hc
    simp only [returns_require_bind, returns_compute_bind, BitVec.checkedAdd_eq_some] at hmints
    obtain ⟨supply, hsupply, pool, hpool, hmints⟩ := hmints
    rw [U64.toNat_widen, U64.toNat_widen] at hsupply
    obtain ⟨hlog, hminted⟩ : MintsOnly log₂ ∧ total minted log₂ ≤ pool.toNat := by
      split at hmints
      · exact mintFees_returns mintPoolFee_positive_returns hmints
      · obtain ⟨rfl, -⟩ := returns_pure.mp hmints
        exact ⟨MintsOnly.nil, Nat.zero_le _⟩
    refine ⟨hlog, fun r hsource hdestination => Or.inr ?_⟩
    have hr : r dir.source = c.toNat := hsource.trans hc.symm
    obtain ⟨ha, hb⟩ := hab r hr hdestination
    obtain ⟨p, hp, hmint, -⟩ :=
      FeeMint.of_deposit hlin hpos (hfee.trans hr.ge) ha hb hpool hminted
    rw [hsupply] at hmint
    exact ⟨p, hp, hmint⟩
  · rename_i hpos
    obtain ⟨rfl, -⟩ := returns_pure.mp h
    exact ⟨MintsOnly.nil, fun _ _ _ => Or.inl ⟨Nat.eq_zero_of_not_pos hpos, rfl⟩⟩

/-- Pool tokens for the owner fee of a withdrawal of `x` that burns `burn`; `r` are the
reserves after the withdrawal. -/
theorem mintWithdrawOwnerFee_returns (hlin : curve.calculator.IsLinear) {x : U64}
    {burn ownerFee : U128}
    (h : (mintWithdrawOwnerFee curve fees ts balances accounts dir x burn ownerFee).Returns
      log ()) :
    MintsOnly log ∧ (0 < ownerFee.toNat → burn.toNat ≤ balances.supply.toNat) ∧
      ∀ r : Reserves, r dir.source + x.toNat = balances.reserves dir.source →
        r dir.destination = balances.reserves dir.destination →
        (ownerFee.toNat = 0 ∧ total minted log = 0) ∨
          ∃ p, curve.calculator.tokenBPrice ts = .ok p ∧
            FeeMint p.toNat dir ownerFee.toNat (balances.supply.toNat - burn.toNat) r
              (total minted log) ∧
            (accounts.poolFeeOk = true → FullFeeMint p.toNat dir ownerFee.toNat
              (balances.supply.toNat - burn.toNat) r (total minted log)) := by
  rw [mintWithdrawOwnerFee] at h
  split at h
  · rename_i hpos
    obtain ⟨⟨a, b⟩, log₁, log₂, hadjust, hmints, rfl⟩ := returns_bind.mp h
    obtain ⟨rfl, c, hc, hfee, hab⟩ := adjustReserves_returns hadjust
    rw [BitVec.checkedSub_eq_some, U64.toNat_widen,
      U64.toNat_widen, Balances.toNat_reserve] at hc
    simp only [returns_require_bind, returns_compute_bind, BitVec.checkedSub_eq_some] at hmints
    obtain ⟨supply, hsupply, pool, hpool, hmints⟩ := hmints
    rw [U64.toNat_widen] at hsupply
    obtain ⟨hlog, hminted, hfull⟩ : MintsOnly log₂ ∧ total minted log₂ ≤ pool.toNat ∧
        (accounts.poolFeeOk = true → total minted log₂ = pool.toNat) := by
      split at hmints
      · obtain ⟨hlog, hminted⟩ := mintFees_returns mintPoolFee_returns hmints
        exact ⟨hlog, hminted, fun hok => mintFees_full hok hmints⟩
      · rename_i hnone
        obtain ⟨rfl, -⟩ := returns_pure.mp hmints
        exact ⟨MintsOnly.nil, Nat.zero_le _, fun _ => (Nat.eq_zero_of_not_pos hnone).symm⟩
    refine ⟨hlog, fun _ => hsupply.1, fun r hsource hdestination => Or.inr ?_⟩
    have hr : r dir.source = c.toNat := by omega
    obtain ⟨ha, hb⟩ := hab r hr hdestination
    obtain ⟨p, hp, hmint, hwhole⟩ :=
      FeeMint.of_deposit hlin hpos (hfee.trans hr.ge) ha hb hpool hminted
    rw [hsupply.2] at hmint hwhole
    exact ⟨p, hp, hmint, fun hok => hwhole (hfull hok)⟩
  · rename_i hpos
    obtain ⟨rfl, -⟩ := returns_pure.mp h
    exact ⟨MintsOnly.nil, fun h => absurd h hpos,
      fun _ _ _ => Or.inl ⟨Nat.eq_zero_of_not_pos hpos, rfl⟩⟩

end Linear

end Amounts

/-! ## The trades in numbers -/

open Linear

/-- A swap: `paid` comes in, `got` goes out, and `fee` is the owner's part of `paid`. -/
structure Swapped (p : ℕ) (dir : TradeDirection) (s s' : Balances) (paid got fee minted : ℕ) :
    Prop where
  /-- the source side -/
  source : s'.reserves dir.source = s.reserves dir.source + paid
  /-- the destination side -/
  destination : s'.reserves dir.destination + got = s.reserves dir.destination
  /-- the supply -/
  supply : s'.supply.toNat = s.supply.toNat + minted
  /-- a swap is never free -/
  paid_pos : 0 < paid
  /-- the fee is part of what is paid -/
  fee_le : fee ≤ paid
  /-- the rest of it is worth at least what is bought -/
  worth : got * unitValue p dir.destination ≤ (paid - fee) * unitValue p dir.source
  /-- pool tokens for the fee -/
  mint : FeeMint p dir fee s.supply.toNat s'.reserves minted

/-- A two-sided deposit of `x` for `t` pool tokens. -/
structure DepositedAll (s s' : Balances) (t : ℕ) (x : Reserves) : Prop where
  /-- both sides -/
  reserves : ∀ token, s'.reserves token = s.reserves token + x token
  /-- the supply -/
  supply : s'.supply.toNat = s.supply.toNat + t
  /-- at least the share that `t` is of the supply -/
  share : ∀ token, t * s.reserves token ≤ x token * s.supply.toNat

/-- A two-sided withdrawal of `x` for `t` pool tokens. -/
structure WithdrewAll (s s' : Balances) (t : ℕ) (x : Reserves) : Prop where
  /-- both sides -/
  reserves : ∀ token, s'.reserves token + x token = s.reserves token
  /-- the supply -/
  supply : s'.supply.toNat + t = s.supply.toNat
  /-- at most the share that `t` is of the supply -/
  share : ∀ token, x token * s.supply.toNat ≤ t * s.reserves token

/-- A single-sided deposit of `x` for `m` pool tokens; the depositor is credited for
`net`, the owner for `fee`. -/
structure DepositedSingle (p : ℕ) (dir : TradeDirection) (s s' : Balances)
    (x net fee m minted : ℕ) : Prop where
  /-- the source side -/
  source : s'.reserves dir.source = s.reserves dir.source + x
  /-- the other side -/
  destination : s'.reserves dir.destination = s.reserves dir.destination
  /-- the supply -/
  supply : s'.supply.toNat = s.supply.toNat + m + minted
  /-- the credits are covered -/
  covers : net + fee ≤ x
  /-- the share is rounded down -/
  share : m * s.reserves.truncated p ≤ s.supply.toNat * givenValue p net dir
  /-- pool tokens for the fee -/
  mint : FeeMint p dir fee (s.supply.toNat + m) s'.reserves minted

/-- A single-sided withdrawal of `x` that burns `burn` pool tokens; the withdrawer is
charged for `adjusted`, and the owner credited for `fee`. -/
structure WithdrewSingle (p : ℕ) (dir : TradeDirection) (s s' : Balances)
    (x adjusted fee burn minted : ℕ) : Prop where
  /-- the source side -/
  source : s'.reserves dir.source + x = s.reserves dir.source
  /-- the other side -/
  destination : s'.reserves dir.destination = s.reserves dir.destination
  /-- the supply -/
  supply : s'.supply.toNat + burn = s.supply.toNat + minted
  /-- only existing pool tokens are burned -/
  burn_le : burn ≤ s.supply.toNat
  /-- the charge covers both -/
  covers : x + fee ≤ adjusted
  /-- there is something to withdraw from -/
  total_pos : 0 < s.reserves.truncated p
  /-- the share is rounded up -/
  share : s.supply.toNat * givenValue p adjusted dir ≤ burn * s.reserves.truncated p
  /-- by less than one pool token -/
  share_lt : burn * s.reserves.truncated p <
    s.supply.toNat * givenValue p adjusted dir + s.reserves.truncated p
  /-- pool tokens for the fee -/
  mint : FeeMint p dir fee (s.supply.toNat - burn) s'.reserves minted

namespace Fees

/-- The amount a withdrawer of `x` is charged for: the inverse fee on half of it added. -/
def adjustedAmount (fees : Fees) (x : ℕ) : ℕ := x - (x + 1) / 2 + fees.preFee ((x + 1) / 2)

/-- The owner fee of a withdrawal of `x`. -/
def adjustedOwnerFee (fees : Fees) (x : ℕ) : ℕ := fees.ownerFee (fees.preFee ((x + 1) / 2))

/-- The charge covers what is withdrawn and the owner fee. -/
theorem Valid.add_adjustedOwnerFee_le {fees : Fees} (hv : fees.Valid) {x : ℕ} (hx : 0 < x)
    (hfrac : fees.combinedFraction.1 = 0 ∨ fees.combinedFraction.2 = 0 ∨
      fees.combinedFraction.1 < fees.combinedFraction.2) :
    x + fees.adjustedOwnerFee x ≤ fees.adjustedAmount x := by
  have := hv.add_ownerFee_preFee_le (x := (x + 1) / 2) (by omega) hfrac
  rw [adjustedOwnerFee, adjustedAmount]
  omega

end Fees

namespace Amounts

open Script

section Trades

variable [SplMath] {curve : SwapCurve} {fees : Fees} {ts : Option U128}
  {accounts : FeeAccounts} {log : List PoolEffect} {s s' : Balances} {dir : TradeDirection}

/-- A successful swap. -/
theorem swap_moves (hlin : curve.calculator.IsLinear) {instruction : Swap}
    (h : (swap curve fees ts s accounts dir instruction).Returns log ())
    (hlog : performAll PoolEffect.apply log s = .ok s') :
    ∃ p, curve.calculator.tokenBPrice ts = .ok p ∧
      ∃ paid got fee minted, Swapped p.toNat dir s s' paid got fee minted := by
  simp only [swap, returns_compute_bind, returns_lift_bind, returns_emit_bind,
    returns_reject_bind, toU64_eq_ok] at h
  obtain ⟨r, hr, x, hx, log₁, ⟨log₂, ⟨y, hy, -, log₃, htail, rfl⟩, rfl⟩, rfl⟩ := h
  obtain ⟨_, log₄, log₅, hmints, hout, rfl⟩ := returns_bind.mp htail
  obtain rfl := returns_emit.mp hout
  obtain ⟨net, w, base, hw, hcharged, hdst, hsource, hle, hdestination⟩ := SwapCurve.swap_eq_ok hr
  rw [hlin.swapWithoutFees] at hw
  obtain ⟨p, hp, hw⟩ := Outcome.bind_eq_ok.mp hw
  obtain ⟨hused, hbought, -, hpos, -⟩ := swapWithoutFees_spec hw
  rw [U64.toNat_widen, Balances.toNat_reserve] at hsource hle hdestination
  have hpaid := hcharged.source
  have hfee := hcharged.ownerFee
  obtain ⟨hlog₄, hmint⟩ := mintSwapOwnerFee_returns hlin hmints
  -- the reserves after the log are the ones the curve announces
  obtain ⟨hreserves, hsupply⟩ := performAll_apply hlog
  have hsrc := hreserves dir.source
  have hdest := hreserves dir.destination
  simp only [total_cons, total_append, total_nil, received, paid, minted, burned,
    hlog₄.received_eq, hlog₄.paid_eq, hlog₄.burned_eq, if_neg dir.destination_ne_source,
    if_neg dir.destination_ne_source.symm, if_true, Nat.zero_add, Nat.add_zero]
    at hsrc hdest hsupply
  have hmint := FeeMint.of_price hp (hmint s'.reserves (by omega) (by omega))
  refine ⟨p, hp, x.toNat, y.toNat, r.ownerFee.toNat, total minted log₄,
    hsrc, hdest, hsupply, by omega, by omega, ?_, hmint⟩
  have hworth := boughtAmount_value_le p.toNat net.toNat dir
  rw [← hused, ← hbought, ← hdst, ← hy] at hworth
  exact hworth.trans (Nat.mul_le_mul_right _ (by omega))

/-- Inversion of a two-sided deposit: the share of both reserves, rounded up. The
constant-product curve leaves a share worth less than one token at zero, and the processor
rejects it. -/
theorem depositAllTokenTypes_returns (hdeposits : curve.calculator.allowsDeposits = true)
    (htype : curve.calculator = .constantProduct → curve.curveType = .constantProduct)
    {destination : Pubkey} {instruction : DepositAllTokenTypes}
    (h : (depositAllTokenTypes curve s destination instruction).Returns log ()) :
    0 < s.supply.toNat ∧ (∀ token, total (paid token) log = 0) ∧
    total minted log = instruction.poolTokenAmount.toNat ∧ total burned log = 0 ∧
    ∀ token, total (received token) log =
      shareOf (total minted log) s.supply.toNat (s.reserves token) .ceiling := by
  simp only [depositAllTokenTypes, returns_compute_bind, returns_lift_bind, returns_emit_bind,
    returns_reject_bind, returns_emit, toU64_eq_ok] at h
  obtain ⟨r, hr, xa, hxa, -, xb, hxb, -, hzero, _, ⟨_, rfl, rfl⟩, rfl⟩ := h
  obtain ⟨hpos, ha, hb⟩ := Calculator.poolTokensToTradingTokens_spec hdeposits hr
  rw [← hxa] at ha
  rw [← hxb] at hb
  simp only [U64.toNat_widen] at hpos ha hb
  refine ⟨hpos, fun _ => rfl, ?_, rfl, fun token => ?_⟩
  · simp only [total_cons, total_nil, minted, Nat.zero_add, Nat.add_zero]
  simp only [total_cons, total_nil, received, minted, Nat.zero_add, Nat.add_zero]
  cases token with
  | a =>
    rcases ha with ha | ⟨hproduct, -, -, ha⟩
    · rw [if_pos rfl, if_neg (by decide), ha]
      rfl
    · exact absurd ⟨htype hproduct, Or.inl (BitVec.eq_of_toNat_eq ha)⟩ hzero
  | b =>
    rcases hb with hb | ⟨hproduct, -, -, hb⟩
    · rw [if_neg (by decide), if_pos rfl, hb, Nat.zero_add]
      rfl
    · exact absurd ⟨htype hproduct, Or.inr (BitVec.eq_of_toNat_eq hb)⟩ hzero

/-- Inversion of a two-sided withdrawal on any curve: the withdraw fee is taken off the pool
tokens given, the rest is burned, and what the curve computes for the rest is paid out, capped by
the reserves. -/
theorem withdrawAllTokenTypes_log {source : Pubkey} {instruction : WithdrawAllTokenTypes}
    (h : (withdrawAllTokenTypes curve fees s accounts source instruction).Returns log ()) :
    ∃ fee burn r,
      (withdrawFee fees accounts source (instruction.poolTokenAmount.widen 128)).Returns [] fee ∧
      total burned log + fee.toNat = instruction.poolTokenAmount.toNat ∧
      burn.toNat = total burned log ∧
      curve.calculator.poolTokensToTradingTokens burn (s.supply.widen 128) (s.tokenA.widen 128)
        (s.tokenB.widen 128) .floor = .ok r ∧
      (∀ token, total (received token) log = 0) ∧ total minted log = 0 ∧
      total (paid .a) log = min (s.reserves .a) r.tokenAAmount.toNat ∧
      total (paid .b) log = min (s.reserves .b) r.tokenBAmount.toNat := by
  rw [withdrawAllTokenTypes] at h
  obtain ⟨fee, log₀, log, hfee, hrest, rfl⟩ := returns_bind.mp h
  obtain ⟨rfl, -⟩ := withdrawFee_returns hfee
  simp only [returns_require_bind, returns_compute_bind, returns_lift_bind, returns_reject_bind,
    toU64_eq_ok, BitVec.checkedSub_eq_some, U64.toNat_widen] at hrest
  obtain ⟨t, ⟨hle, ht⟩, r, hr, xa, hxa, -, xb, hxb, -, -, -, htail⟩ := hrest
  obtain ⟨_, log₁, log₂, hpay, hburn, rfl⟩ := returns_bind.mp htail
  simp only [returns_lift_bind, returns_emit_bind, toU64_eq_ok] at hburn
  obtain ⟨burn, hburn, log₃, houts, rfl⟩ := hburn
  obtain ⟨_, logA, logB, houtA, houtB, rfl⟩ := returns_bind.mp houts
  obtain ⟨hrec, hpaid, hmint, hburned⟩ := payWithdrawFee_returns hpay
  obtain ⟨hrecA, hpaidA, hmintA, hburnA⟩ := payOutPositive_returns houtA
  obtain ⟨hrecB, hpaidB, hmintB, hburnB⟩ := payOutPositive_returns houtB
  refine ⟨fee, t, r, hfee, ?_⟩
  simp only [List.nil_append, total_cons, total_append, hrec, hpaid, hmint, hburned, hrecA,
    hpaidA, hmintA, hburnA, hrecB, hpaidB, hmintB, hburnB, received, paid, minted, burned, hburn,
    Nat.zero_add, Nat.add_zero, BitVec.toNat_minimum, implies_true, true_and, if_true,
    reduceCtorEq, if_false, ← hxa, ← hxb]
  exact ⟨by omega, hr, rfl, rfl⟩

/-- A two-sided withdrawal on a curve that takes deposits: the truncated share of both reserves,
capped by them, for the pool tokens that are burned, which are those given but for the fee. -/
theorem withdrawAllTokenTypes_returns (hdeposits : curve.calculator.allowsDeposits = true)
    {source : Pubkey} {instruction : WithdrawAllTokenTypes}
    (h : (withdrawAllTokenTypes curve fees s accounts source instruction).Returns log ()) :
    (∃ fee,
      (withdrawFee fees accounts source (instruction.poolTokenAmount.widen 128)).Returns [] fee ∧
      total burned log + fee.toNat = instruction.poolTokenAmount.toNat) ∧
    (∀ token, total (received token) log = 0) ∧ total minted log = 0 ∧
    ∀ token, total (paid token) log = min (s.reserves token)
      (shareOf (total burned log) s.supply.toNat (s.reserves token) .floor) := by
  obtain ⟨fee, burn, r, hfee, hgiven, hburn, hr, hreceived, hminted, hpaidA, hpaidB⟩ :=
    withdrawAllTokenTypes_log h
  obtain ⟨-, ha, hb⟩ := Calculator.poolTokensToTradingTokens_spec hdeposits hr
  simp only [Calculator.IsTwoSidedShare, reduceCtorEq, false_and, and_false, or_false,
    U64.toNat_widen, hburn] at ha hb
  refine ⟨⟨fee, hfee, hgiven⟩, hreceived, hminted, fun token => ?_⟩
  cases token with
  | a => rw [hpaidA, ha]; rfl
  | b => rw [hpaidB, hb]; rfl

/-- A successful two-sided deposit. -/
theorem depositAllTokenTypes_moves (hlin : curve.calculator.IsLinear) {destination : Pubkey}
    {instruction : DepositAllTokenTypes}
    (h : (depositAllTokenTypes curve s destination instruction).Returns log ())
    (hlog : performAll PoolEffect.apply log s = .ok s') :
    ∃ x, DepositedAll s s' instruction.poolTokenAmount.toNat x := by
  obtain ⟨hpos, hpaid, hminted, hburned, hreceived⟩ := depositAllTokenTypes_returns
    hlin.allowsDeposits (fun hproduct => by rw [hproduct] at hlin; exact hlin.elim) h
  obtain ⟨hreserves, hsupply⟩ := performAll_apply hlog
  simp only [hpaid, Nat.add_zero] at hreserves
  rw [hminted, hburned, Nat.add_zero] at hsupply
  rw [hminted] at hreceived
  refine ⟨fun token => total (received token) log, hreserves, hsupply, fun token => ?_⟩
  have hceil := (ceilDiv_le_iff_le_mul hpos).mp (hreceived token).ge
  rwa [Nat.mul_comm s.supply.toNat] at hceil

/-- A successful two-sided withdrawal. -/
theorem withdrawAllTokenTypes_moves (hlin : curve.calculator.IsLinear) {source : Pubkey}
    {instruction : WithdrawAllTokenTypes}
    (h : (withdrawAllTokenTypes curve fees s accounts source instruction).Returns log ())
    (hlog : performAll PoolEffect.apply log s = .ok s') : ∃ t x, WithdrewAll s s' t x := by
  obtain ⟨-, hreceived, hminted, hpaid⟩ := withdrawAllTokenTypes_returns hlin.allowsDeposits h
  obtain ⟨hreserves, hsupply⟩ := performAll_apply hlog
  simp only [hreceived, Nat.add_zero] at hreserves
  rw [hminted, Nat.add_zero] at hsupply
  refine ⟨total burned log, fun token => total (paid token) log, hreserves, hsupply,
    fun token => ?_⟩
  -- the payments are capped by the reserves, which only makes them smaller
  rw [hpaid]
  exact (Nat.mul_le_mul_right _ (min_le_right _ _)).trans (Nat.div_mul_le_self _ _)

/-- A successful single-sided deposit. -/
theorem depositSingleTokenTypeExactAmountIn_moves (hlin : curve.calculator.IsLinear)
    {destination : Pubkey} {instruction : DepositSingleTokenTypeExactAmountIn}
    (h : (depositSingleTokenTypeExactAmountIn curve fees ts s accounts dir destination
      instruction).Returns log ())
    (hlog : performAll PoolEffect.apply log s = .ok s') :
    ∃ p, curve.calculator.tokenBPrice ts = .ok p ∧ ∃ net fee m minted,
      DepositedSingle p.toNat dir s s' instruction.sourceTokenAmount.toNat net fee m minted := by
  simp only [depositSingleTokenTypeExactAmountIn, returns_compute_bind, returns_lift_bind,
    returns_reject_bind, toU64_eq_ok] at h
  obtain ⟨r, hr, m, hm, -, hm0, htail⟩ := h
  obtain ⟨_, log₁, log₂, hmints, hrest, rfl⟩ := returns_bind.mp htail
  simp only [returns_emit_bind, returns_emit] at hrest
  obtain ⟨_, rfl, rfl⟩ := hrest
  obtain ⟨hlog₁, hmint⟩ := mintDepositOwnerFee_returns hlin hmints
  obtain ⟨hreserves, hsupply⟩ := performAll_apply hlog
  have hsrc := hreserves dir.source
  have hdest := hreserves dir.destination
  simp only [total_cons, total_append, total_nil, received, paid, minted, burned,
    hlog₁.received_eq, hlog₁.paid_eq, hlog₁.burned_eq, if_neg dir.destination_ne_source.symm,
    if_true, Nat.zero_add, Nat.add_zero] at hsrc hdest hsupply
  rcases SwapCurve.depositSingleTokenType_eq_ok hr with
    ⟨-, hamount, -⟩ | ⟨-, net, hle, hnet, hfee, hcurve⟩
  · -- nothing deposited, nothing minted
    rw [hamount] at hm
    exact absurd (BitVec.eq_of_toNat_eq (y := 0#64) hm) hm0
  rw [hlin.depositSingleTokenType] at hcurve
  obtain ⟨p, hp, hcurve⟩ := Outcome.bind_eq_ok.mp hcurve
  obtain ⟨-, hshare⟩ := tradingTokensToPoolTokens_spec hcurve
  simp only [U64.toNat_widen, Balances.toNat_tokenA,
    Balances.toNat_tokenB] at hle hnet hfee hshare
  have hmint := FeeMint.of_price hp (hmint s'.reserves hsrc hdest)
  refine ⟨p, hp, net.toNat, r.ownerFee.toNat, m.toNat, total minted log₁, hsrc, hdest,
    by omega, by omega, ?_, hmint⟩
  rw [hm, hshare]
  exact Nat.div_mul_le_self _ _

/-- A successful exact-out withdrawal. All of the share of the owner fee is minted as long
as the pool has a fee account. -/
theorem withdrawSingleTokenTypeExactAmountOut_spec (hlin : curve.calculator.IsLinear)
    (hfees : fees.Valid) {source : Pubkey} {instruction : WithdrawSingleTokenTypeExactAmountOut}
    (h : (withdrawSingleTokenTypeExactAmountOut curve fees ts s accounts dir source
      instruction).Returns log ())
    (hlog : performAll PoolEffect.apply log s = .ok s') :
    ∃ p, curve.calculator.tokenBPrice ts = .ok p ∧ ∃ burn minted,
      WithdrewSingle p.toNat dir s s' instruction.destinationTokenAmount.toNat
        (fees.adjustedAmount instruction.destinationTokenAmount.toNat)
        (fees.adjustedOwnerFee instruction.destinationTokenAmount.toNat) burn minted ∧
      (accounts.poolFeeOk = true →
        0 < fees.adjustedOwnerFee instruction.destinationTokenAmount.toNat →
        FullFeeMint p.toNat dir
          (fees.adjustedOwnerFee instruction.destinationTokenAmount.toNat)
          (s.supply.toNat - burn) s'.reserves minted) := by
  rw [withdrawSingleTokenTypeExactAmountOut] at h
  rw [returns_compute_bind] at h
  obtain ⟨r, hr, h⟩ := h
  obtain ⟨fee, log₀, log₁, hfee, hrest, rfl⟩ := returns_bind.mp h
  obtain ⟨rfl, hfee0⟩ := withdrawFee_returns hfee
  obtain ⟨_, log₂, log₃, hmints, hrest', rfl⟩ := returns_bind.mp hrest
  simp only [returns_require_bind, returns_lift_bind, returns_reject_bind, toU64_eq_ok,
    BitVec.checkedAdd_eq_some] at hrest'
  obtain ⟨amount, hamount, -, -, -, hamount0, htail⟩ := hrest'
  obtain ⟨_, log₄, log₅, hpay, hburn, rfl⟩ := returns_bind.mp htail
  simp only [returns_lift_bind, returns_emit_bind, returns_emit, toU64_eq_ok] at hburn
  obtain ⟨burn, hburn, _, rfl, rfl⟩ := hburn
  obtain ⟨hlog₂, hsupplyBurn, hmint⟩ := mintWithdrawOwnerFee_returns hlin hmints
  obtain ⟨hrec, hpaid, hminted, hburned⟩ := payWithdrawFee_returns hpay
  obtain ⟨hreserves, hsupply⟩ := performAll_apply hlog
  have hsrc := hreserves dir.source
  have hdest := hreserves dir.destination
  simp only [List.nil_append, total_cons, total_append, total_nil, received, paid, minted, burned,
    hlog₂.received_eq, hlog₂.paid_eq, hlog₂.burned_eq, hrec, hpaid, hminted, hburned,
    if_neg dir.destination_ne_source.symm, if_true, Nat.zero_add, Nat.add_zero, hburn]
    at hsrc hdest hsupply
  rcases SwapCurve.withdrawSingleTokenTypeExactOut_eq_ok hr with
    ⟨-, hzero, -⟩ | ⟨hx, adjusted, hfrac, hadj, hownerFee, hcurve⟩
  · -- nothing withdrawn, nothing charged
    rw [hzero] at hamount hfee0
    rw [hfee0 rfl] at hamount
    exact absurd (BitVec.eq_of_toNat_eq (y := 0#128) hamount) hamount0
  rw [hlin.withdrawSingleTokenTypeExactOut] at hcurve
  obtain ⟨p, hp, hcurve⟩ := Outcome.bind_eq_ok.mp hcurve
  obtain ⟨hT, -, hshare⟩ := tradingTokensToPoolTokens_spec hcurve
  simp only [U64.toNat_widen, Balances.toNat_tokenA,
    Balances.toNat_tokenB] at hT hadj hownerFee hshare
  have hpos : 0 < instruction.destinationTokenAmount.toNat := by
    refine Nat.pos_of_ne_zero fun h0 => hx ?_
    rw [toNat_eq_zero, U64.toNat_widen, h0]
  have hfees' := hmint s'.reserves hsrc hdest
  have hmint := FeeMint.of_price hp (hfees'.imp_right (.imp fun _ => .imp_right And.left))
  have hfull : accounts.poolFeeOk = true → 0 < r.ownerFee.toNat → FullFeeMint p.toNat dir
      r.ownerFee.toNat (s.supply.toNat - r.amount.toNat) s'.reserves (total minted log₂) := by
    intro hok hpos
    rcases hfees' with ⟨h0, -⟩ | ⟨q, hq, -, hfull⟩
    · exact absurd h0 hpos.ne'
    · obtain rfl := Outcome.ok.inj (hq.symm.trans hp)
      exact hfull hok
  have hburnLe : r.amount.toNat ≤ s.supply.toNat := by
    rcases Nat.eq_zero_or_pos r.ownerFee.toNat with h0 | hpos
    · have := hmint.none h0
      omega
    · exact hsupplyBurn hpos
  have hcovers := hfees.add_adjustedOwnerFee_le hpos hfrac
  rw [hownerFee] at hmint hfull
  rw [hadj] at hshare
  have hceil := (ceilDiv_le_iff_le_mul hT).mp hshare.ge
  have hceil' := ceilDiv_mul_lt hT (s.supply.toNat * givenValue p.toNat
    (fees.adjustedAmount instruction.destinationTokenAmount.toNat) dir)
  rw [Nat.mul_comm (totalValue _ _ _)] at hceil
  refine ⟨p, hp, r.amount.toNat, total minted log₂, ⟨hsrc, hdest, hsupply, hburnLe, hcovers, hT,
    hceil, ?_, hmint⟩, hfull⟩
  rw [hshare]
  exact hceil'

/-- A successful exact-out withdrawal, in numbers. -/
theorem withdrawSingleTokenTypeExactAmountOut_moves (hlin : curve.calculator.IsLinear)
    (hfees : fees.Valid) {source : Pubkey} {instruction : WithdrawSingleTokenTypeExactAmountOut}
    (h : (withdrawSingleTokenTypeExactAmountOut curve fees ts s accounts dir source
      instruction).Returns log ())
    (hlog : performAll PoolEffect.apply log s = .ok s') :
    ∃ p, curve.calculator.tokenBPrice ts = .ok p ∧ ∃ burn minted,
      WithdrewSingle p.toNat dir s s' instruction.destinationTokenAmount.toNat
        (fees.adjustedAmount instruction.destinationTokenAmount.toNat)
        (fees.adjustedOwnerFee instruction.destinationTokenAmount.toNat) burn minted := by
  obtain ⟨p, hp, burn, minted, hm, -⟩ :=
    withdrawSingleTokenTypeExactAmountOut_spec hlin hfees h hlog
  exact ⟨p, hp, burn, minted, hm⟩

end Trades

end Amounts

end SolanaPsm
