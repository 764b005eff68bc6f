import SolanaPsm.Bank
import SolanaPsm.Custody
import SolanaPsm.Immutable

/-!
# A pool over whole runs, at the token programs

Every event either is a trade of the pool or acts without the signature of its authority
(`step_guarded`): the authority signs nothing but the calls of trades that name the pool. So the
run of the ledger simulates a run of the balances alone, in which a trade is its script and
anything else only adds to the reserves (`BalanceStep`).

`pool_run_refines` is this simulation, from Initialize on.
-/

namespace SolanaPsm

open Bytes (toLE)

/-- The instruction calls the token programs. -/
def SwapInstruction.CallsTokens : SwapInstruction → Prop
  | setRates _ | initializePermission _ | updatePermission _ => False
  | _ => True

section Guarded

variable [Solana]

/-- A pool signs for an address. -/
def Derives (swap address : Pubkey) : Prop :=
  ∃ bumpSeed : UInt8, Solana.createProgramAddress [toLE 32 swap, [bumpSeed]] ID = some address

/-- Among the pools only this one signs for the authority. Addresses of different pools are hashes
of different seeds, and none is an address whose tokens anyone may burn. -/
structure Exclusive (swap authority : Pubkey) : Prop where
  /-- no other pool signs for it -/
  derives : ∀ other, Derives other authority → other = swap
  /-- its tokens are its own -/
  owned : ¬ Ownerless authority

/-- An address with tokens of its own, for which no pool signs: a user, or the owner of the initial
supply of a pool. -/
structure Bystander (address : Pubkey) : Prop where
  /-- no pool signs for it -/
  derives : ∀ other, ¬ Derives other address
  /-- its tokens are its own -/
  owned : ¬ Ownerless address

theorem not_signed {swap address : Pubkey} {bumpSeed : UInt8} {signers : List Pubkey}
    (hsigners : address ∉ signers) (hderives : ¬ Derives swap address) :
    ¬ Signed address signers (authoritySeeds swap bumpSeed) := by
  rintro (h | ⟨seeds, hseeds, h⟩)
  · exact hsigners h
  · obtain rfl := List.mem_singleton.mp hseeds
    exact hderives ⟨bumpSeed, h⟩

variable {l l' : Ledger} {address : Pubkey}

/-- An Initialize checks its accounts, mints the initial supply, and then leaves the accounts of
the token programs alone. -/
theorem processInitialize_mints {swapConstraints : Option SwapConstraints}
    {instruction : Initialize} {accounts : List AccountInfo} {clock : Clock}
    (hwell : instruction.swapCurve.WellFormed)
    (h : processInitialize swapConstraints instruction accounts clock l = .ok l') :
    ∃ infos, initializeAccounts accounts = .ok infos ∧ ∃ pool, readNewPool infos l = .ok pool ∧
      checkNewPool swapConstraints instruction infos pool clock l = .ok () ∧
      ∃ initialAmount l₁, toU64 instruction.swapCurve.calculator.newPoolSupply =
          .ok initialAmount ∧
        tokenMintTo infos.swap infos.poolTokenProgram infos.poolMint infos.destination
          infos.authority pool.bumpSeed initialAmount (signersOf accounts) l = .ok l₁ ∧
        l₁.TokensKept l' ∧
        l'.StoresPool infos.swap (newPoolState infos pool instruction) := by
  simp only [processInitialize, Outcome.bind_eq_ok, Outcome.pure_eq, Outcome.ok.injEq] at h
  obtain ⟨infos, hinfos, pool, hpool, ⟨⟩, hcheck, initialAmount, hamount, l₁, hmint, l₂, hadmin,
    data, hpack, rfl⟩ := h
  have howner := (checkNewPool_eq_ok hcheck hamount).1
  have howner₁ : (l₁ infos.swap).owner = ID :=
    ((foreign_of_tokenMintTo hmint).kept howner).1.trans howner
  have hID : (checkSplTokenProgramAccount ID).isOk = false := by decide
  -- the record of a super admin and the pool are no accounts of a token program
  obtain ⟨hkept, howner₂⟩ : l₁.TokensKept l₂ ∧ (l₂ infos.swap).owner = ID := by
    split at hadmin
    · obtain ⟨target, authority, hrecorded⟩ := createSuperAdmin_eq_ok hadmin
      have hne := Ledger.ne_of_owned hrecorded.vacant howner₁
      refine ⟨.of_placed hrecorded.placed ?_ hID, (hrecorded.placed.frame hne).1.trans howner₁⟩
      rw [hrecorded.vacant]
      decide
    · obtain rfl := Outcome.ok.inj hadmin
      exact ⟨.refl l₁, howner₁⟩
  refine ⟨infos, hinfos, pool, hpool, hcheck, initialAmount, l₁, hamount, hmint, ?_, ?_⟩
  · exact hkept.trans (.of_placed (.write data howner₂) (by rwa [howner₂]) hID)
  · refine ⟨(Ledger.owner_write l₂ _ _ data).trans howner₂, ?_⟩
    rw [Ledger.write_self]
    exact SwapVersion.unpack_pack rfl hwell hpack

variable [TokenProgram]

/-- A call of a trade signs for the authority of the pool only. -/
theorem TradeCalls.perform_guarded {calls : TradeCalls} {effect : PoolEffect}
    (howned : ¬ Ownerless address) (hsigners : address ∉ calls.signers)
    (hderives : ¬ Derives calls.swap address) (h : calls.perform effect l = .ok l') :
    l.Guarded Set.univ l' address := by
  have hsigned (bumpSeed : UInt8) :
      ¬ Signed address calls.signers (authoritySeeds calls.swap bumpSeed) :=
    not_signed hsigners hderives
  cases effect with
  | unpackMint | unpackHostFeeAccount =>
    obtain ⟨_, -, h⟩ := Outcome.bind_eq_ok.mp h
    obtain rfl := Outcome.ok.inj h
    exact .refl l address
  | payIn token amount =>
    obtain ⟨_, -, h⟩ := Outcome.bind_eq_ok.mp h
    exact TokenProgram.guarded (by exact trivial) h (hsigned _) howned
  | payOut token amount =>
    obtain ⟨_, -, h⟩ := Outcome.bind_eq_ok.mp h
    exact TokenProgram.guarded (by exact trivial) h (hsigned _) howned
  | mintTo account amount => exact TokenProgram.guarded (by exact trivial) h (hsigned _) howned
  | burn account amount => exact TokenProgram.guarded (by exact trivial) h (hsigned _) howned
  | transferPool source destination amount =>
    exact TokenProgram.guarded (by exact trivial) h (hsigned _) howned

/-- A trade signs for the authority of the pool only. -/
theorem PreparedTrade.perform_guarded [SplMath] {prepared : PreparedTrade}
    (howned : ¬ Ownerless address) (hsigners : address ∉ prepared.calls.signers)
    (hderives : ¬ Derives prepared.calls.swap address) (h : prepared.perform l = .ok l') :
    l.Guarded Set.univ l' address := by
  obtain ⟨log, _, -, hlog⟩ := Script.run_eq_ok.mp h
  exact Script.performAll_invariant (P := fun l l' => l.Guarded Set.univ l' address)
    (.refl · address) .trans
    (fun _ _ _ _ hcall => TradeCalls.perform_guarded howned hsigners hderives hcall) hlog

/-- An Initialize signs for the authority of the new pool only. -/
theorem processInitialize_guarded {swapConstraints : Option SwapConstraints}
    {instruction : Initialize} {info : AccountInfo} {rest : List AccountInfo} {clock : Clock}
    (howned : ¬ Ownerless address) (hsigners : address ∉ signersOf (info :: rest))
    (hderives : ¬ Derives info.key address) (hwell : instruction.swapCurve.WellFormed)
    (h : processInitialize swapConstraints instruction (info :: rest) clock l = .ok l') :
    l.Guarded Set.univ l' address := by
  obtain ⟨infos, hinfos, pool, -, -, initialAmount, l₁, -, hmint, hkept, -⟩ :=
    processInitialize_mints hwell h
  obtain ⟨_, _, haccounts, hswap⟩ := initializeAccounts_eq_ok hinfos
  obtain ⟨rfl, -⟩ := List.cons.inj haccounts
  rw [← hswap] at hderives
  have hminted : l.Guarded Set.univ l₁ address :=
    TokenProgram.guarded (by exact trivial) hmint (not_signed hsigners hderives) howned
  exact hminted.trans (.of_kept hkept)

variable [SplMath] {swapConstraints : Option SwapConstraints}

omit [TokenProgram] in
/-- An instruction that does not call the token programs leaves their accounts alone. -/
theorem processInstruction_kept {accounts : List AccountInfo} {instruction : SwapInstruction}
    {clock : Clock} (hwell : instruction.WellFormed) (hcalls : ¬ instruction.CallsTokens)
    (h : processInstruction swapConstraints accounts instruction clock l = .ok l') :
    l.TokensKept l' := by
  have hID : (checkSplTokenProgramAccount ID).isOk = false := by decide
  cases processInstruction_effect hwell h with
  | initialized haccounts hcreated => exact absurd trivial hcalls
  | ratesSet haccounts hsigner hpermits hset =>
    exact .of_placed hset.placed (by rwa [hset.owner]) hID
  | recorded haccounts hsigner hpermits hrecorded =>
    exact .of_placed hrecorded.placed (by rw [hrecorded.vacant]; decide) hID
  | reflagged haccounts hsigner hpermits hpool hreflagged =>
    exact .of_placed hreflagged.placed (by rwa [hreflagged.stored.1]) hID
  | traded htrade => exact absurd (by cases instruction <;> trivial) hcalls

/-- An instruction acts on behalf of those who signed it, and, when it calls the token programs,
of the authority of the pool it names. -/
theorem processInstruction_guarded {accounts : List AccountInfo} {instruction : SwapInstruction}
    {clock : Clock} (hwell : instruction.WellFormed) (howned : ¬ Ownerless address)
    (hsigners : address ∉ signersOf accounts)
    (hderives : instruction.CallsTokens → ∀ {info rest}, accounts = info :: rest →
      ¬ Derives info.key address)
    (h : processInstruction swapConstraints accounts instruction clock l = .ok l') :
    l.Guarded Set.univ l' address := by
  by_cases hcalls : instruction.CallsTokens
  · by_cases htrade : instruction.IsTrade
    · obtain ⟨prepared, _, hchecked, hperform⟩ := trade_checked htrade h
      obtain ⟨info, rest, haccounts, hswap⟩ := hchecked.named
      have hnot := hderives hcalls haccounts
      rw [hswap] at hnot
      rw [← hchecked.signers] at hsigners
      exact prepared.perform_guarded howned hsigners hnot hperform
    · cases processInstruction_effect hwell h with
      | initialized haccounts hcreated =>
        subst haccounts
        exact processInitialize_guarded howned hsigners (hderives hcalls rfl) hwell h
      | ratesSet | recorded | reflagged => exact hcalls.elim
      | traded htrade' => exact absurd htrade' htrade
  · exact .of_kept (processInstruction_kept hwell hcalls h)

end Guarded

/-! ## Balances alone -/

/-- The curve is that of the pool, up to its rates. -/
def SwapCurve.Reprices (curve curve' : SwapCurve) : Prop :=
  curve' = curve ∨ ∃ c c' : RedemptionRateCurve, curve = .redemptionRate c ∧
    curve' = .redemptionRate c' ∧ c'.maxSsr = c.maxSsr

theorem SwapCurve.Reprices.isLinear {curve curve' : SwapCurve} (h : curve.Reprices curve')
    (hlin : curve.calculator.IsLinear) : curve'.calculator.IsLinear := by
  rcases h with rfl | ⟨c, c', rfl, rfl, -⟩
  · exact hlin
  · exact trivial

/-- What can happen to the balances of a pool. -/
inductive BalanceEvent : Type where
  | trade (trade : Trade)
  /-- others send tokens to the reserves, and burn pool tokens they hold -/
  | others
  deriving DecidableEq, Repr

/-- One event, as the balances see it. A trade is its script, on the curve of the pool at the rates
of the moment, and no deposit unless the curve takes them: the balances after it are exactly the
script's. Of others nothing is known but that they take nothing out of the reserves and mint no pool
tokens; they may send tokens, and burn those they hold. -/
def BalanceStep [SplMath] (curve : SwapCurve) (fees : Fees) (s : Balances) :
    BalanceEvent → Balances → Prop
  | .trade trade, s' => curve.Reprices trade.curve ∧
      (trade.instruction.request.Deposits → trade.curve.calculator.allowsDeposits = true) ∧
      (trade.amounts fees s).run PoolEffect.apply s = .ok s'
  | .others, s' => (∀ token, s.reserves token ≤ s'.reserves token) ∧
      s'.supply.toNat ≤ s.supply.toNat

/-- The event is a trade of the pool. -/
def Event.Trades (event : Event) (swap : Pubkey) (instruction : SwapInstruction) : Prop :=
  instruction.IsTrade ∧ ∃ clock info rest, event.Carries clock (info :: rest) instruction ∧
    info.key = swap

/-- A trade of the pool is the trade it asks for; any other event is one of others. -/
def Event.Matches (swap : Pubkey) (event : Event) : BalanceEvent → Prop
  | .trade trade => event.Trades swap trade.instruction.request
  | .others => ∀ instruction, ¬ event.Trades swap instruction

/-! ## One event -/

section Runs

variable [Solana] {swap authority : Pubkey} {state : SwapV1} {l₁ l l' : Ledger} {s : Balances}
  {mints : Set Pubkey}

/-- A ledger in which the pool is kept, and in custody with the balances. -/
structure Refines (l₁ : Ledger) (swap : Pubkey) (state : SwapV1) (authority : Pubkey) (l : Ledger)
    (s : Balances) : Prop where
  /-- the pool that was stored -/
  kept : PoolKept state swap l₁ l
  /-- its balances -/
  custody : l.Custody state authority s

/-- Custody does not depend on the rates. -/
theorem Refines.withState (h : Refines l₁ swap state authority l s)
    (hpool₁ : l₁.StoresPool swap state) :
    ∃ state', l.StoresPool swap state' ∧
      (∀ {l : Ledger} {s : Balances}, l.Custody state' authority s ↔
        l.Custody state authority s) ∧
      state.swapCurve.Reprices state'.swapCurve ∧ state'.fees = state.fees := by
  obtain ⟨state', hstored, hstate⟩ := h.kept.storesPool hpool₁
  refine ⟨state', hstored, ?_⟩
  rcases hstate with rfl | ⟨c, c', hcurve, hmax, rfl⟩
  · exact ⟨Iff.rfl, .inl rfl, rfl⟩
  · exact ⟨Ledger.Custody.withCurve c', .inr ⟨c, c', hcurve, rfl, hmax⟩, rfl⟩

variable [SplMath] {swapConstraints : Option SwapConstraints}

variable (swapConstraints) in
/-- One event in a world where nobody holds a key to some addresses, and where some mints are left
alone. It can be any instruction to the program, by whoever, with whatever accounts, as long as
the addresses do not sign it. Or other programs act: to the addresses they do only what they can
without a signature, and the mints they neither close nor replace. (Only the close authority of a
mint could do that, and only as long as its supply is zero.) -/
structure TokenStep (mints : Set Pubkey) (addresses : List Pubkey) (l : Ledger) (event : Event)
    (l' : Ledger) : Prop where
  /-- the event -/
  step : Step swapConstraints l event l'
  /-- the addresses do not sign -/
  unsigned : ∀ address ∈ addresses, ¬ event.SignedBy address
  /-- and other programs cannot sign for them -/
  foreign : event = .foreign → ∀ address ∈ addresses, l.Guarded mints l' address

variable [TokenProgram]

/-- An event acts without the signature of an address that did not sign it, when no pool whose
processor calls the token programs signs for the address. -/
theorem step_guarded {addresses : List Pubkey} {address : Pubkey} {event : Event}
    (haddress : address ∈ addresses) (howned : ¬ Ownerless address)
    (hstep : TokenStep swapConstraints mints addresses l event l')
    (hderives : ∀ {clock info rest instruction}, event.Carries clock (info :: rest) instruction →
      instruction.CallsTokens → ¬ Derives info.key address) : l.Guarded mints l' address := by
  obtain ⟨hstep, hunsigned, hforeign⟩ := hstep
  cases event with
  | foreign => exact hforeign rfl address haddress
  | instruction clock accounts input =>
    obtain ⟨instruction, hunpack, h⟩ := Outcome.bind_eq_ok.mp hstep
    have hsigners : address ∉ signersOf accounts := by
      intro hmem
      obtain ⟨info, hinfo, hkey⟩ := List.mem_map.mp hmem
      obtain ⟨hinfo, hsigner⟩ := List.mem_filter.mp hinfo
      exact hunsigned address haddress ⟨clock, accounts, input, rfl, info, hinfo, hkey, hsigner⟩
    refine .mono ?_ (Set.subset_univ mints)
    refine processInstruction_guarded (SwapInstruction.wellFormed_of_unpack hunpack) howned
      hsigners ?_ h
    intro hcalls info rest haccounts
    subst haccounts
    exact hderives ⟨input, rfl, hunpack⟩ hcalls

/-- No event acts without the signature of a bystander that did not sign it. -/
theorem Bystander.guarded {addresses : List Pubkey} {address : Pubkey} {event : Event}
    (hbystander : Bystander address) (haddress : address ∈ addresses)
    (hstep : TokenStep swapConstraints mints addresses l event l') :
    l.Guarded mints l' address :=
  step_guarded haddress hbystander.owned hstep fun _ _ => hbystander.derives _

/-- Bystanders. Whatever instructions others send, with whatever accounts, an address that signs
nothing keeps the tokens of its accounts, and nobody mints for it. This goes for the mints that
other programs leave alone, as far as their extensions are accepted, and for accounts that nobody
else may move or close. -/
theorem bystander_keeps_tokens {address : Pubkey} {events : List Event}
    (hbystander : Bystander address)
    (hrun : Transition.Run (TokenStep swapConstraints mints [address]) l events l') :
    l.Guarded mints l' address := by
  refine hrun.relates_of (A := fun _ => True) (R := fun l l' => l.Guarded mints l' address)
    (.refl · address) .trans ?_ fun _ _ => trivial
  intro l event l' _ hstep
  exact hbystander.guarded (List.mem_singleton_self _) hstep

/-- An event that is no trade of a stored pool needs no signature of its authority. -/
theorem step_guarded_of_not_trade {addresses : List Pubkey} {event : Event}
    (hpool : l.StoresPool swap state) (hexclusive : Exclusive swap authority)
    (hauthority : authority ∈ addresses)
    (hstep : TokenStep swapConstraints mints addresses l event l')
    (htrade : ∀ instruction, ¬ event.Trades swap instruction) :
    l.Guarded mints l' authority := by
  refine step_guarded hauthority hexclusive.owned hstep ?_
  intro clock info rest instruction hcarries hcalls hderived
  -- the pool itself is named, by a trade or by an Initialize
  obtain rfl := hexclusive.derives info.key hderived
  by_cases his : instruction.IsTrade
  · exact htrade instruction ⟨his, clock, info, rest, hcarries, rfl⟩
  · cases instruction with
    | initializeSwap data =>
      obtain ⟨_, _, _, hcreated⟩ :=
        step_initializes hstep.step ⟨clock, info, rest, data, hcarries, rfl⟩
      have hused := SwapVersion.isInitialized_of_unpack hpool.2
      rw [hcreated.unused] at hused
      cases hused
    | setRates | initializePermission | updatePermission => exact hcalls
    | swap | depositAllTokenTypes | withdrawAllTokenTypes | depositSingleTokenTypeExactAmountIn
    | withdrawSingleTokenTypeExactAmountOut => exact his trivial

/-- One event is matched by one event of the balances. -/
theorem Refines.step {addresses : List Pubkey} {event : Event}
    (h : Refines l₁ swap state authority l s) (hpool₁ : l₁.StoresPool swap state)
    (hexclusive : Exclusive swap authority) (hmints : state.mints ⊆ mints)
    (hauthority : authority ∈ addresses)
    (hstep : TokenStep swapConstraints mints addresses l event l') :
    ∃ e s', event.Matches swap e ∧ BalanceStep state.swapCurve state.fees s e s' ∧
      Refines l₁ swap state authority l' s' := by
  have hkept := h.kept.step hpool₁ hstep.step
  obtain ⟨state', hpool, hcustody, hcurve, hfees⟩ := h.withState hpool₁
  by_cases htrade : ∃ instruction, event.Trades swap instruction
  · obtain ⟨instruction, his, clock, info, rest, ⟨input, rfl, hunpack⟩, rfl⟩ := htrade
    have hprocess := hstep.step
    rw [Step, processWithConstraints_of_unpack swapConstraints hunpack] at hprocess
    obtain ⟨trade, hrequest, htradeCurve, -, hdeposits, s', hrun, hcustody'⟩ :=
      trade_refines hpool (hcustody.mpr h.custody) his hprocess
    rw [hfees] at hrun
    rw [← htradeCurve] at hcurve
    rw [← hrequest, ← htradeCurve] at hdeposits
    refine ⟨.trade trade, s', ⟨?_, clock, info, rest, ⟨input, rfl, ?_⟩, rfl⟩,
      ⟨hcurve, hdeposits, hrun⟩, hkept, hcustody.mp hcustody'⟩
    · rw [hrequest]
      exact his
    · rw [hrequest]
      exact hunpack
  · rw [not_exists] at htrade
    obtain ⟨s', hcustody', hreserves, hsupply⟩ :=
      h.custody.guarded hmints
        (step_guarded_of_not_trade hpool hexclusive hauthority hstep htrade)
    exact ⟨.others, s', htrade, ⟨hreserves, hsupply⟩, hkept, hcustody'⟩

end Runs

/-! ## A new pool -/

section NewPool

variable [Solana]

/-- The authority of a pool. -/
def poolAuthority (swap : Pubkey) : Pubkey := (Solana.findProgramAddress [toLE 32 swap] ID).1

/-- Its bump seed. -/
def poolBumpSeed (swap : Pubkey) : UInt8 := (Solana.findProgramAddress [toLE 32 swap] ID).2

/-- The owner of the initial supply of a pool. -/
def initDestinationOwner (swap : Pubkey) : Pubkey :=
  (Solana.findProgramAddress [INIT_DESTINATION_SEED, toLE 32 swap] ID).1

/-- The three mints of the new pool, as the instruction lists them. -/
def InitializeAccounts.mints (infos : InitializeAccounts) : Set Pubkey :=
  {infos.poolMint, infos.tokenAMint, infos.tokenBMint}

variable {l l' : Ledger} {infos : InitializeAccounts} {pool : NewPool}

/-- What an Initialize read at the token programs. -/
structure NewPoolAt (l : Ledger) (infos : InitializeAccounts) (pool : NewPool) : Prop where
  /-- the authority is that of the pool -/
  authority : infos.authority = poolAuthority infos.swap
  /-- and so is its bump seed -/
  bumpSeed : pool.bumpSeed = poolBumpSeed infos.swap
  /-- the reserves -/
  tokenA : l.TokenAt infos.tokenA pool.tokenA ∧ pool.tokenA.mint = infos.tokenAMint
  tokenB : l.TokenAt infos.tokenB pool.tokenB ∧ pool.tokenB.mint = infos.tokenBMint
  /-- the fee account -/
  feeAccount : l.TokenAt infos.feeAccount pool.feeAccount ∧ pool.feeAccount.mint = infos.poolMint
  /-- the account of the initial supply -/
  destination : l.TokenAt infos.destination pool.destination ∧
    pool.destination.mint = infos.poolMint
  /-- the pool mint -/
  poolMint : l.MintAt infos.poolMint pool.poolMint
  /-- extensions are accepted -/
  plainPool : l.PlainMint true infos.poolMint
  plainA : l.PlainMint false infos.tokenAMint
  plainB : l.PlainMint false infos.tokenBMint

theorem readNewPool_at (h : readNewPool infos l = .ok pool) : NewPoolAt l infos pool := by
  simp -zeta only [readNewPool, Outcome.bind_eq_ok, Outcome.rejectIf_eq_ok, exists_const, not_not,
    Ledger.unpackTokenAccount_eq_ok, Outcome.pure_eq] at h
  obtain ⟨-, hauthority, a, ha, b, hb, fee, hfee, destination, hdestination, m, hm, _, hplain, ma,
    hma, _, hplainA, mb, hmb, _, hplainB, h⟩ := h
  obtain rfl := Outcome.ok.inj h
  exact ⟨hauthority, rfl, ha, hb, hfee, hdestination, hm, ⟨⟨m, hm⟩, hplain⟩, ⟨⟨ma, hma⟩, hplainA⟩,
    ⟨⟨mb, hmb⟩, hplainB⟩⟩

/-- The pool that is stored has the mints that were listed. -/
theorem newPoolState_mints {data : Initialize} (h : NewPoolAt l infos pool) :
    (newPoolState infos pool data).mints = infos.mints := by
  have htokenA : (newPoolState infos pool data).mint .a = infos.tokenAMint := h.tokenA.2
  have htokenB : (newPoolState infos pool data).mint .b = infos.tokenBMint := h.tokenB.2
  ext mint
  refine or_congr_right ⟨?_, ?_⟩
  · rintro ⟨token, rfl⟩
    cases token with
    | a => exact .inl htokenA
    | b => exact .inr htokenB
  · rintro (hmint | hmint)
    · exact ⟨.a, hmint.trans htokenA.symm⟩
    · exact ⟨.b, (Set.mem_singleton_iff.mp hmint).trans htokenB.symm⟩

/-- What an Initialize checked about them. -/
structure NewPoolChecked (swapConstraints : Option SwapConstraints) (infos : InitializeAccounts)
    (pool : NewPool) (data : Initialize) (clock : Clock) : Prop where
  /-- the reserves belong to the authority -/
  owner : pool.tokenA.owner = infos.authority ∧ pool.tokenB.owner = infos.authority
  /-- nobody else may move tokens out of them -/
  delegate : pool.tokenA.delegate = none ∧ pool.tokenB.delegate = none
  /-- nor close them -/
  closeAuthority : pool.tokenA.closeAuthority = none ∧ pool.tokenB.closeAuthority = none
  /-- the initial supply goes to an address nobody holds a key to -/
  destination : pool.destination.owner = initDestinationOwner infos.swap
  /-- the authority mints pool tokens, and nobody has before -/
  mint : pool.poolMint.mintAuthority = some infos.authority ∧ pool.poolMint.supply = 0#64
  /-- the mints differ -/
  tokens : pool.tokenA.mint ≠ pool.tokenB.mint
  poolTokens : pool.tokenA.mint ≠ infos.poolMint ∧ pool.tokenB.mint ≠ infos.poolMint
  /-- the curve accepts the reserves -/
  supply : data.swapCurve.calculator.validateSupply pool.tokenA.amount pool.tokenB.amount = .ok ()
  /-- the constraints of the build admit the curve and the fees -/
  admitted : ∀ constraints ∈ swapConstraints,
    constraints.validateCurve data.swapCurve = .ok () ∧ constraints.validateFees data.fees = .ok ()
  /-- the fees are valid -/
  fees : data.fees.Valid
  /-- and so is the curve, at the moment -/
  curve : data.swapCurve.calculator.validate (data.swapCurve.currentTimestampOpt clock) = .ok ()

theorem checkNewPool_checked {swapConstraints : Option SwapConstraints} {data : Initialize}
    {clock : Clock} (h : checkNewPool swapConstraints data infos pool clock l = .ok ()) :
    NewPoolChecked swapConstraints infos pool data clock := by
  simp only [checkNewPool, Outcome.bind_eq_ok, Outcome.rejectIf_eq_ok, exists_const,
    liftSwapError_eq_ok, not_not, not_or, Bool.not_eq_true, Option.isSome_eq_false_iff,
    Option.isNone_iff_eq_none, Fees.validate_eq_ok] at h
  obtain ⟨hownerA, hownerB, -, hdestination, -, hauthority, htokens, ⟨⟩, hsupply, hdelegateA,
    hdelegateB, hcloseA, hcloseB, hzero, -, hpool, -, ⟨⟩, hadmitted, hfees, hcurve⟩ := h
  refine ⟨⟨hownerA.symm, hownerB.symm⟩, ⟨hdelegateA, hdelegateB⟩, ⟨hcloseA, hcloseB⟩,
    hdestination.symm, ⟨hauthority.symm, hzero⟩, htokens, hpool, hsupply, ?_, hfees, hcurve⟩
  rintro constraints rfl
  obtain ⟨_, -, hadmitted⟩ := Outcome.bind_eq_ok.mp hadmitted
  obtain ⟨_, hvalidCurve, hvalidFees⟩ := Outcome.bind_eq_ok.mp hadmitted
  exact ⟨hvalidCurve, hvalidFees⟩

/-- A new pool at the token programs: its reserves and the initial supply, in custody. -/
structure PoolOpened (l' : Ledger) (swap : Pubkey) (data : Initialize) (state : SwapV1)
    (s : Balances) : Prop where
  /-- it is stored -/
  stored : l'.StoresPool swap state
  /-- with its curve -/
  swapCurve : state.swapCurve = data.swapCurve
  /-- and its fees -/
  fees : state.fees = data.fees
  /-- which are valid -/
  valid : data.fees.Valid
  /-- its authority holds the reserves and the pool mint -/
  custody : l'.Custody state (poolAuthority swap) s
  /-- the curve accepts the reserves -/
  reserves : data.swapCurve.calculator.validateSupply s.tokenA s.tokenB = .ok ()
  /-- the initial supply is all there is -/
  supply : s.supply = INITIAL_SWAP_POOL_AMOUNT.setWidth 64

variable [TokenProgram] {swapConstraints : Option SwapConstraints} {data : Initialize}
  {accounts : List AccountInfo} {clock : Clock}

/-- An Initialize opens the pool with the mints it lists. Unless the pool tokens are wrapped
lamports it locks the initial supply, in an account that has no delegate. -/
theorem initialize_opens (hwell : data.swapCurve.WellFormed)
    (hinfos : initializeAccounts accounts = .ok infos)
    (h : processInitialize swapConstraints data accounts clock l = .ok l') :
    ∃ state s, PoolOpened l' infos.swap data state s ∧
      (state.mints = infos.mints ∧ state.poolMint = infos.poolMint) ∧
      (infos.poolMint ∉ NATIVE_MINT_IDS →
        (∀ {a}, l.TokenAt infos.destination a → a.owner = initDestinationOwner infos.swap →
          a.delegate = none) →
        l'.Locks infos.destination state.poolMint (initDestinationOwner infos.swap)
          INITIAL_SWAP_POOL_AMOUNT.toNat) := by
  obtain ⟨_, hinfos', pool, hpool, hcheck, initialAmount, l₁, hamount, hmint, hkept, hstored⟩ :=
    processInitialize_mints hwell h
  obtain rfl := Outcome.ok.inj (hinfos.symm.trans hinfos')
  have hat := readNewPool_at hpool
  have hchecked := checkNewPool_checked hcheck
  have hplainA := hat.plainA
  have hplainB := hat.plainB
  rw [← hat.tokenA.2] at hplainA
  rw [← hat.tokenB.2] at hplainB
  -- before the mint, the pool is in custody without a supply
  have hcustody : l.Custody (newPoolState infos pool data) infos.authority
      ⟨pool.tokenA.amount, pool.tokenB.amount, 0#64⟩ := {
    differ := ⟨hchecked.tokens, fun token => by
      cases token with
      | a => exact hchecked.poolTokens.1
      | b => exact hchecked.poolTokens.2⟩
    reserve := fun token => by
      cases token with
      | a => exact ⟨_, hat.tokenA.1, rfl, hchecked.owner.1, hchecked.delegate.1,
          hchecked.closeAuthority.1, rfl⟩
      | b => exact ⟨_, hat.tokenB.1, rfl, hchecked.owner.2, hchecked.delegate.2,
          hchecked.closeAuthority.2, rfl⟩
    poolMint := ⟨_, hat.poolMint, hchecked.mint.1, hchecked.mint.2⟩
    plain := fun token => by
      cases token with
      | a => exact hplainA
      | b => exact hplainB
    plainPool := hat.plainPool }
  obtain ⟨m, b, hm, hb, hbmint, hminted⟩ := hcustody.minted hmint
  obtain ⟨s, happly, hcustody₁⟩ := hcustody.mintTo hm hb hbmint hminted
  have hinitial : initialAmount = INITIAL_SWAP_POOL_AMOUNT.setWidth 64 := by
    refine BitVec.eq_of_toNat_eq ?_
    rw [toU64_eq_ok.mp hamount]
    rfl
  obtain ⟨hreserves, hsupply⟩ := PoolEffect.apply_eq_ok happly
  have hs : s = ⟨pool.tokenA.amount, pool.tokenB.amount, initialAmount⟩ := by
    refine Balances.ext (BitVec.eq_of_toNat_eq (hreserves .a))
      (BitVec.eq_of_toNat_eq (hreserves .b)) (BitVec.eq_of_toNat_eq ?_)
    exact hsupply.trans (Nat.zero_add _)
  refine ⟨newPoolState infos pool data, s, ⟨hstored, rfl, rfl, hchecked.fees, ?_, ?_, ?_⟩, ?_, ?_⟩
  · rw [← hat.authority]
    exact hcustody₁.of_kept hkept
  · rw [hs]
    exact hchecked.supply
  · rw [hs]
    exact hinitial
  · exact ⟨newPoolState_mints hat, rfl⟩
  · intro hnative hdelegate
    obtain ⟨b', hb', hmoved, hamount'⟩ := hminted.arrives
    obtain rfl := hb.unique hat.destination.1
    refine ⟨hnative, ?_⟩
    refine ⟨b', hb'.sameAt (hkept _ (.inl hb'.program)), hmoved.mint.trans hat.destination.2,
      hmoved.owner.trans hchecked.destination,
      hmoved.delegate (hdelegate hb hchecked.destination), ?_⟩
    rw [hamount', toU64_eq_ok.mp hamount]
    exact Nat.le_add_left _ _

end NewPool

/-! ## Runs -/

section PoolRuns

variable [Solana] [SplMath] [TokenProgram] {swapConstraints : Option SwapConstraints}
  {l₀ l₁ l : Ledger} {clock : Clock} {accounts : List AccountInfo} {input : Bytes}
  {data : Initialize} {infos : InitializeAccounts} {events : List Event} {mints : Set Pubkey}

omit [SplMath] [TokenProgram] in
/-- A pool that has just been opened refines its balances. -/
theorem PoolOpened.refines {swap : Pubkey} {state : SwapV1} {s : Balances}
    (h : PoolOpened l₁ swap data state s) : Refines l₁ swap state (poolAuthority swap) l₁ s :=
  ⟨.inl (.refl l₁ _), h.custody⟩

/-- A run of the ledger from an opened pool is a run of its balances. -/
theorem PoolOpened.run {swap : Pubkey} {state : SwapV1} {s₁ : Balances}
    (hopened : PoolOpened l₁ swap data state s₁) (hmints : state.mints ⊆ mints)
    (hexclusive : Exclusive swap (poolAuthority swap))
    (hrun : Transition.Run (TokenStep swapConstraints mints [poolAuthority swap]) l₁ events l) :
    ∃ balanceEvents s, List.Forall₂ (Event.Matches swap) events balanceEvents ∧
      Transition.Run (BalanceStep data.swapCurve data.fees) s₁ balanceEvents s ∧
      Refines l₁ swap state (poolAuthority swap) l s := by
  rw [← hopened.swapCurve, ← hopened.fees]
  exact hrun.simulate (A := fun _ => True) (R := Refines l₁ swap state (poolAuthority swap))
    (fun _ h hstep => h.step hopened.stored hexclusive hmints (List.mem_singleton_self _) hstep)
    (fun _ _ => trivial) hopened.refines

end PoolRuns

section Market

attribute [local instance] Solana.bank SplMath.reference Solana.Bank.promises

theorem Market.exclusive_authority : Exclusive World.swap (poolAuthority World.swap) where
  derives other := by
    rintro ⟨_, h⟩
    exact (Market.createProgramAddress_authority h).1
  owned := by decide +kernel

/-- No pool signs for an address that is no program address of the bank. -/
theorem Market.bystander {address : Pubkey} (hne : address ≠ World.authority)
    (howned : ¬ Ownerless address) : Bystander address where
  derives other := by
    rintro ⟨_, h⟩
    exact hne (Market.createProgramAddress_authority h).2
  owned := howned

/-- The Initialize opens the pool of the market. -/
theorem Market.opened {l : Ledger} (h : Step none Market.ledger Market.initializeEvent l) :
    ∃ state s, PoolOpened l World.swap Market.initializeData state s := by
  rw [Market.initializeEvent, Step, processWithConstraints_of_unpack none
    Market.unpack_initializeInput] at h
  obtain ⟨state, s, hopened, -⟩ := initialize_opens
    (SwapInstruction.wellFormed_of_unpack Market.unpack_initializeInput) rfl h
  exact ⟨state, s, hopened⟩

/-- Only the user signs the swap. -/
theorem Market.tokenStep {mints : Set Pubkey} {addresses : List Pubkey} {l l' : Ledger}
    (huser : user ∉ addresses) (hstep : Step none l swapEvent l') :
    TokenStep none mints addresses l swapEvent l' := by
  refine ⟨hstep, ?_, by rintro ⟨⟩⟩
  intro address haddress hsigned
  exact huser (Market.eq_user_of_signedBy hsigned ▸ haddress)

/-- The owner of the fee account does not sign the swap. -/
theorem bystander_keeps_tokens_market :
    ∃ l₁ l₂, Step none Market.ledger Market.initializeEvent l₁ ∧
      Step none l₁ Market.swapEvent l₂ ∧ l₁.Guarded Set.univ l₂ World.superAdmin := by
  obtain ⟨l₁, l₂, hinit, hswap⟩ := Market.steps
  have hbystander : Bystander World.superAdmin :=
    Market.bystander (by decide +kernel) (by decide +kernel)
  exact ⟨l₁, l₂, hinit, hswap,
    bystander_keeps_tokens hbystander (.single (Market.tokenStep (by decide +kernel) hswap))⟩

end Market

end SolanaPsm
