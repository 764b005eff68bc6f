import SolanaPsm.AccessRuns
import SolanaPsm.Native

/-!
# Grants

A super admin can always give rights to another key. The address of the record is known before
the record is made, and anyone can send lamports there. Whatever is sent, and whatever else
happens, the address stays free until its record is made (`step_free`), because only the program
signs for it, and an InitializePermission then succeeds (`grants_cannot_be_blocked`).
-/

namespace SolanaPsm

section Grants

variable [Solana] [SystemProgram] {l l' : Ledger} {swap grantee key : Pubkey}

/-! ## A grant -/

/-- What a super admin lists to give rights to a key, with a payer for the rent. -/
structure GrantAccounts (l : Ledger) (swap grantee : Pubkey)
    (info permission target signer payer system : AccountInfo) : Prop where
  names : info.key = swap
  /-- the super admin signs, and lists its record -/
  signed : signer.isSigner = true
  admin : l.Permits swap signer.key Permission.isSuperAdmin
  record : permission.key = permissionAddress swap signer.key
  /-- the address of the new record -/
  address : target.key = permissionAddress swap grantee
  /-- the payer signs, and has the rent -/
  pays : payer.isSigner = true
  wallet : l.Vacant payer.key
  distinct : payer.key ≠ target.key
  funds : Solana.minimumBalance Permission.LEN ≤ (l payer.key).lamports
  program : system.key = SYSTEM_PROGRAM_ID

/-- The runtime finds the address of a record where it derives it. -/
def DerivesRecord (swap grantee : Pubkey) : Prop :=
  Solana.createProgramAddress (permissionSeeds swap grantee ++
    [[(derivePermissionPubkeyAndBump swap grantee).2]]) ID = some (permissionAddress swap grantee)

/-- At a free address, whatever its balance, the InitializePermission succeeds. -/
theorem processInitializePermission_succeeds
    {info permission target signer payer system : AccountInfo}
    (h : GrantAccounts l swap grantee info permission target signer payer system)
    (hpool : (l swap).owner = ID) (hderives : DerivesRecord swap grantee)
    (hvacant : l.Vacant target.key) (rest : List AccountInfo) {data : InitializePermission}
    (hgrantee : data.permissionAuthority = grantee) :
    ∃ l', processInitializePermission
        (info :: permission :: target :: signer :: payer :: system :: rest) data l = .ok l' ∧
      Solana.minimumBalance Permission.LEN ≤ (l' target.key).lamports := by
  have hnames := h.names
  have haddress := h.address
  subst hnames hgrantee
  obtain ⟨record, hunpack, hflag⟩ := unpackPermission_of_permits h.record h.admin
  have hvalid : record.validateSuperAdminPermission = .ok () :=
    Outcome.rejectIf_of_not (by rw [hflag]; exact Bool.noConfusion)
  have howner : Outcome.rejectIf ((l info.key).owner ≠ ID) ProgramError.illegalOwner = .ok () :=
    Outcome.rejectIf_of_not (not_not.mpr hpool)
  have hsigned : Outcome.rejectIf (signer.isSigner = false) ProgramError.missingRequiredSignature =
      .ok () := Outcome.rejectIf_of_not (by rw [h.signed]; exact Bool.noConfusion)
  have hpays : payer.key ∈ signersOf
      (info :: permission :: target :: signer :: payer :: system :: rest) := by
    rw [signersOf]
    exact List.mem_map_of_mem (List.mem_filter.mpr ⟨by simp, h.pays⟩)
  obtain ⟨l₁, hcreate, hrent⟩ := createPermissionAccount_succeeds hpays haddress h.program hderives
    h.distinct h.wallet hvacant h.funds
  have hplaced := (createPermissionAccount_placed hcreate).2.2
  rw [processInitializePermission]
  simp only [nextAccountInfo, Outcome.ok_bind, howner, hsigned, hunpack, hvalid, hcreate]
  rw [Permission.pack, packInto_eq_ok.mpr ⟨by rw [hplaced.data, List.length_replicate], rfl⟩]
  exact ⟨_, rfl, by rwa [Ledger.write_self]⟩

/-! ## Free addresses -/

/-- The token programs leave a free address alone. -/
theorem Ledger.Vacant.invokeToken {tokenProgram : Pubkey} {call : Call} {signers : List Pubkey}
    {seeds : List (List Bytes)} (hvacant : l.Vacant key) (hcall : call.IsToken)
    (h : SolanaPsm.invokeToken tokenProgram call signers seeds l = .ok l') : l'.Vacant key := by
  obtain ⟨_, -, h⟩ := Outcome.bind_eq_ok.mp h
  exact SystemProgram.spared hcall h hvacant

/-- So does a trade, which calls nothing else. -/
theorem Ledger.Vacant.perform {calls : TradeCalls} {effect : PoolEffect} (hvacant : l.Vacant key)
    (h : calls.perform effect l = .ok l') : l'.Vacant key := by
  cases effect with
  | unpackMint | unpackHostFeeAccount =>
    obtain ⟨_, -, h⟩ := Outcome.bind_eq_ok.mp h
    obtain rfl := Outcome.ok.inj h
    exact hvacant
  | payIn token amount =>
    obtain ⟨_, -, h⟩ := Outcome.bind_eq_ok.mp h
    exact hvacant.invokeToken (by exact trivial) h
  | payOut token amount =>
    obtain ⟨_, -, h⟩ := Outcome.bind_eq_ok.mp h
    exact hvacant.invokeToken (by exact trivial) h
  | mintTo account amount => exact hvacant.invokeToken (by exact trivial) h
  | burn account amount => exact hvacant.invokeToken (by exact trivial) h
  | transferPool source destination amount => exact hvacant.invokeToken (by exact trivial) h

/-- An address is free, or has its record. -/
def Ledger.Free (l : Ledger) (key : Pubkey) : Prop :=
  l.Vacant key ∨ ∃ permission, l.StoresPermission key permission

omit [SystemProgram] in
/-- A record is made at the address, or at another. -/
theorem Recorded.free {permission : Permission} {target : Pubkey}
    (h : Recorded l l' target permission) (hvacant : l.Vacant key) : l'.Free key := by
  by_cases hkey : key = target
  · exact .inr ⟨permission, hkey ▸ .of_placed h.initialized h.placed⟩
  · exact .inl (hvacant.sameAt (h.placed.frame hkey))

/-- An Initialize mints, makes a record at most, and stores its pool. -/
theorem InitializeCalls.free {accounts : List AccountInfo} {data : Initialize} {l₁ l₂ : Ledger}
    (h : InitializeCalls accounts data swap l l₁ l₂ l') (hvacant : l.Vacant key) :
    l'.Free key := by
  obtain ⟨_, _, _, _, _, _, hmint⟩ := h.minted
  have hvacant₁ : l₁.Vacant key := hvacant.invokeToken (by exact trivial) hmint
  have hsame : l₂.SameAt l' key := h.frame (hvacant.ne h.owner)
  rcases h.admin with rfl | ⟨-, _, _, -, hrecorded⟩
  · exact .inl (hvacant₁.sameAt hsame)
  · exact (hrecorded.free hvacant₁).imp (·.sameAt hsame)
      fun ⟨permission, hstored⟩ => ⟨permission, hstored.sameAt hsame⟩

variable [SplMath] {swapConstraints : Option SwapConstraints} {event : Event} {events : List Event}

/-- The program leaves a free address alone, or makes its record. -/
theorem processInstruction_free {accounts : List AccountInfo} {instruction : SwapInstruction}
    {clock : Clock} (hwell : instruction.WellFormed) (hvacant : l.Vacant key)
    (h : processInstruction swapConstraints accounts instruction clock l = .ok l') :
    l'.Free key := by
  by_cases htrade : instruction.IsTrade
  · obtain ⟨prepared, _, -, hperform⟩ := trade_checked htrade h
    obtain ⟨log, _, -, hlog⟩ := Script.run_eq_ok.mp hperform
    have hkeeps : l.Vacant key → l'.Vacant key :=
      Script.performAll_invariant (P := fun l l' => Ledger.Vacant l key → Ledger.Vacant l' key)
        (fun _ => id) (fun h h' => h' ∘ h) (fun _ _ _ _ hcall hvacant => hvacant.perform hcall) hlog
    exact .inl (hkeeps hvacant)
  · cases processInstruction_effect hwell h with
    | initialized =>
      obtain ⟨_, _, _, _, -, hcalls⟩ := processInitialize_calls hwell h
      exact hcalls.free hvacant
    | ratesSet haccounts hsigner hpermits hset =>
      exact .inl (hvacant.sameAt (hset.placed.frame (hvacant.ne hset.owner)))
    | recorded haccounts hsigner hpermits hrecorded => exact hrecorded.free hvacant
    | reflagged haccounts hsigner hpermits hpool hreflagged =>
      exact .inl (hvacant.sameAt (hreflagged.placed.frame (hvacant.ne hreflagged.stored.1)))
    | traded htrade' => exact absurd htrade' htrade

variable (swapConstraints) in
/-- One event, in which other programs do not get the signature of an address: they may send it
lamports, but a free one stays free. -/
def SparingStep (key : Pubkey) (l : Ledger) (event : Event) (l' : Ledger) : Prop :=
  Step swapConstraints l event l' ∧ (event = .foreign → l.Vacant key → l'.Vacant key)

/-- One event keeps a free address free, or makes its record, which stays. -/
theorem step_free (hfree : l.Free key) (h : SparingStep swapConstraints key l event l') :
    l'.Free key := by
  obtain ⟨h, hspares⟩ := h
  rcases hfree with hvacant | ⟨permission, hstored⟩
  · cases event with
    | foreign => exact .inl (hspares rfl hvacant)
    | instruction clock accounts input =>
      obtain ⟨instruction, hunpack, h⟩ := Outcome.bind_eq_ok.mp h
      exact processInstruction_free (SwapInstruction.wellFormed_of_unpack hunpack) hvacant h
  · obtain ⟨permission', hstored', -⟩ := step_record h hstored
    exact .inr ⟨permission', hstored'⟩

/-! ## Always -/

/-- A super admin of a pool can give rights to a key, whoever pays the rent. -/
def GrantsSucceed (swapConstraints : Option SwapConstraints) (swap grantee : Pubkey)
    (l : Ledger) : Prop :=
  ∀ {info permission target signer payer system rest data input clock},
    GrantAccounts l swap grantee info permission target signer payer system →
    SwapInstruction.unpack input = .ok (.initializePermission data) →
    data.permissionAuthority = grantee →
    ∃ l', processWithConstraints swapConstraints
        (info :: permission :: target :: signer :: payer :: system :: rest) input clock l = .ok l' ∧
      l'.table swap = Function.update (l.table swap) grantee
        (some ⟨data.isSuperAdmin, data.canUpdateParameters⟩) ∧
      Solana.minimumBalance Permission.LEN ≤ (l' target.key).lamports

/-- Grants cannot be blocked. From a ledger with the pool and an address that is free, over any run
in which other programs do not get the signature of the address, a super admin can give rights to
the key of that address, unless its record is there already. -/
theorem grants_cannot_be_blocked {l₀ : Ledger} {state : SwapV1} (hpool : l₀.StoresPool swap state)
    (hvacant : l₀.Vacant (permissionAddress swap grantee)) (hderives : DerivesRecord swap grantee)
    (hrun : Transition.Run (SparingStep swapConstraints (permissionAddress swap grantee)) l₀ events
      l) :
    (∃ permission, l.StoresPermission (permissionAddress swap grantee) permission) ∨
      GrantsSucceed swapConstraints swap grantee l := by
  obtain ⟨⟨state', howner, -⟩, hfree⟩ := hrun.invariant
    (P := fun l => (∃ state, Ledger.StoresPool l swap state) ∧
      Ledger.Free l (permissionAddress swap grantee))
    (fun ⟨hpool, hfree⟩ hstep => ⟨step_pool_stored hstep.1 hpool, step_free hfree hstep⟩)
    ⟨⟨state, hpool⟩, .inl hvacant⟩
  refine hfree.symm.imp_right ?_
  intro hvacant info permission target signer payer system rest data input clock haccounts hunpack
    hgrantee
  rw [← haccounts.address] at hvacant
  rw [processWithConstraints_of_unpack swapConstraints hunpack]
  obtain ⟨l', hprocess, hrent⟩ := processInitializePermission_succeeds haccounts howner hderives
    hvacant rest hgrantee
  refine ⟨l', hprocess, ?_, hrent⟩
  obtain ⟨_, _, _, _, _, hlist, -, -, hrecorded⟩ := processInitializePermission_eq_ok hprocess
  cases hlist
  have hentry := hrecorded.adds.table.2
  rw [haccounts.names, hgrantee] at hentry
  exact hentry

end Grants

namespace World

/-- The key that is given rights. -/
def grantee : Pubkey := 20#256

section Prefunded

attribute [local instance] Solana.native SplMath.reference Solana.Native.promises

/-- The address of its record. -/
def granted : Pubkey := permissionAddress swap grantee

/-- Someone sends a lamport to the address. -/
def prefunded (l : Ledger) : Ledger :=
  Solana.Native.put l granted { l granted with lamports := 1#64 }

theorem prefunded_sameAt (l : Ledger) (k : Pubkey) : l.SameAt (prefunded l) k :=
  Solana.Native.sameAt_put l granted 1#64 k

theorem prefunded_foreign (l : Ledger) : l.Foreign (prefunded l) := by
  refine ⟨fun _ => prefunded_sameAt l _, ?_⟩
  intro key howner howner'
  exact absurd ((prefunded_sameAt l key).1.symm.trans howner') howner

/-- After the Initialize the address is free, and the super admin can pay for a grant. -/
theorem initialized_native : ∃ l, SolanaPsm.Step none ledger initializeEvent l ∧ l.Vacant granted ∧
    GrantAccounts (prefunded l) swap grantee ⟨swap, false⟩ ⟨permission, false⟩ ⟨granted, false⟩
      ⟨superAdmin, true⟩ ⟨10#256, true⟩ ⟨SYSTEM_PROGRAM_ID, false⟩ := by
  have hrun : (do
      let l ← processWithConstraints none (⟨swap, false⟩ :: initializeRest) initializeInput clock
        ledger
      let record ← unpackPermission ⟨permission, false⟩ ⟨swap, false⟩ ⟨superAdmin, true⟩ l
      Outcome.rejectIf (¬ (record.isSuperAdmin = true ∧ l.Vacant granted ∧
        (prefunded l).Vacant 10#256 ∧
        Solana.minimumBalance Permission.LEN ≤ (prefunded l 10#256).lamports))
        (ProgramError.external 0)).isOk := by
    decide +kernel
  obtain ⟨⟨⟩, hrun⟩ := Outcome.isOk_iff.mp hrun
  simp only [Outcome.bind_eq_ok, Outcome.rejectIf_eq_ok, not_not] at hrun
  obtain ⟨l, hinit, record, hrecord, hadmin, hvacant, hwallet, hfunds⟩ := hrun
  obtain ⟨haddress, hstored, hswap, hauthority⟩ := unpackPermission_eq_ok.mp hrecord
  rw [haddress] at hstored
  exact ⟨l, hinit, hvacant, rfl, rfl,
    ⟨record, hstored.sameAt (prefunded_sameAt l _), hswap, hauthority, hadmin⟩, haddress, rfl, rfl,
    hwallet, by decide +kernel, hfunds, rfl⟩

/-- It may set the rates. -/
def grantData : InitializePermission := ⟨grantee, false, true⟩

/-- The input of the InitializePermission. -/
def grantInput : Bytes := (SwapInstruction.initializePermission grantData).pack

/-- Its accounts. -/
def grantAccounts : List AccountInfo :=
  [ ⟨swap, false⟩, ⟨permission, false⟩, ⟨granted, false⟩, ⟨superAdmin, true⟩, ⟨10#256, true⟩,
    ⟨SYSTEM_PROGRAM_ID, false⟩ ]

end Prefunded

end World

section Prefunded

attribute [local instance] Solana.native SplMath.reference Solana.Native.promises

/-- A grant to a key in whose way someone put a lamport. -/
theorem grants_cannot_be_blocked_prefunded :
    ∃ l₁ l₂ l₃, Step none World.ledger World.initializeEvent l₁ ∧
      SparingStep none World.granted l₁ .foreign l₂ ∧ (l₂ World.granted).lamports = 1#64 ∧
      Step none l₂ (.instruction World.later World.grantAccounts World.grantInput) l₃ ∧
      l₃.table World.swap World.grantee = some ⟨false, true⟩ := by
  obtain ⟨l₁, hinit, hvacant, haccounts⟩ := World.initialized_native
  have hinitializes : World.initializeEvent.Initializes World.swap :=
    ⟨World.clock, _, _, _, ⟨World.initializeInput, rfl, World.unpack_initializeInput⟩, rfl⟩
  obtain ⟨_, _, state, hcreated⟩ := step_initializes hinit hinitializes
  have hpool : l₁.StoresPool World.swap state := ⟨hcreated.placed.owner, hcreated.stored⟩
  have hvacant₂ : (World.prefunded l₁).Vacant World.granted :=
    hvacant.sameAt (World.prefunded_sameAt l₁ _)
  have hstep : SparingStep none World.granted l₁ .foreign (World.prefunded l₁) :=
    ⟨World.prefunded_foreign l₁, fun _ _ => hvacant₂⟩
  have hderives : DerivesRecord World.swap World.grantee := by
    rw [DerivesRecord]
    decide +kernel
  have hunpack : SwapInstruction.unpack World.grantInput =
      .ok (.initializePermission World.grantData) := by decide +kernel
  rcases grants_cannot_be_blocked hpool hvacant hderives (.single hstep) with
    ⟨permission, hstored⟩ | hgrants
  · exact absurd rfl (hvacant₂.ne hstored.1)
  · obtain ⟨l₃, hgrant, htable, -⟩ := hgrants haccounts hunpack rfl
    refine ⟨l₁, _, l₃, hinit, hstep, ?_, hgrant, ?_⟩
    · rw [World.prefunded, Solana.Native.put_self]
    · rw [htable, Function.update_self]
      rfl

end Prefunded

end SolanaPsm
