import SolanaPsm.AccessTable
import SolanaPsm.Authority
import SolanaPsm.CheckedTrade

/-!
# The permissions of a pool are an access table

The permission records of a pool, by their authorities (`Ledger.table`). A super admin is an
admin of the table, a key that may update the parameters an operator. Initialize founds it,
InitializePermission grants, UpdatePermission changes, and nothing else touches it
(`step_table`), so a run of the program is a run of the table of every pool.
-/

namespace SolanaPsm

open AccessTable (Act Rights Table Descends)

/-! ## Records -/

/-- The record at an address. -/
def Ledger.records (l : Ledger) (key : Pubkey) : Option Permission :=
  if (l key).owner = ID then
    match Permission.unpack (l key).data with
    | .ok permission => some permission
    | _ => none
  else none

section Records

variable {l l' : Ledger} {key : Pubkey} {permission : Permission}

theorem Ledger.records_eq_some :
    l.records key = some permission ↔ l.StoresPermission key permission := by
  rw [records, StoresPermission]
  split
  · rename_i howner
    split
    · simp_all
    · simp_all
  · simp_all

theorem Ledger.records_eq_none (h : ∀ permission, ¬ l.StoresPermission key permission) :
    l.records key = none :=
  Option.eq_none_iff_forall_not_mem.mpr fun permission hp => h permission (records_eq_some.mp hp)

theorem Ledger.SameAt.records (h : l.SameAt l' key) : l'.records key = l.records key := by
  rw [Ledger.records, Ledger.records, h.1, h.2]

/-- Other programs make no records. -/
theorem Ledger.Foreign.records (h : l.Foreign l') : l'.records = l.records := by
  funext key
  by_cases howner : (l key).owner = ID
  · exact (h.kept howner).records
  · have hold : l.records key = none :=
      Ledger.records_eq_none fun permission hp => howner hp.1
    rw [hold]
    exact Ledger.records_eq_none fun permission hp =>
      Permission.unpack_ne_ok_of_zeroed (h.fresh howner hp.1) permission hp.2

/-- Nor does an account of the length of a pool that stays so. -/
theorem Ledger.records_of_length (hlength : (l key).data.length = SwapVersion.LATEST_LEN)
    (hlength' : (l' key).data.length = SwapVersion.LATEST_LEN)
    (hframe : ∀ {k}, k ≠ key → l.SameAt l' k) : l'.records = l.records := by
  funext k
  by_cases hk : k = key
  · subst hk
    rw [Ledger.records_eq_none fun _ hp => hp.not_length hlength',
      Ledger.records_eq_none fun _ hp => hp.not_length hlength]
  · exact (hframe hk).records

/-- A record in the place of an account. -/
theorem Ledger.Placed.records_of_record (hinit : permission.isInitialized = true)
    (h : l.Placed l' key ID permission.packed) :
    l'.records = Function.update l.records key (some permission) := by
  funext k
  by_cases hk : k = key
  · subst hk
    rw [Function.update_self, Ledger.records_eq_some]
    exact .of_placed hinit h
  · rw [Function.update_of_ne hk]
    exact (h.frame hk).records

theorem Ledger.records_of_vacant (h : (l key).owner = SYSTEM_PROGRAM_ID) :
    l.records key = none :=
  Ledger.records_eq_none fun _ hp => Ledger.ne_of_owned h hp.1 rfl

end Records

/-! ## Tables -/

/-- The rights a record gives. -/
def Permission.rights (permission : Permission) : Rights where
  admin := permission.isSuperAdmin
  operator := permission.canUpdateParameters

section Tables

variable [Solana]

/-- The rights of the authorities of a pool, by the records at their addresses. -/
def tableOf (records : Pubkey → Option Permission) (swap : Pubkey) : Table Pubkey :=
  fun authority => ((records (permissionAddress swap authority)).filter
    fun permission => permission.swap = swap ∧ permission.authority = authority).map
    Permission.rights

/-- The access table of a pool. -/
def Ledger.table (l : Ledger) (swap : Pubkey) : Table Pubkey := tableOf l.records swap

variable {l l' : Ledger} {key swap authority : Pubkey} {permission : Permission}
  {records : Pubkey → Option Permission}

/-- A new or changed record changes the table of its pool, if it is where it is looked up. -/
theorem tableOf_update (hold : ∀ old ∈ records key, old.swap = permission.swap ∧
      old.authority = permission.authority) :
    tableOf (Function.update records key (some permission)) swap =
      if permission.swap = swap ∧ key = permissionAddress swap permission.authority then
        Function.update (tableOf records swap) permission.authority (some permission.rights)
      else tableOf records swap := by
  funext authority
  by_cases haddress : permissionAddress swap authority = key
  · subst haddress
    by_cases hpair : permission.swap = swap ∧ permission.authority = authority
    · obtain ⟨rfl, rfl⟩ := hpair
      simp [tableOf]
    · -- the record at the address of the pair is one of another pair, before and after
      have hnone : tableOf records swap authority = none := by
        rw [tableOf, Option.map_eq_none_iff, Option.filter_eq_none_iff]
        intro old hmem hdecide
        obtain ⟨hswap, hauthority⟩ := hold old hmem
        rw [decide_eq_true_eq, hswap, hauthority] at hdecide
        exact hpair hdecide
      have hnone' : tableOf (Function.update records (permissionAddress swap authority)
          (some permission)) swap authority = none := by
        simp only [tableOf, Function.update_self, Option.filter_some, decide_eq_true_eq,
          if_neg hpair, Option.map_none]
      rw [hnone']
      split
      · rename_i h
        have hne : authority ≠ permission.authority := fun he => hpair ⟨h.1, he.symm⟩
        rw [Function.update_of_ne hne, hnone]
      · exact hnone.symm
  · have hsame : tableOf (Function.update records key (some permission)) swap authority =
        tableOf records swap authority := by
      rw [tableOf, tableOf, Function.update_of_ne haddress]
    rw [hsame]
    split
    · rename_i h
      have hne : authority ≠ permission.authority := by
        rintro rfl
        exact haddress h.2.symm
      rw [Function.update_of_ne hne]
    · rfl

namespace Ledger

theorem table_eq_some {rights : Rights} :
    l.table swap authority = some rights ↔
      ∃ permission, l.StoresPermission (permissionAddress swap authority) permission ∧
        permission.swap = swap ∧ permission.authority = authority ∧
        permission.rights = rights := by
  simp only [table, tableOf, Option.map_eq_some_iff, Option.filter_eq_some_iff, records_eq_some,
    decide_eq_true_eq, and_assoc]

/-- What the record of an authority permits is what the table gives. -/
theorem permits_iff {flag : Permission → Bool} {right : Rights → Bool}
    (hright : ∀ permission : Permission, right permission.rights = flag permission) :
    l.Permits swap authority flag ↔
      ∃ rights ∈ l.table swap authority, right rights = true := by
  refine ⟨?_, ?_⟩
  · rintro ⟨permission, hstored, hswap, hauthority, hflag⟩
    exact ⟨permission.rights, table_eq_some.mpr ⟨permission, hstored, hswap, hauthority, rfl⟩,
      (hright permission).trans hflag⟩
  · rintro ⟨rights, hrights, hflag⟩
    obtain ⟨permission, hstored, hswap, hauthority, rfl⟩ := table_eq_some.mp hrights
    exact ⟨permission, hstored, hswap, hauthority, (hright permission).symm.trans hflag⟩

/-- The super admins are the admins of the table. -/
theorem permits_isSuperAdmin_iff :
    l.Permits swap authority Permission.isSuperAdmin ↔ (l.table swap).IsAdmin authority :=
  permits_iff fun _ => rfl

/-- The keys that may update the parameters are its operators. -/
theorem permits_canUpdateParameters_iff :
    l.Permits swap authority Permission.canUpdateParameters ↔
      (l.table swap).IsOperator authority :=
  permits_iff fun _ => rfl

end Ledger

/-- A record that permits is unpacked at its address. -/
theorem unpackPermission_of_permits {permissionInfo swapInfo signerInfo : AccountInfo}
    {flag : Permission → Bool}
    (haddress : permissionInfo.key = permissionAddress swapInfo.key signerInfo.key)
    (h : l.Permits swapInfo.key signerInfo.key flag) :
    ∃ permission, unpackPermission permissionInfo swapInfo signerInfo l = .ok permission ∧
      flag permission = true := by
  obtain ⟨permission, hstored, hswap, hauthority, hflag⟩ := h
  rw [← haddress] at hstored
  exact ⟨permission, unpackPermission_eq_ok.mpr ⟨haddress, hstored, hswap, hauthority⟩, hflag⟩

/-- The records are those of before, and a new one at its address, which was free. -/
structure AddsRecord (l l' : Ledger) (permission : Permission) : Prop where
  /-- nothing was there -/
  none : l.records (permissionAddress permission.swap permission.authority) = none
  /-- the record -/
  update : l'.records = Function.update l.records
    (permissionAddress permission.swap permission.authority) (some permission)

theorem Recorded.adds (h : Recorded l l' key permission) : AddsRecord l l' permission := by
  have hrecords := h.placed.records_of_record h.initialized
  have hnone := Ledger.records_of_vacant h.vacant
  rw [h.address] at hrecords hnone
  exact ⟨hnone, hrecords⟩

/-- A new record is a new entry in the table of its pool. -/
theorem AddsRecord.table (h : AddsRecord l l' permission) :
    l.table permission.swap permission.authority = Option.none ∧
      l'.table permission.swap = Function.update (l.table permission.swap) permission.authority
        (some permission.rights) := by
  refine ⟨?_, ?_⟩
  · rw [Ledger.table, tableOf, h.none]
    rfl
  · rw [Ledger.table, h.update, tableOf_update (by simp [h.none]), if_pos ⟨rfl, rfl⟩]
    rfl

/-- It is none in any other. -/
theorem AddsRecord.table_of_ne (h : AddsRecord l l' permission) (hne : permission.swap ≠ swap) :
    l'.table swap = l.table swap := by
  rw [Ledger.table, h.update, tableOf_update (by simp [h.none]), if_neg fun he => hne he.1]
  rfl

/-- New flags in a record change the table of its pool, if the record is where it is looked up. -/
theorem Reflagged.table {isSuperAdmin canUpdateParameters : Bool}
    (h : Reflagged l l' key permission isSuperAdmin canUpdateParameters) :
    l'.table swap =
      if permission.swap = swap ∧ key = permissionAddress swap permission.authority then
        Function.update (l.table swap) permission.authority
          (some ⟨isSuperAdmin, canUpdateParameters⟩)
      else l.table swap := by
  have hrecords : l'.records = Function.update l.records key
      (some { permission with isSuperAdmin, canUpdateParameters }) :=
    Ledger.Placed.records_of_record h.stored.initialized h.placed
  have hold : l.records key = some permission := Ledger.records_eq_some.mpr h.stored
  rw [Ledger.table, hrecords, tableOf_update (by simp [hold])]
  rfl

end Tables

/-! ## Initialize -/

section Initialize

/-- The accounts after the ten of Initialize are those of a super admin. -/
theorem initializeAccounts_rest {accounts : List AccountInfo} {infos : InitializeAccounts}
    (h : initializeAccounts accounts = .ok infos) : infos.rest = accounts.drop 10 := by
  simp only [initializeAccounts, Outcome.bind_eq_ok, Prod.exists, nextAccountInfo_eq_ok,
    Outcome.pure_eq, Outcome.ok.injEq] at h
  obtain ⟨_, _, rfl, _, _, rfl, _, _, rfl, _, _, rfl, _, _, rfl, _, _, rfl, _, _, rfl, _, _, rfl,
    _, _, rfl, _, _, rfl, rfl⟩ := h
  rfl

variable [Solana] {l l' : Ledger}

/-- The super admin is the second of the accounts left. -/
theorem createSuperAdmin_lists {infos : InitializeAccounts} {pool : NewPool}
    {signers : List Pubkey} (h : createSuperAdmin infos pool signers l = .ok l') :
    ∃ key founder, listedAt infos.rest (some 1) = some founder ∧
      Recorded l l' key ⟨true, infos.swap, founder, true, true⟩ := by
  simp only [createSuperAdmin, Outcome.bind_eq_ok, Prod.exists, nextAccountInfo_eq_ok,
    Outcome.rejectIf_eq_ok, exists_const, Outcome.pure_eq, Outcome.ok.injEq] at h
  obtain ⟨-, permission, _, hrest, admin, _, rfl, payer, _, -, system, _, -, l₁, hcreate, data,
    hpack, rfl⟩ := h
  obtain ⟨haddress, hvacant, hcreated⟩ := createPermissionAccount_placed hcreate
  rw [hrest]
  exact ⟨permission.key, admin.key, rfl, rfl, haddress, hvacant, hcreated.record hpack⟩

/-- What an Initialize does: the initial supply is minted; for a redemption-rate pool the super
admin it lists as its twelfth account is recorded; and the pool is stored. -/
structure InitializeCalls (accounts : List AccountInfo) (data : Initialize) (swap : Pubkey)
    (l l₁ l₂ l' : Ledger) : Prop where
  /-- the token program is called -/
  minted : ∃ tokenProgram mint destination authority bumpSeed amount,
    tokenMintTo swap tokenProgram mint destination authority bumpSeed amount (signersOf accounts)
      l = .ok l₁
  /-- the super admin -/
  admin : l₂ = l₁ ∨ data.swapCurve.curveType = .redemptionRateCurve ∧
    ∃ key founder, listedAt accounts (some 11) = some founder ∧
      Recorded l₁ l₂ key ⟨true, swap, founder, true, true⟩
  /-- the account of the pool is the program's -/
  owner : (l swap).owner = ID
  /-- it has the length of a pool, and keeps it -/
  length : (l₂ swap).data.length = SwapVersion.LATEST_LEN
  length' : (l' swap).data.length = SwapVersion.LATEST_LEN
  /-- nothing else is touched -/
  frame : ∀ {k}, k ≠ swap → l₂.SameAt l' k

theorem processInitialize_calls {swapConstraints : Option SwapConstraints} {data : Initialize}
    (hwell : data.swapCurve.WellFormed) {accounts : List AccountInfo} {clock : Clock}
    (h : processInitialize swapConstraints data accounts clock l = .ok l') :
    ∃ info rest l₁ l₂, accounts = info :: rest ∧
      InitializeCalls accounts data info.key l l₁ l₂ l' := by
  simp only [processInitialize, Outcome.bind_eq_ok, Outcome.pure_eq, Outcome.ok.injEq] at h
  obtain ⟨infos, hinfos, pool, hpool, _, hcheck, initialAmount, hamount, l₁, hmint, l₂, hadmin,
    bytes, hpack, rfl⟩ := h
  obtain ⟨info, rest, haccounts, hswap⟩ := initializeAccounts_eq_ok hinfos
  have howner := (checkNewPool_eq_ok hcheck hamount).1
  have hlength := (SwapVersion.pack_eq_ok.mp hpack).1
  have hunpack := SwapVersion.unpack_pack rfl hwell hpack
  refine ⟨info, rest, l₁, l₂, haccounts, ?_⟩
  rw [← hswap]
  refine ⟨⟨_, _, _, _, _, _, hmint⟩, ?_, howner, hlength, ?_, fun hk => .write bytes hk⟩
  · split at hadmin
    · rename_i hcurve
      obtain ⟨key, founder, hfounder, hrecorded⟩ := createSuperAdmin_lists hadmin
      refine .inr ⟨hcurve, key, founder, ?_, hrecorded⟩
      rw [initializeAccounts_rest hinfos] at hfounder
      rwa [listedAt, Option.bind_some, List.getElem?_drop] at hfounder
    · exact .inl (Outcome.ok.inj hadmin).symm
  · rw [Ledger.write_self]
    exact SwapVersion.length_of_unpack hunpack

/-- An Initialize adds no record, or, for a redemption-rate pool, that of the super admin it
lists. -/
theorem InitializeCalls.records {accounts : List AccountInfo} {data : Initialize} {swap : Pubkey}
    {l₁ l₂ : Ledger} (h : InitializeCalls accounts data swap l l₁ l₂ l') :
    l'.records = l.records ∨ data.swapCurve.curveType = .redemptionRateCurve ∧
      ∃ founder, listedAt accounts (some 11) = some founder ∧
        AddsRecord l l' ⟨true, swap, founder, true, true⟩ := by
  -- the token program makes no records, and storing the pool makes none
  obtain ⟨_, _, _, _, _, _, hmint⟩ := h.minted
  have hminted : l₁.records = l.records := (foreign_of_tokenMintTo hmint).records
  have hstored : l'.records = l₂.records :=
    Ledger.records_of_length h.length h.length' fun hk => h.frame hk
  rcases h.admin with rfl | ⟨hcurve, key, founder, hfounder, hrecorded⟩
  · exact .inl (hstored.trans hminted)
  · refine .inr ⟨hcurve, founder, hfounder, ?_, ?_⟩
    · rw [← hminted]
      exact hrecorded.adds.none
    · rw [hstored, ← hminted]
      exact hrecorded.adds.update

end Initialize

/-! ## Events -/

section Access

variable [Solana]

/-- What an event may do to the table of a pool. -/
inductive Event.Acts (swap : Pubkey) (event : Event) : Act Pubkey → Prop where
  /-- Initialize of a redemption-rate pool, with the founder as its twelfth account -/
  | found {clock : Clock} {info : AccountInfo} {rest : List AccountInfo} {data : Initialize}
      {founder : Pubkey} (hevent : event.Carries clock (info :: rest) (.initializeSwap data))
      (hswap : info.key = swap) (hcurve : data.swapCurve.curveType = .redemptionRateCurve)
      (hfounder : listedAt (info :: rest) (some 11) = some founder) :
      Acts swap event (.found founder)
  /-- InitializePermission, signed by the grantor -/
  | grant {clock : Clock} {info permission target signer : AccountInfo} {rest : List AccountInfo}
      {data : InitializePermission}
      (hevent : event.Carries clock (info :: permission :: target :: signer :: rest)
        (.initializePermission data))
      (hswap : info.key = swap) (hsigner : signer.isSigner = true) :
      Acts swap event (.grant signer.key data.permissionAuthority
        ⟨data.isSuperAdmin, data.canUpdateParameters⟩)
  /-- UpdatePermission of the record of the holder, signed by the grantor -/
  | change {clock : Clock} {info permission target signer : AccountInfo} {rest : List AccountInfo}
      {data : UpdatePermission} {holder : Pubkey}
      (hevent : event.Carries clock (info :: permission :: target :: signer :: rest)
        (.updatePermission data))
      (hswap : info.key = swap) (hsigner : signer.isSigner = true)
      (htarget : target.key = permissionAddress swap holder) :
      Acts swap event (.change signer.key holder ⟨data.isSuperAdmin, data.canUpdateParameters⟩)
  /-- nothing -/
  | keep : Acts swap event .keep

/-- Who founds a pool initializes it. -/
theorem Event.Acts.initializes {swap founder : Pubkey} {event : Event}
    (h : event.Acts swap (.found founder)) : event.Initializes swap := by
  cases h with
  | found hevent hswap hcurve hfounder => exact ⟨_, _, _, _, hevent, hswap⟩

section Step

variable [SplMath] {swapConstraints : Option SwapConstraints} {event : Event} {l l' : Ledger}
  {swap : Pubkey}

/-- Every event acts on the table of every pool, or leaves it. -/
theorem step_table (h : Step swapConstraints l event l') :
    AccessTable.Step (Event.Acts swap) (l.table swap) event (l'.table swap) := by
  have hkeep (hsame : l'.table swap = l.table swap) :
      AccessTable.Step (Event.Acts swap) (l.table swap) event (l'.table swap) :=
    ⟨.keep, .keep, hsame⟩
  have hrecords (hsame : l'.records = l.records) : l'.table swap = l.table swap := by
    rw [Ledger.table, hsame, Ledger.table]
  rcases step_cases h with ⟨-, hforeign⟩ | ⟨clock, accounts, input, instruction, rfl, hunpack,
    heffect⟩
  · exact hkeep (hrecords hforeign.records)
  cases heffect with
  | initialized =>
    rw [Step, processWithConstraints_of_unpack swapConstraints hunpack] at h
    have hwell := SwapInstruction.wellFormed_of_unpack hunpack
    obtain ⟨info, rest, l₁, l₂, rfl, hcalls⟩ := processInitialize_calls hwell h
    rcases hcalls.records with hsame | ⟨hcurve, founder, hfounder, hadds⟩
    · exact hkeep (hrecords hsame)
    · by_cases hswap : info.key = swap
      · subst hswap
        exact ⟨.found founder, .found ⟨input, rfl, hunpack⟩ rfl hcurve hfounder, hadds.table⟩
      · exact hkeep (hadds.table_of_ne hswap)
  | ratesSet haccounts hsigner hpermits hset =>
    exact hkeep (hrecords (Ledger.records_of_length (SwapVersion.length_of_unpack hset.unpack)
      (SwapVersion.length_of_unpack hset.unpack') hset.placed.frame))
  | recorded haccounts hsigner hpermits hrecorded =>
    rename_i data info permission target signer rest
    subst haccounts
    by_cases hswap : info.key = swap
    · subst hswap
      rw [Ledger.permits_isSuperAdmin_iff] at hpermits
      exact ⟨.grant signer.key data.permissionAuthority _,
        .grant ⟨input, rfl, hunpack⟩ rfl hsigner, hpermits, hrecorded.adds.table⟩
    · exact hkeep (hrecorded.adds.table_of_ne hswap)
  | reflagged haccounts hsigner hpermits hpool hreflagged =>
    rename_i data info permission target signer rest record
    subst haccounts
    by_cases htable : record.swap = swap ∧ target.key = permissionAddress swap record.authority
    · obtain ⟨hswap, htarget⟩ := htable
      have hstored := hreflagged.stored
      rw [htarget] at hstored
      rw [← hpool, hswap, Ledger.permits_isSuperAdmin_iff] at hpermits
      have hsome : l.table swap record.authority = some record.rights :=
        Ledger.table_eq_some.mpr ⟨record, hstored, hswap, rfl, rfl⟩
      refine ⟨.change signer.key record.authority _,
        .change ⟨input, rfl, hunpack⟩ (hpool.symm.trans hswap) hsigner htarget, hpermits, ?_, ?_⟩
      · rw [hsome]
        exact Option.some_ne_none _
      · rw [hreflagged.table, if_pos ⟨hswap, htarget⟩]
    · refine hkeep ?_
      rw [hreflagged.table, if_neg htable]
  | traded htrade hforeign => exact hkeep (hrecords hforeign.records)

/-- A run of the program is a run of the table of every pool. -/
theorem run_table {events : List Event}
    (h : Transition.Run (Step swapConstraints) l events l') (swap : Pubkey) :
    Transition.Run (AccessTable.Step (Event.Acts swap)) (l.table swap) events (l'.table swap) :=
  h.map (Ledger.table · swap) step_table

end Step

end Access

end SolanaPsm
