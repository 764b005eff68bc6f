import SolanaPsm.Bank
import SolanaPsm.Clients

/-!
# Privileges

An instruction may only change the accounts it lists as writable; the runtime fails one that
changes another. The builders ask for enough: what a trade changes, and what an Initialize changes,
lamports included, they list as writable (`TradeOrder.changesAt`, `initializeSwap_changesAt`). So
no instruction fails for want of a write privilege, and nothing it lists as readonly ever changes.

That a call changes nothing but what it lists itself is the rule of the runtime
(`CallEffects.frame`), so nothing is assumed of the ledger.
-/

namespace SolanaPsm

namespace Ledger

variable {l l' l'' : Ledger}

/-- Only some accounts change. The others keep their owner, their lamports and their data. -/
def ChangesAt (l l' : Ledger) (P : Pubkey → Prop) : Prop := ∀ key, ¬ P key → l' key = l key

theorem ChangesAt.refl (l : Ledger) (P : Pubkey → Prop) : l.ChangesAt l P := fun _ _ => rfl

theorem ChangesAt.trans {P : Pubkey → Prop} (h : l.ChangesAt l' P) (h' : l'.ChangesAt l'' P) :
    l.ChangesAt l'' P := fun key hkey => (h' key hkey).trans (h key hkey)

theorem ChangesAt.mono {P Q : Pubkey → Prop} (h : l.ChangesAt l' P) (hPQ : ∀ key, P key → Q key) :
    l.ChangesAt l' Q := fun key hkey => h key fun hP => hkey (hPQ key hP)

theorem ChangesAt.write (l : Ledger) (key : Pubkey) (data : Bytes) :
    l.ChangesAt (l.write key data) (· = key) := fun _ hkey => write_of_ne data hkey

end Ledger

/-- Two accounts are listed. -/
theorem mem_pair {key a b : Pubkey} : key ∈ [a, b] ↔ key = a ∨ key = b := by
  rw [List.mem_cons, List.mem_singleton]

section Changes

variable [Solana] [CallEffects] {l l' : Ledger}

/-- A call changes what its instruction lists as writable. -/
theorem invoke_changesAt {call : Call} {signers : List Pubkey} {seeds : List (List Bytes)}
    (h : Solana.invoke call signers seeds l = .ok l') : l.ChangesAt l' (· ∈ call.writes) :=
  fun _ hkey => CallEffects.frame h hkey

theorem invokeToken_changesAt {tokenProgram : Pubkey} {call : Call} {signers : List Pubkey}
    {seeds : List (List Bytes)} (h : invokeToken tokenProgram call signers seeds l = .ok l') :
    l.ChangesAt l' (· ∈ call.writes) := by
  obtain ⟨_, -, h⟩ := Outcome.bind_eq_ok.mp h
  exact invoke_changesAt h

/-- A call of a trade changes the accounts it names. -/
theorem TradeCalls.perform_changesAt {calls : TradeCalls} {e : PoolEffect}
    (h : calls.perform e l = .ok l') : l.ChangesAt l' (TradeInstruction.Changes calls e) := by
  cases e with
  | unpackMint token | unpackHostFeeAccount account =>
    obtain ⟨_, -, h⟩ := Outcome.bind_eq_ok.mp h
    obtain rfl := Outcome.ok.inj h
    exact .refl l _
  | payIn token amount =>
    obtain ⟨_, -, h⟩ := Outcome.bind_eq_ok.mp h
    exact (invokeToken_changesAt h).mono fun key hkey => mem_pair.mp hkey
  | payOut token amount =>
    obtain ⟨_, -, h⟩ := Outcome.bind_eq_ok.mp h
    exact (invokeToken_changesAt h).mono fun key hkey => (mem_pair.mp hkey).symm
  | mintTo account amount =>
    exact (invokeToken_changesAt h).mono fun key hkey => (mem_pair.mp hkey).symm
  | burn account amount =>
    exact (invokeToken_changesAt h).mono fun key hkey => mem_pair.mp hkey
  | transferPool source destination amount =>
    exact (invokeToken_changesAt h).mono fun key hkey => mem_pair.mp hkey

/-- A log changes the accounts its calls name. -/
theorem TradeCalls.performAll_changesAt {calls : TradeCalls} {log : List PoolEffect}
    (h : Script.performAll calls.perform log l = .ok l') :
    l.ChangesAt l' fun key => ∃ e ∈ log, TradeInstruction.Changes calls e key := by
  refine Script.performAll_invariant (P := fun l l' => l.ChangesAt l' fun key =>
    ∃ e ∈ log, TradeInstruction.Changes calls e key) (.refl · _) .trans ?_ h
  intro e he s t hcall
  exact (perform_changesAt hcall).mono fun key hkey => ⟨e, he, hkey⟩

/-- A trade changes accounts at the positions where its instruction may list some. -/
theorem trade_changesAt [SplMath] {swapConstraints : Option SwapConstraints}
    {accounts : List AccountInfo} {instruction : SwapInstruction} {clock : Clock}
    (htrade : instruction.IsTrade)
    (h : processInstruction swapConstraints accounts instruction clock l = .ok l') :
    l.ChangesAt l' fun key => ∃ position ∈ instruction.writablePositions,
      TradeInstruction.Lists accounts position key := by
  obtain ⟨prepared, state, hchecked, hperform⟩ := trade_checked htrade h
  obtain ⟨log, ⟨⟩, hscript, hlog⟩ := Script.run_eq_ok.mp hperform
  refine (TradeCalls.performAll_changesAt hlog).mono ?_
  rintro key ⟨e, he, hkey⟩
  have hmayCall := (Amounts.emits_mayCall prepared.trade.instruction).of_returns hscript
  rw [← hchecked.request]
  exact hchecked.writable e (hmayCall e he) key hkey

/-- Funding a record that has a balance takes from the payer. -/
theorem fundPermissionAccount_changesAt {payer account : Pubkey} {lamports : U64}
    {seeds : List (List Bytes)} {signers : List Pubkey}
    (h : fundPermissionAccount payer account lamports seeds signers l = .ok l') :
    l.ChangesAt l' fun key => key = payer ∨ key = account := by
  simp only [fundPermissionAccount, Outcome.bind_eq_ok] at h
  obtain ⟨l₁, htransfer, l₂, hallocate, hassign⟩ := h
  have hfunded : l.ChangesAt l₁ fun key => key = payer ∨ key = account := by
    split at htransfer
    · exact (invoke_changesAt htransfer).mono fun key hkey => mem_pair.mp hkey
    · obtain rfl := Outcome.ok.inj htransfer
      exact .refl l _
  have hallocated := (invoke_changesAt hallocate).mono
    (Q := fun key => key = payer ∨ key = account) fun key hkey => .inr (List.mem_singleton.mp hkey)
  have hassigned := (invoke_changesAt hassign).mono
    (Q := fun key => key = payer ∨ key = account) fun key hkey => .inr (List.mem_singleton.mp hkey)
  exact (hfunded.trans hallocated).trans hassigned

/-- Creating a record takes its rent from the payer. -/
theorem createPermissionAccount_changesAt {payer permissionAccount systemProgram : AccountInfo}
    {swap permissionAuthority : Pubkey} {signers : List Pubkey}
    (h : createPermissionAccount payer permissionAccount systemProgram swap permissionAuthority
      signers l = .ok l') :
    l.ChangesAt l' fun key => key = payer.key ∨ key = permissionAccount.key := by
  simp only [createPermissionAccount, Outcome.bind_eq_ok, Outcome.rejectIf_eq_ok, exists_const,
    not_not] at h
  obtain ⟨haddress, -, _, -, h⟩ := h
  rw [haddress]
  split at h
  · exact (invoke_changesAt h).mono fun key hkey => mem_pair.mp hkey
  · exact fundPermissionAccount_changesAt h

/-- The record of a super admin is created and written. -/
theorem createSuperAdmin_changesAt {infos : InitializeAccounts} {pool : NewPool}
    {signers : List Pubkey} (h : createSuperAdmin infos pool signers l = .ok l') :
    ∃ permission superAdmin payer rest, infos.rest = permission :: superAdmin :: payer :: rest ∧
      l.ChangesAt l' fun key => key = payer.key ∨ key = permission.key := by
  simp only [createSuperAdmin, Outcome.bind_eq_ok, Prod.exists, nextAccountInfo_eq_ok,
    Outcome.rejectIf_eq_ok, exists_const, Outcome.pure_eq, Outcome.ok.injEq] at h
  obtain ⟨-, permission, _, hpermission, superAdmin, _, rfl, payer, _, rfl, system, _, -, l₁,
    hcreate, record, -, rfl⟩ := h
  refine ⟨permission, superAdmin, payer, _, hpermission, ?_⟩
  exact (createPermissionAccount_changesAt hcreate).trans
    ((Ledger.ChangesAt.write l₁ _ record).mono fun _ => .inr)

/-- An Initialize changes the pool, the pool mint and the account of the initial supply, and for a
curve with rates the record of the super admin and who pays for it. -/
theorem processInitialize_changesAt {swapConstraints : Option SwapConstraints}
    {data : Initialize} {accounts : List AccountInfo} {clock : Clock}
    {infos : InitializeAccounts} (hinfos : initializeAccounts accounts = .ok infos)
    (h : processInitialize swapConstraints data accounts clock l = .ok l') :
    l.ChangesAt l' fun key => (key = infos.swap ∨ key = infos.poolMint ∨ key = infos.destination) ∨
      data.swapCurve.curveType = .redemptionRateCurve ∧ ∃ permission superAdmin payer rest,
        infos.rest = permission :: superAdmin :: payer :: rest ∧
          (key = payer.key ∨ key = permission.key) := by
  simp only [processInitialize, Outcome.bind_eq_ok, Outcome.pure_eq, Outcome.ok.injEq] at h
  obtain ⟨_, hinfos', pool, -, ⟨⟩, -, initialAmount, -, l₁, hmint, l₂, hadmin, bytes, -, rfl⟩ := h
  obtain rfl := Outcome.ok.inj (hinfos.symm.trans hinfos')
  refine ((invokeToken_changesAt hmint).mono fun key hkey => .inl (.inr (mem_pair.mp hkey))).trans
    (.trans ?_ ((Ledger.ChangesAt.write l₂ _ bytes).mono fun _ hkey => .inl (.inl hkey)))
  split at hadmin
  · rename_i hcurve
    obtain ⟨permission, superAdmin, payer, rest, hrest, hchanges⟩ :=
      createSuperAdmin_changesAt hadmin
    exact hchanges.mono fun key hkey =>
      .inr ⟨hcurve, permission, superAdmin, payer, rest, hrest, hkey⟩
  · obtain rfl := Outcome.ok.inj hadmin
    exact .refl l₁ _

end Changes

/-! ## The builders -/

namespace Instruction

variable {instruction : Instruction} {signers : List Pubkey} {position : ℕ} {key : Pubkey}

/-- An account at a writable position may be written. -/
theorem writes_of_lists (hposition : ∀ account, instruction.accounts[position]? = some account →
      account.isWritable = true)
    (h : TradeInstruction.Lists (instruction.accountInfos signers) position key) :
    instruction.Writes key := by
  rw [TradeInstruction.Lists, accountInfos, List.getElem?_map, Option.map_map,
    Option.map_eq_some_iff] at h
  obtain ⟨account, haccount, hkey⟩ := h
  exact ⟨account, List.mem_of_getElem? haccount, hkey, hposition account haccount⟩

end Instruction

namespace TradeOrder

/-- The builders list as writable what stands where a trade may change it. -/
theorem isWritable_build (order : TradeOrder) {position : ℕ} {account : AccountMeta}
    (hposition : position ∈ order.request.writablePositions)
    (haccount : (order.build ID).accounts[position]? = some account) :
    account.isWritable = true := by
  have hall : order.request.writablePositions.all (fun position =>
      (order.build ID).accounts[position]?.all (·.isWritable)) = true := by
    cases order with
    | swap keys data =>
      obtain ⟨_, _, _, _, _, _, _, _, _, _, _, _, _, _, hostFee⟩ := keys
      cases hostFee with
      | none => rfl
      | some host => rfl
    | depositAllTokenTypes | withdrawAllTokenTypes | depositSingleTokenTypeExactAmountIn
    | withdrawSingleTokenTypeExactAmountOut => rfl
  have hwritable := List.all_eq_true.mp hall position hposition
  rw [haccount] at hwritable
  exact hwritable

end TradeOrder

section Built

variable [Solana] [SplMath] [CallEffects] {swapConstraints : Option SwapConstraints}
  {l l' : Ledger} {signers : List Pubkey} {clock : Clock}

/-- A built trade changes only what it lists as writable. -/
theorem TradeOrder.changesAt {order : TradeOrder}
    (h : (order.build ID).process swapConstraints signers clock l = .ok l') :
    l.ChangesAt l' (order.build ID).Writes := by
  rw [Instruction.process_of_unpack (order.unpack_build ID)] at h
  refine (trade_changesAt order.isTrade_request h).mono ?_
  rintro key ⟨position, hposition, hlists⟩
  exact Instruction.writes_of_lists (fun _ => order.isWritable_build hposition) hlists

/-- A built Initialize changes only what it lists as writable. -/
theorem initializeSwap_changesAt {keys : InitializeKeys} {fees : Fees} {swapCurve : SwapCurve}
    {extra : Option RedemptionRateExtraAccounts} {built : Instruction}
    (hwell : swapCurve.WellFormed)
    (hbuilt : Build.initializeSwap ID keys fees swapCurve extra = .ok built)
    (h : built.process swapConstraints signers clock l = .ok l') :
    l.ChangesAt l' built.Writes := by
  have hunpack : SwapInstruction.unpack (SwapInstruction.initializeSwap ⟨fees, swapCurve⟩).pack =
      .ok (.initializeSwap ⟨fees, swapCurve⟩) := SwapInstruction.unpack_pack_initialize hwell
  rw [Build.initializeSwap] at hbuilt
  split at hbuilt
  · rename_i hcurve
    obtain ⟨extra, -, hbuilt⟩ := Outcome.bind_eq_ok.mp hbuilt
    obtain rfl := Outcome.ok.inj hbuilt
    rw [Instruction.process_of_unpack hunpack] at h
    refine (processInitialize_changesAt rfl h).mono ?_
    rintro key ((rfl | rfl | rfl) | ⟨-, permission, superAdmin, payer, rest, hrest, hkey⟩)
    · exact ⟨.new keys.swap true, by simp, rfl, rfl⟩
    · exact ⟨.new keys.pool false, by simp, rfl, rfl⟩
    · exact ⟨.new keys.destination false, by simp, rfl, rfl⟩
    · obtain ⟨hpermission, hrest⟩ := List.cons.inj hrest
      obtain ⟨-, hrest⟩ := List.cons.inj hrest
      obtain ⟨hpayer, -⟩ := List.cons.inj hrest
      rcases hkey with rfl | rfl
      · exact ⟨.new extra.payer true, by simp, congrArg AccountInfo.key hpayer, rfl⟩
      · exact ⟨.new extra.permissionAccount false, by simp,
          congrArg AccountInfo.key hpermission, rfl⟩
  · rename_i hcurve
    obtain rfl := Outcome.ok.inj hbuilt
    rw [Instruction.process_of_unpack hunpack] at h
    refine (processInitialize_changesAt rfl h).mono ?_
    rintro key ((rfl | rfl | rfl) | ⟨hrate, -⟩)
    · exact ⟨.new keys.swap true, by simp, rfl, rfl⟩
    · exact ⟨.new keys.pool false, by simp, rfl, rfl⟩
    · exact ⟨.new keys.destination false, by simp, rfl, rfl⟩
    · exact absurd hrate hcurve

/-- The builders ask for the write privileges that are needed. In every ledger, and whatever
addresses they are given, a built trade and a built Initialize that succeed change only accounts
they list as writable: the owner, the lamports and the data of any other account are kept. -/
theorem built_instructions_change_what_they_list :
    (∀ {order : TradeOrder} {signers clock l l'},
      (order.build ID).process swapConstraints signers clock l = .ok l' →
      l.ChangesAt l' (order.build ID).Writes) ∧
    ∀ {keys fees swapCurve extra built signers clock l l'}, swapCurve.WellFormed →
      Build.initializeSwap ID keys fees swapCurve extra = .ok built →
      built.process swapConstraints signers clock l = .ok l' → l.ChangesAt l' built.Writes :=
  ⟨TradeOrder.changesAt, initializeSwap_changesAt⟩

end Built

section Market

attribute [local instance] Solana.bank SplMath.reference Solana.Bank.effects

/-- The Initialize of a redemption-rate pool, whose record the payer of the world pays for. -/
theorem built_instructions_change_what_they_list_world :
    ∃ built l', Build.initializeSwap ID World.keys World.initializeData.fees
        World.initializeData.swapCurve
        (some ⟨World.permission, World.superAdmin, 10#256, SYSTEM_PROGRAM_ID⟩) = .ok built ∧
      built.process none [World.swap, World.superAdmin, 10#256] World.clock World.ledger = .ok l' ∧
      World.ledger.ChangesAt l' built.Writes ∧
      (l' 10#256).lamports ≠ (World.ledger 10#256).lamports := by
  have hrun : (do
      let built ← Build.initializeSwap ID World.keys World.initializeData.fees
        World.initializeData.swapCurve
        (some ⟨World.permission, World.superAdmin, 10#256, SYSTEM_PROGRAM_ID⟩)
      let l' ← built.process none [World.swap, World.superAdmin, 10#256] World.clock World.ledger
      Outcome.rejectIf ((l' 10#256).lamports = (World.ledger 10#256).lamports)
        (ProgramError.external 0)).isOk := by
    decide +kernel
  simp only [Outcome.isOk_iff, Outcome.bind_eq_ok, Outcome.rejectIf_eq_ok] at hrun
  obtain ⟨-, built, hbuilt, l', hprocess, hpaid⟩ := hrun
  have hwell : World.initializeData.swapCurve.WellFormed := rfl
  exact ⟨built, l', hbuilt, hprocess,
    built_instructions_change_what_they_list.2 hwell hbuilt hprocess, hpaid⟩

end Market

end SolanaPsm
