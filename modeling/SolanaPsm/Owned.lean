import SolanaPsm.Program

/-!
# The accounts of the program

What one event does to a single account, for each kind of content the program owns: zeros,
a pool, or a permission record. The two kinds of content carry no tag, but differ in length
(`StoresPool.not_permission`).

`step_owned` lists what can happen to an account the program owns, `step_unowned` what can
happen to any other. All invariants over runs are derived from these two.
-/

namespace SolanaPsm

/-! ## Contents -/

namespace Ledger

variable {l l' : Ledger} {key : Pubkey}

/-- A pool is stored at an address. -/
def StoresPool (l : Ledger) (key : Pubkey) (state : SwapV1) : Prop :=
  (l key).owner = ID ∧ SwapVersion.unpack (l key).data = .ok state

theorem StoresPool.unique {state state' : SwapV1} (h : l.StoresPool key state)
    (h' : l.StoresPool key state') : state = state' :=
  Outcome.ok.inj (h.2.symm.trans h'.2)

theorem StoresPool.length {state : SwapV1} (h : l.StoresPool key state) :
    (l key).data.length = SwapVersion.LATEST_LEN := SwapVersion.length_of_unpack h.2

theorem StoresPool.sameAt {state : SwapV1} (h : l.StoresPool key state) (hsame : l.SameAt l' key) :
    l'.StoresPool key state := by
  rw [StoresPool, hsame.1, hsame.2]
  exact h

theorem StoresPermission.unique {p p' : Permission} (h : l.StoresPermission key p)
    (h' : l.StoresPermission key p') : p = p' :=
  Outcome.ok.inj (h.2.symm.trans h'.2)

theorem StoresPermission.length {p : Permission} (h : l.StoresPermission key p) :
    (l key).data.length = Permission.LEN := (Permission.unpack_eq_ok.mp h.2).1

theorem StoresPermission.initialized {p : Permission} (h : l.StoresPermission key p) :
    p.isInitialized = true := (Permission.unpack_eq_ok.mp h.2).2.2

theorem StoresPermission.sameAt {p : Permission} (h : l.StoresPermission key p)
    (hsame : l.SameAt l' key) : l'.StoresPermission key p := by
  rw [StoresPermission, hsame.1, hsame.2]
  exact h

/-- A record that was placed is stored. -/
theorem StoresPermission.of_placed {p : Permission} (hinit : p.isInitialized = true)
    (h : l.Placed l' key ID p.packed) : l'.StoresPermission key p :=
  ⟨h.owner, by rw [h.data]; exact Permission.unpack_packed hinit⟩

/-- An account of the length of a pool is no record. -/
theorem StoresPermission.not_length {p : Permission} (h : l.StoresPermission key p) :
    (l key).data.length ≠ SwapVersion.LATEST_LEN := by
  rw [h.length]
  decide

/-- A pool is no record. -/
theorem StoresPool.not_permission {state : SwapV1} {p : Permission} (h : l.StoresPool key state) :
    ¬ l.StoresPermission key p := fun hp => hp.not_length h.length

theorem SameAt.symm (h : SameAt l l' key) : SameAt l' l key := ⟨h.1.symm, h.2.symm⟩

end Ledger

/-- The record with its new flags is stored. -/
theorem Reflagged.stored' {l l' : Ledger} {key : Pubkey} {record : Permission}
    {isSuperAdmin canUpdateParameters : Bool}
    (h : Reflagged l l' key record isSuperAdmin canUpdateParameters) :
    l'.StoresPermission key { record with isSuperAdmin, canUpdateParameters } := by
  have hinit := h.stored.initialized
  exact .of_placed hinit h.placed

/-! ## Events -/

namespace Event

/-- The event is a given instruction. -/
def Carries (event : Event) (clock : Clock) (accounts : List AccountInfo)
    (instruction : SwapInstruction) : Prop :=
  ∃ input, event = .instruction clock accounts input ∧
    SwapInstruction.unpack input = .ok instruction

/-- The event is an instruction that names the pool. -/
def Names (event : Event) (swap : Pubkey) : Prop :=
  ∃ clock info rest input, event = .instruction clock (info :: rest) input ∧ info.key = swap

/-- The event is an instruction signed by the key. -/
def SignedBy (event : Event) (key : Pubkey) : Prop :=
  ∃ clock accounts input, event = .instruction clock accounts input ∧
    ∃ info ∈ accounts, info.key = key ∧ info.isSigner = true

/-- The event is an Initialize of the pool. -/
def Initializes (event : Event) (swap : Pubkey) : Prop :=
  ∃ clock info rest data, event.Carries clock (info :: rest) (.initializeSwap data) ∧
    info.key = swap

/-- The event is a SetRates of the pool. -/
def SetsRates (event : Event) (swap : Pubkey) (clock : Clock) (data : SetRates) : Prop :=
  ∃ info rest, event.Carries clock (info :: rest) (.setRates data) ∧ info.key = swap

variable {event : Event} {swap : Pubkey}

theorem Initializes.names (h : event.Initializes swap) : event.Names swap := by
  obtain ⟨clock, info, rest, data, ⟨input, hevent, -⟩, hswap⟩ := h
  exact ⟨clock, info, rest, input, hevent, hswap⟩

theorem SetsRates.names {clock : Clock} {data : SetRates} (h : event.SetsRates swap clock data) :
    event.Names swap := by
  obtain ⟨info, rest, ⟨input, hevent, -⟩, hswap⟩ := h
  exact ⟨clock, info, rest, input, hevent, hswap⟩

/-- An instruction names one pool. -/
theorem Names.unique {swap' : Pubkey} (h : event.Names swap) (h' : event.Names swap') :
    swap = swap' := by
  obtain ⟨_, info, _, _, rfl, hswap⟩ := h
  obtain ⟨_, info', _, _, hevent, hswap'⟩ := h'
  cases hevent
  exact hswap.symm.trans hswap'

end Event

/-! ## One event, one account -/

section Step

variable [Solana] [SplMath] {swapConstraints : Option SwapConstraints} {event : Event}
  {l l' : Ledger} {key : Pubkey}

/-- What can happen to an account the program owns. -/
inductive OwnedChange (event : Event) (l l' : Ledger) (key : Pubkey) : Prop where
  /-- nothing -/
  | kept (hsame : l.SameAt l' key)
  /-- it becomes a pool -/
  | initialized {l₁ l₂ : Ledger} {state : SwapV1} (hevent : event.Initializes key)
      (hcreated : PoolCreated l l₁ l₂ l' key state)
  /-- it is a pool, and its rates are set -/
  | ratesSet {signer : Pubkey} {clock : Clock} {data : SetRates} {state : SwapV1}
      {curve curve' : RedemptionRateCurve} (hevent : event.SetsRates key clock data)
      (hsigned : event.SignedBy signer)
      (hpermits : l.Permits key signer Permission.canUpdateParameters)
      (hset : RatesSet l l' key data clock state curve curve')
  /-- it is a record, and its flags are changed -/
  | reflagged {signer : Pubkey} {record : Permission} {isSuperAdmin canUpdateParameters : Bool}
      (hnames : event.Names record.swap) (hsigned : event.SignedBy signer)
      (hpermits : l.Permits record.swap signer Permission.isSuperAdmin)
      (hreflagged : Reflagged l l' key record isSuperAdmin canUpdateParameters)

/-- What can happen to an account the program does not own. -/
inductive UnownedChange (event : Event) (l l' : Ledger) (key : Pubkey) : Prop where
  /-- nothing the program knows of -/
  | zeroed (hzeroed : (l' key).owner = ID → Zeroed (l' key).data)
  /-- it becomes the record of a super admin of a new pool -/
  | superAdmin {l₁ l₂ : Ledger} {swap authority : Pubkey} {state : SwapV1}
      (hevent : event.Initializes swap) (hcreated : PoolCreated l l₁ l₂ l' swap state)
      (haddress : key = permissionAddress swap authority)
      (hstored : l'.StoresPermission key ⟨true, swap, authority, true, true⟩)
  /-- it becomes a record a super admin asks for -/
  | recorded {signer : Pubkey} {record : Permission} (hstored : l'.StoresPermission key record)
      (haddress : key = permissionAddress record.swap record.authority)
      (hnames : event.Names record.swap) (hsigned : event.SignedBy signer)
      (hpermits : l.Permits record.swap signer Permission.isSuperAdmin)

/-- One event, seen from an account of the program. -/
theorem step_owned (h : Step swapConstraints l event l') (howner : (l key).owner = ID) :
    OwnedChange event l l' key := by
  rcases step_cases h with ⟨-, hforeign⟩ | ⟨clock, accounts, input, instruction, rfl, hunpack, h⟩
  · exact .kept (hforeign.kept howner)
  cases h with
  | initialized haccounts hcreated =>
    rename_i data swap rest l₁ l₂ state
    by_cases hkey : key = swap.key
    · subst hkey haccounts
      exact .initialized ⟨clock, swap, rest, data, ⟨input, rfl, hunpack⟩, rfl⟩ hcreated
    · refine .kept ?_
      have hsame₁ := hcreated.minted.kept howner
      have hsame₂ : l.SameAt l₂ key := by
        rcases hcreated.admin with rfl | ⟨target, authority, hrecorded⟩
        · exact hsame₁
        · have hne := Ledger.ne_of_owned hrecorded.vacant (hsame₁.1.trans howner)
          exact hsame₁.trans (hrecorded.placed.frame hne)
      exact hsame₂.trans (hcreated.placed.frame hkey)
  | ratesSet haccounts hsigner hpermits hset =>
    rename_i data swap permission signer rest state curve curve'
    by_cases hkey : key = swap.key
    · subst hkey haccounts
      refine .ratesSet ⟨swap, _, ⟨input, rfl, hunpack⟩, rfl⟩
        ⟨clock, _, input, rfl, signer, ?_, rfl, hsigner⟩ hpermits hset
      simp
    · exact .kept (hset.placed.frame hkey)
  | recorded haccounts hsigner hpermits hrecorded =>
    exact .kept (hrecorded.placed.frame (Ledger.ne_of_owned hrecorded.vacant howner))
  | reflagged haccounts hsigner hpermits hpool hreflagged =>
    rename_i data swap permission target signer rest record
    by_cases hkey : key = target.key
    · subst hkey haccounts
      rw [← hpool] at hpermits
      refine .reflagged ⟨clock, swap, _, input, rfl, hpool.symm⟩
        ⟨clock, _, input, rfl, signer, ?_, rfl, hsigner⟩ hpermits hreflagged
      simp
    · exact .kept (hreflagged.placed.frame hkey)
  | traded htrade hforeign => exact .kept (hforeign.kept howner)

/-- One event, seen from any other account. -/
theorem step_unowned (h : Step swapConstraints l event l') (howner : (l key).owner ≠ ID) :
    UnownedChange event l l' key := by
  rcases step_cases h with ⟨-, hforeign⟩ | ⟨clock, accounts, input, instruction, rfl, hunpack, h⟩
  · exact .zeroed (hforeign.fresh howner)
  cases h with
  | initialized haccounts hcreated =>
    rename_i data swap rest l₁ l₂ state
    have hkey : key ≠ swap.key := by
      rintro rfl
      exact howner hcreated.owner
    have hsame := hcreated.placed.frame hkey
    have hzeroed (hsame₂ : l₁.SameAt l₂ key) :
        UnownedChange (.instruction clock accounts input) l l' key := by
      refine .zeroed ?_
      intro howner'
      have hsame' := hsame₂.trans hsame
      rw [hsame'.2]
      exact hcreated.minted.fresh howner (hsame'.1.symm.trans howner')
    rcases hcreated.admin with hnone | ⟨target, authority, hrecorded⟩
    · exact hzeroed (hnone ▸ .refl l₁ key)
    · by_cases htarget : key = target
      · subst htarget haccounts
        exact .superAdmin ⟨clock, swap, rest, data, ⟨input, rfl, hunpack⟩, rfl⟩ hcreated
          hrecorded.address (.sameAt (.of_placed rfl hrecorded.placed) hsame)
      · exact hzeroed (hrecorded.placed.frame htarget)
  | ratesSet haccounts hsigner hpermits hset =>
    rename_i data swap permission signer rest state curve curve'
    have hkey : key ≠ swap.key := by
      rintro rfl
      exact howner hset.owner
    exact .zeroed fun howner' =>
      absurd ((hset.placed.frame hkey).1.symm.trans howner') howner
  | recorded haccounts hsigner hpermits hrecorded =>
    rename_i data swap permission target signer rest
    by_cases hkey : key = target.key
    · subst hkey haccounts
      refine .recorded (.of_placed rfl hrecorded.placed) hrecorded.address
        ⟨clock, swap, _, input, rfl, rfl⟩ ⟨clock, _, input, rfl, signer, ?_, rfl, hsigner⟩ hpermits
      simp
    · exact .zeroed fun howner' =>
        absurd ((hrecorded.placed.frame hkey).1.symm.trans howner') howner
  | reflagged haccounts hsigner hpermits hpool hreflagged =>
    rename_i data swap permission target signer rest record
    have hkey : key ≠ target.key := by
      rintro rfl
      exact howner hreflagged.stored.1
    exact .zeroed fun howner' =>
      absurd ((hreflagged.placed.frame hkey).1.symm.trans howner') howner
  | traded htrade hforeign => exact .zeroed (hforeign.fresh howner)

/-- The event has the effect of its instruction. -/
theorem step_carries {clock : Clock} {accounts : List AccountInfo} {instruction : SwapInstruction}
    (h : Step swapConstraints l event l') (hevent : event.Carries clock accounts instruction) :
    Effect accounts clock l l' instruction := by
  obtain ⟨input, rfl, hunpack⟩ := hevent
  rw [Step, processWithConstraints_of_unpack swapConstraints hunpack] at h
  exact processInstruction_effect (SwapInstruction.wellFormed_of_unpack hunpack) h

/-- An Initialize creates the pool it names. -/
theorem step_initializes (h : Step swapConstraints l event l') (hevent : event.Initializes key) :
    ∃ l₁ l₂ state, PoolCreated l l₁ l₂ l' key state := by
  obtain ⟨clock, info, rest, data, hcarries, rfl⟩ := hevent
  cases step_carries h hcarries with
  | initialized haccounts hcreated =>
    obtain ⟨rfl, -⟩ := List.cons.inj haccounts
    exact ⟨_, _, _, hcreated⟩
  | traded htrade hforeign => exact htrade.elim

/-- A SetRates sets the rates of the pool it names. -/
theorem step_setsRates {clock : Clock} {data : SetRates} (h : Step swapConstraints l event l')
    (hevent : event.SetsRates key clock data) :
    ∃ state curve curve', RatesSet l l' key data clock state curve curve' := by
  obtain ⟨info, rest, hcarries, rfl⟩ := hevent
  cases step_carries h hcarries with
  | ratesSet haccounts hsigner hpermits hset =>
    obtain ⟨rfl, -⟩ := List.cons.inj haccounts
    exact ⟨_, _, _, hset⟩
  | traded htrade hforeign => exact htrade.elim

/-! ## One event, one pool -/

/-- One event keeps a pool as it is, or is a permitted SetRates of it. -/
theorem step_pool {state : SwapV1} (h : Step swapConstraints l event l')
    (hpool : l.StoresPool key state) :
    l.SameAt l' key ∨ ∃ signer clock data curve curve', event.SetsRates key clock data ∧
      event.SignedBy signer ∧ l.Permits key signer Permission.canUpdateParameters ∧
      RatesSet l l' key data clock state curve curve' := by
  cases step_owned h hpool.1 with
  | kept hsame => exact .inl hsame
  | initialized hevent hcreated =>
    -- a stored pool is in use
    have hused := SwapVersion.isInitialized_of_unpack hpool.2
    rw [hcreated.unused] at hused
    cases hused
  | ratesSet hevent hsigned hpermits hset =>
    obtain rfl := hpool.unique ⟨hset.owner, hset.unpack⟩
    exact .inr ⟨_, _, _, _, _, hevent, hsigned, hpermits, hset⟩
  | reflagged hnames hsigned hpermits hreflagged =>
    exact absurd hreflagged.stored hpool.not_permission

end Step

end SolanaPsm
