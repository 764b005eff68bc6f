import SolanaPsm.Access

/-!
# Permissions over whole runs

What follows from runs of the access table of a pool. Every record of a pool goes back to the super
admin its Initialize lists, through InitializePermissions each signed by the authority of an earlier
record (`authority_descends_from_the_founder`). A pool without super admins stays so, and without
keys that may update its parameters all that is left are trades (`renounced_pool_is_frozen`). A
key that may update them keeps being served, whatever others do, until a super admin changes its
record (`granted_updater_is_served`).
-/

namespace SolanaPsm

open AccessTable (Descends)

/-! ## Setting the rates -/

/-- A stored pool is written back with new rates: its fixed bytes, then those. -/
theorem SwapVersion.pack_withCurve {data : Bytes} {state : SwapV1}
    {curve curve' : RedemptionRateCurve} (hcurve : state.swapCurve = .redemptionRate curve)
    (hmax : curve'.maxSsr = curve.maxSsr) (hunpack : SwapVersion.unpack data = .ok state) :
    SwapVersion.pack (state.withCurve curve') data =
      .ok (state.fixedBytes curve.maxSsr ++ curve'.rateBytes) := by
  obtain ⟨bytes, hpack⟩ : ∃ bytes, SwapVersion.pack (state.withCurve curve') data = .ok bytes :=
    ⟨_, SwapVersion.pack_eq_ok.mpr ⟨SwapVersion.length_of_unpack hunpack, rfl⟩⟩
  have hinit : state.isInitialized = true := ((SwapVersion.unpack_redemption hcurve).mp hunpack).1
  -- what is written is read back, and there is one way to write it
  have hread : SwapVersion.unpack bytes = .ok (state.withCurve curve') :=
    SwapVersion.unpack_pack hinit rfl hpack
  obtain ⟨-, hbytes⟩ := (SwapVersion.unpack_redemption (c := curve') rfl).mp hread
  rw [hpack, hbytes, SwapV1.fixedBytes_withCurve, hmax]

/-- A SetRates of a key that may update the parameters is what the curve makes of it. -/
theorem processCurveUpdate_of_permits [Solana] {l : Ledger} {info permission signer : AccountInfo}
    {rest : List AccountInfo} {state : SwapV1} {curve : RedemptionRateCurve}
    (hpool : l.StoresPool info.key state) (hcurve : state.swapCurve = .redemptionRate curve)
    (hpermission : permission.key = permissionAddress info.key signer.key)
    (hsigner : signer.isSigner = true)
    (hpermits : l.Permits info.key signer.key Permission.canUpdateParameters) (data : SetRates)
    (clock : Clock) :
    processCurveUpdate (info :: permission :: signer :: rest) data clock l =
      curve.setRates data.ssr data.rho data.chi clock.timestamp >>= fun curve' =>
        .ok (l.write info.key (state.fixedBytes curve.maxSsr ++ curve'.rateBytes)) := by
  obtain ⟨record, hunpack, hflag⟩ := unpackPermission_of_permits hpermission hpermits
  have hvalid : record.validateUpdateParamsPermission = .ok () :=
    Outcome.rejectIf_of_not (by rw [hflag]; exact Bool.noConfusion)
  have howner : Outcome.rejectIf ((l info.key).owner ≠ ID) ProgramError.illegalOwner = .ok () :=
    Outcome.rejectIf_of_not (not_not.mpr hpool.1)
  have hsigned : Outcome.rejectIf (signer.isSigner = false) ProgramError.missingRequiredSignature =
      .ok () := Outcome.rejectIf_of_not (by rw [hsigner]; exact Bool.noConfusion)
  have hextract : extractCurve (l info.key).data = .ok curve :=
    (extractCurve_of_unpack hpool.2).mpr hcurve
  rw [processCurveUpdate]
  simp only [nextAccountInfo, Outcome.ok_bind, howner, hsigned, hunpack, hvalid, hpool.2, hextract,
    createNewSwapState]
  cases hset : curve.setRates data.ssr data.rho data.chi clock.timestamp with
  | ok curve' =>
    have hmax : curve'.maxSsr = curve.maxSsr := by
      rw [(RedemptionRateCurve.Update.of_setRates hset).result]
      rfl
    have hpack := SwapVersion.pack_withCurve hcurve hmax hpool.2
    rw [SwapV1.withCurve, SwapCurve.redemptionRate] at hpack
    simp only [Outcome.ok_bind, Outcome.pure_eq, hpack]
  | err e => rfl
  | panic => rfl

section Runs

variable [Solana] {l l' l₀ : Ledger} {key swap authority : Pubkey}

/-! ## Entries -/

/-- A record in its place is an entry of the table of its pool. -/
theorem RecordsInPlace.table {permission : Permission} (hplace : RecordsInPlace l)
    (h : l.StoresPermission key permission) :
    l.table permission.swap permission.authority = some permission.rights := by
  have haddress := hplace key permission h
  subst haddress
  exact Ledger.table_eq_some.mpr ⟨permission, h, rfl, rfl, rfl⟩

/-- No table has an entry at the start. -/
theorem Genesis.table (h : Genesis l) : l.table swap authority = none := by
  rw [Option.eq_none_iff_forall_not_mem]
  rintro rights hrights
  obtain ⟨permission, ⟨howner, hunpack⟩, -⟩ := Ledger.table_eq_some.mp hrights
  exact Permission.unpack_ne_ok_of_zeroed (h _ howner) permission hunpack

variable [SplMath] {swapConstraints : Option SwapConstraints} {event : Event} {events : List Event}

/-- Every entry goes back to a founder. -/
theorem Genesis.run_origin (hgenesis : Genesis l₀)
    (hrun : Transition.Run (Step swapConstraints) l₀ events l)
    (hentry : l.table swap authority ≠ none) :
    ∃ before event after founder, events = before ++ event :: after ∧
      event.Acts swap (.found founder) ∧ Descends (Event.Acts swap) after founder authority := by
  rcases AccessTable.run_origin (run_table hrun swap) hentry with ⟨root, hroot, -⟩ | hfound
  · exact absurd hgenesis.table hroot
  · exact hfound

end Runs

/-! ## The reference runtime -/

namespace World

attribute [local instance] Solana.reference SplMath.reference

/-- The super admin gives up its rights over other keys. -/
def renounceData : UpdatePermission := ⟨false, true⟩

/-- Its input. -/
def renounceInput : Bytes := (SwapInstruction.updatePermission renounceData).pack

/-- The UpdatePermission of its own record. -/
def renounceEvent : Event :=
  .instruction later [⟨swap, false⟩, ⟨permission, false⟩, ⟨permission, false⟩, ⟨superAdmin, true⟩]
    renounceInput

/-- The Initialize, the UpdatePermission and a SetRates succeed. -/
theorem renounce_steps : ∃ l₁ l₂ l₃, Step ledger initializeEvent l₁ ∧ Step l₁ renounceEvent l₂ ∧
    Step l₂ setRatesEvent l₃ := by
  have hrun : (processWithConstraints none (⟨swap, false⟩ :: initializeRest) initializeInput clock
      ledger >>= fun l₁ => processWithConstraints none
        [⟨swap, false⟩, ⟨permission, false⟩, ⟨permission, false⟩, ⟨superAdmin, true⟩] renounceInput
        later l₁ >>= fun l₂ => processWithConstraints none
        [⟨swap, false⟩, ⟨permission, false⟩, ⟨superAdmin, true⟩] setRatesInput later l₂).isOk := by
    decide +kernel
  obtain ⟨l₃, hrun⟩ := Outcome.isOk_iff.mp hrun
  obtain ⟨l₁, hinit, hrun⟩ := Outcome.bind_eq_ok.mp hrun
  obtain ⟨l₂, hrenounce, hset⟩ := Outcome.bind_eq_ok.mp hrun
  exact ⟨l₁, l₂, l₃, hinit, hrenounce, hset⟩

/-- The SetRates is decoded. -/
theorem unpack_setRatesInput :
    SwapInstruction.unpack setRatesInput = .ok (.setRates setRatesData) := by
  decide +kernel

/-- The SetRates finds a redemption-rate pool and a key that may set its rates. -/
theorem permits_setRates {l l' : Ledger} (h : Step l setRatesEvent l') :
    ∃ state curve, l.StoresPool swap state ∧ state.swapCurve = .redemptionRate curve ∧
      l.Permits swap superAdmin Permission.canUpdateParameters := by
  cases step_carries h ⟨setRatesInput, rfl, unpack_setRatesInput⟩ with
  | ratesSet haccounts hsigner hpermits hset =>
    cases haccounts
    exact ⟨_, _, ⟨hset.owner, hset.unpack⟩, hset.swapCurve, hpermits⟩
  | traded htrade hforeign => exact htrade.elim

/-- The founder is the super admin it lists. -/
theorem founds_initializeEvent {founder : Pubkey}
    (h : initializeEvent.Acts swap (.found founder)) : founder = superAdmin := by
  cases h with
  | found hevent hswap hcurve hfounder =>
    obtain ⟨input, hevent, -⟩ := hevent
    cases hevent
    exact (Option.some.inj hfounder).symm

/-- After the Initialize the super admin has the only entry. -/
theorem table_initialized {l : Ledger} (h : Step ledger initializeEvent l) {key : Pubkey}
    (hentry : l.table swap key ≠ none) : key = superAdmin := by
  have hgenesis : Genesis ledger := fun _ => zeroed_of_owned
  obtain ⟨before, event, after, founder, hevents, hfound, hdescends⟩ :=
    hgenesis.run_origin (Transition.Run.single h) hentry
  obtain ⟨-, hevents⟩ | ⟨-, hevents⟩ := List.singleton_eq_append_iff.mp hevents
  · obtain ⟨rfl, rfl⟩ := List.cons.inj hevents
    cases hdescends
    exact founds_initializeEvent hfound
  · cases hevents

/-- After the UpdatePermission there is no super admin. -/
theorem not_isAdmin_renounced {l₁ l₂ : Ledger} (hinit : Step ledger initializeEvent l₁)
    (hrenounce : Step l₁ renounceEvent l₂) (key : Pubkey) : ¬ (l₂.table swap).IsAdmin key := by
  have hgenesis : Genesis ledger := fun _ => zeroed_of_owned
  have hplace : RecordsInPlace l₁ := hgenesis.recordsInPlace.step hinit
  have hunpack : SwapInstruction.unpack renounceInput = .ok (.updatePermission renounceData) := by
    decide +kernel
  cases step_carries hrenounce ⟨renounceInput, rfl, hunpack⟩ with
  | reflagged haccounts hsigner hpermits hpool hreflagged =>
    rename_i record
    cases haccounts
    -- the record is that of the only entry
    have hentry := hplace.table hreflagged.stored
    have hauthority : record.authority = superAdmin := by
      refine table_initialized hinit ?_
      rw [← show record.swap = swap from hpool, hentry]
      exact Option.some_ne_none _
    rintro ⟨rights, hrights, hadmin⟩
    rw [hreflagged.table, if_pos ⟨hpool, by rw [hauthority]; rfl⟩, hauthority] at hrights
    by_cases hkey : key = superAdmin
    · rw [hkey, Function.update_self] at hrights
      cases hrights
      cases hadmin
    · rw [Function.update_of_ne hkey] at hrights
      refine hkey (table_initialized hinit ?_)
      rw [hrights]
      exact Option.some_ne_none _
  | traded htrade hforeign => exact htrade.elim

end World

section Runs

variable [Solana] [SplMath] {swapConstraints : Option SwapConstraints} {event : Event}
  {events : List Event} {l l' l₀ : Ledger} {key swap authority : Pubkey}

/-! ## Origins -/

/-- A pool is initialized once. -/
theorem initialized_once {before after : List Event}
    (hrun : Transition.Run (Step swapConstraints) l (before ++ event :: after) l')
    (hevent : event.Initializes swap) : ∀ other ∈ before ++ after, ¬ other.Initializes swap := by
  refine hrun.once (P := fun l => ∃ state, Ledger.StoresPool l swap state) hevent
    (fun hpool hstep => step_pool_stored hstep hpool)
    (fun hpool hstep => not_initializes_of_stored hstep hpool) ?_
  intro l event l' hstep hevent
  obtain ⟨_, _, state, hcreated⟩ := step_initializes hstep hevent
  exact ⟨state, hcreated.placed.owner, hcreated.stored⟩

/-- Every record of a pool goes back, through grants each signed by the authority of the record
before, to the super admin named by the one Initialize of the pool. -/
theorem authority_descends_from_the_founder {permission : Permission} (hgenesis : Genesis l₀)
    (hrun : Transition.Run (Step swapConstraints) l₀ events l)
    (hstored : l.StoresPermission key permission) :
    ∃ before event after founder, events = before ++ event :: after ∧
      event.Acts permission.swap (.found founder) ∧
      (∀ other ∈ before ++ after, ¬ other.Initializes permission.swap) ∧
      Descends (Event.Acts permission.swap) after founder permission.authority := by
  have hplace : RecordsInPlace l :=
    hrun.invariant (P := RecordsInPlace) (fun hplace hstep => hplace.step hstep)
      hgenesis.recordsInPlace
  have hentry : l.table permission.swap permission.authority ≠ none := by
    rw [hplace.table hstored]
    exact Option.some_ne_none _
  obtain ⟨before, event, after, founder, rfl, hfound, hdescends⟩ :=
    hgenesis.run_origin hrun hentry
  exact ⟨before, event, after, founder, rfl, hfound,
    initialized_once hrun hfound.initializes, hdescends⟩

end Runs

section Minute

attribute [local instance] Solana.reference SplMath.reference

/-- The record of the super admin of the reference runtime. -/
theorem authority_descends_from_the_founder_minute :
    ∃ l₁ l₂ permission, World.Step World.ledger World.initializeEvent l₁ ∧
      World.Step l₁ World.setRatesEvent l₂ ∧
      Ledger.StoresPermission l₂ World.permission permission ∧
      ∃ before event after founder,
        [World.initializeEvent, World.setRatesEvent] = before ++ event :: after ∧
        event.Acts permission.swap (.found founder) ∧
        (∀ other ∈ before ++ after, ¬ other.Initializes permission.swap) ∧
        Descends (Event.Acts permission.swap) after founder permission.authority := by
  obtain ⟨l₁, l₂, hinit, hset⟩ := World.steps
  obtain ⟨_, _, -, -, record, hrecord, -⟩ := World.permits_setRates hset
  obtain ⟨permission, hstored, -⟩ := step_record hset hrecord
  have hrun := Transition.Run.cons hinit (.single hset)
  exact ⟨l₁, l₂, permission, hinit, hset, hstored,
    authority_descends_from_the_founder (fun _ => World.zeroed_of_owned) hrun hstored⟩

end Minute

section Runs

variable [Solana] [SplMath] {swapConstraints : Option SwapConstraints} {event : Event}
  {events : List Event} {l l' : Ledger} {swap authority : Pubkey}

/-! ## Renouncing -/

/-- A stored pool is not founded again. -/
theorem not_found_of_stored (h : Step swapConstraints l event l')
    (hpool : ∃ state, l.StoresPool swap state) (founder : Pubkey) :
    ¬ event.Acts swap (.found founder) := by
  exact fun hacts => not_initializes_of_stored h hpool hacts.initializes

/-- What a pool without super admins can still do, from one ledger to a later one. -/
structure RenouncedPool (swapConstraints : Option SwapConstraints) (swap : Pubkey)
    (l l' : Ledger) : Prop where
  /-- no right over it is given, taken or changed -/
  rights : l'.table swap = l.table swap
  /-- an instruction that names it and succeeds is a trade or sets its rates -/
  named : ∀ event l'', Step swapConstraints l' event l'' → event.Names swap →
    ∃ clock accounts instruction, event.Carries clock accounts instruction ∧
      (instruction.IsTrade ∨ ∃ data, instruction = .setRates data)
  /-- if no key may set its rates, it is the same pool -/
  frozen : (∀ authority, ¬ l.Permits swap authority Permission.canUpdateParameters) →
    l.SameAt l' swap
  /-- and an instruction that names it and succeeds is a trade -/
  trades : (∀ authority, ¬ l.Permits swap authority Permission.canUpdateParameters) →
    ∀ event l'', Step swapConstraints l' event l'' → event.Names swap →
      ∃ clock accounts instruction, event.Carries clock accounts instruction ∧ instruction.IsTrade

/-- A pool without super admins, in the ledger before a run and after it. -/
theorem RenouncedPool.of_table (hpool : ∃ state, l'.StoresPool swap state)
    (hadmin : ∀ authority, ¬ l.Permits swap authority Permission.isSuperAdmin)
    (hrights : l'.table swap = l.table swap)
    (hfrozen : (∀ authority, ¬ l.Permits swap authority Permission.canUpdateParameters) →
      l.SameAt l' swap) : RenouncedPool swapConstraints swap l l' := by
  simp only [Ledger.permits_isSuperAdmin_iff, ← hrights] at hadmin
  have hnamed (event : Event) (l'' : Ledger) (h : Step swapConstraints l' event l'')
      (hnames : event.Names swap) : ∃ clock accounts instruction,
      event.Carries clock accounts instruction ∧
        (instruction.IsTrade ∨ ∃ data, instruction = .setRates data) := by
    rcases step_cases h with ⟨rfl, -⟩ | ⟨clock, accounts, input, instruction, rfl, hunpack, heffect⟩
    · obtain ⟨_, _, _, _, hevent, -⟩ := hnames
      cases hevent
    have hcarries : (Event.instruction clock accounts input).Carries clock accounts instruction :=
      ⟨input, rfl, hunpack⟩
    refine ⟨clock, accounts, instruction, hcarries, ?_⟩
    obtain ⟨_, info, rest, _, hevent, hswap⟩ := hnames
    cases hevent
    cases heffect with
    | initialized haccounts hcreated =>
      exact absurd ⟨clock, info, rest, _, hcarries, hswap⟩ (not_initializes_of_stored h hpool)
    | ratesSet => exact .inr ⟨_, rfl⟩
    | recorded haccounts hsigner hpermits hrecorded =>
      obtain ⟨rfl, -⟩ := List.cons.inj haccounts
      rw [hswap, Ledger.permits_isSuperAdmin_iff] at hpermits
      exact absurd hpermits (hadmin _)
    | reflagged haccounts hsigner hpermits hreflagged =>
      obtain ⟨rfl, -⟩ := List.cons.inj haccounts
      rw [hswap, Ledger.permits_isSuperAdmin_iff] at hpermits
      exact absurd hpermits (hadmin _)
    | traded htrade hforeign => exact .inl htrade
  refine ⟨hrights, hnamed, hfrozen, ?_⟩
  intro hupdate event l'' h hnames
  obtain ⟨clock, accounts, instruction, hcarries, htrade | ⟨data, rfl⟩⟩ := hnamed event l'' h hnames
  · exact ⟨clock, accounts, instruction, hcarries, htrade⟩
  · -- a key that may set the rates
    obtain ⟨input, rfl, hunpack⟩ := hcarries
    obtain ⟨_, info, rest, _, hevent, hswap⟩ := hnames
    cases hevent
    cases step_carries h ⟨input, rfl, hunpack⟩ with
    | ratesSet haccounts hsigner hpermits hset =>
      obtain ⟨rfl, -⟩ := List.cons.inj haccounts
      rw [hswap, Ledger.permits_canUpdateParameters_iff, hrights,
        ← Ledger.permits_canUpdateParameters_iff] at hpermits
      exact absurd hpermits (hupdate _)
    | traded htrade hforeign => exact htrade.elim

/-- One event keeps the table of a stored pool without super admins, and the pool if no key may set
its rates. -/
theorem step_renounced {state : SwapV1} (hpool : l.StoresPool swap state)
    (hadmin : ∀ authority, ¬ (l.table swap).IsAdmin authority)
    (h : Step swapConstraints l event l') :
    l'.table swap = l.table swap ∧
      ((∀ authority, ¬ (l.table swap).IsOperator authority) → l.SameAt l' swap) := by
  refine ⟨(step_table h).frozen hadmin (not_found_of_stored h ⟨state, hpool⟩), ?_⟩
  intro hoperator
  rcases step_pool h hpool with hsame | ⟨signer, _, _, _, _, -, -, hpermits, -⟩
  · exact hsame
  · exact absurd (Ledger.permits_canUpdateParameters_iff.mp hpermits) (hoperator signer)

/-- A pool without super admins has none ever after, and without keys that may set its rates it can
only be traded with. -/
theorem renounced_pool_is_frozen {state : SwapV1} (hpool : l.StoresPool swap state)
    (hadmin : ∀ authority, ¬ l.Permits swap authority Permission.isSuperAdmin)
    (hrun : Transition.Run (Step swapConstraints) l events l') :
    RenouncedPool swapConstraints swap l l' := by
  have hadmin' : ∀ authority, ¬ (l.table swap).IsAdmin authority := fun authority h =>
    hadmin authority (Ledger.permits_isSuperAdmin_iff.mpr h)
  obtain ⟨hstored, hrights, hfrozen⟩ := hrun.invariant
    (P := fun u => (∃ state, Ledger.StoresPool u swap state) ∧ Ledger.table u swap = l.table swap ∧
      ((∀ authority, ¬ (l.table swap).IsOperator authority) → l.SameAt u swap))
    (by
      rintro u event v ⟨⟨state, hpool⟩, hrights, hfrozen⟩ hstep
      rw [← hrights] at hadmin'
      obtain ⟨hrights', hsame⟩ := step_renounced hpool hadmin' hstep
      rw [hrights] at hrights' hsame
      exact ⟨step_pool_stored hstep ⟨state, hpool⟩, hrights', fun hoperator =>
        (hfrozen hoperator).trans (hsame hoperator)⟩)
    ⟨⟨state, hpool⟩, rfl, fun _ => .refl l swap⟩
  refine .of_table hstored hadmin hrights fun hupdate => hfrozen ?_
  exact fun authority h => hupdate authority (Ledger.permits_canUpdateParameters_iff.mpr h)

end Runs

section Minute

attribute [local instance] Solana.reference SplMath.reference

/-- The pool of the reference runtime, whose super admin renounced. -/
theorem renounced_pool_is_frozen_minute :
    ∃ l₁ l₂ l₃, World.Step World.ledger World.initializeEvent l₁ ∧
      World.Step l₁ World.renounceEvent l₂ ∧ World.Step l₂ World.setRatesEvent l₃ ∧
      RenouncedPool none World.swap l₂ l₃ := by
  obtain ⟨l₁, l₂, l₃, hinit, hrenounce, hset⟩ := World.renounce_steps
  obtain ⟨state, _, hpool, -, -⟩ := World.permits_setRates hset
  exact ⟨l₁, l₂, l₃, hinit, hrenounce, hset, renounced_pool_is_frozen hpool
    (fun authority h => World.not_isAdmin_renounced hinit hrenounce authority
      (Ledger.permits_isSuperAdmin_iff.mp h)) (.single hset)⟩

end Minute

section Runs

variable [Solana] [SplMath] {swapConstraints : Option SwapConstraints} {events : List Event}
  {l l' : Ledger} {swap authority : Pubkey}

/-! ## Being served -/

/-- A SetRates of a key that lists its record is what the curve makes of it. -/
def ServesUpdater (swapConstraints : Option SwapConstraints) (swap authority : Pubkey)
    (state : SwapV1) (curve : RedemptionRateCurve) (l : Ledger) : Prop :=
  ∀ clock info permission signer rest input data, info.key = swap →
    permission.key = permissionAddress swap authority → signer.key = authority →
    signer.isSigner = true → SwapInstruction.unpack input = .ok (.setRates data) →
    processWithConstraints swapConstraints (info :: permission :: signer :: rest) input clock l =
      curve.setRates data.ssr data.rho data.chi clock.timestamp >>= fun curve' =>
        .ok (l.write swap (state.fixedBytes curve.maxSsr ++ curve'.rateBytes))

/-- A key that may update the parameters of a redemption-rate pool keeps being served, whatever else
happens, until a super admin changes its record: its SetRates then is what the curve makes of
it. -/
theorem granted_updater_is_served {state : SwapV1} {curve : RedemptionRateCurve}
    (hpool : l.StoresPool swap state) (hcurve : state.swapCurve = .redemptionRate curve)
    (hgranted : l.Permits swap authority Permission.canUpdateParameters)
    (hchange : ∀ event ∈ events, ∀ grantor rights,
      ¬ event.Acts swap (.change grantor authority rights))
    (hrun : Transition.Run (Step swapConstraints) l events l') :
    ∃ curve', l'.StoresPool swap (state.withCurve curve') ∧ curve'.maxSsr = curve.maxSsr ∧
      ServesUpdater swapConstraints swap authority state curve' l' := by
  -- the record of the key stays
  obtain ⟨rights, hrights, hflag⟩ := Ledger.permits_canUpdateParameters_iff.mp hgranted
  have hrights' : l'.table swap authority = some rights :=
    AccessTable.run_kept (run_table hrun swap) hrights hchange
  have hpermits : l'.Permits swap authority Permission.canUpdateParameters :=
    Ledger.permits_canUpdateParameters_iff.mpr ⟨rights, hrights', hflag⟩
  -- and so does the pool, but for its rates
  obtain ⟨curve', hpool', hmax⟩ : ∃ curve', l'.StoresPool swap (state.withCurve curve') ∧
      curve'.maxSsr = curve.maxSsr := by
    have hkept : PoolKept state swap l l' :=
      hrun.invariant (P := PoolKept state swap l) (fun hkept hstep => hkept.step hpool hstep)
        (.inl (.refl l swap))
    rcases hkept with hsame | ⟨c, curve', hcurve', hmax, hstored⟩
    · refine ⟨curve, ?_, rfl⟩
      have hstate : state.withCurve curve = state := by
        rw [SwapV1.withCurve, ← hcurve]
      rw [hstate]
      exact hpool.sameAt hsame
    · obtain rfl := SwapCurve.redemptionRate_inj (hcurve'.symm.trans hcurve)
      exact ⟨curve', hstored, hmax⟩
  refine ⟨curve', hpool', hmax, ?_⟩
  rintro clock info permission signer rest input data rfl hpermission rfl hsigner hunpack
  rw [processWithConstraints_of_unpack swapConstraints hunpack]
  exact processCurveUpdate_of_permits hpool' rfl hpermission hsigner hpermits data clock

end Runs

section Minute

attribute [local instance] Solana.reference SplMath.reference

/-- The super admin of the reference runtime, after it renounced and set the rates once. -/
theorem granted_updater_is_served_minute :
    ∃ l₁ l₂ l₃ state curve, World.Step World.ledger World.initializeEvent l₁ ∧
      World.Step l₁ World.renounceEvent l₂ ∧ World.Step l₂ World.setRatesEvent l₃ ∧
      ∃ curve', Ledger.StoresPool l₃ World.swap (SwapV1.withCurve state curve') ∧
        curve'.maxSsr = RedemptionRateCurve.maxSsr curve ∧
        ServesUpdater none World.swap World.superAdmin state curve' l₃ := by
  obtain ⟨l₁, l₂, l₃, hinit, hrenounce, hset⟩ := World.renounce_steps
  obtain ⟨state, curve, hpool, hcurve, hpermits⟩ := World.permits_setRates hset
  refine ⟨l₁, l₂, l₃, state, curve, hinit, hrenounce, hset,
    granted_updater_is_served hpool hcurve hpermits ?_ (.single hset)⟩
  intro event hmem grantor rights hacts
  obtain rfl := List.mem_singleton.mp hmem
  cases hacts with
  | change hevent hswap hsigner htarget =>
    -- a SetRates lists fewer accounts
    obtain ⟨input, hevent, -⟩ := hevent
    cases hevent

end Minute

end SolanaPsm
