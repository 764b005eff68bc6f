import SolanaPsm.Immutable

/-!
# Authority over a pool

Who can change permission records and rates. Starting from a world in which the program owns
nothing but zeros, every record is stored at the address of its own pool and authority
(`RecordsInPlace`), and `AuthorityLaws` holds of every event of every run: a record of a pool
is created or changed by the one Initialize of the pool or under the signature of one of its
super admins, its rates under the signature of a key that may update them, and an instruction
that names one pool leaves the records and the rates of all others alone.

The two kinds of accounts share their owner and carry no tag, and the record that is updated
is not checked against its address: what is used is the length of the two layouts, and that
records are only ever created at their addresses.
-/

namespace SolanaPsm

/-- Zeros are no pool. -/
theorem SwapVersion.unpack_ne_ok_of_zeroed {input : Bytes} (h : Zeroed input) (state : SwapV1) :
    SwapVersion.unpack input ≠ .ok state := by
  intro hunpack
  obtain ⟨-, _, -, rfl, -⟩ := SwapVersion.unpack_eq_ok.mp hunpack
  exact absurd (h 1 List.mem_cons_self) (by decide)

section Authority

variable [Solana]

/-- Nothing the program owns is in use. -/
def Genesis (l : Ledger) : Prop := ∀ key, (l key).owner = ID → Zeroed (l key).data

/-- Every record is stored at the address of its own pool and authority. -/
def RecordsInPlace (l : Ledger) : Prop :=
  ∀ key p, l.StoresPermission key p → key = permissionAddress p.swap p.authority

variable {l l' : Ledger} {key : Pubkey} {event : Event}

theorem Genesis.recordsInPlace (h : Genesis l) : RecordsInPlace l := fun key p hp =>
  absurd hp.2 (Permission.unpack_ne_ok_of_zeroed (h key hp.1) p)

/-- A super admin of the pool of a record signed an instruction that names the pool. -/
def Granted (event : Event) (l : Ledger) (swap : Pubkey) : Prop :=
  ∃ signer, event.Names swap ∧ event.SignedBy signer ∧ l.Permits swap signer Permission.isSuperAdmin

variable [SplMath] {swapConstraints : Option SwapConstraints}

/-! ## Records -/

/-- A stored record stays, for the same pool and the same authority; its flags change only
by a grant. -/
theorem step_record {p : Permission} (h : Step swapConstraints l event l')
    (hp : l.StoresPermission key p) :
    ∃ p', l'.StoresPermission key p' ∧ p'.swap = p.swap ∧ p'.authority = p.authority ∧
      (p' = p ∨ Granted event l p.swap) := by
  cases step_owned h hp.1 with
  | kept hsame => exact ⟨p, hp.sameAt hsame, rfl, rfl, .inl rfl⟩
  | initialized hevent hcreated => exact absurd hcreated.length hp.not_length
  | ratesSet hevent hsigned hpermits hset =>
    exact absurd (SwapVersion.length_of_unpack hset.unpack) hp.not_length
  | reflagged hnames hsigned hpermits hreflagged =>
    obtain rfl := hp.unique hreflagged.stored
    exact ⟨_, hreflagged.stored', rfl, rfl, .inr ⟨_, hnames, hsigned, hpermits⟩⟩

/-- Where a record found after an event comes from. -/
theorem step_record_origin {p' : Permission} (h : Step swapConstraints l event l')
    (hp' : l'.StoresPermission key p') :
    (∃ p, l.StoresPermission key p ∧ p'.swap = p.swap ∧ p'.authority = p.authority ∧
      (p' = p ∨ Granted event l p'.swap)) ∨
    (key = permissionAddress p'.swap p'.authority ∧
      (event.Initializes p'.swap ∨ Granted event l p'.swap)) := by
  by_cases howner : (l key).owner = ID
  · left
    cases step_owned h howner with
    | kept hsame => exact ⟨p', hp'.sameAt hsame.symm, rfl, rfl, .inl rfl⟩
    | initialized hevent hcreated =>
      exact absurd (SwapVersion.length_of_unpack hcreated.stored) hp'.not_length
    | ratesSet hevent hsigned hpermits hset =>
      exact absurd (SwapVersion.length_of_unpack hset.unpack') hp'.not_length
    | reflagged hnames hsigned hpermits hreflagged =>
      obtain rfl := hp'.unique hreflagged.stored'
      exact ⟨_, hreflagged.stored, rfl, rfl, .inr ⟨_, hnames, hsigned, hpermits⟩⟩
  · right
    cases step_unowned h howner with
    | zeroed hzeroed =>
      exact absurd hp'.2 (Permission.unpack_ne_ok_of_zeroed (hzeroed hp'.1) p')
    | superAdmin hevent hcreated haddress hstored =>
      obtain rfl := hp'.unique hstored
      exact ⟨haddress, .inl hevent⟩
    | recorded hstored haddress hnames hsigned hpermits =>
      obtain rfl := hp'.unique hstored
      exact ⟨haddress, .inr ⟨_, hnames, hsigned, hpermits⟩⟩

/-- Records stay in place. -/
theorem RecordsInPlace.step (hplace : RecordsInPlace l) (h : Step swapConstraints l event l') :
    RecordsInPlace l' := by
  intro key p' hp'
  rcases step_record_origin h hp' with ⟨p, hp, hswap, hauthority, -⟩ | ⟨haddress, -⟩
  · rw [hswap, hauthority]
    exact hplace key p hp
  · exact haddress

/-! ## Pools -/

/-- A pool found after an event was there before, or is the one the event initializes. -/
theorem step_pool_origin {state' : SwapV1} (h : Step swapConstraints l event l')
    (hpool' : l'.StoresPool key state') :
    (∃ state, l.StoresPool key state) ∨ event.Initializes key := by
  by_cases howner : (l key).owner = ID
  · cases step_owned h howner with
    | kept hsame => exact .inl ⟨state', hpool'.sameAt hsame.symm⟩
    | initialized hevent hcreated => exact .inr hevent
    | ratesSet hevent hsigned hpermits hset => exact .inl ⟨_, hset.owner, hset.unpack⟩
    | reflagged hnames hsigned hpermits hreflagged =>
      exact absurd hreflagged.stored' hpool'.not_permission
  · cases step_unowned h howner with
    | zeroed hzeroed =>
      exact absurd hpool'.2 (SwapVersion.unpack_ne_ok_of_zeroed (hzeroed hpool'.1) state')
    | superAdmin hevent hcreated haddress hstored => exact absurd hstored hpool'.not_permission
    | recorded hstored haddress hnames hsigned hpermits =>
      exact absurd hstored hpool'.not_permission

/-- A stored pool stays a stored pool. -/
theorem step_pool_stored (h : Step swapConstraints l event l')
    (hpool : ∃ state, l.StoresPool key state) : ∃ state', l'.StoresPool key state' := by
  obtain ⟨state, hpool⟩ := hpool
  rcases step_pool h hpool with hsame | ⟨_, _, _, _, _, _, _, _, hset⟩
  · exact ⟨state, hpool.sameAt hsame⟩
  · exact ⟨_, hset.placed.owner, hset.unpack'⟩

/-- A pool that is stored is not initialized again. -/
theorem not_initializes_of_stored (h : Step swapConstraints l event l')
    (hpool : ∃ state, l.StoresPool key state) : ¬ event.Initializes key := by
  rintro ⟨clock, info, rest, data, ⟨input, rfl, hunpack⟩, hinfo⟩
  obtain ⟨state, hpool⟩ := hpool
  rw [Step, processWithConstraints_of_unpack swapConstraints hunpack] at h
  have hrefused : processInitialize swapConstraints data (info :: rest) clock l = .err _ :=
    processInitialize_of_stored hpool data rest hinfo clock
  cases h.symm.trans hrefused

/-! ## Every event of every run -/

/-- What an event of a run can do to the authority over pools. -/
structure AuthorityLaws (swapConstraints : Option SwapConstraints) (event : Event)
    (l l' : Ledger) : Prop where
  /-- every record is at the address of its pair -/
  inPlace : RecordsInPlace l'
  /-- a record stays a record of the same pair -/
  pairKept : ∀ key p, l.StoresPermission key p →
    ∃ p', l'.StoresPermission key p' ∧ p'.swap = p.swap ∧ p'.authority = p.authority
  /-- a record is created or changed by the Initialize of its pool or by a super admin of it -/
  recordChanged : ∀ key p', l'.StoresPermission key p' → ¬ l.StoresPermission key p' →
    event.Initializes p'.swap ∨ ∃ signer, event.SignedBy signer ∧
      l.Permits p'.swap signer Permission.isSuperAdmin
  /-- a pool is initialized once: not if it is stored, and never again afterwards -/
  initializedOnce : ∀ swap, event.Initializes swap → (∀ state, ¬ l.StoresPool swap state) ∧
    (∃ state, l'.StoresPool swap state) ∧
    ∀ events later event' last, Transition.Run (Step swapConstraints) l' events later →
      event'.Initializes swap → ¬ Step swapConstraints later event' last
  /-- a stored pool stays, and changes by a SetRates signed by a key that may update it -/
  ratesChanged : ∀ swap state, l.StoresPool swap state →
    ∃ state', l'.StoresPool swap state' ∧ (state' ≠ state →
      ∃ signer clock data, event.SetsRates swap clock data ∧ event.SignedBy signer ∧
        l.Permits swap signer Permission.canUpdateParameters)
  /-- pools appear by Initialize only -/
  poolCreated : ∀ swap state', l'.StoresPool swap state' → (∀ state, ¬ l.StoresPool swap state) →
    event.Initializes swap
  /-- an instruction that names a pool leaves the records and the rates of all others -/
  othersKept : ∀ swap, event.Names swap → ∀ other ≠ swap,
    (∀ key p, p.swap = other → (l.StoresPermission key p ↔ l'.StoresPermission key p)) ∧
    ∀ state, l.StoresPool other state ↔ l'.StoresPool other state

/-- An instruction leaves the records of the pools it does not name. -/
theorem record_iff_of_names {swap : Pubkey} {p : Permission} (h : Step swapConstraints l event l')
    (hnames : event.Names swap) (hother : p.swap ≠ swap) :
    l.StoresPermission key p ↔ l'.StoresPermission key p := by
  have hnot : ¬ event.Names p.swap := fun hnames' => hother (hnames'.unique hnames)
  refine ⟨?_, ?_⟩
  · intro hp
    obtain ⟨p', hp', -, -, rfl | ⟨_, hnames', -⟩⟩ := step_record h hp
    · exact hp'
    · exact absurd hnames' hnot
  · intro hp'
    rcases step_record_origin h hp' with ⟨p₀, hp, -, -, rfl | ⟨_, hnames', -⟩⟩ |
      ⟨-, hevent | ⟨_, hnames', -⟩⟩
    · exact hp
    · exact absurd hnames' hnot
    · exact absurd hevent.names hnot
    · exact absurd hnames' hnot

/-- An instruction leaves the pools it does not name. -/
theorem pool_iff_of_names {swap other : Pubkey} {state : SwapV1}
    (h : Step swapConstraints l event l') (hnames : event.Names swap) (hother : other ≠ swap) :
    l.StoresPool other state ↔ l'.StoresPool other state := by
  have hkept {state : SwapV1} (hpool : l.StoresPool other state) : l'.StoresPool other state := by
    rcases step_pool h hpool with hsame | ⟨_, _, _, _, _, hevent, -⟩
    · exact hpool.sameAt hsame
    · exact absurd (hevent.names.unique hnames) hother
  refine ⟨hkept, ?_⟩
  intro hpool'
  rcases step_pool_origin h hpool' with ⟨state₀, hpool⟩ | hevent
  · obtain rfl := hpool'.unique (hkept hpool)
    exact hpool
  · exact absurd (hevent.names.unique hnames) hother

/-- The laws hold of an event from any ledger with its records in place. -/
theorem RecordsInPlace.authorityLaws (hplace : RecordsInPlace l)
    (h : Step swapConstraints l event l') : AuthorityLaws swapConstraints event l l' where
  inPlace := hplace.step h
  pairKept key p hp := by
    obtain ⟨p', hp', hswap, hauthority, -⟩ := step_record h hp
    exact ⟨p', hp', hswap, hauthority⟩
  recordChanged key p' hp' hnew := by
    rcases step_record_origin h hp' with ⟨p, hp, -, -, rfl | ⟨signer, -, hsigned, hpermits⟩⟩ |
      ⟨-, hevent | ⟨signer, -, hsigned, hpermits⟩⟩
    · exact absurd hp hnew
    · exact .inr ⟨signer, hsigned, hpermits⟩
    · exact .inl hevent
    · exact .inr ⟨signer, hsigned, hpermits⟩
  initializedOnce swap hevent := by
    obtain ⟨_, _, state, hpool⟩ := step_initializes h hevent
    have hcreated : ∃ state, l'.StoresPool swap state := ⟨state, hpool.placed.owner, hpool.stored⟩
    refine ⟨fun state hpool => not_initializes_of_stored h ⟨state, hpool⟩ hevent, hcreated, ?_⟩
    intro events later event' last hrun hevent' hlast
    have hstored : ∃ state, later.StoresPool swap state :=
      hrun.invariant (P := fun l => ∃ state, Ledger.StoresPool l swap state)
        (fun hpool hstep => step_pool_stored hstep hpool) hcreated
    exact not_initializes_of_stored hlast hstored hevent'
  ratesChanged swap state hpool := by
    rcases step_pool h hpool with hsame |
      ⟨signer, clock, data, _, _, hevent, hsigned, hpermits, hset⟩
    · exact ⟨state, hpool.sameAt hsame, fun hne => absurd rfl hne⟩
    · exact ⟨_, ⟨hset.placed.owner, hset.unpack'⟩,
        fun _ => ⟨signer, clock, data, hevent, hsigned, hpermits⟩⟩
  poolCreated swap state' hpool' hnew := by
    rcases step_pool_origin h hpool' with ⟨state, hpool⟩ | hevent
    · exact absurd hpool (hnew state)
    · exact hevent
  othersKept swap hnames other hother :=
    ⟨fun key p hp => record_iff_of_names h hnames (hp ▸ hother),
      fun state => pool_iff_of_names h hnames hother⟩

/-- Authority over a pool cannot be gained or changed except by its super admins: the laws
hold of every event of every run. -/
theorem authority_preserved {l₀ : Ledger} {events : List Event} (hgenesis : Genesis l₀)
    (hrun : Transition.Run (Step swapConstraints) l₀ events l)
    (h : Step swapConstraints l event l') : AuthorityLaws swapConstraints event l l' := by
  have hplace : RecordsInPlace l :=
    hrun.invariant (P := RecordsInPlace) (fun hplace hstep => hplace.step hstep)
      hgenesis.recordsInPlace
  exact hplace.authorityLaws h

end Authority

/-- The SetRates of the reference runtime, after the Initialize of its pool. -/
theorem authority_preserved_minute :
    ∃ l₁ l₂, World.Step World.ledger World.initializeEvent l₁ ∧
      World.Step l₁ World.setRatesEvent l₂ ∧
      @AuthorityLaws Solana.reference SplMath.reference none World.setRatesEvent l₁ l₂ := by
  let _ : Solana := Solana.reference
  let _ : SplMath := SplMath.reference
  obtain ⟨l₁, l₂, hinit, hset⟩ := World.steps
  exact ⟨l₁, l₂, hinit, hset, authority_preserved (fun _ => World.zeroed_of_owned)
    (Transition.Run.single hinit) hset⟩

end SolanaPsm
