/-
  Freezing over whole runs, and what a `DisableFreezing` does.

  The loop of `disableFreezing` erases an entry of the set and asserts, on the
  iterator it gets back, that the entry found there is not frozen.  That entry
  is the next one of the set, so it is frozen; or there is none.  The function
  therefore ends only if no address is frozen for the property.
-/
import Tecracoin.Elysium.Tx
import Tecracoin.Data.Run

namespace Tecracoin.Elysium

open Data Op Ledger List

/-! ## The two sets -/

/-- The sets have no repeated entries, and freezing goes live after the first block. -/
structure FreezeInv (s : Ledger) : Prop where
  enabled : s.setFreezingEnabledProperties.Nodup
  frozen : s.setFrozenAddresses.Nodup
  live : ∀ item ∈ s.setFreezingEnabledProperties, 0 < item.2

lemma mem_insertSet {α : Type} [DecidableEq α] {lt : α → α → Bool} {x y : α} {xs : List α} :
    y ∈ insertSet lt x xs ↔ y = x ∨ y ∈ xs := by
  unfold insertSet
  split_ifs with hx
  · exact (or_iff_right_of_imp (fun h => h ▸ hx)).symm
  · rw [(StdMap.takeWhile_cons_dropWhile_perm _ _ _).mem_iff, mem_cons]

lemma nodup_insertSet {α : Type} [DecidableEq α] {lt : α → α → Bool} {x : α} {xs : List α}
    (h : xs.Nodup) : (insertSet lt x xs).Nodup := by
  unfold insertSet
  split_ifs with hx
  · exact h
  · rw [(StdMap.takeWhile_cons_dropWhile_perm _ _ _).nodup_iff]
    exact nodup_cons.mpr ⟨hx, h⟩

/-! ## Disabling -/

variable {E : Abort → Prop} {p : PropertyId} {s : Ledger}

lemma isAddressFrozen_iff
    {a : Address} : s.isAddressFrozen a p = true ↔ (a, p) ∈ s.setFrozenAddresses := by
  rw [isAddressFrozen, contains_iff_mem]

/-- The loop ends only if there is no entry of the property. At the first one it is stopped: the
    entry after it is still frozen, or there is none. -/
lemma unfreezeAll_ends {entries : List (Address × PropertyId)}
    (hfrozen : ∀ entry ∈ entries, entry ∈ s.setFrozenAddresses) (hnodup : entries.Nodup)
    (hE : (∃ entry ∈ entries, entry.2 = p) → ∀ e, E e) :
    Op.Ends E (unfreezeAll p entries) s (fun _ s' => s' = s ∧ ∀ entry ∈ entries, entry.2 ≠ p) := by
  induction entries with
  | nil => exact ends_pure ⟨rfl, nofun⟩
  | cons entry rest ih =>
    refine ends_ite (fun hentry => ?_) (fun hentry => ?_)
    · have hE' := hE ⟨entry, .head _, hentry⟩
      refine ends_modify_bind ?_
      cases rest with
      | nil => exact ends_throw (hE' _)
      | cons next more =>
        refine ends_get_bind (ends_bind (ends_ensure (fun _ => hE' _)) ?_)
        rintro _ s' ⟨rfl, hthawed⟩
        have hne : next ≠ entry := by
          rintro rfl
          exact (nodup_cons.mp hnodup).1 (.head _)
        have hstill : next ∈ s.setFrozenAddresses.erase entry :=
          (mem_erase_of_ne hne).mpr
            (hfrozen next (.tail _ (.head _)))
        rw [isAddressFrozen_iff.mpr hstill] at hthawed
        cases hthawed
    · refine (ih (forall_mem_cons.mp hfrozen).2
        (nodup_cons.mp hnodup).2 (fun ⟨found, hmem, hfound⟩ =>
          hE ⟨found, .tail _ hmem, hfound⟩)).post (fun _ s' h => ⟨h.1, ?_⟩)
      exact forall_mem_cons.mpr ⟨hentry, h.2⟩

/-- The entries that enable freezing for a property. -/
def Ledger.enablings (s : Ledger) (p : PropertyId) : List (PropertyId × Int) :=
  s.setFreezingEnabledProperties.filter (fun item => item.1 = p)

/-- The block the last of the entries names. -/
def Ledger.lastLive (s : Ledger) (p : PropertyId) : Int :=
  ((s.enablings p).getLast?.map Prod.snd).getD 0

/-- No address is frozen for the property, and freezing was enabled once. -/
structure CanDisable (p : PropertyId) (s : Ledger) : Prop where
  thawed : ∀ a, s.isAddressFrozen a p = false
  once : (s.enablings p).length = 1

/-- What disabling is for: nothing of the property is left in the two sets, and the rest of them is
    as before. -/
structure Lifted (p : PropertyId) (s s' : Ledger) : Prop where
  thawed : ∀ a, s'.isAddressFrozen a p = false
  disabled : ∀ block, s'.isFreezingEnabled p block = false
  frozen : ∀ a q, q ≠ p → s'.isAddressFrozen a q = s.isAddressFrozen a q
  enabled : ∀ q block, q ≠ p → s'.isFreezingEnabled q block = s.isFreezingEnabled q block

lemma isFreezingEnabled_iff {block : Int} :
    s.isFreezingEnabled p block = true ↔ ∃ item ∈ s.enablings p, item.2 ≤ block := by
  simp only [isFreezingEnabled, enablings, any_eq_true, Bool.and_eq_true,
    beq_iff_eq, decide_eq_true_eq, mem_filter]
  constructor
  · rintro ⟨item, hmem, hp, hle⟩
    exact ⟨item, ⟨hmem, hp⟩, hle⟩
  · rintro ⟨item, ⟨hmem, hp⟩, hle⟩
    exact ⟨item, hmem, hp, hle⟩

lemma lastLive_mem (henabled : s.enablings p ≠ []) : (p, s.lastLive p) ∈ s.enablings p := by
  have hlast := getLast_mem henabled
  have hproperty : ((s.enablings p).getLast henabled).1 = p :=
    of_decide_eq_true (mem_filter.mp hlast).2
  have hlive : s.lastLive p = ((s.enablings p).getLast henabled).2 := by
    rw [lastLive, getLast?_eq_getLast_of_ne_nil henabled]
    rfl
  have heq : (s.enablings p).getLast henabled = (p, s.lastLive p) := Prod.ext hproperty hlive.symm
  rwa [heq] at hlast

/-- The ledger without the last entry that enables freezing. -/
def Ledger.withoutEnabling (s : Ledger) (p : PropertyId) : Ledger :=
  { s with setFreezingEnabledProperties := s.setFreezingEnabledProperties.erase (p, s.lastLive p) }

/-- The entries of the property but the last. -/
lemma enablings_withoutEnabling (h : FreezeInv s) (q : PropertyId) :
    (s.withoutEnabling p).enablings q = (s.enablings q).erase (p, s.lastLive p) := by
  unfold withoutEnabling enablings
  rw [h.enabled.erase_eq_filter, (h.enabled.filter _).erase_eq_filter, filter_filter, filter_filter]
  exact filter_congr (fun item _ => Bool.and_comm _ _)

lemma disableFreezing_ends (h : FreezeInv s) (henabled : s.enablings p ≠ [])
    (hE : ¬ CanDisable p s → ∀ e, E e) :
    Op.Ends E (disableFreezing p) s (fun _ s' =>
      (∀ a, s.isAddressFrozen a p = false) ∧ s' = s.withoutEnabling p) := by
  have hlive := h.live _ (mem_filter.mp (lastLive_mem henabled)).1
  refine ends_get_bind (ends_ensure_bind (absurd hlive) (fun _ => ?_))
  refine ends_modify_bind ?_
  have hloop : Op.Ends E (unfreezeAll p s.setFrozenAddresses) (s.withoutEnabling p)
      (fun _ s' => s' = s.withoutEnabling p ∧ ∀ entry ∈ s.setFrozenAddresses, entry.2 ≠ p) := by
    refine unfreezeAll_ends (fun _ he => he) h.frozen (fun ⟨entry, hmem, hentry⟩ =>
      hE (fun hcan => ?_))
    have hfrozen : s.isAddressFrozen entry.1 p = true := by
      rw [isAddressFrozen_iff, ← hentry]
      exact hmem
    rw [hcan.thawed] at hfrozen
    cases hfrozen
  refine ends_bind hloop ?_
  rintro _ _ ⟨rfl, hnone⟩
  have hthawed (a : Address) : s.isAddressFrozen a p = false := by
    rw [Bool.eq_false_iff, Ne, isAddressFrozen_iff]
    exact fun hmem => hnone _ hmem rfl
  refine ends_get_bind ((ends_ensure (fun hc => hE (fun hcan => ?_) _)).post
    (fun _ s' hs' => ⟨hthawed, hs'.1⟩))
  -- another entry of the property is in the way
  rw [Bool.not_eq_false', isFreezingEnabled_iff] at hc
  obtain ⟨item, hmem, -⟩ := hc
  rw [enablings_withoutEnabling h] at hmem
  have hlength := length_erase_of_mem (lastLive_mem henabled)
  rw [hcan.once] at hlength
  rw [eq_nil_of_length_eq_zero hlength] at hmem
  cases hmem

/-- Removing the last entry lifts the freezing if no address is frozen and there is no other entry,
    and only then. -/
lemma lifted_withoutEnabling_iff (h : FreezeInv s) (henabled : s.enablings p ≠ []) :
    Lifted p s (s.withoutEnabling p) ↔ CanDisable p s := by
  have hlength := length_erase_of_mem (lastLive_mem henabled)
  constructor
  · intro hlifted
    refine ⟨hlifted.thawed, ?_⟩
    -- an enabling that is left would be in force from its block on
    have hnone : (s.enablings p).erase (p, s.lastLive p) = [] := by
      refine eq_nil_iff_forall_not_mem.mpr (fun item hmem => ?_)
      have hfalse := hlifted.disabled item.2
      rw [Bool.eq_false_iff, Ne, isFreezingEnabled_iff, enablings_withoutEnabling h] at hfalse
      exact hfalse ⟨item, hmem, le_rfl⟩
    have hpos := length_pos_of_ne_nil henabled
    rw [hnone, length_nil] at hlength
    omega
  · intro hcan
    refine ⟨hcan.thawed, fun block => ?_, fun _ _ _ => rfl, fun q block hq => ?_⟩
    · rw [Bool.eq_false_iff, Ne, isFreezingEnabled_iff, enablings_withoutEnabling h]
      rw [hcan.once] at hlength
      rw [eq_nil_of_length_eq_zero hlength]
      rintro ⟨item, hmem, -⟩
      cases hmem
    · have hsame : (s.withoutEnabling p).enablings q = s.enablings q := by
        rw [enablings_withoutEnabling h]
        refine erase_of_not_mem (fun hmem => hq ?_)
        exact (of_decide_eq_true (mem_filter.mp hmem).2).symm
      rw [Bool.eq_iff_iff, isFreezingEnabled_iff, isFreezingEnabled_iff, hsame]

/-! ## The four transactions -/

section Transactions

variable {env : Env} {tx : CMPTransaction} {a : Address}

lemma checked_of_pass {checks : Ledger → List (Bool × Int)} {body : Op Int}
    (h : ∀ check ∈ checks s, check.1 = false) :
    (get >>= fun s => checked (checks s) body : Op Int) s = body s := by
  have hnone : (checks s).find? (fun check => check.1) = none := by
    refine find?_eq_none.mpr (fun check hmem => ?_)
    rw [h check hmem]
    decide
  have hget : (get >>= fun s => checked (checks s) body : Op Int) s
      = checked (checks s) body s := rfl
  rw [hget, checked, hnone]

/-- The checks leave the state alone; what is left is the body. -/
lemma onManagedProperty_ends {own : Ledger → List (Bool × Int)} {body : Op Unit}
    {Q : Int → Ledger → Prop} (hE : ∀ e, E e) (hrejected : ∀ rc, Q rc s)
    (hbody : (∀ check ∈ own s, check.1 = false) → Op.Ends E body s (fun _ s' => Q 0 s')) :
    Op.Ends E (onManagedProperty env tx own body) s Q := by
  refine ends_get_bind (checked_ends (fun check _ _ => hrejected check.2) (fun _ => ?_))
  have hsp : Op.Ends E (assertSP tx.property) s (fun _ s' => s' = s) := by
    refine ends_get_bind ?_
    cases s.mySps.getSP tx.property with
    | none => exact ends_throw (hE _)
    | some sp => exact ends_pure rfl
  refine ends_bind hsp ?_
  rintro sp _ rfl
  refine ends_get_bind (checked_ends (fun check _ _ => hrejected check.2) (fun hpass => ?_))
  exact ends_bind (hbody (fun check hmem => hpass check (mem_append_right _ hmem)))
    (fun _ _ h => ends_pure h)

lemma enableFreezing_keeps {live : Int} (hE : ∀ e, E e) (h : FreezeInv s) (hlive : 0 < live) :
    Op.Ends E (enableFreezing p live) s (fun _ s' => FreezeInv s') := by
  refine ends_modify_bind (ends_get_bind ((ends_ensure (fun _ => hE _)).post ?_))
  rintro _ _ ⟨rfl, -⟩
  refine ⟨nodup_insertSet h.enabled, h.frozen, fun item hitem => ?_⟩
  rcases mem_insertSet.mp hitem with rfl | hitem
  · exact hlive
  · exact h.live item hitem

lemma freezeAddress_keeps (hE : ∀ e, E e) (h : FreezeInv s) :
    Op.Ends E (freezeAddress a p) s (fun _ s' => FreezeInv s') := by
  refine ends_modify_bind (ends_get_bind ((ends_ensure (fun _ => hE _)).post ?_))
  rintro _ _ ⟨rfl, -⟩
  exact ⟨h.enabled, nodup_insertSet h.frozen, h.live⟩

lemma unfreezeAddress_keeps (hE : ∀ e, E e) (h : FreezeInv s) :
    Op.Ends E (unfreezeAddress a p) s (fun _ s' => FreezeInv s') := by
  refine ends_modify_bind (ends_get_bind ((ends_ensure (fun _ => hE _)).post ?_))
  rintro _ _ ⟨rfl, -⟩
  exact ⟨h.enabled, h.frozen.filter _, h.live⟩

/-- The types of transactions that change the two sets. -/
def TransactionType.freezes : TransactionType → Bool
  | .ENABLE_FREEZING => true
  | .DISABLE_FREEZING => true
  | .FREEZE_PROPERTY_TOKENS => true
  | .UNFREEZE_PROPERTY_TOKENS => true
  | _ => false

lemma interpretPacket_freezes_keeps (hE : ∀ e, E e) (h : FreezeInv s)
    (htype : tx.type.freezes = true) (hblock : 0 < tx.block) (hwait : 0 ≤ env.freezeWaitPeriod) :
    Op.Ends E (interpretPacket env tx) s (fun _ s' => FreezeInv s') := by
  refine ends_get_bind (checked_ends (fun _ _ _ => h) (fun _ => ?_))
  unfold executePacket
  cases hcase : tx.type with
  | ENABLE_FREEZING =>
    refine onManagedProperty_ends hE (fun _ => h) (fun _ => enableFreezing_keeps hE h ?_)
    split_ifs <;> omega
  | DISABLE_FREEZING =>
    refine onManagedProperty_ends hE (fun _ => h) (fun hpass => ?_)
    have henabled := hpass _ (.head _)
    rw [Bool.not_eq_false', isFreezingEnabled_iff] at henabled
    obtain ⟨item, hmem, -⟩ := henabled
    refine (disableFreezing_ends h (ne_nil_of_mem hmem) (fun _ => hE)).post ?_
    rintro _ _ ⟨-, rfl⟩
    exact ⟨h.enabled.erase _, h.frozen, fun item hitem => h.live item (mem_of_mem_erase hitem)⟩
  | FREEZE_PROPERTY_TOKENS =>
    exact onManagedProperty_ends hE (fun _ => h) (fun _ => freezeAddress_keeps hE h)
  | UNFREEZE_PROPERTY_TOKENS =>
    exact onManagedProperty_ends hE (fun _ => h) (fun _ => unfreezeAddress_keeps hE h)
  | _ =>
    rw [hcase] at htype
    cases htype

/-- The checks of `logicMath_DisableFreezing`, and of `interpretPacket` before it, are passed. -/
structure ValidDisable (env : Env) (tx : CMPTransaction) (sp : SpEntry) (s : Ledger) : Prop where
  type : tx.type = .DISABLE_FREEZING
  unlocked : tx.rpcOnly = false
  interpreted : tx.interpreted = true
  sender : s.isAddressFrozen tx.sender tx.property = false
  inChain : tx.notInChain env = false
  permitted : tx.notAllowed env tx.property = false
  property : s.mySps.isPropertyIdValid tx.property = true
  entry : s.mySps.getSP tx.property = some sp
  manual : sp.manual = true
  issuer : tx.sender = sp.issuer
  enabled : s.isFreezingEnabled tx.property tx.block = true

lemma ValidDisable.interpretPacket_eq {sp : SpEntry} (h : ValidDisable env tx sp s) :
    interpretPacket env tx s = (disableFreezing tx.property >>= fun _ => pure 0) s := by
  have hentry : assertSP tx.property s = .ok (sp, s) := by
    refine (bind_of_ok rfl).trans ?_
    simp only [h.entry]
    rfl
  refine (checked_of_pass (by simp [h.unlocked, h.interpreted, h.sender])).trans ?_
  rw [executePacket, h.type]
  refine (checked_of_pass (by simp [h.inChain, h.permitted, h.property])).trans ?_
  refine (bind_of_ok hentry).trans (checked_of_pass ?_)
  simp [h.manual, h.issuer, h.enabled]

end Transactions

/-! ## Whole runs -/

inductive FreezeStep
  | packet (env : Env) (tx : CMPTransaction)
  /-- Anything that leaves the two sets alone. -/
  | other (next : Ledger)

namespace FreezeStep

def step : FreezeStep → Ledger → Option Ledger
  | packet env tx, s =>
    match interpretPacket env tx s with
    | .ok (_, s') => some s'
    | .error _ => none
  | other next, _ => some next

/-- Transactions are in blocks after the first. -/
def allowed : FreezeStep → Ledger → Prop
  | packet env tx, _ => tx.type.freezes = true ∧ 0 < tx.block ∧ 0 ≤ env.freezeWaitPeriod
  | other next, s => next.setFreezingEnabledProperties = s.setFreezingEnabledProperties ∧
      next.setFrozenAddresses = s.setFrozenAddresses

lemma keeps {a : FreezeStep} {s' : Ledger} (h : FreezeInv s) (hallowed : allowed a s)
    (hstep : step a s = some s') : FreezeInv s' := by
  cases a with
  | packet env tx =>
    have hends := interpretPacket_freezes_keeps (E := fun _ => True) (fun _ => trivial) h
      hallowed.1 hallowed.2.1 hallowed.2.2
    simp only [step] at hstep
    split at hstep
    · case h_1 hrun =>
        cases hstep
        exact hends.of_ok hrun
    · cases hstep
  | other next =>
    cases hstep
    exact ⟨hallowed.1 ▸ h.enabled, hallowed.2 ▸ h.frozen, hallowed.1 ▸ h.live⟩

/-- In every state of a run from empty sets, a valid `DisableFreezing` ends and lifts exactly the
    freezing of its property if no address is frozen for it and freezing was enabled once, and only
    then. -/
theorem disableFreezing_lifts_iff {s0 s : Ledger} (henabled : s0.setFreezingEnabledProperties = [])
    (hfrozen : s0.setFrozenAddresses = []) (hrun : Reaches step allowed s0 s) (env : Env)
    (tx : CMPTransaction) (sp : SpEntry) (hvalid : ValidDisable env tx sp s) :
    (∃ rc s', interpretPacket env tx s = .ok (rc, s') ∧ Lifted tx.property s s') ↔
      CanDisable tx.property s := by
  have hstart : FreezeInv s0 := ⟨by simp [henabled], by simp [hfrozen], by simp [henabled]⟩
  have hinv : FreezeInv s := hrun.invariant hstart (fun _ _ _ h ha hs => keeps h ha hs)
  obtain ⟨item, hmem, -⟩ := isFreezingEnabled_iff.mp hvalid.enabled
  have hnonempty := ne_nil_of_mem hmem
  have hends : Op.Ends (fun _ => ¬ CanDisable tx.property s)
      (disableFreezing tx.property >>= fun _ => (pure 0 : Op Int)) s (fun _ s' =>
        (∀ a, s.isAddressFrozen a tx.property = false) ∧ s' = s.withoutEnabling tx.property) :=
    ends_bind (disableFreezing_ends hinv hnonempty (fun hcannot _ => hcannot))
      (fun _ _ h => ends_pure h)
  rw [hvalid.interpretPacket_eq]
  constructor
  · rintro ⟨rc, s', hok, hlifted⟩
    obtain ⟨-, rfl⟩ := hends.of_ok hok
    exact (lifted_withoutEnabling_iff hinv hnonempty).mp hlifted
  · intro hcan
    cases hresult : (disableFreezing tx.property >>= fun _ => (pure 0 : Op Int)) s with
    | error e => exact absurd hcan (hends.of_error hresult)
    | ok r =>
      obtain ⟨-, hs'⟩ := hends.of_ok hresult
      refine ⟨r.1, r.2, rfl, ?_⟩
      rw [hs']
      exact (lifted_withoutEnabling_iff hinv hnonempty).mpr hcan

/-- A property managed by an address. -/
def sampleEntry : SpEntry :=
  { SpEntry.null with
    manual := true
    issuer := ['A'] }

def sampleLedger : Ledger :=
  { cleared [] with mySps := ((CMPSPInfo.initial []).putSP 1 sampleEntry).2 }

def sampleEnv : Env :=
  .permitting [.ENABLE_FREEZING, .DISABLE_FREEZING, .FREEZE_PROPERTY_TOKENS]

/-- A transaction of the issuer about another address. -/
def sampleTx (type : TransactionType) (block : Int) (receiver : Address) : CMPTransaction :=
  { CMPTransaction.null with
    rpcOnly := false
    interpreted := true
    block := block
    sender := ['A']
    receiver := receiver
    type := type
    property := 3 }

def sampleDisable : CMPTransaction := sampleTx .DISABLE_FREEZING 4 []

/-- A test for steps that are allowed. -/
def admits : FreezeStep → Ledger → Bool
  | packet env tx, _ =>
    tx.type.freezes && decide (0 < tx.block) && decide (0 ≤ env.freezeWaitPeriod)
  | other _, _ => false

lemma allowed_of_admits (a : FreezeStep) (s : Ledger) (h : admits a s = true) : allowed a s := by
  cases a with
  | packet env tx => simpa [admits, allowed, and_assoc] using h
  | other next => cases h

/-- Freezing is enabled. -/
def enabledSteps : List FreezeStep := [.packet sampleEnv (sampleTx .ENABLE_FREEZING 1 [])]

def enabledLedger : Ledger := { sampleLedger with setFreezingEnabledProperties := [(3, 1)] }

lemma enabledLedger_reached : Reaches step allowed sampleLedger enabledLedger :=
  reaches_of_runTested allowed_of_admits enabledSteps .start (by decide +kernel)

/-- Two addresses are frozen after that. -/
def frozenSteps : List FreezeStep :=
  enabledSteps ++ [.packet sampleEnv (sampleTx .FREEZE_PROPERTY_TOKENS 2 ['B']),
    .packet sampleEnv (sampleTx .FREEZE_PROPERTY_TOKENS 3 ['C'])]

def frozenLedger : Ledger :=
  { enabledLedger with setFrozenAddresses := [(['B'], 3), (['C'], 3)] }

lemma frozenLedger_reached : Reaches step allowed sampleLedger frozenLedger :=
  reaches_of_runTested allowed_of_admits frozenSteps .start (by decide +kernel)

lemma sampleDisable_valid (hsps : s.mySps = sampleLedger.mySps)
    (henabled : s.setFreezingEnabledProperties = [(3, 1)])
    (hsender : s.isAddressFrozen ['A'] 3 = false) :
    ValidDisable sampleEnv sampleDisable sampleEntry s where
  type := rfl
  unlocked := rfl
  interpreted := rfl
  sender := hsender
  inChain := rfl
  permitted := by decide +kernel
  property := by
    rw [hsps]
    decide +kernel
  entry := by
    rw [hsps]
    decide +kernel
  manual := rfl
  issuer := rfl
  enabled := by
    rw [isFreezingEnabled, henabled]
    decide +kernel

theorem disableFreezing_lifts_iff_enabled :
    Reaches step allowed sampleLedger enabledLedger ∧
      ∃ rc s', interpretPacket sampleEnv sampleDisable enabledLedger = .ok (rc, s') ∧
        Lifted 3 enabledLedger s' :=
  ⟨enabledLedger_reached,
    (disableFreezing_lifts_iff rfl rfl enabledLedger_reached sampleEnv sampleDisable sampleEntry
      (sampleDisable_valid rfl rfl (by decide +kernel))).mpr
      ⟨fun _ => rfl, by decide +kernel⟩⟩

/-- With two frozen addresses a valid `DisableFreezing` fails the assertion in the loop. -/
theorem disableFreezing_asserts :
    Reaches step allowed sampleLedger frozenLedger ∧
      ValidDisable sampleEnv sampleDisable sampleEntry frozenLedger ∧
      interpretPacket sampleEnv sampleDisable frozenLedger
        = .error (.asserts "!isAddressFrozen((*it).first, (*it).second)") :=
  ⟨frozenLedger_reached, sampleDisable_valid rfl rfl (by decide +kernel), by decide +kernel⟩

end FreezeStep

end Tecracoin.Elysium
