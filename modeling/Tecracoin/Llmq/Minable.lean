/-
  Which of the delivered final commitments a miner is offered.

  The store keeps one commitment per quorum and `AddMinableCommitment` replaces
  it by one with more signers.  `ProcessMessage` compares first, and drops a
  commitment when the stored one has *at most* as many signers: what it lets
  through can never be better than what is stored.  So a message counts only
  while nothing is stored for its quorum (`offer`), and the best commitment is
  offered exactly when no message had to beat the stored one.
-/
import Tecracoin.Data.Run
import Tecracoin.Llmq.BlockProcessor

namespace Tecracoin.Llmq

open Data StdMap ProcessorState Eff List

variable {env : LlmqEnv} {known : CFinalCommitment → Prop} {p p' q : CQuorumBlockProcessor}
  {s s' : ProcessorState} {chain : CChain} {params : LLMQParams} {fqc : CFinalCommitment}
  {nHeight : Nat} {key : QuorumKey}

/-! ## Deliveries -/

/-- A commitment on its way into the store. -/
inductive Delivery
  /-- A `QFCOMMITMENT` message. -/
  | message (qc : CFinalCommitment)
  /-- A call of `AddMinableCommitment`. -/
  | add (qc : CFinalCommitment)
deriving DecidableEq

namespace Delivery

def qc : Delivery → CFinalCommitment
  | .message qc => qc
  | .add qc => qc

def isAdd : Delivery → Bool
  | .message _ => false
  | .add _ => true

end Delivery

open Delivery

variable {ds : List Delivery} {qc : CFinalCommitment}

def deliver (env : LlmqEnv) (chain : CChain) (p : CQuorumBlockProcessor) :
    Delivery → Except Failure CQuorumBlockProcessor
  | .message qc => (processMessage env chain qc p).map Prod.snd
  | .add qc => addMinableCommitment env qc p

/-- A final commitment that `ProcessMessage` has no objection to: not null, of a known type, for the
    first block of a session on the active chain, and signed. -/
structure ValidCommitment (env : LlmqEnv) (chain : CChain) (qc : CFinalCommitment) : Prop where
  notNull : qc.isNull = false
  known : ∃ params, env.table.llmqs.get? qc.llmqType = some params ∧
    (∃ h, CChain.find chain qc.quorumHash = some h ∧ h - h % params.dkgInterval = h) ∧
    qc.verify env (env.getAllQuorumMembers params.type qc.quorumHash) true = true

/-! ## The store -/

/-- The commitment stored for a quorum. -/
def stored (p : CQuorumBlockProcessor) (key : QuorumKey) : Option CFinalCommitment :=
  (p.minableCommitmentsByQuorum.get? key).bind p.minableCommitments.get?

variable (env known p) in
/-- Hashes lead to commitments with that hash, which are among `known`, and the index of a quorum
    leads to a commitment of that quorum. -/
structure StoreOk : Prop where
  index : ∀ key hash, p.minableCommitmentsByQuorum.get? key = some hash →
    ∃ qc, p.minableCommitments.get? hash = some qc ∧ qc.key = key
  entry : ∀ hash qc, p.minableCommitments.get? hash = some qc →
    env.serializeHash qc = hash ∧ known qc

/-- The hash tells the known commitments apart. -/
def NoCollision (env : LlmqEnv) (known : CFinalCommitment → Prop) : Prop :=
  ∀ qc qc', known qc → known qc' → env.serializeHash qc = env.serializeHash qc' → qc = qc'

lemma stored_of_index (h : StoreOk env known p) {hash : Uint256}
    (hkey : p.minableCommitmentsByQuorum.get? key = some hash) :
    ∃ qc, stored p key = some qc ∧ p.minableCommitments.get? hash = some qc := by
  obtain ⟨qc, hqc, _⟩ := h.index key hash hkey
  refine ⟨qc, ?_, hqc⟩
  rw [stored, hkey, Option.bind_some, hqc]

/-- The store after `fqc` has been put under its hash and its quorum. -/
def withCommitment (env : LlmqEnv) (p : CQuorumBlockProcessor) (fqc : CFinalCommitment) :
    CQuorumBlockProcessor :=
  { p with
    minableCommitmentsByQuorum :=
      p.minableCommitmentsByQuorum.set StdMap.unordered fqc.key (env.serializeHash fqc)
    minableCommitments :=
      (p.minableCommitments.erase (env.serializeHash fqc)).insert StdMap.unordered
        (env.serializeHash fqc) fqc }

lemma get?_withCommitment (hash : Uint256) :
    (withCommitment env p fqc).minableCommitments.get? hash =
      if hash = env.serializeHash fqc then some fqc else p.minableCommitments.get? hash := by
  by_cases hh : hash = env.serializeHash fqc
  · subst hh
    rw [withCommitment, get?_insert_self, get?_erase_self, if_pos rfl, Option.getD_none]
  · rw [withCommitment, get?_insert_of_ne hh, get?_erase_of_ne hh, if_neg hh]

lemma stored_withCommitment_self : stored (withCommitment env p fqc) fqc.key = some fqc := by
  rw [stored, withCommitment, get?_set_self, Option.bind_some]
  exact (get?_withCommitment (p := p) _).trans (if_pos rfl)

section
variable (h : StoreOk env known p) (hknown : known fqc) (hhash : NoCollision env known)
include h hknown hhash

/-- Without collisions the entry of another quorum has another hash. -/
lemma StoreOk.hash_ne {hash : Uint256} (hget : p.minableCommitmentsByQuorum.get? key = some hash)
    (hkey : key ≠ fqc.key) :
    hash ≠ env.serializeHash fqc ∧
      ∃ qc, p.minableCommitments.get? hash = some qc ∧ qc.key = key := by
  obtain ⟨qc, hqc, hk⟩ := h.index key hash hget
  refine ⟨fun heq => hkey (hk.symm.trans (congrArg CFinalCommitment.key ?_)), qc, hqc, hk⟩
  obtain ⟨hqcHash, hqcKnown⟩ := h.entry hash qc hqc
  exact hhash qc fqc hqcKnown hknown (hqcHash.trans heq)

/-- The other quorums keep what they had. -/
lemma stored_withCommitment_of_ne (hkey : key ≠ fqc.key) :
    stored (withCommitment env p fqc) key = stored p key := by
  have hindex : (withCommitment env p fqc).minableCommitmentsByQuorum.get? key
      = p.minableCommitmentsByQuorum.get? key := get?_set_of_ne hkey
  rw [stored, stored, hindex]
  cases hget : p.minableCommitmentsByQuorum.get? key with
  | none => rfl
  | some hash =>
    have hne := (h.hash_ne hknown hhash hget hkey).1
    rw [Option.bind_some, Option.bind_some, get?_withCommitment, if_neg hne]

lemma StoreOk.withCommitment : StoreOk env known (withCommitment env p fqc) where
  index := by
    intro key hash hkey
    rcases get?_set_eq_some hkey with ⟨rfl, rfl⟩ | ⟨hk, hkey⟩
    · exact ⟨fqc, (get?_withCommitment _).trans (if_pos rfl), rfl⟩
    · obtain ⟨hne, qc, hqc, hqk⟩ := h.hash_ne hknown hhash hkey hk
      exact ⟨qc, (get?_withCommitment _).trans ((if_neg hne).trans hqc), hqk⟩
  entry := by
    intro hash qc hqc
    rw [get?_withCommitment] at hqc
    split at hqc
    · rename_i heq
      cases hqc
      exact ⟨heq.symm, hknown⟩
    · exact h.entry hash qc hqc

/-- When the quorum has nothing stored yet, an entry under the same hash can only be the same
    commitment, so keeping it makes no difference. -/
lemma insert_eq_withCommitment (hash : Uint256) :
    (p.minableCommitments.insert StdMap.unordered (env.serializeHash fqc) fqc).get? hash =
      (withCommitment env p fqc).minableCommitments.get? hash := by
  rw [get?_withCommitment]
  by_cases hh : hash = env.serializeHash fqc
  · subst hh
    rw [get?_insert_self, if_pos rfl]
    cases hget : p.minableCommitments.get? (env.serializeHash fqc) with
    | none => rfl
    | some qc =>
      obtain ⟨hqcHash, hqcKnown⟩ := h.entry _ qc hget
      rw [Option.getD_some, hhash qc fqc hqcKnown hknown hqcHash]
  · rw [get?_insert_of_ne hh, if_neg hh]

end

/-- Two stores that answer alike. -/
structure SameStore (p q : CQuorumBlockProcessor) : Prop where
  index : ∀ key, p.minableCommitmentsByQuorum.get? key = q.minableCommitmentsByQuorum.get? key
  entry : ∀ hash, p.minableCommitments.get? hash = q.minableCommitments.get? hash

lemma SameStore.stored (h : SameStore p q) (key : QuorumKey) :
    Llmq.stored p key = Llmq.stored q key := by
  rw [Llmq.stored, Llmq.stored, h.index key]
  exact Option.bind_congr (fun hash _ => h.entry hash)

lemma SameStore.storeOk (h : SameStore p q) (hq : StoreOk env known q) : StoreOk env known p where
  index := by
    intro key hash hkey
    rw [h.index] at hkey
    obtain ⟨qc, hqc, hk⟩ := hq.index key hash hkey
    exact ⟨qc, (h.entry hash).trans hqc, hk⟩
  entry := fun hash qc hqc => hq.entry hash qc ((h.entry hash).symm.trans hqc)

/-- `AddMinableCommitment` stores the commitment when its quorum has none or a worse one, and
    otherwise does nothing. -/
lemma addMinableCommitment_spec (h : StoreOk env known p) (hknown : known fqc)
    (hhash : NoCollision env known) :
    ∃ p', addMinableCommitment env fqc p = .ok p' ∧
      (((∀ old, stored p fqc.key = some old → old.countSigners < fqc.countSigners) ∧
          SameStore p' (withCommitment env p fqc)) ∨
        (∃ old, stored p fqc.key = some old ∧ fqc.countSigners ≤ old.countSigners ∧ p' = p)) := by
  unfold addMinableCommitment
  cases hget : p.minableCommitmentsByQuorum.get? fqc.key with
  | none =>
    refine ⟨_, rfl, .inl ⟨?_, ⟨fun key => rfl, insert_eq_withCommitment h hknown hhash⟩⟩⟩
    intro old hold
    rw [stored, hget] at hold
    cases hold
  | some oldHash =>
    obtain ⟨old, hold, hentry⟩ := stored_of_index h hget
    simp only [hentry]
    split
    · rename_i hmore
      refine ⟨_, rfl, .inl ⟨?_, ⟨fun key => rfl, fun hash => rfl⟩⟩⟩
      intro old' hold'
      rw [hold, Option.some.injEq] at hold'
      exact hold' ▸ hmore
    · rename_i hless
      exact ⟨p, rfl, .inr ⟨old, hold, by omega, rfl⟩⟩

/-! ## What is offered after a sequence of deliveries -/

/-- The commitment a quorum has stored after one more delivery for it. -/
def offer : Option CFinalCommitment → Delivery → Option CFinalCommitment
  | none, d => some d.qc
  | some old, .message _ => some old
  | some old, .add qc => some (if qc.countSigners > old.countSigners then qc else old)

lemma addMinableCommitment_offer (h : StoreOk env known p) (hknown : known qc)
    (hhash : NoCollision env known) :
    ∃ p', addMinableCommitment env qc p = .ok p' ∧ StoreOk env known p' ∧
      stored p' qc.key = offer (stored p qc.key) (.add qc) ∧
      ∀ key, key ≠ qc.key → stored p' key = stored p key := by
  obtain ⟨p', hok, hcases⟩ := addMinableCommitment_spec h hknown hhash
  refine ⟨p', hok, ?_⟩
  rcases hcases with ⟨hmore, hsame⟩ | ⟨old, hold, hless, rfl⟩
  · refine ⟨hsame.storeOk (h.withCommitment hknown hhash), ?_, ?_⟩
    · rw [hsame.stored, stored_withCommitment_self]
      cases hstored : stored p qc.key with
      | none => rfl
      | some old => rw [offer, if_pos (hmore old hstored)]
    · intro key hkey
      rw [hsame.stored, stored_withCommitment_of_ne h hknown hhash hkey]
  · refine ⟨h, ?_, fun _ _ => rfl⟩
    rw [hold, offer, if_neg (by omega)]

lemma dropsEarly_eq (h : StoreOk env known p) (qc : CFinalCommitment) :
    dropsEarly p qc =
      match stored p qc.key with
      | none => false
      | some old => decide (old.countSigners ≤ qc.countSigners) := by
  rw [dropsEarly, stored]
  cases hget : p.minableCommitmentsByQuorum.get? qc.key with
  | none => rfl
  | some hash =>
    obtain ⟨old, hold, _⟩ := h.index _ _ hget
    simp only [Option.bind_some, hold]

/-- `ProcessMessage` on a valid commitment, once the early test has been made. -/
lemma processMessage_valid (hvalid : ValidCommitment env chain qc) :
    processMessage env chain qc p =
      if dropsEarly p qc then .ok (.ignored, p)
      else (addMinableCommitment env qc p).map (fun p' => (.added, p')) := by
  obtain ⟨params, hparams, ⟨height, hfind, hstart⟩, hverify⟩ := hvalid.known
  rw [processMessage, if_neg (by rw [hvalid.notNull]; exact Bool.false_ne_true), hparams, hfind]
  simp only [hstart, ne_eq, not_true_eq_false, if_false, hverify, Bool.not_true, Bool.false_eq_true]

/-- A message is dropped when what is stored for its quorum is at most as good, and otherwise left
    to the store. -/
lemma deliver_message (hvalid : ValidCommitment env chain qc) :
    deliver env chain p (.message qc) =
      if dropsEarly p qc then .ok p else addMinableCommitment env qc p := by
  rw [deliver, processMessage_valid hvalid]
  split
  · rfl
  · cases addMinableCommitment env qc p <;> rfl

/-- A delivery makes an offer at its own key only. -/
lemma deliver_spec (h : StoreOk env known p) (d : Delivery)
    (hvalid : ValidCommitment env chain d.qc) (hknown : known d.qc)
    (hhash : NoCollision env known) :
    ∃ p', deliver env chain p d = .ok p' ∧ StoreOk env known p' ∧
      stored p' d.qc.key = offer (stored p d.qc.key) d ∧
      ∀ key, key ≠ d.qc.key → stored p' key = stored p key := by
  obtain ⟨p', hok, hstore, hself, hother⟩ := addMinableCommitment_offer h hknown hhash
  cases d with
  | add qc => exact ⟨p', hok, hstore, hself, hother⟩
  | message qc =>
    replace hvalid : ValidCommitment env chain qc := hvalid
    replace hself : stored p' qc.key = offer (stored p qc.key) (.add qc) := hself
    show ∃ p', deliver env chain p (.message qc) = .ok p' ∧ StoreOk env known p' ∧
      stored p' qc.key = offer (stored p qc.key) (.message qc) ∧
      ∀ key, key ≠ qc.key → stored p' key = stored p key
    have hmessage := deliver_message (p := p) hvalid
    rw [dropsEarly_eq h] at hmessage
    cases hstored : stored p qc.key with
    | none =>
      rw [hstored] at hself hmessage
      exact ⟨p', hmessage.trans hok, hstore, hself, hother⟩
    | some old =>
      simp only [hstored, decide_eq_true_eq] at hmessage
      -- with as many signers or more it is dropped early, with fewer it is refused later
      by_cases hle : old.countSigners ≤ qc.countSigners
      · rw [if_pos hle] at hmessage
        exact ⟨p, hmessage, h, hstored, fun _ _ => rfl⟩
      · rw [if_neg hle] at hmessage
        rw [hstored, offer, if_neg (by omega)] at hself
        exact ⟨p', hmessage.trans hok, hstore, hself, hother⟩

/-- A run of deliveries leaves each quorum with what its own deliveries offer. -/
lemma deliveries_spec (h : StoreOk env known p)
    (hvalid : ∀ d ∈ ds, ValidCommitment env chain d.qc) (hknown : ∀ d ∈ ds, known d.qc)
    (hhash : NoCollision env known) :
    ∃ p', ds.foldlM (deliver env chain) p = .ok p' ∧
      ∀ key, stored p' key =
        (ds.filter (fun d => decide (d.qc.key = key))).foldl offer (stored p key) := by
  induction ds generalizing p with
  | nil => exact ⟨p, rfl, fun _ => rfl⟩
  | cons d ds ih =>
    obtain ⟨p1, hok1, hstore1, hself, hother⟩ :=
      deliver_spec h d (hvalid d (.head _)) (hknown d (.head _)) hhash
    obtain ⟨p', hok, hrest⟩ := ih hstore1 (forall_mem_cons.mp hvalid).2
      (forall_mem_cons.mp hknown).2
    refine ⟨p', foldlM_cons_ok_iff.mpr ⟨p1, hok1, hok⟩, fun key => ?_⟩
    rw [hrest key, filter_cons]
    by_cases hkey : d.qc.key = key
    · rw [if_pos (decide_eq_true hkey), foldl_cons, ← hkey, hself]
    · rw [if_neg (by simpa using hkey), hother key (Ne.symm hkey)]

/-! ## Which commitment that is -/

/-- The deliveries that can decide what is offered: the first one and those made through
    `AddMinableCommitment`. -/
def deciding : List Delivery → List Delivery
  | [] => []
  | d :: ds => d :: ds.filter isAdd

/-- With something stored, a further run keeps the best of it and of what is added. -/
lemma foldl_offer_some (old : CFinalCommitment) :
    ∃ best, ds.foldl offer (some old) = some best ∧ old.countSigners ≤ best.countSigners ∧
      (∀ d ∈ ds.filter isAdd, d.qc.countSigners ≤ best.countSigners) ∧
      (best = old ∨ ∃ d ∈ ds.filter isAdd, d.qc = best) := by
  induction ds generalizing old with
  | nil => exact ⟨old, rfl, Nat.le_refl _, by simp, .inl rfl⟩
  | cons d ds ih =>
    cases d with
    | message qc => exact ih old
    | add qc =>
      -- the accumulator moves on to the better of the two
      obtain ⟨best, hbest, hge, hall, hwho⟩ :=
        ih (if qc.countSigners > old.countSigners then qc else old)
      have hfilter : (add qc :: ds).filter isAdd = .add qc :: ds.filter isAdd := rfl
      rw [hfilter]
      have hbounds : old.countSigners ≤ best.countSigners ∧
          qc.countSigners ≤ best.countSigners := by
        split at hge <;> constructor <;> omega
      refine ⟨best, hbest, hbounds.1, forall_mem_cons.mpr ⟨hbounds.2, hall⟩, ?_⟩
      rcases hwho with hwho | ⟨d, hd, hd'⟩
      · split at hwho
        · exact .inr ⟨.add qc, .head _, hwho.symm⟩
        · exact .inl hwho
      · exact .inr ⟨d, .tail _ hd, hd'⟩

/-- What is offered is the best of the deciding deliveries. -/
lemma foldl_offer_best (hne : ds ≠ []) :
    ∃ best, ds.foldl offer none = some best ∧ (∃ d ∈ deciding ds, d.qc = best) ∧
      ∀ d ∈ deciding ds, d.qc.countSigners ≤ best.countSigners := by
  cases ds with
  | nil => exact absurd rfl hne
  | cons d ds =>
    obtain ⟨best, hbest, hge, hall, hwho⟩ := foldl_offer_some d.qc
    refine ⟨best, hbest, ?_, forall_mem_cons.mpr ⟨hge, hall⟩⟩
    rcases hwho with hwho | ⟨d', hd', hqc⟩
    · exact ⟨d, .head _, hwho.symm⟩
    · exact ⟨d', .tail _ hd', hqc⟩

lemma deciding_subset : ∀ d ∈ deciding ds, d ∈ ds := by
  cases ds with
  | nil => simp [deciding]
  | cons d ds => exact cons_subset_cons d (filter_subset_self _)

/-- No delivery had to beat the stored commitment through a message. -/
def NoBetterMessage (ds : List Delivery) : Prop :=
  ∀ d ∈ ds, ∃ d' ∈ deciding ds, d.qc.countSigners ≤ d'.qc.countSigners

lemma best_of_all_iff {best : CFinalCommitment} (hbest : ∃ d ∈ deciding ds, d.qc = best)
    (hall : ∀ d ∈ deciding ds, d.qc.countSigners ≤ best.countSigners) :
    (∀ d ∈ ds, d.qc.countSigners ≤ best.countSigners) ↔ NoBetterMessage ds := by
  constructor
  · intro h d hd
    obtain ⟨d', hd', hqc⟩ := hbest
    exact ⟨d', hd', hqc ▸ h d hd⟩
  · intro h d hd
    obtain ⟨d', hd', hle⟩ := h d hd
    exact Nat.le_trans hle (hall d' hd')

/-! ## The commitment offered to a miner -/

/-- A store without minable commitments; the database and the other cache are arbitrary. -/
def NothingMinable (s : ProcessorState) : Prop :=
  s.processor.minableCommitmentsByQuorum = .empty ∧ s.processor.minableCommitments = .empty

lemma NothingMinable.storeOk (h : NothingMinable s) (env : LlmqEnv)
    (known : CFinalCommitment → Prop) : StoreOk env known s.processor where
  index := by
    intro key hash hkey
    rw [h.1, get?_empty] at hkey
    cases hkey
  entry := by
    intro hash qc hqc
    rw [h.2, get?_empty] at hqc
    cases hqc

/-- A query of the mined commitments changes only the cache of answers. -/
lemma isCommitmentRequired_minable :
    ∃ required s', isCommitmentRequired params chain nHeight s = .ok required s' ∧
      s'.processor.minableCommitmentsByQuorum = s.processor.minableCommitmentsByQuorum ∧
      s'.processor.minableCommitments = s.processor.minableCommitments := by
  cases hquorum : getQuorumBlockHash params chain nHeight with
  | none => exact ⟨_, _, isCommitmentRequired_of_none hquorum s, rfl, rfl⟩
  | some quorumHash => exact ⟨_, _, isCommitmentRequired_of_some hquorum s, rfl, rfl⟩

/-- When a commitment is required and one is stored, that one is offered. -/
lemma getMinableCommitment_of_stored {quorumHash : Uint256}
    (hquorum : getQuorumBlockHash params chain nHeight = some quorumHash)
    (hrequired : isCommitmentRequired params chain nHeight s = .ok true s')
    (hstored : stored s.processor (params.type, quorumHash) = some qc) :
    getMinableCommitment params chain nHeight s = .ok (some qc) s' := by
  obtain ⟨_, _, hrun, hindex, hentry⟩ := isCommitmentRequired_minable
  obtain ⟨rfl, rfl⟩ := EStateM.Result.ok.inj (hrequired.symm.trans hrun)
  obtain ⟨hash, hhash, hqc⟩ := Option.bind_eq_some_iff.mp hstored
  rw [getMinableCommitment, bind_ok_iff]
  refine ⟨true, s', hrequired, ?_⟩
  simp only [Bool.not_true, Bool.false_eq_true, if_false, hquorum]
  rw [get_bind_apply, hindex, hhash]
  simp only [hentry, hqc]
  rfl

/-- **Which commitment wins.** After any sequence of valid commitments, delivered by messages or by
    `AddMinableCommitment`, for any quorums: when a commitment of a quorum with deliveries is
    required, one of them is offered, and it has the largest signer count of all of them exactly
    when no message had more signers than the first delivery and all direct additions. -/
theorem offered_commitment_best_iff (env : LlmqEnv) (chain : CChain) (ds : List Delivery)
    {s : ProcessorState} (hstart : NothingMinable s)
    (hvalid : ∀ d ∈ ds, ValidCommitment env chain d.qc)
    (hhash : NoCollision env (fun qc => ∃ d ∈ ds, d.qc = qc)) :
    ∃ p, ds.foldlM (deliver env chain) s.processor = .ok p ∧
      ∀ (params : LLMQParams) (nHeight : Nat) (quorumHash : Uint256) (s' : ProcessorState),
        getQuorumBlockHash params chain nHeight = some quorumHash →
        isCommitmentRequired params chain nHeight { s with processor := p } = .ok true s' →
        let mine := ds.filter (fun d => decide (d.qc.key = (params.type, quorumHash)))
        mine ≠ [] →
        ∃ qc, getMinableCommitment params chain nHeight { s with processor := p }
            = .ok (some qc) s' ∧
          (∃ d ∈ mine, d.qc = qc) ∧
          ((∀ d ∈ mine, d.qc.countSigners ≤ qc.countSigners) ↔ NoBetterMessage mine) := by
  obtain ⟨p, hok, hstored⟩ := deliveries_spec (hstart.storeOk env _) hvalid
    (fun d hd => ⟨d, hd, rfl⟩) hhash
  refine ⟨p, hok, ?_⟩
  intro params nHeight quorumHash s' hquorum hrequired mine hne
  obtain ⟨best, hbest, hwho, hall⟩ := foldl_offer_best hne
  have hnone : stored s.processor (params.type, quorumHash) = none := by
    rw [stored, hstart.1, get?_empty, Option.bind_none]
  have hoffered : stored p (params.type, quorumHash) = some best := by
    rw [hstored, hnone]
    exact hbest
  refine ⟨best, getMinableCommitment_of_stored hquorum hrequired hoffered, ?_,
    best_of_all_iff hwho hall⟩
  obtain ⟨d, hd, hqc⟩ := hwho
  exact ⟨d, deciding_subset d hd, hqc⟩

namespace Sample

/-- The regtest quorums, five members, and signatures that always verify. -/
def regtestEnv : LlmqEnv where
  table := .ofChain .chainRegtest
  DIP0003Height := 10500
  getTxPayload := fun _ => none
  getAllQuorumMembers := fun _ _ => [⟨1⟩, ⟨2⟩, ⟨3⟩, ⟨4⟩, ⟨5⟩]
  buildCommitmentHash := fun _ => 1
  verifySecureAggregated := fun _ _ _ => true
  verifyInsecure := fun _ _ _ => true
  serializeHash := fun qc => qc.quorumVvecHash

/-- A commitment of a five member quorum. -/
def commitment (quorumHash : Uint256) (signers : List Bool) (quorumVvecHash : Uint256) :
    CFinalCommitment where
  nVersion := 1
  llmqType := .LLMQ_5_60
  quorumHash := quorumHash
  signers := signers
  validMembers := [true, true, true, true, true]
  quorumPublicKey := ⟨1⟩
  quorumVvecHash := quorumVvecHash
  quorumSig := ⟨1⟩
  membersSig := ⟨1⟩

def emptyBlock (hash : Uint256) (h : hash ≠ 0) : CBlock := ⟨hash, [], h⟩

/-- Twelve blocks: the next one is in the mining window of the session that starts at height 0. -/
def twelveBlocks : CChain :=
  [emptyBlock 1 (by decide), emptyBlock 2 (by decide), emptyBlock 3 (by decide),
    emptyBlock 4 (by decide), emptyBlock 5 (by decide), emptyBlock 6 (by decide),
    emptyBlock 7 (by decide), emptyBlock 8 (by decide), emptyBlock 9 (by decide),
    emptyBlock 10 (by decide), emptyBlock 11 (by decide), emptyBlock 12 (by decide)]

def threeSigners : CFinalCommitment := commitment 1 [true, true, true, false, false] 101

def fourSigners : CFinalCommitment := commitment 1 [true, true, true, true, false] 102

/-- Two quorums, and a second commitment of the first with fewer signers. -/
def offers : List CFinalCommitment :=
  [fourSigners, commitment 2 [true, true, true, false, false] 103, threeSigners]

lemma threeSigners_valid : ValidCommitment regtestEnv twelveBlocks threeSigners :=
  ⟨rfl, llmq5_60, rfl, ⟨0, rfl, rfl⟩, rfl⟩

lemma fourSigners_valid : ValidCommitment regtestEnv twelveBlocks fourSigners :=
  ⟨rfl, llmq5_60, rfl, ⟨0, rfl, rfl⟩, rfl⟩

end Sample

open Sample in
theorem offered_commitment_best_iff_added :
    ∃ p qc s', [message threeSigners, .add fourSigners].foldlM
        (deliver regtestEnv twelveBlocks) fresh.processor = .ok p ∧
      getMinableCommitment llmq5_60 twelveBlocks 12 { fresh with processor := p }
        = .ok (some qc) s' ∧
      ∀ d ∈ [message threeSigners, .add fourSigners],
        d.qc.countSigners ≤ qc.countSigners := by
  have hvalid : ∀ d ∈ [message threeSigners, .add fourSigners],
      ValidCommitment regtestEnv twelveBlocks d.qc :=
    forall_mem_cons.mpr ⟨threeSigners_valid, forall_mem_singleton.mpr fourSigners_valid⟩
  have hhash : NoCollision regtestEnv
      (fun qc => ∃ d ∈ [message threeSigners, .add fourSigners], d.qc = qc) := by
    rintro qc qc' ⟨d, hd, rfl⟩ ⟨d', hd', rfl⟩ heq
    rcases mem_pair.mp hd with rfl | rfl <;> rcases mem_pair.mp hd' with rfl | rfl
    · rfl
    · exact absurd heq (by decide)
    · exact absurd heq (by decide)
    · rfl
  obtain ⟨p, hp, hoffer⟩ := offered_commitment_best_iff regtestEnv twelveBlocks
    [.message threeSigners, .add fourSigners] (s := .fresh) ⟨rfl, rfl⟩ hvalid hhash
  have hlisted : NoBetterMessage [.message threeSigners, .add fourSigners] :=
    fun d hd => ⟨d, hd, Nat.le_refl _⟩
  obtain ⟨q, hq, s', hs'⟩ : ∃ q, [message threeSigners, .add fourSigners].foldlM
        (deliver regtestEnv twelveBlocks) fresh.processor = .ok q ∧
      ∃ s', isCommitmentRequired llmq5_60 twelveBlocks 12
        { fresh with processor := q } = .ok true s' := ⟨_, rfl, _, rfl⟩
  obtain rfl : q = p := Except.ok.inj (hq.symm.trans hp)
  obtain ⟨qc, hqc, _, hbest⟩ := hoffer llmq5_60 12 1 s' rfl hs' (by decide)
  exact ⟨q, qc, s', hp, hqc, hbest.mpr hlisted⟩

open Sample in
/-- Two messages, the second with more signers: the first one is offered. -/
theorem better_message_dropped :
    ValidCommitment regtestEnv twelveBlocks threeSigners ∧
    ValidCommitment regtestEnv twelveBlocks fourSigners ∧
    ∃ p s', [message threeSigners, .message fourSigners].foldlM
        (deliver regtestEnv twelveBlocks) fresh.processor = .ok p ∧
      getMinableCommitment llmq5_60 twelveBlocks 12 { fresh with processor := p }
        = .ok (some threeSigners) s' ∧
      threeSigners.countSigners < fourSigners.countSigners :=
  ⟨threeSigners_valid, fourSigners_valid, _, _, rfl, rfl, by decide⟩

/-! ## Nothing leaks and nothing dangles -/

variable (env known p) in
/-- A store in which every commitment is the one its quorum leads to. -/
structure StoreExact : Prop extends StoreOk env known p where
  back : ∀ hash qc, p.minableCommitments.get? hash = some qc →
    p.minableCommitmentsByQuorum.get? qc.key = some hash

/-- The quorum has a stored commitment, and the new one has more signers. -/
def Replaces (p : CQuorumBlockProcessor) (fqc : CFinalCommitment) : Prop :=
  ∃ old, stored p fqc.key = some old ∧ old.countSigners < fqc.countSigners

lemma StoreExact.keys_iff (h : StoreExact env known p) (hash : Uint256) :
    p.minableCommitments.contains hash = true ↔
      ∃ key, p.minableCommitmentsByQuorum.get? key = some hash := by
  rw [StdMap.contains, Option.isSome_iff_exists]
  constructor
  · rintro ⟨qc, hqc⟩
    exact ⟨qc.key, h.back hash qc hqc⟩
  · rintro ⟨key, hkey⟩
    obtain ⟨qc, hqc, _⟩ := h.index key hash hkey
    exact ⟨qc, hqc⟩

/-- A call that replaces nothing adds an entry only for a quorum that has none. -/
lemma StoreExact.add (h : StoreExact env known p) (hknown : known fqc)
    (hhash : NoCollision env known) (hnew : ¬Replaces p fqc)
    (hadd : addMinableCommitment env fqc p = .ok p') : StoreExact env known p' := by
  obtain ⟨q, hok, hcases⟩ := addMinableCommitment_spec h.toStoreOk hknown hhash
  cases hok.symm.trans hadd
  rcases hcases with ⟨hmore, hsame⟩ | ⟨_, _, _, rfl⟩
  · refine ⟨hsame.storeOk (h.withCommitment hknown hhash), fun hash qc hqc => ?_⟩
    rw [hsame.index]
    rw [hsame.entry, get?_withCommitment] at hqc
    split at hqc
    · rename_i heq
      cases hqc
      rw [heq]
      exact get?_set_self
    · have hback := h.back hash qc hqc
      refine (get?_set_of_ne (fun heq => ?_)).trans hback
      obtain ⟨old, hold, _⟩ := stored_of_index h.toStoreOk (heq ▸ hback)
      exact hnew ⟨old, hold, hmore old hold⟩
  · exact h

lemma getMinableCommitment_triple :
    Eff.Triple (fun s => StoreOk env known s.processor)
      (getMinableCommitment params chain nHeight) (fun _ _ => True) (fun _ => False) := by
  refine triple_bind (Q := fun _ s => StoreOk env known s.processor) ?_ (fun required => ?_)
  · intro s hs
    obtain ⟨_, s', hrun, hindex, hentry⟩ := isCommitmentRequired_minable
    rw [hrun]
    exact ⟨hindex ▸ hentry ▸ hs.index, hentry ▸ hs.entry⟩
  · split_ifs
    · exact triple_pure (fun _ _ => trivial)
    · split
      · exact triple_pure (fun _ _ => trivial)
      · rename_i quorumHash _
        intro s hs
        rw [get_bind_apply]
        cases hget : s.processor.minableCommitmentsByQuorum.get? (params.type, quorumHash) with
        | none => trivial
        | some hash =>
          obtain ⟨qc, hqc, _⟩ := hs.index _ _ hget
          simp only [hqc]
          trivial

/-- **Without replacements the store is exact.** After any calls of `AddMinableCommitment` none of
    which brings a better commitment for a quorum that has one, the keys of one map are the values
    of the other, each quorum leads to its own commitment, and neither `.at()` throws. -/
theorem store_exact_of_no_replacement (env : LlmqEnv) (known : CFinalCommitment → Prop)
    (hhash : NoCollision env known) {s : ProcessorState} (hstart : NothingMinable s)
    {p : CQuorumBlockProcessor}
    (hrun : Reaches (fun fqc p => (addMinableCommitment env fqc p).toOption)
      (fun fqc p => known fqc ∧ ¬Replaces p fqc) s.processor p) :
    (∀ hash, p.minableCommitments.contains hash = true ↔
      ∃ key, p.minableCommitmentsByQuorum.get? key = some hash) ∧
    (∀ key hash, p.minableCommitmentsByQuorum.get? key = some hash →
      ∃ qc, p.minableCommitments.get? hash = some qc ∧ qc.key = key) ∧
    (∀ fqc, known fqc → ∃ p', addMinableCommitment env fqc p = .ok p') ∧
    ∀ params chain nHeight, Eff.Triple (fun s => s.processor = p)
      (getMinableCommitment params chain nHeight) (fun _ _ => True) (fun _ => False) := by
  have hempty : StoreExact env known s.processor := by
    refine ⟨hstart.storeOk env known, fun hash qc hqc => ?_⟩
    rw [hstart.2, get?_empty] at hqc
    cases hqc
  have hexact := hrun.invariant hempty (fun fqc p p' h hallowed hstep =>
    h.add hallowed.1 hhash hallowed.2 (toOption_eq_some_iff.mp hstep))
  refine ⟨hexact.keys_iff, hexact.index, fun fqc hknown => ?_, fun params chain nHeight => ?_⟩
  · obtain ⟨p', hok, _⟩ := addMinableCommitment_spec hexact.toStoreOk hknown hhash
    exact ⟨p', hok⟩
  · rintro t rfl
    exact getMinableCommitment_triple t hexact.toStoreOk

open Sample in
/-- The last of the three is refused. -/
theorem store_exact_offers : ∃ p,
    offers.foldlM (fun p fqc => addMinableCommitment regtestEnv fqc p) fresh.processor = .ok p ∧
      p.minableCommitments.keys = [102, 103] ∧
      ∀ hash, p.minableCommitments.contains hash = true ↔
        ∃ key, p.minableCommitmentsByQuorum.get? key = some hash := by
  have hhash : ∀ qc ∈ offers, ∀ qc' ∈ offers,
      regtestEnv.serializeHash qc = regtestEnv.serializeHash qc' → qc = qc' := by
    decide
  refine ⟨_, rfl, rfl, (store_exact_of_no_replacement regtestEnv (· ∈ offers)
    (fun qc qc' h h' => hhash qc h qc' h') (s := .fresh) ⟨rfl, rfl⟩
    (.next threeSigners (.next _ (.next fourSigners .start ⟨.head _, ?_⟩ rfl)
      ⟨.tail _ (.head _), ?_⟩ rfl) ⟨by decide, ?_⟩ rfl)).1⟩
  · rintro ⟨old, hold, _⟩
    cases hold
  · rintro ⟨old, hold, _⟩
    cases hold
  · rintro ⟨old, hold, hmore⟩
    cases hold
    exact absurd hmore (by decide)

open Sample in
/-- A better commitment of the same quorum: the entry of the old one stays. -/
theorem replaced_commitment_leaks :
    ∃ p, [threeSigners, fourSigners].foldlM (fun p fqc => addMinableCommitment regtestEnv fqc p)
        fresh.processor = .ok p ∧
      p.minableCommitments.contains 101 = true ∧
      ¬∃ key, p.minableCommitmentsByQuorum.get? key = some 101 := by
  refine ⟨_, rfl, by decide, ?_⟩
  rintro ⟨key, hkey⟩
  cases mem_singleton.mp (get?_eq_some_iff.mp hkey)

end Tecracoin.Llmq
