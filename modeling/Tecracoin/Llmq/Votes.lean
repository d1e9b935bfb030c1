/-
  The votes of a masternode (`llmq/quorums_signing.cpp`): what `AsyncSignIfMember`
  lets through to the queue, and what `CleanupOldVotes` forgets.

  A clean-up does not take the lock of `AsyncSignIfMember`, so its batch can be
  written between the two reads there.  The time of a vote and the limit of a
  clean-up are cut to 32 bits; the limit is below zero if the age exceeds the clock.
-/
import Tecracoin.Data.Run
import Tecracoin.Primitives.Transaction

namespace Tecracoin.Llmq

open Data List

variable {K : Type}

/-- A vote for a message under a type and an id, with the time of the write. -/
structure Vote (K : Type) where
  key : K
  msgHash : Uint256
  time : Int
deriving DecidableEq

/-- The time in a `rs_vt` key. -/
def stamp (time : Int) : Nat := (time % 2 ^ 32).toNat

/-- A run of `CleanupOldVotes`, with the adjusted time it reads. -/
structure Cleanup where
  now : Int
  maxAge : Int
deriving DecidableEq

structure SigningState (K : Type) where
  /-- The `rs_v` keys. -/
  votes : K → Option Uint256
  /-- The `rs_vt` keys, each with its vote. -/
  times : List (Vote K)
  /-- Everything `AsyncSign` was called with, and every removal, so far. -/
  queued : List (K × Uint256)
  removed : List (Vote K × Cleanup)

def SigningState.start : SigningState K := ⟨fun _ => none, [], [], []⟩

/-- The keys come in the order of their times, so the walk ends with the last one below `endTime`.
    -/
def Cleanup.isOld (c : Cleanup) (v : Vote K) : Bool :=
  decide (stamp v.time < stamp (c.now - c.maxAge))

/-- A call of `AsyncSignIfMember` with what it finds out, and the clean-ups between its reads, the
    last one first. -/
structure SignCall (K : Type) where
  key : K
  msgHash : Uint256
  allowReSign : Bool
  hasRecoveredSig : Bool
  isMember : Bool
  now : Int
  between : List Cleanup

/-- `AsyncSign`, if there is a quorum and the node is a member of it. -/
def SigningState.queue (s : SigningState K) (call : SignCall K) : SigningState K :=
  if call.isMember then { s with queued := (call.key, call.msgHash) :: s.queued } else s

variable [DecidableEq K]

def SigningState.writeVoteForId (s : SigningState K) (v : Vote K) : SigningState K :=
  { s with votes := Function.update s.votes v.key (some v.msgHash), times := v :: s.times }

def cleanupOldVotes (c : Cleanup) (s : SigningState K) : SigningState K :=
  { s with
    votes := fun key => if key ∈ (s.times.filter c.isOld).map Vote.key then none else s.votes key
    times := s.times.filter (fun v => !c.isOld v)
    removed := (s.times.filter c.isOld).map (·, c) ++ s.removed }

def asyncSignIfMember (call : SignCall K) (s : SigningState K) : SigningState K :=
  let s' := call.between.foldr cleanupOldVotes s
  let prevMsgHash := (s'.votes call.key).getD 0
  if (s.votes call.key).isSome then
    if call.msgHash ≠ prevMsgHash ∨ call.allowReSign = false ∨ call.hasRecoveredSig = true then s'
    else s'.queue call
  else if call.hasRecoveredSig then s'
  else (s'.writeVoteForId ⟨call.key, call.msgHash, call.now⟩).queue call

inductive SigningEvent (K : Type)
  | sign (call : SignCall K)
  | cleanup (c : Cleanup)
  /-- The database and what was queued before are left. -/
  | restart

def signingStep (event : SigningEvent K) (s : SigningState K) : Option (SigningState K) :=
  match event with
  | .sign call => some (asyncSignIfMember call s)
  | .cleanup c => some (cleanupOldVotes c s)
  | .restart => some s

/-- The vote was removed at least `maxAge` after it was written. -/
def Expired (s : SigningState K) (v : Vote K) : Prop :=
  ∃ c, (v, c) ∈ s.removed ∧ c.maxAge ≤ c.now - v.time

/-- Two messages were queued for one id only if the first vote had expired: each of the two votes
    stands or has expired, and not both stand. -/
def NoConflict (s : SigningState K) : Prop :=
  ∀ key m1 m2, (key, m1) ∈ s.queued → (key, m2) ∈ s.queued → m1 = m2 ∨
    ∃ v w, (v.key, v.msgHash) = (key, m1) ∧ (w.key, w.msgHash) = (key, m2) ∧
      (v ∈ s.times ∨ Expired s v) ∧ (w ∈ s.times ∨ Expired s w) ∧ (Expired s v ∨ Expired s w)

/-- The age of a clean-up does not exceed its clock. -/
def Cleanup.Timely (c : Cleanup) : Prop := 0 ≤ c.now - c.maxAge

/-- Times fit into their keys, and the null hash is not signed again around a clean-up. -/
def Timely (event : SigningEvent K) (_ : SigningState K) : Prop :=
  match event with
  | .sign call => call.now < 2 ^ 32 ∧ (∀ c ∈ call.between, c.Timely) ∧
      (call.between ≠ [] → call.allowReSign = true → call.msgHash ≠ 0)
  | .cleanup c => c.Timely
  | .restart => True

structure VoteInv (s : SigningState K) : Prop where
  voted : ∀ key m, s.votes key = some m → ∃ v ∈ s.times, (v.key, v.msgHash) = (key, m)
  timed : ∀ v ∈ s.times, (s.votes v.key).isSome ∧ v.time < 2 ^ 32
  unique : ∀ v ∈ s.times, ∀ w ∈ s.times, v.key = w.key → v = w
  signed : ∀ entry ∈ s.queued, ∃ v, (v ∈ s.times ∨ Expired s v) ∧ (v.key, v.msgHash) = entry

variable {s : SigningState K} {c : Cleanup} {call : SignCall K}

omit [DecidableEq K] in
lemma Cleanup.Timely.aged (h : c.Timely) {v : Vote K} (htime : v.time < 2 ^ 32)
    (hold : c.isOld v = true) : c.maxAge ≤ c.now - v.time := by
  have hlt : stamp v.time < stamp (c.now - c.maxAge) := of_decide_eq_true hold
  unfold Cleanup.Timely at h
  unfold stamp at hlt
  omega

section

variable (h : VoteInv s)
include h

lemma VoteInv.cleanup (hc : c.Timely) : VoteInv (cleanupOldVotes c s) where
  voted key m hvote := by
    simp only [cleanupOldVotes] at hvote
    split_ifs at hvote with hold
    obtain ⟨v, hv, hkey⟩ := h.voted key m hvote
    refine ⟨v, mem_filter.mpr ⟨hv, ?_⟩, hkey⟩
    have hnew : ¬c.isOld v = true := fun hvold =>
      hold (mem_map.mpr ⟨v, mem_filter.mpr ⟨hv, hvold⟩, congrArg Prod.fst hkey⟩)
    simpa using hnew
  timed v hv := by
    obtain ⟨hv, hnew⟩ := mem_filter.mp hv
    obtain ⟨hvoted, htime⟩ := h.timed v hv
    refine ⟨?_, htime⟩
    simp only [cleanupOldVotes]
    rwa [if_neg]
    -- an old vote with the same key would be the same vote
    intro hold
    obtain ⟨w, hw, hkey⟩ := mem_map.mp hold
    obtain ⟨hw, hwold⟩ := mem_filter.mp hw
    rw [← h.unique w hw v hv hkey, hwold] at hnew
    cases hnew
  unique v hv w hw := h.unique v (mem_of_mem_filter hv) w (mem_of_mem_filter hw)
  signed entry hentry := by
    obtain ⟨v, hv, hvote⟩ := h.signed entry hentry
    refine ⟨v, ?_, hvote⟩
    rcases hv with hv | ⟨d, hd, hage⟩
    · cases hold : c.isOld v with
      | false => exact .inl (mem_filter.mpr ⟨hv, by rw [hold]; rfl⟩)
      | true =>
        refine .inr ⟨c, mem_append_left _ ?_, hc.aged (h.timed v hv).2 hold⟩
        exact mem_map_of_mem (mem_filter.mpr ⟨hv, hold⟩)
    · exact .inr ⟨d, mem_append_right _ hd, hage⟩

/-- Clean-ups in a row; they bring no vote back. -/
lemma VoteInv.cleanups {cs : List Cleanup} (hcs : ∀ c ∈ cs, c.Timely) :
    VoteInv (cs.foldr cleanupOldVotes s) ∧
      ∀ key, s.votes key = none → (cs.foldr cleanupOldVotes s).votes key = none := by
  induction cs with
  | nil => exact ⟨h, fun _ hnone => hnone⟩
  | cons c cs ih =>
    obtain ⟨hinv, hnone⟩ := ih (forall_mem_cons.mp hcs).2
    exact ⟨hinv.cleanup (hcs c (.head _)),
      fun key hkey => ite_eq_left_iff.mpr (fun _ => hnone key hkey)⟩

omit [DecidableEq K] in
lemma VoteInv.queue (hvote : s.votes call.key = some call.msgHash) :
    VoteInv (s.queue call) := by
  unfold SigningState.queue
  split_ifs
  · obtain ⟨v, hv, hkey⟩ := h.voted _ _ hvote
    exact ⟨h.voted, h.timed, h.unique, forall_mem_cons.mpr ⟨⟨v, .inl hv, hkey⟩, h.signed⟩⟩
  · exact h

lemma VoteInv.write {v : Vote K} (hnone : s.votes v.key = none)
    (htime : v.time < 2 ^ 32) : VoteInv (s.writeVoteForId v) := by
  have hfresh : ∀ w ∈ s.times, v.key ≠ w.key := by
    intro w hw hkey
    have hvoted := (h.timed w hw).1
    rw [← hkey, hnone] at hvoted
    cases hvoted
  refine ⟨fun key m hvote => ?_, forall_mem_cons.mpr ⟨⟨?_, htime⟩, fun w hw => ?_⟩,
    forall_mem_cons.mpr ⟨forall_mem_cons.mpr ⟨fun _ => rfl, ?_⟩, fun w hw => ?_⟩,
    fun entry hentry => ?_⟩
  · by_cases hkey : key = v.key
    · subst hkey
      exact ⟨v, .head _, by simpa [SigningState.writeVoteForId] using hvote⟩
    · obtain ⟨w, hw, hvoted⟩ := h.voted key m ((Function.update_of_ne hkey ..).symm.trans hvote)
      exact ⟨w, .tail _ hw, hvoted⟩
  · simp [SigningState.writeVoteForId]
  · simpa [SigningState.writeVoteForId, (hfresh w hw).symm] using h.timed w hw
  · exact fun w hw hkey => absurd hkey (hfresh w hw)
  · exact forall_mem_cons.mpr ⟨fun hkey => absurd hkey.symm (hfresh w hw), h.unique w hw⟩
  · obtain ⟨w, hw, hvote⟩ := h.signed entry hentry
    exact ⟨w, hw.imp_left (.tail _), hvote⟩

lemma VoteInv.sign (hcall : Timely (.sign call) s) :
    VoteInv (asyncSignIfMember call s) := by
  obtain ⟨hinv, hnone⟩ := h.cleanups hcall.2.1
  unfold asyncSignIfMember
  dsimp only
  split_ifs with hvoted hreject hrecovered
  · exact hinv
  · obtain ⟨hprev, hagain, -⟩ : call.msgHash =
        ((call.between.foldr cleanupOldVotes s).votes call.key).getD 0 ∧
        call.allowReSign = true ∧ call.hasRecoveredSig = false := by simpa using hreject
    refine hinv.queue ?_
    cases hvote : (call.between.foldr cleanupOldVotes s).votes call.key with
    | some m => rw [hprev, hvote, Option.getD_some]
    | none =>
      -- the vote was removed between the two reads
      rw [hvote] at hprev
      refine absurd hprev (hcall.2.2 (fun hnil => ?_) hagain)
      rw [hnil] at hvote
      simp [show s.votes call.key = none from hvote] at hvoted
  · exact hinv
  · have hfree := hnone call.key (Option.not_isSome_iff_eq_none.mp hvoted)
    exact (hinv.write (v := ⟨call.key, call.msgHash, call.now⟩) hfree hcall.1).queue
      (Function.update_self ..)

end

/-- In every run in which ages do not exceed the clock and times fit, no two conflicting messages
    are queued. -/
theorem noConflict_of_timely (h : Reaches signingStep Timely .start s) : NoConflict s := by
  have hinv : VoteInv s := by
    refine h.invariant ⟨nofun, nofun, nofun, nofun⟩ (fun event t u ht hevent hstep => ?_)
    cases event with
    | sign call => exact Option.some.inj hstep ▸ ht.sign hevent
    | cleanup c => exact Option.some.inj hstep ▸ ht.cleanup hevent
    | restart => exact Option.some.inj hstep ▸ ht
  intro key m1 m2 h1 h2
  obtain ⟨v, hv, hvote⟩ := hinv.signed _ h1
  obtain ⟨w, hw, hwvote⟩ := hinv.signed _ h2
  by_cases hsame : v = w
  · exact .inl (congrArg Prod.snd (hvote.symm.trans (hsame ▸ hwvote)))
  refine .inr ⟨v, w, hvote, hwvote, hv, hw, ?_⟩
  rcases hv with hv | hv
  · rcases hw with hw | hw
    · -- two standing votes have different keys
      have hkey : v.key = w.key := (congrArg Prod.fst hvote).trans (congrArg Prod.fst hwvote).symm
      exact absurd (hinv.unique v hv w hw hkey) hsame
    · exact .inr hw
  · exact .inl hv

/-- A call without interruption. -/
def SignCall.plain (msgHash : Uint256) (now : Int) : SignCall Unit :=
  ⟨(), msgHash, false, false, true, now, []⟩

lemma timely_plain {msgHash : Uint256} {now : Int} {s : SigningState Unit} (hnow : now < 2 ^ 32) :
    Timely (.sign (.plain msgHash now)) s :=
  ⟨hnow, fun _ hc => absurd hc not_mem_nil, fun hne => absurd rfl hne⟩

/-- A week and a second after it was written a vote is removed, and another message is queued for
    its id. -/
theorem noConflict_resigned : ∃ s : SigningState Unit, Reaches signingStep Timely .start s ∧
    s.queued = [((), 2), ((), 1)] ∧ s.times.length = 1 ∧ s.removed.length = 1 ∧ NoConflict s := by
  have hsigned : Reaches signingStep Timely SigningState.start _ :=
    Reaches.start.next (.sign (.plain 1 1700000000)) (timely_plain (by decide)) rfl
  have htimely : Cleanup.Timely ⟨1700604801, 604800⟩ := by
    unfold Cleanup.Timely
    decide
  have hremoved := hsigned.next (.cleanup ⟨1700604801, 604800⟩) (by exact htimely) rfl
  have hresigned := hremoved.next (.sign (.plain 2 1700604802)) (timely_plain (by decide)) rfl
  exact ⟨_, hresigned, by decide, by decide, by decide, noConflict_of_timely hresigned⟩

/-- An age that exceeds the clock: a minute after it was written a vote is removed, and another
    message is queued for its id. -/
theorem fresh_vote_removed : ∃ s : SigningState Unit,
    Reaches signingStep (fun _ _ => True) .start s ∧ ¬ NoConflict s := by
  refine ⟨_, ((Reaches.start.next (.sign (.plain 1 1700000000)) trivial rfl).next
    (.cleanup ⟨1700000060, 4000000000⟩) trivial rfl).next
    (.sign (.plain 2 1700000061)) trivial rfl, fun h => ?_⟩
  rcases h () 1 2 (by decide) (by decide) with hsame | ⟨v, w, _, _, _, _, hexpired⟩
  · exact absurd hsame (by decide)
  rcases hexpired with ⟨c, hc, hage⟩ | ⟨c, hc, hage⟩
  all_goals
    obtain ⟨rfl, rfl⟩ := Prod.mk.inj (mem_singleton.mp hc)
    exact absurd hage (by decide)

end Tecracoin.Llmq
