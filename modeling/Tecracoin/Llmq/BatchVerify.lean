/-
  `BatchVerifyMessageSigs` (`llmq/quorums_dkgsessionhandler.cpp`): which peers sent
  a DKG message with a bad signature.  All signatures are verified at once; if that
  fails, or a message comes twice, it is to be found out who is to blame.

  The flag `first` of the loop that compares the senders is never cleared, so that
  the loop ends with the sender of the last message, who is blamed alone.
-/
import Tecracoin.Bls.Keys
import Tecracoin.Consensus.Params
import Tecracoin.Data.Eff

namespace Tecracoin.Llmq

open Data List

/-- What is read of a message of any of the four kinds. -/
structure DKGMessage where
  proTxHash : Uint256
  sig : CBLSSignature
  /-- `GetSignHash()`. -/
  signHash : Uint256

/-- A message with the `NodeId` of its sender. -/
abbrev SentMessage := Int × DKGMessage

/-- The members of the session and the BLS library. -/
structure BatchEnv where
  /-- `GetMember`: the operator key of a member. -/
  getMember : Uint256 → Option CBLSPublicKey
  /-- `bls::InsecureSignature::Aggregate`; `fValid` stays set. -/
  aggregate : CBLSSignature → CBLSSignature → CBLSSignature
  verifyInsecure : CBLSSignature → CBLSPublicKey → Uint256 → Bool
  verifyInsecureAggregated : CBLSSignature → List CBLSPublicKey → List Uint256 → Bool
  aggregate_isValid : ∀ sig sig', (aggregate sig sig').isValid = true

/-- The aggregate of the signatures so far, with their keys and hashes. -/
structure Batch where
  /-- `none` as long as `first` is set. -/
  aggSig : Option CBLSSignature
  pubKeys : List CBLSPublicKey
  messageHashes : List Uint256

variable (env : BatchEnv)

namespace BatchEnv

/-- `aggSig.AggregateInsecure(sig)`, or `aggSig = sig`. -/
def addSig (aggSig : Option CBLSSignature) (sig : CBLSSignature) : Except Failure CBLSSignature :=
  match aggSig with
  | none => .ok sig
  | some aggSig =>
    if aggSig.isValid ∧ sig.isValid then .ok (env.aggregate aggSig sig)
    else .error (.asserts "IsValid() && o.IsValid()")

/-- The first loop: the peers that sent for no member, and the batch unless a hash comes twice. -/
def collect : List SentMessage → List Int → Batch → Except Failure (List Int × Option Batch)
  | [], ret, b => .ok (ret, some b)
  | (node, msg) :: rest, ret, b =>
    match env.getMember msg.proTxHash with
    | none => collect rest (node :: ret) b
    | some pubKey => do
      let aggSig ← env.addSig b.aggSig msg.sig
      if msg.signHash ∈ b.messageHashes then .ok (ret, none)
      else
        collect rest ret
          ⟨some aggSig, b.pubKeys ++ [pubKey], b.messageHashes ++ [msg.signHash]⟩

/-- The loop over the senders: `firstNodeId` and `nodeIdsAllSame`. -/
def compareNodes : List SentMessage → Bool → Int → Int × Bool
  | [], _, firstNodeId => (firstNodeId, true)
  | (node, _) :: rest, true, _ => compareNodes rest true node
  | (node, _) :: rest, false, firstNodeId =>
    if node ≠ firstNodeId then (firstNodeId, false) else compareNodes rest false firstNodeId

/-- The loop that verifies one message after the other. -/
def verifySingly : List SentMessage → List Int → Except Failure (List Int)
  | [], ret => .ok ret
  | (node, msg) :: rest, ret =>
    if node ∈ ret then verifySingly rest ret
    else
      match env.getMember msg.proTxHash with
      | none => .error .nullDereference
      | some pubKey =>
        verifySingly rest
          (if env.verifyInsecure msg.sig pubKey msg.signHash then ret else node :: ret)

def batchVerifyMessageSigs (messages : List SentMessage) : Except Failure (List Int) :=
  if messages.isEmpty then .ok []
  else do
    let (ret, batch) ← env.collect messages [] ⟨none, [], []⟩
    match batch with
    | none => env.verifySingly messages ret
    | some b =>
      if env.verifyInsecureAggregated (b.aggSig.getD .null) b.pubKeys b.messageHashes then .ok ret
      else
        -- `firstNodeId` is not initialised
        let (firstNodeId, nodeIdsAllSame) := compareNodes messages true 0
        if nodeIdsAllSame then .ok (firstNodeId :: ret) else env.verifySingly messages ret

/-! ## What the loops find -/

/-- The operator key of the member a message is from. -/
def key (p : SentMessage) : CBLSPublicKey := (env.getMember p.2.proTxHash).getD .null

/-- The signature is valid on its own. -/
def SigValid (p : SentMessage) : Prop :=
  env.verifyInsecure p.2.sig (env.key p) p.2.signHash = true

/-- The aggregate with the signatures of these messages. -/
def aggregated (aggSig : Option CBLSSignature) (messages : List SentMessage) :
    Option CBLSSignature :=
  messages.foldl (fun aggSig p => some (aggSig.elim p.2.sig (env.aggregate · p.2.sig))) aggSig

/-- The aggregate of signatures of distinct hashes is accepted exactly if each of them is valid. -/
def Exact : Prop :=
  ∀ messages : List SentMessage, messages ≠ [] → (messages.map (·.2.signHash)).Nodup →
    (env.verifyInsecureAggregated ((env.aggregated none messages).getD .null)
        (messages.map env.key) (messages.map (·.2.signHash)) = true ↔
      ∀ p ∈ messages, env.SigValid p)

/-- Every message is from a member. -/
def FromMembers (messages : List SentMessage) : Prop :=
  ∀ p ∈ messages, env.getMember p.2.proTxHash = some (env.key p)

end BatchEnv

/-- No null signature is aggregated up to the first hash that comes twice; the first argument is the
    validity of the aggregate so far. -/
def Aggregable : Option Bool → List Uint256 → List SentMessage → Prop
  | _, _, [] => True
  | valid, hashes, p :: rest => (∀ v ∈ valid, v = true ∧ p.2.sig.isValid = true) ∧
      (p.2.signHash ∉ hashes →
        Aggregable (some p.2.sig.isValid) (hashes ++ [p.2.signHash]) rest)

namespace BatchEnv

variable {env} {messages : List SentMessage} (ret : List Int)

lemma addSig_ends {aggSig : Option CBLSSignature} {sig : CBLSSignature} :
    Ends (fun _ => ¬ ∀ v ∈ aggSig.map (·.isValid), v = true ∧ sig.isValid = true)
      (fun agg => (∀ v ∈ aggSig.map (·.isValid), v = true ∧ sig.isValid = true) ∧
        agg.isValid = sig.isValid ∧ agg = aggSig.elim sig (env.aggregate · sig))
      (env.addSig aggSig sig) := by
  cases aggSig with
  | none => exact ⟨nofun, rfl, rfl⟩
  | some agg =>
    rw [addSig]
    split_ifs with hboth
    · refine ⟨?_, (env.aggregate_isValid agg sig).trans hboth.2.symm, rfl⟩
      rintro v ⟨⟩
      exact hboth
    · exact fun hall => hboth (hall _ rfl)

/-- The messages join the batch, unless a message hash comes twice. -/
lemma collect_ends {b : Batch} (h : env.FromMembers messages) (hnodup : b.messageHashes.Nodup) :
    Ends (fun _ => ¬ Aggregable (b.aggSig.map (·.isValid)) b.messageHashes messages)
      (fun r => Aggregable (b.aggSig.map (·.isValid)) b.messageHashes messages ∧
        r = (ret, if (b.messageHashes ++ messages.map (·.2.signHash)).Nodup then
          some ⟨env.aggregated b.aggSig messages, b.pubKeys ++ messages.map env.key,
            b.messageHashes ++ messages.map (·.2.signHash)⟩ else none))
      (env.collect messages ret b) := by
  induction messages generalizing b with
  | nil => simp [collect, Ends, Aggregable, aggregated, hnodup]
  | cons p rest ih =>
    obtain ⟨node, msg⟩ := p
    obtain ⟨hmember, hrest⟩ := forall_mem_cons.mp h
    rw [collect, hmember]
    refine (addSig_ends.mono (fun _ hnot hall => hnot hall.1) (fun _ => id)).bind ?_
    rintro _ ⟨hvalid, hsig, rfl⟩
    -- a second message with the same hash ends the batch
    by_cases hmem : msg.signHash ∈ b.messageHashes
    · rw [if_pos hmem]
      refine ⟨⟨hvalid, fun hnot => absurd hmem hnot⟩, ?_⟩
      rw [if_neg]
      exact fun hall => (nodup_append.mp hall).2.2 _ hmem _ (.head _) rfl
    · rw [if_neg hmem]
      have hnext := ih (b := ⟨some (b.aggSig.elim msg.sig (env.aggregate · msg.sig)),
        b.pubKeys ++ [env.key (node, msg)], b.messageHashes ++ [msg.signHash]⟩) hrest
        (perm_append_singleton _ _ |>.nodup_iff.mpr (nodup_cons.mpr ⟨hmem, hnodup⟩))
      simp only [Option.map_some, hsig, append_assoc, singleton_append] at hnext
      exact hnext.mono (fun _ hnot hall => hnot (hall.2 hmem))
        (fun r hr => ⟨⟨hvalid, fun _ => hr.1⟩, hr.2⟩)

lemma compareNodes_eq {node : Int} :
    compareNodes messages true node = ((messages.getLast?.map Prod.fst).getD node, true) := by
  induction messages generalizing node with
  | nil => rfl
  | cons p rest ih =>
    rw [compareNodes, ih, getLast?_cons]
    cases rest.getLast? with
    | none => rfl
    | some q => rfl

lemma verifySingly_spec (h : env.FromMembers messages) :
    ∃ bad, env.verifySingly messages ret = .ok bad ∧
      ∀ node, node ∈ bad ↔ node ∈ ret ∨ ∃ p ∈ messages, p.1 = node ∧ ¬ env.SigValid p := by
  induction messages generalizing ret with
  | nil => exact ⟨ret, rfl, by simp⟩
  | cons p rest ih =>
    obtain ⟨node, msg⟩ := p
    obtain ⟨hmember, hothers⟩ := forall_mem_cons.mp h
    have hrest (ret' : List Int)
        (hret : ∀ n, n ∈ ret' ↔ n ∈ ret ∨ node = n ∧ ¬ env.SigValid (node, msg)) :
        ∃ bad, env.verifySingly rest ret' = .ok bad ∧ ∀ n, n ∈ bad ↔
          n ∈ ret ∨ ∃ p ∈ (node, msg) :: rest, p.1 = n ∧ ¬ env.SigValid p := by
      obtain ⟨bad, hrun, hbad⟩ := ih ret' hothers
      refine ⟨bad, hrun, fun n => ?_⟩
      rw [hbad, hret, exists_mem_cons_iff, or_assoc]
    rw [verifySingly, hmember]
    dsimp only
    split_ifs with hmem hvalid
    · refine hrest ret (fun n => ⟨.inl, ?_⟩)
      rintro (hn | ⟨rfl, -⟩)
      · exact hn
      · exact hmem
    · refine hrest ret (fun n => ⟨.inl, ?_⟩)
      rintro (hn | ⟨-, hbad⟩)
      · exact hn
      · exact absurd hvalid hbad
    · refine hrest (node :: ret) (fun n => ?_)
      rw [mem_cons, or_comm, eq_comm, and_iff_left (show ¬ env.SigValid (node, msg) from hvalid)]

/-- The peers with a bad message are found if and only if no null signature is aggregated and, where
    every hash comes once, all bad messages are from the sender of the last one. -/
theorem blames_bad_senders_iff (hbls : env.Exact) (h : env.FromMembers messages) :
    (∃ bad, env.batchVerifyMessageSigs messages = .ok bad ∧
      ∀ node, node ∈ bad ↔ ∃ p ∈ messages, p.1 = node ∧ ¬ env.SigValid p) ↔
      Aggregable none [] messages ∧
        ((messages.map (·.2.signHash)).Nodup → ∀ p ∈ messages, ¬ env.SigValid p →
          messages.getLast?.map Prod.fst = some p.1) := by
  cases hlast : messages.getLast? with
  | none =>
    obtain rfl := getLast?_eq_none_iff.mp hlast
    simp [batchVerifyMessageSigs, Aggregable]
  | some last =>
    have hne : messages ≠ [] := by
      rintro rfl
      cases hlast
    have hrun := collect_ends [] (b := ⟨none, [], []⟩) h nodup_nil
    rw [batchVerifyMessageSigs, if_neg (by simpa using hne)]
    cases hres : env.collect messages [] ⟨none, [], []⟩ with
    | error e =>
      exact iff_of_false (fun ⟨_, hok, _⟩ => nomatch hok) (fun hr => hrun.of_error hres hr.1)
    | ok r =>
      obtain ⟨hagg, rfl⟩ := hrun.of_ok hres
      simp only [nil_append]
      by_cases hnodup : (messages.map (·.2.signHash)).Nodup
      · have hexact := hbls messages hne hnodup
        rw [if_pos hnodup]
        show (∃ bad, (if env.verifyInsecureAggregated _ _ _ then _ else _) = _ ∧ _) ↔ _
        by_cases hall : ∀ q ∈ messages, env.SigValid q
        · rw [if_pos (hexact.mpr hall)]
          refine iff_of_true ⟨[], rfl, fun node => ?_⟩
            ⟨hagg, fun _ q hq hbad => absurd (hall q hq) hbad⟩
          exact ⟨nofun, fun ⟨q, hq, _, hbad⟩ => absurd (hall q hq) hbad⟩
        · -- only the last sender is blamed, and somebody is to blame
          push Not at hall
          obtain ⟨bad, hmem, hinvalid⟩ := hall
          rw [if_neg (fun hv => hinvalid (hexact.mp hv bad hmem)), compareNodes_eq, hlast]
          show (∃ bad, Except.ok [last.1] = _ ∧ _) ↔ _
          constructor
          · rintro ⟨_, ⟨⟩, hbad⟩
            refine ⟨hagg, fun _ q hq hno => ?_⟩
            exact congrArg some (mem_singleton.mp ((hbad q.1).mpr ⟨q, hq, rfl, hno⟩)).symm
          · rintro ⟨-, honly⟩
            have hsender (q : SentMessage) (hq : q ∈ messages) (hno : ¬ env.SigValid q) :
                last.1 = q.1 := Option.some.inj (honly hnodup q hq hno)
            refine ⟨[last.1], rfl, fun node => ?_⟩
            rw [mem_singleton]
            constructor
            · rintro rfl
              exact ⟨bad, hmem, (hsender bad hmem hinvalid).symm, hinvalid⟩
            · rintro ⟨q, hq, rfl, hno⟩
              exact (hsender q hq hno).symm
      · rw [if_neg hnodup]
        obtain ⟨bad, hsingly, hbad⟩ := verifySingly_spec [] h
        refine iff_of_true ⟨bad, hsingly, fun node => ?_⟩ ⟨hagg, fun hn => absurd hn hnodup⟩
        rw [hbad, or_iff_right not_mem_nil]

/-! ## Two senders -/

/-- A library for which every signature of the hash two is bad. -/
def sampleEnv : BatchEnv where
  getMember _ := some ⟨1⟩
  aggregate _ _ := ⟨1⟩
  verifyInsecure _ _ hash := decide (hash ≠ 2)
  verifyInsecureAggregated _ _ hashes := decide (2 ∉ hashes)
  aggregate_isValid _ _ := rfl

lemma sampleEnv_exact : sampleEnv.Exact := by
  intro messages _ _
  simp [SigValid, sampleEnv]

/-- Messages of the members 1 and 2 from as many peers, with these hashes. -/
def twoSenders (hash hash' : Uint256) (sig' : CBLSSignature) : List SentMessage :=
  [(1, ⟨1, ⟨1⟩, hash⟩), (2, ⟨2, sig', hash'⟩)]

theorem blames_bad_senders_iff_last :
    ∃ bad, sampleEnv.batchVerifyMessageSigs (twoSenders 1 2 ⟨1⟩) = .ok bad ∧
      ∀ node, node ∈ bad ↔ ∃ p ∈ twoSenders 1 2 ⟨1⟩, p.1 = node ∧ ¬ sampleEnv.SigValid p := by
  apply (blames_bad_senders_iff sampleEnv_exact (fun p _ => rfl)).mpr
  simp [twoSenders, Aggregable, SigValid, sampleEnv, CBLSSignature.isValid]

/-- With the bad signature in the first message the other sender is blamed, and a null signature
    stops the node. -/
theorem innocent_sender_blamed :
    sampleEnv.Exact ∧ sampleEnv.FromMembers (twoSenders 2 1 ⟨1⟩) ∧
      sampleEnv.batchVerifyMessageSigs (twoSenders 2 1 ⟨1⟩) = .ok [2] ∧
      (¬ ∃ bad, sampleEnv.batchVerifyMessageSigs (twoSenders 2 1 ⟨1⟩) = .ok bad ∧
        ∀ node, node ∈ bad ↔ ∃ p ∈ twoSenders 2 1 ⟨1⟩, p.1 = node ∧ ¬ sampleEnv.SigValid p) ∧
      sampleEnv.batchVerifyMessageSigs (twoSenders 1 3 .null)
        = .error (.asserts "IsValid() && o.IsValid()") := by
  refine ⟨sampleEnv_exact, fun p _ => rfl, rfl, ?_, rfl⟩
  rintro ⟨bad, hok, hbad⟩
  obtain rfl : [2] = bad := Except.ok.inj hok
  have hblamed : (1 : Int) ∈ [2] :=
    (hbad 1).mpr ⟨_, .head _, rfl, by simp [SigValid, sampleEnv]⟩
  simp at hblamed

end BatchEnv

end Tecracoin.Llmq
