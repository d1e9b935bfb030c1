/-
  The shares a DKG member received, against the verification vectors of their
  dealers (`VerifyContributionShares` of `bls/bls_worker.cpp`).

  In aggregated mode the vectors and the shares of eight dealers are added up and
  compared once.  The shares are looked at one by one only when the sums differ,
  so that errors which cancel go unseen.  Adding up asserts that the shares are
  valid secret keys, which nobody has looked at before: one that is not ends the
  process, unless its batch has no other share.
-/
import Mathlib.Data.List.ReduceOption
import Tecracoin.Primitives.Transaction

namespace Tecracoin.Bls

open List

/-- What the BLS library does with valid keys; `publicKeyShare` is `none` when the library throws.
    -/
structure BlsLibrary (SK PK Id : Type) [AddCommGroup SK] [AddCommGroup PK] where
  getPublicKey : SK →+ PK
  publicKeyShare : List PK → Id → Option PK
  getHash : PK → Uint256
  /-- The share in a sum of polynomials is the sum of the shares. -/
  publicKeyShare_add : ∀ v w id, v.length = w.length →
    publicKeyShare (zipWith (· + ·) v w) id =
      Option.map₂ (· + ·) (publicKeyShare v id) (publicKeyShare w id)

/-- The verification vector of a dealer and the share they sent, where `none` is a key that is not
    valid. -/
abbrev Contribution (SK PK : Type) := List (Option PK) × Option SK

/-- What becomes of a call: it delivers its results, its future never gets a value, or an assertion
    ends the process. -/
inductive Outcome
  | delivered (results : List Bool)
  | never
  | aborts
deriving DecidableEq

/-- `batchStates`: each batch but the last has `batchSize` entries. -/
def batches {α : Type} (batchSize : Nat) (l : List α) : List (List α) :=
  (range ((l.length + batchSize - 1) / batchSize)).map
    (fun i => (l.drop (i * batchSize)).take batchSize)

lemma flatten_batches {α : Type} (l : List α) : (batches 8 l).flatten = l := by
  have htake (m : Nat) : ((range m).map (fun i => (l.drop (i * 8)).take 8)).flatten
      = l.take (m * 8) := by
    induction m with
    | zero => rfl
    | succ m ih =>
      rw [range_succ, map_append, flatten_append, ih, Nat.succ_mul, take_add]
      simp
  rw [batches, htake, take_of_length_le (by omega)]

variable {SK PK Id : Type} [AddCommGroup SK] [AddCommGroup PK] [DecidableEq PK]

namespace BlsLibrary

variable (lib : BlsLibrary SK PK Id) (id : Id) (forId : Option Id)

/-- `Verify`, and `VerifyContributionShare`, which has the same body. -/
def verify (c : Contribution SK PK) : Bool :=
  match forId, c.2 with
  | some id, some skShare => c.1.all Option.isSome &&
    decide (lib.publicKeyShare c.1.reduceOption id = some (lib.getPublicKey skShare))
  | _, _ => false

def verifyVerificationVectors (vvecs : List (List (Option PK))) : Bool :=
  vvecs.all (fun vvec =>
    decide (vvec.length = (vvecs.headD []).length) && vvec.all Option.isSome) &&
    decide (vvecs.flatMap (fun vvec => vvec.reduceOption.map lib.getHash)).Nodup

/-- `Aggregator` of the shares: nothing if the assertion of `AggregateInsecure` fails, which a
    single share does not reach. -/
def aggregateShares (skShare : Option SK) (skShares : List (Option SK)) : Option (Option SK) :=
  skShares.foldlM (fun sum skShare => (Option.map₂ (· + ·) sum skShare).map some) skShare

/-- The results of one batch in aggregated mode, if its shares can be added up. -/
def verifyBatch : List (Contribution SK PK) → Option (List Bool)
  | [] => some []
  | c :: batch =>
    -- `VectorAggregator`
    let vvec := (batch.map (fun c => c.1.reduceOption)).foldl (zipWith (· + ·)) c.1.reduceOption
    (aggregateShares c.2 (batch.map Prod.snd)).map fun
      | none => (c :: batch).map (fun _ => false)
      | some skShare =>
        if lib.publicKeyShare vvec id = some (lib.getPublicKey skShare)
        then (c :: batch).map (fun _ => true)
        -- at least one entry of the batch is invalid
        else (c :: batch).map (lib.verify (some id))

/-- `VerifyContributionShares`. With `parallel` the same pieces of work run in other threads, and
    each writes results of its own. -/
def verifyContributionShares (cs : List (Contribution SK PK)) (aggregated : Bool) : Outcome :=
  match forId, lib.verifyVerificationVectors (cs.map Prod.fst) with
  | some id, true =>
    if aggregated then
      match (batches 8 cs).mapM (lib.verifyBatch id) with
      | none => .aborts
      | some results =>
        -- without a dealer or a component the vectors are never aggregated
        if (cs.map Prod.fst).headD [] = [] then .never else .delivered results.flatten
    else if cs = [] then .never
    else .delivered (cs.map (lib.verify forId))
  | _, _ => .delivered (cs.map (fun _ => false))

/-- What a valid share is off by. -/
def error (c : Contribution SK PK) : Option PK :=
  Option.map₂ (· - lib.getPublicKey ·) (lib.publicKeyShare c.1.reduceOption id) c.2

/-- A batch of several shares has none that is not valid. -/
def Addable (batch : List (Contribution SK PK)) : Prop :=
  2 ≤ batch.length → ∀ c ∈ batch, c.2.isSome = true

/-- Errors of the batch do not cancel. -/
def Separate (batch : List (Contribution SK PK)) : Prop :=
  (batch.mapM (lib.error id)).map sum = some 0 → ∀ c ∈ batch, lib.error id c = some 0

/-- There is something to judge, and no batch of eight hides an error or cannot be added up; vectors
    that are turned down come with shares that do not match. -/
def Judged (cs : List (Contribution SK PK)) (aggregated : Bool) : Prop :=
  match forId, lib.verifyVerificationVectors (cs.map Prod.fst) with
  | some id, true => cs ≠ [] ∧ (aggregated = true → (cs.map Prod.fst).headD [] ≠ [] ∧
      ∀ batch ∈ batches 8 cs, Addable batch ∧ lib.Separate id batch)
  | _, _ => ∀ c ∈ cs, lib.verify forId c = false

variable {batch : List (Contribution SK PK)}

omit [AddCommGroup PK] [DecidableEq PK] in
/-- A share that is not valid cannot be added to another. -/
lemma aggregateShares_of_invalid {skShare : Option SK} {skShares : List (Option SK)}
    (hinvalid : none ∈ skShare :: skShares) (hmore : skShares ≠ []) :
    aggregateShares skShare skShares = none := by
  induction skShares generalizing skShare with
  | nil => exact absurd rfl hmore
  | cons next rest ih =>
    rw [aggregateShares, foldlM_cons]
    cases skShare with
    | none => rfl
    | some a =>
      cases next with
      | none => rfl
      | some b =>
        have hrest : none ∈ rest := by simpa using hinvalid
        exact ih (.tail _ hrest) (ne_nil_of_mem hrest)

omit [DecidableEq PK] in
/-- Adding up vectors and valid shares adds up the errors. -/
lemma error_aggregate {n : Nat}
    (hbatch : ∀ c ∈ batch, c.1.reduceOption.length = n ∧ c.2.isSome = true)
    (v : List PK) (hv : v.length = n) (sk : SK) :
    ∃ skShare, aggregateShares (some sk) (batch.map Prod.snd) = some (some skShare) ∧
      (lib.publicKeyShare ((batch.map (fun c => c.1.reduceOption)).foldl
        (zipWith (· + ·)) v) id).map (· - lib.getPublicKey skShare) =
      Option.map₂ (· + ·) ((lib.publicKeyShare v id).map (· - lib.getPublicKey sk))
        ((batch.mapM (lib.error id)).map sum) := by
  induction batch generalizing v sk with
  | nil =>
    refine ⟨sk, rfl, ?_⟩
    simp only [map_nil, foldl_nil, mapM_nil]
    cases lib.publicKeyShare v id <;> simp
  | cons c batch ih =>
    obtain ⟨⟨hc, hshare⟩, hbatch⟩ := forall_mem_cons.mp hbatch
    obtain ⟨sk', hsk'⟩ := Option.isSome_iff_exists.mp hshare
    obtain ⟨skShare, hsum, hstep⟩ := ih hbatch (zipWith (· + ·) v c.1.reduceOption)
      (by rw [length_zipWith, hv, hc, min_self]) (sk + sk')
    refine ⟨skShare, ?_, ?_⟩
    · rw [map_cons, hsk', aggregateShares, foldlM_cons]
      exact hsum
    · simp only [map_cons, foldl_cons, mapM_cons]
      rw [hstep, lib.publicKeyShare_add _ _ _ (hv.trans hc.symm), error, hsk']
      cases lib.publicKeyShare v id <;> cases lib.publicKeyShare c.1.reduceOption id <;>
        cases batch.mapM (lib.error id) <;> simp
      abel

variable {lib id}

section
variable {n : Nat}
  (hvalid : ∀ c ∈ batch, c.1.all Option.isSome = true ∧ c.1.reduceOption.length = n)
include hvalid

/-- A batch of valid shares is judged like its entries exactly if its errors do not cancel. -/
lemma verifyBatch_eq_iff_separate (hadd : ∀ c ∈ batch, c.2.isSome = true) :
    lib.verifyBatch id batch = some (batch.map (lib.verify (some id))) ↔
      lib.Separate id batch := by
  cases batch with
  | nil => simp [verifyBatch, Separate]
  | cons c batch =>
    obtain ⟨sk, hsk⟩ := Option.isSome_iff_exists.mp (hadd c (.head _))
    obtain ⟨skShare, hshares, hsum⟩ := lib.error_aggregate id
      (fun c' hc' => ⟨(hvalid c' (.tail _ hc')).2, hadd c' (.tail _ hc')⟩) _
      (hvalid c (.head _)).2 sk
    have herrors : ((c :: batch).mapM (lib.error id)).map sum =
        Option.map₂ (· + ·) (lib.error id c) ((batch.mapM (lib.error id)).map sum) := by
      rw [mapM_cons]
      cases lib.error id c <;> cases batch.mapM (lib.error id) <;> simp
    have hfirst : lib.error id c =
        (lib.publicKeyShare c.1.reduceOption id).map (· - lib.getPublicKey sk) := by
      rw [error, hsk]
      cases lib.publicKeyShare c.1.reduceOption id <;> rfl
    have hverify : ∀ c' ∈ c :: batch,
        (true = lib.verify (some id) c' ↔ lib.error id c' = some 0) := by
      intro c' hc'
      obtain ⟨sk', hsk'⟩ := Option.isSome_iff_exists.mp (hadd c' hc')
      cases hshare : lib.publicKeyShare c'.1.reduceOption id <;>
        simp [verify, error, hsk', hshare, (hvalid c' hc').1, sub_eq_zero]
    rw [Separate, herrors, hfirst, ← hsum, verifyBatch, hsk, hshares]
    simp only [Option.map_some, Option.some.injEq, Option.map_eq_some_iff, sub_eq_zero,
      exists_eq_right]
    split_ifs with hpass
    · rw [map_inj_left, forall_congr' (fun c' => imp_congr_right (hverify c'))]
      exact (imp_iff_right hpass).symm
    · exact iff_of_true rfl (fun h => absurd h hpass)

/-- A batch is judged like its entries exactly if it adds up and its errors do not cancel. -/
lemma verifyBatch_eq_iff :
    lib.verifyBatch id batch = some (batch.map (lib.verify (some id))) ↔
      Addable batch ∧ lib.Separate id batch := by
  by_cases hadd : ∀ c ∈ batch, c.2.isSome = true
  · have haddable : Addable batch := fun _ => hadd
    rw [and_iff_right haddable]
    exact verifyBatch_eq_iff_separate hvalid hadd
  have hinvalid : none ∈ batch.map Prod.snd := by
    obtain ⟨c, hc⟩ := not_forall.mp hadd
    obtain ⟨hmem, hnone⟩ := Classical.not_imp.mp hc
    exact mem_map.mpr ⟨c, hmem, Option.not_isSome_iff_eq_none.mp hnone⟩
  -- one share that is no key fails alone; two are not added up
  cases batch with
  | nil => cases hinvalid
  | cons c batch =>
    cases batch with
    | nil =>
      have hnone : c.2 = none := by simpa [eq_comm] using hinvalid
      simp [verifyBatch, aggregateShares, Addable, Separate, verify, error, hnone]
    | cons c' batch =>
      rw [verifyBatch, aggregateShares_of_invalid hinvalid (by simp)]
      exact iff_of_false nofun (fun h => hadd (h.1 (by simp)))

end

lemma length_verifyBatch {results : List Bool} (h : lib.verifyBatch id batch = some results) :
    results.length = batch.length := by
  cases batch with
  | nil =>
    cases h
    rfl
  | cons c batch =>
    obtain ⟨skShare, -, rfl⟩ := Option.map_eq_some_iff.mp h
    cases skShare with
    | none => simp
    | some skShare =>
      dsimp only
      split_ifs <;> simp

variable (lib id) in
/-- All results are as they should be exactly if those of every batch are. -/
lemma mapM_verifyBatch_eq_iff (bs : List (List (Contribution SK PK))) :
    (bs.mapM (lib.verifyBatch id)).map flatten =
        some (bs.flatten.map (lib.verify (some id))) ↔
      ∀ batch ∈ bs, lib.verifyBatch id batch = some (batch.map (lib.verify (some id))) := by
  induction bs with
  | nil => simp
  | cons b bs ih =>
    rw [mapM_cons, forall_mem_cons, ← ih, flatten_cons, map_append]
    cases hb : lib.verifyBatch id b with
    | none => simp
    | some results =>
      have hlength : results.length = (b.map (lib.verify (some id))).length :=
        (length_verifyBatch hb).trans (length_map ..).symm
      cases bs.mapM (lib.verifyBatch id) with
      | none => simp
      | some rest =>
        simp only [Option.pure_def, Option.bind_eq_bind, Option.bind_some, Option.map_some,
          flatten_cons, Option.some.injEq]
        exact ⟨fun h => append_inj h hlength, fun h => congrArg₂ _ h.1 h.2⟩

end BlsLibrary

open BlsLibrary

/-- Keys are numbers, and the share is the constant coefficient. -/
def numbers : BlsLibrary Int Int Unit where
  getPublicKey := .id Int
  publicKeyShare v _ := v.head?
  getHash := BitVec.ofInt 256
  publicKeyShare_add v w _ hlength := by
    cases v <;> cases w <;> simp_all

/-- Two dealers whose shares are wrong, by one too much and by one too little. -/
def colluding : List (Contribution Int Int) := [([some 5], some 6), ([some 7], some 6)]

end Tecracoin.Bls
