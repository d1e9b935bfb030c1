/-
  `load_most_relevant_state` (`elysium.cpp`): at start-up the property database is
  rolled back to the active chain, and the state files of a block at or below its
  watermark are loaded.  The walk down the chain asks for the hash of the watermark
  block at every step, so that no other block is ever tried.
-/
import Tecracoin.Elysium.Fees
import Tecracoin.Elysium.SpDatabase

namespace Tecracoin.Elysium

open Data List

def NUM_FILETYPES : Nat := 6

/-- The property database with its watermark. -/
structure SpState where
  db : SpDatabase
  watermark : Option Uint256

/-- `popBlock` of a block and `setWatermark` to the one below it, if there is one. -/
def SpState.popTo (s : SpState) (hash : Uint256) (pprev : List Uint256) : SpState :=
  ⟨(s.db.popBlock hash).2, pprev.head?.or s.watermark⟩

/-- What is there at start-up. A block is the list of the hashes from it down to the genesis block,
    and the empty list is `NULL`. -/
structure StateFiles where
  chainActive : List Uint256
  /-- `GetBlockIndex`: the blocks below an indexed one. -/
  getBlockIndex : Uint256 → Option (List Uint256)
  /-- The `.dat` files: the kind and the hash of the name, and whether `elysium_file_load` reads the
      file and finds its hash right. There is no value for a file with a malformed number, on which
      `lexical_cast` throws. -/
  files : List (Nat × Uint256 × Bool)

namespace StateFiles

section
variable (env : StateFiles)

/-- All state files of a block load. -/
def loads (hash : Uint256) : Bool :=
  (range NUM_FILETYPES).all (fun what => decide ((what, hash, true) ∈ env.files))

/-- The first loop: back to a block of the active chain. -/
def rollBack : List Uint256 → SpState → Except SpState (List Uint256 × SpState)
  | [], s => .ok ([], s)
  | hash :: pprev, s =>
    if hash ∈ env.chainActive then .ok (hash :: pprev, s)
    else if (s.db.popBlock hash).1 < 0 then .error s
    else rollBack pprev (s.popTo hash pprev)

/-- The block and the database after the first loop; without a watermark, or with an unknown one, it
    is not entered. -/
def rolledBack (s : SpState) : Except SpState (List Uint256 × SpState) :=
  match s.watermark with
  | none => .error s
  | some spWatermark =>
    match env.getBlockIndex spWatermark with
    | none => .error s
    | some pprev => env.rollBack (spWatermark :: pprev) s

def persistedBlocks : List Uint256 :=
  (env.files.map (fun file => file.2.1)).filter (fun hash => hash ∈ env.chainActive)

/-- The second loop, where `spHash` is the hash of the block the first has ended at. -/
def search (spHash : Uint256) (abortRollBackBlock : Int) :
    List Uint256 → List Uint256 → SpState → Int × SpState
  | [], _, s => (-1, s)
  | hash :: pprev, persistedBlocks, s =>
    if persistedBlocks = [] ∨ (pprev.length : Int) ≤ abortRollBackBlock then (-1, s)
    else if spHash ∈ persistedBlocks ∧ env.loads hash then (pprev.length, s)
    else if (s.db.popBlock hash).1 < 0 then (-1, s)
    else search spHash abortRollBackBlock pprev (persistedBlocks.filter (· ≠ spHash))
      (s.popTo hash pprev)

def loadMostRelevantState (s : SpState) : Int × SpState :=
  match env.rolledBack s with
  | .error s => (-1, s)
  | .ok ([], s) => (-1, s)
  | .ok (hash :: pprev, s) =>
    env.search hash (pprev.length - (MAX_STATE_HISTORY + 1)) (hash :: pprev) env.persistedBlocks s

/-- The files of the `n`-th block below the tip load. -/
def UsableAt (tip : List Uint256) (n : Nat) : Prop :=
  (n : Int) ≤ MAX_STATE_HISTORY ∧ ∃ hash, tip[n]? = some hash ∧ env.loads hash = true

/-- The highest usable block is chosen and the database rolled back to it; without one the answer is
    negative. -/
def ChoosesNewest (s : SpState) : Prop :=
  ∀ tip s1, env.rolledBack s = .ok (tip, s1) →
    (∀ n, env.UsableAt tip n → (∀ k < n, ¬env.UsableAt tip k) →
      (env.loadMostRelevantState s).1 = (tip.length - 1 - n : Nat) ∧
      s1.db.popBlocks (tip.take n) = some (env.loadMostRelevantState s).2.db ∧
      (env.loadMostRelevantState s).2.watermark = tip[n]?) ∧
    (0 ≤ (env.loadMostRelevantState s).1 → ∃ n, env.UsableAt tip n)

end

variable {env : StateFiles} {hash : Uint256} {pprev tip : List Uint256} {s s1 : SpState}

/-- The first loop ends at a block of the active chain, which is the watermark. -/
lemma rollBack_ok {block : List Uint256} (h : env.rollBack block s = .ok (hash :: pprev, s1))
    (hmark : block = [] ∨ s.watermark = block.head?) :
    hash ∈ env.chainActive ∧ s1.watermark = some hash := by
  fun_induction rollBack with
  | case1 | case3 => cases h
  | case2 hash pprev s hactive =>
    cases h
    exact ⟨hactive, hmark.resolve_left (cons_ne_nil _ _)⟩
  | case4 hash pprev s _ _ ih =>
    refine ih h ?_
    cases pprev with
    | nil => exact .inl rfl
    | cons hash' pprev => exact .inr rfl

lemma rolledBack_ok (h : env.rolledBack s = .ok (hash :: pprev, s1)) :
    hash ∈ env.chainActive ∧ s1.watermark = some hash := by
  revert h
  fun_cases rolledBack with
  | case1 | case2 => exact nofun
  | case3 spWatermark hmark => exact fun h => rollBack_ok h (.inr hmark)

/-- Without the watermark block among the persisted ones nothing is loaded. -/
lemma search_of_not_mem {spHash : Uint256} {stop : Int} {block persisted : List Uint256}
    (h : spHash ∉ persisted) : (env.search spHash stop block persisted s).1 = -1 := by
  fun_induction search with
  | case1 | case2 | case4 => rfl
  | case3 _ _ _ _ _ hloads => exact absurd hloads.1 h
  | case5 _ _ _ _ _ _ _ ih => exact ih (fun hmem => h (mem_of_mem_filter hmem))

/-- The files of the watermark block are tried first. -/
lemma load_of_loads (h : env.rolledBack s = .ok (hash :: pprev, s1))
    (hloads : env.loads hash = true) :
    env.loadMostRelevantState s = ((pprev.length : Int), s1) := by
  have hfile := of_decide_eq_true (all_eq_true.mp hloads 0 (by decide))
  have hmem : hash ∈ env.persistedBlocks :=
    mem_filter.mpr ⟨mem_map_of_mem hfile, decide_eq_true (rolledBack_ok h).1⟩
  rw [loadMostRelevantState, h]
  dsimp only
  rw [search, if_neg, if_pos ⟨hmem, hloads⟩]
  rintro (hnil | hlow)
  · exact absurd hmem (hnil ▸ not_mem_nil)
  · have hhistory : MAX_STATE_HISTORY = 50 := rfl
    omega

/-- After that the watermark block is not among the persisted ones any more. -/
lemma load_of_not_loads (h : env.rolledBack s = .ok (tip, s1)) (hnot : ¬env.UsableAt tip 0) :
    (env.loadMostRelevantState s).1 = -1 := by
  rw [loadMostRelevantState, h]
  cases tip with
  | nil => rfl
  | cons hash pprev =>
    dsimp only
    rw [search]
    split_ifs with _ hloads
    · rfl
    · exact absurd ⟨by decide, hash, rfl, hloads.2⟩ hnot
    · rfl
    · exact search_of_not_mem (by simp)

/-- The most recent usable snapshot is chosen if and only if it is the one of the watermark block,
    or there is none. -/
theorem load_choosesNewest_iff (env : StateFiles) (s : SpState) :
    env.ChoosesNewest s ↔ ∀ tip s1, env.rolledBack s = .ok (tip, s1) →
      (∃ n, env.UsableAt tip n) → env.UsableAt tip 0 := by
  constructor
  · intro h tip s1 hrolled husable
    by_contra hnot
    classical
    have hnewest := (h tip s1 hrolled).1 (Nat.find husable) (Nat.find_spec husable)
      (fun k hk => Nat.find_min husable hk)
    rw [load_of_not_loads hrolled hnot] at hnewest
    omega
  · intro h tip s1 hrolled
    by_cases hzero : env.UsableAt tip 0
    · refine ⟨fun n hn hbelow => ?_, fun _ => ⟨0, hzero⟩⟩
      obtain ⟨-, hash, hhash, hloads⟩ := hzero
      obtain ⟨pprev, rfl⟩ := head?_eq_some_iff.mp (head?_eq_getElem?.trans hhash)
      rw [load_of_loads hrolled hloads]
      cases n with
      | zero => exact ⟨rfl, rfl, (rolledBack_ok hrolled).2⟩
      | succ n => exact absurd ⟨by decide, hash, rfl, hloads⟩ (hbelow 0 (Nat.succ_pos n))
    · refine ⟨fun n hn _ => absurd (h tip s1 hrolled ⟨n, hn⟩) hzero, fun hle => ?_⟩
      rw [load_of_not_loads hrolled hzero] at hle
      omega

/-- Block 2 on block 1, with state files for block 1 only. -/
def lowerFiles : StateFiles where
  chainActive := [2, 1]
  getBlockIndex _ := some [1]
  files := (range NUM_FILETYPES).map (fun what => (what, 1, true))

theorem lower_snapshot_not_chosen :
    ¬lowerFiles.ChoosesNewest ⟨⟨.initial [], .empty, .empty⟩, some 2⟩ := by
  intro h
  have habove : ∀ k < 1, ¬lowerFiles.UsableAt [2, 1] k := by
    rintro k hk ⟨-, hash, hhash, hloads⟩
    obtain rfl : k = 0 := by omega
    cases hhash
    cases hloads
  have hnewest := (h [2, 1] _ rfl).1 1 ⟨by decide, 1, rfl, rfl⟩ habove
  exact absurd hnewest.1 (by decide +kernel)

end StateFiles

end Tecracoin.Elysium
