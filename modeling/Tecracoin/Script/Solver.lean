/-
  `script/standard.cpp` and the writing half of `script/script.h`: how a script is
  built from pushes, and that `Solver` and `ExtractDestinations` read it back.

  A multisig script lists its keys between two small integers.  `Solver` finds it
  by matching a template whose part for the keys eats pushes of 33 to 65 bytes;
  `solver_multisig` says that it gives back the keys the script was made of.
-/
import Tecracoin.Script.Standard

namespace Tecracoin

open List

variable {rest script : CScript} {key vch : List UInt8} {opcode : UInt8} {op : ReadOp}

/-- `WriteLE16`, `WriteLE32`: the lowest bytes of a number, the lowest one first. -/
def writeLE : Nat → Nat → List UInt8
  | 0, _ => []
  | n + 1, x => UInt8.ofNat x :: writeLE n (x / 256)

@[simp] lemma length_writeLE (n x : Nat) : (writeLE n x).length = n := by
  induction n generalizing x with
  | zero => rfl
  | succ n ih => rw [writeLE, length_cons, ih]

namespace CScript

/-! ## Writing -/

/-- `CScript::operator<<` of a byte vector. -/
def push (b : List UInt8) : CScript :=
  if b.length < 0x4c then UInt8.ofNat b.length :: b
  else if b.length ≤ 0xff then OP_PUSHDATA1 :: UInt8.ofNat b.length :: b
  else if b.length ≤ 0xffff then OP_PUSHDATA2 :: writeLE 2 b.length ++ b
  else OP_PUSHDATA4 :: writeLE 4 b.length ++ b

/-- `CScript::EncodeOP_N`; nothing if its assertion fails. -/
def encodeOP_N (n : Nat) : Option UInt8 :=
  if 16 < n then none
  else if n = 0 then some OP_0
  else some (UInt8.ofNat (0x51 + n - 1))

def getScriptForMultisig (nRequired : Nat) (keys : List (List UInt8)) : Option CScript := do
  let m ← encodeOP_N nRequired
  let n ← encodeOP_N keys.length
  pure (m :: keys.flatMap push ++ [n, OP_CHECKMULTISIG])

def getScriptForDestination : CTxDestination → CScript
  | .keyID id => [OP_DUP, OP_HASH160] ++ push (writeLE 20 id.toNat) ++ [OP_EQUALVERIFY, OP_CHECKSIG]
  | .scriptID id => [OP_HASH160] ++ push (writeLE 20 id.toNat) ++ [OP_EQUAL]

/-! ## What a multisig script is read as -/

/-- `GetPushedValues`: what the push opcodes of a script push. -/
def getPushedValues (script : CScript) : List (List UInt8) :=
  match h : getOp script with
  | none => []
  | some (opcode, vch, rest) =>
    have := length_getOp h
    if opcode ≤ OP_PUSHDATA4 then vch :: getPushedValues rest else getPushedValues rest
termination_by script.length

variable {b : List UInt8}

/-- The opcode that pushes some bytes. -/
lemma pushOpcode (hb : b.length < 0x4c) :
    (UInt8.ofNat b.length).toNat = b.length ∧ UInt8.ofNat b.length < OP_PUSHDATA1 ∧
      UInt8.ofNat b.length ≤ OP_PUSHDATA4 := by
  have hsize : (UInt8.ofNat b.length).toNat = b.length := by
    rw [UInt8.toNat_ofNat']
    exact Nat.mod_eq_of_lt (by omega)
  have hlt : UInt8.ofNat b.length < OP_PUSHDATA1 := by
    rw [UInt8.lt_iff_toNat_lt, hsize]
    exact hb
  exact ⟨hsize, hlt, UInt8.le_trans (UInt8.le_of_lt hlt) (by decide)⟩

lemma getOp_push (hb : b.length < 0x4c) :
    getOp (push b ++ rest) = some (UInt8.ofNat b.length, b, rest) := by
  obtain ⟨hsize, hlt, hle⟩ := pushOpcode hb
  have hpush : getPush (UInt8.ofNat b.length :: (b ++ rest)) = some (b, rest) := by
    rw [getPush]
    have hnone : pushSizeBytes (UInt8.ofNat b.length) = 0 := if_pos hlt
    rw [if_neg (UInt8.not_lt.mpr hle), hnone, if_neg (Nat.not_lt_zero _), if_pos hlt, hsize,
      drop_zero, if_neg (by simp), take_left, drop_left]
  rw [push, if_pos hb, cons_append, getOp, if_pos hle, hpush]
  rfl

/-- The opcode of a small integer other than 0. -/
abbrev IsSmall (opcode : UInt8) : Prop := OP_1 ≤ opcode ∧ opcode ≤ OP_16

/-- A small integer is written as an opcode of its own. -/
lemma encodeOP_N_eq {n : Nat} (hpos : 1 ≤ n) (hmax : n ≤ 16) :
    ∃ opcode, encodeOP_N n = some opcode ∧ IsSmall opcode ∧
      decodeOP_N opcode = UInt8.ofNat n ∧ (UInt8.ofNat n).toNat = n := by
  refine ⟨UInt8.ofNat (0x51 + n - 1), ?_⟩
  interval_cases n <;> decide

lemma getOp_small (h : IsSmall opcode) (rest : CScript) :
    getOp (opcode :: rest) = some (opcode, [], rest) := by
  have hpush : OP_PUSHDATA4 < opcode := UInt8.lt_of_lt_of_le (by decide) h.1
  rw [getOp, if_neg (UInt8.not_le.mpr hpush), if_neg]
  rintro (rfl | rfl)
  · exact absurd h.2 (by decide)
  · exact absurd h.2 (by decide)

/-- A key, as far as a template can tell. -/
def IsKeySized (vch : List UInt8) : Prop := 33 ≤ vch.length ∧ vch.length ≤ 65

lemma IsKeySized.short (h : IsKeySized vch) : vch.length < 0x4c :=
  Nat.lt_of_le_of_lt h.2 (by decide)

lemma takePubKeys_next {next : ReadOp} (hkey : IsKeySized op.2.1)
    (hop : getOp op.2.2 = some next) (vSolutions : List (List UInt8)) :
    takePubKeys op vSolutions = takePubKeys next (vSolutions ++ [op.2.1]) := by
  rw [takePubKeys, if_pos ⟨hkey.1, hkey.2⟩]
  split
  · rename_i h
    rw [hop] at h
    cases h
  · rename_i next' h
    rw [hop] at h
    cases h
    rfl

lemma takePubKeys_stop (hop : op.2.1 = []) (vSolutions : List (List UInt8)) :
    takePubKeys op vSolutions = (op, vSolutions) := by
  rw [takePubKeys, if_neg (by simp [hop])]

variable {keys : List (List UInt8)} {m n : UInt8}

lemma getOp_keys (hkey : IsKeySized key) :
    getOp ((key :: keys).flatMap push ++ [n, OP_CHECKMULTISIG])
      = some (UInt8.ofNat key.length, key, keys.flatMap push ++ [n, OP_CHECKMULTISIG]) := by
  rw [flatMap_cons, append_assoc]
  exact getOp_push hkey.short

/-- The keys of a script are taken one after the other, up to the small integer. -/
lemma takePubKeys_keys (hkey : IsKeySized key) (hkeys : ∀ k ∈ keys, IsKeySized k)
    (hn : IsSmall n) (vSolutions : List (List UInt8)) :
    takePubKeys (opcode, key, keys.flatMap push ++ [n, OP_CHECKMULTISIG]) vSolutions
      = ((n, [], [OP_CHECKMULTISIG]), vSolutions ++ key :: keys) := by
  induction keys generalizing opcode key vSolutions with
  | nil => rw [takePubKeys_next hkey (getOp_small hn _), takePubKeys_stop rfl]
  | cons k keys ih =>
    have hk := hkeys k (.head _)
    rw [takePubKeys_next hkey (getOp_keys hk), ih hk (forall_mem_cons.mp hkeys).2, append_assoc]
    rfl

lemma matchTemplate_multisig (hkey : IsKeySized key)
    (hkeys : ∀ k ∈ keys, IsKeySized k) (hm : IsSmall m) (hn : IsSmall n) :
    matchTemplate (m :: (key :: keys).flatMap push ++ [n, OP_CHECKMULTISIG]) multisigTemplate []
      = some ([decodeOP_N m] :: key :: keys ++ [[decodeOP_N n]]) := by
  have hfirst : getOp (m :: (key :: keys).flatMap push ++ [n, OP_CHECKMULTISIG])
      = some (m, [], (key :: keys).flatMap push ++ [n, OP_CHECKMULTISIG]) :=
    getOp_small hm _
  have hlast : getOp [OP_CHECKMULTISIG] = some (OP_CHECKMULTISIG, [], []) := rfl
  have hsmall {opcode : UInt8} (h : IsSmall opcode) (rest : CScript)
      (vSolutions : List (List UInt8)) : matchOp (opcode, [], rest) OP_SMALLINTEGER vSolutions
        = some (vSolutions ++ [[decodeOP_N opcode]]) := by
    rw [matchOp, if_neg (by decide), if_neg (by decide), if_pos rfl, if_pos (.inr h)]
  have hcheck (vSolutions : List (List UInt8)) :
      matchOp (OP_CHECKMULTISIG, [], []) OP_CHECKMULTISIG vSolutions = some vSolutions := rfl
  rw [multisigTemplate, matchTemplate, hfirst]
  dsimp only
  rw [if_neg (by decide), hsmall hm]
  dsimp only
  rw [matchTemplate, getOp_keys hkey]
  dsimp only
  rw [if_pos rfl, takePubKeys_keys hkey hkeys hn, hsmall hn]
  dsimp only
  rw [matchTemplate, hlast]
  dsimp only
  rw [if_neg (by decide), hcheck]
  dsimp only
  rw [matchTemplate, if_pos rfl]
  simp

lemma getPushedValues_next (hop : getOp script = some (opcode, vch, rest)) :
    getPushedValues script
      = if opcode ≤ OP_PUSHDATA4 then vch :: getPushedValues rest else getPushedValues rest := by
  rw [getPushedValues]
  split
  · rename_i h
    rw [hop] at h
    cases h
  · rename_i opcode' vch' rest' h
    rw [hop] at h
    cases h
    rfl

lemma getPushedValues_nil : getPushedValues [] = [] := by
  rw [getPushedValues]
  split
  · rfl
  · rename_i h
    cases h

/-- The values a multisig script pushes are its keys. -/
lemma getPushedValues_multisig (hkeys : ∀ k ∈ keys, IsKeySized k) (hm : IsSmall m)
    (hn : IsSmall n) :
    getPushedValues (m :: keys.flatMap push ++ [n, OP_CHECKMULTISIG]) = keys := by
  have hsmall {opcode : UInt8} (h : IsSmall opcode) (rest : CScript) :
      getPushedValues (opcode :: rest) = getPushedValues rest := by
    have hpush : OP_PUSHDATA4 < opcode := UInt8.lt_of_lt_of_le (by decide) h.1
    rw [getPushedValues_next (getOp_small h rest), if_neg (UInt8.not_le.mpr hpush)]
  have hlast : getPushedValues [OP_CHECKMULTISIG] = [] := by
    have hop : getOp [OP_CHECKMULTISIG] = some (OP_CHECKMULTISIG, [], []) := rfl
    rw [getPushedValues_next hop, if_neg (by decide), getPushedValues_nil]
  rw [cons_append, hsmall hm]
  induction keys with
  | nil => exact (hsmall hn _).trans hlast
  | cons key keys ih =>
    have hkey := hkeys key (.head _)
    rw [getPushedValues_next (getOp_keys hkey), if_pos (pushOpcode hkey.short).2.2,
      ih (forall_mem_cons.mp hkeys).2]

/-- A script of several keys is too long for a witness program. -/
lemma length_flatMap_push (hkeys : ∀ k ∈ keys, IsKeySized k) :
    34 * keys.length ≤ (keys.flatMap push).length := by
  induction keys with
  | nil => simp
  | cons key keys ih =>
    have hkey := hkeys key (.head _)
    have hpush : (push key).length = key.length + 1 := by
      rw [push, if_pos hkey.short, length_cons]
    have hrest := ih (forall_mem_cons.mp hkeys).2
    have hsize := hkey.1
    rw [flatMap_cons, length_append, length_cons, hpush]
    omega

/-- A script that starts with a small integer is of none of the types that are tested before the
    templates, nor of the first two of these. -/
lemma solver_small (hm : IsSmall m) (hlong : 42 ≤ rest.length) :
    solver (m :: rest) =
      match matchTemplate (m :: rest) multisigTemplate [] with
      | some vSolutions =>
        if multisigCounts vSolutions then some (.TX_MULTISIG, vSolutions) else none
      | none => none := by
  have hne {opcode : UInt8} (h : OP_16 < opcode) : m ≠ opcode := by
    rintro rfl
    exact UInt8.not_lt.mpr hm.2 h
  have hop := getOp_small hm rest
  have hscript : isPayToScriptHash (m :: rest) = false := by
    simp [isPayToScriptHash, hne (show OP_16 < OP_HASH160 by decide)]
  have hkey : isPayToPublicKeyHash (m :: rest) = false := by
    simp [isPayToPublicKeyHash, hne (show OP_16 < OP_DUP by decide)]
  have hzerocoin : isZerocoinMint (m :: rest) = false := by
    simp [isZerocoinMint, startsWith, hne (show OP_16 < OP_ZEROCOINMINT by decide)]
  have hsigma : isSigmaMint (m :: rest) = false := by
    simp [isSigmaMint, startsWith, hne (show OP_16 < OP_SIGMAMINT by decide)]
  have hwitness : isWitnessProgram (m :: rest) = none := by
    cases rest with
    | nil => rfl
    | cons size program =>
      rw [length_cons] at hlong
      rw [isWitnessProgram, if_pos (.inr (by rw [length_cons, length_cons]; omega))]
  have hreturn : m ≠ OP_RETURN := hne (by decide)
  have hpubKey : matchTemplate (m :: rest) pubKeyTemplate [] = none := by
    rw [pubKeyTemplate, matchTemplate, hop]
    rfl
  have hpubKeyHash : matchTemplate (m :: rest) pubKeyHashTemplate [] = none := by
    have hdup : matchOp (m, [], rest) OP_DUP [] = none := by
      rw [matchOp, if_neg (by decide), if_neg (by decide), if_neg (by decide),
        if_pos (.inl (hne (by decide)))]
    rw [pubKeyHashTemplate, matchTemplate, hop]
    dsimp only
    rw [if_neg (by decide), hdup]
  -- every shape before the templates is ruled out
  rw [solver, hscript, hkey, hzerocoin, hsigma, hwitness]
  simp only [Bool.false_eq_true, if_false, head?_cons, Option.some.injEq, hreturn, false_and]
  cases h : matchTemplate (m :: rest) multisigTemplate [] <;>
    simp only [solveTemplates, hpubKey, hpubKeyHash, h]

lemma multisigCounts_of (hm : 1 ≤ m) (hmn : m ≤ n) (hn : keys.length = n.toNat) :
    multisigCounts ([m] :: keys ++ [[n]]) = true := by
  have hlast : ([m] :: keys ++ [[n]]).getLastD [] = [n] := by
    rw [getLastD_eq_getLast?, getLast?_concat]
    rfl
  have hlength : ([m] :: keys ++ [[n]]).length - 2 = n.toNat := by
    rw [length_append, length_cons, length_singleton]
    omega
  unfold multisigCounts
  rw [hlast, hlength]
  simpa using ⟨⟨hm, UInt8.le_trans hm hmn⟩, hmn⟩

/-- `Solver` finds the keys a multisig script was made of, if there are two of them at least. -/
lemma solver_multisig {nRequired : Nat} (hrequired : 1 ≤ nRequired)
    (hcount : nRequired ≤ keys.length) (htwo : 2 ≤ keys.length) (hmax : keys.length ≤ 16)
    (hkeys : ∀ k ∈ keys, IsKeySized k) :
    ∃ script, getScriptForMultisig nRequired keys = some script ∧
      getPushedValues script = keys ∧
      solver script = some (.TX_MULTISIG,
        [UInt8.ofNat nRequired] :: keys ++ [[UInt8.ofNat keys.length]]) := by
  obtain ⟨m, hm, hmsmall, hmdecode, hmvalue⟩ := encodeOP_N_eq hrequired (Nat.le_trans hcount hmax)
  obtain ⟨n, hn, hnsmall, hndecode, hnvalue⟩ :=
    encodeOP_N_eq (Nat.le_trans hrequired hcount) hmax
  refine ⟨m :: keys.flatMap push ++ [n, OP_CHECKMULTISIG], ?_,
    getPushedValues_multisig hkeys hmsmall hnsmall, ?_⟩
  · rw [getScriptForMultisig, hm, hn]
    rfl
  · have hlong : 42 ≤ (keys.flatMap push ++ [n, OP_CHECKMULTISIG]).length := by
      have hlength := length_flatMap_push hkeys
      rw [length_append]
      omega
    obtain ⟨key, keys', rfl⟩ := exists_cons_of_length_pos (show 0 < keys.length by omega)
    rw [cons_append, solver_small hmsmall hlong, ← cons_append,
      matchTemplate_multisig (hkeys key (.head _))
        (forall_mem_cons.mp hkeys).2 hmsmall hnsmall,
      hmdecode, hndecode]
    have hcounts : multisigCounts ([UInt8.ofNat nRequired] :: (key :: keys') ++
        [[UInt8.ofNat (key :: keys').length]]) = true := by
      refine multisigCounts_of ?_ ?_ hnvalue.symm
      · rw [UInt8.le_iff_toNat_le, hmvalue]
        exact hrequired
      · rw [UInt8.le_iff_toNat_le, hmvalue, hnvalue]
        exact hcount
    exact if_pos hcounts

/-! ## Destinations -/

lemma readLE_writeLE {n x : Nat} (h : x < 256 ^ n) : readLE (writeLE n x) = x := by
  induction n generalizing x with
  | zero =>
    rw [pow_zero] at h
    exact (Nat.lt_one_iff.mp h).symm
  | succ n ih =>
    have hrest : readLE (writeLE n (x / 256)) = x / 256 :=
      ih (Nat.div_lt_of_lt_mul (by rw [pow_succ] at h; omega))
    show (UInt8.ofNat x).toNat + 256 * readLE (writeLE n (x / 256)) = x
    rw [hrest, UInt8.toNat_ofNat']
    exact Nat.mod_add_div x 256

lemma uint160_writeLE (id : BitVec 160) : uint160 (writeLE 20 id.toNat) = id := by
  rw [uint160, readLE_writeLE (id.isLt.trans_eq (by norm_num)), BitVec.ofNat_toNat,
    BitVec.setWidth_eq]

/-- The hash in the script of a destination is the one solution. -/
lemma solver_destination (dest : CTxDestination) :
    solver (getScriptForDestination dest) = some (match dest with
      | .keyID id => (.TX_PUBKEYHASH, [writeLE 20 id.toNat])
      | .scriptID id => (.TX_SCRIPTHASH, [writeLE 20 id.toNat])) := by
  have hpush (id : BitVec 160) : push (writeLE 20 id.toNat) = 0x14 :: writeLE 20 id.toNat := by
    rw [push, length_writeLE]
    rfl
  have htake (id : BitVec 160) (rest : CScript) :
      (writeLE 20 id.toNat ++ rest).take 20 = writeLE 20 id.toNat := take_left' (length_writeLE ..)
  have hdrop (id : BitVec 160) (rest : CScript) : (writeLE 20 id.toNat ++ rest).drop 20 = rest :=
    drop_left' (length_writeLE ..)
  cases dest with
  | keyID id =>
    simp [solver, getScriptForDestination, hpush, isPayToScriptHash, isPayToPublicKeyHash, htake,
      hdrop]
  | scriptID id => simp [solver, getScriptForDestination, hpush, isPayToScriptHash, htake, hdrop]

/-- A valid key has one of two lengths. -/
lemma IsKeySized.of_valid (h : pubKeyIsValid vch = true) : IsKeySized vch := by
  cases vch with
  | nil => cases h
  | cons chHeader rest =>
    rw [pubKeyIsValid, Bool.and_eq_true, decide_eq_true_eq, decide_eq_true_eq, pubKeyLen] at h
    unfold IsKeySized
    split_ifs at h <;> omega

/-- The destinations of a multisig script are those of its valid keys. -/
lemma extractDestinations_multisig (hash160 : List UInt8 → CKeyID) {nRequired : Nat}
    (hsolver : solver script = some (.TX_MULTISIG, [UInt8.ofNat nRequired] :: keys ++ [vch]))
    (hrequired : nRequired ≤ 16) (hvalid : ∃ key ∈ keys, pubKeyIsValid key = true) :
    extractDestinations hash160 script = some (.TX_MULTISIG,
      (keys.filter pubKeyIsValid).map (fun key => .keyID (hash160 key)), nRequired) := by
  have hmiddle : (([UInt8.ofNat nRequired] :: keys ++ [vch]).drop 1).dropLast = keys := by simp
  have hne :
      (keys.filter pubKeyIsValid).map (fun key => CTxDestination.keyID (hash160 key)) ≠ [] := by
    simpa [filter_eq_nil_iff] using hvalid
  rw [extractDestinations, hsolver]
  dsimp only
  rw [hmiddle, if_neg hne, cons_append, headD_cons, headD_cons, UInt8.toNat_ofNat',
    Nat.mod_eq_of_lt (by omega)]

/-- What the node writes it reads back: the script of a destination as this destination, and a
    multisig script as the hashes of its keys with the number of signatures it asks for. -/
theorem extractDestinations_round_trip (hash160 : List UInt8 → CKeyID) :
    (∀ dest, extractDestination hash160 (getScriptForDestination dest) = some dest ∧
      (extractDestinations hash160 (getScriptForDestination dest)).map Prod.snd =
        some ([dest], 1)) ∧
    ∀ nRequired keys, 1 ≤ nRequired → nRequired ≤ keys.length → 2 ≤ keys.length →
      keys.length ≤ 16 → (∀ key ∈ keys, pubKeyIsValid key = true) →
      ∃ script, getScriptForMultisig nRequired keys = some script ∧
        extractDestination hash160 script = none ∧
        extractDestinations hash160 script =
          some (.TX_MULTISIG, keys.map (fun key => .keyID (hash160 key)), nRequired) := by
  refine ⟨fun dest => ?_, ?_⟩
  · have hsolver := solver_destination dest
    have hone : extractDestination hash160 (getScriptForDestination dest) = some dest := by
      rw [extractDestination, hsolver]
      cases dest <;> simp [uint160_writeLE]
    refine ⟨hone, ?_⟩
    rw [extractDestinations, hsolver, hone]
    cases dest <;> rfl
  · intro nRequired keys hrequired hcount htwo hmax hvalid
    obtain ⟨script, hscript, -, hsolver⟩ := solver_multisig hrequired hcount htwo hmax
      (fun key hmem => .of_valid (hvalid key hmem))
    obtain ⟨key, hmem⟩ := exists_mem_of_length_pos (show 0 < keys.length by omega)
    have hall : keys.filter pubKeyIsValid = keys := filter_eq_self.mpr hvalid
    have hextract := extractDestinations_multisig hash160 hsolver (by omega)
      ⟨key, hmem, hvalid key hmem⟩
    rw [hall] at hextract
    exact ⟨script, hscript, by rw [extractDestination, hsolver], hextract⟩

end CScript

end Tecracoin
