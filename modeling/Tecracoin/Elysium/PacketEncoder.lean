/-
  Packets of class B (`packetencoder.h`, `packetencoder.cpp` and the part of
  `parseTransaction` in `elysium.cpp` for this class).

  A payload travels in public keys of multisig outputs: in each key 31 bytes, a
  sequence number and 30 bytes of the payload, are hidden by a stream of hashes that
  starts with the sender.  The last byte of a key is chosen such that the key is one
  of the curve.  The encoder puts a key that can be redeemed before one or two of
  them in each output; the decoder drops the first key of every multisig output and
  takes the rest as they come.

  SHA256, the validity of a point and the random numbers are parameters.
-/
import Tecracoin.Elysium.Ledger
import Tecracoin.Script.Solver

namespace Tecracoin.Elysium

open Data CScript List

variable {a b key payload : List UInt8} {chunk n : Nat} {env : PacketEnv} {redeemingKey : CPubKey}
  {outputs : List CTxOut} {keys : List (List UInt8)} {packetKeys : PacketKeyGenerator} {fix : UInt8}
  {out : CTxOut} {rest : List (List UInt8)}

def CLASS_B_MAX_CHUNKS : Nat := 255

def CLASS_B_CHUNK_SIZE : Nat := 31

def CLASS_B_CHUNK_PAYLOAD_SIZE : Nat := 30

def MAX_PACKET_PAYLOAD : Nat := CLASS_B_CHUNK_PAYLOAD_SIZE * CLASS_B_MAX_CHUNKS

/-- What the packets depend on outside of this code. -/
structure PacketEnv where
  /-- `CSHA256`: 32 bytes. -/
  sha256 : List UInt8 → { hash : List UInt8 // hash.length = 32 }
  /-- `secp256k1_ec_pubkey_parse` succeeds. -/
  isOnCurve : List UInt8 → Bool
  /-- `GetRand(256)` for a chunk. -/
  getRand : Nat → UInt8
  getDustThreshold : CScript → CAmount
  /-- `GetSystemAddress().Get()`. -/
  systemKeyID : CKeyID
  hash160 : List UInt8 → CKeyID

/-- `CPubKey`, one that is valid. -/
structure CPubKey where
  vch : List UInt8
  isValid : pubKeyIsValid vch = true

/-! ## The stream of keys -/

/-- The digit `HexStr` writes for four bits. -/
def hexDigit (n : Nat) : UInt8 :=
  if n < 10 then UInt8.ofNat (0x30 + n) else UInt8.ofNat (0x61 + (n - 10))

def hexStr (bytes : List UInt8) : List UInt8 :=
  bytes.flatMap fun val => [hexDigit (val.toNat / 16), hexDigit (val.toNat % 16)]

/-- `toupper` of a character. -/
def toUpper (c : UInt8) : UInt8 := if 0x61 ≤ c ∧ c ≤ 0x7a then c - 0x20 else c

structure PacketKeyGenerator where
  seed : List UInt8

section

variable (env : PacketEnv)

namespace PacketKeyGenerator

/-- The hash `Next` returns. -/
def hash (generator : PacketKeyGenerator) : List UInt8 :=
  (env.sha256 generator.seed).val

/-- The generator `Next` leaves. -/
def next (generator : PacketKeyGenerator) : PacketKeyGenerator where
  seed := (hexStr (generator.hash env)).map toUpper

end PacketKeyGenerator

/-- Two byte arrays, byte by byte. -/
def xorBytes (a b : List UInt8) : List UInt8 := List.zipWith (· ^^^ ·) a b

/-! ## Encoding -/

/-- `key.IsFullyValid()` of `CPubKey key(data)`. -/
def isFullyValid (data : List UInt8) : Bool :=
  pubKeyIsValid data && env.isOnCurve data

/-- The loop that fixes the last byte, for at most `n` values. -/
def fixCoordinate (env : PacketEnv) (packet : List UInt8) : Nat → UInt8 → Option (List UInt8)
  | 0, _ => none
  | n + 1, fix =>
    if isFullyValid env (0x02 :: packet ++ [fix]) then some (0x02 :: packet ++ [fix])
    else fixCoordinate env packet n (fix + 1)

/-- `KeyEncoder::Encode` with a key; `fix` is the random byte it starts from. -/
def encodeKey (encKey : List UInt8) (chunk : UInt8) (payload : List UInt8)
    (fix : UInt8) : Except Abort (List UInt8) :=
  if encKey.length ≠ CLASS_B_CHUNK_SIZE then .error (.throws "Invalid key size")
  else if CLASS_B_CHUNK_PAYLOAD_SIZE < payload.length then .error (.throws "Invalid payload")
  else
    let zeros := List.replicate (CLASS_B_CHUNK_PAYLOAD_SIZE - payload.length) 0
    match fixCoordinate env (xorBytes (chunk :: payload ++ zeros) encKey) 256 fix with
    | some key => .ok key
    | none => .error (.throws "Failed to generate a valid public key")

/-- The inner loop of `EncodeClassB`: some more keys for the rest of the payload. -/
def encodeKeys (env : PacketEnv) : Nat → PacketKeyGenerator → Nat → List UInt8 →
    Except Abort (List (List UInt8))
  | 0, _, _, _ => .ok []
  | n + 1, packetKeys, chunk, payload =>
    if CLASS_B_MAX_CHUNKS < chunk then .error (.throws "Payload too large")
    else do
      let key ← encodeKey env ((packetKeys.hash env).take CLASS_B_CHUNK_SIZE) (UInt8.ofNat chunk)
        (payload.take CLASS_B_CHUNK_PAYLOAD_SIZE) (env.getRand chunk)
      let keys ← encodeKeys env n (packetKeys.next env) (chunk + 1)
        (payload.drop CLASS_B_CHUNK_PAYLOAD_SIZE)
      pure (key :: keys)

/-- The keys an output gets for the rest of the payload. -/
def generatingKeys (payload : List UInt8) : Nat :=
  if CLASS_B_CHUNK_PAYLOAD_SIZE < payload.length then 2 else 1

lemma generatingKeys_pos (payload : List UInt8) : 1 ≤ generatingKeys payload := by
  unfold generatingKeys
  split <;> decide

/-- The output for some keys. -/
def multisigOutput (keys : List (List UInt8)) : Except Abort CTxOut :=
  match getScriptForMultisig 1 keys with
  | some script => .ok ⟨env.getDustThreshold script, script⟩
  | none => .error (.asserts "n >= 0 && n <= 16")

/-- The output to the system address. -/
def systemOutput : CTxOut :=
  let script := getScriptForDestination (.keyID env.systemKeyID)
  ⟨env.getDustThreshold script, script⟩

/-- The generator after some keys. -/
def PacketKeyGenerator.skip (env : PacketEnv) (packetKeys : PacketKeyGenerator) :
    Nat → PacketKeyGenerator
  | 0 => packetKeys
  | n + 1 => (packetKeys.next env).skip env n

/-- The outer loop of `EncodeClassB`. -/
def encodeOutputs (env : PacketEnv) (redeemingKey : CPubKey) (packetKeys : PacketKeyGenerator)
    (chunk : Nat) (payload : List UInt8) : Except Abort (List CTxOut) :=
  if h : payload = [] then .ok [systemOutput env]
  else do
    let n := generatingKeys payload
    let keys ← encodeKeys env n packetKeys chunk payload
    let output ← multisigOutput env (redeemingKey.vch :: keys)
    have hshorter : payload.length - CLASS_B_CHUNK_PAYLOAD_SIZE * generatingKeys payload
        < payload.length := by
      have hpos := length_pos_iff.mpr h
      have hkeys := generatingKeys_pos payload
      have hsome := Nat.mul_le_mul_left CLASS_B_CHUNK_PAYLOAD_SIZE hkeys
      have hsize : CLASS_B_CHUNK_PAYLOAD_SIZE = 30 := rfl
      omega
    let outputs ← encodeOutputs env redeemingKey (packetKeys.skip env n) (chunk + n)
      (payload.drop (CLASS_B_CHUNK_PAYLOAD_SIZE * generatingKeys payload))
    pure (output :: outputs)
termination_by payload.length
decreasing_by exact (length_drop ..).trans_lt hshorter

def encodeClassB (sender : List UInt8) (redeemingKey : CPubKey)
    (payload : List UInt8) : Except Abort (List CTxOut) :=
  encodeOutputs env redeemingKey ⟨sender⟩ 1 payload

/-! ## Decoding -/

/-- What `parseTransaction` takes from an output of class B: the pushes of a multisig script after
    the first. -/
def multisigScriptData (out : CTxOut) : List (List UInt8) :=
  match extractDestinations env.hash160 out.scriptPubKey with
  | some (.TX_MULTISIG, _) => (getPushedValues out.scriptPubKey).drop 1
  | _ => []

/-- The loops of `parseTransaction` that uncover the packets and put their payloads together. -/
def decodePackets (env : PacketEnv) : PacketKeyGenerator → List (List UInt8) →
    Except Abort (List UInt8)
  | _, [] => .ok []
  | keyGenerator, data :: rest =>
    if data.length < 1 + CLASS_B_CHUNK_SIZE then .error (.undefined "copy_n past the end")
    else do
      let packet := xorBytes ((data.drop 1).take CLASS_B_CHUNK_SIZE)
        ((keyGenerator.hash env).take CLASS_B_CHUNK_SIZE)
      let payload ← decodePackets env (keyGenerator.next env) rest
      -- the sequence number is looked at for the log only
      pure (packet.drop 1 ++ payload)

/-- `parseTransaction` for class B: the payload in the outputs of a transaction. -/
def parseClassB (sender : List UInt8) (vout : List CTxOut) : Except Abort (List UInt8) :=
  decodePackets env ⟨sender⟩ ((vout.flatMap (multisigScriptData env)).take CLASS_B_MAX_CHUNKS)

end

/-! ## The trip of one key -/

lemma xorBytes_cancel (h : a.length = b.length) : xorBytes (xorBytes a b) b = a := by
  induction a generalizing b with
  | nil => simp [xorBytes]
  | cons x a ih =>
    cases b with
    | nil => simp at h
    | cons y b =>
      simp only [xorBytes, zipWith_cons_cons, List.cons.injEq] at ih ⊢
      exact ⟨by rw [UInt8.xor_assoc, UInt8.xor_self, UInt8.xor_zero], ih (by simpa using h)⟩

lemma length_xorBytes (h : a.length = b.length) : (xorBytes a b).length = a.length := by
  rw [xorBytes, length_zipWith, ← h, Nat.min_self]

/-- A key that is found is the packet between the indicator and some byte. -/
lemma fixCoordinate_eq_some {packet : List UInt8}
    (h : fixCoordinate env packet n fix = some key) : ∃ last, key = 0x02 :: packet ++ [last] := by
  induction n generalizing fix with
  | zero => cases h
  | succ n ih =>
    rw [fixCoordinate] at h
    split_ifs at h
    · cases h
      exact ⟨fix, rfl⟩
    · exact ih h

/-- Zeros up to a whole number of chunks. -/
def padded (payload : List UInt8) : List UInt8 :=
  payload ++ List.replicate
    ((CLASS_B_CHUNK_PAYLOAD_SIZE - payload.length % CLASS_B_CHUNK_PAYLOAD_SIZE)
      % CLASS_B_CHUNK_PAYLOAD_SIZE) 0

/-- What is padded first is a chunk, what follows is padded on its own. -/
lemma padded_chunk (h : payload ≠ []) :
    padded payload = payload.take CLASS_B_CHUNK_PAYLOAD_SIZE ++
      List.replicate (CLASS_B_CHUNK_PAYLOAD_SIZE -
        (payload.take CLASS_B_CHUNK_PAYLOAD_SIZE).length) 0
      ++ padded (payload.drop CLASS_B_CHUNK_PAYLOAD_SIZE) := by
  have hsize : CLASS_B_CHUNK_PAYLOAD_SIZE = 30 := rfl
  have hpos := length_pos_iff.mpr h
  by_cases hlong : 30 ≤ payload.length
  · have htake : (payload.take 30).length = 30 := by
      rw [length_take]
      omega
    have hmod : (payload.length - 30) % 30 = payload.length % 30 := by omega
    simp only [padded, hsize, htake, Nat.sub_self, replicate_zero, append_nil, length_drop, hmod]
    rw [← append_assoc, take_append_drop]
  · have htake : payload.take 30 = payload := take_of_length_le (by omega)
    have hdrop : payload.drop 30 = [] := drop_of_length_le (by omega)
    have hmod : (30 - payload.length % 30) % 30 = 30 - payload.length := by omega
    simp only [padded, hsize, htake, hdrop, hmod]
    simp

/-- The decoder finds in a key the piece of the payload the encoder hid there. -/
lemma decodePackets_encodeKey {chunk : UInt8}
    (h : encodeKey env ((packetKeys.hash env).take CLASS_B_CHUNK_SIZE) chunk payload fix =
      .ok key) :
    CScript.IsKeySized key ∧
      decodePackets env packetKeys (key :: rest)
        = (decodePackets env (packetKeys.next env) rest).map fun more =>
            payload ++ List.replicate (CLASS_B_CHUNK_PAYLOAD_SIZE - payload.length) 0 ++ more := by
  have hsize : CLASS_B_CHUNK_PAYLOAD_SIZE = 30 := rfl
  have hchunk : CLASS_B_CHUNK_SIZE = 31 := rfl
  have hencKey : ((packetKeys.hash env).take CLASS_B_CHUNK_SIZE).length = 31 := by
    rw [length_take, PacketKeyGenerator.hash, (env.sha256 packetKeys.seed).property]
    rfl
  rw [encodeKey, if_neg (not_not.mpr (hencKey.trans hchunk.symm))] at h
  split_ifs at h with hpayload
  set encKey := (packetKeys.hash env).take CLASS_B_CHUNK_SIZE with henc
  set zeros := List.replicate (CLASS_B_CHUNK_PAYLOAD_SIZE - payload.length) (0 : UInt8) with hzeros
  have hlength : (chunk :: payload ++ zeros).length = encKey.length := by
    rw [hencKey, hzeros, length_append, length_cons, length_replicate]
    omega
  cases hfix : fixCoordinate env (xorBytes (chunk :: payload ++ zeros) encKey) 256 fix with
  | none => simp only [hfix, reduceCtorEq] at h
  | some found =>
    simp only [hfix, Except.ok.injEq] at h
    subst h
    -- only the last byte of the key is made up, and the decoder drops it
    obtain ⟨last, rfl⟩ := fixCoordinate_eq_some hfix
    have hpacket : (xorBytes (chunk :: payload ++ zeros) encKey).length = 31 := by
      rw [length_xorBytes hlength, hlength, hencKey]
    have hkey : (0x02 :: xorBytes (chunk :: payload ++ zeros) encKey ++ [last]).length = 33 := by
      rw [length_append, length_cons, hpacket]
      rfl
    refine ⟨⟨by omega, by omega⟩, ?_⟩
    have hread : ((0x02 :: xorBytes (chunk :: payload ++ zeros) encKey ++ [last]).drop 1).take
        CLASS_B_CHUNK_SIZE = xorBytes (chunk :: payload ++ zeros) encKey := by
      rw [cons_append, drop_one, tail_cons]
      exact take_left' (hpacket.trans hchunk.symm)
    rw [decodePackets, if_neg (by rw [hkey]; decide), hread, ← henc, xorBytes_cancel hlength]
    cases decodePackets env (packetKeys.next env) rest <;> rfl

/-! ## The trip of all keys -/

/-- Some keys of an output: they are as many as asked for, none after the last chunk, and the
    decoder reads the payload off them and goes on with the rest. -/
lemma decodePackets_encodeKeys (h : encodeKeys env n packetKeys chunk payload = .ok keys)
    (hn : CLASS_B_CHUNK_PAYLOAD_SIZE * n < payload.length + CLASS_B_CHUNK_PAYLOAD_SIZE)
    (hrest : decodePackets env (packetKeys.skip env n) rest
      = .ok (padded (payload.drop (CLASS_B_CHUNK_PAYLOAD_SIZE * n)))) :
    (∀ k ∈ keys, CScript.IsKeySized k) ∧ keys.length = n ∧
      (1 ≤ n → chunk + n ≤ CLASS_B_MAX_CHUNKS + 1) ∧
      decodePackets env packetKeys (keys ++ rest) = .ok (padded payload) := by
  have hsize : CLASS_B_CHUNK_PAYLOAD_SIZE = 30 := rfl
  induction n generalizing packetKeys chunk payload keys with
  | zero =>
    cases h
    exact ⟨by simp, rfl, by omega, hrest⟩
  | succ n ih =>
    rw [encodeKeys] at h
    split_ifs at h with hchunk
    obtain ⟨key, hkey, h⟩ := except_bind_ok_iff.mp h
    obtain ⟨more, hkeys, h⟩ := except_bind_ok_iff.mp h
    cases h
    have hnonempty : payload ≠ [] := by
      rintro rfl
      rw [length_nil, hsize] at hn
      omega
    have hn' : CLASS_B_CHUNK_PAYLOAD_SIZE * n
        < (payload.drop CLASS_B_CHUNK_PAYLOAD_SIZE).length + CLASS_B_CHUNK_PAYLOAD_SIZE := by
      rw [length_drop, hsize]
      rw [hsize] at hn
      omega
    have hdrop : (payload.drop CLASS_B_CHUNK_PAYLOAD_SIZE).drop (CLASS_B_CHUNK_PAYLOAD_SIZE * n)
        = payload.drop (CLASS_B_CHUNK_PAYLOAD_SIZE * (n + 1)) := by
      rw [drop_drop, Nat.mul_succ, Nat.add_comm]
    obtain ⟨hsized, hlength, hlimit, hmore⟩ := ih hkeys hn' (by rw [hdrop]; exact hrest)
    obtain ⟨hkeySized, hdecode⟩ := decodePackets_encodeKey hkey
    refine ⟨forall_mem_cons.mpr ⟨hkeySized, hsized⟩, by rw [length_cons, hlength], ?_, ?_⟩
    · intro _
      by_cases hzero : n = 0
      · omega
      · have := hlimit (by omega)
        omega
    · rw [cons_append, hdecode, hmore, padded_chunk hnonempty]
      rfl

/-! ## The outputs -/

lemma CPubKey.isKeySized (key : CPubKey) : CScript.IsKeySized key.vch := .of_valid key.isValid

/-- The decoder takes the keys after the redeeming one from a multisig output. -/
lemma multisigScriptData_multisig (hkeys : ∀ k ∈ keys, CScript.IsKeySized k)
    (hpos : 1 ≤ keys.length) (hmax : keys.length ≤ 15)
    (hout : multisigOutput env (redeemingKey.vch :: keys) = .ok out) :
    multisigScriptData env out = keys := by
  have hall : ∀ k ∈ redeemingKey.vch :: keys, CScript.IsKeySized k :=
    forall_mem_cons.mpr ⟨redeemingKey.isKeySized, hkeys⟩
  have hlength : (redeemingKey.vch :: keys).length = keys.length + 1 := rfl
  obtain ⟨script, hscript, hpushes, hsolver⟩ :=
    solver_multisig (le_refl 1) (by omega) (by omega) (by omega) hall
  rw [multisigOutput, hscript] at hout
  cases hout
  have hextract := extractDestinations_multisig env.hash160 hsolver (by decide)
    ⟨_, .head _, redeemingKey.isValid⟩
  rw [multisigScriptData, hextract, hpushes, drop_one, tail_cons]

lemma multisigScriptData_eq_nil (h : ∀ destinations,
      extractDestinations env.hash160 out.scriptPubKey ≠ some (.TX_MULTISIG, destinations)) :
    multisigScriptData env out = [] := by
  rw [multisigScriptData]
  split
  · rename_i destinations hout
    exact absurd hout (h destinations)
  · rfl

/-- The decoder takes nothing from the output to the system address. -/
lemma multisigScriptData_system : multisigScriptData env (systemOutput env) = [] := by
  refine multisigScriptData_eq_nil (fun destinations h => ?_)
  rw [systemOutput, extractDestinations, solver_destination] at h
  obtain ⟨address, -, haddress⟩ := Option.map_eq_some_iff.mp h
  cases haddress

section
variable (h : encodeOutputs env redeemingKey packetKeys chunk payload = .ok outputs)
include h

/-- One turn of the outer loop. -/
lemma encodeOutputs_ok (hpayload : payload ≠ []) :
    ∃ keys out more,
      encodeKeys env (generatingKeys payload) packetKeys chunk payload = .ok keys ∧
      multisigOutput env (redeemingKey.vch :: keys) = .ok out ∧
      encodeOutputs env redeemingKey (packetKeys.skip env (generatingKeys payload))
        (chunk + generatingKeys payload)
        (payload.drop (CLASS_B_CHUNK_PAYLOAD_SIZE * generatingKeys payload)) = .ok more ∧
      outputs = out :: more := by
  rw [encodeOutputs, dif_neg hpayload] at h
  obtain ⟨keys, hkeys, h⟩ := except_bind_ok_iff.mp h
  obtain ⟨out, hout, h⟩ := except_bind_ok_iff.mp h
  obtain ⟨more, hmore, h⟩ := except_bind_ok_iff.mp h
  exact ⟨keys, out, more, hkeys, hout, hmore, (Except.ok.inj h).symm⟩

/-- The outputs of a payload: the decoder reads it off the keys in them, there are enough of them,
    and no chunk comes after the last one allowed. -/
lemma decodePackets_encodeOutputs :
    ∃ keys, outputs.flatMap (multisigScriptData env) = keys ∧
      (keys = [] ∨ chunk + keys.length ≤ CLASS_B_MAX_CHUNKS + 1) ∧
      payload.length ≤ CLASS_B_CHUNK_PAYLOAD_SIZE * keys.length ∧
      decodePackets env packetKeys keys = .ok (padded payload) := by
  have hsize : CLASS_B_CHUNK_PAYLOAD_SIZE = 30 := rfl
  -- on the length of the payload: every output takes a part of it
  induction hpayload : payload.length using Nat.strong_induction_on
    generalizing packetKeys chunk payload outputs with
  | _ length ih =>
    by_cases hempty : payload = []
    · rw [encodeOutputs, dif_pos hempty] at h
      cases h
      subst hempty
      rw [length_nil] at hpayload
      refine ⟨[], ?_, .inl rfl, by omega, rfl⟩
      rw [flatMap_cons, multisigScriptData_system]
      rfl
    · obtain ⟨keys, out, more, hkeys, hout, hmore, rfl⟩ := encodeOutputs_ok h hempty
      have hpos := length_pos_iff.mpr hempty
      have hgen := generatingKeys_pos payload
      have hgenmax : generatingKeys payload ≤ 2 ∧
          CLASS_B_CHUNK_PAYLOAD_SIZE * generatingKeys payload
            < payload.length + CLASS_B_CHUNK_PAYLOAD_SIZE := by
        unfold generatingKeys
        split <;> omega
      set n := generatingKeys payload with hgenerating
      have hshorter : (payload.drop (CLASS_B_CHUNK_PAYLOAD_SIZE * n)).length < length := by
        rw [length_drop, hsize]
        omega
      obtain ⟨rest, hrest, hlimit, hlength, hdecode⟩ := ih _ hshorter hmore rfl
      obtain ⟨hsized, hcount, hchunks, hall⟩ :=
        decodePackets_encodeKeys hkeys hgenmax.2 hdecode
      rw [length_drop, hsize] at hlength
      refine ⟨keys ++ rest, ?_, ?_, ?_, hall⟩
      · rw [flatMap_cons, hrest, multisigScriptData_multisig hsized (by omega) (by omega) hout]
      · right
        rw [length_append, hcount]
        rcases hlimit with rfl | hlimit
        · exact hchunks hgen
        · omega
      · rw [length_append, hcount, hsize]
        omega

end

/-! ## The trip of a payload -/

/-- The outputs of a transaction: some given ones in their order, among others that are no multisig
    scripts. -/
inductive AmongOthers (env : PacketEnv) : List CTxOut → List CTxOut → Prop
  | nil : AmongOthers env [] []
  | keep (out : CTxOut) {outputs vout : List CTxOut} (h : AmongOthers env outputs vout) :
      AmongOthers env (out :: outputs) (out :: vout)
  | other {out : CTxOut} {outputs vout : List CTxOut}
      (hout : ∀ destinations,
        extractDestinations env.hash160 out.scriptPubKey ≠ some (.TX_MULTISIG, destinations))
      (h : AmongOthers env outputs vout) : AmongOthers env outputs (out :: vout)

lemma AmongOthers.refl (env : PacketEnv) (outputs : List CTxOut) :
    AmongOthers env outputs outputs := by
  induction outputs with
  | nil => exact .nil
  | cons out outputs ih => exact .keep out ih

lemma AmongOthers.multisigScriptData_eq {vout : List CTxOut} (h : AmongOthers env outputs vout) :
    vout.flatMap (multisigScriptData env) = outputs.flatMap (multisigScriptData env) := by
  induction h with
  | nil => rfl
  | keep out _ ih => rw [flatMap_cons, flatMap_cons, ih]
  | @other out _ _ hout _ ih =>
    rw [flatMap_cons, multisigScriptData_eq_nil hout, ih, nil_append]

/-- A payload that is encoded is read off the transaction, followed by zeros up to a whole number of
    chunks; one that is too long is refused. -/
theorem classB_round_trip (env : PacketEnv) (sender : List UInt8) (redeemingKey : CPubKey)
    (payload : List UInt8) :
    (1 ≤ payload.length → payload.length ≤ MAX_PACKET_PAYLOAD → ∀ outputs vout,
      encodeClassB env sender redeemingKey payload = .ok outputs → AmongOthers env outputs vout →
        parseClassB env sender vout = .ok (padded payload)) ∧
    (MAX_PACKET_PAYLOAD < payload.length →
      ∃ e, encodeClassB env sender redeemingKey payload = .error e) := by
  have hmax : MAX_PACKET_PAYLOAD = 7650 := rfl
  have hsize : CLASS_B_CHUNK_PAYLOAD_SIZE = 30 := rfl
  have hchunks : CLASS_B_MAX_CHUNKS = 255 := rfl
  constructor
  · intro _ _ outputs vout hencode hvout
    obtain ⟨keys, hkeys, hlimit, -, hdecode⟩ := decodePackets_encodeOutputs hencode
    have hcount : keys.length ≤ CLASS_B_MAX_CHUNKS := by
      rcases hlimit with rfl | hlimit
      · exact Nat.zero_le _
      · omega
    rw [parseClassB, hvout.multisigScriptData_eq, hkeys, take_of_length_le hcount, hdecode]
  · intro hlong
    cases hencode : encodeClassB env sender redeemingKey payload with
    | error e => exact ⟨e, rfl⟩
    | ok outputs =>
      obtain ⟨keys, -, hlimit, hlength, -⟩ := decodePackets_encodeOutputs hencode
      rw [hsize] at hlength
      rcases hlimit with rfl | hlimit
      · rw [length_nil] at hlength
        omega
      · omega

/-- A hash says how long the seed is, and every other key is on the curve. -/
def samplePackets : PacketEnv where
  sha256 := fun seed => ⟨List.replicate 32 (UInt8.ofNat seed.length), length_replicate⟩
  isOnCurve := fun vch => decide (vch.getLastD 0 % 2 = 1)
  getRand := fun _ => 0
  getDustThreshold := fun _ => 546
  systemKeyID := 1
  hash160 := fun _ => 0

def sampleRedeemingKey : CPubKey where
  vch := 0x02 :: List.replicate 32 7
  isValid := by decide

/-- 61 bytes take two keys in one output and a third key in another, and come back with 29
    zeros. -/
theorem classB_round_trip_two_outputs :
    ∃ outputs, encodeClassB samplePackets [0x41] sampleRedeemingKey (replicate 61 5) = .ok outputs ∧
      outputs.map (fun out => (multisigScriptData samplePackets out).length) = [2, 1, 0] ∧
      parseClassB samplePackets [0x41] outputs = .ok (replicate 61 5 ++ replicate 29 0) := by
  have hok : (encodeClassB samplePackets [0x41] sampleRedeemingKey (replicate 61 5)).toOption.map
      (map fun out => (multisigScriptData samplePackets out).length) = some [2, 1, 0] := by
    decide +kernel
  cases hencode : encodeClassB samplePackets [0x41] sampleRedeemingKey (replicate 61 5) with
  | error e =>
    rw [hencode] at hok
    cases hok
  | ok outputs =>
    rw [hencode] at hok
    refine ⟨outputs, rfl, Option.some.inj hok, ?_⟩
    exact (classB_round_trip samplePackets [0x41] sampleRedeemingKey (replicate 61 5)).1 (by decide)
      (by decide) outputs outputs hencode (AmongOthers.refl _ _)

end Tecracoin.Elysium
