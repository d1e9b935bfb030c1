/-
  `bls/bls.h`: public keys and signatures, and `CBLSLazyWrapper`, which holds the
  operator keys of the masternode list.

  The curve arithmetic is not modelled.  An object is represented by the bytes
  it serialises to, read as one number: every invalid object serialises to
  zero bytes, and two valid objects are equal exactly when their bytes are.

  The wrapper holds serialised bytes, a parsed object, or both, and computes
  the missing one on demand.  `Represents` says which key a wrapper stands for.
  On wrappers that stand for a key, every operation answers what the key itself
  would answer and leaves a wrapper for the same key behind, so the caching
  cannot be observed.
-/
import Mathlib.Tactic

namespace Tecracoin

structure CBLSPublicKey where
  buf : Nat
deriving DecidableEq

namespace CBLSPublicKey

/-- The default constructed, invalid key. -/
def null : CBLSPublicKey := ⟨0⟩

def isValid (key : CBLSPublicKey) : Bool := decide (key.buf ≠ 0)

lemma isValid_iff {key : CBLSPublicKey} : key.isValid = true ↔ key ≠ null := by
  obtain ⟨buf⟩ := key
  simp [isValid, null]

end CBLSPublicKey

structure CBLSSignature where
  buf : Nat
deriving DecidableEq

namespace CBLSSignature

def null : CBLSSignature := ⟨0⟩

def isValid (sig : CBLSSignature) : Bool := decide (sig.buf ≠ 0)

end CBLSSignature

/-! ## CBLSLazyWrapper -/

/-- What the curve library makes of 48 bytes that are not all zero. -/
abbrev InternalSetBuf := Nat → Option CBLSPublicKey

namespace CBLSPublicKey

variable (internalSetBuf : InternalSetBuf)

/-- `SetBuf`: zero bytes and bytes that do not parse give the invalid key. -/
def ofBuf (buf : Nat) : CBLSPublicKey :=
  if buf = 0 then null else (internalSetBuf buf).getD null

/-- `CheckMalleable`: the object serialises to the bytes it was read from. -/
def checkMalleable (key : CBLSPublicKey) (buf : Nat) : Bool := decide (key.buf = buf)

/-- The library reads the key's own bytes back as this key. -/
def Genuine (key : CBLSPublicKey) : Prop :=
  ofBuf internalSetBuf key.buf = key

lemma genuine_null : Genuine internalSetBuf null := rfl

lemma buf_injective {key key' : CBLSPublicKey} (h : key.buf = key'.buf) : key = key' := by
  obtain ⟨buf⟩ := key
  exact congrArg CBLSPublicKey.mk h

end CBLSPublicKey

/-- `CBLSLazyWrapper<CBLSPublicKey>`. -/
structure CBLSLazyWrapper where
  buf : Nat
  bufValid : Bool
  obj : CBLSPublicKey
  objInitialized : Bool
deriving DecidableEq

namespace CBLSLazyWrapper

variable (internalSetBuf : InternalSetBuf)

/-- The default constructor: zero bytes count as valid bytes. -/
def new : CBLSLazyWrapper := ⟨0, true, .null, false⟩

/-- `operator=`. -/
def copy (r : CBLSLazyWrapper) : CBLSLazyWrapper where
  buf := if r.bufValid then r.buf else 0
  bufValid := r.bufValid
  obj := if r.objInitialized then r.obj else .null
  objInitialized := r.objInitialized

section

variable (w : CBLSLazyWrapper)

/-- `Serialize`: the bytes written; `none` is the exception "obj and buf not initialized". -/
def serialize : Option (Nat × CBLSLazyWrapper) :=
  if !w.objInitialized && !w.bufValid then none
  else if !w.bufValid then some (w.obj.buf, { w with buf := w.obj.buf, bufValid := true })
  else some (w.buf, w)

/-- `Unserialize`: the bytes are taken as they are. -/
def unserialize (buf : Nat) : CBLSLazyWrapper :=
  { w with buf := buf, bufValid := true, objInitialized := false }

def set (obj : CBLSPublicKey) : CBLSLazyWrapper :=
  { w with bufValid := false, objInitialized := true, obj := obj }

/-- `Get`: the object, and the wrapper with the object remembered. -/
def get : CBLSPublicKey × CBLSLazyWrapper :=
  if !w.bufValid && !w.objInitialized then (.null, w)
  else if !w.objInitialized then
    let obj := CBLSPublicKey.ofBuf internalSetBuf w.buf
    if !obj.checkMalleable w.buf then
      (.null, { w with bufValid := false, objInitialized := false, obj := .null })
    else (obj, { w with obj := obj, objInitialized := true })
  else (w.obj, w)

end

/-- `operator==`. -/
def beq (w r : CBLSLazyWrapper) : Bool :=
  if w.bufValid && r.bufValid then decide (w.buf = r.buf)
  else if w.objInitialized && r.objInitialized then decide (w.obj = r.obj)
  else decide ((w.get internalSetBuf).1 = (r.get internalSetBuf).1)

/-! ## The key a wrapper stands for -/

/-- Bytes and object, where present, are those of `key`, and one is present. -/
structure Represents (w : CBLSLazyWrapper) (key : CBLSPublicKey) : Prop where
  genuine : key.Genuine internalSetBuf
  buf_eq : w.bufValid = true → w.buf = key.buf
  obj_eq : w.objInitialized = true → w.obj = key
  present : w.bufValid = true ∨ w.objInitialized = true

variable {internalSetBuf} {w r : CBLSLazyWrapper} {key key' : CBLSPublicKey}

lemma represents_new : new.Represents internalSetBuf .null where
  genuine := CBLSPublicKey.genuine_null _
  buf_eq := fun _ => rfl
  obj_eq := nofun
  present := .inl rfl

lemma represents_set (hkey : key.Genuine internalSetBuf) :
    (w.set key).Represents internalSetBuf key where
  genuine := hkey
  buf_eq := nofun
  obj_eq := fun _ => rfl
  present := .inr rfl

lemma represents_unserialize (hkey : key.Genuine internalSetBuf) :
    (w.unserialize key.buf).Represents internalSetBuf key where
  genuine := hkey
  buf_eq := fun _ => rfl
  obj_eq := nofun
  present := .inl rfl

namespace Represents

variable (h : w.Represents internalSetBuf key)
include h

lemma copy : w.copy.Represents internalSetBuf key where
  genuine := h.genuine
  buf_eq := by
    intro hvalid
    exact (if_pos hvalid).trans (h.buf_eq hvalid)
  obj_eq := by
    intro hinit
    exact (if_pos hinit).trans (h.obj_eq hinit)
  present := h.present

lemma serialize : ∃ w', w.serialize = some (key.buf, w') ∧ w'.Represents internalSetBuf key := by
  unfold CBLSLazyWrapper.serialize
  cases hvalid : w.bufValid with
  | true =>
    refine ⟨w, ?_, h⟩
    rw [h.buf_eq hvalid]
    simp
  | false =>
    have hinit : w.objInitialized = true := by simpa [hvalid] using h.present
    have hobj := h.obj_eq hinit
    refine ⟨{ w with buf := key.buf, bufValid := true }, by simp [hinit, hobj], ?_⟩
    exact ⟨h.genuine, fun _ => rfl, h.obj_eq, .inl rfl⟩

lemma get :
    (w.get internalSetBuf).1 = key ∧ (w.get internalSetBuf).2.Represents internalSetBuf key := by
  unfold CBLSLazyWrapper.get
  cases hinit : w.objInitialized with
  | true =>
    simp only [Bool.not_true, Bool.and_false, Bool.false_eq_true, if_false]
    exact ⟨h.obj_eq hinit, h⟩
  | false =>
    -- the bytes are there and are those of the key
    have hvalid : w.bufValid = true := by simpa [hinit] using h.present
    have hparse : CBLSPublicKey.ofBuf internalSetBuf w.buf = key := by
      rw [h.buf_eq hvalid]
      exact h.genuine
    have hcanonical : key.checkMalleable w.buf = true := by
      rw [h.buf_eq hvalid]
      exact decide_eq_true rfl
    simp only [hvalid, hparse, hcanonical, Bool.not_true, Bool.not_false, Bool.false_and,
      Bool.false_eq_true, if_false, if_true, true_and]
    exact ⟨h.genuine, fun _ => h.buf_eq hvalid, fun _ => rfl, .inr rfl⟩

lemma beq_iff (h' : r.Represents internalSetBuf key') :
    w.beq internalSetBuf r = true ↔ key = key' := by
  unfold CBLSLazyWrapper.beq
  split_ifs with hbufs hobjs
  · rw [Bool.and_eq_true] at hbufs
    rw [decide_eq_true_eq, h.buf_eq hbufs.1, h'.buf_eq hbufs.2]
    exact ⟨CBLSPublicKey.buf_injective, congrArg CBLSPublicKey.buf⟩
  · rw [Bool.and_eq_true] at hobjs
    rw [decide_eq_true_eq, h.obj_eq hobjs.1, h'.obj_eq hobjs.2]
  · rw [decide_eq_true_eq, h.get.1, h'.get.1]

end Represents

/-! ## Uses of a wrapper -/

/-- What is done with a wrapper; `reload` writes it and reads it back. -/
inductive Use (internalSetBuf : InternalSetBuf)
  | copy
  | set (key : CBLSPublicKey) (genuine : key.Genuine internalSetBuf)
  | serialize
  | get
  | reload

def Use.run (w : CBLSLazyWrapper) : Use internalSetBuf → Option CBLSLazyWrapper
  | .copy => some w.copy
  | .set key _ => some (w.set key)
  | .serialize => w.serialize.map Prod.snd
  | .get => some (w.get internalSetBuf).2
  | .reload => w.serialize.map fun out => w.unserialize out.1

/-- The key after a use. -/
def Use.apply (key : CBLSPublicKey) : Use internalSetBuf → CBLSPublicKey
  | .set key _ => key
  | _ => key

lemma Represents.use (h : w.Represents internalSetBuf key) (use : Use internalSetBuf) :
    ∃ w', use.run w = some w' ∧ w'.Represents internalSetBuf (use.apply key) := by
  obtain ⟨w', hw, hrep⟩ := h.serialize
  cases use with
  | copy => exact ⟨_, rfl, h.copy⟩
  | set key genuine => exact ⟨_, rfl, represents_set genuine⟩
  | serialize => exact ⟨w', by rw [Use.run, hw]; rfl, hrep⟩
  | get => exact ⟨_, rfl, h.get.2⟩
  | reload => exact ⟨_, by rw [Use.run, hw]; rfl, represents_unserialize h.genuine⟩

lemma Represents.uses (h : w.Represents internalSetBuf key) (uses : List (Use internalSetBuf)) :
    ∃ w', uses.foldlM Use.run w = some w' ∧
      w'.Represents internalSetBuf (uses.foldl Use.apply key) := by
  induction uses generalizing w key with
  | nil => exact ⟨w, rfl, h⟩
  | cons use uses ih =>
    obtain ⟨w', hw, hrep⟩ := h.use use
    rw [List.foldlM_cons, hw]
    exact ih hrep

/-- Whatever is done with two wrappers, they answer what the keys last set would answer. -/
theorem caching_unobservable (uses uses' : List (Use internalSetBuf)) :
    ∃ w r, uses.foldlM Use.run new = some w ∧ uses'.foldlM Use.run new = some r ∧
      (w.get internalSetBuf).1 = uses.foldl Use.apply .null ∧
      w.serialize.map Prod.fst = some (uses.foldl Use.apply .null).buf ∧
      (w.beq internalSetBuf r = true ↔
        uses.foldl Use.apply .null = uses'.foldl Use.apply .null) := by
  obtain ⟨w, hw, hrep⟩ := represents_new.uses uses
  obtain ⟨r, hr, hrep'⟩ := represents_new.uses uses'
  obtain ⟨_, hserialize, -⟩ := hrep.serialize
  exact ⟨w, r, hw, hr, hrep.get.1, by rw [hserialize]; rfl, hrep.beq_iff hrep'⟩

end CBLSLazyWrapper

/-- `CBLSLazyPublicKey`, for a node with the given curve library: any wrapper at all. -/
structure CBLSLazyPublicKey (internalSetBuf : InternalSetBuf) where
  wrapper : CBLSLazyWrapper
deriving DecidableEq

/-- A wrapper together with the key it stands for; malformed bytes stand for none. -/
structure GenuineLazyKey (internalSetBuf : InternalSetBuf) extends
    CBLSLazyPublicKey internalSetBuf where
  key : CBLSPublicKey
  represents : wrapper.Represents internalSetBuf key

end Tecracoin
