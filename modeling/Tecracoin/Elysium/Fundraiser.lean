/-
  The arithmetic of a crowdsale participation (`calculateFundraiser` of `sp.cpp`).

  The source computes with `arith_uint256`, whose operations wrap. Here the
  function is written down a second time, operation by operation, such that a
  result which does not fit into 256 bits is an abort. On the numbers the protocol
  can hand over none of them is too large, so that this is the function of
  `Elysium.Crowdsale`, which knows no width.

  What is left to fail is the branch that closes the crowdsale: it divides by the
  room up to the largest amount, and there may be no room.
-/
import Tecracoin.Elysium.Crowdsale

namespace Tecracoin.Elysium

open Data Op

variable {a b bonusPerc created issuer issuerPerc seconds total : Nat}
  {currentSecs fundraiserSecs : Int}

/-! ## Numbers of 256 bits -/

/-- `arith_uint256::operator+`, where the sum has to fit. -/
def add256 (a b : Nat) : Op Nat := do
  ensure (decide (a + b < 2 ^ 256)) (.undefined "arith_uint256 overflow")
  pure (a + b)

/-- `arith_uint256::operator*`, where the product has to fit. -/
def mul256 (a b : Nat) : Op Nat := do
  ensure (decide (a * b < 2 ^ 256)) (.undefined "arith_uint256 overflow")
  pure (a * b)

def modulo256 (a n : Nat) : Op Nat := do
  let below ← mul256 n (a / n)
  pure (a - below)

/-- `bonusPercentage_`, from the weeks on. -/
def bonusPercentage256 (seconds bonusPerc : Nat) : Op Nat := do
  let whole ← mul256 (seconds / WEEKS_SEC) PRECISION
  let begun ← modulo256 seconds WEEKS_SEC
  let part ← mul256 begun PRECISION
  let weeks ← add256 whole (part / WEEKS_SEC)
  let ebPercentage ← mul256 weeks bonusPerc
  let hundred ← mul256 PRECISION PERCENTAGE_PRECISION
  let bonus ← add256 hundred ebPercentage
  pure (bonus / PERCENTAGE_PRECISION)

/-- The amount that is transferred, of an indivisible property with eight more decimal places. -/
def inflated256 (inflateAmount : Bool) (amount : Nat) : Op Nat :=
  if inflateAmount then mul256 amount SATOSHI_PRECISION else pure amount

/-- `createdTokens`. -/
def createdTokens256 (inflateAmount : Bool) (amount numProps bonus : Nat) : Op Nat := do
  let amount ← inflated256 inflateAmount amount
  let created ← mul256 amount numProps
  mul256 created bonus

/-- `issuerTokens_int`. -/
def issuerTokensInt256 (created issuerPerc : Nat) : Op Nat := do
  let issuerPercentage ← mul256 issuerPerc PRECISION
  let issuerTokens ← mul256 (created / SATOSHI_PRECISION / PRECISION)
    (issuerPercentage / PERCENTAGE_PRECISION / 100)
  let issuerTokens ← mul256 issuerTokens PRECISION
  pure (issuerTokens / PRECISION / SATOSHI_PRECISION / 100)

/-- The branch of `calculateFundraiser` for more tokens than can ever exist. -/
def limitTokens256 (total created issuer : Nat) : Op (Nat × Nat × Bool) := do
  let subtotal ← add256 total created
  let newTotalCreated ← add256 subtotal issuer
  if maxInt64 < newTotalCreated then do
    let maxCreatable := maxInt64 - total
    let sum ← add256 created issuer
    let ratio ← mul256 sum PRECISION
    let ratio ← mul256 ratio SATOSHI_PRECISION
    ensure (decide (maxCreatable ≠ 0)) (.throws "Division by zero")
    let ratio := ratio / maxCreatable
    let issuer' ← mul256 issuer PRECISION
    let issuer' ← mul256 issuer' SATOSHI_PRECISION
    ensure (decide (ratio ≠ 0)) (.throws "Division by zero")
    let issuer' := issuer' / ratio
    ensure (decide (issuer' ≤ maxCreatable)) (.asserts "issuerTokens_int <= maxCreatable")
    pure (maxCreatable - issuer', issuer', true)
  else pure (created, issuer, false)

/-- `calculateFundraiser` on numbers of 256 bits. -/
def calculateFundraiser256 (inflateAmount : Bool) (amtTransfer : Int) (bonusPerc : Nat)
    (fundraiserSecs currentSecs numProps : Int) (issuerPerc : Nat) (totalTokens : Int) :
    Op FundraiserTokens := do
  let seconds ← bonusSeconds fundraiserSecs currentSecs
  let bonus ← bonusPercentage256 seconds bonusPerc
  let amount ← convertTo256 amtTransfer
  let props ← convertTo256 numProps
  let created ← createdTokens256 inflateAmount amount props bonus
  let issuer ← issuerTokensInt256 created issuerPerc
  let total ← convertTo256 totalTokens
  let (user256, issuer256, closes) ← limitTokens256 total (createdTokensInt created) issuer
  let user ← convertTo64 user256
  let issuer ← convertTo64 issuer256
  pure ⟨user, issuer, closes⟩

/-! ## Nothing is too large -/

lemma add256_of_lt (h : a + b < 2 ^ 256) : add256 a b = pure (a + b) := by
  rw [add256, ensure_of_true (decide_eq_true h), pure_bind]

lemma mul256_of_lt (h : a * b < 2 ^ 256) : mul256 a b = pure (a * b) := by
  rw [mul256, ensure_of_true (decide_eq_true h), pure_bind]

/-- A product of two bounded factors fits if the product of the bounds does. -/
lemma mul256_of_le {A B : Nat} (ha : a ≤ A) (hb : b ≤ B) (h : A * B < 2 ^ 256) :
    mul256 a b = pure (a * b) :=
  mul256_of_lt ((Nat.mul_le_mul ha hb).trans_lt h)

lemma modulo256_eq {n : Nat} (ha : a < 2 ^ 256) : modulo256 a n = pure (a % n) := by
  have hfits : n * (a / n) < 2 ^ 256 := (Nat.mul_div_le a n).trans_lt ha
  unfold modulo256
  rw [mul256_of_lt hfits, pure_bind, Nat.mod_eq_sub]

/-- The bonus, in parts of `PRECISION`, of all seconds there are at the largest percentage. -/
def BONUS_BOUND : Nat := 2 ^ 86

lemma weeks_le (hs : seconds < 2 ^ 63) :
    seconds / WEEKS_SEC * PRECISION + seconds % WEEKS_SEC * PRECISION / WEEKS_SEC ≤ 2 ^ 84 := by
  unfold WEEKS_SEC PRECISION
  omega

lemma bonusPercentage_le (hs : seconds < 2 ^ 63) (hb : bonusPerc < 256) :
    bonusPercentage seconds bonusPerc ≤ BONUS_BOUND := by
  have heb := Nat.mul_le_mul (weeks_le hs) (Nat.le_of_lt_succ hb)
  unfold bonusPercentage BONUS_BOUND PRECISION PERCENTAGE_PRECISION at *
  dsimp only
  omega

lemma bonusPercentage256_eq (hs : seconds < 2 ^ 63) (hb : bonusPerc < 256) :
    bonusPercentage256 seconds bonusPerc = pure (bonusPercentage seconds bonusPerc) := by
  have hwhole : seconds / WEEKS_SEC ≤ 2 ^ 63 := (Nat.div_le_self ..).trans hs.le
  have hbegun : seconds % WEEKS_SEC ≤ WEEKS_SEC := (Nat.mod_lt _ (by decide)).le
  have heb := Nat.mul_le_mul (weeks_le hs) (Nat.le_of_lt_succ hb)
  unfold bonusPercentage256
  rw [mul256_of_le hwhole (le_refl PRECISION) (by decide), pure_bind,
    modulo256_eq (hs.trans (by decide)), pure_bind,
    mul256_of_le hbegun (le_refl PRECISION) (by decide), pure_bind,
    add256_of_lt ((weeks_le hs).trans_lt (by decide)), pure_bind,
    mul256_of_lt (heb.trans_lt (by decide)), pure_bind, mul256_of_lt (by decide), pure_bind,
    add256_of_lt ((Nat.add_le_add_left heb _).trans_lt (by decide)), pure_bind]
  rfl

/-- No participation creates more, counted in parts of a token. -/
def CREATED_BOUND : Nat := 2 ^ 63 * SATOSHI_PRECISION * 2 ^ 63 * BONUS_BOUND

section
variable {inflateAmount : Bool} {amount numProps bonus : Nat}

lemma inflated_le (ha : amount ≤ 2 ^ 63) :
    (if inflateAmount then amount * SATOSHI_PRECISION else amount) ≤
      2 ^ 63 * SATOSHI_PRECISION := by
  unfold SATOSHI_PRECISION
  split <;> omega

lemma createdTokens256_eq (ha : amount ≤ 2 ^ 63) (hn : numProps ≤ 2 ^ 63)
    (hb : bonus ≤ BONUS_BOUND) :
    createdTokens256 inflateAmount amount numProps bonus
      = pure (createdTokens inflateAmount amount numProps bonus) := by
  have hinflate : inflated256 inflateAmount amount
      = pure (if inflateAmount then amount * SATOSHI_PRECISION else amount) := by
    rw [inflated256, mul256_of_le ha (le_refl SATOSHI_PRECISION) (by decide)]
    split <;> rfl
  unfold createdTokens256
  simp only [hinflate, mul256_of_le (inflated_le ha) hn (by decide),
    mul256_of_le (Nat.mul_le_mul (inflated_le ha) hn) hb (by decide), pure_bind]
  rfl

end

/-- The scales cancel: the issuer gets the percentage of the whole tokens of the user, rounded down.
    -/
lemma issuerTokensInt_eq (created issuerPerc : Nat) :
    issuerTokensInt created issuerPerc = createdTokensInt created * issuerPerc / 100 := by
  have hscale : issuerPerc * PRECISION / PERCENTAGE_PRECISION / 100
      = issuerPerc * SATOSHI_PRECISION := by
    unfold PRECISION PERCENTAGE_PRECISION SATOSHI_PRECISION
    omega
  have hwhole : created / SATOSHI_PRECISION / PRECISION = createdTokensInt created :=
    Nat.div_div_eq_div_mul .. |>.trans (by
      rw [createdTokensInt, Nat.div_div_eq_div_mul, Nat.mul_comm])
  unfold issuerTokensInt
  dsimp only
  rw [hscale, hwhole, Nat.mul_div_cancel _ (by decide), ← Nat.mul_assoc,
    Nat.mul_div_cancel _ (by decide)]

/-- No participation creates more whole tokens for the user. -/
def WHOLE_BOUND : Nat := createdTokensInt CREATED_BOUND

section
variable (h : created ≤ CREATED_BOUND)
include h

lemma createdTokensInt_le : createdTokensInt created ≤ WHOLE_BOUND :=
  Nat.div_le_div_right (Nat.div_le_div_right h)

lemma issuerTokensInt_le (hp : issuerPerc < 256) :
    issuerTokensInt created issuerPerc ≤ 3 * WHOLE_BOUND := by
  have hproduct : createdTokensInt created * issuerPerc ≤ WHOLE_BOUND * 255 :=
    Nat.mul_le_mul (createdTokensInt_le h) (by omega)
  rw [issuerTokensInt_eq]
  omega

lemma issuerTokensInt256_eq (hp : issuerPerc < 256) :
    issuerTokensInt256 created issuerPerc = pure (issuerTokensInt created issuerPerc) := by
  have hwhole : created / SATOSHI_PRECISION / PRECISION
      ≤ CREATED_BOUND / SATOSHI_PRECISION / PRECISION :=
    Nat.div_le_div_right (Nat.div_le_div_right h)
  have hscale : issuerPerc * PRECISION / PERCENTAGE_PRECISION / 100
      ≤ 256 * PRECISION / PERCENTAGE_PRECISION / 100 :=
    Nat.div_le_div_right (Nat.div_le_div_right (Nat.mul_le_mul_right _ hp.le))
  unfold issuerTokensInt256
  simp only [mul256_of_le hp.le (le_refl PRECISION) (by decide),
    mul256_of_le hwhole hscale (by decide),
    mul256_of_le (Nat.mul_le_mul hwhole hscale) (le_refl PRECISION) (by decide), pure_bind]
  rfl

end

lemma limitTokens256_eq (ht : total ≤ 2 ^ 63) (hc : created ≤ WHOLE_BOUND)
    (hi : issuer ≤ 3 * WHOLE_BOUND) :
    limitTokens256 total created issuer = limitTokens total created issuer := by
  have hsum : created + issuer ≤ 4 * WHOLE_BOUND := by omega
  have hscale {x : Nat} (hx : x ≤ 4 * WHOLE_BOUND) :
      x * PRECISION ≤ 4 * WHOLE_BOUND * PRECISION := Nat.mul_le_mul_right _ hx
  have hissuer : issuer ≤ 4 * WHOLE_BOUND := by omega
  have hsubtotal : total + created < 2 ^ 256 :=
    (Nat.add_le_add ht hc).trans_lt (by decide)
  have htotal : total + created + issuer < 2 ^ 256 :=
    (Nat.add_le_add (Nat.add_le_add ht hc) hi).trans_lt (by decide)
  unfold limitTokens256 limitTokens
  simp only [add256_of_lt hsubtotal, add256_of_lt htotal, add256_of_lt (hsum.trans_lt (by decide)),
    mul256_of_le hsum (le_refl PRECISION) (by decide),
    mul256_of_le (hscale hsum) (le_refl SATOSHI_PRECISION) (by decide),
    mul256_of_le hissuer (le_refl PRECISION) (by decide),
    mul256_of_le (hscale hissuer) (le_refl SATOSHI_PRECISION) (by decide), pure_bind]

/-! ## The last tokens -/

/-- The division of the room never gives the issuer more than the room: the ratio is rounded down,
    but by less than the room has tokens. -/
lemma issuer_share_le {room : Nat} (hroom : 0 < room) (hmax : room ≤ maxInt64)
    (hover : room < created + issuer) :
    (created + issuer) * PRECISION * SATOSHI_PRECISION / room ≠ 0 ∧
      issuer * PRECISION * SATOSHI_PRECISION /
        ((created + issuer) * PRECISION * SATOSHI_PRECISION / room) ≤ room := by
  set scaled := (created + issuer) * PRECISION * SATOSHI_PRECISION with hscaled
  have hscale : (created + issuer) * 10 ^ 20 = scaled := by
    rw [hscaled, Nat.mul_assoc]
    rfl
  have hratio : 10 ^ 20 ≤ scaled / room := by
    rw [Nat.le_div_iff_mul_le hroom, ← hscale, Nat.mul_comm]
    exact Nat.mul_le_mul_right _ hover.le
  have hrest : scaled < room * (scaled / room) + room := by
    have hmod := Nat.mod_lt scaled hroom
    have hdiv := Nat.div_add_mod scaled room
    omega
  have hissuer : issuer * PRECISION * SATOSHI_PRECISION ≤ scaled :=
    Nat.mul_le_mul_right _ (Nat.mul_le_mul_right _ (Nat.le_add_left ..))
  refine ⟨by omega, Nat.le_of_lt_succ ?_⟩
  rw [Nat.div_lt_iff_lt_mul (by omega), Nat.succ_mul]
  unfold maxInt64 at hmax
  omega

/-- With room left, the tokens up to the limit are divided and nothing fails. -/
lemma limitTokens_of_room (htotal : total < maxInt64)
    (hover : maxInt64 < total + created + issuer) :
    ∃ share ≤ maxInt64 - total,
      limitTokens total created issuer = pure (maxInt64 - total - share, share, true) := by
  have hroom : maxInt64 - total < created + issuer := by omega
  obtain ⟨hratio, hshare⟩ := issuer_share_le (by omega) (Nat.sub_le ..) hroom
  refine ⟨_, hshare, ?_⟩
  rw [limitTokens, if_pos hover]
  dsimp only
  rw [ensure_of_true (decide_eq_true (by omega)), pure_bind,
    ensure_of_true (decide_eq_true hratio), pure_bind,
    ensure_of_true (decide_eq_true hshare), pure_bind]

/-- Without room the branch divides by zero. -/
lemma limitTokens_of_full (hover : 0 < created + issuer) :
    limitTokens maxInt64 created issuer = throw (.throws "Division by zero") := by
  rw [limitTokens, if_pos (by omega)]
  dsimp only
  rw [ensure_of_false (decide_eq_false (by simp))]
  rfl

/-! ## The whole calculation -/

lemma convertTo256_of_nonneg {number : Int} (h : 0 ≤ number) :
    convertTo256 number = pure number.toNat := by
  rw [convertTo256, ensure_of_true (decide_eq_true h), pure_bind]

lemma convertTo64_of_le {number : Nat} (h : number ≤ maxInt64) :
    convertTo64 number = pure (number : Int) := by
  have hmax : (number : Int) ≤ MAX_INT_8_BYTES := by
    unfold maxInt64 at h
    unfold MAX_INT_8_BYTES
    omega
  rw [convertTo64, ensure_of_true (decide_eq_true hmax), pure_bind]

/-- A time before the deadline has to be one after 1970. -/
def TimeInRange (fundraiserSecs currentSecs : Int) : Prop :=
  fundraiserSecs ≤ currentSecs ∨ 0 ≤ currentSecs

lemma bonusSeconds_eq (h : TimeInRange fundraiserSecs currentSecs) :
    bonusSeconds fundraiserSecs currentSecs = pure (fundraiserSecs - currentSecs).toNat := by
  unfold bonusSeconds
  by_cases hbefore : currentSecs < fundraiserSecs
  · have hcurrent : 0 ≤ currentSecs := h.resolve_left (by omega)
    rw [if_pos hbefore, convertTo256_of_nonneg (by omega), pure_bind,
      convertTo256_of_nonneg hcurrent, pure_bind]
    congr 1
    omega
  · rw [if_neg hbefore, Int.toNat_of_nonpos (by omega)]

lemma bonusSeconds_of_negative (h : ¬TimeInRange fundraiserSecs currentSecs) :
    ∃ e, bonusSeconds fundraiserSecs currentSecs = throw e := by
  unfold TimeInRange at h
  push Not at h
  unfold bonusSeconds
  rw [if_pos h.1]
  by_cases hfundraiser : 0 ≤ fundraiserSecs
  · rw [convertTo256_of_nonneg hfundraiser, pure_bind, convertTo256,
      ensure_of_false (decide_eq_false (by omega))]
    exact ⟨_, rfl⟩
  · rw [convertTo256, ensure_of_false (decide_eq_false hfundraiser)]
    exact ⟨_, rfl⟩

/-- What a participation hands to `calculateFundraiser`: amounts of 63 bits, two bytes, and two
    times of 64 bits with sign. -/
structure FundraiserArgs where
  inflateAmount : Bool
  amtTransfer : Int
  bonusPerc : Nat
  fundraiserSecs : Int
  currentSecs : Int
  numProps : Int
  issuerPerc : Nat
  totalTokens : Int
  amount_range : 0 ≤ amtTransfer ∧ amtTransfer ≤ maxInt64
  numProps_range : 0 ≤ numProps ∧ numProps ≤ maxInt64
  total_range : 0 ≤ totalTokens ∧ totalTokens ≤ maxInt64
  deadline_range : -2 ^ 63 ≤ fundraiserSecs ∧ fundraiserSecs < 2 ^ 63
  time_range : -2 ^ 63 ≤ currentSecs ∧ currentSecs < 2 ^ 63
  bonus_byte : bonusPerc < 256
  issuer_byte : issuerPerc < 256

namespace FundraiserArgs

variable (a : FundraiserArgs)

/-- `calculateFundraiser` of the arguments. -/
def calculate : Op FundraiserTokens :=
  calculateFundraiser a.inflateAmount a.amtTransfer a.bonusPerc a.fundraiserSecs a.currentSecs
    a.numProps a.issuerPerc a.totalTokens

/-- `calculateFundraiser` of the arguments, where every number has to fit. -/
def calculate256 : Op FundraiserTokens :=
  calculateFundraiser256 a.inflateAmount a.amtTransfer a.bonusPerc a.fundraiserSecs a.currentSecs
    a.numProps a.issuerPerc a.totalTokens

/-- What the participation is worth to the user, in parts of `10^20` of a token. -/
def tokenParts : Nat :=
  createdTokens a.inflateAmount a.amtTransfer.toNat a.numProps.toNat
    (bonusPercentage (a.fundraiserSecs - a.currentSecs).toNat a.bonusPerc)

/-- The whole tokens of the user, were there no limit. -/
def whole : Nat := createdTokensInt a.tokenParts

/-- The tokens are the whole ones for the user and the percentage of them for the issuer or, where
    these are too many, all that can still be created. -/
structure Exact (tokens : FundraiserTokens) : Prop where
  below : a.totalTokens + a.whole + (a.whole * a.issuerPerc / 100 : Nat) ≤ maxInt64 →
    tokens.user = a.whole ∧ tokens.issuer = tokens.user * a.issuerPerc / 100 ∧
      tokens.closes = false
  reached : maxInt64 < a.totalTokens + a.whole + (a.whole * a.issuerPerc / 100 : Nat) →
    tokens.user + tokens.issuer = maxInt64 - a.totalTokens ∧ tokens.closes = true
  limit : 0 ≤ tokens.user ∧ 0 ≤ tokens.issuer ∧
    a.totalTokens + tokens.user + tokens.issuer ≤ maxInt64

variable {a}

lemma seconds_lt (h : TimeInRange a.fundraiserSecs a.currentSecs) :
    (a.fundraiserSecs - a.currentSecs).toNat < 2 ^ 63 := by
  have hdeadline := a.deadline_range
  unfold TimeInRange at h
  omega

lemma tokenParts_le (h : TimeInRange a.fundraiserSecs a.currentSecs) :
    a.tokenParts ≤ CREATED_BOUND := by
  have hamount := a.amount_range
  have hprops := a.numProps_range
  unfold maxInt64 at hamount hprops
  have hbonus := bonusPercentage_le (seconds_lt h) a.bonus_byte
  exact Nat.mul_le_mul (Nat.mul_le_mul (inflated_le (by omega)) (by omega)) hbonus

/-- The tokens that are created, from those that are worth it. -/
def limited : Op FundraiserTokens := do
  let (user256, issuer256, closes) ←
    limitTokens a.totalTokens.toNat a.whole (a.whole * a.issuerPerc / 100)
  let user ← convertTo64 user256
  let issuer ← convertTo64 issuer256
  pure ⟨user, issuer, closes⟩

lemma calculate_eq (h : TimeInRange a.fundraiserSecs a.currentSecs) :
    a.calculate = a.limited := by
  unfold calculate calculateFundraiser limited
  simp only [bonusSeconds_eq h, convertTo256_of_nonneg a.amount_range.1,
    convertTo256_of_nonneg a.numProps_range.1,
    convertTo256_of_nonneg a.total_range.1, issuerTokensInt_eq, pure_bind]
  rfl

lemma calculate256_eq (h : TimeInRange a.fundraiserSecs a.currentSecs) :
    a.calculate256 = a.limited := by
  have hamount := a.amount_range
  have hprops := a.numProps_range
  have htotal := a.total_range
  unfold maxInt64 at hamount hprops htotal
  have hbonus := bonusPercentage_le (seconds_lt h) a.bonus_byte
  have hparts := tokenParts_le h
  unfold tokenParts at hparts
  unfold calculate256 calculateFundraiser256 limited
  rw [bonusSeconds_eq h, pure_bind, bonusPercentage256_eq (seconds_lt h) a.bonus_byte, pure_bind,
    convertTo256_of_nonneg hamount.1, pure_bind, convertTo256_of_nonneg hprops.1, pure_bind,
    createdTokens256_eq (by omega) (by omega) hbonus, pure_bind,
    issuerTokensInt256_eq hparts a.issuer_byte, pure_bind,
    convertTo256_of_nonneg htotal.1, pure_bind,
    limitTokens256_eq (by omega) (createdTokensInt_le hparts)
      (issuerTokensInt_le hparts a.issuer_byte), issuerTokensInt_eq]
  rfl

lemma calculate256_of_negative (h : ¬TimeInRange a.fundraiserSecs a.currentSecs) :
    ∃ e, a.calculate256 = throw e ∧ a.calculate = throw e := by
  obtain ⟨e, he⟩ := bonusSeconds_of_negative h
  unfold calculate256 calculateFundraiser256 calculate calculateFundraiser
  rw [he]
  exact ⟨e, rfl, rfl⟩

/-- No number of the calculation is too large. -/
lemma calculate256_eq_calculate : a.calculate256 = a.calculate := by
  by_cases h : TimeInRange a.fundraiserSecs a.currentSecs
  · rw [calculate256_eq h, calculate_eq h]
  · obtain ⟨e, h256, h'⟩ := calculate256_of_negative h
    rw [h256, h']

/-- The user gets nothing if the participation is worth less than a token. -/
lemma whole_eq_zero_iff : a.whole = 0 ↔ a.tokenParts < 10 ^ 20 := by
  unfold whole createdTokensInt PRECISION SATOSHI_PRECISION
  omega

/-- The tokens below the limit are given out as they are. -/
lemma limited_below
    (hbelow : a.totalTokens + a.whole + (a.whole * a.issuerPerc / 100 : Nat) ≤ maxInt64) :
    ∃ tokens, a.limited = pure tokens ∧ a.Exact tokens := by
  have htotal := a.total_range.1
  have hfits : a.totalTokens.toNat + a.whole + a.whole * a.issuerPerc / 100 ≤ maxInt64 := by omega
  refine ⟨⟨a.whole, (a.whole * a.issuerPerc / 100 : Nat), false⟩, ?_, ?_, ?_, ?_⟩
  · unfold limited
    rw [limitTokens, if_neg (not_lt.mpr hfits), pure_bind]
    dsimp only
    rw [convertTo64_of_le (by omega), pure_bind, convertTo64_of_le (by omega), pure_bind]
  · intro _
    exact ⟨rfl, by push_cast; rfl, rfl⟩
  · intro hreached
    exact absurd hreached (not_lt.mpr hbelow)
  · exact ⟨Int.natCast_nonneg _, Int.natCast_nonneg _, hbelow⟩

/-- Beyond the limit the room is given out, if there is any. -/
lemma limited_reached (hroom : a.totalTokens < maxInt64)
    (hreached : maxInt64 < a.totalTokens + a.whole + (a.whole * a.issuerPerc / 100 : Nat)) :
    ∃ tokens, a.limited = pure tokens ∧ a.Exact tokens := by
  have htotal := a.total_range.1
  have hover : maxInt64 < a.totalTokens.toNat + a.whole + a.whole * a.issuerPerc / 100 := by omega
  obtain ⟨share, hshare, hlimit⟩ := limitTokens_of_room (by omega) hover
  refine ⟨⟨(maxInt64 - a.totalTokens.toNat - share : Nat), share, true⟩, ?_, ?_, ?_, ?_⟩
  · unfold limited
    rw [hlimit, pure_bind]
    dsimp only
    rw [convertTo64_of_le (by omega), pure_bind, convertTo64_of_le (by omega), pure_bind]
  · intro hbelow
    exact absurd hreached (not_lt.mpr hbelow)
  · intro _
    refine ⟨?_, rfl⟩
    dsimp only
    omega
  · dsimp only
    omega

/-- Where everything exists already and the participation is worth a token, the calculation divides
    by zero. -/
lemma limited_full (hfull : a.totalTokens = maxInt64) (hworth : 0 < a.whole) :
    a.limited = throw (.throws "Division by zero") := by
  unfold limited
  rw [hfull, Int.toNat_natCast, limitTokens_of_full (by omega)]
  rfl

/-- The crowdsale arithmetic is exact, and fails only for a time before 1970 and for a participation
    that is worth a token when all tokens exist already. -/
theorem calculateFundraiser_exact_iff (a : FundraiserArgs) (s : Ledger) :
    a.calculate256 = a.calculate ∧
      ((∃ tokens, a.calculate256.run s = .ok (tokens, s) ∧ a.Exact tokens) ↔
        (a.fundraiserSecs ≤ a.currentSecs ∨ 0 ≤ a.currentSecs) ∧
          (a.totalTokens < maxInt64 ∨ a.tokenParts < 10 ^ 20)) := by
  refine ⟨calculate256_eq_calculate, ?_, ?_⟩
  · rintro ⟨tokens, hrun, -⟩
    have htime : TimeInRange a.fundraiserSecs a.currentSecs := by
      by_contra hnegative
      obtain ⟨e, he, -⟩ := calculate256_of_negative hnegative
      rw [he] at hrun
      cases hrun
    refine ⟨htime, ?_⟩
    by_contra! hfull
    have hworth : 0 < a.whole := by
      have := not_congr a.whole_eq_zero_iff
      omega
    rw [calculate256_eq htime, limited_full (le_antisymm a.total_range.2 hfull.1) hworth] at hrun
    cases hrun
  · rintro ⟨htime, hroom⟩
    obtain ⟨tokens, htokens, hexact⟩ : ∃ tokens, a.limited = pure tokens ∧ a.Exact tokens := by
      by_cases hbelow : a.totalTokens + a.whole + (a.whole * a.issuerPerc / 100 : Nat) ≤ maxInt64
      · exact limited_below hbelow
      · rcases hroom with hroom | hsmall
        · exact limited_reached hroom (not_le.mp hbelow)
        · -- nothing is created, and the total is not above the limit
          have hnone : a.whole = 0 := whole_eq_zero_iff.mpr hsmall
          rw [hnone] at hbelow
          have htotal := a.total_range.2
          omega
    refine ⟨tokens, ?_, hexact⟩
    rw [calculate256_eq htime, htokens]
    rfl

/-- One unit is sent at one token each when all tokens exist. -/
def fullSale : FundraiserArgs where
  inflateAmount := true
  amtTransfer := 1
  bonusPerc := 0
  fundraiserSecs := 0
  currentSecs := 0
  numProps := 1
  issuerPerc := 0
  totalTokens := 9223372036854775807
  amount_range := by decide
  numProps_range := by decide
  total_range := by decide
  deadline_range := by decide
  time_range := by decide
  bonus_byte := by decide
  issuer_byte := by decide

/-- A participation in a crowdsale whose tokens all exist divides by zero. -/
theorem calculateFundraiser_divides_by_zero :
    ¬∃ (s : Ledger) (tokens : _), fullSale.calculate256.run s = .ok (tokens, s) ∧
      fullSale.Exact tokens := by
  rintro ⟨s, tokens, hrun, -⟩
  have hworth : 0 < fullSale.whole := by decide
  rw [calculate256_eq (.inl (le_refl _)), limited_full rfl hworth] at hrun
  cases hrun

end FundraiserArgs

end Tecracoin.Elysium
