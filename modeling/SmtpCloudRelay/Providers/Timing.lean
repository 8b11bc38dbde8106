/-
  THE TIME OF A SUBMISSION: the pauses of the two providers, and the budget that has to cover them.

  Three packages double a delay on their own: `acs.retryBackoff`, the SDK's `BackoffDelay` of `ses`, and
  `retryBackoffTotal` of the factory, which adds the pauses up.  All of them work in 64 bits, where a
  product or a sum that is too large WRAPS, and all of them test before they compute.

  To say that nothing wraps, the operations of this module are CHECKED: `int64` is the result of an
  operation, or nothing where it does not fit, and a function that returns `some` has not met an
  overflow on its way.

  1. Both pauses are `base * 2^(i-1)`, cut off at the largest duration (`doubled_eq`).
  2. The factory's total and its budget are the sums of these, cut off as well
     (`backoffTotal_eq`, `sendTimeout_eq`), with the check and without.
  3. So a call that makes all its attempts and all its pauses fits in the budget
     (`retries_fit_send_timeout`).
-/
import SmtpCloudRelay.Providers.Factory
import Mathlib.Algebra.BigOperators.Group.Finset.Basic
import Mathlib.Algebra.Order.BigOperators.Group.Finset
import Mathlib.Algebra.Order.GroupWithZero.Basic

namespace SmtpCloudRelay

open Go Lib

/-! ## Checked arithmetic -/

/-- The result of a 64-bit operation, or nothing where it overflows. -/
def int64 (n : Int) : Option Int := if -maxDuration - 1 ≤ n ∧ n ≤ maxDuration then some n else none

theorem int64_of {n : Int} (h0 : 0 ≤ n) (hmax : n ≤ maxDuration) : int64 n = some n := by
  unfold int64
  have hmin : -maxDuration - 1 ≤ 0 := by decide
  exact if_pos ⟨by omega, hmax⟩

/-- A positive 64-bit number. -/
structure Positive64 (n : Int) : Prop where
  pos : 0 < n
  le : n ≤ maxDuration

/-! ## The pauses -/

/-- The loop that both providers have: double `i` times, and stop at the largest duration. -/
def doubled : Nat → Int → Option Int
  | 0, backoff => some backoff
  | i + 1, backoff =>
    if maxDuration / 2 < backoff then some maxDuration
    else do
      let next ← int64 (backoff * 2)
      doubled i next

/-- `acs.retryBackoff`. -/
def Acs.retryBackoff (base attempt : Int) : Option Int :=
  if attempt ≤ 1 ∨ base ≤ 0 then some base else doubled (attempt - 1).toNat base

/-- `ses.defaultRetryBaseDelay`. -/
def Ses.defaultRetryBaseDelay : Int := second

/-- `ses.exponentialBackoff.BackoffDelay`. -/
def Ses.backoffDelay (base attempt : Int) : Option Int :=
  if base ≤ 0 then some Ses.defaultRetryBaseDelay
  else if attempt ≤ 1 then some base
  else doubled (attempt - 1).toNat base

/-- The pause after attempt `i + 1`: the base delay doubled `i` times, at most the largest duration. -/
def pauseAfter (base : Int) (i : Nat) : Int := min maxDuration (base * 2 ^ i)

theorem pauseAfter_zero {base : Int} (h : base ≤ maxDuration) : pauseAfter base 0 = base := by
  unfold pauseAfter
  omega

theorem pauseAfter_nonneg {base : Int} (h : 0 < base) (i : Nat) : 0 ≤ pauseAfter base i := by
  have hpow : (0 : Int) < 2 ^ i := pow_pos (by decide) i
  have hprod : 0 < base * 2 ^ i := Int.mul_pos h hpow
  have hmax : 0 < maxDuration := by decide
  unfold pauseAfter
  omega

/-- A base delay that is above half of the largest duration. -/
theorem pauseAfter_succ_of_large {base : Int} (h : maxDuration / 2 < base) (i : Nat) :
    pauseAfter base (i + 1) = maxDuration := by
  have hpos : 0 < maxDuration / 2 := by decide
  have hodd : maxDuration < 2 * (maxDuration / 2 + 1) := by decide
  have hpow : (1 : Int) ≤ 2 ^ i := one_le_pow₀ (by decide)
  have hprod : base * 2 ≤ base * 2 ^ (i + 1) := by
    rw [pow_succ']
    exact Int.mul_le_mul_of_nonneg_left (by omega) (by omega)
  unfold pauseAfter
  omega

/-- Doubling the base delay is one more round. -/
theorem pauseAfter_double (base : Int) (i : Nat) :
    pauseAfter (min maxDuration (base * 2)) i = pauseAfter base (i + 1) := by
  have hpow : (1 : Int) ≤ 2 ^ i := one_le_pow₀ (by decide)
  have hmax : (0 : Int) < maxDuration := by decide
  unfold pauseAfter
  rw [pow_succ', ← mul_assoc]
  rcases le_total (base * 2) maxDuration with h | h
  · rw [min_eq_right h]
  · -- both sides are cut off
    rw [min_eq_left h]
    have h1 : maxDuration * 1 ≤ maxDuration * 2 ^ i := Int.mul_le_mul_of_nonneg_left hpow hmax.le
    have h2 : maxDuration * 2 ^ i ≤ base * 2 * 2 ^ i := Int.mul_le_mul_of_nonneg_right h (by omega)
    omega

/-- **The loop doubles without an overflow.** -/
theorem doubled_eq {base : Int} (h : Positive64 base) (i : Nat) :
    doubled i base = some (pauseAfter base i) := by
  induction i generalizing base with
  | zero => rw [pauseAfter_zero h.le]; rfl
  | succ i ih =>
    unfold doubled
    split
    · rename_i hlarge
      rw [pauseAfter_succ_of_large hlarge]
    · rename_i hsmall
      have hhalf : 2 * (maxDuration / 2) ≤ maxDuration := by decide
      have hpos := h.pos
      have hle : base * 2 ≤ maxDuration := by omega
      rw [int64_of (by omega) hle]
      show doubled i (base * 2) = _
      rw [ih ⟨by omega, hle⟩, ← pauseAfter_double, min_eq_right hle]

theorem retryBackoff_eq {base i : Int} (h : Positive64 base) (hi : 1 ≤ i) :
    Acs.retryBackoff base i = some (pauseAfter base (i - 1).toNat) := by
  have hpos := h.pos
  unfold Acs.retryBackoff
  split
  · have hone : i = 1 := by omega
    rw [hone]
    exact (congrArg some (pauseAfter_zero h.le)).symm
  · exact doubled_eq h _

theorem backoffDelay_eq {base i : Int} (h : Positive64 base) (hi : 1 ≤ i) :
    Ses.backoffDelay base i = some (pauseAfter base (i - 1).toNat) := by
  have hpos := h.pos
  unfold Ses.backoffDelay
  rw [if_neg (by omega)]
  split
  · have hone : i = 1 := by omega
    rw [hone]
    exact (congrArg some (pauseAfter_zero h.le)).symm
  · exact doubled_eq h _

/-! ## The budget -/

namespace Providers

/-- `retryBackoffTotal`, checked. -/
def retryBackoffTotal64 (base attempts : Int) : Option Int := backoffTotal int64 base attempts

/-- `runtimeSendTimeout`, checked. -/
def runtimeSendTimeout64 (httpTimeout baseDelay attempts : Int) : Option Int :=
  sendTimeout int64 httpTimeout baseDelay attempts

/-- The sum of the first pauses. -/
def pauses (base : Int) (count : Nat) : Int := ∑ i ∈ Finset.range count, pauseAfter base i

theorem pauses_nonneg {base : Int} (h : 0 < base) (count : Nat) : 0 ≤ pauses base count :=
  Finset.sum_nonneg fun i _ => pauseAfter_nonneg h i

/-- The first pause, and then those of the doubled delay. -/
theorem pauses_succ {base : Int} (h : base ≤ maxDuration) (count : Nat) :
    pauses base (count + 1) = base + pauses (min maxDuration (base * 2)) count := by
  unfold pauses
  rw [Finset.sum_range_succ', pauseAfter_zero h, Int.add_comm]
  simp only [pauseAfter_double]

section Budget

/-- A reading of the arithmetic under which what fits in 64 bits is left as it is. -/
def Exact {m : Type → Type} [Monad m] (fit : Int → m Int) : Prop :=
  ∀ n, 0 ≤ n → n ≤ maxDuration → fit n = pure n

theorem exact_pure : Exact (m := Id) pure := fun _ _ _ => rfl

theorem exact_int64 : Exact int64 := fun _ => int64_of

variable {m : Type → Type} [Monad m] {fit : Int → m Int}

theorem nextBackoff_eq (hfit : Exact fit) {backoff : Int} (hb : Positive64 backoff) :
    nextBackoff fit backoff = pure (min maxDuration (backoff * 2)) := by
  have hodd : maxDuration = 2 * (maxDuration / 2) + 1 := by decide
  have hpos := hb.pos
  unfold nextBackoff
  split
  · rw [min_eq_left (by omega)]
  · rw [hfit _ (by omega) (by omega), min_eq_right (by omega)]

variable [LawfulMonad m]

/-- **Adding saturates**: the sum of numbers that are not negative, cut off once. -/
theorem saturatingAdd_eq (hfit : Exact fit) {total : Int} (values : List Int) (h0 : 0 ≤ total)
    (hmax : total ≤ maxDuration) (hvalues : ∀ v ∈ values, 0 ≤ v ∧ v ≤ maxDuration) :
    saturatingAdd fit total values = pure (min maxDuration (total + values.sum)) := by
  induction values generalizing total with
  | nil => rw [saturatingAdd, List.sum_nil, Int.add_zero, min_eq_right hmax]
  | cons v values ih =>
    obtain ⟨⟨hv, hvmax⟩, hrest⟩ := List.forall_mem_cons.mp hvalues
    have hsum : 0 ≤ values.sum := List.sum_nonneg fun u hu => (hrest u hu).1
    rw [List.sum_cons, saturatingAdd]
    by_cases hzero : v ≤ 0
    · -- a zero is skipped
      have hv0 : v = 0 := by omega
      rw [if_pos hzero, hv0, Int.zero_add]
      exact ih h0 hmax hrest
    · rw [if_neg hzero, hfit (maxDuration - v) (by omega) (by omega), pure_bind]
      by_cases hfull : maxDuration - v < total
      · rw [if_pos hfull, min_eq_left (by omega)]
      · have hle : total + v ≤ maxDuration := by omega
        rw [if_neg hfull, hfit (total + v) (by omega) hle, pure_bind, ih (by omega) hle hrest,
          Int.add_assoc]

/-- **Multiplying saturates.** -/
theorem multiplyDuration_eq (hfit : Exact fit) {d n : Int} (hd : Positive64 d) (hn : Positive64 n) :
    multiplyDuration fit d n = pure (min maxDuration (n * d)) := by
  have hdpos := hd.pos
  have hnpos := hn.pos
  have hquot : 0 ≤ maxDuration / n := Int.ediv_nonneg (by decide) hnpos.le
  rw [multiplyDuration, if_neg (by omega), hfit _ hquot (Int.ediv_le_self _ (by decide)), pure_bind,
    Int.mul_comm n]
  by_cases hfull : maxDuration / n < d
  · have hover : maxDuration < d * n := (Int.ediv_lt_iff_lt_mul hnpos).mp hfull
    rw [if_pos hfull, min_eq_left hover.le]
  · have hle : d * n ≤ maxDuration := (Int.le_ediv_iff_mul_le hnpos).mp (not_lt.mp hfull)
    rw [if_neg hfull, hfit _ (Int.mul_nonneg hdpos.le hnpos.le) hle, min_eq_right hle]

/-- **The loop adds the pauses up.** -/
theorem backoffSum_eq (hfit : Exact fit) {total backoff : Int} (h0 : 0 ≤ total)
    (hmax : total ≤ maxDuration) (hb : Positive64 backoff) (i : Nat) :
    backoffSum fit total backoff i = pure (min maxDuration (total + pauses backoff i)) := by
  induction i generalizing total backoff with
  | zero =>
    show pure total = pure (min maxDuration (total + 0))
    rw [Int.add_zero, min_eq_right hmax]
  | succ i ih =>
    have hpos := hb.pos
    have hle := hb.le
    have hadd : saturatingAdd fit 0 [total, backoff] = pure (min maxDuration (total + backoff)) := by
      rw [saturatingAdd_eq hfit _ (Int.le_refl 0) (by decide)
        (List.forall_mem_cons.mpr ⟨⟨h0, hmax⟩, List.forall_mem_singleton.mpr ⟨hpos.le, hle⟩⟩)]
      simp
    have hmaxpos : 0 < maxDuration := by decide
    have hdouble : Positive64 (min maxDuration (backoff * 2)) := ⟨by omega, by omega⟩
    have hrest := pauses_nonneg hdouble.pos i
    rw [backoffSum, hadd, pure_bind, nextBackoff_eq hfit hb, pure_bind,
      ih (by omega) (by omega) hdouble, pauses_succ hle]
    congr 1
    omega

/-- **The total of the pauses** between `n` attempts. -/
theorem backoffTotal_eq (hfit : Exact fit) {base n : Int} (hb : Positive64 base) (hn : 1 ≤ n) :
    backoffTotal fit base n = pure (min maxDuration (pauses base (n - 1).toNat)) := by
  have hpos := hb.pos
  unfold backoffTotal
  split
  · have hone : n = 1 := by omega
    rw [hone]
    rfl
  · rw [backoffSum_eq hfit (Int.le_refl 0) (by decide) hb, Int.zero_add]

/-- **The budget of a submission.** -/
theorem sendTimeout_eq (hfit : Exact fit) {h b n : Int} (hh : Positive64 h) (hb : Positive64 b)
    (hn : Positive64 n) : sendTimeout fit h b n =
      pure (min maxDuration (n * h + pauses b (n - 1).toNat + 2 * second)) := by
  have hnpos := hn.pos
  have hprod : 0 ≤ n * h := Int.mul_nonneg hn.pos.le hh.pos.le
  have hpauses := pauses_nonneg hb.pos (n - 1).toNat
  have hmax : 0 < maxDuration := by decide
  have htwo : 0 ≤ 2 * second ∧ 2 * second ≤ maxDuration := by decide
  rw [sendTimeout, multiplyDuration_eq hfit hh hn, pure_bind, backoffTotal_eq hfit hb (by omega),
    pure_bind, saturatingAdd_eq hfit _ (Int.le_refl 0) hmax.le]
  · simp only [List.sum_cons, List.sum_nil]
    congr 1
    omega
  · simp only [List.forall_mem_cons, List.not_mem_nil, false_imp_iff, implies_true, and_true]
    omega

end Budget

/-! ## A call within its budget -/

/-- The time of a call from attempt `i` on: what the attempts take, and a pause after each but the
    last. -/
def callTime (pause : Nat → Int) : Nat → List Int → Int
  | _, [] => 0
  | i, d :: ds => d + (if ds = [] then 0 else pause i) + callTime pause (i + 1) ds

/-- Attempts that take at most `h` each, and the pauses between them. -/
theorem callTime_le {pause : Nat → Int} {h b : Int} (hpause : ∀ i, pause (i + 1) = pauseAfter b i)
    (i : Nat) (ds : List Int) (hds : ∀ d ∈ ds, d ≤ h) :
    callTime pause (i + 1) ds ≤
      ds.length * h + ∑ j ∈ Finset.range (ds.length - 1), pauseAfter b (i + j) := by
  induction ds generalizing i with
  | nil => simp [callTime]
  | cons d ds ih =>
    have hd : d ≤ h := hds d (List.mem_cons_self ..)
    have hrest := ih (i + 1) fun d' hd' => hds d' (List.mem_cons_of_mem _ hd')
    unfold callTime
    cases ds with
    | nil =>
      have hnil : callTime pause (i + 1 + 1) [] = 0 := rfl
      rw [if_pos rfl, hnil]
      simp
      omega
    | cons d' ds =>
      rw [if_neg (List.cons_ne_nil _ _), hpause]
      have hlen : (d :: d' :: ds).length - 1 = ((d' :: ds).length - 1) + 1 := rfl
      have hcount : (((d :: d' :: ds).length : Nat) : Int) * h = (d' :: ds).length * h + h := by
        rw [List.length_cons (a := d), Nat.cast_succ, Int.add_mul, Int.one_mul]
      rw [hlen, Finset.sum_range_succ', hcount]
      have hshift : ∀ j, pauseAfter b (i + (j + 1)) = pauseAfter b (i + 1 + j) := fun j => by
        rw [Nat.add_right_comm, Nat.add_assoc]
      simp only [hshift, Nat.add_zero]
      omega

/-- More attempts do not take less. -/
theorem pauses_mono {b : Int} (hb : 0 < b) {k m : Nat} (h : k ≤ m) : pauses b k ≤ pauses b m :=
  Finset.sum_le_sum_of_subset_of_nonneg (Finset.range_mono h) fun i _ _ => pauseAfter_nonneg hb i

/-- **The submit deadline covers the provider's own retries.** -/
theorem retries_fit_send_timeout {h b n : Int} (hh : Positive64 h) (hb : Positive64 b)
    (hn : Positive64 n) :
    (∀ i, 1 ≤ i → Acs.retryBackoff b i = some (min maxDuration (b * 2 ^ (i - 1).toNat)) ∧
      Ses.backoffDelay b i = some (min maxDuration (b * 2 ^ (i - 1).toNat))) ∧
    retryBackoffTotal64 b n = some (min maxDuration
      (∑ i ∈ Finset.range (n - 1).toNat, min maxDuration (b * 2 ^ i))) ∧
    runtimeSendTimeout64 h b n = some (min maxDuration
      (n * h + ∑ i ∈ Finset.range (n - 1).toNat, min maxDuration (b * 2 ^ i) + 2 * second)) ∧
    retryBackoffTotal64 b n = some (retryBackoffTotal b n) ∧
    runtimeSendTimeout64 h b n = some (runtimeSendTimeout h b n) ∧
    ∀ (pause : Nat → Int) (attempts : List Int),
      (∀ i : Nat, 1 ≤ i → Acs.retryBackoff b i = some (pause i) ∨
        Ses.backoffDelay b i = some (pause i)) →
      attempts.length ≤ n → (∀ d ∈ attempts, d ≤ h) →
      n * h + ∑ i ∈ Finset.range (n - 1).toNat, min maxDuration (b * 2 ^ i) ≤ maxDuration →
      callTime pause 1 attempts ≤ runtimeSendTimeout h b n := by
  have hnpos := hn.pos
  have htotal64 : retryBackoffTotal64 b n = _ := backoffTotal_eq exact_int64 hb (by omega)
  have htotal : retryBackoffTotal b n = _ := backoffTotal_eq exact_pure hb (by omega)
  have hsend64 : runtimeSendTimeout64 h b n = _ := sendTimeout_eq exact_int64 hh hb hn
  have hsend : runtimeSendTimeout h b n =
      min maxDuration (n * h + pauses b (n - 1).toNat + 2 * second) := sendTimeout_eq exact_pure hh hb hn
  refine ⟨fun i hi => ⟨retryBackoff_eq hb hi, backoffDelay_eq hb hi⟩, htotal64, hsend64,
    htotal64.trans (congrArg some htotal.symm), hsend64.trans (congrArg some hsend.symm),
    fun pause attempts hpause hlen hattempts hfits => ?_⟩
  have hall : ∀ i, pause (i + 1) = pauseAfter b i := by
    intro i
    have hi : (1 : Int) ≤ ((i + 1 : Nat) : Int) := by omega
    have htoNat : (((i + 1 : Nat) : Int) - 1).toNat = i := by omega
    have hone := retryBackoff_eq hb hi
    have htwo := backoffDelay_eq hb hi
    rw [htoNat] at hone htwo
    rcases hpause (i + 1) (by omega) with hp | hp
    · exact Option.some.inj (hp.symm.trans hone)
    · exact Option.some.inj (hp.symm.trans htwo)
  have htime := callTime_le hall 0 attempts hattempts
  simp only [Nat.zero_add] at htime
  have hcount : (attempts.length : Int) * h ≤ n * h := Int.mul_le_mul_of_nonneg_right hlen hh.pos.le
  have hpauses : pauses b (attempts.length - 1) ≤ pauses b (n - 1).toNat :=
    pauses_mono hb.pos (by omega)
  have hfits : n * h + pauses b (n - 1).toNat ≤ maxDuration := hfits
  have htime : callTime pause 1 attempts ≤ attempts.length * h + pauses b (attempts.length - 1) := htime
  have htwo : 0 ≤ 2 * second := by decide
  rw [hsend]
  omega

/-- Three attempts of a second with pauses of one and two seconds. -/
theorem retries_fit_send_timeout_three :
    callTime (fun i => pauseAfter second (i - 1)) 1 [second, second, second] = 6 * second ∧
    callTime (fun i => pauseAfter second (i - 1)) 1 [second, second, second] ≤
      runtimeSendTimeout second second 3 := by
  refine ⟨by decide, (retries_fit_send_timeout (h := second) (b := second) (n := 3) ⟨by decide, by decide⟩
    ⟨by decide, by decide⟩ ⟨by decide, by decide⟩).2.2.2.2.2 _ _ (fun i hi => Or.inl ?_) (by decide)
    (by decide) (by decide)⟩
  have hi' : (1 : Int) ≤ i := by omega
  rw [retryBackoff_eq ⟨by decide, by decide⟩ hi']
  congr 2
  omega

end Providers

end SmtpCloudRelay
