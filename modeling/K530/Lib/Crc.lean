import Mathlib.Algebra.CharP.Two
import Mathlib.Algebra.Field.ZMod
import Mathlib.Algebra.Polynomial.FieldDivision
import Mathlib.Data.List.GetD
import Mathlib.RingTheory.Coprime.Lemmas
import Mathlib.RingTheory.PrincipalIdealDomain
import Mathlib.Tactic.LinearCombination

/-!
# Cyclic Redundancy Checks

A check value is the remainder of a message, read as a polynomial with
coefficients zero and one, by a generator polynomial. The register that
computes it holds the remainder of what came in so far: a symbol is added to
it, and the sum is multiplied by `X` once for each bit of the symbol, reduced
at once whenever it outgrows the register.

The register is `remainder`, over bit vectors, and `toPoly_remainder` says what
is in it. From there on everything is polynomial division. Two generators of
one degree give a message the same check value exactly when its remainder by
their least common multiple already fits below that degree: a common remainder
is a remainder by the multiple, and the other way round.

And two messages of one length have one check value exactly when the generator
divides the message of their differences. If the differences lie close together
that is a short polynomial, multiplied by `X` some times, and a generator with a
last term divides it only if it is zero.

## Main definitions

* `toPoly`: The polynomial a bit vector stands for.
* `modulus`: The generator a register reduces by.
* `shift`: Multiply by `X` and reduce.
* `feed`: Take a symbol in.
* `remainder`: The register after a message.
* `message`: The polynomial a message stands for.
* `bitAt`: A bit of a message, in the order in which the register takes them.

## Theorems

* `toPoly_injective`: A bit vector is its polynomial.
* `toPoly_shift`: What a shift does.
* `toPoly_remainder`: The register holds the remainder of the message.
* `modByMonic_eq_iff`: When two remainders agree.
* `dvd_of_coprime`: The least common multiple of two multiples of one factor.
* `remainder_eq_iff`: When two check values agree.
* `coeff_message`: The coefficients of a message are its bits.
* `message_add`: The differences of two messages.
* `eq_zero_of_burst`: A short polynomial the generator divides.
* `remainder_ne_of_burst`: Differences that lie close together are noticed.
-/

namespace Crc

open Polynomial

variable {w v : Nat}

/-- The polynomial whose coefficients are the bits of a vector. -/
noncomputable def toPoly (x : BitVec w) : (ZMod 2)[X] :=
  ∑ i ∈ Finset.range w, if x.getLsbD i then X ^ i else 0

theorem coeff_toPoly (x : BitVec w) (n : Nat) :
    (toPoly x).coeff n = if x.getLsbD n then 1 else 0 := by
  unfold toPoly
  rw [finsetSum_coeff]
  have hterm : ∀ i ∈ Finset.range w,
      (if x.getLsbD i then (X ^ i : (ZMod 2)[X]) else 0).coeff n =
        if i = n then (if x.getLsbD n then 1 else 0) else 0 := by
    intro i _
    by_cases hin : i = n
    · subst hin
      split <;> simp
    · rw [if_neg hin]
      split <;> simp [coeff_X_pow, Ne.symm hin]
  rw [Finset.sum_congr rfl hterm, Finset.sum_ite_eq']
  by_cases hn : n < w
  · rw [if_pos (Finset.mem_range.mpr hn)]
  · rw [if_neg (by simpa using hn), BitVec.getLsbD_of_ge x n (Nat.not_lt.mp hn)]
    rfl

theorem toPoly_injective {x y : BitVec w} (h : toPoly x = toPoly y) : x = y := by
  refine BitVec.eq_of_getLsbD_eq (fun i _ => ?_)
  have hcoeff := congrArg (fun p => p.coeff i) h
  simp only [coeff_toPoly] at hcoeff
  cases hx : x.getLsbD i <;> cases hy : y.getLsbD i <;> simp_all

theorem toPoly_xor (x y : BitVec w) : toPoly (x ^^^ y) = toPoly x + toPoly y := by
  ext n
  rw [coeff_add, coeff_toPoly, coeff_toPoly, coeff_toPoly, BitVec.getLsbD_xor]
  cases x.getLsbD n <;> cases y.getLsbD n <;> decide

theorem toPoly_setWidth (h : w ≤ v) (x : BitVec w) : toPoly (x.setWidth v) = toPoly x := by
  ext n
  rw [coeff_toPoly, coeff_toPoly, BitVec.getLsbD_setWidth]
  by_cases hn : n < v
  · rw [decide_eq_true hn, Bool.true_and]
  · rw [BitVec.getLsbD_of_ge x n (by omega), Bool.and_false]

theorem degree_toPoly_lt_iff (x : BitVec w) (k : Nat) :
    (toPoly x).degree < k ↔ x.toNat < 2 ^ k := by
  rw [degree_lt_iff_coeff_zero]
  constructor
  · intro h
    refine Nat.lt_pow_two_of_testBit _ (fun i hi => ?_)
    have hzero := h i hi
    rw [coeff_toPoly] at hzero
    by_contra hbit
    rw [Bool.not_eq_false, ← BitVec.getLsbD] at hbit
    rw [if_pos hbit] at hzero
    exact absurd hzero one_ne_zero
  · intro h i hi
    rw [coeff_toPoly, BitVec.getLsbD, Nat.testBit_lt_two_pow]
    · rfl
    · exact h.trans_le (Nat.pow_le_pow_right (by omega) hi)

theorem degree_toPoly_lt (x : BitVec w) : (toPoly x).degree < w :=
  (degree_toPoly_lt_iff x w).mpr x.isLt

/-- The generator of a register: its polynomial below the leading term. -/
noncomputable def modulus (p : BitVec w) : (ZMod 2)[X] :=
  X ^ w + toPoly p

variable (p : BitVec w)

theorem modulus_monic : (modulus p).Monic :=
  monic_X_pow_add (degree_toPoly_lt p)

theorem degree_modulus : (modulus p).degree = w := by
  unfold modulus
  rw [degree_add_eq_left_of_degree_lt, degree_X_pow]
  rw [degree_X_pow]
  exact degree_toPoly_lt p

/-- Multiply by `X`, and subtract the generator if the product outgrows the
    register. -/
def shift (p r : BitVec w) : BitVec w :=
  if r.msb then (r <<< 1) ^^^ p else r <<< 1

theorem toPoly_shiftLeft (r : BitVec w) :
    X * toPoly r = toPoly (r <<< 1) + if r.msb then X ^ w else 0 := by
  ext n
  have hcarry : (if r.msb then (X ^ w : (ZMod 2)[X]) else 0).coeff n =
      if n = w ∧ r.msb then 1 else 0 := by
    split <;> simp_all [coeff_X_pow]
  rw [coeff_add, hcarry, coeff_toPoly, BitVec.getLsbD_shiftLeft, BitVec.msb_eq_getLsbD_last]
  cases n with
  | zero =>
    rw [coeff_X_mul_zero]
    -- a register without bits has no leading one
    rcases Nat.eq_zero_or_pos w with rfl | hw
    · simp [BitVec.getLsbD_of_ge]
    · simp [hw.ne]
  | succ n =>
    rw [coeff_X_mul, coeff_toPoly]
    rcases Nat.lt_trichotomy (n + 1) w with hlt | heq | hgt
    · simp [hlt, hlt.ne]
    · simp [← heq]
    · rw [BitVec.getLsbD_of_ge r n (by omega)]
      simp [hgt.ne', show ¬ n + 1 < w by omega]

theorem toPoly_shift (p r : BitVec w) : toPoly (shift p r) = (X * toPoly r) %ₘ modulus p := by
  refine ((div_modByMonic_unique (if r.msb then 1 else 0) _ (modulus_monic p) ⟨?_, ?_⟩).2).symm
  · rw [toPoly_shiftLeft]
    unfold shift modulus
    split
    · -- the generator is added and subtracted, which is the same here
      rw [toPoly_xor]
      linear_combination (toPoly p) * CharTwo.two_eq_zero (R := (ZMod 2)[X])
    · rw [mul_zero, add_zero]
  · rw [degree_modulus]
    exact degree_toPoly_lt _

/-- Take a symbol in: add it, and shift once for each of its bits. -/
def feed (p : BitVec w) (r : BitVec w) (symbol : BitVec v) : BitVec w :=
  (shift p)^[v] (r ^^^ symbol.setWidth w)

/-- The register after a message. -/
def remainder (p : BitVec w) (r : BitVec w) (symbols : List (BitVec v)) : BitVec w :=
  symbols.foldl (feed p) r

/-- The polynomial a message stands for, after what is in front of it. -/
noncomputable def message (m : (ZMod 2)[X]) (symbols : List (BitVec v)) : (ZMod 2)[X] :=
  symbols.foldl (fun m symbol => X ^ v * (m + toPoly symbol)) m

theorem mul_modByMonic_modByMonic {Q : (ZMod 2)[X]} (hQ : Q.Monic) (a m : (ZMod 2)[X]) :
    (a * (m %ₘ Q)) %ₘ Q = (a * m) %ₘ Q := by
  refine modByMonic_eq_of_dvd_sub hQ ?_
  rw [← mul_sub]
  exact Dvd.dvd.mul_left (dvd_modByMonic_sub m Q) a

theorem toPoly_shifts (n : Nat) (r : BitVec w) :
    toPoly ((shift p)^[n] r) = (X ^ n * toPoly r) %ₘ modulus p := by
  induction n with
  | zero =>
    rw [pow_zero, one_mul]
    refine ((modByMonic_eq_self_iff (modulus_monic p)).mpr ?_).symm
    rw [degree_modulus]
    exact degree_toPoly_lt r
  | succ n ih =>
    rw [Function.iterate_succ_apply', toPoly_shift, ih, pow_succ', mul_assoc]
    exact mul_modByMonic_modByMonic (modulus_monic p) X _

theorem toPoly_remainder (h : v ≤ w) (symbols : List (BitVec v)) :
    ∀ (r : BitVec w) (m : (ZMod 2)[X]), toPoly r = m %ₘ modulus p →
      toPoly (remainder p r symbols) = message m symbols %ₘ modulus p := by
  induction symbols with
  | nil =>
    intro r m hr
    exact hr
  | cons symbol symbols ih =>
    intro r m hr
    refine ih _ _ ?_
    unfold feed
    rw [toPoly_shifts, toPoly_xor, toPoly_setWidth h, hr]
    refine modByMonic_eq_of_dvd_sub (modulus_monic p) ?_
    rw [← mul_sub, add_sub_add_right_eq_sub]
    exact Dvd.dvd.mul_left (dvd_modByMonic_sub m (modulus p)) _

theorem modByMonic_eq_iff {P Q L : (ZMod 2)[X]} (hP : P.Monic) (hQ : Q.Monic) (hL : L.Monic)
    (hdegree : P.degree = Q.degree) (hPL : P ∣ L) (hQL : Q ∣ L)
    (hleast : ∀ M, P ∣ M → Q ∣ M → L ∣ M) (m : (ZMod 2)[X]) :
    m %ₘ P = m %ₘ Q ↔ (m %ₘ L).degree < P.degree := by
  have hreduce : ∀ D : (ZMod 2)[X], D.Monic → D ∣ L → m %ₘ D = (m %ₘ L) %ₘ D := by
    intro D hD hDL
    refine modByMonic_eq_of_dvd_sub hD (hDL.trans ?_)
    rw [← neg_sub, dvd_neg]
    exact dvd_modByMonic_sub m L
  constructor
  · intro h
    -- the common remainder is a remainder by the multiple
    have hboth : L ∣ m - m %ₘ P := by
      refine hleast _ ?_ ?_
      · rw [← neg_sub, dvd_neg]
        exact dvd_modByMonic_sub m P
      · rw [h, ← neg_sub, dvd_neg]
        exact dvd_modByMonic_sub m Q
    have hshort : (m %ₘ P).degree < P.degree := degree_modByMonic_lt m hP
    have hsmaller : (m %ₘ P).degree < L.degree :=
      hshort.trans_le (degree_le_of_dvd hPL hL.ne_zero)
    rw [modByMonic_eq_of_dvd_sub hL hboth, (modByMonic_eq_self_iff hL).mpr hsmaller]
    exact hshort
  · intro h
    rw [hreduce P hP hPL, hreduce Q hQ hQL, (modByMonic_eq_self_iff hP).mpr h,
      (modByMonic_eq_self_iff hQ).mpr (hdegree ▸ h)]

theorem dvd_of_coprime {g a b : (ZMod 2)[X]} (hg : g ≠ 0) (hab : IsCoprime a b)
    {M : (ZMod 2)[X]} (ha : g * a ∣ M) (hb : g * b ∣ M) : g * (a * b) ∣ M := by
  obtain ⟨c, rfl⟩ := dvd_of_mul_right_dvd ha
  exact mul_dvd_mul_left g (hab.mul_dvd ((mul_dvd_mul_iff_left hg).mp ha)
    ((mul_dvd_mul_iff_left hg).mp hb))

theorem remainder_eq_iff {u : Nat} (p q : BitVec w) (l : BitVec u) (hv : v ≤ w) (hwu : w ≤ u)
    (hp : modulus p ∣ modulus l) (hq : modulus q ∣ modulus l)
    (hleast : ∀ M, modulus p ∣ M → modulus q ∣ M → modulus l ∣ M) (r : BitVec w)
    (symbols : List (BitVec v)) :
    remainder p r symbols = remainder q r symbols ↔
      (remainder l (r.setWidth u) symbols).toNat < 2 ^ w := by
  have hstart : ∀ {n : Nat} (g : BitVec n), w ≤ n → toPoly (r.setWidth n) =
      toPoly r %ₘ modulus g := by
    intro n g hn
    rw [toPoly_setWidth hn]
    refine ((modByMonic_eq_self_iff (modulus_monic g)).mpr ?_).symm
    rw [degree_modulus]
    exact (degree_toPoly_lt r).trans_le (by exact_mod_cast hn)
  have hsame := fun g : BitVec w =>
    toPoly_remainder g hv symbols r (toPoly r) (by simpa using hstart g le_rfl)
  rw [← degree_toPoly_lt_iff, toPoly_remainder l (hv.trans hwu) symbols _ _ (hstart l hwu),
    ← degree_modulus p, ← modByMonic_eq_iff (modulus_monic p) (modulus_monic q)
      (modulus_monic l) ((degree_modulus p).trans (degree_modulus q).symm) hp hq hleast,
    ← hsame p, ← hsame q]
  exact ⟨congrArg toPoly, toPoly_injective⟩

/-- A bit of a message, in the order in which the register takes them: the symbols
    one after the other, and of each the highest bit first. -/
def bitAt (symbols : List (BitVec v)) (k : Nat) : Bool :=
  (symbols.getD (k / v) 0).getMsbD (k % v)

theorem message_concat (m : (ZMod 2)[X]) (symbols : List (BitVec v)) (symbol : BitVec v) :
    message m (symbols ++ [symbol]) = X ^ v * (message m symbols + toPoly symbol) :=
  List.foldl_concat _ _ _ _

theorem bitAt_append_left (l m : List (BitVec v)) (k : Nat) (h : k < v * l.length) :
    bitAt (l ++ m) k = bitAt l k := by
  unfold bitAt
  have hin : k / v < l.length := Nat.div_lt_of_lt_mul h
  rw [List.getD_append _ _ _ _ hin]

theorem bitAt_concat (l : List (BitVec v)) (symbol : BitVec v) (i : Nat) (h : i < v) :
    bitAt (l ++ [symbol]) (v * l.length + (v - 1 - i)) = symbol.getLsbD i := by
  unfold bitAt
  have hv : 0 < v := by omega
  rw [Nat.mul_add_div hv, Nat.mul_add_mod, Nat.div_eq_of_lt (by omega), Nat.add_zero,
    Nat.mod_eq_of_lt (by omega), List.getD_append_right _ _ _ _ (Nat.le_refl _), Nat.sub_self,
    List.getD_cons_zero, BitVec.getMsbD_eq_getLsbD, decide_eq_true (by omega), Bool.true_and]
  congr 1
  omega

theorem coeff_message (symbols : List (BitVec v)) :
    ∀ e, (message 0 symbols).coeff e =
      if v ≤ e ∧ e < v * symbols.length + v ∧
        bitAt symbols (v * symbols.length + v - 1 - e) = true then 1 else 0 := by
  induction symbols using List.reverseRecOn with
  | nil =>
    intro e
    have hnone : ¬ (v ≤ e ∧ e < v * ([] : List (BitVec v)).length + v ∧
        bitAt ([] : List (BitVec v)) (v * ([] : List (BitVec v)).length + v - 1 - e)) := by
      rw [List.length_nil, Nat.mul_zero]
      omega
    rw [if_neg hnone]
    exact coeff_zero e
  | append_singleton l symbol ih =>
    intro e
    have hlen : v * (l ++ [symbol]).length = v * l.length + v := by
      rw [List.length_append, List.length_singleton, Nat.mul_succ]
    rw [message_concat, hlen, mul_comm, coeff_mul_X_pow']
    by_cases hlow : v ≤ e
    · rw [if_pos hlow, coeff_add, ih, coeff_toPoly]
      by_cases hlast : e - v < v
      · -- a bit of the last symbol
        have hplace : v * l.length + v + v - 1 - e =
            v * l.length + (v - 1 - (e - v)) := by omega
        rw [if_neg (by omega), zero_add, hplace, bitAt_concat l symbol (e - v) hlast]
        congr 1
        apply propext
        constructor
        · intro h
          exact ⟨hlow, by omega, h⟩
        · intro h
          exact h.2.2
      · -- a bit of the symbols before it
        rw [BitVec.getLsbD_of_ge symbol (e - v) (by omega), if_neg Bool.false_ne_true, add_zero]
        have hplace : v * l.length + v + v - 1 - e = v * l.length + v - 1 - (e - v) := by omega
        rw [hplace]
        by_cases hhigh : e - v < v * l.length + v
        · rw [bitAt_append_left l [symbol] _ (by omega)]
          congr 1
          apply propext
          constructor
          · intro h
            exact ⟨hlow, by omega, h.2.2⟩
          · intro h
            exact ⟨by omega, hhigh, h.2.2⟩
        · rw [if_neg (by omega), if_neg (by omega)]
    · rw [if_neg hlow, if_neg (by omega)]

theorem message_add (as : List (BitVec v)) :
    ∀ (bs : List (BitVec v)) (m m' : (ZMod 2)[X]), as.length = bs.length →
      message m as + message m' bs = message (m + m') (as.zipWith (· ^^^ ·) bs) := by
  induction as with
  | nil =>
    intro bs m m' h
    rw [List.length_eq_zero_iff.mp h.symm]
    rfl
  | cons a as ih =>
    intro bs m m' h
    cases bs with
    | nil => exact absurd h (Nat.succ_ne_zero _)
    | cons b bs =>
      have hstep : message m (a :: as) + message m' (b :: bs) =
          message (X ^ v * (m + toPoly a)) as + message (X ^ v * (m' + toPoly b)) bs := rfl
      rw [hstep, ih bs _ _ (Nat.succ.inj h), ← mul_add, add_add_add_comm, ← toPoly_xor]
      rfl

theorem bitAt_zipWith_xor (as bs : List (BitVec v)) (h : as.length = bs.length) (k : Nat) :
    bitAt (as.zipWith (· ^^^ ·) bs) k = (bitAt as k ^^ bitAt bs k) := by
  unfold bitAt
  rw [← BitVec.getMsbD_xor]
  congr 1
  simp only [List.getD_eq_getElem?_getD, List.getElem?_zipWith]
  by_cases hk : k / v < as.length
  · rw [List.getElem?_eq_getElem hk, List.getElem?_eq_getElem (h ▸ hk)]
    rfl
  · rw [List.getElem?_eq_none (by omega), List.getElem?_eq_none (by omega)]
    simp

theorem ext_bitAt (as bs : List (BitVec v)) (h : as.length = bs.length)
    (hbits : ∀ k < v * as.length, bitAt as k = bitAt bs k) : as = bs := by
  refine List.ext_getElem h (fun i hi hi' => ?_)
  refine BitVec.eq_of_getMsbD_eq (fun j hj => ?_)
  have hk : v * i + j < v * as.length := by
    calc v * i + j < v * i + v := by omega
      _ = v * (i + 1) := (Nat.mul_succ v i).symm
      _ ≤ v * as.length := Nat.mul_le_mul_left v hi
  -- bit `j` of symbol `i`, counted over all of them
  have hbit := hbits (v * i + j) hk
  unfold bitAt at hbit
  rwa [Nat.mul_add_div (by omega), Nat.mul_add_mod, Nat.div_eq_of_lt hj, Nat.add_zero,
    Nat.mod_eq_of_lt hj, List.getD_eq_getElem _ _ hi, List.getD_eq_getElem _ _ hi'] at hbit

theorem isCoprime_X_modulus (hw : 0 < w) (hp : p.getLsbD 0) :
    IsCoprime (X : (ZMod 2)[X]) (modulus p) := by
  have hX : Irreducible (X : (ZMod 2)[X]) := irreducible_X
  rw [hX.coprime_iff_not_dvd, X_dvd_iff]
  unfold modulus
  rw [coeff_add, coeff_toPoly, if_pos hp, coeff_X_pow, if_neg (by omega), zero_add]
  exact one_ne_zero

theorem eq_zero_of_burst (hw : 0 < w) (hp : p.getLsbD 0) (D : (ZMod 2)[X]) (t : Nat)
    (hburst : ∀ e, D.coeff e ≠ 0 → t ≤ e ∧ e < t + w) (hdvd : modulus p ∣ D) : D = 0 := by
  have hX : X ^ t ∣ D := by
    rw [X_pow_dvd_iff]
    intro e he
    by_contra hne
    exact absurd (hburst e hne).1 (by omega)
  obtain ⟨b, rfl⟩ := hX
  -- moved down to the last term it is still divided, and is too short to be
  have hb : modulus p ∣ b :=
    ((isCoprime_X_modulus p hw hp).pow_left.symm).dvd_of_dvd_mul_left hdvd
  have hdegree : b.degree < (modulus p).degree := by
    rw [degree_modulus, degree_lt_iff_coeff_zero]
    intro j hj
    by_contra hne
    have hcoeff : (X ^ t * b).coeff (j + t) ≠ 0 := by rwa [coeff_X_pow_mul]
    exact absurd (hburst _ hcoeff).2 (by omega)
  rw [eq_zero_of_dvd_of_degree_lt hb hdegree, mul_zero]

theorem modulus_dvd_of_remainder_eq (hv : v ≤ w) (r : BitVec w) (as bs : List (BitVec v))
    (hlen : as.length = bs.length) (hsame : remainder p r as = remainder p r bs) :
    modulus p ∣ message 0 (as.zipWith (· ^^^ ·) bs) := by
  have hstart : toPoly r = toPoly r %ₘ modulus p := by
    refine ((modByMonic_eq_self_iff (modulus_monic p)).mpr ?_).symm
    rw [degree_modulus]
    exact degree_toPoly_lt r
  have hrem : message (toPoly r) as %ₘ modulus p = message (toPoly r) bs %ₘ modulus p := by
    rw [← toPoly_remainder p hv as r _ hstart, ← toPoly_remainder p hv bs r _ hstart, hsame]
  -- the registers they begin with are the same, and cancel
  have hsum := message_add as bs (toPoly r) (toPoly r) hlen
  rw [CharTwo.add_self_eq_zero] at hsum
  have hboth := dvd_sub (dvd_modByMonic_sub (message (toPoly r) bs) (modulus p))
    (dvd_modByMonic_sub (message (toPoly r) as) (modulus p))
  rw [hrem, sub_sub_sub_cancel_left] at hboth
  rwa [← hsum, ← CharTwo.sub_eq_add]

theorem remainder_ne_of_burst (hw : 0 < w) (hp : p.getLsbD 0) (hv : v ≤ w) (r : BitVec w)
    (as bs : List (BitVec v)) (hlen : as.length = bs.length) (hne : as ≠ bs) (s : Nat)
    (hburst : ∀ k, bitAt as k ≠ bitAt bs k → s ≤ k ∧ k < s + w) :
    remainder p r as ≠ remainder p r bs := by
  intro hsame
  apply hne
  have hdvd := modulus_dvd_of_remainder_eq p hv r as bs hlen hsame
  have hwidth : (as.zipWith (· ^^^ ·) bs).length = as.length := by
    rw [List.length_zipWith, hlen, Nat.min_self]
  have hzero := eq_zero_of_burst p hw hp _ (v * as.length + v - s - w) ?_ hdvd
  · -- without differences the messages are one
    refine ext_bitAt as bs hlen (fun k hk => ?_)
    have hcoeff := coeff_message (as.zipWith (· ^^^ ·) bs) (v * as.length + v - 1 - k)
    rw [hzero, coeff_zero, hwidth, bitAt_zipWith_xor as bs hlen] at hcoeff
    by_contra hbit
    have hplace : v * as.length + v - 1 - (v * as.length + v - 1 - k) = k := by omega
    rw [hplace, if_pos ⟨by omega, by omega, by simpa using hbit⟩] at hcoeff
    exact zero_ne_one hcoeff
  · intro e he
    rw [coeff_message, hwidth, bitAt_zipWith_xor as bs hlen] at he
    obtain ⟨hlow, hhigh, hbit⟩ := of_not_not (fun h => he (if_neg h))
    -- the first bit of a message has the highest coefficient
    have hwithin := hburst (v * as.length + v - 1 - e) (by simpa using hbit)
    omega

end Crc
