/-
  The shortest decimal of a double is always found.

  1. **A fine grid.**  On a grid whose step is at most a quarter of the last place, the point below the
     middle of the interval lies in the interval, so the grid has a best point (`best?_of_fine`).

  2. **Reaching it.**  The grids tried go down from `10 ^ k` by factors of ten.  Whether a step is at most a
     quarter of the last place is one inequality between a power of ten and a power of two, which a coarser
     grid makes harder and a larger exponent of the double easier (`fine_mono`).  So of all the doubles
     whose leading bits lie within eight places of each other only the worst case counts, and there are not
     many such cases: the last grid tried is fine in each of them (`fine_last`).

  3. **Zero is no answer.**  The interval of a positive size does not reach down to zero, so what is found has
     at least one digit other than zero.
-/
import SchemaCatalog.Decimal.Shortest
import Mathlib.Algebra.Order.Field.Basic
import Mathlib.Algebra.Order.Field.Power
import Mathlib.Data.Rat.Cast.Order
import Mathlib.Tactic.NormNum

namespace SchemaCatalog.Decimal

/-! ## Fine grids -/

/-- A step of the grid is at most a quarter of the last place. -/
def Grid.Fine (g : Grid) : Prop := g.step ≤ g.unit

instance (g : Grid) : Decidable g.Fine := inferInstanceAs (Decidable (_ ≤ _))

theorem gridAt_pos (k e : Int) : 0 < (gridAt k e).step ∧ 0 < (gridAt k e).unit :=
  ⟨Nat.mul_pos (Nat.pow_pos (by decide)) (Nat.pow_pos (by decide)),
    Nat.mul_pos (Nat.pow_pos (by decide)) (Nat.pow_pos (by decide))⟩

/-- A power with any exponent as a quotient of powers. -/
theorem zpow_eq_div (a : ℚ) (n : Int) : a ^ n = a ^ n.toNat / a ^ (-n).toNat := by
  by_cases hn : 0 ≤ n
  · have hneg : (-n).toNat = 0 := by omega
    rw [hneg, pow_zero, div_one, ← zpow_natCast, Int.toNat_of_nonneg hn]
  · have hpos : n.toNat = 0 := by omega
    have hexp : n = -((-n).toNat : Int) := by omega
    rw [hpos, pow_zero, one_div, ← zpow_natCast, ← zpow_neg, ← hexp]

theorem fine_iff (k e : Int) : (gridAt k e).Fine ↔ (10 : ℚ) ^ k ≤ 2 ^ (e - 2) := by
  rw [zpow_eq_div 10 k, zpow_eq_div 2 (e - 2), div_le_div_iff₀ (by positivity) (by positivity)]
  simp only [Grid.Fine, gridAt, pow10, pow2, Nat.pow_eq]
  rw [mul_comm (2 ^ (e - 2).toNat : ℚ)]
  norm_cast

theorem fine_mono {k k' e e' : Int} (h : (gridAt k e).Fine) (hk : k' ≤ k) (he : e ≤ e') :
    (gridAt k' e').Fine := by
  rw [fine_iff] at h ⊢
  calc (10 : ℚ) ^ k' ≤ 10 ^ k := zpow_le_zpow_right₀ (by norm_num) hk
    _ ≤ 2 ^ (e - 2) := h
    _ ≤ 2 ^ (e' - 2) := zpow_le_zpow_right₀ (by norm_num) (by omega)

/-! ## The best point of a grid -/

/-- The interval of a positive size lies around its middle and above zero. -/
theorem interval_bounds {s : Size} (h : 0 < s.significand) :
    0 < s.interval.low ∧ s.interval.low < s.interval.middle ∧ s.interval.middle < s.interval.high := by
  simp only [Size.interval]
  split <;> omega

/-- What lies in the interval of a positive size is no zero. -/
theorem pos_of_hits {k e : Int} {s : Size} (h : 0 < s.significand) {c : Nat}
    (hc : (gridAt k e).hits s.interval c = true) : 0 < c := by
  have hlow : 0 < s.interval.low * (gridAt k e).unit :=
    Nat.mul_pos (interval_bounds h).1 (gridAt_pos k e).2
  rcases Nat.eq_zero_or_pos c with rfl | hpos
  · unfold Grid.hits at hc
    split at hc <;> (simp only [Bool.and_eq_true, decide_eq_true_eq, Nat.zero_mul] at hc; omega)
  · exact hpos

theorem pos_of_best? {k e : Int} {s : Size} (h : 0 < s.significand) {c : Nat}
    (hc : (gridAt k e).best? s.interval = some c) : 0 < c := by
  unfold Grid.best? at hc
  dsimp only at hc
  split at hc
  · rename_i hhit _
    cases hc
    exact pos_of_hits h hhit
  · cases hc
    exact Nat.succ_pos _
  · rename_i hhit _
    split at hc
    · cases hc
      exact pos_of_hits h hhit
    · cases hc
      exact Nat.succ_pos _
  · cases hc

/-- A fine grid has a point in the interval: the one below the middle. -/
theorem best?_of_fine {k e : Int} {s : Size} (h : 0 < s.significand) (hfine : (gridAt k e).Fine) :
    ∃ c, (gridAt k e).best? s.interval = some c := by
  obtain ⟨hstep, hunit⟩ := gridAt_pos k e
  obtain ⟨-, hlow, hhigh⟩ := interval_bounds h
  set g := gridAt k e
  set i := s.interval
  let c := i.middle * g.unit / g.step
  have hbelow : c * g.step ≤ i.middle * g.unit := Nat.div_mul_le_self _ _
  have habove : i.middle * g.unit < c * g.step + g.unit :=
    calc i.middle * g.unit < c * g.step + g.step := Nat.lt_div_mul_add hstep
      _ ≤ c * g.step + g.unit := Nat.add_le_add_left hfine _
  have hfrom : i.low * g.unit < c * g.step := by
    have : i.low * g.unit + g.unit ≤ i.middle * g.unit := by
      rw [← Nat.succ_mul]
      exact Nat.mul_le_mul_right _ hlow
    omega
  have hto : c * g.step < i.high * g.unit := lt_of_le_of_lt hbelow (Nat.mul_lt_mul_of_pos_right hhigh hunit)
  have hhit : g.hits i c = true := by
    unfold Grid.hits
    split <;> simp <;> omega
  unfold Grid.best?
  dsimp only
  rw [show g.hits i (i.middle * g.unit / g.step) = true from hhit]
  cases g.hits i (i.middle * g.unit / g.step + 1) <;> exact ⟨_, rfl⟩

/-! ## The search -/

/-- If one of the grids tried is fine, digits are found. -/
theorem search_pos {s : Size} (h : 0 < s.significand) :
    ∀ (tries : Nat) (k : Int) (j : Nat), j < tries → (gridAt (k - j) s.exponent).Fine →
      0 < (search s tries k).digits
  | 0, _, _, hj, _ => by omega
  | tries + 1, k, j, hj, hfine => by
    rw [search]
    cases hbest : (gridAt k s.exponent).best? s.interval with
    | some c => exact pos_of_best? h hbest
    | none =>
      -- the grid here is not the fine one, so that is still to come
      cases j with
      | zero =>
        obtain ⟨c, hc⟩ := best?_of_fine h hfine
        rw [Int.natCast_zero, sub_zero, hbest] at hc
        cases hc
      | succ j =>
        have hlater : k - ((j + 1 : Nat) : Int) = k - 1 - (j : Int) := by omega
        rw [hlater] at hfine
        exact search_pos h tries (k - 1) j (by omega) hfine

/-- The last grid tried is fine wherever the leading bit of a double can be, eight places at a time. -/
theorem fine_last (n : Nat) (h : n < 264) :
    (gridAt ((8 * (n : Int) - 1073) * 30103 / 100000 + 1 - 20) (8 * n - 1080 - 53)).Fine := by
  revert n
  decide +kernel

/-- The sizes that finite doubles have. -/
structure Size.IsDouble (s : Size) : Prop where
  significand : s.significand < 2 ^ 53
  low : -1074 ≤ s.exponent
  high : s.exponent ≤ 971

theorem isDouble_of_form {x : Float} {negative : Bool} {s : Size} (h : form x = .finite negative s) :
    s.IsDouble := by
  unfold form at h
  dsimp only at h
  have hfraction : x.toBits.toNat % pow2 52 < 2 ^ 52 := Nat.mod_lt _ (by decide)
  have hfield : x.toBits.toNat / pow2 52 % pow2 11 < 2048 := Nat.mod_lt _ (by decide)
  have hlead : pow2 52 = 2 ^ 52 := rfl
  split at h
  · split at h <;> cases h
  split at h
  · cases h
    exact ⟨by dsimp only; omega, by dsimp only; omega, by dsimp only; omega⟩
  · cases h
    exact ⟨by dsimp only; omega, by dsimp only; omega, by dsimp only; omega⟩

/-- The shortest decimal of a positive double is none of zero. -/
theorem shortest_pos {s : Size} (hs : s.IsDouble) (h : 0 < s.significand) : 0 < s.shortest.digits := by
  obtain ⟨hsignificand, hlow, hhigh⟩ := hs
  have hlog : s.significand.log2 < 53 := (Nat.log2_lt (by omega)).mpr hsignificand
  let place : Int := s.significand.log2 + s.exponent + 1
  obtain ⟨n, hfrom, hto⟩ : ∃ n : Nat, 8 * (n : Int) - 1080 ≤ place ∧ place ≤ 8 * (n : Int) - 1073 :=
    ⟨((place + 1080) / 8).toNat, by omega, by omega⟩
  have hgrid : place * 30103 / 100000 + 1 - ((20 : Nat) : Int) ≤
      (8 * (n : Int) - 1073) * 30103 / 100000 + 1 - 20 := by omega
  exact search_pos h 21 _ 20 (by omega) (fine_mono (fine_last n (by omega)) hgrid (by omega))

end SchemaCatalog.Decimal
