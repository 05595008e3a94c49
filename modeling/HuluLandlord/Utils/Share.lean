import Mathlib.Data.Rat.Floor
import Mathlib.Data.Int.Log
import Mathlib.Tactic

/-!
A whole amount that is split by weights: one share is rounded up, the others down. By the remainders of the
shares it is known how much of the amount the split gives away. The arithmetic of doubles is here as well:
the exact result, rounded to 53 binary digits, ties to even.
-/
namespace HuluLandlord.Share

/-- The nearest integer, the even one of two. -/
def roundEven (q : ℚ) : ℤ :=
  let below := ⌊q⌋
  let rest := q - below
  if rest < 1 / 2 then below
  else if 1 / 2 < rest then below + 1
  else if below % 2 = 0 then below else below + 1

/-- The nearest double, without the bounds of the exponent. -/
def double (q : ℚ) : ℚ :=
  let ulp : ℚ := 2 ^ (Int.log 2 |q| - 52)
  roundEven (q / ulp) * ulp

def mul (a b : ℚ) : ℚ := double (a * b)

def div (a b : ℚ) : ℚ := double (a / b)

/-- Up for one, down for the others. -/
def part (lucky : Bool) (q : ℚ) : ℤ := if lucky then ⌈q⌉ else ⌊q⌋

/-- The share at position `k` is rounded up. -/
def parts (k : Nat) (shares : List ℚ) : List ℤ := shares.mapIdx fun i q => part (i = k) q

/-- The exact share. -/
def quota (total amount weight : Nat) : ℚ := (weight * amount : Nat) / total

/-- What the shares leave over, each in parts of the whole. -/
def rests (total amount : Nat) (weights : List Nat) : List Nat :=
  weights.map fun weight => weight * amount % total

/-- Nothing is left over, or as much as the one share that is rounded up takes. -/
def Even (k total amount : Nat) (weights : List Nat) : Prop :=
  (rests total amount weights).sum = 0 ∨
    (rests total amount weights).sum = total ∧ (rests total amount weights).getD k 0 ≠ 0

instance (k total amount : Nat) (weights : List Nat) : Decidable (Even k total amount weights) :=
  inferInstanceAs (Decidable (_ ∨ _))

section Sums
variable {k total amount : Nat} {weights : List Nat}

theorem floor_quota (total amount weight : Nat) :
    ⌊quota total amount weight⌋ = (weight * amount / total : Nat) := by
  rw [quota, Rat.floor_natCast_div_natCast]
  rfl

theorem ceil_quota (whole : 0 < total) (amount weight : Nat) : ⌈quota total amount weight⌉ =
    (weight * amount / total : Nat) + if weight * amount % total = 0 then 0 else 1 := by
  have split := Nat.div_add_mod (weight * amount) total
  have small := Nat.mod_lt (weight * amount) whole
  have positive : (0 : ℚ) < total := Nat.cast_pos.mpr whole
  rw [quota]
  generalize weight * amount / total = q at *
  generalize weight * amount % total = r at *
  have below : (r : ℚ) < total := Nat.cast_lt.mpr small
  have least : (0 : ℚ) ≤ r := Nat.cast_nonneg r
  rw [← split, Int.ceil_eq_iff, lt_div_iff₀ positive, div_le_iff₀ positive]
  push_cast
  split
  · rename_i none_
    rw [none_, Nat.cast_zero]
    push_cast
    constructor
    · linarith
    · linarith
  · rename_i some_
    have one : (1 : ℚ) ≤ r := Nat.one_le_cast.mpr (Nat.pos_of_ne_zero some_)
    push_cast
    constructor
    · linarith
    · linarith

theorem part_false (q : ℚ) : part false q = ⌊q⌋ := rfl

theorem part_true (q : ℚ) : part true q = ⌈q⌉ := rfl

/-- Each share is less than one off. -/
theorem part_near (lucky : Bool) (q : ℚ) : |(part lucky q : ℚ) - q| < 1 := by
  cases lucky with
  | false =>
      rw [part_false, abs_sub_lt_iff]
      have low := Int.floor_le q
      have high := Int.lt_floor_add_one q
      constructor
      · linarith
      · linarith
  | true =>
      rw [part_true, abs_sub_lt_iff]
      have low := Int.le_ceil q
      have high := Int.ceil_lt_add_one q
      constructor
      · linarith
      · linarith

/-- Dividing by the whole, over all weights. -/
theorem sum_div_mod (total amount : Nat) (weights : List Nat) :
    total * (weights.map fun weight => weight * amount / total).sum + (rests total amount weights).sum =
      weights.sum * amount := by
  induction weights with
  | nil => simp [rests]
  | cons weight weights ih =>
      have split := Nat.div_add_mod (weight * amount) total
      simp only [rests, List.map_cons, List.sum_cons, Nat.mul_add, Nat.add_mul] at ih ⊢
      omega

/-- What rounding one share up adds. -/
def extra (shares : List ℚ) (k : Nat) : ℤ := (shares[k]?.map fun q => ⌈q⌉ - ⌊q⌋).getD 0

theorem sum_parts_from (shares : List ℚ) (n k : Nat) :
    (shares.mapIdx fun i q => part (i + n = k) q).sum =
      (shares.map fun q => ⌊q⌋).sum + if n ≤ k then extra shares (k - n) else 0 := by
  induction shares generalizing n with
  | nil => simp [extra]
  | cons q shares ih =>
      have next : (shares.mapIdx fun i q => part (i + 1 + n = k) q).sum =
          (shares.map fun q => ⌊q⌋).sum + if n + 1 ≤ k then extra shares (k - (n + 1)) else 0 := by
        rw [← ih (n + 1)]
        simp only [Nat.add_assoc, Nat.add_comm 1 n]
      rw [List.mapIdx_cons, List.sum_cons, List.map_cons, List.sum_cons, next, Nat.zero_add]
      obtain less | same | more := Nat.lt_trichotomy n k
      · have later : k - n = k - (n + 1) + 1 := by omega
        rw [decide_eq_false (Nat.ne_of_lt less), part_false, if_pos (Nat.succ_le_of_lt less), if_pos less.le,
          later]
        simp only [extra, List.getElem?_cons_succ]
        omega
      · rw [decide_eq_true same, part_true, if_neg (by omega), if_pos same.le, same, Nat.sub_self]
        simp only [extra, List.getElem?_cons_zero, Option.map_some, Option.getD_some]
        omega
      · rw [decide_eq_false (Nat.ne_of_gt more), part_false, if_neg (by omega), if_neg (by omega)]
        omega

theorem sum_parts (shares : List ℚ) (k : Nat) :
    (parts k shares).sum = (shares.map fun q => ⌊q⌋).sum + extra shares k := by
  have whole := sum_parts_from shares 0 k
  rwa [if_pos (Nat.zero_le k), Nat.sub_zero] at whole

theorem extra_quota (whole : 0 < total) (amount : Nat) (weights : List Nat) (k : Nat) :
    extra (weights.map (quota total amount)) k = if (rests total amount weights).getD k 0 = 0 then 0 else 1 := by
  simp only [extra, rests, List.getElem?_map, List.getD_eq_getElem?_getD]
  cases weights[k]? with
  | none => rfl
  | some weight =>
      simp only [Option.map_some, Option.getD_some, floor_quota, ceil_quota whole]
      omega

/-- What is given away and what is left over make up the amount, but for the share that is rounded up. -/
theorem sum_split (whole : 0 < total) (amount : Nat) (weights : List Nat) (k : Nat) :
    (total : ℤ) * (parts k (weights.map (quota total amount))).sum + ((rests total amount weights).sum : Nat) =
      (weights.sum * amount : Nat) + if (rests total amount weights).getD k 0 = 0 then 0 else (total : ℤ) := by
  have floors : (weights.map fun weight => ⌊quota total amount weight⌋).sum =
      ((weights.map fun weight => weight * amount / total).sum : Nat) := by
    rw [Nat.cast_list_sum, List.map_map]
    exact congrArg List.sum (List.map_congr_left fun weight _ => floor_quota total amount weight)
  have split : ((total * (weights.map fun weight => weight * amount / total).sum +
      (rests total amount weights).sum : Nat) : ℤ) = (weights.sum * amount : Nat) :=
    congrArg Nat.cast (sum_div_mod total amount weights)
  rw [sum_parts, extra_quota whole, List.map_map]
  simp only [Function.comp_def, floors]
  push_cast at split ⊢
  rw [mul_add]
  split
  · linarith
  · linarith

theorem getD_le_sum (xs : List Nat) (k : Nat) : xs.getD k 0 ≤ xs.sum := by
  rw [List.getD_eq_getElem?_getD]
  cases found : xs[k]? with
  | none => exact Nat.zero_le _
  | some x => exact List.single_le_sum (fun _ _ => Nat.zero_le _) x (List.mem_of_getElem? found)

/-- What is left over is a multiple of the whole, so at least as much as the share that is rounded up takes. -/
theorem rests_multiple (whole : 0 < weights.sum) (amount k : Nat) : ∃ n : Nat,
    (rests weights.sum amount weights).sum = weights.sum * n ∧
    (parts k (weights.map (quota weights.sum amount))).sum + n =
      amount + if (rests weights.sum amount weights).getD k 0 = 0 then 0 else (1 : ℤ) := by
  have given := sum_split whole amount weights k
  generalize (parts k (weights.map (quota weights.sum amount))).sum = s at *
  generalize (rests weights.sum amount weights).getD k 0 = r at *
  generalize (rests weights.sum amount weights).sum = left at *
  generalize weights.sum = total at *
  have positive : (0 : ℤ) < total := Int.natCast_pos.mpr whole
  have multiple : (left : ℤ) = total * (amount + (if r = 0 then 0 else 1) - s) := by
    push_cast at given
    split at given
    · rename_i none_
      rw [if_pos none_]
      linarith
    · rename_i some_
      rw [if_neg some_]
      linarith
  have least : (0 : ℤ) ≤ amount + (if r = 0 then 0 else 1) - s := by
    by_contra less
    have negative := mul_neg_of_pos_of_neg positive (not_le.mp less)
    omega
  obtain ⟨n, count⟩ := Int.eq_ofNat_of_zero_le least
  rw [count] at multiple
  refine ⟨n, by exact_mod_cast multiple, by omega⟩

theorem even_zero (k total : Nat) (weights : List Nat) : Even k total 0 weights := by
  left
  rw [rests, List.sum_eq_zero_iff]
  intro rest mem
  obtain ⟨weight, -, rfl⟩ := List.mem_map.mp mem
  rw [Nat.mul_zero, Nat.zero_mod]

theorem sum_parts_zero (k total : Nat) (weights : List Nat) :
    (parts k (weights.map (quota total 0))).sum = 0 := by
  have none_ (weight : Nat) : quota total 0 weight = 0 := by
    rw [quota, Nat.mul_zero, Nat.cast_zero, zero_div]
  rw [List.sum_eq_zero]
  intro given mem
  obtain ⟨i, inside, rfl⟩ := List.mem_mapIdx.mp mem
  rw [List.getElem_map, none_]
  cases decide (i = k) with
  | false => exact Int.floor_zero
  | true => exact Int.ceil_zero

/-- A split never gives away more than the amount. -/
theorem sum_parts_le (whole : 0 < weights.sum ∨ amount = 0) (k : Nat) :
    (parts k (weights.map (quota weights.sum amount))).sum ≤ amount := by
  obtain whole | rfl := whole
  · obtain ⟨n, left, given⟩ := rests_multiple whole amount k
    split at given
    · omega
    · rename_i some_
      have up := getD_le_sum (rests weights.sum amount weights) k
      have pos : n ≠ 0 := by
        rintro rfl
        omega
      omega
  · exact (sum_parts_zero k weights.sum weights).le

/-- All of it is given away just where the rests are even. -/
theorem sum_parts_eq (whole : 0 < weights.sum ∨ amount = 0) (k : Nat) :
    (parts k (weights.map (quota weights.sum amount))).sum = amount ↔ Even k weights.sum amount weights := by
  obtain whole | rfl := whole
  · obtain ⟨n, left, given⟩ := rests_multiple whole amount k
    have up := getD_le_sum (rests weights.sum amount weights) k
    rw [Even, left]
    rw [left] at up
    split at given
    · rename_i none_
      have zero : weights.sum * n = 0 ↔ n = 0 := by
        rw [Nat.mul_eq_zero]
        omega
      rw [zero]
      constructor
      · intro same
        exact .inl (by omega)
      · rintro (same | ⟨-, some_⟩)
        · omega
        · exact absurd none_ some_
    · rename_i some_
      have one : weights.sum * n = weights.sum ↔ n = 1 := by
        rw [Nat.mul_eq_left (Nat.ne_of_gt whole)]
      have pos : weights.sum * n ≠ 0 := by omega
      rw [one]
      constructor
      · intro same
        exact .inr ⟨by omega, some_⟩
      · rintro (none_ | ⟨same, -⟩)
        · exact absurd none_ pos
        · omega
  · exact iff_of_true (sum_parts_zero k weights.sum weights) (even_zero k weights.sum weights)

theorem quota_nonneg (total amount weight : Nat) : 0 ≤ quota total amount weight :=
  div_nonneg (Nat.cast_nonneg _) (Nat.cast_nonneg _)

theorem part_nonneg (lucky : Bool) {q : ℚ} (least : 0 ≤ q) : 0 ≤ part lucky q := by
  cases lucky with
  | false => exact Int.floor_nonneg.mpr least
  | true => exact Int.ceil_nonneg least

/-- Who gets something: the one whose share is rounded up, and whoever's share is at least one. -/
theorem part_pos (whole : 0 < total ∨ amount = 0) (lucky : Bool) (weight : Nat) :
    part lucky (quota total amount weight) ≠ 0 ↔
      0 < weight * amount ∧ (lucky = true ∨ total ≤ weight * amount) := by
  obtain whole | rfl := whole
  · have split := Nat.div_add_mod (weight * amount) total
    have floor : weight * amount / total = 0 ↔ weight * amount < total := Nat.div_eq_zero_iff_lt whole
    cases lucky with
    | false =>
        rw [part_false, floor_quota]
        simp only [Bool.false_eq_true, false_or]
        omega
    | true =>
        have rest := Nat.mod_le (weight * amount) total
        rw [part_true, ceil_quota whole]
        simp only [true_or, and_true]
        generalize weight * amount / total = q at *
        generalize weight * amount % total = r at *
        generalize weight * amount = n at *
        split
        · rename_i none_
          have some_ : n ≠ 0 → q ≠ 0 := by
            rintro here rfl
            omega
          have none' : n = 0 → q = 0 := fun zero => floor.mpr (by omega)
          omega
        · omega
  · rw [Nat.mul_zero, quota, Nat.mul_zero, Nat.cast_zero, zero_div]
    refine iff_of_false (not_not.mpr ?_) fun positive => absurd positive.1 (Nat.lt_irrefl 0)
    cases lucky with
    | false => exact Int.floor_zero
    | true => exact Int.ceil_zero

theorem part_congr {q q' : ℚ} (floors : ⌊q⌋ = ⌊q'⌋) (ceils : ⌈q⌉ = ⌈q'⌉) (lucky : Bool) :
    part lucky q = part lucky q' := by
  cases lucky with
  | false => exact floors
  | true => exact ceils

theorem sum_mapIdx_add {α : Type*} (f : α → ℤ) (g : Nat → α → ℤ) (xs : List α) :
    (xs.mapIdx fun i x => f x + g i x).sum = (xs.map f).sum + (xs.mapIdx g).sum := by
  induction xs generalizing g with
  | nil => rfl
  | cons x xs ih =>
      simp only [List.mapIdx_cons, List.map_cons, List.sum_cons, ih]
      omega

/-- Terms that are not positive add up to zero only if each is zero. -/
theorem sum_eq_zero_iff_nonpos {α : Type*} {f : α → ℤ} {xs : List α} (most : ∀ x ∈ xs, f x ≤ 0) :
    (xs.map f).sum = 0 ↔ ∀ x ∈ xs, f x = 0 := by
  induction xs with
  | nil => simp
  | cons x xs ih =>
      have head := most x List.mem_cons_self
      have tail : (xs.map f).sum ≤ (xs.map fun _ => (0 : ℤ)).sum :=
        List.sum_le_sum fun y mem => most y (List.mem_cons_of_mem x mem)
      rw [List.map_const', List.sum_replicate, smul_zero] at tail
      rw [List.forall_mem_cons, ← ih fun y mem => most y (List.mem_cons_of_mem x mem), List.map_cons,
        List.sum_cons]
      omega

theorem sum_ne_zero_iff_nonneg {α : Type*} {f : α → ℤ} {xs : List α} (least : ∀ x ∈ xs, 0 ≤ f x) :
    (xs.map f).sum ≠ 0 ↔ ∃ x ∈ xs, f x ≠ 0 := by
  have negated : (xs.map fun x => -f x).sum = -(xs.map f).sum := by
    simpa only [List.map_map, Function.comp_def] using (List.sum_neg (xs.map f)).symm
  have zero := sum_eq_zero_iff_nonpos fun x mem => Int.neg_nonpos_of_nonneg (least x mem)
  rw [negated, Int.neg_eq_zero] at zero
  rw [ne_eq, zero]
  push Not
  simp only [ne_eq, Int.neg_eq_zero]

theorem sum_part_near (lucky : Bool) {shares : List ℚ} (some_ : shares ≠ []) :
    |(((shares.map (part lucky)).sum : ℤ) : ℚ) - shares.sum| < shares.length := by
  induction shares with
  | nil => exact absurd rfl some_
  | cons q shares ih =>
      have head := part_near lucky q
      rw [List.map_cons, List.sum_cons, List.sum_cons, List.length_cons, Int.cast_add, Nat.cast_add, Nat.cast_one]
      cases shares with
      | nil => simpa using head
      | cons q' shares =>
          have tail := ih (List.cons_ne_nil q' shares)
          rw [abs_sub_lt_iff] at head tail ⊢
          constructor
          · linarith
          · linarith

end Sums

section Doubles
variable {q : ℚ} {n : ℤ}

theorem roundEven_near (q : ℚ) : |(roundEven q : ℚ) - q| ≤ 1 / 2 := by
  have low := Int.floor_le q
  have high := Int.lt_floor_add_one q
  simp only [roundEven]
  rw [abs_sub_le_iff]
  split
  · constructor
    · linarith
    · linarith
  split
  · push_cast
    constructor
    · linarith
    · linarith
  split
  · constructor
    · linarith
    · linarith
  · push_cast
    constructor
    · linarith
    · linarith

theorem floor_le_roundEven (q : ℚ) : ⌊q⌋ ≤ roundEven q := by
  simp only [roundEven]
  repeat' split
  all_goals omega

theorem roundEven_intCast (n : ℤ) : roundEven n = n := by
  simp [roundEven]

/-- The spacing of the doubles around a number. -/
def ulp (q : ℚ) : ℚ := 2 ^ (Int.log 2 |q| - 52)

theorem ulp_pos (q : ℚ) : 0 < ulp q := zpow_pos (by norm_num) _

theorem double_eq (q : ℚ) : double q = roundEven (q / ulp q) * ulp q := rfl

theorem double_near (q : ℚ) : |double q - q| ≤ ulp q / 2 := by
  have positive := ulp_pos q
  have near := roundEven_near (q / ulp q)
  have scaled : double q - q = (roundEven (q / ulp q) - q / ulp q) * ulp q := by
    rw [double_eq, sub_mul, div_mul_cancel₀ _ positive.ne']
  rw [scaled, abs_mul, abs_of_pos positive]
  have bound := mul_le_mul_of_nonneg_right near positive.le
  linarith

/-- A multiple of the spacing is a double. -/
theorem double_multiple (whole : q = n * ulp q) : double q = q := by
  have positive := ulp_pos q
  have ratio : q / ulp q = n := by
    rw [div_eq_iff positive.ne']
    exact whole
  rw [double_eq, ratio, roundEven_intCast]
  exact whole.symm

/-- Below a power of two the spacing is at most 53 binary digits finer. -/
theorem ulp_le {e : ℤ} (positive : 0 < q) (small : q < 2 ^ e) : ulp q ≤ 2 ^ (e - 53) := by
  have log : Int.log 2 q < e := by
    rw [← Int.lt_zpow_iff_log_lt (b := 2) (by norm_num) positive]
    exact_mod_cast small
  rw [ulp, abs_of_pos positive]
  exact zpow_le_zpow_right₀ (by norm_num) (by omega)

/-- The whole numbers up to 2 ^ 53 are doubles. -/
theorem double_natCast {n : Nat} (small : n ≤ 2 ^ 53) : double n = n := by
  obtain rfl | positive := Nat.eq_zero_or_pos n
  · simp [double, roundEven]
  have cast : (0 : ℚ) < n := Nat.cast_pos.mpr positive
  obtain full | below := Nat.eq_or_lt_of_le small
  · have spacing : ulp (n : ℚ) = 2 := by
      have log : Int.log 2 ((2 : ℚ) ^ (53 : ℤ)) = 53 := Int.log_zpow (by norm_num) 53
      have power : (n : ℚ) = 2 ^ (53 : ℤ) := by
        rw [full]
        norm_num
      rw [ulp, abs_of_pos cast, power, log]
      norm_num
    apply @double_multiple _ (2 ^ 52)
    rw [spacing, full]
    norm_num
  · have bound : ((n : ℚ)) < 2 ^ (53 : ℤ) := by
      have := (Nat.cast_lt (α := ℚ)).mpr below
      exact_mod_cast this
    have log : Int.log 2 (n : ℚ) < 53 := by
      rw [← Int.lt_zpow_iff_log_lt (b := 2) (by norm_num) cast]
      exact_mod_cast bound
    have high : Int.log 2 (n : ℚ) ≤ 52 := by omega
    obtain ⟨k, exponent⟩ := Int.le.dest high
    apply @double_multiple _ (n * 2 ^ k)
    have spacing : ulp (n : ℚ) = (2 ^ k)⁻¹ := by
      rw [ulp, abs_of_pos cast, ← zpow_natCast, ← zpow_neg]
      congr 1
      omega
    rw [spacing]
    push_cast
    field_simp

/-- A quotient that is not too close below a whole number keeps its whole part. -/
theorem floor_double {m : Nat} (low : m ≤ q) (high : q ≤ m + 35 / 36) (small : q < 2 ^ 48) :
    ⌊double q⌋ = m := by
  obtain zero | positive := (le_trans (Nat.cast_nonneg m) low).eq_or_lt
  · have none : m = 0 := by
      rw [← zero] at low
      exact_mod_cast le_antisymm low (Nat.cast_nonneg m)
    rw [← zero, none]
    simp [double, roundEven]
  have near := abs_sub_le_iff.mp (double_near q)
  have spacing : ulp q ≤ 1 / 32 := by
    have := @ulp_le q 48 positive (by exact_mod_cast small)
    norm_num at this ⊢
    exact this
  rw [Int.floor_eq_iff]
  constructor
  · -- the whole number is a multiple of the spacing, and rounding does not pass it
    have log : Int.log 2 q < 48 := by
      rw [← Int.lt_zpow_iff_log_lt (b := 2) (by norm_num) positive]
      exact_mod_cast small
    have high : Int.log 2 q ≤ 52 := by omega
    obtain ⟨k, exponent⟩ := Int.le.dest high
    have power : ulp q = (2 ^ k)⁻¹ := by
      rw [ulp, abs_of_pos positive, ← zpow_natCast, ← zpow_neg]
      congr 1
      omega
    have whole : (m * 2 ^ k : ℤ) ≤ roundEven (q / ulp q) := by
      refine le_trans (Int.le_floor.mpr ?_) (floor_le_roundEven _)
      rw [power, div_inv_eq_mul]
      push_cast
      exact mul_le_mul_of_nonneg_right low (by positivity)
    have cast : ((m * 2 ^ k : ℤ) : ℚ) ≤ roundEven (q / ulp q) := Int.cast_le.mpr whole
    rw [double_eq, power, ← div_eq_mul_inv, le_div_iff₀ (by positivity)]
    rw [power] at cast
    push_cast at cast ⊢
    exact cast
  · push_cast
    linarith

end Doubles

end HuluLandlord.Share
