import HuluLandlord.Ddz.GameOver

/-!
What the settlement promises, stated on finished games: no balance becomes
negative, no farmer moves more than his limits allow, and beans are neither made
nor lost, except for the one bean the system eats when the shares are rounded down.
-/
namespace HuluLandlord.Ddz

/-- The data of a finished game as the room passes it to the settlement. -/
structure Game where
  difen : Int
  rewardMax : Int
  datas : Seat → GameOverData
  landlord : Seat
  difen_pos : 0 < difen
  isLandlord : ∀ q, (datas q).isLandlord = decide (q = landlord)
  isWin : ∀ q, q ≠ landlord → (datas q).isWin = !(datas landlord).isWin
  gold_nonneg : ∀ q, 0 ≤ (datas q).gold
  multiple_pos : ∀ q, 0 < (datas q).multiple
  multiple_sum : (datas landlord).multiple =
    (datas (landlord + 1)).multiple + (datas (landlord + 2)).multiple

namespace Game
variable (game : Game)

/-- The landlord's balance divided in proportion to the multiples. -/
def share (q : Seat) : ℚ :=
  (game.datas game.landlord).gold * (game.datas q).multiple /
    (game.datas game.landlord).multiple

/-- The exact amount between farmer `q` and the landlord, before rounding. -/
def limit (q : Seat) : ℚ :=
  min (min (game.difen * (game.datas q).multiple : ℚ)
      (if game.rewardMax < 0 then game.difen * (game.datas q).multiple else game.rewardMax))
    (min (game.share q) (game.datas q).gold)

def limitSum : ℚ := game.limit (game.landlord + 1) + game.limit (game.landlord + 2)

def roundedSum : Int := ⌊game.limit (game.landlord + 1)⌋ + ⌊game.limit (game.landlord + 2)⌋

/-- The landlord loses and rounding down leaves him with one bean he would have
paid exactly. -/
def roundingLeavesOne : Prop :=
  (game.datas game.landlord).isWin = false ∧
    game.roundedSum = (game.datas game.landlord).gold - 1 ∧
    game.limitSum = (game.datas game.landlord).gold

/-- The landlord loses and something else than rounding leaves him with one bean. -/
def limitLeavesOne : Prop :=
  (game.datas game.landlord).isWin = false ∧
    game.roundedSum = (game.datas game.landlord).gold - 1 ∧
    game.limitSum ≠ (game.datas game.landlord).gold

instance : Decidable game.roundingLeavesOne := inferInstanceAs (Decidable (_ ∧ _ ∧ _))

/-- The promise of the settlement. -/
def Settles : Prop :=
  ∃ after, gameover game.difen game.rewardMax game.datas = some after ∧
    (∀ q, 0 ≤ (after q).gold) ∧
    (∀ q, q ≠ game.landlord → (|(after q).goldChange| : ℚ) ≤ game.limit q) ∧
    (after 0).goldChange + (after 1).goldChange + (after 2).goldChange =
      if game.roundingLeavesOne then -1 else 0

/-- The farmers as the settlement collects them, in seat order. -/
def farmers : List GameOverData :=
  ((List.finRange 3).filter fun q => !(game.datas q).isLandlord).map game.datas

theorem farmers_perm :
    game.farmers.Perm [game.datas (game.landlord + 1), game.datas (game.landlord + 2)] := by
  have seats : ∀ l : Seat, ((List.finRange 3).filter fun q => !decide (q = l)).Perm
      [l + 1, l + 2] := by decide
  simp only [farmers, game.isLandlord]
  exact (seats game.landlord).map game.datas

theorem farmerGoldChange_eq (q : Seat) :
    farmerGoldChange game.difen game.rewardMax (game.datas game.landlord) (game.datas q) =
      ⌊game.limit q⌋ := by
  have proportional : ((game.datas game.landlord).gold / (game.datas game.landlord).multiple *
      (game.datas q).multiple : ℚ) = game.share q := div_mul_eq_mul_div _ _ _
  have base : ((game.difen * (game.datas q).multiple : Int) : ℚ) =
      game.difen * (game.datas q).multiple := by push_cast; rfl
  simp only [farmerGoldChange, proportional, limit, Int.floor_mono.map_min]
  rw [← base, Int.floor_intCast, Int.floor_intCast]
  split <;> simp only [Int.floor_intCast]

theorem share_nonneg (q : Seat) : 0 ≤ game.share q := by
  have gold : (0 : ℚ) ≤ (game.datas game.landlord).gold :=
    Int.cast_nonneg (game.gold_nonneg game.landlord)
  exact div_nonneg (mul_nonneg gold (Nat.cast_nonneg _)) (Nat.cast_nonneg _)

theorem share_sum :
    game.share (game.landlord + 1) + game.share (game.landlord + 2) =
      (game.datas game.landlord).gold := by
  have positive : ((game.datas game.landlord).multiple : ℚ) ≠ 0 :=
    Nat.cast_ne_zero.mpr (Nat.pos_iff_ne_zero.mp (game.multiple_pos _))
  have total : ((game.datas (game.landlord + 1)).multiple : ℚ) +
      (game.datas (game.landlord + 2)).multiple = (game.datas game.landlord).multiple := by
    rw [game.multiple_sum]
    push_cast
    rfl
  simp only [share]
  rw [← add_div, ← mul_add, total, mul_div_assoc, div_self positive, mul_one]

theorem limit_nonneg (q : Seat) : 0 ≤ game.limit q := by
  have base : (0 : ℚ) ≤ game.difen * (game.datas q).multiple :=
    mul_nonneg (Int.cast_nonneg game.difen_pos.le) (Nat.cast_nonneg _)
  have gold : (0 : ℚ) ≤ (game.datas q).gold := Int.cast_nonneg (game.gold_nonneg q)
  refine le_min (le_min base ?_) (le_min (game.share_nonneg q) gold)
  split
  · exact base
  · rename_i capped
    exact Int.cast_nonneg (not_lt.mp capped)

theorem limit_le_share (q : Seat) : game.limit q ≤ game.share q :=
  (min_le_right _ _).trans (min_le_left _ _)

theorem limit_le_gold (q : Seat) : game.limit q ≤ (game.datas q).gold :=
  (min_le_right _ _).trans (min_le_right _ _)

theorem floor_limit_nonneg (q : Seat) : 0 ≤ ⌊game.limit q⌋ :=
  Int.floor_nonneg.mpr (game.limit_nonneg q)

theorem floor_limit_le_gold (q : Seat) : ⌊game.limit q⌋ ≤ (game.datas q).gold :=
  Int.floor_le_iff.mpr (lt_of_le_of_lt (game.limit_le_gold q) (lt_add_one _))

/-- Together the farmers never take more than the landlord has. -/
theorem roundedSum_le : game.roundedSum ≤ (game.datas game.landlord).gold := by
  have first := (Int.floor_le (game.limit (game.landlord + 1))).trans
    (game.limit_le_share (game.landlord + 1))
  have second := (Int.floor_le (game.limit (game.landlord + 2))).trans
    (game.limit_le_share (game.landlord + 2))
  have total := game.share_sum
  have bound : ((game.roundedSum : Int) : ℚ) ≤ ((game.datas game.landlord).gold : Int) := by
    simp only [roundedSum, Int.cast_add]
    linarith
  exact_mod_cast bound

theorem roundedSum_nonneg : 0 ≤ game.roundedSum :=
  add_nonneg (game.floor_limit_nonneg _) (game.floor_limit_nonneg _)

theorem goldChangeSum_eq :
    (game.farmers.map (farmerGoldChange game.difen game.rewardMax
      (game.datas game.landlord))).sum = game.roundedSum := by
  rw [(game.farmers_perm.map _).sum_eq]
  simp only [List.map_cons, List.map_nil, List.sum_cons, List.sum_nil, farmerGoldChange_eq,
    roundedSum, add_zero]

theorem goldRealNumSum_eq :
    ⌈(game.farmers.map fun farmer => ((game.datas game.landlord).gold /
      (game.datas game.landlord).multiple * farmer.multiple : ℚ)).sum⌉ =
      (game.datas game.landlord).gold := by
  rw [(game.farmers_perm.map _).sum_eq]
  simp only [List.map_cons, List.map_nil, List.sum_cons, List.sum_nil, add_zero,
    div_mul_eq_mul_div]
  exact (congrArg Int.ceil game.share_sum).trans (Int.ceil_intCast _)

/-- The second rounded sum is the landlord's balance, so the correction fires
whenever he is left with one bean. -/
theorem landlordGoldChange_eq :
    landlordGoldChange game.difen game.rewardMax (game.datas game.landlord) game.farmers =
      if (game.datas game.landlord).isWin = false ∧
        game.roundedSum = (game.datas game.landlord).gold - 1
      then game.roundedSum + 1 else game.roundedSum := by
  simp only [landlordGoldChange, game.goldChangeSum_eq, game.goldRealNumSum_eq, ge_iff_le,
    le_refl, if_true]
  refine if_congr ?_ rfl rfl
  rw [Bool.not_eq_true']
  constructor
  · intro ⟨lost, one⟩
    exact ⟨lost, by omega⟩
  · intro ⟨lost, one⟩
    exact ⟨lost, by omega⟩

theorem gameover_eq :
    ∃ after, gameover game.difen game.rewardMax game.datas = some after ∧
      (∀ q, (after q).gold = (game.datas q).gold + (after q).goldChange) ∧
      (after game.landlord).goldChange =
        landlordGoldChange game.difen game.rewardMax (game.datas game.landlord) game.farmers *
          sign (game.datas game.landlord).isWin ∧
      ∀ q, q ≠ game.landlord →
        (after q).goldChange = ⌊game.limit q⌋ * sign (game.datas q).isWin := by
  have found : ((List.finRange 3).reverse.find? fun q => (game.datas q).isLandlord) =
      some game.landlord := by
    have seats : ∀ l : Seat, ((List.finRange 3).reverse.find? fun q => decide (q = l)) = some l := by
      decide
    simp only [game.isLandlord]
    exact seats game.landlord
  simp only [gameover, found]
  refine ⟨_, rfl, ?_, ?_, ?_⟩
  · intro q
    by_cases isL : q = game.landlord
    · simp only [isL, if_true]
      split <;> rfl
    · simp only [isL, if_false, game.isLandlord, decide_false, Bool.false_eq_true]
      split <;> rfl
  · simp only [if_true]
    split <;> rfl
  · intro q notL
    simp only [notL, if_false, game.isLandlord, decide_false, Bool.false_eq_true]
    rw [← farmerGoldChange_eq]
    split <;> rfl

theorem seats_sum (f : Seat → Int) (l : Seat) :
    f 0 + f 1 + f 2 = f l + f (l + 1) + f (l + 2) := by
  match l with
  | 0 => rfl
  | 1 =>
      have wrap : (1 : Seat) + 1 = 2 ∧ (1 : Seat) + 2 = 0 := by decide
      rw [wrap.1, wrap.2]
      omega
  | 2 =>
      have wrap : (2 : Seat) + 1 = 0 ∧ (2 : Seat) + 2 = 1 := by decide
      rw [wrap.1, wrap.2]
      omega

theorem landlord_ne (l : Seat) : l + 1 ≠ l ∧ l + 2 ≠ l := by
  revert l
  decide

/-- The beans lost by a settlement, whatever the reason the landlord keeps one. -/
theorem goldChange_sum (after : Seat → GameOverData)
    (paid : (after game.landlord).goldChange =
      landlordGoldChange game.difen game.rewardMax (game.datas game.landlord) game.farmers *
        sign (game.datas game.landlord).isWin)
    (got : ∀ q, q ≠ game.landlord →
      (after q).goldChange = ⌊game.limit q⌋ * sign (game.datas q).isWin) :
    (after 0).goldChange + (after 1).goldChange + (after 2).goldChange =
      if (game.datas game.landlord).isWin = false ∧
        game.roundedSum = (game.datas game.landlord).gold - 1 then -1 else 0 := by
  obtain ⟨first, second⟩ := landlord_ne game.landlord
  rw [seats_sum (fun q => (after q).goldChange) game.landlord, paid, got _ first, got _ second,
    game.isWin _ first, game.isWin _ second, landlordGoldChange_eq]
  cases won : (game.datas game.landlord).isWin with
  | true =>
      simp only [Bool.true_eq_false, false_and, if_false, sign, Bool.not_true, roundedSum]
      simp only [if_true, Bool.false_eq_true, if_false]
      omega
  | false =>
      simp only [true_and, sign, Bool.not_false, roundedSum]
      split <;> simp only [if_true, Bool.false_eq_true, if_false] <;> omega

theorem landlord_gold_nonneg :
    0 ≤ (game.datas game.landlord).gold +
      landlordGoldChange game.difen game.rewardMax (game.datas game.landlord) game.farmers *
        sign (game.datas game.landlord).isWin := by
  have own := game.gold_nonneg game.landlord
  have some := game.roundedSum_nonneg
  have most := game.roundedSum_le
  rw [landlordGoldChange_eq]
  cases won : (game.datas game.landlord).isWin with
  | true =>
      simp only [Bool.true_eq_false, false_and, if_false, sign, if_true]
      omega
  | false =>
      simp only [true_and, sign]
      split <;> simp only [Bool.false_eq_true, if_false] <;> omega

theorem gold_after_nonneg (after : Seat → GameOverData)
    (gold : ∀ q, (after q).gold = (game.datas q).gold + (after q).goldChange)
    (paid : (after game.landlord).goldChange =
      landlordGoldChange game.difen game.rewardMax (game.datas game.landlord) game.farmers *
        sign (game.datas game.landlord).isWin)
    (got : ∀ q, q ≠ game.landlord →
      (after q).goldChange = ⌊game.limit q⌋ * sign (game.datas q).isWin) (q : Seat) :
    0 ≤ (after q).gold := by
  by_cases isL : q = game.landlord
  · rw [gold, isL, paid]
    exact game.landlord_gold_nonneg
  · have low := game.floor_limit_nonneg q
    have high := game.floor_limit_le_gold q
    rw [gold, got q isL]
    cases (game.datas q).isWin with
    | true =>
        simp only [sign, if_true]
        omega
    | false =>
        simp only [sign, Bool.false_eq_true, if_false]
        omega

theorem goldChange_le_limit (q : Seat) (isWin : Bool) :
    (|((⌊game.limit q⌋ * sign isWin : Int) : ℚ)| : ℚ) ≤ game.limit q := by
  have low : (0 : ℚ) ≤ (⌊game.limit q⌋ : Int) := Int.cast_nonneg (game.floor_limit_nonneg q)
  refine le_trans (le_of_eq ?_) (Int.floor_le (game.limit q))
  cases isWin with
  | true => simp [sign, abs_of_nonneg low]
  | false => simp [sign, abs_of_nonneg low]

/-- Only the sum can go wrong. -/
theorem settles_iff_sum :
    game.Settles ↔
      (if (game.datas game.landlord).isWin = false ∧
          game.roundedSum = (game.datas game.landlord).gold - 1 then (-1 : Int) else 0) =
        if game.roundingLeavesOne then -1 else 0 := by
  obtain ⟨after, done, gold, paid, got⟩ := game.gameover_eq
  have total := game.goldChange_sum after paid got
  constructor
  · intro ⟨after', done', _, _, sum⟩
    obtain rfl : after = after' := Option.some.inj (done.symm.trans done')
    exact total.symm.trans sum
  · intro sum
    refine ⟨after, done, game.gold_after_nonneg after gold paid got, ?_, total.trans sum⟩
    intro q notL
    rw [got q notL]
    exact game.goldChange_le_limit q _

theorem settles_iff : game.Settles ↔ ¬ game.limitLeavesOne := by
  rw [settles_iff_sum]
  by_cases one : (game.datas game.landlord).isWin = false ∧
      game.roundedSum = (game.datas game.landlord).gold - 1
  · by_cases exact : game.limitSum = (game.datas game.landlord).gold
    · have rounding : game.roundingLeavesOne := ⟨one.1, one.2, exact⟩
      rw [if_pos one, if_pos rounding]
      exact iff_of_true rfl fun limited => limited.2.2 exact
    · have rounding : ¬ game.roundingLeavesOne := fun h => exact h.2.2
      rw [if_pos one, if_neg rounding]
      exact iff_of_false (by decide) fun onlyRounding => onlyRounding ⟨one.1, one.2, exact⟩
  · have rounding : ¬ game.roundingLeavesOne := fun h => one ⟨h.1, h.2.1⟩
    rw [if_neg one, if_neg rounding]
    exact iff_of_true rfl fun limited => one ⟨limited.1, limited.2.1⟩

/-- The landlord has five beans and loses to two farmers at two beans each: he
keeps one bean because the stake is small, and the system eats it. -/
def smallStake : Game where
  difen := 2
  rewardMax := -1
  datas := fun q => .start (if q = 0 then 2 else 1) (q ≠ 0) (q = 1) (q = 0) (if q = 0 then 5 else 10)
  landlord := 0
  difen_pos := by decide
  isLandlord := by decide
  isWin := by decide
  gold_nonneg := by decide
  multiple_pos := by decide
  multiple_sum := by decide

theorem smallStake_not_settles : ¬ smallStake.Settles := by
  have first : smallStake.limit 1 = 2 := by
    norm_num [smallStake, limit, share, GameOverData.start]
  have farmer : (2 : Seat) ≠ 0 := by decide
  have second : smallStake.limit 2 = 2 := by
    norm_num [smallStake, limit, share, GameOverData.start, farmer]
  have exact : smallStake.limitSum = 4 := by
    simp only [limitSum]
    exact (congrArg₂ (· + ·) first second).trans (by norm_num)
  have rounded : smallStake.roundedSum = 4 := by
    simp only [roundedSum]
    exact congrArg₂ (fun a b : ℚ => ⌊a⌋ + ⌊b⌋) first second
  have five : (smallStake.datas smallStake.landlord).gold = 5 := rfl
  have notRounding : ¬ smallStake.roundingLeavesOne := by
    intro rounding
    have same := rounding.2.2
    rw [exact, five] at same
    norm_num at same
  rw [settles_iff_sum, if_neg notRounding, rounded, five, if_pos ⟨rfl, by decide⟩]
  decide

end Game

end HuluLandlord.Ddz
