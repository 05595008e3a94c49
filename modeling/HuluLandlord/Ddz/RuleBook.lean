import HuluLandlord.Ddz.Planes

/-!
The types of the rule book, by how often each value is held, and the recognisers against them. The cards are
those of one deck, sorted; the two planes with wings are left out.
-/
namespace HuluLandlord.Ddz
open Table

/-- The cards are `k` values in a row up to the ace, each held `c` times. -/
structure IsRun (cards : List Card) (c k start : Nat) : Prop where
  num : cards.length = c * k
  most : start + k ≤ 0xd
  each : ∀ j < k, valueNum cards (start + j) = c

/-- The rule book: the types with their weights, that of a bomb combined with its rank. -/
def RuleBook (cards : List Card) : CardType → Nat → Prop
  | .dan, weight => cards.length = 1 ∧ valueNum cards weight = 1
  | .dui, weight => cards.length = 2 ∧ valueNum cards weight = 2
  | .tuple, weight => cards.length = 3 ∧ valueNum cards weight = 3
  | .sandaiyi, weight => cards.length = 4 ∧ valueNum cards weight = 3
  | .sandaiyidui, weight => cards.length = 5 ∧ valueNum cards weight = 3 ∧ ∃ v, valueNum cards v = 2
  | .sidaier, weight => cards.length = 6 ∧ valueNum cards weight = 4
  | .sidailiangdui, weight => cards.length = 8 ∧ valueNum cards weight = 4 ∧
      ((∃ v < weight, valueNum cards v = 4) ∨ ∃ v w, v ≠ w ∧ valueNum cards v = 2 ∧ valueNum cards w = 2)
  | .shunzi, weight => ∃ k, 5 ≤ k ∧ IsRun cards 1 k weight
  | .liandui, weight => ∃ k, 3 ≤ k ∧ IsRun cards 2 k weight
  | .feiji_budai, weight => ∃ k, 2 ≤ k ∧ IsRun cards 3 k weight
  | .zhadan, weight =>
      (∃ v, cards.length = 4 ∧ valueNum cards v = 4 ∧ weight = COMB v (BombInfoData .yingzha)) ∨
        (cards.length = 2 ∧ valueNum cards 0xe = 1 ∧ valueNum cards 0xf = 1 ∧
          weight = COMB 0 (BombInfoData .wangzha)) ∨
        ∃ k v b, star4 k = some b ∧ IsRun cards 4 k v ∧ weight = COMB v (BombInfoData b)
  | .feiji_daidan, _ | .feiji_daidui, _ => False

/-- A recogniser returns a type. -/
def Gives (arr : List CardTypeObj) (type : CardType) (weight : Nat) : Prop :=
  ∃ obj ∈ arr, obj.type = type ∧ obj.weight = weight

section Positions
variable {cards : List Card} {v i k c start : Nat}

/-- The place of a value in a sorted list is given by how many are smaller, and how many there are of it. -/
theorem sorted_getD {xs : List Nat} (sorted : xs.Pairwise (· ≤ ·)) (inside : i < xs.length) :
    xs.getD i 0 = v ↔ xs.countP (· < v) ≤ i ∧ i < xs.countP (· < v) + xs.count v := by
  induction xs generalizing i with
  | nil => cases inside
  | cons x xs ih =>
      obtain ⟨above, sorted⟩ := List.pairwise_cons.mp sorted
      have none_ (le : v ≤ x) : xs.countP (· < v) = 0 :=
        List.countP_eq_zero.mpr fun y mem => by simpa using le.trans (above y mem)
      have absent (less : v < x) : xs.count v = 0 :=
        List.count_eq_zero.mpr fun mem => absurd (above v mem) (not_le.mpr less)
      rw [List.countP_cons, List.count_cons]
      cases i with
      | zero =>
          obtain less | rfl | more := lt_trichotomy x v
          · simp [less, less.ne]
          · simp [none_ le_rfl]
          · simp [none_ more.le, absent more, more.ne', more.le, more.not_gt]
      | succ i =>
          rw [List.getD_cons_succ, ih sorted (Nat.lt_of_succ_lt_succ inside)]
          obtain less | rfl | more := lt_trichotomy x v
          · simp [less, less.ne]
            omega
          · simp [none_ le_rfl]
          · simp [none_ more.le, absent more, more.ne', more.le, more.not_gt]

/-- The number of cards of smaller values. -/
def below (cards : List Card) (v : Nat) : Nat := cards.countP fun card => V card < v

theorem valueAt_iff (sorted : cards.Pairwise cardLe) (least : 1 ≤ i) (most : i ≤ cards.length) :
    valueAt cards i = v ↔ below cards v < i ∧ i ≤ below cards v + valueNum cards v := by
  have values : (cards.map V).Pairwise (· ≤ ·) := List.pairwise_map.mpr (sorted.imp V_le_of_cardLe)
  have smaller : (cards.map V).countP (· < v) = below cards v := List.countP_map
  rw [valueAt_eq, valueNum_eq, sorted_getD values (by rw [List.length_map]; omega), smaller]
  omega

theorem below_add_le (cards : List Card) (v : Nat) : below cards v + valueNum cards v ≤ cards.length := by
  induction cards with
  | nil => exact le_rfl
  | cons card cards ih =>
      simp only [below, valueNum_eq, List.countP_cons, List.map_cons, List.count_cons, List.length_cons] at ih ⊢
      by_cases less : V card < v
      · simp [less, less.ne]
        omega
      · by_cases same : V card = v
        · simp [same]
          omega
        · simp [less, same]
          omega

theorem below_succ (cards : List Card) (v : Nat) : below cards (v + 1) = below cards v + valueNum cards v := by
  induction cards with
  | nil => rfl
  | cons card cards ih =>
      simp only [below, valueNum_eq, List.countP_cons, List.map_cons, List.count_cons, Nat.lt_add_one_iff] at ih ⊢
      obtain less | rfl | more := lt_trichotomy (V card) v
      · simp [less, less.le, less.ne]
        omega
      · simp
        omega
      · simp [more.ne', more.not_gt, more.not_ge]
        omega

theorem below_mono {w : Nat} (le : v ≤ w) : below cards v ≤ below cards w :=
  List.countP_mono_left fun card _ less => by simpa using lt_of_lt_of_le (of_decide_eq_true less) le

/-- The cards of a value stand before those of a larger one. -/
theorem below_lt {w : Nat} (less : v < w) : below cards v + valueNum cards v ≤ below cards w :=
  below_succ cards v ▸ below_mono less

theorem OfDeck.nodup_num (deck : OfDeck cards) (king : 0xe ≤ v) : valueNum cards v ≤ 1 := by
  refine (deck.subperm v).length_le.trans ?_
  by_cases small : v < 16
  · have all : ∀ v < 16, 0xe ≤ v → (valueGroup create_a_pair_cards v).length ≤ 1 := by decide
    exact all v small king
  · have empty : valueGroup create_a_pair_cards v = [] :=
      List.filter_eq_nil_iff.mpr fun card _ same => small (of_decide_eq_true same ▸ V_lt card)
    rw [empty]
    exact Nat.zero_le 1

/-- More than four cards of a deck are not all of one value. -/
theorem OfDeck.ends (deck : OfDeck cards) (sorted : cards.Pairwise cardLe) (many : 4 < cards.length) :
    valueAt cards 1 ≠ valueAt cards cards.length := by
  intro same
  have last := (valueAt_iff sorted (by omega) le_rfl).mp same.symm
  have first := (valueAt_iff sorted le_rfl (by omega)).mp (rfl : valueAt cards 1 = valueAt cards 1)
  have most := deck.valueNum_le (valueAt cards 1)
  omega

theorem find_num {n : Nat} {w : Nat} (here : valueNum cards w = n) (pos : 0 < n)
    (alone : ∀ v, valueNum cards v = n → v = w) :
    (valueKeys cards).find? (fun v => valueNum cards v = n) = some w := by
  have mem := mem_keys_of_num (here ▸ pos : 0 < valueNum cards w)
  cases found : (valueKeys cards).find? fun v => valueNum cards v = n with
  | none => exact absurd (decide_eq_true here) (List.find?_eq_none.mp found w mem)
  | some v => rw [alone v (of_decide_eq_true (List.find?_some found :))]

end Positions

section Small
variable {cards : List Card} {type : CardType} {weight v w : Nat}

theorem gives_append {xs ys : List CardTypeObj} :
    Gives (xs ++ ys) type weight ↔ Gives xs type weight ∨ Gives ys type weight := by
  simp only [Gives, List.mem_append, or_and_right, exists_or]

theorem gives_singleton {obj : CardTypeObj} :
    Gives [obj] type weight ↔ obj.type = type ∧ obj.weight = weight := by
  simp only [Gives, List.mem_singleton, exists_eq_left]

theorem gives_nil : ¬Gives [] type weight := fun ⟨_, mem, _⟩ => List.not_mem_nil mem

theorem gives_isSanDaiYi (sorted : cards.Pairwise cardLe) (four : cards.length = 4) :
    Gives ((isSanDaiYi cards).getD []) type weight ↔ type = .sandaiyi ∧ valueNum cards weight = 3 := by
  rw [isSanDaiYi, if_pos four]
  constructor
  · intro gives
    split at gives
    · exact absurd gives gives_nil
    · obtain ⟨obj, mem, rfl, rfl⟩ := gives
      obtain ⟨v, found, rfl⟩ := List.mem_map.mp mem
      exact ⟨rfl, of_decide_eq_true (List.find?_some (Option.mem_toList.mp found) :)⟩
  · rintro ⟨rfl, three⟩
    have alone : ∀ v, valueNum cards v = 3 → v = weight := by
      intro v three'
      by_contra differ
      have both := @valueNum_add_le cards v weight differ
      omega
    have inside := below_add_le cards weight
    have second : valueAt cards 2 = weight := (valueAt_iff sorted (by omega) (by omega)).mpr (by omega)
    have third : valueAt cards 3 = weight := (valueAt_iff sorted (by omega) (by omega)).mpr (by omega)
    have differ : valueAt cards 1 ≠ valueAt cards 4 := by
      intro same
      obtain here | here := Nat.lt_or_ge 0 (below cards weight)
      · have last := (valueAt_iff sorted (by omega) (by omega)).mpr
          (by omega : below cards weight < 4 ∧ 4 ≤ below cards weight + valueNum cards weight)
        have first := (valueAt_iff sorted le_rfl (by omega)).mp (same.trans last)
        omega
      · have first := (valueAt_iff sorted le_rfl (by omega)).mpr
          (by omega : below cards weight < 1 ∧ 1 ≤ below cards weight + valueNum cards weight)
        have last := (valueAt_iff sorted (by omega) (by omega)).mp (same.symm.trans first)
        omega
    rw [if_neg (by simp [differ, second, third]), find_num three (by omega) alone]
    exact ⟨_, List.mem_singleton.mpr rfl, rfl, rfl⟩

theorem star4_some {k : Nat} {b : BombType} (rank : star4 k = some b) : 2 ≤ k ∧ k ≤ 5 := by
  unfold star4 at rank
  split at rank
  · decide
  · decide
  · decide
  · decide
  · cases rank

/-- The types that a hand of four cards or fewer can have. -/
theorem ruleBook_small (few : cards.length ≤ 4) (rule : RuleBook cards type weight) :
    (type = .dan ∧ cards.length = 1 ∧ valueNum cards weight = 1) ∨
      (type = .dui ∧ cards.length = 2 ∧ valueNum cards weight = 2) ∨
      (type = .tuple ∧ cards.length = 3 ∧ valueNum cards weight = 3) ∨
      (type = .sandaiyi ∧ cards.length = 4 ∧ valueNum cards weight = 3) ∨
      (type = .zhadan ∧ cards.length = 4 ∧ ∃ v, valueNum cards v = 4 ∧ weight = COMB v (BombInfoData .yingzha)) ∨
      (type = .zhadan ∧ cards.length = 2 ∧ valueNum cards 0xe = 1 ∧ valueNum cards 0xf = 1 ∧
        weight = COMB 0 (BombInfoData .wangzha)) := by
  cases type with
  | dan => exact .inl ⟨rfl, rule⟩
  | dui => exact .inr (.inl ⟨rfl, rule⟩)
  | tuple => exact .inr (.inr (.inl ⟨rfl, rule⟩))
  | sandaiyi => exact .inr (.inr (.inr (.inl ⟨rfl, rule⟩)))
  | sandaiyidui | sidaier | sidailiangdui =>
      have := rule.1
      omega
  | shunzi | liandui | feiji_budai =>
      obtain ⟨k, many, run⟩ := rule
      have := run.num
      omega
  | feiji_daidan | feiji_daidui => exact rule.elim
  | zhadan =>
      obtain ⟨v, four, num, same⟩ | rocket | ⟨k, v, b, rank, run, -⟩ := rule
      · exact .inr (.inr (.inr (.inr (.inl ⟨rfl, four, v, num, same⟩))))
      · exact .inr (.inr (.inr (.inr (.inr ⟨rfl, rocket⟩))))
      · have := run.num
        have := star4_some rank
        omega

theorem gives_one (sorted : cards.Pairwise cardLe) (one : cards.length = 1) :
    Gives [.plain .dan (valueAt cards 1)] type weight ↔ RuleBook cards type weight := by
  have inside := below_add_le cards weight
  have first := @valueAt_iff cards weight 1 sorted le_rfl (by omega)
  rw [gives_singleton]
  constructor
  · rintro ⟨rfl, same⟩
    have := first.mp same
    exact ⟨one, by omega⟩
  · intro rule
    obtain ⟨rfl, -, num⟩ | ⟨-, other, -⟩ | ⟨-, other, -⟩ | ⟨-, other, -⟩ | ⟨-, other, -⟩ | ⟨-, other, -⟩ :=
      ruleBook_small (by omega) rule
    · exact ⟨rfl, first.mpr (by omega)⟩
    all_goals omega

theorem rocket_iff (deck : OfDeck cards) (sorted : cards.Pairwise cardLe) (two : cards.length = 2) :
    valueAt cards 1 = 0xe ∧ valueAt cards 2 = 0xf ↔ valueNum cards 0xe = 1 ∧ valueNum cards 0xf = 1 := by
  have first := @valueAt_iff cards 0xe 1 sorted le_rfl (by omega)
  have second := @valueAt_iff cards 0xf 2 sorted (by omega) (by omega)
  have small := deck.nodup_num (v := 0xe) le_rfl
  have big := deck.nodup_num (v := 0xf) (by decide)
  have next : below cards 0xf = below cards 0xe + valueNum cards 0xe := below_succ cards 0xe
  have inside := below_add_le cards 0xf
  omega

theorem gives_two (deck : OfDeck cards) (sorted : cards.Pairwise cardLe) (two : cards.length = 2) :
    Gives (parseCardTypeTwo cards) type weight ↔ RuleBook cards type weight := by
  have rocket := rocket_iff deck sorted two
  have first (v : Nat) := @valueAt_iff cards v 1 sorted le_rfl (by omega)
  have second (v : Nat) := @valueAt_iff cards v 2 sorted (by omega) (by omega)
  simp only [parseCardTypeTwo]
  constructor
  · intro gives
    split at gives
    · rename_i kings
      obtain ⟨rfl, rfl⟩ := gives_singleton.mp gives
      obtain ⟨small, big⟩ := rocket.mp kings
      exact .inr (.inl ⟨two, small, big, rfl⟩)
    · split at gives
      · rename_i same
        obtain ⟨rfl, rfl⟩ := gives_singleton.mp gives
        have one := (first _).mp rfl
        have other := (second _).mp same.symm
        have inside := below_add_le cards (valueAt cards 1)
        exact ⟨two, by dsimp only [CardTypeObj.plain]; omega⟩
      · exact absurd gives gives_nil
  · intro rule
    obtain ⟨-, other, -⟩ | ⟨rfl, -, num⟩ | ⟨-, other, -⟩ | ⟨-, other, -⟩ | ⟨-, other, -⟩ | ⟨rfl, -, small, big, rfl⟩ :=
      ruleBook_small (by omega) rule
    · omega
    · have inside := below_add_le cards weight
      have here := (first weight).mpr (by omega)
      have here' := (second weight).mpr (by omega)
      have other : ¬(valueAt cards 1 = 0xe ∧ valueAt cards 2 = 0xf) := by omega
      rw [if_neg other, if_pos (here.trans here'.symm), here]
      exact gives_singleton.mpr ⟨rfl, rfl⟩
    · omega
    · omega
    · omega
    · rw [if_pos (rocket.mpr ⟨small, big⟩)]
      exact gives_singleton.mpr ⟨rfl, rfl⟩

theorem gives_three (sorted : cards.Pairwise cardLe) (three : cards.length = 3) :
    Gives (parseCardTypeThree cards) type weight ↔ RuleBook cards type weight := by
  have first (v : Nat) := @valueAt_iff cards v 1 sorted le_rfl (by omega)
  have last (v : Nat) := @valueAt_iff cards v cards.length sorted (by omega) le_rfl
  rw [parseCardTypeThree]
  constructor
  · intro gives
    split at gives
    · rename_i same
      obtain ⟨rfl, rfl⟩ := gives_singleton.mp gives
      have one := (first _).mp rfl
      have other := (last _).mp same.symm
      have inside := below_add_le cards (valueAt cards 1)
      exact ⟨three, by dsimp only [CardTypeObj.plain]; omega⟩
    · exact absurd gives gives_nil
  · intro rule
    obtain ⟨-, other, -⟩ | ⟨-, other, -⟩ | ⟨rfl, -, num⟩ | ⟨-, other, -⟩ | ⟨-, other, -⟩ | ⟨-, other, -⟩ :=
      ruleBook_small (by omega) rule
    · omega
    · omega
    · have inside := below_add_le cards weight
      have here := (first weight).mpr (by omega)
      have here' := (last weight).mpr (by omega)
      rw [if_pos (here.trans here'.symm), here]
      exact gives_singleton.mpr ⟨rfl, rfl⟩
    all_goals omega

theorem gives_isZhaDan (sorted : cards.Pairwise cardLe) (four : cards.length = 4) :
    ∃ t, isZhaDan cards = .ok t ∧ ∀ type weight, Gives (t.getD []) type weight ↔
      type = .zhadan ∧ ∃ v, valueNum cards v = 4 ∧ weight = COMB v (BombInfoData .yingzha) := by
  have first (v : Nat) := @valueAt_iff cards v 1 sorted le_rfl (by omega)
  have last (v : Nat) := @valueAt_iff cards v 4 sorted (by omega) (by omega)
  simp only [isZhaDan, four, if_true]
  split
  · rename_i same
    refine ⟨_, rfl, fun type weight => gives_singleton.trans ?_⟩
    have one := (first _).mp rfl
    have other := (last _).mp same.2.symm
    have num : valueNum cards (valueAt cards 1) = 4 := by
      have inside := below_add_le cards (valueAt cards 1)
      omega
    constructor
    · rintro ⟨rfl, rfl⟩
      exact ⟨rfl, _, num, rfl⟩
    · rintro ⟨rfl, v, num', rfl⟩
      obtain rfl : valueAt cards 1 = v := by
        by_contra differ
        have both := @valueNum_add_le cards (valueAt cards 1) v differ
        omega
      exact ⟨rfl, rfl⟩
  · rename_i differ
    refine ⟨_, rfl, fun type weight => iff_of_false gives_nil ?_⟩
    rintro ⟨-, v, num, -⟩
    have inside := below_add_le cards v
    have here := (first v).mpr (by omega)
    have here' := (last v).mpr (by omega)
    exact differ ⟨by omega, here.trans here'.symm⟩

theorem gives_four (sorted : cards.Pairwise cardLe) (four : cards.length = 4) :
    ∃ arr, parseCardTypeFour cards = .ok arr ∧ ∀ type weight, Gives arr type weight ↔ RuleBook cards type weight := by
  obtain ⟨t, found, gives⟩ := gives_isZhaDan sorted four
  refine ⟨_, by rw [parseCardTypeFour, found]; rfl, fun type weight => ?_⟩
  rw [gives_append, gives, gives_isSanDaiYi sorted four]
  constructor
  · rintro (⟨rfl, v, num, rfl⟩ | ⟨rfl, three⟩)
    · exact .inl ⟨v, four, num, rfl⟩
    · exact ⟨four, three⟩
  · intro rule
    obtain ⟨-, other, -⟩ | ⟨-, other, -⟩ | ⟨-, other, -⟩ | ⟨rfl, -, three⟩ | ⟨rfl, -, bomb⟩ | ⟨-, other, -⟩ :=
      ruleBook_small four.le rule
    · omega
    · omega
    · omega
    · exact .inr ⟨rfl, three⟩
    · exact .inl ⟨rfl, bomb⟩
    · omega

end Small

section Groups
variable {cards : List Card} {type : CardType} {weight u v w : Nat}

theorem countP_mem_cons {values : List Nat} (new : v ∉ values) :
    cards.countP (fun card => V card ∈ v :: values) = valueNum cards v + cards.countP fun card => V card ∈ values := by
  induction cards with
  | nil => rfl
  | cons card cards ih =>
      simp only [valueNum_eq, List.map_cons, List.count_cons, List.countP_cons, List.mem_cons,
        Bool.decide_or] at ih ⊢
      by_cases here : V card = v
      · simp [here, new, ih]
        omega
      · simp [here, ih]
        omega

theorem valueNum_sum {values : List Nat} (fresh : values.Nodup) :
    (values.map (valueNum cards)).sum = cards.countP fun card => V card ∈ values := by
  induction values with
  | nil => exact (List.countP_eq_zero.mpr fun card _ => by simp).symm
  | cons v values ih =>
      obtain ⟨new, fresh⟩ := List.nodup_cons.mp fresh
      rw [List.map_cons, List.sum_cons, ih fresh, countP_mem_cons new]

/-- The groups of different values do not share a card. -/
theorem valueNum_sum_le {values : List Nat} (fresh : values.Nodup) :
    (values.map (valueNum cards)).sum ≤ cards.length :=
  valueNum_sum fresh ▸ List.countP_le_length

theorem valueKeys_sum (cards : List Card) : ((valueKeys cards).map (valueNum cards)).sum = cards.length := by
  rw [valueNum_sum (valueKeys_nodup cards), List.countP_eq_length]
  exact fun card mem => decide_eq_true (mem_valueKeys.mpr ⟨card, mem, rfl⟩)

theorem valueNum_add_three (uv : u ≠ v) (uw : u ≠ w) (vw : v ≠ w) :
    valueNum cards u + valueNum cards v + valueNum cards w ≤ cards.length := by
  have total := @valueNum_sum_le cards [u, v, w] (by simp [uv, uw, vw])
  simp only [List.map_cons, List.map_nil, List.sum_cons, List.sum_nil] at total
  omega

theorem getKingCount_pos (kings : 0 < getKingCount cards) : ∃ u, 0xe ≤ u ∧ 0 < valueNum cards u := by
  obtain ⟨card, mem, king⟩ := List.countP_pos_iff.mp kings
  exact ⟨V card, of_decide_eq_true king, valueNum_pos.mpr ⟨card, mem, rfl⟩⟩

theorem gives_isSanDaiYiDui (deck : OfDeck cards) (sorted : cards.Pairwise cardLe) :
    Gives ((isSanDaiYiDui cards).getD []) type weight ↔
      type = .sandaiyidui ∧ RuleBook cards .sandaiyidui weight := by
  simp only [isSanDaiYiDui]
  constructor
  · intro gives
    split at gives
    · rename_i five
      split at gives
      · exact absurd gives gives_nil
      split at gives
      · exact absurd gives gives_nil
      split at gives
      · rename_i v w two three
        obtain ⟨rfl, rfl⟩ := gives_singleton.mp gives
        exact ⟨rfl, five, of_decide_eq_true (List.find?_some three :), v, of_decide_eq_true (List.find?_some two :)⟩
      · exact absurd gives gives_nil
    · exact absurd gives gives_nil
  · rintro ⟨rfl, five, three, v, two⟩
    have differ : v ≠ weight := fun same => by rw [same] at two; omega
    have alone (u : Nat) (held : 0 < valueNum cards u) : u = weight ∨ u = v := by
      by_contra other
      rw [not_or] at other
      have total := @valueNum_add_three cards u v weight other.2 other.1 differ
      omega
    have kings : ¬getKingCount cards > 0 := by
      intro some_
      obtain ⟨u, king, held⟩ := getKingCount_pos some_
      have one := deck.nodup_num king
      obtain rfl | rfl := alone u held
      · omega
      · omega
    have start : valueAt cards 1 = valueAt cards 2 := by
      have inside := below_add_le cards weight
      have inside' := below_add_le cards v
      obtain less | more := Nat.lt_or_gt_of_ne differ
      · have next := @below_lt cards v weight less
        have here := (valueAt_iff sorted le_rfl (by omega)).mpr (by omega : below cards v < 1 ∧ _)
        have here' := (valueAt_iff sorted (i := 2) (by omega) (by omega)).mpr (by omega : below cards v < 2 ∧ _)
        exact here.trans here'.symm
      · have next := @below_lt cards weight v more
        have here := (valueAt_iff sorted le_rfl (by omega)).mpr (by omega : below cards weight < 1 ∧ _)
        have here' := (valueAt_iff sorted (i := 2) (by omega) (by omega)).mpr (by omega : below cards weight < 2 ∧ _)
        exact here.trans here'.symm
    have find3 := find_num three (by omega) fun u here => (alone u (by omega)).resolve_right fun same => by
      rw [same] at here
      omega
    have find2 := find_num two (by omega) fun u here => (alone u (by omega)).resolve_left fun same => by
      rw [same] at here
      omega
    rw [if_pos five, if_neg (not_not.mpr start), if_neg kings, find2, find3]
    exact gives_singleton.mpr ⟨rfl, rfl⟩

theorem gives_isSiDaiEr (deck : OfDeck cards) (sorted : cards.Pairwise cardLe) :
    Gives ((isSiDaiEr cards).getD []) type weight ↔ type = .sidaier ∧ RuleBook cards .sidaier weight := by
  simp only [isSiDaiEr]
  constructor
  · intro gives
    split at gives
    · rename_i six
      split at gives
      · exact absurd gives gives_nil
      split at gives
      · exact absurd gives gives_nil
      split at gives
      · split at gives
        · rename_i four
          obtain ⟨rfl, rfl⟩ := gives_singleton.mp gives
          exact ⟨rfl, six, four⟩
        · exact absurd gives gives_nil
      · exact absurd gives gives_nil
    · exact absurd gives gives_nil
  · rintro ⟨rfl, six, four⟩
    have inside := below_add_le cards weight
    have ends := deck.ends sorted (by omega)
    rw [six] at ends
    have third := (valueAt_iff sorted (i := 3) (by omega) (by omega)).mpr (by omega : below cards weight < 3 ∧ _)
    have fourth := (valueAt_iff sorted (i := 4) (by omega) (by omega)).mpr (by omega : below cards weight < 4 ∧ _)
    have found : (valueKeys cards).find? (fun v => 4 ≤ valueNum cards v) = some weight := by
      rw [← find_num four (by omega) fun u here => ?_]
      · refine List.find?_congr fun u _ => ?_
        have most := deck.valueNum_le u
        exact decide_eq_decide.mpr (by omega)
      · by_contra differ
        have both := @valueNum_add_le cards u weight differ
        omega
    rw [if_pos six, if_neg ends, if_neg (not_not.mpr (third.trans fourth.symm)), found]
    dsimp only
    rw [if_pos four]
    exact gives_singleton.mpr ⟨rfl, rfl⟩

/-- Two fours of neighbouring values up to the ace. -/
def AdjacentFours (cards : List Card) : Prop :=
  ∃ v, v + 1 ≤ 0xc ∧ valueNum cards v = 4 ∧ valueNum cards (v + 1) = 4

/-- The group of four that the loop of `isSiDaiLiangDui` keeps. -/
def largestFour (cards : List Card) (keys : List Nat) : Option Nat :=
  keys.foldl (fun arr4 v => if valueNum cards v = 4 then some (arr4.elim v (max v)) else arr4) none

theorem largestFour_snoc (cards : List Card) (keys : List Nat) (u : Nat) : largestFour cards (keys ++ [u]) =
    if valueNum cards u = 4 then some ((largestFour cards keys).elim u (max u)) else largestFour cards keys := by
  rw [largestFour, List.foldl_append]
  rfl

theorem largestFour_spec (cards : List Card) (keys : List Nat) :
    (∀ m ∈ largestFour cards keys, valueNum cards m = 4) ∧
      ∀ v ∈ keys, valueNum cards v = 4 → ∃ m ∈ largestFour cards keys, v ≤ m := by
  induction keys using List.reverseRecOn with
  | nil => exact ⟨fun m same => (Option.not_mem_none m same).elim, fun v mem => absurd mem List.not_mem_nil⟩
  | append_singleton keys u ih =>
      obtain ⟨sound, covers⟩ := ih
      rw [largestFour_snoc]
      split
      · rename_i four
        cases kept : largestFour cards keys with
        | none =>
            refine ⟨fun m same => Option.some.inj same ▸ four, fun v mem here => ⟨u, rfl, ?_⟩⟩
            obtain old | rfl := List.mem_append.mp mem |>.imp_right List.mem_singleton.mp
            · obtain ⟨m, same, -⟩ := covers v old here
              rw [kept] at same
              cases same
            · exact le_rfl
        | some w =>
            refine ⟨fun m same => ?_, fun v mem here => ⟨max u w, rfl, ?_⟩⟩
            · obtain rfl : max u w = m := Option.some.inj same
              obtain larger | larger := max_choice u w
              · rw [larger, four]
              · rw [larger, sound w kept]
            · obtain old | rfl := List.mem_append.mp mem |>.imp_right List.mem_singleton.mp
              · obtain ⟨m, same, le⟩ := covers v old here
                rw [kept] at same
                obtain rfl : w = m := Option.some.inj same
                exact le.trans (le_max_right u w)
              · exact le_max_left v w
      · rename_i other
        refine ⟨sound, fun v mem here => ?_⟩
        obtain old | rfl := List.mem_append.mp mem |>.imp_right List.mem_singleton.mp
        · exact covers v old here
        · exact absurd here other

theorem largestFour_some : largestFour cards (valueKeys cards) = some w ↔
    valueNum cards w = 4 ∧ ∀ v, valueNum cards v = 4 → v ≤ w := by
  obtain ⟨sound, covers⟩ := largestFour_spec cards (valueKeys cards)
  have listed {v : Nat} (four : valueNum cards v = 4) : v ∈ valueKeys cards := mem_keys_of_num (by omega)
  constructor
  · intro kept
    refine ⟨sound w kept, fun v four => ?_⟩
    obtain ⟨m, same, le⟩ := covers v (listed four) four
    rw [kept] at same
    exact Option.some.inj same ▸ le
  · rintro ⟨four, most⟩
    obtain ⟨m, same, le⟩ := covers w (listed four) four
    rw [Option.mem_def.mp same, le_antisymm (most m (sound m same)) le]

/-- Two groups of a size are counted where the others leave no room for a third. -/
theorem countP_two {n : Nat} (pos : 0 < n) (room : ∀ values : List Nat, values.Nodup →
    (∀ u ∈ values, valueNum cards u = n) → values.length ≤ 2) :
    (valueKeys cards).countP (valueNum cards · = n) = 2 ↔
      ∃ v w, v ≠ w ∧ valueNum cards v = n ∧ valueNum cards w = n := by
  rw [List.countP_eq_length_filter]
  have fresh := (valueKeys_nodup cards).filter fun u => decide (valueNum cards u = n)
  have sized (u : Nat) (mem : u ∈ (valueKeys cards).filter fun u => decide (valueNum cards u = n)) :
      valueNum cards u = n := of_decide_eq_true (List.mem_filter.mp mem).2
  constructor
  · intro two
    obtain ⟨v, w, pair⟩ := List.length_eq_two.mp two
    rw [pair] at fresh sized
    refine ⟨v, w, fun same => ?_, sized v (by simp), sized w (by simp)⟩
    simp [same] at fresh
  · rintro ⟨v, w, differ, here, here'⟩
    have least : List.Subperm [v, w] ((valueKeys cards).filter fun u => decide (valueNum cards u = n)) := by
      refine List.subperm_of_subset (by simp [differ]) fun u mem => ?_
      simp only [List.mem_cons, List.not_mem_nil, or_false] at mem
      obtain rfl | rfl := mem
      · exact List.mem_filter.mpr ⟨mem_keys_of_num (by omega), decide_eq_true here⟩
      · exact List.mem_filter.mpr ⟨mem_keys_of_num (by omega), decide_eq_true here'⟩
    exact le_antisymm (room _ fresh sized) least.length_le

/-- Beside a group of four, eight cards have room for two pairs. -/
theorem countP_pairs (eight : cards.length = 8) (four : valueNum cards weight = 4) :
    (valueKeys cards).countP (valueNum cards · = 2) = 2 ↔
      ∃ v w, v ≠ w ∧ valueNum cards v = 2 ∧ valueNum cards w = 2 := by
  refine countP_two (by decide) fun values fresh sized => ?_
  have new : weight ∉ values := fun mem => by
    have := sized weight mem
    omega
  have total := @valueNum_sum_le cards (weight :: values) (List.nodup_cons.mpr ⟨new, fresh⟩)
  rw [List.map_cons, List.sum_cons, List.map_congr_left sized, List.map_const', List.sum_replicate, four] at total
  have : 4 + values.length * 2 ≤ 8 := eight ▸ total
  omega

/-- What the loop finds in eight cards. -/
theorem scan_eight (deck : OfDeck cards) (sorted : cards.Pairwise cardLe) (eight : cards.length = 8) :
    (∃ arr4Count duiCount, siDaiLiangDuiScan cards (valueKeys cards) none 0 0 = (some weight, arr4Count, duiCount) ∧
      (arr4Count = 2 ∨ duiCount = 2)) ↔ RuleBook cards .sidailiangdui weight := by
  have scan : siDaiLiangDuiScan cards (valueKeys cards) none 0 0 =
      (largestFour cards (valueKeys cards), 0 + _, 0 + _) := deck.scan sorted (valueKeys cards)
  have fours := @countP_two cards 4 (by decide) fun values fresh sized => by
    have total := @valueNum_sum_le cards values fresh
    rw [List.map_congr_left sized, List.map_const', List.sum_replicate] at total
    have : values.length * 4 ≤ 8 := eight ▸ total
    omega
  simp only [scan, zero_add, Prod.mk.injEq]
  constructor
  · rintro ⟨arr4Count, duiCount, ⟨kept, rfl, rfl⟩, counts⟩
    obtain ⟨four, most⟩ := largestFour_some.mp kept
    refine ⟨eight, four, ?_⟩
    obtain two | two := counts
    · obtain ⟨v, w, differ, here, here'⟩ := fours.mp two
      have := most v here
      have := most w here'
      by_cases same : v = weight
      · exact .inl ⟨w, by omega, here'⟩
      · exact .inl ⟨v, by omega, here⟩
    · exact .inr ((countP_pairs eight four).mp two)
  · rintro ⟨-, four, others⟩
    have most : ∀ v, valueNum cards v = 4 → v ≤ weight := by
      intro v here
      by_contra more
      obtain ⟨u, less, here'⟩ | ⟨u, w, differ, here', here''⟩ := others
      · have := @valueNum_add_three cards u v weight (by omega) (by omega) (by omega)
        omega
      · have := @valueNum_add_three cards u v weight (by rintro rfl; omega) (by rintro rfl; omega) (by omega)
        omega
    refine ⟨_, _, ⟨largestFour_some.mpr ⟨four, most⟩, rfl, rfl⟩, ?_⟩
    obtain ⟨v, less, here⟩ | two := others
    · exact .inl (fours.mpr ⟨v, weight, by omega, here, four⟩)
    · exact .inr ((countP_pairs eight four).mpr two)

theorem two_keys (differ : v ≠ w) (held : 0 < valueNum cards v) (held' : 0 < valueNum cards w) :
    2 ≤ (valueKeys cards).length :=
  length_le_keys (by simp [differ] : [v, w].Nodup) (by simp [held, held'])

/-- The two groups of eight cards that are two fours of neighbouring values. -/
theorem adjacent_iff (deck : OfDeck cards) (sorted : cards.Pairwise cardLe) (eight : cards.length = 8) :
    (valueKeys cards).length = 2 ∧ valueAt cards 1 + 1 = valueAt cards 8 ∧ valueAt cards 8 ≠ 0xd ↔
      AdjacentFours cards := by
  have first (v : Nat) := @valueAt_iff cards v 1 sorted le_rfl (by omega)
  have last (v : Nat) := @valueAt_iff cards v 8 sorted (by omega) (by omega)
  constructor
  · rintro ⟨two, next, other⟩
    have here := (first _).mp rfl
    have here' := (last _).mp rfl
    have most := deck.valueNum_le (valueAt cards 1)
    have most' := deck.valueNum_le (valueAt cards 8)
    obtain ⟨a, b, keys⟩ := List.length_eq_two.mp two
    have total := valueKeys_sum cards
    rw [keys, eight] at total
    simp only [List.map_cons, List.map_nil, List.sum_cons, List.sum_nil] at total
    have mem := mem_keys_of_num (by omega : 0 < valueNum cards (valueAt cards 1))
    have mem' := mem_keys_of_num (by omega : 0 < valueNum cards (valueAt cards 8))
    have kings := @OfDeck.nodup_num cards (valueAt cards 8) deck
    have most := deck.valueNum_le a
    have most' := deck.valueNum_le b
    simp only [keys, List.mem_cons, List.not_mem_nil, or_false] at mem mem'
    have four : valueNum cards (valueAt cards 1) = 4 := by
      obtain same | same := mem
      · rw [same]
        omega
      · rw [same]
        omega
    have four' : valueNum cards (valueAt cards 8) = 4 := by
      obtain same | same := mem'
      · rw [same]
        omega
      · rw [same]
        omega
    exact ⟨valueAt cards 1, by omega, four, next ▸ four'⟩
  · rintro ⟨v, most, four, four'⟩
    have inside := below_add_le cards (v + 1)
    have next := below_succ cards v
    have here := (first v).mpr (by omega)
    have here' := (last (v + 1)).mpr (by omega)
    refine ⟨le_antisymm ?_ ?_, by omega, by omega⟩
    · have inside : ∀ u ∈ valueKeys cards, u ∈ [v, v + 1] := by
        intro u mem
        have held := valueNum_pos.mpr (mem_valueKeys.mp mem)
        by_contra other
        simp only [List.mem_cons, List.not_mem_nil, or_false, not_or] at other
        have := @valueNum_add_three cards u v (v + 1) other.1 other.2 (by omega)
        omega
      exact (List.subperm_of_subset (valueKeys_nodup cards) inside).length_le
    · exact two_keys (v := v) (w := v + 1) (by omega) (by omega) (by omega)

/-- The code leaves two fours of neighbouring values to the chained bomb. -/
theorem gives_isSiDaiLiangDui (deck : OfDeck cards) (sorted : cards.Pairwise cardLe) :
    Gives ((isSiDaiLiangDui cards).getD []) type weight ↔
      type = .sidailiangdui ∧ RuleBook cards .sidailiangdui weight ∧ ¬AdjacentFours cards := by
  simp only [isSiDaiLiangDui]
  constructor
  · intro gives
    split at gives
    · exact absurd gives gives_nil
    rename_i eight
    rw [ne_eq, not_not] at eight
    split at gives
    · exact absurd gives gives_nil
    split at gives
    · exact absurd gives gives_nil
    split at gives
    · exact absurd gives gives_nil
    split at gives
    · exact absurd gives gives_nil
    rename_i other
    split at gives
    · rename_i v arr4Count duiCount scan
      split at gives
      · rename_i counts
        obtain ⟨rfl, rfl⟩ := gives_singleton.mp gives
        exact ⟨rfl, (scan_eight deck sorted eight).mp ⟨arr4Count, duiCount, scan, counts⟩,
          fun fours => other ((adjacent_iff deck sorted eight).mpr fours)⟩
      · exact absurd gives gives_nil
    · exact absurd gives gives_nil
  · rintro ⟨rfl, rule, other⟩
    obtain ⟨arr4Count, duiCount, scan, counts⟩ := (scan_eight deck sorted rule.1).mpr rule
    obtain ⟨eight, four, others⟩ := rule
    have ends := deck.ends sorted (by omega)
    rw [eight] at ends
    -- the smallest value is that of a whole group
    have start : valueAt cards 1 = valueAt cards 2 := by
      have here := (@valueAt_iff cards _ 1 sorted le_rfl (by omega)).mp rfl
      refine ((@valueAt_iff cards _ 2 sorted (by omega) (by omega)).mpr ?_).symm
      by_contra single
      obtain ⟨v, less, four'⟩ | ⟨v, w, differ, two, two'⟩ := others
      · have := @valueNum_add_three cards (valueAt cards 1) v weight (by rintro same; rw [same] at single here; omega)
          (by rintro same; rw [same] at single here; omega) (by omega)
        omega
      · have total := @valueNum_sum_le cards [valueAt cards 1, v, w, weight] (by
          simp only [List.nodup_cons, List.mem_cons, List.not_mem_nil, or_false, not_or, not_false_eq_true,
            List.nodup_nil, and_true]
          refine ⟨⟨?_, ?_, ?_⟩, ⟨differ, ?_⟩, ?_⟩
          · intro same
            rw [same] at single here
            omega
          · intro same
            rw [same] at single here
            omega
          · intro same
            rw [same] at single here
            omega
          · intro same
            rw [same] at two
            omega
          · intro same
            rw [same] at two'
            omega)
        simp only [List.map_cons, List.map_nil, List.sum_cons, List.sum_nil] at total
        omega
    have least : ¬(valueKeys cards).length < 2 := by
      obtain ⟨v, less, four'⟩ | ⟨v, w, differ, two, two'⟩ := others
      · have := @two_keys cards v weight (by omega) (by omega) (by omega)
        omega
      · have := @three_keys cards v w weight (by omega) (by omega) (by omega) differ (by rintro rfl; omega) (by rintro rfl; omega)
        omega
    rw [if_neg (by omega), if_neg ends, if_neg (by omega), if_neg least,
      if_neg fun adjacent => other ((adjacent_iff deck sorted eight).mp adjacent), scan]
    dsimp only
    rw [if_pos counts]
    exact gives_singleton.mpr ⟨rfl, rfl⟩

end Groups

section Runs
variable {cards : List Card} {type : CardType} {weight c k start v : Nat}

theorem count_run (c k start v : Nat) : ((List.range' start k).flatMap (List.replicate c)).count v =
    if start ≤ v ∧ v < start + k then c else 0 := by
  rw [count_flatMap_replicate, (List.nodup_range' : (List.range' start k).Nodup).count]
  simp only [List.mem_range'_1]
  split
  · exact mul_one c
  · exact mul_zero c

/-- The room that some values in a row have for cards, no more than `c` of each. -/
theorem values_subperm (inside : ∀ v, 0 < valueNum cards v → start ≤ v ∧ v < start + k)
    (few : ∀ v, valueNum cards v ≤ c) :
    List.Subperm (cards.map V) ((List.range' start k).flatMap (List.replicate c)) := by
  refine List.subperm_ext_iff.mpr fun v mem => ?_
  have held : 0 < valueNum cards v := valueNum_eq cards v ▸ List.count_pos_iff.mpr mem
  rw [count_run, if_pos (inside v held), ← valueNum_eq]
  exact few v

theorem length_le_of_few (inside : ∀ v, 0 < valueNum cards v → start ≤ v ∧ v < start + k)
    (few : ∀ v, valueNum cards v ≤ c) : cards.length ≤ c * k := by
  have room := (values_subperm inside few).length_le
  rwa [length_flatMap_replicate, List.length_range', List.length_map] at room

/-- As many cards as there is room for are a run. -/
theorem isRun_of_le (num : cards.length = c * k) (most : start + k ≤ 0xd)
    (inside : ∀ v, 0 < valueNum cards v → start ≤ v ∧ v < start + k) (few : ∀ v, valueNum cards v ≤ c) :
    IsRun cards c k start := by
  have perm := (values_subperm inside few).perm_of_length_le
    (by rw [length_flatMap_replicate, List.length_range', List.length_map, num])
  refine ⟨num, most, fun j less => ?_⟩
  rw [valueNum_eq, perm.count_eq, count_run, if_pos (by omega)]

theorem IsRun.perm (run : IsRun cards c k start) :
    (cards.map V).Perm ((List.range' start k).flatMap (List.replicate c)) := by
  have sub : List.Subperm ((List.range' start k).flatMap (List.replicate c)) (cards.map V) := by
    refine List.subperm_ext_iff.mpr fun v mem => ?_
    obtain ⟨u, listed, copy⟩ := List.mem_flatMap.mp mem
    obtain rfl := List.eq_of_mem_replicate copy
    have here := List.mem_range'_1.mp listed
    have num := run.each (v - start) (by omega)
    rw [show start + (v - start) = v by omega] at num
    rw [count_run, if_pos here, ← valueNum_eq, num]
  exact (sub.perm_of_length_le (by
    rw [length_flatMap_replicate, List.length_range', List.length_map, run.num])).symm

theorem IsRun.valueNum_eq (run : IsRun cards c k start) (v : Nat) :
    valueNum cards v = if start ≤ v ∧ v < start + k then c else 0 := by
  rw [Ddz.valueNum_eq, run.perm.count_eq, count_run]

/-- A run begins with its smallest value. -/
theorem IsRun.first (run : IsRun cards c k start) (sorted : cards.Pairwise cardLe) (pos : 0 < cards.length) :
    valueAt cards 1 = start := by
  have := run.num
  have wide : 0 < k := Nat.pos_of_ne_zero (by rintro rfl; omega)
  refine (valueAt_iff sorted le_rfl pos).mpr ?_
  have none_ : below cards start = 0 := by
    refine List.countP_eq_zero.mpr fun card mem less => ?_
    have held : 0 < valueNum cards (V card) := valueNum_pos.mpr ⟨card, mem, rfl⟩
    have less := of_decide_eq_true less
    rw [run.valueNum_eq, if_neg (by omega)] at held
    omega
  have some_ : 0 < c := Nat.pos_of_ne_zero (by rintro rfl; omega)
  rw [run.valueNum_eq, if_pos (by omega)]
  omega

theorem king_or_2 (card : Card) : (isKing card || is2 card) = decide (0xd ≤ V card) := by
  rw [isKing, is2, ← Bool.decide_or]
  exact decide_eq_decide.mpr (by omega)

/-- After a first card, the loop of `isShunZi` asks for the next value each time, up to the ace. -/
theorem shunZiScan_some {dic : List Nat} {lo last : Nat} {acc : Nat × Nat × Nat} (seen : ∀ u ∈ dic, u ≤ last)
    (le : lo ≤ last) (small : last < 0xd) : shunZiScan cards dic (some (lo, last, last)) = some acc ↔
      cards.map V = List.range' (last + 1) cards.length ∧ last + cards.length < 0xd ∧
        acc = (lo, last + cards.length, last + cards.length) := by
  induction cards generalizing dic last with
  | nil => simp [shunZiScan, small, eq_comm]
  | cons card cards ih =>
      rw [shunZiScan, List.map_cons, List.length_cons, List.range'_succ]
      by_cases next : V card = last + 1
      · have new : V card ∉ dic := fun mem => by
          have := seen _ mem
          omega
        rw [king_or_2, if_neg (by simpa using next), if_neg new]
        by_cases low : V card < 0xd
        · have lo' : min (V card) lo = lo := by omega
          have last' : max (V card) last = V card := by omega
          rw [if_neg (by simpa using low)]
          rw [lo', last', ih (fun u mem => ?_) (by omega) low, next, List.cons.injEq]
          · simp only [true_and]
            rw [show last + 1 + cards.length = last + (cards.length + 1) by omega]
          · obtain rfl | old := List.mem_cons.mp mem
            · exact le_rfl
            · exact (seen u old).trans (by omega)
        · rw [if_pos (by simpa using low)]
          simp
          omega
      · rw [if_pos (by simpa using next)]
        simp [next]

/-- Consecutive values up to the ace, once each. -/
theorem shunZiScan_start {acc : Nat × Nat × Nat} (pos : 0 < cards.length) :
    shunZiScan cards [] none = some acc ↔
      cards.map V = List.range' (valueAt cards 1) cards.length ∧ valueAt cards 1 + cards.length ≤ 0xd ∧
        acc = (valueAt cards 1, valueAt cards 1 + (cards.length - 1), valueAt cards 1 + (cards.length - 1)) := by
  cases cards with
  | nil => cases pos
  | cons card cards =>
      have first : valueAt (card :: cards) 1 = V card := rfl
      rw [shunZiScan, first, List.map_cons, List.length_cons, List.range'_succ, king_or_2]
      by_cases low : V card < 0xd
      · rw [if_neg (by simp), if_neg List.not_mem_nil, if_neg (by simpa using low)]
        rw [shunZiScan_some (by simp) le_rfl low, List.cons.injEq, eq_self, true_and, Nat.add_sub_cancel,
          ← Nat.add_assoc, Nat.succ_le_iff]
      · rw [if_neg (by simp), if_neg List.not_mem_nil, if_pos (by simpa using low)]
        simp
        omega

/-- The values of a sorted hand that is a run of single cards. -/
theorem isRun_one (sorted : cards.Pairwise cardLe) :
    IsRun cards 1 k start ↔ cards.length = k ∧ start + k ≤ 0xd ∧ cards.map V = List.range' start k := by
  have once : (List.range' start k).flatMap (List.replicate 1) = List.range' start k := by simp [List.replicate]
  constructor
  · intro run
    have values : (cards.map V).Pairwise (· ≤ ·) := List.pairwise_map.mpr (sorted.imp V_le_of_cardLe)
    have perm := run.perm
    rw [once] at perm
    exact ⟨run.num.trans (one_mul k), run.most, perm.eq_of_pairwise' values
      ((List.pairwise_lt_range' : (List.range' start k).Pairwise (· < ·)).imp le_of_lt)⟩
  · rintro ⟨num, most, values⟩
    refine ⟨num.trans (one_mul k).symm, most, fun j less => ?_⟩
    rw [valueNum_eq, values, ← once, count_run, if_pos (by omega)]

theorem gives_isShunZi (sorted : cards.Pairwise cardLe) :
    Gives ((isShunZi cards).getD []) type weight ↔ type = .shunzi ∧ RuleBook cards .shunzi weight := by
  rw [isShunZi]
  constructor
  · intro gives
    split at gives
    · exact absurd gives gives_nil
    rename_i five
    split at gives
    · exact absurd gives gives_nil
    rename_i acc minVal maxVal lastVal scan
    split at gives
    · exact absurd gives gives_nil
    obtain ⟨rfl, rfl⟩ := gives_singleton.mp gives
    obtain ⟨values, most, -⟩ := (shunZiScan_start (by omega)).mp scan
    exact ⟨rfl, cards.length, by omega, (isRun_one sorted).mpr ⟨rfl, most, values⟩⟩
  · rintro ⟨rfl, k, five, run⟩
    obtain ⟨rfl, most, values⟩ := (isRun_one sorted).mp run
    obtain rfl := run.first sorted (by omega)
    rw [if_neg (by omega), (shunZiScan_start (by omega)).mpr ⟨values, most, rfl⟩]
    dsimp only
    rw [if_neg (by omega)]
    exact gives_singleton.mpr ⟨rfl, rfl⟩

/-- One more value of a list, counted with those before it. -/
theorem counts_cons {limit x : Nat} {xs dic : List Nat} :
    (∀ u ∈ x :: xs, dic.count u + (x :: xs).count u ≤ limit) ↔
      dic.count x + 1 ≤ limit ∧ ∀ u ∈ xs, (x :: dic).count u + xs.count u ≤ limit := by
  constructor
  · intro all
    have here := all x List.mem_cons_self
    rw [List.count_cons_self] at here
    refine ⟨by omega, fun u mem => ?_⟩
    have there := all u (List.mem_cons_of_mem _ mem)
    rw [List.count_cons] at there ⊢
    omega
  · rintro ⟨here, all⟩ u mem
    by_cases listed : u ∈ xs
    · have there := all u listed
      rw [List.count_cons] at there ⊢
      omega
    · obtain rfl := (List.mem_cons.mp mem).resolve_right listed
      rw [List.count_cons_self, List.count_eq_zero.mpr listed]
      omega

/-- The loop of `isRepeatRun` over sorted cards, after the first. -/
theorem repeatScan_some {limit lo hi : Nat} {dic : List Nat} {acc : Nat × Nat}
    (values : (cards.map V).Pairwise (· ≤ ·)) (above : ∀ card ∈ cards, hi ≤ V card) (le : lo ≤ hi) :
    repeatScan limit cards dic (some (lo, hi)) = some acc ↔
      (∀ card ∈ cards, V card < 0xd) ∧ (∀ v ∈ cards.map V, dic.count v + (cards.map V).count v ≤ limit) ∧
        acc = (lo, (cards.map V).getLastD hi) := by
  induction cards generalizing dic hi with
  | nil => simp [repeatScan, eq_comm]
  | cons card cards ih =>
      rw [List.map_cons, List.pairwise_cons] at values
      obtain ⟨least, values⟩ := values
      have here := above card List.mem_cons_self
      rw [repeatScan, king_or_2, List.map_cons, List.getLastD_cons]
      by_cases low : V card < 0xd
      · rw [if_neg (by simpa using low), counts_cons, List.count_cons_self]
        by_cases few : dic.count (V card) + 1 ≤ limit
        · have above' : ∀ other ∈ cards, V card ≤ V other := fun other mem =>
            least (V other) (List.mem_map_of_mem mem)
          rw [if_neg (by omega), show min (V card) lo = lo by omega, show max (V card) hi = V card by omega,
            ih values above' (by omega), List.forall_mem_cons]
          simp only [low, few, true_and]
        · rw [if_pos (by omega)]
          refine iff_of_false (by simp) fun all => few all.2.1.1
      · rw [if_pos (by simpa using low)]
        refine iff_of_false (by simp) fun all => low (all.1 card List.mem_cons_self)

theorem getLastD_values {hi : Nat} (pos : 0 < cards.length) :
    (cards.map V).getLastD hi = valueAt cards cards.length := by
  rw [valueAt_eq, List.getLastD_eq_getLast?, List.getLast?_eq_getElem?, List.getD_eq_getElem?_getD, List.length_map,
    List.getElem?_eq_getElem (by rw [List.length_map]; omega)]
  rfl

theorem repeatScan_start {limit : Nat} {acc : Nat × Nat} (sorted : cards.Pairwise cardLe) (pos : 0 < cards.length) :
    repeatScan limit cards [] none = some acc ↔
      (∀ card ∈ cards, V card < 0xd) ∧ (∀ v ∈ cards.map V, valueNum cards v ≤ limit) ∧
        acc = (valueAt cards 1, valueAt cards cards.length) := by
  have values : (cards.map V).Pairwise (· ≤ ·) := List.pairwise_map.mpr (sorted.imp V_le_of_cardLe)
  cases cards with
  | nil => cases pos
  | cons card cards =>
      have above : ∀ other ∈ card :: cards, V card ≤ V other := by
        rw [List.map_cons, List.pairwise_cons] at values
        refine List.forall_mem_cons.mpr ⟨le_rfl, fun other mem => values.1 (V other) (List.mem_map_of_mem mem)⟩
      have start : repeatScan limit (card :: cards) [] none =
          repeatScan limit (card :: cards) [] (some (V card, V card)) := by simp [repeatScan]
      rw [start, repeatScan_some values above le_rfl, getLastD_values pos]
      simp only [List.count_nil, zero_add, valueNum_eq]
      exact Iff.rfl

/-- All values lie between the first and the last. -/
theorem between_ends (sorted : cards.Pairwise cardLe) (held : 0 < valueNum cards v) :
    valueAt cards 1 ≤ v ∧ v ≤ valueAt cards cards.length := by
  have inside := below_add_le cards v
  have first := (@valueAt_iff cards _ 1 sorted le_rfl (by omega)).mp rfl
  have last := (@valueAt_iff cards _ cards.length sorted (by omega) le_rfl).mp rfl
  constructor
  · by_contra less
    have := @below_lt cards _ _ (not_le.mp less)
    omega
  · by_contra more
    have := @below_lt cards _ _ (not_le.mp more)
    omega

theorem gives_isRepeatRun {limit : Nat} {rule : CardType} (sorted : cards.Pairwise cardLe) (some_ : 0 < limit) :
    Gives ((isRepeatRun limit rule cards).getD []) type weight ↔
      type = rule ∧ 6 ≤ cards.length ∧ ∃ k, IsRun cards limit k weight := by
  simp only [isRepeatRun]
  constructor
  · intro gives
    split at gives
    · exact absurd gives gives_nil
    rename_i many
    rw [not_or, not_not] at many
    split at gives
    · exact absurd gives gives_nil
    rename_i acc minVal maxVal scan
    split at gives
    · exact absurd gives gives_nil
    rename_i spread
    obtain ⟨rfl, rfl⟩ := gives_singleton.mp gives
    obtain ⟨small, few, same⟩ := (repeatScan_start sorted (by omega)).mp scan
    obtain ⟨rfl, rfl⟩ := Prod.mk.inj same
    have num : cards.length = limit * (cards.length / limit) := (Nat.mul_div_cancel' (Nat.dvd_of_mod_eq_zero many.2)).symm
    have few' : ∀ v, valueNum cards v ≤ limit := by
      intro v
      by_cases held : 0 < valueNum cards v
      · exact few v (List.count_pos_iff.mp (valueNum_eq cards v ▸ held))
      · omega
    have wide := @length_le_of_few cards limit (valueAt cards cards.length - valueAt cards 1 + 1) (valueAt cards 1)
      (fun v held => by
        have := between_ends sorted held
        omega) few'
    have room : cards.length / limit ≤ valueAt cards cards.length - valueAt cards 1 + 1 :=
      Nat.le_of_mul_le_mul_left (num ▸ wide) some_
    have last := (@valueAt_iff cards _ cards.length sorted (by omega) le_rfl).mp rfl
    obtain ⟨card, mem, here⟩ := valueNum_pos.mp (by omega : 0 < valueNum cards (valueAt cards cards.length))
    have low := small card mem
    refine ⟨rfl, by omega, cards.length / limit, isRun_of_le num ?_ (fun v held => ?_) few'⟩
    · dsimp only [CardTypeObj.plain]
      have := (between_ends sorted (by omega : 0 < valueNum cards (valueAt cards cards.length))).1
      omega
    · have := between_ends sorted held
      dsimp only [CardTypeObj.plain]
      omega
  · rintro ⟨rfl, six, k, run⟩
    have num := run.num
    have whole : cards.length / limit = k := by rw [num, Nat.mul_div_cancel_left k some_]
    have divides : cards.length % limit = 0 := by rw [num, Nat.mul_mod_right]
    have inside (v : Nat) (held : 0 < valueNum cards v) : valueNum cards v = limit ∧ v < weight + k ∧ v < 0xd := by
      have most := run.most
      rw [run.valueNum_eq] at held ⊢
      split
      · omega
      · rename_i other
        rw [if_neg other] at held
        omega
    have last := (@valueAt_iff cards _ cards.length sorted (by omega) le_rfl).mp rfl
    have end_ := inside (valueAt cards cards.length) (by omega)
    have scan := (@repeatScan_start cards limit _ sorted (by omega)).mpr
      ⟨fun card mem => (inside (V card) (valueNum_pos.mpr ⟨card, mem, rfl⟩)).2.2, fun v mem =>
        (inside v (valueNum_eq cards v ▸ List.count_pos_iff.mpr mem)).1.le, rfl⟩
    have first := run.first sorted (by omega)
    have wide : 0 < k := Nat.pos_of_ne_zero (by rintro rfl; omega)
    rw [if_neg (by omega), scan, whole]
    dsimp only
    rw [if_neg (by omega), first]
    exact gives_singleton.mpr ⟨rfl, rfl⟩

theorem OfDeck.least (deck : OfDeck cards) (held : 0 < valueNum cards v) : 1 ≤ v := by
  obtain ⟨card, mem, rfl⟩ := valueNum_pos.mp held
  have all : ∀ card ∈ create_a_pair_cards, 1 ≤ V card := by decide
  exact all card (deck.subset card mem)

theorem star4_isSome : ∀ k, 2 ≤ k → k ≤ 5 → ∃ b, star4 k = some b
  | 2, _, _ => ⟨_, rfl⟩
  | 3, _, _ => ⟨_, rfl⟩
  | 4, _, _ => ⟨_, rfl⟩
  | 5, _, _ => ⟨_, rfl⟩

theorem firstRun_four (deck : OfDeck cards) (two : 2 ≤ k) (num : cards.length = 4 * k) :
    firstRun cards 4 k = some start ↔ IsRun cards 4 k start := by
  rw [firstRun_some (by omega)]
  constructor
  · exact fun found => ⟨num, found.2.1, found.2.2.1⟩
  · intro run
    refine ⟨deck.least (by rw [run.valueNum_eq, if_pos (by omega)]; decide), run.most, run.each, fun v _ less => ?_⟩
    rw [run.valueNum_eq, if_neg (by omega)]
    decide

/-- Runs of no more than five fours, which are all that a hand has room for, have a rank. -/
theorem gives_isLianZha4xN (deck : OfDeck cards) (sorted : cards.Pairwise cardLe) (many : 4 < cards.length)
    (few : ∀ k start, IsRun cards 4 k start → k ≤ 5) :
    ∃ t, isLianZha4xN cards = .ok t ∧ ∀ type weight, Gives (t.getD []) type weight ↔
      type = .zhadan ∧ ∃ k v b, star4 k = some b ∧ IsRun cards 4 k v ∧ weight = COMB v (BombInfoData b) := by
  simp only [isLianZha4xN]
  split
  · rename_i other
    refine ⟨none, rfl, fun type weight => iff_of_false gives_nil ?_⟩
    rintro ⟨-, k, v, b, rank, run, -⟩
    have num := run.num
    have two := star4_some rank
    omega
  rename_i shape
  rw [not_or, not_not] at shape
  rw [if_neg (deck.ends sorted many)]
  split
  · rename_i kinds
    refine ⟨none, rfl, fun type weight => iff_of_false gives_nil ?_⟩
    rintro ⟨-, k, v, b, rank, run, -⟩
    have two := star4_some rank
    have := @two_keys cards (v + 0) (v + 1) (by omega) (by rw [run.each 0 (by omega)]; decide)
      (by rw [run.each 1 (by omega)]; decide)
    omega
  cases found : firstRun cards 4 (cards.length / 4) with
  | none =>
      refine ⟨none, rfl, fun type weight => iff_of_false gives_nil ?_⟩
      rintro ⟨-, k, v, b, rank, run, -⟩
      have num := run.num
      have whole : cards.length / 4 = k := by omega
      rw [whole, (firstRun_four deck (by omega) num).mpr run] at found
      cases found
  | some start =>
      have run := (firstRun_four deck (by omega) (by omega)).mp found
      obtain ⟨b, rank⟩ := star4_isSome (cards.length / 4) (by omega) (few _ _ run)
      dsimp only
      rw [rank]
      refine ⟨_, rfl, fun type weight => gives_singleton.trans ?_⟩
      constructor
      · rintro ⟨rfl, rfl⟩
        exact ⟨rfl, _, start, b, rank, run, rfl⟩
      · rintro ⟨rfl, k, v, b', rank', run', rfl⟩
        have num := run'.num
        obtain rfl : cards.length / 4 = k := by omega
        obtain rfl := Option.some.inj (rank.symm.trans rank')
        rw [← run.first sorted (by omega), ← run'.first sorted (by omega)]
        exact ⟨rfl, rfl⟩

end Runs

/-- The types of the rule book, but two fours of neighbouring values are the chained bomb alone. -/
def Amended (cards : List Card) (type : CardType) (weight : Nat) : Prop :=
  RuleBook cards type weight ∧ ¬(type = .sidailiangdui ∧ AdjacentFours cards)

/-- No six fours in a row, which take more cards than a hand has. -/
def FewFours (cards : List Card) : Prop := ∀ k start, IsRun cards 4 k start → k ≤ 5

section Exact
variable {cards : List Card} {type : CardType} {weight : Nat}

/-- The least number of cards of a run, as its least number of values. -/
theorem six_cards {c n : Nat} (six : c * n = 6) :
    (6 ≤ cards.length ∧ ∃ k, IsRun cards c k weight) ↔ ∃ k, n ≤ k ∧ IsRun cards c k weight := by
  constructor
  · rintro ⟨many, k, run⟩
    refine ⟨k, Nat.le_of_mul_le_mul_left (six.le.trans (run.num ▸ many)) (Nat.pos_of_ne_zero ?_), run⟩
    rintro rfl
    omega
  · rintro ⟨k, least, run⟩
    exact ⟨run.num ▸ six.ge.trans (Nat.mul_le_mul_left c least), k, run⟩

theorem gives_other (deck : OfDeck cards) (sorted : cards.Pairwise cardLe) (many : 4 < cards.length)
    (few : FewFours cards) : ∃ arr, parseCardTypeOther cards = .ok arr ∧ ∀ type weight,
      type ≠ .feiji_daidan → type ≠ .feiji_daidui → (Gives arr type weight ↔ Amended cards type weight) := by
  obtain ⟨t, found, bombs⟩ := gives_isLianZha4xN deck sorted many few
  refine ⟨_, by rw [parseCardTypeOther, found]; rfl, fun type weight dan dui => ?_⟩
  have daiDan : ¬Gives ((isFeiJiDaiDan cards).getD []) type weight := by
    rintro ⟨obj, mem, same, -⟩
    exact dan (same.symm.trans (type_isFeiJiDaiDan mem))
  have daiDui : ¬Gives ((isFeiJiDaiDui cards).getD []) type weight := by
    rintro ⟨obj, mem, same, -⟩
    exact dui (same.symm.trans (type_isFeiJiDaiDui mem))
  simp only [gives_append, gives_isSanDaiYiDui deck sorted, gives_isSiDaiEr deck sorted,
    gives_isSiDaiLiangDui deck sorted, gives_isShunZi sorted, isLianDui, isFeiJiBuDai,
    gives_isRepeatRun sorted (by decide : 0 < 2), gives_isRepeatRun sorted (by decide : 0 < 3), daiDan, daiDui, bombs]
  cases type with
  | dan | dui | tuple | sandaiyi =>
      refine iff_of_false (by simp) fun rule => ?_
      have := rule.1.1
      omega
  | sandaiyidui | sidaier => simp [Amended]
  | sidailiangdui => simp [Amended]
  | shunzi => simp [Amended]
  | liandui =>
      simp only [reduceCtorEq, false_and, true_and, or_false, false_or, Amended, RuleBook, not_false_eq_true, and_true]
      exact six_cards rfl
  | feiji_budai =>
      simp only [reduceCtorEq, false_and, true_and, or_false, false_or, Amended, RuleBook, not_false_eq_true, and_true]
      exact six_cards rfl
  | feiji_daidan => exact absurd rfl dan
  | feiji_daidui => exact absurd rfl dui
  | zhadan =>
      simp only [reduceCtorEq, false_and, true_and, or_false, false_or, Amended, RuleBook, not_false_eq_true, and_true]
      constructor
      · exact fun bomb => .inr (.inr bomb)
      · rintro (⟨v, four, -⟩ | ⟨two, -⟩ | bomb)
        · omega
        · omega
        · exact bomb

theorem small_amended (few : cards.length ≤ 4) : Amended cards type weight ↔ RuleBook cards type weight := by
  refine and_iff_left_of_imp fun rule => ?_
  rintro ⟨rfl, -⟩
  have := rule.1
  omega

theorem valueNum_sort (cards : List Card) : valueNum (cardSort cards) = valueNum cards :=
  funext (valueNum_perm (cardSort_perm cards))

theorem isRun_sort {c k start : Nat} : IsRun (cardSort cards) c k start ↔ IsRun cards c k start := by
  constructor
  · rintro ⟨num, most, each⟩
    exact ⟨cardSort_length cards ▸ num, most, valueNum_sort cards ▸ each⟩
  · rintro ⟨num, most, each⟩
    exact ⟨(cardSort_length cards).trans num, most, (valueNum_sort cards).symm ▸ each⟩

theorem amended_sort : Amended (cardSort cards) type weight ↔ Amended cards type weight := by
  have rule : RuleBook (cardSort cards) type weight ↔ RuleBook cards type weight := by
    cases type with
    | _ => simp only [RuleBook, cardSort_length, valueNum_sort, isRun_sort]
  rw [Amended, Amended, rule, AdjacentFours, AdjacentFours, valueNum_sort]

theorem gives_parseCardType (deck : OfDeck cards) (some_ : cards ≠ []) (few : FewFours cards) :
    ∃ arr, parseCardType cards = .ok arr ∧ ∀ type weight,
      type ≠ .feiji_daidan → type ≠ .feiji_daidui → (Gives arr type weight ↔ Amended cards type weight) := by
  have sorted : (cardSort cards).Pairwise cardLe := List.pairwise_insertionSort cardLe cards
  replace deck := deck.perm (cardSort_perm cards)
  replace few : FewFours (cardSort cards) := fun k start run => few k start (isRun_sort.mp run)
  have pos : 0 < (cardSort cards).length := by
    rw [cardSort_length]
    exact List.length_pos_iff.mpr some_
  simp only [parseCardType, ← @amended_sort cards]
  generalize cardSort cards = cards at *
  split
  · rename_i one
    exact ⟨_, rfl, fun type weight _ _ => (gives_one sorted one).trans (small_amended (by omega)).symm⟩
  · rename_i two
    exact ⟨_, rfl, fun type weight _ _ => (gives_two deck sorted two).trans (small_amended (by omega)).symm⟩
  · rename_i three
    exact ⟨_, rfl, fun type weight _ _ => (gives_three sorted three).trans (small_amended (by omega)).symm⟩
  · rename_i four
    obtain ⟨arr, found, gives⟩ := gives_four sorted four
    exact ⟨arr, found, fun type weight _ _ => (gives type weight).trans (small_amended (by omega)).symm⟩
  · rename_i one two three four
    have one : cards.length ≠ 1 := one
    have two : cards.length ≠ 2 := two
    have three : cards.length ≠ 3 := three
    have four : cards.length ≠ 4 := four
    exact gives_other deck sorted (by omega) few

/-- Of the cards of a deck, but for six fours in a row, the types are those of the rule book, and there is no error. -/
theorem parse_ruleBook {o : PairsOrder} (deck : OfDeck cards) (some_ : cards ≠ []) (few : FewFours cards)
    (visits : o.Visits cards) : ∃ arr, parseCardTypeIn o cards = .ok arr ∧
      (∀ type weight, type ≠ .feiji_daidan → type ≠ .feiji_daidui →
        (Gives arr type weight ↔ Amended cards type weight)) ∧
      ((∀ weight, ¬Gives arr .feiji_daidan weight ∧ ¬Gives arr .feiji_daidui weight) →
        (arr = [] ↔ ∀ type weight, ¬Amended cards type weight)) := by
  rw [parseCardTypeIn_eq deck visits]
  obtain ⟨arr, found, gives⟩ := gives_parseCardType deck some_ few
  refine ⟨arr, found, gives, fun wingless => ?_⟩
  constructor
  · rintro rfl type weight rule
    by_cases dan : type = .feiji_daidan
    · exact absurd rule.1 (by rw [dan]; exact id)
    · by_cases dui : type = .feiji_daidui
      · exact absurd rule.1 (by rw [dui]; exact id)
      · exact gives_nil ((gives type weight dan dui).mpr rule)
  · intro none_
    refine List.eq_nil_iff_forall_not_mem.mpr fun obj mem => ?_
    have given : Gives arr obj.type obj.weight := ⟨obj, mem, rfl, rfl⟩
    refine none_ obj.type obj.weight ((gives obj.type obj.weight (fun dan => ?_) fun dui => ?_).mp given)
    · exact (wingless obj.weight).1 (dan ▸ given)
    · exact (wingless obj.weight).2 (dui ▸ given)

end Exact

/-- Four of a kind with two single cards. -/
theorem parse_ruleBook_six :
    ∃ arr, parseCardTypeIn ⟨[1, 2, 3], [1, 2, 3], [3, 2, 1], [1, 2, 3], [1, 2, 3], [1, 2, 3]⟩
        [0x11, 0x12, 0x21, 0x13, 0x31, 0x41] = .ok arr ∧
      (∀ type weight, type ≠ .feiji_daidan → type ≠ .feiji_daidui →
        (Gives arr type weight ↔ Amended [0x11, 0x12, 0x21, 0x13, 0x31, 0x41] type weight)) ∧
      ((∀ weight, ¬Gives arr .feiji_daidan weight ∧ ¬Gives arr .feiji_daidui weight) →
        (arr = [] ↔ ∀ type weight, ¬Amended [0x11, 0x12, 0x21, 0x13, 0x31, 0x41] type weight)) := by
  refine parse_ruleBook ⟨by decide, by decide⟩ (by decide) (fun k start run => ?_)
    ⟨by decide, by decide, by decide, by decide, by decide, by decide⟩
  have num : 6 = 4 * k := run.num
  omega

/-- Two fours of neighbouring values have two pairs each, but are the chained bomb alone. -/
theorem ruleBook_fail : ¬∀ o cards, OfDeck cards → cards ≠ [] → o.Visits cards →
    ∃ arr, parseCardTypeIn o cards = .ok arr ∧ ∀ type weight, type ≠ .feiji_daidan → type ≠ .feiji_daidui →
      (Gives arr type weight ↔ RuleBook cards type weight) := by
  intro all
  obtain ⟨arr, found, gives⟩ := all ⟨[1, 2], [1, 2], [1, 2], [1, 2], [1, 2], [1, 2]⟩
    [0x11, 0x21, 0x31, 0x41, 0x12, 0x22, 0x32, 0x42] ⟨by decide, by decide⟩ (by decide)
    ⟨by decide, by decide, by decide, by decide, by decide, by decide⟩
  have bomb : parseCardTypeIn ⟨[1, 2], [1, 2], [1, 2], [1, 2], [1, 2], [1, 2]⟩
      [0x11, 0x21, 0x31, 0x41, 0x12, 0x22, 0x32, 0x42] = .ok [⟨.zhadan, 0x501, .bomb .star_4_2⟩] := by decide
  obtain rfl := Except.ok.inj (found.symm.trans bomb)
  have rule : RuleBook [0x11, 0x21, 0x31, 0x41, 0x12, 0x22, 0x32, 0x42] .sidailiangdui 2 :=
    ⟨by decide, by decide, .inl ⟨1, by decide, by decide⟩⟩
  obtain ⟨obj, mem, same, -⟩ := (gives .sidailiangdui 2 (by decide) (by decide)).mpr rule
  obtain rfl := List.mem_singleton.mp mem
  cases same

end HuluLandlord.Ddz
