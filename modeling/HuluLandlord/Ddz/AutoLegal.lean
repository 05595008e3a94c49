import HuluLandlord.Ddz.SplitLegal

/-!
The moves of the auto-player against the rule book. The wings of a plane share no value with it, because the
threes are taken whole, and no value is left for the wings more than twice.
-/
namespace HuluLandlord.Ddz

section Counts
variable {xs ys : List Card} {vc : ValueCards} {vs : List Nat} {v : Nat}

theorem countP_value (cards : List Card) (v : Nat) :
    Multiset.countP (fun card => V card = v) (cards : Multiset Card) = valueNum cards v := by
  rw [Multiset.coe_countP, List.countP_eq_length_filter]
  rfl

theorem valueNum_append (xs ys : List Card) (v : Nat) : valueNum (xs ++ ys) v = valueNum xs v + valueNum ys v := by
  rw [valueNum, valueGroup, List.filter_append, List.length_append]
  rfl

theorem valueNum_le (le : (xs : Multiset Card) ≤ ys) (v : Nat) : valueNum xs v ≤ valueNum ys v := by
  rw [← countP_value, ← countP_value]
  exact Multiset.countP_le_of_le _ le

/-- Of a value the rows of a table hold what stands in its own. -/
theorem valueNum_rows (grouped : Grouped vc) (fresh : vs.Nodup) (v : Nat) :
    valueNum (vs.map vc).flatten v = if v ∈ vs then (vc v).length else 0 := by
  induction vs with
  | nil => rfl
  | cons u vs ih =>
      obtain ⟨new, fresh⟩ := List.nodup_cons.mp fresh
      rw [List.map_cons, List.flatten_cons, valueNum_append, ih fresh, valueNum_row (grouped u)]
      by_cases same : v = u
      · subst same
        rw [if_pos rfl, if_neg new, if_pos List.mem_cons_self, Nat.add_zero]
      · rw [if_neg same, Nat.zero_add]
        simp only [List.mem_cons, same, false_or]

end Counts

/-- A group of threes: `n` values from `i` on, three cards of each. -/
structure Threes (three : List Card) (i n : Nat) : Prop where
  wide : 1 ≤ n
  least : 1 ≤ i
  most : n = 1 ∨ i + n ≤ 0xd
  first : firstValue three = i
  length : three.length = 3 * n
  each : ∀ v, valueNum three v = if i ≤ v ∧ v < i + n then 3 else 0

section Split
variable {cards three wings : List Card} {i n v : Nat}

theorem threes_of_mem (mem : three ∈ (split_cards cards).three_list) : ∃ i n, Threes three i n := by
  obtain ⟨⟨i, piece⟩, found, rfl⟩ := List.mem_map.mp mem
  obtain ⟨_, _, m, shrinks, start, least, most, takes⟩ := collect_takes found
  have inside := List.mem_range'_1.mp start
  have enough : ∀ cards : List Card, decide (cards.length = 3) = true → 3 ≤ cards.length :=
    fun cards three => (of_decide_eq_true three).ge
  have own := ((grouped_valueGroup (removeKing cards).2).shrinks (zhadan_shrinks _)).shrinks shrinks
  exact ⟨i, m, least, inside.1, by omega, takes.firstValue own enough (by omega) (by decide),
    takes.length own enough, takes.valueNum_eq own enough⟩

/-- Threes, pairs and singles hold no value more than three times: four of one value are a bomb. -/
theorem rest_le_three (deck : OfDeck cards) (v : Nat) :
    Multiset.countP (fun card => V card = v) (pieces (split_cards cards).three_list +
      pieces (split_cards cards).dui_list + pieces (split_cards cards).dan_list) ≤ 3 := by
  have whole := Multiset.countP_le_of_le (fun card => V card = v) (split_le cards)
  rw [countP_value, Split.cards, add_assoc, add_assoc, Multiset.countP_add, ← add_assoc] at whole
  by_cases four : valueNum cards v = 4
  · have common : v < 0xe := by
      by_contra king
      have := deck.nodup_num (not_lt.mp king)
      omega
    have row : valueGroup (removeKing cards).2 v = valueGroup cards v := by
      rw [removeKing, valueGroup, valueGroup, List.filter_filter]
      refine List.filter_congr fun card _ => ?_
      by_cases same : V card = v
      · have plain : isKing card = false := decide_eq_false (by omega)
        simp [same, plain]
      · simp [same]
    have bomb : (⟨.zhadan, COMB v (BombInfoData .yingzha), valueGroup (removeKing cards).2 v⟩ : Move) ∈
        (split_cards cards).type_list := by
      refine (List.mem_insertionSort _).mpr (List.mem_append_left _ (List.mem_append_left _ (List.mem_append_right _ ?_)))
      refine List.mem_map.mpr ⟨v, List.mem_filter.mpr ⟨List.mem_range.mpr (by omega), decide_eq_true ?_⟩, rfl⟩
      exact (congrArg List.length row).trans four
    have taken := Multiset.countP_le_of_le (fun card => V card = v)
      (pieces_mem (List.mem_map_of_mem (f := Move.cards) bomb))
    dsimp only at taken
    rw [countP_value, row, valueNum_row fun card mem => (mem_valueGroup.mp mem).2, if_pos rfl] at taken
    have four : (valueGroup cards v).length = 4 := four
    omega
  · have most := deck.valueNum_le v
    omega

theorem split_dan (cards : List Card) : (split_cards cards).dan_list = find_all_danX (leftover cards)
    (if (removeKing cards).1.length = 2 then [] else (removeKing cards).1) := by
  simp only [split_cards, leftover, removeKing]

theorem split_dui (cards : List Card) : (split_cards cards).dui_list = find_all_duiX (leftover cards) := by
  simp only [split_cards, leftover, removeKing]

/-- Pairs and singles hold no value more than twice. -/
theorem wings_le_two (deck : OfDeck cards) (v : Nat) :
    Multiset.countP (fun card => V card = v)
      (pieces (split_cards cards).dui_list + pieces (split_cards cards).dan_list) ≤ 2 := by
  by_cases king : 0xe ≤ v
  · have whole := Multiset.countP_le_of_le (fun card => V card = v) (split_le cards)
    rw [countP_value, Split.cards, add_assoc, Multiset.countP_add] at whole
    have := deck.nodup_num king
    omega
  · have dan := pieces_danX (leftover cards)
      (if (removeKing cards).1.length = 2 then [] else (removeKing cards).1)
    have parts := congrArg (Multiset.countP fun card => V card = v)
      (pieces_dui_dan ((List.range 16).map (leftover cards)))
    have rows : Multiset.countP (fun card => V card = v) (pieces ((List.range 16).map (leftover cards))) ≤ 2 := by
      rw [pieces, countP_value, valueNum_rows (grouped_leftover cards) List.nodup_range]
      split
      · exact leftover_few deck v
      · exact Nat.zero_le 2
    have kings : Multiset.countP (fun card => V card = v)
        (if (removeKing cards).1.length = 2 then [] else (removeKing cards).1 : List Card) = 0 := by
      rw [countP_value]
      refine Nat.eq_zero_of_not_pos fun held => king ?_
      obtain ⟨card, mem, rfl⟩ := valueNum_pos.mp held
      split at mem
      · exact absurd mem List.not_mem_nil
      · exact of_decide_eq_true (List.mem_filter.mp (List.mem_reverse.mp mem)).2
    rw [Multiset.countP_add, Multiset.countP_add] at parts
    rw [Multiset.countP_add, split_dan, dan, Multiset.countP_add, kings, split_dui, find_all_duiX]
    omega

end Split

/-- A group of threes with wings of other values. -/
structure Winged (three wings : List Card) (i n : Nat) : Prop extends Threes three i n where
  apart : ∀ v, i ≤ v → v < i + n → valueNum wings v = 0
  few : ∀ v, valueNum wings v ≤ 2

section Winged
variable {cards three wings : List Card} {i n v : Nat}

theorem winged_of_mem (deck : OfDeck cards) (mem : three ∈ (split_cards cards).three_list) (threes : Threes three i n)
    (taken : (wings : Multiset Card) ≤ pieces (split_cards cards).dui_list + pieces (split_cards cards).dan_list) :
    Winged three wings i n := by
  refine ⟨threes, fun v least less => ?_, fun v => ?_⟩
  · have whole := rest_le_three deck v
    have own := Multiset.countP_le_of_le (fun card => V card = v) (pieces_mem mem)
    have others := Multiset.countP_le_of_le (fun card => V card = v) taken
    rw [add_assoc, Multiset.countP_add] at whole
    rw [countP_value, threes.each, if_pos ⟨least, less⟩] at own
    rw [countP_value] at others
    omega
  · rw [← countP_value]
    exact (Multiset.countP_le_of_le _ taken).trans (wings_le_two deck v)

theorem Winged.num (winged : Winged three wings i n) (v : Nat) :
    valueNum (three ++ wings) v = if i ≤ v ∧ v < i + n then 3 else valueNum wings v := by
  rw [valueNum_append, winged.each]
  split
  · rename_i inside
    rw [winged.apart v inside.1 inside.2]
  · exact Nat.zero_add _

/-- Threes of the move are those of the group. -/
theorem Winged.inside (winged : Winged three wings i n) (triple : 3 ≤ valueNum (three ++ wings) v) :
    i ≤ v ∧ v < i + n := by
  by_contra outside
  rw [winged.num, if_neg outside] at triple
  exact absurd (winged.few v) (by omega)

/-- What the two recognisers of planes with wings find is among the types. -/
theorem parses_plane {obj : CardTypeObj} (deck : OfDeck cards) (many : 4 < cards.length) (few : cards.length ≤ 20)
    (given : obj ∈ (isFeiJiDaiDan (cardSort cards)).getD [] ∨ obj ∈ (isFeiJiDaiDui (cardSort cards)).getD []) :
    ParsesAs cards obj.type obj.weight := by
  intro o visits
  rw [parseCardTypeIn_eq deck visits]
  have length := cardSort_length cards
  obtain ⟨t, found, -⟩ := gives_isLianZha4xN (deck.perm (cardSort_perm cards))
    (List.pairwise_insertionSort cardLe cards) (by omega) fun k start run => by
      have := run.num
      omega
  have other : parseCardType cards = parseCardTypeOther (cardSort cards) := by
    simp only [parseCardType]
    split
    all_goals first
      | omega
      | rfl
  refine ⟨_, other.trans (by rw [parseCardTypeOther, found]; rfl), obj, ?_, rfl, rfl⟩
  simp only [List.mem_append]
  obtain dan | dui := given
  · exact .inl (.inl (.inr dan))
  · exact .inl (.inr dui)

theorem Winged.daidan (winged : Winged three wings i n) (two : 2 ≤ n) (single : wings.length = n)
    (deck : OfDeck (three ++ wings)) (few : (three ++ wings).length ≤ 20) :
    ParsesAs (three ++ wings) .feiji_daidan i := by
  have length : (three ++ wings).length = 4 * n := by
    rw [List.length_append, winged.length, single]
    omega
  have sorted := valueNum_sort (three ++ wings)
  have num := winged.num
  have kinds : n + 1 ≤ (valueKeys (cardSort (three ++ wings))).length := by
    obtain ⟨card, mem⟩ := List.exists_mem_of_length_pos (by omega : 0 < wings.length)
    have some_ : 0 < valueNum wings (V card) := valueNum_pos.mpr ⟨card, mem, rfl⟩
    have outside : ¬(i ≤ V card ∧ V card < i + n) := fun inside => by
      have := winged.apart _ inside.1 inside.2
      omega
    have fresh : (V card :: List.range' i n).Nodup :=
      List.nodup_cons.mpr ⟨fun mem => outside (List.mem_range'_1.mp mem), List.nodup_range'⟩
    have held : (V card :: List.range' i n).length ≤ (valueKeys (cardSort (three ++ wings))).length := by
      refine length_le_keys fresh fun v mem => ?_
      rw [sorted, num]
      obtain rfl | run := List.mem_cons.mp mem
      · rwa [if_neg outside]
      · rw [if_pos (List.mem_range'_1.mp run)]
        decide
    rwa [List.length_cons, List.length_range'] at held
  have highest : IsHighest (cardSort (three ++ wings)) (i + n - 1) := by
    refine ⟨⟨?_, by omega, ?_⟩, fun u top => ?_⟩
    · rw [sorted, num, if_pos (by omega)]
    · rw [sorted, num, if_pos (by omega)]
      decide
    · have := winged.inside (sorted ▸ top.triple)
      omega
  have found := (isFeiJiDaiDanIn_eq (.refl _)).symm.trans ((isFeiJiDaiDanIn_some (.refl _)).mpr
    ⟨n, two, (cardSort_length _).trans length, kinds, highest, fun j less => by
      rw [sorted, num, if_pos (by omega)]⟩)
  have given : CardTypeObj.plain .feiji_daidan i ∈ (isFeiJiDaiDan (cardSort (three ++ wings))).getD [] := by
    rw [found]
    exact List.mem_singleton.mpr rfl
  exact parses_plane deck (by omega) few (.inl given)

theorem Winged.daidui (winged : Winged three wings i n) (two : 2 ≤ n) (pairs : wings.length = 2 * n)
    (even : ∀ v, valueNum wings v % 2 = 0) (deck : OfDeck (three ++ wings)) (few : (three ++ wings).length ≤ 20) :
    ParsesAs (three ++ wings) .feiji_daidui i := by
  have length : (three ++ wings).length = 5 * n := by
    rw [List.length_append, winged.length, pairs]
    omega
  have sorted := valueNum_sort (three ++ wings)
  have num := winged.num
  have most := winged.most
  have starts : StartsRun (cardSort (three ++ wings)) n i := by
    refine ⟨two, (cardSort_length _).trans length, winged.least, by omega, fun j less => ?_, fun v _ less => ?_,
      fun v => ?_⟩
    · rw [sorted, num, if_pos (by omega)]
    · intro triple
      have := winged.inside (v := v) (by rw [← sorted]; omega)
      omega
    · rw [sorted, num]
      split
      · exact .inl rfl
      · exact .inr (even v)
  have kinds : 3 ≤ (valueKeys (cardSort (three ++ wings))).length := by
    obtain ⟨card, mem⟩ := List.exists_mem_of_length_pos (by omega : 0 < wings.length)
    have some_ : 0 < valueNum wings (V card) := valueNum_pos.mpr ⟨card, mem, rfl⟩
    have outside : ¬(i ≤ V card ∧ V card < i + n) := fun inside => by
      have := winged.apart _ inside.1 inside.2
      omega
    refine starts.kinds (v := V card) ?_ outside
    rwa [sorted, num, if_neg outside]
  have found := (isFeiJiDaiDuiIn_eq (.refl _)).symm.trans
    ((isFeiJiDaiDuiIn_some (.refl _)).mpr ⟨n, starts, kinds⟩)
  have given : CardTypeObj.plain .feiji_daidui i ∈ (isFeiJiDaiDui (cardSort (three ++ wings))).getD [] := by
    rw [found]
    exact List.mem_singleton.mpr rfl
  exact parses_plane deck (by omega) few (.inr given)

theorem Winged.sandaiyi (winged : Winged three wings i 1) (single : wings.length = 1)
    (deck : OfDeck (three ++ wings)) : ParsesAs (three ++ wings) .sandaiyi i := by
  have length : (three ++ wings).length = 4 := by
    rw [List.length_append, winged.length, single]
  refine parsesAs_of_rule deck (by omega) ⟨length, ?_⟩ (by decide)
  rw [winged.num, if_pos (by omega)]

theorem Winged.sandaiyidui (winged : Winged three wings i 1) (pair : RuleBook wings .dui v)
    (deck : OfDeck (three ++ wings)) : ParsesAs (three ++ wings) .sandaiyidui i := by
  have length : (three ++ wings).length = 5 := by
    rw [List.length_append, winged.length, pair.1]
  refine parsesAs_of_rule deck (by omega) ⟨length, ?_, v, ?_⟩ (by decide)
  · rw [winged.num, if_pos (by omega)]
  · rw [winged.num, if_neg, pair.2]
    intro inside
    have := winged.apart v inside.1 inside.2
    have := pair.2
    omega

end Winged

section Leading
variable {cards three wings : List Card} {lists : List (List Card)} {i n k v : Nat} {move : Move}

theorem length_flatten_take (all : ∀ cards ∈ lists, cards.length = k) (enough : n ≤ lists.length) :
    (lists.take n).flatten.length = k * n := by
  induction lists generalizing n with
  | nil =>
      obtain rfl : n = 0 := Nat.le_zero.mp enough
      rfl
  | cons cards lists ih =>
      cases n with
      | zero => rfl
      | succ n =>
          rw [List.take_succ_cons, List.flatten_cons, List.length_append, all cards List.mem_cons_self,
            ih (fun cards mem => all cards (List.mem_cons_of_mem _ mem)) (Nat.le_of_succ_le_succ enough)]
          ring

theorem length_firstCards (lists : List (List Card)) : (firstCards lists).length = lists.length := List.length_map _

theorem split_pairs (mem : wings ∈ (split_cards cards).dui_list) : wings.length = 2 := (dui_rule mem).1

/-- Whole pairs hold every value an even number of times. -/
theorem even_duis (n v : Nat) : valueNum ((split_cards cards).dui_list.take n).flatten v % 2 = 0 := by
  rw [split_dui, find_all_duiX, List.filter_map, ← List.map_take,
    valueNum_rows (grouped_leftover cards) (List.Nodup.sublist (List.take_sublist n _) (List.nodup_range.filter _))]
  split
  · rename_i mem
    have two : (leftover cards v).length = 2 :=
      of_decide_eq_true (List.mem_filter.mp (List.mem_of_mem_take mem)).2
    rw [two]
  · rfl

/-- As many pairs are taken as cards are asked for, the last one in part. -/
theorem duiWings_ok (all : ∀ cards ∈ lists, cards.length = 2) (ndui n : Nat) (enough : ndui ≤ lists.length) :
    ∃ wings, duiWings lists ndui n = .ok wings ∧ wings.length = min (2 * ndui) n := by
  induction lists generalizing ndui n with
  | nil =>
      obtain rfl : ndui = 0 := Nat.le_zero.mp enough
      exact ⟨[], rfl, (Nat.zero_min n).symm⟩
  | cons cards lists ih =>
      have two := all cards List.mem_cons_self
      cases ndui with
      | zero => exact ⟨[], rfl, (Nat.zero_min n).symm⟩
      | succ ndui =>
          rw [duiWings, two]
          split
          · obtain ⟨rest, taken, length⟩ := ih (fun cards mem => all cards (List.mem_cons_of_mem _ mem))
              ndui (n - 2) (Nat.le_of_succ_le_succ enough)
            rw [taken]
            refine ⟨cards ++ rest, rfl, ?_⟩
            rw [List.length_append, two, length]
            omega
          · refine ⟨cards.take n, rfl, ?_⟩
            rw [List.length_take, two]
            omega

/-- A move of the decomposition is among the cards of the hand, which bounds it. -/
theorem parses_le (deck : OfDeck cards) (few : cards.length ≤ 20)
    (le : (wings : Multiset Card) ≤ (split_cards cards).cards) : OfDeck wings ∧ wings.length ≤ 20 := by
  have inHand := le.trans (split_le cards)
  exact ⟨deck.of_le inHand, (Multiset.card_le_card inHand).trans few⟩

/-- Threes with as many cards that the wings have left. -/
theorem singles_parse (deck : OfDeck cards) (few : cards.length ≤ 20) (mem : three ∈ (split_cards cards).three_list)
    (threes : Threes three i n)
    (taken : (wings : Multiset Card) ≤ pieces (split_cards cards).dui_list + pieces (split_cards cards).dan_list)
    (single : wings.length = n) :
    ParsesAs (three ++ wings) (if n > 1 then .feiji_daidan else .sandaiyi) i := by
  have winged := winged_of_mem deck mem threes taken
  obtain ⟨deck', few'⟩ := parses_le deck few (winged_le mem taken)
  split
  · rename_i two
    exact winged.daidan two single deck' few'
  · have one : n = 1 := by have := threes.wide; omega
    subst one
    exact winged.sandaiyi single deck'

theorem none_moves {P : Move → Prop} : ∀ move ∈ (none : Option Move), P move :=
  fun _ mem => absurd mem (Option.not_mem_none _)

theorem get_threeX_ok (deck : OfDeck cards) (few : cards.length ≤ 20) :
    ∃ found, get_threeX (split_cards cards) = .ok found ∧
      ∀ move ∈ found, ParsesAs move.cards move.type move.weight := by
  have singles := split_singles cards
  have pairs : ∀ dui ∈ (split_cards cards).dui_list, dui.length = 2 := fun dui mem => split_pairs mem
  rw [get_threeX]
  cases threes : (split_cards cards).three_list with
  | nil => exact ⟨none, rfl, none_moves⟩
  | cons three others =>
      have mem : three ∈ (split_cards cards).three_list := threes ▸ List.mem_cons_self
      obtain ⟨i, n, group⟩ := threes_of_mem mem
      have wide := group.wide
      have number : three.length / 3 = n := by rw [group.length, Nat.mul_div_cancel_left n (by decide)]
      simp only [number, group.first]
      by_cases dans : (split_cards cards).dan_list.length ≥ n
      · rw [if_pos dans]
        refine ⟨_, rfl, ?_⟩
        rintro _ ⟨⟩
        refine singles_parse deck few mem group ((firstCards_le singles n).trans (Multiset.le_add_left _ _)) ?_
        rw [length_firstCards, List.length_take, Nat.min_eq_left dans]
      rw [if_neg dans]
      by_cases duis : (split_cards cards).dui_list.length ≥ n
      · rw [if_pos duis]
        refine ⟨_, rfl, ?_⟩
        rintro _ ⟨⟩
        have taken := (flatten_take_le (split_cards cards).dui_list n).trans
          (Multiset.le_add_right _ (pieces (split_cards cards).dan_list))
        have winged := winged_of_mem deck mem group taken
        obtain ⟨deck', few'⟩ := parses_le deck few (winged_le mem taken)
        dsimp only
        split
        · rename_i two
          exact winged.daidui two (length_flatten_take pairs duis) (even_duis n) deck' few'
        · obtain rfl : n = 1 := by omega
          obtain ⟨dui, rest, first⟩ := List.exists_cons_of_length_pos duis
          rw [first] at winged deck' ⊢
          simp only [List.take_succ_cons, List.take_zero, List.flatten_cons, List.flatten_nil, List.append_nil]
            at winged deck' ⊢
          exact winged.sandaiyidui (dui_rule (first ▸ List.mem_cons_self)) deck'
      rw [if_neg duis]
      split
      · rename_i mixed
        have two : n > 1 := by omega
        generalize parity : (if (n - (split_cards cards).dan_list.length) % 2 = 0 then
          ((split_cards cards).dan_list.length : Int) else (split_cards cards).dan_list.length - 1) = ndan
        have ndan_eq : (ndan = (split_cards cards).dan_list.length ∧ (n - (split_cards cards).dan_list.length) % 2 = 0) ∨
            (ndan = (split_cards cards).dan_list.length - 1 ∧ (n - (split_cards cards).dan_list.length) % 2 = 1) := by
          split at parity <;> omega
        obtain ⟨wings, taken, length⟩ := duiWings_ok pairs (((n : Int) - ndan) / 2).toNat n (by omega)
        rw [taken]
        rw [decide_eq_true two]
        refine ⟨_, rfl, ?_⟩
        rintro _ ⟨⟩
        have taken' : ((firstCards ((split_cards cards).dan_list.take ndan.toNat) ++ wings : List Card) : Multiset Card) ≤
            pieces (split_cards cards).dui_list + pieces (split_cards cards).dan_list := by
          rw [← Multiset.coe_add, add_comm]
          exact add_le_add (duiWings_le taken) (firstCards_le singles _)
        have parsed := singles_parse deck few mem group taken' (by
          rw [List.length_append, length_firstCards, List.length_take, length]
          omega)
        rwa [if_pos two, ← List.append_assoc] at parsed
      · exact ⟨none, rfl, none_moves⟩

theorem dan_parse (deck : OfDeck cards) (few : cards.length ≤ 20) (mem : wings ∈ (split_cards cards).dan_list) :
    ParsesAs wings .dan (firstValue wings) := by
  obtain ⟨deck', few'⟩ := parses_le deck few (piece_le (.inr (.inr mem)))
  exact parsesAs_of_rule deck' few' (dan_rule mem) (by decide)

theorem dui_parse (deck : OfDeck cards) (few : cards.length ≤ 20) (mem : wings ∈ (split_cards cards).dui_list) :
    ParsesAs wings .dui (firstValue wings) := by
  obtain ⟨deck', few'⟩ := parses_le deck few (piece_le (.inr (.inl mem)))
  exact parsesAs_of_rule deck' few' (dui_rule mem) (by decide)

theorem type_parse (deck : OfDeck cards) (few : cards.length ≤ 20) (mem : move ∈ (split_cards cards).type_list) :
    ParsesAs move.cards move.type move.weight := by
  obtain ⟨deck', few'⟩ := parses_le deck few (type_list_le mem)
  obtain ⟨rule, single⟩ := types_rule deck mem
  exact parsesAs_of_rule deck' few' rule single

/-- Threes without wings. -/
theorem threes_parse (deck : OfDeck cards) (few : cards.length ≤ 20) (mem : three ∈ (split_cards cards).three_list) :
    ParsesAs three (if three.length = 3 then .tuple else .feiji_budai) (firstValue three) := by
  obtain ⟨deck', few'⟩ := parses_le deck few (piece_le (.inl mem))
  obtain ⟨i, n, group⟩ := threes_of_mem mem
  have length := group.length
  have most := group.most
  have wide := group.wide
  rw [group.first]
  split
  · obtain rfl : n = 1 := by omega
    refine parsesAs_of_rule deck' few' ⟨length, ?_⟩ (by decide)
    rw [group.each, if_pos (by omega)]
  · refine parsesAs_of_rule deck' few' ⟨n, by omega, length, by omega, fun j less => ?_⟩ (by decide)
    rw [group.each, if_pos (by omega)]

theorem get_playedcards_ok (deck : OfDeck cards) (few : cards.length ≤ 20) (some_ : cards ≠ []) :
    ∃ move, get_playedcards (split_cards cards) = .ok move ∧ ParsesAs move.cards move.type move.weight := by
  obtain ⟨found, threeX, legal⟩ := get_threeX_ok deck few
  simp only [get_playedcards, threeX, bind, Except.bind]
  cases found with
  | some move => exact ⟨move, rfl, legal move rfl⟩
  | none =>
      dsimp only
      split
      · rename_i dan _ dans
        exact ⟨_, rfl, dan_parse deck few (dans ▸ List.mem_cons_self)⟩
      · rename_i dui _ _ duis
        exact ⟨_, rfl, dui_parse deck few (duis ▸ List.mem_cons_self)⟩
      · rename_i three _ _ _ threes
        exact ⟨_, rfl, threes_parse deck few (threes ▸ List.mem_cons_self)⟩
      · rename_i item _ _ _ _ types
        exact ⟨item, rfl, type_parse deck few (types ▸ List.mem_cons_self)⟩
      · rename_i dans duis threes types
        have whole := split_eq deck
        rw [Split.cards, dans, duis, threes, types] at whole
        simp only [List.map_nil, pieces_nil, add_zero] at whole
        exact absurd ((Multiset.coe_eq_zero cards).mp whole.symm) some_

end Leading

/-- A last play as the room has accepted it. -/
def Recognised (last : PlayCardObj) : Prop :=
  ∃ arr, parseCardType last.cards = .ok arr ∧ Gives arr last.type last.weight

/-- The last play is three threes with three single cards, and the hand has a group of four threes above it:
as many cards, so it is taken for one that can follow, with three wings. -/
structure Misreads (s : Split) (last : PlayCardObj) : Prop where
  type : last.type = .feiji_daidan
  twelve : last.cards.length = 12
  wings : 3 ≤ s.dan_list.length ∨ s.dan_list.length = 1 ∧ 1 ≤ s.dui_list.length
  body : ∃ three ∈ s.three_list, three.length = 12 ∧ last.weight < firstValue three

/-- The move is of the type and the weight it is given, and beats the last play. -/
structure Follows (last : PlayCardObj) (move : Move) : Prop where
  parses : ParsesAs move.cards move.type move.weight
  beats : ∀ subtype, beats ⟨move.type, move.weight, move.cards, subtype⟩ last = true

section Lengths
variable {cards : List Card} {obj : CardTypeObj} {arr : List CardTypeObj}

theorem length_isRepeatRun {limit : Nat} {type : CardType} (mem : obj ∈ (isRepeatRun limit type cards).getD []) :
    6 ≤ cards.length := by
  by_contra few
  rw [isRepeatRun, if_pos (.inl (by omega))] at mem
  exact absurd mem List.not_mem_nil

theorem length_isFeiJiDaiDan (mem : obj ∈ (isFeiJiDaiDan cards).getD []) : cards.length % 4 = 0 := by
  by_contra other
  rw [isFeiJiDaiDan, if_pos (.inr other)] at mem
  exact absurd mem List.not_mem_nil

theorem length_isFeiJiDaiDui (mem : obj ∈ (isFeiJiDaiDui cards).getD []) :
    10 ≤ cards.length ∧ cards.length % 5 = 0 := by
  by_contra other
  rw [isFeiJiDaiDui, if_pos (by omega)] at mem
  exact absurd mem List.not_mem_nil

theorem type_isZhaDan {t : Option (List CardTypeObj)} (found : isZhaDan cards = .ok t) (mem : obj ∈ t.getD []) :
    obj.type = .zhadan := by
  simp only [isZhaDan] at found
  grind

theorem type_isLianZha4xN {t : Option (List CardTypeObj)} (found : isLianZha4xN cards = .ok t)
    (mem : obj ∈ t.getD []) : obj.type = .zhadan := by
  simp only [isLianZha4xN] at found
  grind

/-- The numbers of cards of planes. -/
theorem plane_length (parsed : parseCardType cards = .ok arr) (mem : obj ∈ arr) :
    (obj.type = .feiji_budai → 6 ≤ cards.length) ∧ (obj.type = .feiji_daidan → cards.length % 4 = 0) ∧
      (obj.type = .feiji_daidui → 10 ≤ cards.length ∧ cards.length % 5 = 0) := by
  have other {type : CardType} (same : obj.type = type)
      (none_ : type ≠ .feiji_budai ∧ type ≠ .feiji_daidan ∧ type ≠ .feiji_daidui) :
      (obj.type = .feiji_budai → 6 ≤ cards.length) ∧ (obj.type = .feiji_daidan → cards.length % 4 = 0) ∧
        (obj.type = .feiji_daidui → 10 ≤ cards.length ∧ cards.length % 5 = 0) := by
    rw [same]
    exact ⟨fun budai => absurd budai none_.1, fun dan => absurd dan none_.2.1, fun dui => absurd dui none_.2.2⟩
  have length := cardSort_length cards
  simp only [parseCardType] at parsed
  split at parsed
  · obtain rfl := Except.ok.inj parsed
    obtain rfl := List.mem_singleton.mp mem
    exact other (show _ = CardType.dan from rfl) (by decide)
  · obtain rfl := Except.ok.inj parsed
    simp only [parseCardTypeTwo] at mem
    split at mem
    · obtain rfl := List.mem_singleton.mp mem
      exact other (show _ = CardType.zhadan from rfl) (by decide)
    · split at mem
      · obtain rfl := List.mem_singleton.mp mem
        exact other (show _ = CardType.dui from rfl) (by decide)
      · exact absurd mem List.not_mem_nil
  · obtain rfl := Except.ok.inj parsed
    simp only [parseCardTypeThree] at mem
    split at mem
    · obtain rfl := List.mem_singleton.mp mem
      exact other (show _ = CardType.tuple from rfl) (by decide)
    · exact absurd mem List.not_mem_nil
  · simp only [parseCardTypeFour, bind, Except.bind, pure, Except.pure] at parsed
    split at parsed
    · cases parsed
    · rename_i four t found
      obtain rfl := Except.ok.inj parsed
      obtain mem | mem := List.mem_append.mp mem
      · exact other (type_isZhaDan found mem) (by decide)
      · exact other (type_isSanDaiYi mem) (by decide)
  · simp only [parseCardTypeOther, bind, Except.bind, pure, Except.pure] at parsed
    split at parsed
    · cases parsed
    · rename_i t found
      obtain rfl := Except.ok.inj parsed
      simp only [List.mem_append] at mem
      obtain (((((((mem | mem) | mem) | mem) | mem) | mem) | mem) | mem) | mem := mem
      · exact other (type_isSanDaiYiDui mem) (by decide)
      · exact other (type_isSiDaiEr mem) (by decide)
      · exact other (type_isSiDaiLiangDui mem) (by decide)
      · exact other (type_isShunZi mem) (by decide)
      · exact other (type_isRepeatRun mem) (by decide)
      · rw [type_isRepeatRun mem, ← length]
        exact ⟨fun _ => length_isRepeatRun mem, fun dan => absurd dan (by decide), fun dui => absurd dui (by decide)⟩
      · rw [type_isFeiJiDaiDan mem, ← length]
        exact ⟨fun budai => absurd budai (by decide), fun _ => length_isFeiJiDaiDan mem, fun dui => absurd dui (by decide)⟩
      · rw [type_isFeiJiDaiDui mem, ← length]
        exact ⟨fun budai => absurd budai (by decide), fun dan => absurd dan (by decide), fun _ => length_isFeiJiDaiDui mem⟩
      · exact other (type_isLianZha4xN found mem) (by decide)

end Lengths

section Following
variable {cards three wings : List Card} {last : PlayCardObj} {move : Move} {type : CardType} {i n : Nat}

theorem beats_same (same : type = last.type) (plain : type ≠ .zhadan) {weight : Nat} (more : weight > last.weight)
    (length : needCheckLength type = true → wings.length = last.cards.length) (subtype : CardSubType) :
    beats ⟨type, weight, wings, subtype⟩ last = true := by
  subst same
  have pass : needCheckLength last.type = false ∨ wings.length = last.cards.length := by
    cases check : needCheckLength last.type with
    | false => exact .inl rfl
    | true => exact .inr (length check)
  simpa [beats, plain, more] using pass

theorem find_zhadan_ok (deck : OfDeck cards) (few : cards.length ≤ 20)
    (found : find_zhadan (split_cards cards) last = some move) : Follows last move := by
  refine ⟨type_parse deck few (List.mem_of_find?_eq_some found), fun subtype => ?_⟩
  obtain ⟨bomb, bigger⟩ := of_decide_eq_true (List.find?_some found :)
  by_cases both : last.type = .zhadan
  · have more := bigger.resolve_left fun other => other both
    simp [beats, bomb, both, more]
  · simp [beats, bomb, both]

/-- The first of a list above the last play. -/
theorem above_ok {lists : List (List Card)} (same : type = last.type) (plain : type ≠ .zhadan)
    (free : needCheckLength type = false) (parses : ∀ cards ∈ lists, ParsesAs cards type (firstValue cards))
    (found : move ∈ (lists.find? fun cards => firstValue cards > last.weight).map fun cards =>
      (⟨type, firstValue cards, cards⟩ : Move)) : Follows last move := by
  obtain ⟨cards, first, rfl⟩ := Option.map_eq_some_iff.mp found
  exact ⟨parses cards (List.mem_of_find?_eq_some first), beats_same same plain (of_decide_eq_true (List.find?_some first :))
    fun check => absurd (check.symm.trans free) (by decide)⟩

/-- A group of threes above the last play, with its wings. -/
theorem winged_ok {fits : List Card → Bool} (same : type = last.type) (plain : type ≠ .zhadan)
    (parses : ∀ three ∈ (split_cards cards).three_list, fits three →
      ParsesAs (three ++ wings) type (firstValue three) ∧
        (needCheckLength type = true → (three ++ wings).length = last.cards.length))
    (found : move ∈ (threeAbove (split_cards cards) last.weight fits).map fun body =>
      (⟨type, firstValue body, body ++ wings⟩ : Move)) : Follows last move := by
  obtain ⟨three, first, rfl⟩ := Option.map_eq_some_iff.mp found
  obtain ⟨fit, more⟩ := of_decide_eq_true (List.find?_some first :)
  obtain ⟨parsed, length⟩ := parses three (threeAbove_mem first) fit
  exact ⟨parsed, beats_same same plain more length⟩

theorem searcher_ok (deck : OfDeck cards) (few : cards.length ≤ 20) (recognised : Recognised last)
    (read : ¬Misreads (split_cards cards) last) : ∃ found, searcher (split_cards cards) last = .ok found ∧
      ∀ move ∈ found, Follows last move := by
  obtain ⟨arr, parsed, obj, mem, sameType, -⟩ := recognised
  have lengths := plane_length parsed mem
  rw [sameType] at lengths
  have singles := split_singles cards
  have single : ∀ three ∈ (split_cards cards).three_list, decide (three.length = 3) = true →
      Threes three (firstValue three) 1 := by
    intro three mem fit
    obtain ⟨i, n, group⟩ := threes_of_mem mem
    have length := group.length
    have fit := of_decide_eq_true fit
    obtain rfl : n = 1 := by omega
    rw [group.first]
    exact group
  simp only [searcher]
  split
  · rename_i type
    exact ⟨_, rfl, fun move found => above_ok type.symm (by decide) rfl (fun cards mem => dan_parse deck few mem) found⟩
  · rename_i type
    exact ⟨_, rfl, fun move found => above_ok type.symm (by decide) rfl (fun cards mem => dui_parse deck few mem) found⟩
  · rename_i type
    refine ⟨_, rfl, fun move found => winged_ok type.symm (by decide) (fun three mem fit => ⟨?_, fun check => absurd check (by decide)⟩) found⟩
    have parsed := threes_parse deck few mem
    rw [if_pos (of_decide_eq_true fit)] at parsed
    rwa [List.append_nil]
  · rename_i type
    split
    · exact ⟨none, rfl, none_moves⟩
    · rename_i dan _ dans
      refine ⟨_, rfl, fun move found => winged_ok type.symm (by decide) (fun three mem fit => ⟨?_, fun check => absurd check (by decide)⟩) found⟩
      have taken : ((firstCards [dan] : List Card) : Multiset Card) ≤ pieces (split_cards cards).dan_list := by
        have first := firstCards_le singles 1
        rwa [dans] at first ⊢
      exact singles_parse deck few mem (single three mem fit) (taken.trans (Multiset.le_add_left _ _)) rfl
  · rename_i type
    split
    · exact ⟨none, rfl, none_moves⟩
    · rename_i dui _ duis
      refine ⟨_, rfl, fun move found => winged_ok type.symm (by decide) (fun three mem fit => ⟨?_, fun check => absurd check (by decide)⟩) found⟩
      have pair : dui ∈ (split_cards cards).dui_list := duis ▸ List.mem_cons_self
      have taken := (pieces_mem pair).trans (Multiset.le_add_right _ (pieces (split_cards cards).dan_list))
      exact (winged_of_mem deck mem (single three mem fit) taken).sandaiyidui (dui_rule pair)
        (parses_le deck few (winged_le mem taken)).1
  · rename_i type
    refine ⟨_, rfl, fun move found => winged_ok type.symm (by decide) (fun three mem fit => ?_) found⟩
    have fit := of_decide_eq_true fit
    have least := lengths.1 type
    have parsed := threes_parse deck few mem
    rw [if_neg (by omega)] at parsed
    rw [List.append_nil]
    exact ⟨parsed, fun _ => fit⟩
  · rename_i type
    split
    · rename_i enough
      split
      · exact ⟨none, rfl, none_moves⟩
      · rename_i body above
        -- no group of threes has as many cards as four for each of its threes, but for the twelve
        obtain ⟨fit, more⟩ := of_decide_eq_true (List.find?_some above :)
        have fit := of_decide_eq_true fit
        have mem := threeAbove_mem above
        obtain ⟨i, n, group⟩ := threes_of_mem mem
        have length := group.length
        have wide := group.wide
        have most := (parses_le deck few (piece_le (.inl mem))).2
        have fours := lengths.2.1 type
        have twelve : last.cards.length = 12 := by omega
        rw [twelve] at enough
        exact absurd ⟨type, twelve, by omega, body, mem, by omega, more⟩ read
    · exact ⟨none, rfl, none_moves⟩
  · rename_i type
    split
    · rename_i enough
      refine ⟨_, rfl, fun move found => winged_ok type.symm (by decide) (fun three mem fit => ?_) found⟩
      -- five threes and the pairs that were asked for are more cards than a hand has
      have fit := of_decide_eq_true fit
      obtain ⟨i, n, group⟩ := threes_of_mem mem
      have length := group.length
      obtain ⟨least, fives⟩ := lengths.2.2 type
      have taken := (flatten_take_le (split_cards cards).dui_list (last.cards.length / 5)).trans
        (Multiset.le_add_right _ (pieces (split_cards cards).dan_list))
      have most := (parses_le deck few (winged_le mem taken)).2
      rw [List.length_append, length_flatten_take (fun dui mem => split_pairs mem) enough] at most
      omega
    · exact ⟨none, rfl, none_moves⟩
  all_goals exact ⟨none, rfl, none_moves⟩

theorem find_bigger_ok (deck : OfDeck cards) (few : cards.length ≤ 20) (recognised : Recognised last)
    (read : ¬Misreads (split_cards cards) last) : ∃ found, find_bigger (split_cards cards) last = .ok found ∧
      ∀ move ∈ found, Follows last move := by
  obtain ⟨found, searched, follows⟩ := searcher_ok deck few recognised read
  simp only [find_bigger, searched, bind, Except.bind]
  cases found with
  | some move => exact ⟨_, rfl, follows⟩
  | none => exact ⟨_, rfl, fun move found => find_zhadan_ok deck few found⟩

end Following

/-- Leading, the auto-player plays cards of the hand, of the type and weight it names. -/
theorem autoPlay_leads {cards : List Card} {playstate : PlayCardState} {last : Option PlayCardObj}
    (deck : OfDeck cards) (few : cards.length ≤ 20) (some_ : cards ≠ []) (leads : playstate ≠ .normal)
    (friend : Bool) (roll : ℚ) :
    ∃ move, (RobotAgent.init_handcards cards).getPlayCardObj playstate friend last roll = .ok (some move) ∧
      (move.cards : Multiset Card) ≤ cards ∧ ParsesAs move.cards move.type move.weight := by
  obtain ⟨move, played, parses⟩ := get_playedcards_ok deck few some_
  have decided : (RobotAgent.init_handcards cards).getPlayCardObj playstate friend last roll = .ok (some move) := by
    simp only [RobotAgent.getPlayCardObj, RobotAgent.init_handcards, played]
    split
    · exact absurd rfl leads
    · exact absurd rfl leads
    · rfl
  exact ⟨move, decided, getPlayCardObj_le decided, parses⟩

/-- Three of a value and a single card go together. -/
theorem autoPlay_leads_three : OfDeck [0x13, 0x11, 0x21, 0x31] ∧
    ∃ move, (RobotAgent.init_handcards [0x13, 0x11, 0x21, 0x31]).getPlayCardObj .play true none 0 = .ok (some move) ∧
      (move.cards : Multiset Card) ≤ ([0x13, 0x11, 0x21, 0x31] : List Card) ∧
      ParsesAs move.cards move.type move.weight := by
  have deck : OfDeck [0x13, 0x11, 0x21, 0x31] := ⟨by decide, by decide⟩
  exact ⟨deck, autoPlay_leads deck (by decide) (by decide) (by decide) true 0⟩

/-- The answer of the auto-player is a pass, or a play of the hand that beats the last one. -/
def Answers (cards : List Card) (last : PlayCardObj) (friend : Bool) (roll : ℚ) : Prop :=
  ∃ found, (RobotAgent.init_handcards cards).getPlayCardObj .normal friend (some last) roll = .ok found ∧
    ∀ move ∈ found, (move.cards : Multiset Card) ≤ cards ∧ Follows last move

section Answers
variable {cards : List Card} {last : PlayCardObj}

theorem answers_of_read (deck : OfDeck cards) (few : cards.length ≤ 20) (recognised : Recognised last)
    (read : ¬Misreads (split_cards cards) last) (friend : Bool) (roll : ℚ) : Answers cards last friend roll := by
  obtain ⟨bigger, found, follows⟩ := find_bigger_ok deck few recognised read
  obtain ⟨searched, found', follows'⟩ := searcher_ok deck few recognised read
  have main : ∃ found, (RobotAgent.init_handcards cards).getPlayCardObj .normal friend (some last) roll = .ok found ∧
      ∀ move ∈ found, Follows last move := by
    simp only [RobotAgent.getPlayCardObj, RobotAgent.after_friend_playcard, RobotAgent.after_enemy_playcard,
      RobotAgent.init_handcards, found, found', bind, Except.bind]
    split
    · split
      · rename_i move final
        obtain ⟨here, -⟩ := Option.filter_eq_some_iff.mp final
        exact ⟨_, rfl, fun _ same => Option.some.inj same ▸ follows move here⟩
      · split
        · exact ⟨none, rfl, none_moves⟩
        · split
          · exact ⟨searched, rfl, follows'⟩
          · exact ⟨none, rfl, none_moves⟩
    · exact ⟨bigger, rfl, follows⟩
  obtain ⟨answer, decided, legal⟩ := main
  refine ⟨answer, decided, fun move mem => ⟨?_, legal move mem⟩⟩
  exact getPlayCardObj_le (Option.mem_def.mp mem ▸ decided)

theorem daidanWings_three {s : Split} (pairs : ∀ dui ∈ s.dui_list, dui.length = 2)
    (enough : 3 ≤ s.dan_list.length ∨ s.dan_list.length = 1 ∧ 1 ≤ s.dui_list.length) :
    ∃ wings, daidanWings s 3 = .ok wings ∧ wings.length = 3 := by
  have dans : (firstCards (s.dan_list.take 3)).length = min 3 s.dan_list.length := by
    rw [length_firstCards, List.length_take]
  have room : (3 - min 3 s.dan_list.length + 1) / 2 ≤ s.dui_list.length := by omega
  have duis := length_flatten_take pairs room
  simp only [daidanWings, dans, List.length_take, Nat.min_eq_left room]
  rw [if_pos (by omega)]
  refine ⟨_, rfl, ?_⟩
  rw [List.length_append, dans, duis]
  omega

/-- Four threes and three wings are no plane with single wings. -/
theorem searcher_misreads {s : Split} (pairs : ∀ dui ∈ s.dui_list, dui.length = 2) (misreads : Misreads s last) :
    ∃ move, searcher s last = .ok (some move) ∧ move.type = .feiji_daidan ∧ move.cards.length = 15 := by
  obtain ⟨type, twelve, wings, three, mem, length, more⟩ := misreads
  obtain ⟨wings, taken, single⟩ := daidanWings_three pairs wings
  cases above : threeAbove s last.weight fun c => c.length = last.cards.length with
  | none =>
      have absent := List.find?_eq_none.mp above three mem
      simp [length, twelve, more] at absent
  | some body =>
      obtain ⟨fit, -⟩ := of_decide_eq_true (List.find?_some above :)
      have fit := of_decide_eq_true fit
      refine ⟨⟨.feiji_daidan, firstValue body, body ++ wings⟩, ?_, rfl, ?_⟩
      · simp only [searcher, type, twelve] at above ⊢
        rw [if_pos (by omega), above]
        change (daidanWings s 3).bind _ = _
        rw [taken]
        rfl
      · rw [List.length_append, fit, single, twelve]

/-- Every list of cards can be visited in some order. -/
theorem exists_visits (cards : List Card) : ∃ o : PairsOrder, o.Visits cards :=
  ⟨⟨valueKeys cards, valueKeys cards, valueKeys cards, valueKeys cards, valueKeys cards, valueKeys cards⟩,
    .refl _, .refl _, .refl _, .refl _, .refl _, .refl _⟩

/-- Following, the auto-player passes or beats the last play with cards of the hand, whatever its random choice,
exactly when it does not misread the last play. -/
theorem autoPlay_follows (deck : OfDeck cards) (few : cards.length ≤ 20) (recognised : Recognised last) :
    (∀ friend roll, Answers cards last friend roll) ↔ ¬Misreads (split_cards cards) last := by
  refine ⟨fun all misreads => ?_, answers_of_read deck few recognised⟩
  obtain ⟨move, searched, type, length⟩ := searcher_misreads (fun dui mem => split_pairs mem) misreads
  obtain ⟨found, decided, legal⟩ := all false 0
  have own : found = some move := by
    simp only [RobotAgent.getPlayCardObj, RobotAgent.after_enemy_playcard, RobotAgent.init_handcards, find_bigger,
      searched] at decided
    exact (Except.ok.inj decided).symm
  subst own
  obtain ⟨le, follows⟩ := legal move rfl
  obtain ⟨o, visits⟩ := exists_visits move.cards
  obtain ⟨arr, parsed, obj, mem, same, -⟩ := follows.parses o visits
  rw [parseCardTypeIn_eq (deck.of_le le) visits] at parsed
  have fours := (plane_length parsed mem).2.1 (same.trans type)
  omega

/-- A pair of threes is followed by the pair of the hand. -/
theorem autoPlay_follows_pair : OfDeck [0x14, 0x24, 0x15] ∧
    ∀ friend roll, Answers [0x14, 0x24, 0x15] ⟨.dui, 1, [0x11, 0x21], .ofType .dui⟩ friend roll := by
  have deck : OfDeck [0x14, 0x24, 0x15] := ⟨by decide, by decide⟩
  exact ⟨deck, (autoPlay_follows deck (by decide) ⟨_, rfl, _, List.mem_singleton.mpr rfl, rfl, rfl⟩).mpr
    fun misreads => absurd misreads.type (by decide)⟩

end Answers

end HuluLandlord.Ddz
