import HuluLandlord.Ddz.AutoPlay
import HuluLandlord.Ddz.RuleBook

/-!
The decomposition of a hand of one deck. After the bombs and the threes no value has more
than two cards left, so no card is lost, and every piece is of the type it is listed under.
-/
namespace HuluLandlord.Ddz

section Rows
variable {vc vc' : ValueCards} {row : List Card} {v w : Nat}

/-- Cards stand in the row of their value. -/
def Grouped (vc : ValueCards) : Prop := ∀ v, ∀ card ∈ vc v, V card = v

/-- Cards were only taken. -/
def Shrinks (vc vc' : ValueCards) : Prop := ∀ v, (vc' v).Sublist (vc v)

theorem Shrinks.trans {vc'' : ValueCards} (first : Shrinks vc vc') (next : Shrinks vc' vc'') :
    Shrinks vc vc'' := fun v => (next v).trans (first v)

theorem Grouped.shrinks (grouped : Grouped vc) (shrinks : Shrinks vc vc') : Grouped vc' :=
  fun v card mem => grouped v card ((shrinks v).subset mem)

theorem grouped_valueGroup (cards : List Card) : Grouped (valueGroup cards) :=
  fun _ _ mem => (mem_valueGroup.mp mem).2

theorem valueNum_row (same : ∀ card ∈ row, V card = v) (w : Nat) :
    valueNum row w = if w = v then row.length else 0 := by
  split
  · rename_i here
    rw [valueNum, valueGroup, List.filter_eq_self.mpr]
    exact fun card mem => decide_eq_true (here ▸ same card mem)
  · rename_i other
    rw [valueNum, valueGroup, List.filter_eq_nil_iff.mpr]
    · rfl
    · exact fun card mem here => other ((of_decide_eq_true here).symm.trans (same card mem))

theorem firstValue_row (same : ∀ card ∈ row, V card = v) (some_ : row ≠ []) : firstValue row = v := by
  obtain ⟨card, cards, rfl⟩ := List.exists_cons_of_ne_nil some_
  exact same card List.mem_cons_self

end Rows

/-- From each of `m` rows from `j` on `k` cards are taken. -/
structure Takes (fits : List Card → Bool) (k : Nat) (vc vc' : ValueCards) (j m : Nat)
    (piece : List Card) : Prop where
  fit : ∀ d < m, fits (vc (j + d))
  taken : piece = ((List.range' j m).map fun v => (vc v).take k).flatten
  left : ∀ v, vc' v = if j ≤ v ∧ v < j + m then (vc v).drop k else vc v

section Takes
variable {fits : List Card → Bool} {k j m n v : Nat} {vc vc' vc'' : ValueCards} {piece more : List Card}

theorem Takes.none_ (fits : List Card → Bool) (k : Nat) (vc : ValueCards) (j : Nat) :
    Takes fits k vc vc j 0 [] :=
  ⟨fun _ less => absurd less (Nat.not_lt_zero _), rfl, fun v => (if_neg (by omega)).symm⟩

theorem Takes.one (fit : fits (vc j)) :
    Takes fits k vc (Function.update vc j ((vc j).drop k)) j 1 ((vc j).take k) where
  fit d less := by
    obtain rfl : d = 0 := by omega
    exact fit
  taken := by simp
  left v := by
    by_cases here : v = j
    · rw [here, Function.update_self, if_pos (by omega)]
    · rw [Function.update_of_ne here, if_neg (by omega)]

/-- The rows of the second part are as they were. -/
theorem Takes.append (front : Takes fits k vc vc' j m piece)
    (back : Takes fits k vc' vc'' (j + m) n more) :
    Takes fits k vc vc'' j (m + n) (piece ++ more) where
  fit d less := by
    obtain first | second := Nat.lt_or_ge d m
    · exact front.fit d first
    · have fit := back.fit (d - m) (by omega)
      rwa [front.left, if_neg (by omega), show j + m + (d - m) = j + d by omega] at fit
  taken := by
    have same : (List.range' (j + m) n).map (fun v => (vc' v).take k) =
        (List.range' (j + m) n).map fun v => (vc v).take k := by
      refine List.map_congr_left fun v mem => ?_
      have := (List.mem_range'_1.mp mem).1
      rw [front.left, if_neg (by omega)]
    rw [front.taken, back.taken, same, ← List.flatten_append, ← List.map_append, List.range'_append_1]
  left v := by
    rw [back.left, front.left]
    by_cases first : j ≤ v ∧ v < j + m
    · rw [if_pos first, if_neg (by omega), if_pos (by omega)]
    · rw [if_neg first]
      by_cases second : j + m ≤ v ∧ v < j + m + n
      · rw [if_pos second, if_pos (by omega)]
      · rw [if_neg second, if_neg (by omega)]

theorem Takes.shrinks (takes : Takes fits k vc vc' j m piece) : Shrinks vc vc' := by
  intro v
  rw [takes.left]
  split
  · exact List.drop_sublist k _
  · exact List.Sublist.refl _

theorem extend_takes (fits : List Card → Bool) (k : Nat) (vc : ValueCards) (j n : Nat) :
    ∃ m ≤ n, Takes fits k vc (extend fits k vc j n).2 j m (extend fits k vc j n).1 := by
  induction n generalizing vc j with
  | zero => exact ⟨0, le_rfl, Takes.none_ fits k vc j⟩
  | succ n ih =>
      rw [extend]
      split
      · rename_i fit
        obtain ⟨m, le, rest⟩ := ih (Function.update vc j ((vc j).drop k)) (j + 1)
        exact ⟨1 + m, by omega, (Takes.one fit).append rest⟩
      · exact ⟨0, Nat.zero_le _, Takes.none_ fits k vc j⟩

/-- Where all values fit, all are taken. -/
theorem extend_all (fit : ∀ d < n, fits (vc (j + d))) :
    Takes fits k vc (extend fits k vc j n).2 j n (extend fits k vc j n).1 := by
  induction n generalizing vc j with
  | zero => exact Takes.none_ fits k vc j
  | succ n ih =>
      have here : fits (vc j) := fit 0 (Nat.succ_pos n)
      have rest : ∀ d < n, fits (Function.update vc j ((vc j).drop k) (j + 1 + d)) := by
        intro d less
        rw [Function.update_of_ne (by omega), Nat.add_assoc, Nat.add_comm 1]
        exact fit (d + 1) (by omega)
      rw [extend, if_pos here, Nat.add_comm n]
      exact (Takes.one here).append (ih rest)

/-- Wherever the search finds a piece, a run of rows of that time is taken. -/
theorem collect_takes {minLen i : Nat} {starts : List Nat}
    (mem : (i, piece) ∈ (collect fits k minLen vc starts).1) :
    ∃ vc₁ vc₂ m, Shrinks vc vc₁ ∧ i ∈ starts ∧ minLen ≤ m ∧ m ≤ minLen + (0xd - (i + minLen)) ∧
      Takes fits k vc₁ vc₂ i m piece := by
  induction starts generalizing vc with
  | nil => exact absurd mem List.not_mem_nil
  | cons start starts ih =>
      rw [collect] at mem
      split at mem
      · rename_i all
        have front : Takes fits k vc (extend fits k vc start minLen).2 start minLen _ :=
          extend_all fun d less => List.all_eq_true.mp all d (List.mem_range.mpr less)
        obtain ⟨m, le, back⟩ := extend_takes fits k (extend fits k vc start minLen).2 (start + minLen)
          (0xd - (start + minLen))
        have whole := front.append back
        obtain here | rest := List.mem_cons.mp mem
        · obtain ⟨rfl, rfl⟩ := Prod.mk.inj here
          exact ⟨vc, _, _, fun v => List.Sublist.refl _, List.mem_cons_self, by omega, by omega, whole⟩
        · obtain ⟨vc₁, vc₂, m, shrinks, found, takes⟩ := ih rest
          exact ⟨vc₁, vc₂, m, whole.shrinks.trans shrinks, List.mem_cons_of_mem _ found, takes⟩
      · obtain ⟨vc₁, vc₂, m, shrinks, found, takes⟩ := ih mem
        exact ⟨vc₁, vc₂, m, shrinks, List.mem_cons_of_mem _ found, takes⟩

theorem collect_shrinks (fits : List Card → Bool) (k minLen : Nat) (vc : ValueCards)
    (starts : List Nat) : Shrinks vc (collect fits k minLen vc starts).2 := by
  induction starts generalizing vc with
  | nil => exact fun v => List.Sublist.refl _
  | cons start starts ih =>
      rw [collect]
      split
      · obtain ⟨_, _, front⟩ := extend_takes fits k vc start minLen
        obtain ⟨_, _, back⟩ := extend_takes fits k (extend fits k vc start minLen).2 (start + minLen)
          (0xd - (start + minLen))
        exact (front.shrinks.trans back.shrinks).trans (ih _)
      · exact ih vc

/-- Each of the values is in the piece `k` times, one after the other. -/
theorem Takes.values (takes : Takes fits k vc vc' j m piece) (grouped : Grouped vc)
    (enough : ∀ cards, fits cards → k ≤ cards.length) :
    piece.map V = (List.range' j m).flatMap (List.replicate k) := by
  have row : ∀ v ∈ List.range' j m, ((vc v).take k).map V = List.replicate k v := by
    intro v mem
    have inside := List.mem_range'_1.mp mem
    have fit := takes.fit (v - j) (by omega)
    rw [show j + (v - j) = v by omega] at fit
    refine List.eq_replicate_iff.mpr ⟨?_, fun w held => ?_⟩
    · rw [List.length_map, List.length_take, Nat.min_eq_left (enough _ fit)]
    · obtain ⟨card, taken, rfl⟩ := List.mem_map.mp held
      exact grouped v card (List.mem_of_mem_take taken)
  rw [takes.taken, List.map_flatten, List.map_map]
  exact congrArg List.flatten (List.map_congr_left row)

theorem Takes.valueNum_eq (takes : Takes fits k vc vc' j m piece) (grouped : Grouped vc)
    (enough : ∀ cards, fits cards → k ≤ cards.length) (v : Nat) :
    valueNum piece v = if j ≤ v ∧ v < j + m then k else 0 := by
  rw [Ddz.valueNum_eq, takes.values grouped enough, count_run]

theorem Takes.length (takes : Takes fits k vc vc' j m piece) (grouped : Grouped vc)
    (enough : ∀ cards, fits cards → k ≤ cards.length) : piece.length = k * m := by
  rw [← List.length_map V, takes.values grouped enough, length_flatMap_replicate, List.length_range']

theorem Takes.isRun (takes : Takes fits k vc vc' j m piece) (grouped : Grouped vc)
    (enough : ∀ cards, fits cards → k ≤ cards.length) (most : j + m ≤ 0xd) : IsRun piece k m j where
  num := takes.length grouped enough
  most := most
  each d less := by rw [takes.valueNum_eq grouped enough, if_pos (by omega)]

/-- A piece begins with its first row. -/
theorem Takes.firstValue (takes : Takes fits k vc vc' j m piece) (grouped : Grouped vc)
    (enough : ∀ cards, fits cards → k ≤ cards.length) (wide : 0 < m) (pos : 0 < k) :
    firstValue piece = j := by
  obtain ⟨n, rfl⟩ := Nat.exists_eq_succ_of_ne_zero wide.ne'
  obtain ⟨c, rfl⟩ := Nat.exists_eq_succ_of_ne_zero pos.ne'
  have values := takes.values grouped enough
  rw [List.range'_succ, List.flatMap_cons, List.replicate_succ, List.cons_append] at values
  obtain ⟨card, cards, rfl, here, -⟩ := List.map_eq_cons_iff.mp values
  exact here

end Takes

section Stages
variable {vc : ValueCards} {cards : List Card} {move : Move} {v : Nat}

theorem zhadan_shrinks (vc : ValueCards) : Shrinks vc (find_all_zhadan vc).2 := by
  intro v
  dsimp only [find_all_zhadan]
  split
  · exact List.nil_sublist _
  · exact List.Sublist.refl _

theorem threeX_shrinks (vc : ValueCards) : Shrinks vc (find_all_threeX vc).2 :=
  collect_shrinks _ 3 1 vc _

theorem liandui_shrinks (vc : ValueCards) : Shrinks vc (find_all_liandui vc).2 :=
  collect_shrinks _ 2 3 vc _

theorem shunzi_shrinks (vc : ValueCards) : Shrinks vc (find_all_shunzi vc).2 :=
  collect_shrinks _ 1 5 vc _

theorem leftover_shrinks (cards : List Card) :
    Shrinks (valueGroup (removeKing cards).2) (leftover cards) :=
  (((zhadan_shrinks _).trans (threeX_shrinks _)).trans (liandui_shrinks _)).trans (shunzi_shrinks _)

theorem zhadan_rule (grouped : Grouped vc) (mem : move ∈ (find_all_zhadan vc).1) :
    move.type = .zhadan ∧ RuleBook move.cards move.type move.weight := by
  obtain ⟨v, found, rfl⟩ := List.mem_map.mp mem
  have four : (vc v).length = 4 := of_decide_eq_true (List.mem_filter.mp found).2
  refine ⟨rfl, .inl ⟨v, four, ?_, rfl⟩⟩
  rw [valueNum_row (grouped v), if_pos rfl, four]

/-- A single three may be of twos, a longer piece ends at the ace. -/
theorem threeX_rule (grouped : Grouped vc) (mem : cards ∈ (find_all_threeX vc).1) :
    RuleBook cards .tuple (firstValue cards) ∨ RuleBook cards .feiji_budai (firstValue cards) := by
  obtain ⟨⟨i, piece⟩, found, rfl⟩ := List.mem_map.mp mem
  obtain ⟨_, _, m, shrinks, start, least, most, takes⟩ := collect_takes found
  have inside := List.mem_range'_1.mp start
  have enough : ∀ cards : List Card, decide (cards.length = 3) = true → 3 ≤ cards.length :=
    fun cards three => (of_decide_eq_true three).ge
  have own := grouped.shrinks shrinks
  rw [takes.firstValue own enough (by omega) (by decide)]
  obtain rfl | more := Nat.eq_or_lt_of_le least
  · refine .inl ⟨takes.length own enough, ?_⟩
    rw [takes.valueNum_eq own enough, if_pos (by omega)]
  · exact .inr ⟨m, more, takes.isRun own enough (by omega)⟩

theorem liandui_rule (grouped : Grouped vc) (mem : move ∈ (find_all_liandui vc).1) :
    move.type = .liandui ∧ RuleBook move.cards move.type move.weight := by
  obtain ⟨⟨i, piece⟩, found, rfl⟩ := List.mem_map.mp mem
  obtain ⟨_, _, m, shrinks, start, least, most, takes⟩ := collect_takes found
  have inside := List.mem_range'_1.mp start
  exact ⟨rfl, m, least, takes.isRun (grouped.shrinks shrinks)
    (fun cards two => (of_decide_eq_true two).ge) (by omega)⟩

theorem shunzi_rule (grouped : Grouped vc) (mem : move ∈ (find_all_shunzi vc).1) :
    move.type = .shunzi ∧ RuleBook move.cards move.type move.weight := by
  obtain ⟨⟨i, piece⟩, found, rfl⟩ := List.mem_map.mp mem
  obtain ⟨_, _, m, shrinks, start, least, most, takes⟩ := collect_takes found
  have inside := List.mem_range'_1.mp start
  exact ⟨rfl, m, least, takes.isRun (grouped.shrinks shrinks)
    (fun cards some_ => of_decide_eq_true some_) (by omega)⟩

/-- Two kings of a deck are one of each. -/
theorem kings_rule (deck : OfDeck cards) (kings : ∀ card ∈ cards, isKing card) (two : cards.length = 2) :
    RuleBook cards .zhadan (COMB 0 (BombInfoData .wangzha)) := by
  have both : valueNum cards 0xe + valueNum cards 0xf = cards.length := by
    clear two deck
    induction cards with
    | nil => rfl
    | cons card cards ih =>
        have king : 0xe ≤ V card := of_decide_eq_true (kings card List.mem_cons_self)
        have rest := ih fun card mem => kings card (List.mem_cons_of_mem _ mem)
        have value := V_lt card
        simp only [Ddz.valueNum_eq, List.map_cons, List.count_cons, List.length_cons, beq_iff_eq] at rest ⊢
        split <;> split <;> omega
  have small := deck.nodup_num (v := 0xe) le_rfl
  have big := deck.nodup_num (v := 0xf) (by decide)
  exact .inr (.inl ⟨two, by omega, by omega, rfl⟩)

/-- No value keeps three cards at which the search for threes starts. -/
theorem collect_three {starts : List Nat} (few : ∀ v, (vc v).length ≤ 3) (mem : v ∈ starts) :
    ((collect (fun c => c.length = 3) 3 1 vc starts).2 v).length ≤ 2 := by
  induction starts generalizing vc with
  | nil => exact absurd mem List.not_mem_nil
  | cons start starts ih =>
      rw [collect]
      split
      · rename_i all
        have front : Takes (fun c => c.length = 3) 3 vc _ start 1 _ :=
          extend_all fun d less => List.all_eq_true.mp all d (List.mem_range.mpr less)
        obtain ⟨_, _, back⟩ := extend_takes (fun c => c.length = 3) 3
          (extend (fun c => c.length = 3) 3 vc start 1).2 (start + 1) (0xd - (start + 1))
        obtain rfl | rest := List.mem_cons.mp mem
        · have none_ : ((extend (fun c => c.length = 3) 3 vc v 1).2 v).length = 0 := by
            rw [front.left, if_pos (by omega), List.length_drop]
            have := few v
            omega
          have left := ((back.shrinks.trans (collect_shrinks (fun c => c.length = 3) 3 1 _ starts)) v).length_le
          exact left.trans (by omega)
        · exact ih (fun v => ((front.shrinks.trans back.shrinks) v).length_le.trans (few v)) rest
      · rename_i other
        obtain rfl | rest := List.mem_cons.mp mem
        · have differ : (vc v).length ≠ 3 := by simpa using other
          have left := (collect_shrinks (fun c => c.length = 3) 3 1 vc starts v).length_le
          have := few v
          omega
        · exact ih few rest

theorem zhadan_few (four : ∀ v, (vc v).length ≤ 4) (v : Nat) :
    ((find_all_zhadan vc).2 v).length ≤ 3 := by
  have := four v
  dsimp only [find_all_zhadan]
  split
  · exact Nat.zero_le 3
  · omega

end Stages

section Hand
variable {cards piece : List Card} {type : CardType} {weight : Nat}

/-- In whatever order the groups are visited, the cards are recognised as this. -/
def ParsesAs (cards : List Card) (type : CardType) (weight : Nat) : Prop :=
  ∀ o : PairsOrder, o.Visits cards → ∃ arr, parseCardTypeIn o cards = .ok arr ∧ Gives arr type weight

/-- Every piece is of the type it is listed under. -/
structure Split.Valid (s : Split) : Prop where
  types : ∀ move ∈ s.type_list, ParsesAs move.cards move.type move.weight
  threes : ∀ cards ∈ s.three_list,
    ParsesAs cards .tuple (firstValue cards) ∨ ParsesAs cards .feiji_budai (firstValue cards)
  duis : ∀ cards ∈ s.dui_list, ParsesAs cards .dui (firstValue cards)
  dans : ∀ cards ∈ s.dan_list, ParsesAs cards .dan (firstValue cards)

theorem OfDeck.of_le (deck : OfDeck cards) (le : (piece : Multiset Card) ≤ cards) : OfDeck piece :=
  ⟨Multiset.coe_nodup.mp (Multiset.nodup_of_le le (Multiset.coe_nodup.mpr deck.nodup)),
    fun card mem => deck.subset card (Multiset.mem_coe.mp (Multiset.mem_of_le le (Multiset.mem_coe.mpr mem)))⟩

theorem ruleBook_pos (rule : RuleBook cards type weight) : cards ≠ [] := by
  rintro rfl
  cases type with
  | dan | dui | tuple | sandaiyi | sandaiyidui | sidaier | sidailiangdui => cases rule.1
  | shunzi | liandui | feiji_budai =>
      obtain ⟨k, many, run⟩ := rule
      have num : 0 = _ * k := run.num
      omega
  | feiji_daidan | feiji_daidui => exact rule
  | zhadan =>
      obtain ⟨v, four, -⟩ | ⟨two, -⟩ | ⟨k, v, b, rank, run, -⟩ := rule
      · cases four
      · cases two
      · have num : 0 = 4 * k := run.num
        have := star4_some rank
        omega

/-- What the rule book has of the pieces, the recogniser finds. -/
theorem parsesAs_of_rule (deck : OfDeck cards) (few : cards.length ≤ 20) (rule : RuleBook cards type weight)
    (single : type ≠ .sidailiangdui) : ParsesAs cards type weight := by
  intro o visits
  have short : FewFours cards := fun k start run => by
    have := run.num
    omega
  obtain ⟨arr, found, gives⟩ := gives_parseCardType deck (ruleBook_pos rule) short
  refine ⟨arr, (parseCardTypeIn_eq deck visits).trans found,
    (gives type weight ?_ ?_).mpr ⟨rule, fun both => single both.1⟩⟩
  · rintro rfl
    exact rule
  · rintro rfl
    exact rule

/-- No value is left with more than two cards. -/
theorem leftover_few (deck : OfDeck cards) (v : Nat) : (leftover cards v).length ≤ 2 := by
  have others : OfDeck (removeKing cards).2 :=
    ⟨deck.nodup.filter _, fun card mem => deck.subset card (List.mem_of_mem_filter mem)⟩
  have four : ∀ v, (valueGroup (removeKing cards).2 v).length ≤ 4 := others.valueNum_le
  by_cases inside : v ∈ List.range' 1 0xd
  · exact (((liandui_shrinks _).trans (shunzi_shrinks _)) v).length_le.trans
      (collect_three (zhadan_few four) inside)
  · have left := (leftover_shrinks cards v).length_le
    have outside : v = 0 ∨ 0xe ≤ v := by
      have := mt List.mem_range'_1.mpr inside
      omega
    obtain rfl | king := outside
    · have none_ : valueNum (removeKing cards).2 0 = 0 :=
        Nat.eq_zero_of_not_pos fun held => absurd (others.least held) (by decide)
      rw [valueNum] at none_
      omega
    · have one : (valueGroup (removeKing cards).2 v).length ≤ 1 := others.nodup_num king
      omega

/-- No card is lost. -/
theorem split_eq (deck : OfDeck cards) : (split_cards cards).cards = (cards : Multiset Card) := by
  have none_ : ((List.range 16).map (leftover cards)).filter (fun cards => 2 < cards.length) = [] := by
    refine List.filter_eq_nil_iff.mpr fun row mem => ?_
    obtain ⟨v, -, rfl⟩ := List.mem_map.mp mem
    simpa using leftover_few deck v
  have left := split_left cards
  rwa [none_, pieces_nil, add_zero] at left

/-- What is left stands in the row of its value. -/
theorem grouped_leftover (cards : List Card) : Grouped (leftover cards) :=
  (grouped_valueGroup _).shrinks (leftover_shrinks cards)

theorem dui_rule (mem : piece ∈ (split_cards cards).dui_list) :
    RuleBook piece .dui (firstValue piece) := by
  obtain ⟨row, two⟩ := List.mem_filter.mp mem
  obtain ⟨v, -, rfl⟩ := List.mem_map.mp row
  have two : (leftover cards v).length = 2 := of_decide_eq_true two
  have same := grouped_leftover cards v
  change RuleBook (leftover cards v) .dui (firstValue (leftover cards v))
  rw [firstValue_row same (List.ne_nil_of_length_pos (by omega))]
  exact ⟨two, by rw [valueNum_row same, if_pos rfl, two]⟩

theorem dan_rule (mem : piece ∈ (split_cards cards).dan_list) :
    RuleBook piece .dan (firstValue piece) := by
  obtain ⟨card, rfl⟩ := List.length_eq_one_iff.mp (split_singles cards piece mem)
  have same : ∀ other ∈ [card], V other = V card := fun other mem => by rw [List.mem_singleton.mp mem]
  exact ⟨rfl, (valueNum_row same (V card)).trans (if_pos rfl)⟩

theorem types_rule {move : Move} (deck : OfDeck cards) (mem : move ∈ (split_cards cards).type_list) :
    RuleBook move.cards move.type move.weight ∧ move.type ≠ .sidailiangdui := by
  have start := grouped_valueGroup (removeKing cards).2
  have fours := start.shrinks (zhadan_shrinks _)
  have threes := fours.shrinks (threeX_shrinks _)
  have pairs := threes.shrinks (liandui_shrinks _)
  have listed := (List.mem_insertionSort _).mp mem
  simp only [List.mem_append] at listed
  obtain ((king | four) | liandui) | shunzi := listed
  · split at king
    · rename_i two
      obtain rfl := List.mem_singleton.mp king
      have kings : OfDeck (cards.filter isKing).reverse :=
        ⟨List.nodup_reverse.mpr (deck.nodup.filter _), fun card mem =>
          deck.subset card (List.mem_of_mem_filter (List.mem_reverse.mp mem))⟩
      exact ⟨kings_rule kings (fun card mem => (List.mem_filter.mp (List.mem_reverse.mp mem)).2) two,
        CardType.noConfusion⟩
    · exact absurd king List.not_mem_nil
  · obtain ⟨type, rule⟩ := zhadan_rule start four
    exact ⟨rule, by rw [type]; decide⟩
  · obtain ⟨type, rule⟩ := liandui_rule threes liandui
    exact ⟨rule, by rw [type]; decide⟩
  · obtain ⟨type, rule⟩ := shunzi_rule pairs shunzi
    exact ⟨rule, by rw [type]; decide⟩

/-- The decomposition of a hand has its cards, each once, in plays of the types they are listed under. -/
theorem split_valid (deck : OfDeck cards) (few : cards.length ≤ 20) :
    (split_cards cards).cards = (cards : Multiset Card) ∧ (split_cards cards).Valid := by
  have parses : ∀ {piece : List Card} {type : CardType} {weight : Nat},
      (piece : Multiset Card) ≤ (split_cards cards).cards → RuleBook piece type weight →
        type ≠ .sidailiangdui → ParsesAs piece type weight := by
    intro piece type weight le rule single
    have inHand := le.trans (split_le cards)
    exact parsesAs_of_rule (deck.of_le inHand) ((Multiset.card_le_card inHand).trans few) rule single
  have start := grouped_valueGroup (removeKing cards).2
  refine ⟨split_eq deck, ?_, ?_, ?_, ?_⟩
  · intro move mem
    obtain ⟨rule, single⟩ := types_rule deck mem
    exact parses (type_list_le mem) rule single
  · intro piece mem
    have le := piece_le (.inl mem)
    exact (threeX_rule (start.shrinks (zhadan_shrinks _)) mem).imp (fun rule => parses le rule (by decide))
      fun rule => parses le rule (by decide)
  · exact fun piece mem => parses (piece_le (.inr (.inl mem))) (dui_rule mem) (by decide)
  · exact fun piece mem => parses (piece_le (.inr (.inr mem))) (dan_rule mem) (by decide)

/-- Both kings, a run and a pair. -/
theorem split_valid_run :
    OfDeck [0x5f, 0x5e, 0x11, 0x12, 0x13, 0x14, 0x15, 0x2a, 0x1a] ∧
      (split_cards [0x5f, 0x5e, 0x11, 0x12, 0x13, 0x14, 0x15, 0x2a, 0x1a]).cards =
        ([0x5f, 0x5e, 0x11, 0x12, 0x13, 0x14, 0x15, 0x2a, 0x1a] : List Card) ∧
      (split_cards [0x5f, 0x5e, 0x11, 0x12, 0x13, 0x14, 0x15, 0x2a, 0x1a]).Valid := by
  have deck : OfDeck [0x5f, 0x5e, 0x11, 0x12, 0x13, 0x14, 0x15, 0x2a, 0x1a] := ⟨by decide, by decide⟩
  exact ⟨deck, split_valid deck (by decide)⟩

end Hand

end HuluLandlord.Ddz
