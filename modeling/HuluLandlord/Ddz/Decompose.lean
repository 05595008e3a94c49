import HuluLandlord.Ddz.SplitCards
import Mathlib.Algebra.BigOperators.Group.Finset.Basic
import Mathlib.Algebra.Order.BigOperators.Group.Finset

/-!
What the decomposition of a hand consists of. Every stage moves cards from the table
of values to the pieces it builds, so the pieces never hold more than the hand.
-/
namespace HuluLandlord.Ddz

/-- The cards of all pieces of a list. -/
def pieces (lists : List (List Card)) : Multiset Card := (lists.flatten : Multiset Card)

/-- The cards not yet assigned. -/
def held (value_cards : ValueCards) : Multiset Card := pieces ((List.range 16).map value_cards)

/-- The cards of a decomposition. -/
def Split.cards (s : Split) : Multiset Card :=
  pieces (s.type_list.map Move.cards) + pieces s.three_list + pieces s.dui_list +
    pieces s.dan_list

section Pieces
variable {lists lists' : List (List Card)}

@[simp] theorem pieces_nil : pieces [] = 0 := rfl

@[simp] theorem pieces_cons (cards : List Card) (lists : List (List Card)) :
    pieces (cards :: lists) = cards + pieces lists := by
  rw [pieces, pieces, List.flatten_cons, Multiset.coe_add]

@[simp] theorem pieces_append (front back : List (List Card)) :
    pieces (front ++ back) = pieces front + pieces back := by
  rw [pieces, pieces, pieces, List.flatten_append, Multiset.coe_add]

theorem pieces_perm (perm : lists.Perm lists') : pieces lists = pieces lists' :=
  Multiset.coe_eq_coe.mpr perm.flatten

/-- A piece of the list and what is left of it. -/
theorem pieces_sublist (sub : lists.Sublist lists') : pieces lists ≤ pieces lists' :=
  Multiset.coe_le.mpr sub.flatten.subperm

theorem pieces_mem {cards : List Card} (mem : cards ∈ lists) :
    (cards : Multiset Card) ≤ pieces lists := by
  have single := pieces_sublist (List.singleton_sublist.mpr mem)
  rwa [pieces_cons, pieces_nil, add_zero] at single

/-- Some of the entries are taken whole and leave a gap. -/
theorem pieces_taken (taken : Nat → Prop) [DecidablePred taken] (vc : ValueCards)
    (vs : List Nat) :
    pieces ((vs.filter taken).map vc) + pieces (vs.map fun v => if taken v then [] else vc v) =
      pieces (vs.map vc) := by
  induction vs with
  | nil => rfl
  | cons v vs ih =>
      by_cases here : taken v
      · rw [List.filter_cons_of_pos (by simpa using here), List.map_cons, List.map_cons,
          List.map_cons, if_pos here, pieces_cons, pieces_cons, pieces_cons, ← ih, add_assoc]
        rfl
      · rw [List.filter_cons_of_neg (by simpa using here), List.map_cons, List.map_cons,
          if_neg here, pieces_cons, pieces_cons, ← ih]
        exact add_left_comm _ _ _

/-- The pairs, the singles and the larger ones among the entries. -/
theorem pieces_dui_dan (lists : List (List Card)) :
    pieces (lists.filter fun cards => cards.length = 2) +
        pieces (lists.filter fun cards => cards.length = 1) +
      pieces (lists.filter fun cards => 2 < cards.length) = pieces lists := by
  induction lists with
  | nil => rfl
  | cons cards lists ih =>
      rw [pieces_cons, ← ih]
      obtain none_ | one | two | more :
          cards.length = 0 ∨ cards.length = 1 ∨ cards.length = 2 ∨ 2 < cards.length := by omega
      · rw [List.length_eq_zero_iff.mp none_]
        exact (zero_add _).symm
      · rw [List.filter_cons_of_neg (by simp [one]), List.filter_cons_of_pos (by simpa using one),
          List.filter_cons_of_neg (by simp [one]), pieces_cons]
        abel
      · rw [List.filter_cons_of_pos (by simpa using two), List.filter_cons_of_neg (by simp [two]),
          List.filter_cons_of_neg (by simp [two]), pieces_cons]
        abel
      · rw [List.filter_cons_of_neg (by simp; omega), List.filter_cons_of_neg (by simp; omega),
          List.filter_cons_of_pos (by simpa using more), pieces_cons]
        abel

theorem pieces_update {vc : ValueCards} {j : Nat} {vs : List Nat} (row : List Card)
    (distinct : vs.Nodup) (mem : j ∈ vs) :
    (vc j : Multiset Card) + pieces (vs.map (Function.update vc j row)) =
      row + pieces (vs.map vc) := by
  induction vs with
  | nil => exact absurd mem List.not_mem_nil
  | cons v vs ih =>
      obtain ⟨absent, distinct⟩ := List.nodup_cons.mp distinct
      by_cases here : v = j
      · subst here
        have others : vs.map (Function.update vc v row) = vs.map vc :=
          List.map_congr_left fun w inRest =>
            Function.update_of_ne (fun same : w = v => absent (same ▸ inRest)) _ _
        rw [List.map_cons, List.map_cons, pieces_cons, pieces_cons, others, Function.update_self]
        exact add_left_comm _ _ _
      · have inRest := (List.mem_cons.mp mem).resolve_left fun same => here same.symm
        rw [List.map_cons, List.map_cons, pieces_cons, pieces_cons, Function.update_of_ne here,
          add_left_comm, ih distinct inRest, add_left_comm]

end Pieces

section Stages
variable {vc : ValueCards} {j : Nat}

theorem held_update (row : List Card) (room : j < 16) :
    (vc j : Multiset Card) + held (Function.update vc j row) = row + held vc :=
  pieces_update row List.nodup_range (List.mem_range.mpr room)

/-- What is taken comes off the table. -/
theorem extend_held (fits : List Card → Bool) (k : Nat) (vc : ValueCards) (j n : Nat)
    (room : j + n ≤ 16) :
    ((extend fits k vc j n).1 : Multiset Card) + held (extend fits k vc j n).2 = held vc := by
  induction n generalizing vc j with
  | zero => exact zero_add _
  | succ n ih =>
      rw [extend]
      split
      · have rest := ih (Function.update vc j ((vc j).drop k)) (j + 1) (by omega)
        have moved := @held_update vc j ((vc j).drop k) (by omega)
        have parts : ((vc j).take k : Multiset Card) + ((vc j).drop k : List Card) = vc j := by
          rw [Multiset.coe_add, List.take_append_drop]
        rw [← Multiset.coe_add, add_assoc, rest, ← add_left_inj ((vc j).drop k : Multiset Card),
          add_right_comm, parts, moved, add_comm]
      · exact zero_add _

theorem collect_held (fits : List Card → Bool) (k minLen : Nat) (vc : ValueCards)
    (starts : List Nat) (room : ∀ i ∈ starts, i + minLen ≤ 16) :
    pieces ((collect fits k minLen vc starts).1.map Prod.snd) +
      held (collect fits k minLen vc starts).2 = held vc := by
  induction starts generalizing vc with
  | nil => exact zero_add _
  | cons i starts ih =>
      have here := room i List.mem_cons_self
      have others := fun vc => ih vc fun i mem => room i (List.mem_cons_of_mem _ mem)
      rw [collect]
      split
      · have front := extend_held fits k vc i minLen here
        have back := extend_held fits k (extend fits k vc i minLen).2 (i + minLen)
          (0xd - (i + minLen)) (by omega)
        rw [List.map_cons, pieces_cons, add_assoc, others, ← Multiset.coe_add, add_assoc, back,
          front]
      · exact others vc

theorem zhadan_held (vc : ValueCards) :
    pieces ((find_all_zhadan vc).1.map Move.cards) + held (find_all_zhadan vc).2 = held vc := by
  simp only [find_all_zhadan, List.map_map]
  exact pieces_taken (fun v => (vc v).length = 4) vc (List.range 16)

theorem threeX_held (vc : ValueCards) :
    pieces (find_all_threeX vc).1 + held (find_all_threeX vc).2 = held vc :=
  collect_held _ _ _ vc _ (by decide)

theorem liandui_held (vc : ValueCards) :
    pieces ((find_all_liandui vc).1.map Move.cards) + held (find_all_liandui vc).2 = held vc := by
  simp only [find_all_liandui, List.map_map]
  exact collect_held _ _ _ vc _ (by decide)

theorem shunzi_held (vc : ValueCards) :
    pieces ((find_all_shunzi vc).1.map Move.cards) + held (find_all_shunzi vc).2 = held vc := by
  simp only [find_all_shunzi, List.map_map]
  exact collect_held _ _ _ vc _ (by decide)

/-- Grouped by value, every card has its place. -/
theorem held_valueGroup (cards : List Card) : held (valueGroup cards) = cards := by
  induction cards with
  | nil => rfl
  | cons card cards ih =>
      have grouped : valueGroup (card :: cards) =
          Function.update (valueGroup cards) (V card) (card :: valueGroup cards (V card)) := by
        funext v
        by_cases here : v = V card
        · subst here
          simp [valueGroup]
        · rw [Function.update_of_ne here]
          exact List.filter_cons_of_neg (by simpa using fun same => here same.symm)
      have moved := @held_update (valueGroup cards) (V card) (card :: valueGroup cards (V card))
        (V_lt card)
      rw [← grouped, ih, ← Multiset.cons_coe, Multiset.cons_add,
        ← Multiset.add_cons] at moved
      exact add_left_cancel moved

theorem pieces_singletons (cards : List Card) :
    pieces (cards.map fun card => [card]) = cards := by
  induction cards with
  | nil => rfl
  | cons card cards ih =>
      rw [List.map_cons, pieces_cons, ih]
      rfl

/-- Singles are those of the groups and the kings. -/
theorem pieces_danX (vc : ValueCards) (kings : List Card) :
    pieces (find_all_danX vc kings) =
      pieces (((List.range 16).map vc).filter fun cards => cards.length = 1) + kings := by
  rw [find_all_danX, ← pieces_singletons kings, ← pieces_append]
  exact pieces_perm (List.perm_insertionSort _ _)

/-- The kings are a bomb, or singles. -/
theorem pieces_kings (kings : List Card) :
    pieces ((if kings.length = 2 then [⟨.zhadan, COMB 0 (BombInfoData .wangzha), kings⟩]
      else []).map Move.cards) + (if kings.length = 2 then [] else kings : List Card) = kings := by
  split
  · rw [List.map_singleton, pieces_cons, pieces_nil, Multiset.coe_nil, add_zero, add_zero]
  · rw [List.map_nil, pieces_nil, zero_add]

/-- The table after the last stage, for the pairs and the singles. -/
def leftover (cards : List Card) : ValueCards :=
  (find_all_shunzi (find_all_liandui (find_all_threeX
    (find_all_zhadan (valueGroup (removeKing cards).2)).2).2).2).2

/-- The cards are those of the pieces, and of the entries left that are neither pair nor single. -/
theorem split_left (cards : List Card) : (split_cards cards).cards +
    pieces (((List.range 16).map (leftover cards)).filter fun cards => 2 < cards.length) = cards := by
  rw [split_cards, leftover, removeKing]
  simp only [Split.cards, find_all_duiX]
  set kings := (cards.filter isKing).reverse
  set others := cards.filter fun card => !isKing card
  set zhadan := find_all_zhadan (valueGroup others) with bombs
  set three := find_all_threeX zhadan.2 with threes
  set liandui := find_all_liandui three.2 with pairs
  set shunzi := find_all_shunzi liandui.2 with straights
  have parts : (kings : Multiset Card) + others = cards := by
    rw [Multiset.coe_add, Multiset.coe_eq_coe]
    exact (List.reverse_perm _).append_right _ |>.trans (List.filter_append_perm isKing cards)
  have stages : pieces (zhadan.1.map Move.cards) + (pieces three.1 +
      (pieces (liandui.1.map Move.cards) + (pieces (shunzi.1.map Move.cards) + held shunzi.2))) =
      others := by
    rw [straights, shunzi_held, pairs, liandui_held, threes, threeX_held, bombs, zhadan_held,
      held_valueGroup]
  have rest := pieces_dui_dan ((List.range 16).map shunzi.2)
  rw [pieces_perm ((List.perm_insertionSort _ _).map Move.cards), pieces_danX, List.map_append,
    List.map_append, List.map_append, pieces_append, pieces_append, pieces_append, ← parts, ← stages,
    held, ← rest, ← pieces_kings kings]
  abel

/-- No card is in two pieces. -/
theorem split_le (cards : List Card) : (split_cards cards).cards ≤ (cards : Multiset Card) := by
  rw [← split_left cards]
  exact Multiset.le_add_right _ _

end Stages

end HuluLandlord.Ddz
