import HuluLandlord.Ddz.Pairs

/-!
What is recognised depends on the face values of the cards alone: not on their suits, not on the order they are
given in, and not on the order in which `pairs` visits the groups.
-/
namespace HuluLandlord.Ddz
open Table

section Values
variable {xs ys : List Card}

theorem length_values (same : xs.map V = ys.map V) : xs.length = ys.length := by
  rw [← List.length_map V, same, List.length_map]

theorem valueAt_eq (cards : List Card) (i : Nat) : valueAt cards i = (cards.map V).getD (i - 1) 0 := by
  rw [valueAt, List.getD_eq_getElem?_getD, List.getD_eq_getElem?_getD, List.getElem?_map]
  cases cards[i - 1]? with
  | none => rfl
  | some card => rfl

theorem valueNum_eq (cards : List Card) (v : Nat) : valueNum cards v = (cards.map V).count v := by
  rw [valueNum, valueGroup, ← List.countP_eq_length_filter, List.count, List.countP_map]
  refine List.countP_congr fun card _ => ?_
  simp

theorem valueKeys_eq (cards : List Card) :
    valueKeys cards = (List.range 16).filter fun v => (cards.map V).count v ≠ 0 := by
  refine List.filter_congr fun v _ => ?_
  rw [← valueNum_eq, valueNum]
  simp

theorem getKingCount_eq (cards : List Card) : getKingCount cards = (cards.map V).countP (0xe ≤ ·) := by
  rw [getKingCount, List.countP_map]
  rfl

theorem valueAt_values (same : xs.map V = ys.map V) (i : Nat) : valueAt xs i = valueAt ys i := by
  rw [valueAt_eq, same, valueAt_eq]

theorem valueNum_values (same : xs.map V = ys.map V) : valueNum xs = valueNum ys := by
  funext v
  rw [valueNum_eq, same, valueNum_eq]

theorem valueKeys_values (same : xs.map V = ys.map V) : valueKeys xs = valueKeys ys := by
  rw [valueKeys_eq, same, valueKeys_eq]

theorem firstRun_values (same : xs.map V = ys.map V) (k num : Nat) : firstRun xs k num = firstRun ys k num := by
  simp only [firstRun, valueNum_values same]

theorem isSanDaiYiDui_values (same : xs.map V = ys.map V) : isSanDaiYiDui xs = isSanDaiYiDui ys := by
  simp only [isSanDaiYiDui, length_values same, valueAt_values same, valueNum_values same, valueKeys_values same,
    getKingCount_eq, same]

theorem isSiDaiEr_values (same : xs.map V = ys.map V) : isSiDaiEr xs = isSiDaiEr ys := by
  simp only [isSiDaiEr, length_values same, valueAt_values same, valueNum_values same, valueKeys_values same]

theorem isFeiJiDaiDan_values (same : xs.map V = ys.map V) : isFeiJiDaiDan xs = isFeiJiDaiDan ys := by
  simp only [isFeiJiDaiDan, feiJiTop, length_values same, valueNum_values same, valueKeys_values same]

theorem isFeiJiDaiDui_values (same : xs.map V = ys.map V) : isFeiJiDaiDui xs = isFeiJiDaiDui ys := by
  simp only [isFeiJiDaiDui, length_values same, valueNum_values same, valueKeys_values same, firstRun_values same]

theorem isLianZha4xN_values (same : xs.map V = ys.map V) : isLianZha4xN xs = isLianZha4xN ys := by
  simp only [isLianZha4xN, length_values same, valueAt_values same, valueKeys_values same, firstRun_values same]

theorem isZhaDan_values (same : xs.map V = ys.map V) : isZhaDan xs = isZhaDan ys := by
  simp only [isZhaDan, length_values same, valueAt_values same]

theorem isSanDaiYi_values (same : xs.map V = ys.map V) : isSanDaiYi xs = isSanDaiYi ys := by
  simp only [isSanDaiYi, length_values same, valueAt_values same, valueNum_values same, valueKeys_values same]

theorem shunZiScan_values (same : xs.map V = ys.map V) (dic : List Nat) (acc : Option (Nat × Nat × Nat)) :
    shunZiScan xs dic acc = shunZiScan ys dic acc := by
  induction xs generalizing ys dic acc with
  | nil =>
      obtain rfl := List.map_eq_nil_iff.mp same.symm
      rfl
  | cons x xs ih =>
      cases ys with
      | nil => cases same
      | cons y ys =>
          obtain ⟨first, rest⟩ := List.cons.inj same
          simp only [shunZiScan, isKing, is2, first, ih rest]
          rfl

theorem repeatScan_values (same : xs.map V = ys.map V) (limit : Nat) (dic : List Nat) (acc : Option (Nat × Nat)) :
    repeatScan limit xs dic acc = repeatScan limit ys dic acc := by
  induction xs generalizing ys dic acc with
  | nil =>
      obtain rfl := List.map_eq_nil_iff.mp same.symm
      rfl
  | cons x xs ih =>
      cases ys with
      | nil => cases same
      | cons y ys =>
          obtain ⟨first, rest⟩ := List.cons.inj same
          simp only [repeatScan, isKing, is2, first, ih rest]
          rfl

theorem isShunZi_values (same : xs.map V = ys.map V) : isShunZi xs = isShunZi ys := by
  simp only [isShunZi, length_values same, valueAt_values same, shunZiScan_values same]

theorem isRepeatRun_values (same : xs.map V = ys.map V) (limit : Nat) (type : CardType) :
    isRepeatRun limit type xs = isRepeatRun limit type ys := by
  simp only [isRepeatRun, length_values same, valueAt_values same, repeatScan_values same]

/-- The codes that `isSiDaiLiangDui` compares are those of the first suit. -/
theorem isSiDaiLiangDui_values (deck : OfDeck xs) (deck' : OfDeck ys) (sorted : xs.Pairwise cardLe)
    (sorted' : ys.Pairwise cardLe) (same : xs.map V = ys.map V) : isSiDaiLiangDui xs = isSiDaiLiangDui ys := by
  simp only [isSiDaiLiangDui, deck.scan sorted, deck'.scan sorted', length_values same, valueAt_values same,
    valueNum_values same, valueKeys_values same]

theorem parseCardTypeOther_values (deck : OfDeck xs) (deck' : OfDeck ys) (sorted : xs.Pairwise cardLe)
    (sorted' : ys.Pairwise cardLe) (same : xs.map V = ys.map V) : parseCardTypeOther xs = parseCardTypeOther ys := by
  simp only [parseCardTypeOther, isLianZha4xN_values same, isSanDaiYiDui_values same, isSiDaiEr_values same,
    isSiDaiLiangDui_values deck deck' sorted sorted' same, isShunZi_values same, isLianDui, isFeiJiBuDai,
    isRepeatRun_values same, isFeiJiDaiDan_values same, isFeiJiDaiDui_values same]

/-- Sorted cards of equal values have their values in the same places. -/
theorem cardSort_map (same : (xs.map V).Perm (ys.map V)) : (cardSort xs).map V = (cardSort ys).map V := by
  refine List.Perm.eq_of_pairwise' (cardSort_values xs) (cardSort_values ys) ?_
  exact ((cardSort_perm xs).map V).trans (same.trans ((cardSort_perm ys).map V).symm)

theorem parseCardType_values (deck : OfDeck xs) (deck' : OfDeck ys) (same : (xs.map V).Perm (ys.map V)) :
    parseCardType xs = parseCardType ys := by
  have sorted := cardSort_map same
  have other := parseCardTypeOther_values (deck.perm (cardSort_perm xs)) (deck'.perm (cardSort_perm ys))
    (List.pairwise_insertionSort cardLe xs) (List.pairwise_insertionSort cardLe ys) sorted
  simp only [parseCardType, length_values sorted, valueAt_values sorted, parseCardTypeTwo, parseCardTypeThree,
    parseCardTypeFour, isZhaDan_values sorted, isSanDaiYi_values sorted, other]

/-- The types of two hands whose values are the same, found in any order of the groups, are the same. -/
theorem parse_sameValues {o o' : PairsOrder} (deck : OfDeck xs) (deck' : OfDeck ys)
    (same : (xs.map V).Perm (ys.map V)) (visits : o.Visits xs) (visits' : o'.Visits ys) :
    parseCardTypeIn o xs = parseCardTypeIn o' ys := by
  rw [parseCardTypeIn_eq deck visits, parseCardTypeIn_eq deck' visits', parseCardType_values deck deck' same]

end Values

/-- Four of a kind and two cards, and the same values in another order and partly of other suits. -/
theorem parse_sameValues_four :
    parseCardTypeIn ⟨[1, 2, 3], [1, 2, 3], [1, 2, 3], [1, 2, 3], [1, 2, 3], [1, 2, 3]⟩
        [0x11, 0x21, 0x31, 0x41, 0x12, 0x13] =
      parseCardTypeIn ⟨[3, 2, 1], [2, 3, 1], [3, 1, 2], [1, 3, 2], [3, 2, 1], [3, 2, 1]⟩
        [0x23, 0x42, 0x41, 0x31, 0x21, 0x11] :=
  parse_sameValues ⟨by decide, by decide⟩ ⟨by decide, by decide⟩ (by decide)
    ⟨by decide, by decide, by decide, by decide, by decide, by decide⟩
    ⟨by decide, by decide, by decide, by decide, by decide, by decide⟩

end HuluLandlord.Ddz
