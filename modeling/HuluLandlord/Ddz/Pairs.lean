import HuluLandlord.Ddz.Parse
import HuluLandlord.Table

/-!
The recognisers that go through the groups of a hand with `pairs`, which visits them in an order that is not
known. Here the order is an argument. Of the hands that a deck gives, the order makes no difference, and the
recognisers are those of the order by value.
-/
namespace HuluLandlord.Ddz
open Table

def isSanDaiYiIn (keys : List Nat) (cards : List Card) : Option (List CardTypeObj) :=
  if cards.length = 4 then
    if valueAt cards 1 = valueAt cards 4 ∨ valueAt cards 2 ≠ valueAt cards 3 then none
    else some ((keys.find? fun v => valueNum cards v = 3).toList.map (.plain .sandaiyi))
  else none

/-- The loop of `isSanDaiYiDui`, which keeps the last group of two and the last one of three. -/
def sanDaiYiDuiScan (cards : List Card) : List Nat → Option Nat → Option Nat → Option Nat × Option Nat
  | [], arr2, arr3 => (arr2, arr3)
  | v :: keys, arr2, arr3 =>
      if valueNum cards v = 2 then sanDaiYiDuiScan cards keys (some v) arr3
      else if valueNum cards v = 3 then sanDaiYiDuiScan cards keys arr2 (some v)
      else sanDaiYiDuiScan cards keys arr2 arr3

def isSanDaiYiDuiIn (keys : List Nat) (cards : List Card) : Option (List CardTypeObj) :=
  if cards.length = 5 then
    if valueAt cards 1 ≠ valueAt cards 2 then none
    else if getKingCount cards > 0 then none
    else
      match sanDaiYiDuiScan cards keys none none with
      | (some _, some v) => some [.plain .sandaiyidui v]
      | _ => some []
  else none

def isSiDaiErIn (keys : List Nat) (cards : List Card) : Option (List CardTypeObj) :=
  if cards.length = 6 then
    if valueAt cards 1 = valueAt cards 6 then none
    else if valueAt cards 3 ≠ valueAt cards 4 then none
    else
      match keys.find? fun v => 4 ≤ valueNum cards v with
      | some v => if valueNum cards v = 4 then some [.plain .sidaier v] else some []
      | none => some []
  else none

def isSiDaiLiangDuiIn (keys : List Nat) (cards : List Card) : Option (List CardTypeObj) :=
  if cards.length ≠ 8 then none
  else if valueAt cards 1 = valueAt cards 8 then none
  else if valueAt cards 1 ≠ valueAt cards 2 ∧ valueAt cards 7 ≠ valueAt cards 8 then none
  else
    let len := keys.length
    if len < 2 then none
    else if len = 2 ∧ valueAt cards 1 + 1 = valueAt cards 8 ∧ valueAt cards 8 ≠ 0xd then none
    else
      match siDaiLiangDuiScan cards keys none 0 0 with
      | (some v, arr4Count, duiCount) =>
          if arr4Count = 2 ∨ duiCount = 2 then some [.plain .sidailiangdui v] else some []
      | (none, _, _) => some []

/-- The loop of `isFeiJiDaiDan`: the largest value held at least three times whose lower neighbour is held. -/
def feiJiTopIn (cards : List Card) (keys : List Nat) : Option Nat :=
  keys.foldl (fun maxVal v =>
    if 3 ≤ valueNum cards v ∧ maxVal.all (fun m => m < v) ∧ 1 ≤ v ∧ 0 < valueNum cards (v - 1)
    then some v else maxVal) none

def isFeiJiDaiDanIn (keys : List Nat) (cards : List Card) : Option (List CardTypeObj) :=
  let num := cards.length
  if num < 8 ∨ num % 4 ≠ 0 then none
  else
    let threeNum := num / 4
    if keys.length < threeNum + 1 then none
    else match feiJiTopIn cards keys with
      | none => none
      | some maxVal =>
          if (List.range' 1 (threeNum - 1)).all fun j =>
              j ≤ maxVal ∧ 3 ≤ valueNum cards (maxVal - j) then
            some [.plain .feiji_daidan (maxVal - (threeNum - 1))]
          else none

def isFeiJiDaiDuiIn (keys : List Nat) (cards : List Card) : Option (List CardTypeObj) :=
  let num := cards.length
  if num < 10 ∨ num % 5 ≠ 0 then none
  else if keys.length < 3 then none
  else match firstRun cards 3 (num / 5) with
    | none => none
    | some weight =>
        if keys.all fun v => valueNum cards v = 3 ∨ valueNum cards v % 2 = 0 then
          some [.plain .feiji_daidui weight]
        else none

/-- Each recogniser makes a table of its own. -/
structure PairsOrder where
  sanDaiYi : List Nat
  sanDaiYiDui : List Nat
  siDaiEr : List Nat
  siDaiLiangDui : List Nat
  feiJiDaiDan : List Nat
  feiJiDaiDui : List Nat

/-- All groups are visited. -/
structure PairsOrder.Visits (o : PairsOrder) (cards : List Card) : Prop where
  sanDaiYi : o.sanDaiYi.Perm (valueKeys cards)
  sanDaiYiDui : o.sanDaiYiDui.Perm (valueKeys cards)
  siDaiEr : o.siDaiEr.Perm (valueKeys cards)
  siDaiLiangDui : o.siDaiLiangDui.Perm (valueKeys cards)
  feiJiDaiDan : o.feiJiDaiDan.Perm (valueKeys cards)
  feiJiDaiDui : o.feiJiDaiDui.Perm (valueKeys cards)

def parseCardTypeFourIn (o : PairsOrder) (cards : List Card) : Lua (List CardTypeObj) := do
  let t1 ← isZhaDan cards
  return t1.getD [] ++ (isSanDaiYiIn o.sanDaiYi cards).getD []

def parseCardTypeOtherIn (o : PairsOrder) (cards : List Card) : Lua (List CardTypeObj) := do
  let lianZha ← isLianZha4xN cards
  return (isSanDaiYiDuiIn o.sanDaiYiDui cards).getD [] ++ (isSiDaiErIn o.siDaiEr cards).getD []
    ++ (isSiDaiLiangDuiIn o.siDaiLiangDui cards).getD [] ++ (isShunZi cards).getD []
    ++ (isLianDui cards).getD [] ++ (isFeiJiBuDai cards).getD []
    ++ (isFeiJiDaiDanIn o.feiJiDaiDan cards).getD [] ++ (isFeiJiDaiDuiIn o.feiJiDaiDui cards).getD []
    ++ lianZha.getD []

def parseCardTypeIn (o : PairsOrder) (cards : List Card) : Lua (List CardTypeObj) :=
  let cards := cardSort cards
  match cards.length with
  | 1 => .ok [.plain .dan (valueAt cards 1)]
  | 2 => .ok (parseCardTypeTwo cards)
  | 3 => .ok (parseCardTypeThree cards)
  | 4 => parseCardTypeFourIn o cards
  | _ => parseCardTypeOtherIn o cards

/-- Cards that one deck can give. -/
structure OfDeck (cards : List Card) : Prop where
  nodup : cards.Nodup
  subset : ∀ card ∈ cards, card ∈ create_a_pair_cards

section Orders
variable {cards : List Card} {keys : List Nat} {v w : Nat}

/-- Two groups do not share a card. -/
theorem valueNum_add_le (differ : v ≠ w) : valueNum cards v + valueNum cards w ≤ cards.length := by
  induction cards with
  | nil => exact le_rfl
  | cons card cards ih =>
      simp only [valueNum, valueGroup, List.filter_cons, decide_eq_true_eq, List.length_cons] at ih ⊢
      split
      · rename_i here
        rw [if_neg (here ▸ differ)]
        simp only [List.length_cons]
        omega
      · split
        · simp only [List.length_cons]
          omega
        · omega

theorem valueKeys_nodup (cards : List Card) : (valueKeys cards).Nodup := List.nodup_range.filter _

theorem isSanDaiYiIn_eq (perm : keys.Perm (valueKeys cards)) : isSanDaiYiIn keys cards = isSanDaiYi cards := by
  rw [isSanDaiYiIn, isSanDaiYi]
  split
  · rename_i four
    have alone : ∀ v ∈ keys, ∀ w ∈ keys, decide (valueNum cards v = 3) = true → decide (valueNum cards w = 3) = true →
        v = w := by
      intro v _ w _ three three'
      by_contra differ
      have both := @valueNum_add_le cards v w differ
      rw [of_decide_eq_true three, of_decide_eq_true three'] at both
      omega
    rw [find_perm perm alone]
  · rfl

theorem sanDaiYiDuiScan_fst (arr2 arr3 : Option Nat) :
    (sanDaiYiDuiScan cards keys arr2 arr3).1.isSome = (arr2.isSome || keys.any fun v => valueNum cards v = 2) := by
  induction keys generalizing arr2 arr3 with
  | nil => simp [sanDaiYiDuiScan]
  | cons v keys ih =>
      rw [sanDaiYiDuiScan]
      split
      · rename_i two
        simp [ih, two]
      · rename_i other
        split
        · simp [ih, other]
        · simp [ih, other]

/-- The group of three that is kept, where there is one at most. -/
theorem sanDaiYiDuiScan_snd (arr2 arr3 : Option Nat)
    (alone : ∀ v ∈ keys, ∀ w ∈ keys, valueNum cards v = 3 → valueNum cards w = 3 → v = w) :
    (sanDaiYiDuiScan cards keys arr2 arr3).2 = (keys.find? fun v => valueNum cards v = 3).or arr3 := by
  induction keys generalizing arr2 arr3 with
  | nil => simp [sanDaiYiDuiScan]
  | cons v keys ih =>
      have rest := fun a b => ih a b fun v mem w mem' =>
        alone v (List.mem_cons_of_mem _ mem) w (List.mem_cons_of_mem _ mem')
      rw [sanDaiYiDuiScan, List.find?_cons]
      split
      · rename_i two
        rw [rest, two]
        rfl
      · split
        · rename_i three
          rw [rest, decide_eq_true three]
          cases found : keys.find? fun v => valueNum cards v = 3 with
          | none => rfl
          | some w =>
              have passes : valueNum cards w = 3 := of_decide_eq_true (List.find?_some found :)
              rw [alone v List.mem_cons_self w (List.mem_cons_of_mem _ (List.mem_of_find?_eq_some found)) three passes]
              rfl
        · rename_i other
          rw [rest, decide_eq_false other]

theorem isSanDaiYiDuiIn_eq (perm : keys.Perm (valueKeys cards)) :
    isSanDaiYiDuiIn keys cards = isSanDaiYiDui cards := by
  rw [isSanDaiYiDuiIn, isSanDaiYiDui]
  split
  · rename_i five
    have alone : ∀ v ∈ keys, ∀ w ∈ keys, valueNum cards v = 3 → valueNum cards w = 3 → v = w := by
      intro v _ w _ three three'
      by_contra differ
      have both := @valueNum_add_le cards v w differ
      omega
    have two := @sanDaiYiDuiScan_fst cards keys none none
    have three := sanDaiYiDuiScan_snd none none alone
    rw [Option.or_none, find_perm perm fun v mem w mem' p q =>
      alone v mem w mem' (of_decide_eq_true p) (of_decide_eq_true q)] at three
    rw [Option.isSome_none, Bool.false_or, perm.any_eq, ← List.isSome_find?] at two
    cases scan : sanDaiYiDuiScan cards keys none none with
    | mk arr2 arr3 =>
        rw [scan] at two three
        dsimp only at two three
        rw [three]
        cases found : (valueKeys cards).find? fun v => valueNum cards v = 2 with
        | none =>
            rw [found] at two
            cases arr2 with
            | none => rfl
            | some v => cases two
        | some w =>
            rw [found] at two
            cases arr2 with
            | none => cases two
            | some v =>
                cases (valueKeys cards).find? fun v => valueNum cards v = 3 with
                | none => rfl
                | some u => rfl
  · rfl

theorem isSiDaiErIn_eq (perm : keys.Perm (valueKeys cards)) : isSiDaiErIn keys cards = isSiDaiEr cards := by
  change isSiDaiErIn keys cards = isSiDaiErIn (valueKeys cards) cards
  simp only [isSiDaiErIn]
  split
  · rename_i six
    have alone : ∀ v ∈ keys, ∀ w ∈ keys, decide (4 ≤ valueNum cards v) = true →
        decide (4 ≤ valueNum cards w) = true → v = w := by
      intro v _ w _ four four'
      by_contra differ
      have both := @valueNum_add_le cards v w differ
      have := of_decide_eq_true four
      have := of_decide_eq_true four'
      omega
    rw [find_perm perm alone]
  · rfl

/-- The larger of two values is kept, in any order. -/
instance rightCommutative_feiJiTop (cards : List Card) : RightCommutative fun (maxVal : Option Nat) v =>
    if 3 ≤ valueNum cards v ∧ maxVal.all (fun m => m < v) ∧ 1 ≤ v ∧ 0 < valueNum cards (v - 1)
    then some v else maxVal := by
  refine ⟨fun maxVal v w => ?_⟩
  cases maxVal with
  | none => grind
  | some m => grind

theorem feiJiTopIn_eq (perm : keys.Perm (valueKeys cards)) : feiJiTopIn cards keys = feiJiTop cards :=
  perm.foldl_eq none

theorem isFeiJiDaiDanIn_eq (perm : keys.Perm (valueKeys cards)) :
    isFeiJiDaiDanIn keys cards = isFeiJiDaiDan cards := by
  change isFeiJiDaiDanIn keys cards = isFeiJiDaiDanIn (valueKeys cards) cards
  simp only [isFeiJiDaiDanIn, perm.length_eq, feiJiTopIn_eq perm, feiJiTopIn_eq (.refl (valueKeys cards))]

theorem isFeiJiDaiDuiIn_eq (perm : keys.Perm (valueKeys cards)) :
    isFeiJiDaiDuiIn keys cards = isFeiJiDaiDui cards := by
  change isFeiJiDaiDuiIn keys cards = isFeiJiDaiDuiIn (valueKeys cards) cards
  simp only [isFeiJiDaiDuiIn, perm.length_eq, perm.all_eq]

theorem OfDeck.perm {other : List Card} (deck : OfDeck cards) (perm : other.Perm cards) : OfDeck other :=
  ⟨perm.nodup_iff.mpr deck.nodup, fun card mem => deck.subset card (perm.mem_iff.mp mem)⟩

theorem OfDeck.subperm (deck : OfDeck cards) (v : Nat) :
    List.Subperm (valueGroup cards v) (valueGroup create_a_pair_cards v) := by
  refine List.subperm_of_subset (deck.nodup.filter _) fun card mem => ?_
  obtain ⟨held, value⟩ := mem_valueGroup.mp mem
  exact mem_valueGroup.mpr ⟨deck.subset card held, value⟩

theorem OfDeck.valueNum_le (deck : OfDeck cards) (v : Nat) : valueNum cards v ≤ 4 := by
  refine (deck.subperm v).length_le.trans ?_
  by_cases small : v < 16
  · have all : ∀ v < 16, (valueGroup create_a_pair_cards v).length ≤ 4 := by decide
    exact all v small
  · have empty : valueGroup create_a_pair_cards v = [] :=
      List.filter_eq_nil_iff.mpr fun card _ same => small (of_decide_eq_true same ▸ V_lt card)
    rw [empty]
    exact Nat.zero_le 4

/-- The card of the first suit is among the four of a value. -/
theorem deck_first : ∀ v < 16, (valueGroup create_a_pair_cards v).length = 4 →
    (16 + v : Card) ∈ valueGroup create_a_pair_cards v ∧ C (16 + v) = 1 := by decide

theorem deck_suit : ∀ card ∈ create_a_pair_cards, C card ≤ 1 → card = 16 + V card := by decide

/-- The first card of a group of four is of the first suit. -/
theorem OfDeck.code (deck : OfDeck cards) (sorted : cards.Pairwise cardLe) (four : valueNum cards v = 4) :
    (valueGroup cards v).headD 0 = 16 + v := by
  have held : 0 < valueNum cards v := by omega
  obtain ⟨card, -, here⟩ := valueNum_pos.mp held
  have small : v < 16 := here ▸ V_lt card
  have most : (valueGroup create_a_pair_cards v).length ≤ 4 := by
    have all : ∀ v < 16, (valueGroup create_a_pair_cards v).length ≤ 4 := by decide
    exact all v small
  have whole : (valueGroup cards v).Perm (valueGroup create_a_pair_cards v) :=
    (deck.subperm v).perm_of_length_le (most.trans four.ge)
  obtain ⟨first, suit⟩ := deck_first v small (whole.length_eq.symm.trans four)
  have ordered : (valueGroup cards v).Pairwise cardLe := sorted.filter _
  rw [← whole.mem_iff] at first
  cases group : valueGroup cards v with
  | nil => exact absurd (group ▸ first) List.not_mem_nil
  | cons head rest =>
      rw [group] at first ordered
      obtain ⟨held, value⟩ := mem_valueGroup.mp (group ▸ List.mem_cons_self : head ∈ valueGroup cards v)
      obtain same | later := List.mem_cons.mp first
      · exact same.symm
      · have le := (List.pairwise_cons.mp ordered).1 _ later
        have value' := (mem_valueGroup.mp (group ▸ first : (16 + v : Card) ∈ valueGroup cards v)).2
        rw [cardLe, if_pos (value.trans value'.symm), suit] at le
        rw [List.headD_cons, deck_suit head (deck.subset head held) le, value]

/-- The loop of `isSiDaiLiangDui`, where codes are compared as their values. -/
theorem siDaiLiangDuiScan_eq (few : ∀ v, valueNum cards v ≤ 4)
    (codes : ∀ v w, valueNum cards v = 4 → valueNum cards w = 4 →
      ((valueGroup cards v).headD 0 > (valueGroup cards w).headD 0 ↔ v > w))
    (arr4 : Option Nat) (known : ∀ w ∈ arr4, valueNum cards w = 4) (arr4Count duiCount : Nat) :
    siDaiLiangDuiScan cards keys arr4 arr4Count duiCount =
      (keys.foldl (fun arr4 v => if valueNum cards v = 4 then some (arr4.elim v (max v)) else arr4) arr4,
        arr4Count + keys.countP (valueNum cards · = 4), duiCount + keys.countP (valueNum cards · = 2)) := by
  induction keys generalizing arr4 arr4Count duiCount with
  | nil => rfl
  | cons v keys ih =>
      simp only [siDaiLiangDuiScan, if_neg (not_lt.mpr (few v)), List.foldl_cons, List.countP_cons]
      split
      · rename_i two
        rw [ih arr4 known]
        simp [two]
        omega
      · split
        · rename_i four
          cases arr4 with
          | none =>
              rw [ih (some v) fun w same => Option.some.inj same ▸ four]
              simp [four]
              omega
          | some w =>
              have larger : (if (valueGroup cards v).headD 0 > (valueGroup cards w).headD 0 then v else w) = max v w := by
                simp only [codes v w four (known w rfl)]
                split
                · omega
                · omega
              have known' : valueNum cards (max v w) = 4 := by
                obtain same | same := max_choice v w
                · rw [same, four]
                · rw [same, known w rfl]
              simp only [larger]
              rw [ih (some (max v w)) fun u same => Option.some.inj same ▸ known']
              simp [four]
              omega
        · rename_i two four
          rw [ih arr4 known]
          simp [two, four]

instance rightCommutative_arr4 (cards : List Card) : RightCommutative fun (arr4 : Option Nat) v =>
    if valueNum cards v = 4 then some (arr4.elim v (max v)) else arr4 := by
  refine ⟨fun arr4 v w => ?_⟩
  cases arr4 with
  | none =>
      simp only [Option.elim_none]
      split
      · split
        · simp [max_comm]
        · simp
      · rfl
  | some u =>
      simp only [Option.elim_some]
      split
      · split
        · simp [max_left_comm]
        · simp
      · rfl

theorem OfDeck.scan (deck : OfDeck cards) (sorted : cards.Pairwise cardLe) (keys : List Nat) :
    siDaiLiangDuiScan cards keys none 0 0 =
      (keys.foldl (fun arr4 v => if valueNum cards v = 4 then some (arr4.elim v (max v)) else arr4) none,
        0 + keys.countP (valueNum cards · = 4), 0 + keys.countP (valueNum cards · = 2)) := by
  refine siDaiLiangDuiScan_eq deck.valueNum_le (fun v w four four' => ?_) none
    (fun w same => absurd same (Option.not_mem_none w)) 0 0
  rw [deck.code sorted four, deck.code sorted four']
  exact (Int.add_lt_add_iff_left 16).trans Int.ofNat_lt

theorem isSiDaiLiangDuiIn_eq (deck : OfDeck cards) (sorted : cards.Pairwise cardLe)
    (perm : keys.Perm (valueKeys cards)) : isSiDaiLiangDuiIn keys cards = isSiDaiLiangDui cards := by
  have same : siDaiLiangDuiScan cards keys none 0 0 = siDaiLiangDuiScan cards (valueKeys cards) none 0 0 := by
    rw [deck.scan sorted, deck.scan sorted, perm.foldl_eq, perm.countP_eq, perm.countP_eq]
  change isSiDaiLiangDuiIn keys cards = isSiDaiLiangDuiIn (valueKeys cards) cards
  simp only [isSiDaiLiangDuiIn, perm.length_eq, same]

theorem parseCardTypeFourIn_eq {o : PairsOrder} (visits : o.Visits cards) :
    parseCardTypeFourIn o cards = parseCardTypeFour cards := by
  rw [parseCardTypeFourIn, parseCardTypeFour, isSanDaiYiIn_eq visits.sanDaiYi]

theorem parseCardTypeOtherIn_eq {o : PairsOrder} (deck : OfDeck cards) (sorted : cards.Pairwise cardLe)
    (visits : o.Visits cards) : parseCardTypeOtherIn o cards = parseCardTypeOther cards := by
  rw [parseCardTypeOtherIn, parseCardTypeOther, isSanDaiYiDuiIn_eq visits.sanDaiYiDui, isSiDaiErIn_eq visits.siDaiEr,
    isSiDaiLiangDuiIn_eq deck sorted visits.siDaiLiangDui, isFeiJiDaiDanIn_eq visits.feiJiDaiDan,
    isFeiJiDaiDuiIn_eq visits.feiJiDaiDui]

/-- Of the cards of one deck, the types do not depend on the order in which the groups are visited. -/
theorem parseCardTypeIn_eq {o : PairsOrder} (deck : OfDeck cards) (visits : o.Visits cards) :
    parseCardTypeIn o cards = parseCardType cards := by
  have perm := cardSort_perm cards
  have visits' : o.Visits (cardSort cards) := by
    have keys := valueKeys_perm perm
    exact ⟨keys ▸ visits.sanDaiYi, keys ▸ visits.sanDaiYiDui, keys ▸ visits.siDaiEr, keys ▸ visits.siDaiLiangDui,
      keys ▸ visits.feiJiDaiDan, keys ▸ visits.feiJiDaiDui⟩
  have sorted : (cardSort cards).Pairwise cardLe := List.pairwise_insertionSort cardLe cards
  simp only [parseCardTypeIn, parseCardTypeFourIn_eq visits', parseCardTypeOtherIn_eq (deck.perm perm) sorted visits']
  exact (rfl : _ = parseCardType cards)

end Orders

end HuluLandlord.Ddz
