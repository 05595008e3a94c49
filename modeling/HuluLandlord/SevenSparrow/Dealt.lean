import HuluLandlord.SevenSparrow.DealCard
import HuluLandlord.Transition

/-!
What a deal comes to. No card is made or lost, and so few are out of the pool while the
luck of the players is dealt that the loops over it find what they wait for and the
flowers of the hands find other cards. Only the jokers can run out.
-/
namespace HuluLandlord.SevenSparrow
open Shuffle
open Ddz (Card V C)

/-- The deck, as the cards it holds. -/
def deck : Multiset Card := create_two_pair_cards

/-- Of the deck no more than `n` cards are missing. -/
def Few (n : Nat) (cards : List Card) : Prop :=
  ∃ gone : Multiset Card, gone + cards = deck ∧ gone.card ≤ n

/-- Cards that came out of others. -/
def Gives (cards hand rest : List Card) : Prop := (hand ++ rest).Perm cards

section Kinds
variable {kind : Card → Bool} {cards hand rest : List Card} {n v c : Nat}

theorem find_and_remove_gives :
    Gives cards (find_and_remove kind cards).1.toList (find_and_remove kind cards).2 := by
  simp only [find_and_remove, Gives]
  induction cards with
  | nil => exact .refl _
  | cons card cards ih =>
      rw [List.find?_cons, List.eraseP_cons]
      cases same : kind card with
      | true => exact .refl _
      | false => exact (List.perm_middle.trans (ih.cons card))

theorem find_and_remove_kind {one : Card} (found : (find_and_remove kind cards).1 = some one) :
    kind one = true := List.find?_some found

theorem find_and_remove_none (none : (find_and_remove kind cards).1 = none) :
    cards.countP kind = 0 := by
  rw [List.countP_eq_zero]
  exact List.find?_eq_none.mp none

theorem Gives.countP (gives : Gives cards hand rest) (kind : Card → Bool) :
    hand.countP kind + rest.countP kind = cards.countP kind := by
  rw [← List.countP_append]
  exact gives.countP_eq kind

theorem removeKinds_gives {kinds : List (Card → Bool)} :
    Gives cards (removeKinds kinds cards).1 (removeKinds kinds cards).2 := by
  induction kinds generalizing cards with
  | nil => exact .refl _
  | cons kind kinds ih =>
      have first := @find_and_remove_gives kind cards
      have others := @ih (find_and_remove kind cards).2
      simp only [removeKinds, Gives, List.append_assoc] at first others ⊢
      exact (others.append_left _).trans first

theorem removeKinds_length {kinds : List (Card → Bool)} :
    (removeKinds kinds cards).1.length ≤ kinds.length := by
  induction kinds generalizing cards with
  | nil => exact Nat.zero_le 0
  | cons kind kinds ih =>
      have others := @ih (find_and_remove kind cards).2
      simp only [removeKinds, List.length_append, List.length_cons]
      have one : (find_and_remove kind cards).1.toList.length ≤ 1 := by
        cases (find_and_remove kind cards).1 with
        | none => exact Nat.zero_le 1
        | some one => exact le_refl 1
      omega

theorem removeKinds_kinds {kinds : List (Card → Bool)} {card : Card}
    (mem : card ∈ (removeKinds kinds cards).1) : ∃ kind ∈ kinds, kind card = true := by
  induction kinds generalizing cards with
  | nil => exact absurd mem List.not_mem_nil
  | cons kind kinds ih =>
      simp only [removeKinds] at mem
      cases List.mem_append.mp mem with
      | inl here =>
          exact ⟨kind, List.mem_cons_self, find_and_remove_kind (Option.mem_toList.mp here)⟩
      | inr later =>
          obtain ⟨other, mem, holds⟩ := ih later
          exact ⟨other, List.mem_cons_of_mem kind mem, holds⟩

theorem whole_countP {gone : Multiset Card} (whole : gone + cards = deck)
    (kind : Card → Bool) :
    gone.countP (fun card => kind card = true) + cards.countP kind =
      create_two_pair_cards.countP kind := by
  have count := congrArg (Multiset.countP fun card => kind card = true) whole
  rw [Multiset.countP_add, deck, Multiset.coe_countP, Multiset.coe_countP] at count
  simpa using count

/-- How many of a kind are left where few cards are gone. -/
theorem Few.countP (few : Few n cards) (kind : Card → Bool) :
    create_two_pair_cards.countP kind ≤ cards.countP kind + n := by
  obtain ⟨gone, whole, most⟩ := few
  have count := whole_countP whole kind
  have bound := Multiset.countP_le_card (fun card => kind card = true) gone
  omega

theorem Few.mono {m : Nat} (few : Few n cards) (le : n ≤ m) : Few m cards := by
  obtain ⟨gone, whole, most⟩ := few
  exact ⟨gone, whole, most.trans le⟩

theorem Few.mem (few : Few n cards) {card : Card} (mem : card ∈ cards) :
    card ∈ create_two_pair_cards := by
  obtain ⟨gone, whole, _⟩ := few
  have inside : card ∈ deck := by
    rw [← whole]
    exact Multiset.mem_add.mpr (.inr (Multiset.mem_coe.mpr mem))
  exact inside

theorem Few.gives {m : Nat} (few : Few n cards) (gives : Gives cards hand rest)
    (most : hand.length ≤ m) : Few (n + m) rest := by
  obtain ⟨gone, whole, size⟩ := few
  refine ⟨gone + hand, ?_, ?_⟩
  · rw [add_assoc, Multiset.coe_add, Multiset.coe_eq_coe.mpr gives, whole]
  · rw [Multiset.card_add, Multiset.coe_card]
    omega

theorem countP_imp {p q : Card → Bool} (imp : ∀ card, p card = true → q card = true)
    (gone : Multiset Card) :
    gone.countP (fun card => p card = true) ≤ gone.countP fun card => q card = true := by
  rw [Multiset.countP_eq_card_filter, Multiset.countP_eq_card_filter]
  exact Multiset.card_le_card (Multiset.monotone_filter_right gone imp)

theorem not_leper (plain : v ≤ 0xc) {card : Card} (value : hasValue v card = true) :
    is_leper card = false := by
  simp only [hasValue, decide_eq_true_eq] at value
  simp only [is_leper, value, decide_eq_false_iff_not, not_le]
  omega

theorem count_item_eq (plain : v ≤ 0xc) : count_item cards v = cards.countP (hasValue v) := by
  refine List.countP_congr fun card _ => ?_
  simp only [Bool.and_eq_true, Bool.not_eq_true', and_iff_right_iff_imp]
  exact not_leper plain

theorem cards_count_eq (plain : v ≤ 0xc) :
    cards_count cards v c = cards.countP (hasColorValue c v) := by
  refine List.countP_congr fun card _ => ?_
  simp only [Bool.and_eq_true, Bool.not_eq_true', and_iff_right_iff_imp, hasColorValue]
  exact fun both => not_leper plain both.1

theorem cards_count_le : cards_count cards v c ≤ count_item cards v := by
  refine List.countP_mono_left fun card _ => ?_
  simp only [Bool.and_eq_true, hasColorValue, hasValue]
  exact fun both => ⟨both.1, both.2.1⟩

/-- Some value is left four times. -/
theorem Few.leopard (few : Few n cards) (most : n < 60) :
    ∃ v, 1 ≤ v ∧ v ≤ 0xc ∧ 4 ≤ count_item cards v := by
  by_contra none
  push Not at none
  obtain ⟨gone, whole, size⟩ := few
  have eight : ∀ v ∈ Finset.Icc 1 0xc, create_two_pair_cards.countP (hasValue v) = 8 := by decide
  have missing : ∀ v ∈ Finset.Icc 1 0xc, 5 ≤ gone.countP fun card => V card = v := by
    intro v mem
    obtain ⟨low, high⟩ := Finset.mem_Icc.mp mem
    have count := whole_countP whole (hasValue v)
    have few := none v low high
    rw [count_item_eq high] at few
    rw [eight v mem] at count
    simp only [hasValue, decide_eq_true_eq] at count few
    omega
  have total := sum_countP_le V (Finset.Icc 1 0xc) gone
  have least := Finset.card_nsmul_le_sum _ _ 5 missing
  rw [Nat.card_Icc, smul_eq_mul] at least
  omega

/-- The suit of a card, and which four values in a row it is of. -/
def block (card : Card) : Nat × Nat := (C card, (V card - 1) / 4)

/-- Where four values in a row are left in no suit, one of the four is gone from it. -/
theorem shunzi_missing (none : find_four_shunzi_color cards v = none) (suit : c ∈ [1, 2, 3, 4]) :
    ∃ i < 4, cards_count cards (v + i) c = 0 := by
  simp only [find_four_shunzi_color] at none
  split at none
  · rename_i absent
    obtain ⟨i, mem, absent⟩ := List.any_eq_true.mp absent
    refine ⟨i, List.mem_range.mp mem, Nat.le_zero.mp ?_⟩
    exact cards_count_le.trans (of_decide_eq_true absent).le
  · have broken := List.find?_eq_none.mp none c suit
    simpa using broken

/-- Some four values in a row are left in one suit. -/
theorem Few.shunzi (few : Few n cards) (most : n < 24) :
    ∃ v, 1 ≤ v ∧ v ≤ 0xc - 3 ∧ (find_four_shunzi_color cards v).isSome = true := by
  by_contra none
  push Not at none
  obtain ⟨gone, whole, size⟩ := few
  have pair : ∀ c ∈ Finset.Icc 1 4, ∀ v ∈ Finset.Icc 1 0xc,
      create_two_pair_cards.countP (hasColorValue c v) = 2 := by decide
  have missing : ∀ ck ∈ Finset.Icc 1 4 ×ˢ Finset.range 3,
      2 ≤ gone.countP fun card => block card = ck := by
    rintro ⟨c, k⟩ mem
    obtain ⟨suit, row⟩ := Finset.mem_product.mp mem
    have row := Finset.mem_range.mp row
    have absent := Option.not_isSome_iff_eq_none.mp (none (4 * k + 1) (by omega) (by omega))
    have suits : ∀ c ∈ Finset.Icc 1 4, c ∈ [1, 2, 3, 4] := by decide
    obtain ⟨i, short, zero⟩ := shunzi_missing absent (suits c suit)
    have value : 4 * k + 1 + i ∈ Finset.Icc 1 0xc := Finset.mem_Icc.mpr ⟨by omega, by omega⟩
    have count := whole_countP whole (hasColorValue c (4 * k + 1 + i))
    rw [cards_count_eq (Finset.mem_Icc.mp value).2] at zero
    rw [pair c suit _ value, zero, Nat.add_zero] at count
    have kinds := countP_imp (p := hasColorValue c (4 * k + 1 + i))
      (q := fun card => block card = (c, k)) (fun card same => by
        simp only [hasColorValue, Bool.and_eq_true, decide_eq_true_eq] at same
        simp only [block, same.1, same.2, decide_eq_true_eq, Prod.mk.injEq, true_and]
        omega) gone
    simp only [decide_eq_true_eq] at kinds
    omega
  have total := sum_countP_le block (Finset.Icc 1 4 ×ˢ Finset.range 3) gone
  have least := Finset.card_nsmul_le_sum _ _ 2 missing
  rw [Finset.card_product, Nat.card_Icc, Finset.card_range, smul_eq_mul] at least
  omega

/-- Drawn values that would do for both loops. -/
def Enough (values : List Nat) : Prop := ∃ vs, values = vs ++ List.range 0xc

theorem Enough.drawn {values : List Nat} {lo hi : Nat} (enough : Enough values) (low : lo ≤ v)
    (high : v ≤ hi) (range : hi < lo + 0xc) : v ∈ values.map (random lo hi) := by
  obtain ⟨vs, rfl⟩ := enough
  refine List.mem_map.mpr ⟨v - lo, ?_, ?_⟩
  · rw [List.mem_append, List.mem_range]
    right
    omega
  · rw [random, Nat.mod_eq_of_lt (by omega)]
    omega

/-- Four cards of no joker. -/
structure FourCards (cards hand rest : List Card) : Prop where
  gives : Gives cards hand rest
  length : hand.length ≤ 4
  plain : ∀ card ∈ hand, V card ≤ 0xd

theorem random_range {lo hi : Nat} (order : lo ≤ hi) (n : Nat) :
    lo ≤ random lo hi n ∧ random lo hi n ≤ hi := by
  have small := Nat.mod_lt n (show 0 < hi + 1 - lo by omega)
  simp only [random]
  omega

theorem random_4lian_cases {d : Draws} {values : List Nat} (few : Few n cards) (most : n < 24) :
    (random_4lian cards d values = .error .drawing ∧ ¬Enough values) ∨
      ∃ hand rest, random_4lian cards d values = .ok (hand, rest) ∧ FourCards cards hand rest := by
  simp only [random_4lian]
  split
  · simp only [random_4_leopard]
    split
    · rename_i none
      refine .inl ⟨rfl, fun enough => ?_⟩
      obtain ⟨v, low, high, four⟩ := few.leopard (by omega)
      have refused := List.find?_eq_none.mp none v (enough.drawn low high (by omega))
      exact refused (decide_eq_true four)
    · rename_i v found
      refine .inr ⟨(removeKinds (List.replicate 4 (hasValue v)) cards).1,
        (removeKinds (List.replicate 4 (hasValue v)) cards).2, rfl, removeKinds_gives,
        removeKinds_length, fun card mem => ?_⟩
      obtain ⟨kind, mem, same⟩ := removeKinds_kinds mem
      rw [List.eq_of_mem_replicate mem] at same
      obtain ⟨m, _, rfl⟩ := List.mem_map.mp (List.mem_of_find?_eq_some found)
      have high := (@random_range 1 0xc (by omega) m).2
      simp only [hasValue, decide_eq_true_eq] at same
      omega
  · simp only [random_4_shunzi]
    split
    · rename_i none
      refine .inl ⟨rfl, fun enough => ?_⟩
      obtain ⟨v, low, high, found⟩ := few.shunzi most
      have refused := List.findSome?_eq_none_iff.mp none v (enough.drawn low high (by omega))
      rw [Option.map_eq_none_iff] at refused
      rw [refused] at found
      cases found
    · rename_i c v found
      obtain ⟨us, w, vs, drawn, row, _⟩ := List.findSome?_eq_some_iff.mp found
      obtain ⟨c, _, same⟩ := Option.map_eq_some_iff.mp row
      obtain ⟨rfl, rfl⟩ := Prod.mk.inj same
      have mem : w ∈ values.map (random 1 (0xc - 3)) := by simp [drawn]
      obtain ⟨m, _, rfl⟩ := List.mem_map.mp mem
      have high := (@random_range 1 (0xc - 3) (by omega) m).2
      let kinds := (List.range 4).map fun i => hasColorValue c (random 1 (0xc - 3) m + i)
      refine .inr ⟨(removeKinds kinds cards).1, (removeKinds kinds cards).2, rfl,
        removeKinds_gives, removeKinds_length, fun card mem => ?_⟩
      obtain ⟨kind, mem, same⟩ := removeKinds_kinds mem
      obtain ⟨i, short, rfl⟩ := List.mem_map.mp mem
      have short := List.mem_range.mp short
      simp only [hasColorValue, Bool.and_eq_true, decide_eq_true_eq] at same
      omega

/-- Four of a suit, where there are as many. -/
theorem fourOfColor_found {l : List Card}
    (enough : 4 ≤ hand.length + l.countP fun one => C one = c ∧ V one ≠ 0xd)
    (short : hand.length ≤ 3) :
    ∃ found left, fourOfColor c l hand = (some found, left) ∧
      (found ++ left).Perm (hand ++ l) ∧ found.length = 4 ∧
      ∀ card ∈ found, card ∈ hand ∨ C card = c ∧ V card ≠ 0xd := by
  induction l generalizing hand with
  | nil => simp at enough; omega
  | cons one rest ih =>
      rw [List.countP_cons] at enough
      simp only [fourOfColor]
      split
      · rename_i fits
        split
        · rename_i three
          refine ⟨_, _, rfl, by simp, by simp [three], fun card mem => ?_⟩
          cases List.mem_append.mp mem with
          | inl held => exact .inl held
          | inr here => exact .inr (List.mem_singleton.mp here ▸ fits)
        · rename_i fewer
          rw [if_pos (by simpa using fits)] at enough
          obtain ⟨found, left, done, perm, length, kinds⟩ := @ih (hand ++ [one])
            (by rw [List.length_append, List.length_singleton]; omega)
            (by rw [List.length_append, List.length_singleton]; omega)
          refine ⟨found, left, done, by simpa using perm, length, fun card mem => ?_⟩
          cases kinds card mem with
          | inl held =>
              cases List.mem_append.mp held with
              | inl held => exact .inl held
              | inr here => exact .inr (List.mem_singleton.mp here ▸ fits)
          | inr fits => exact .inr fits
      · rename_i unfit
        rw [if_neg (by simpa using unfit), Nat.add_zero] at enough
        obtain ⟨found, left, done, perm, length, kinds⟩ := ih enough short
        refine ⟨found, one :: left, by rw [done], ?_, length, kinds⟩
        exact (List.perm_middle.trans (perm.cons one)).trans List.perm_middle.symm

end Kinds

/-- The chance of a king in percent. -/
def Dealee.chance (p : Dealee) : Nat := (p.ssw_2game_king.map (· % 256)).getD 0

/-- How many jokers of each value are left. -/
abbrev Jokers := Nat → Nat

namespace Jokers

def take (left : Jokers) (v : Nat) : Jokers := Function.update left v (left v - 1)

/-- One of the first value, or else of the second. -/
def either (left : Jokers) (v w : Nat) : Jokers :=
  if left v = 0 then left.take w else left.take v

/-- The jokers one player's luck leaves to the others, if his king is among them. -/
def after (roomtype : Nat) (p : Dealee) (d : Draws) (left : Jokers) : Option Jokers :=
  if p.robot then
    if roomtype ≤ GameRoomLevel.V1 ∧ random 1 100 d.prob ≤ 10 ∧ random 1 2 d.is_2 ≠ 1 then
      some (left.either 0xe 0xf)
    else some left
  else
    if random 1 100 d.prob ≤ p.chance then
      if left (random 0xe 0xf d.king) = 0 then none else some (left.take (random 0xe 0xf d.king))
    else if p.is_anchor ∧ tmp_anchor_virtual_pet false d = some SKILL_LEPER then
      some (if random 1 2 d.first = 1 then left.either 0xe 0xf else left.either 0xf 0xe)
    else some left

end Jokers

/-- No player's king is drawn of a value whose two jokers went to players before him. -/
def KingsLeft (roomtype : Nat) (players : Chair → Dealee) (d : Chair → Draws) : Prop :=
  ((List.finRange 4).foldlM (fun left p => Jokers.after roomtype (players p) (d p) left)
    fun _ => 2).isSome = true

instance (roomtype : Nat) (players : Chair → Dealee) (d : Chair → Draws) :
    Decidable (KingsLeft roomtype players d) :=
  inferInstanceAs (Decidable (_ = true))

/-- The jokers a pool holds. -/
def Jokers.Of (left : Jokers) (cards : List Card) : Prop :=
  ∀ v, 0xe ≤ v → v ≤ 0xf → left v = cards.countP (hasValue v)

section Luck
variable {cards hand rest : List Card} {n v w : Nat} {left : Jokers} {d : Draws}
variable {values : List Nat}

theorem Jokers.Of.plain (of : left.Of cards) (gives : Gives cards hand rest)
    (plain : ∀ card ∈ hand, V card ≤ 0xd) : left.Of rest := by
  intro v low high
  have none : hand.countP (hasValue v) = 0 := by
    rw [List.countP_eq_zero]
    intro card mem
    have value := plain card mem
    simp only [hasValue, decide_eq_true_eq]
    omega
  have count := gives.countP (hasValue v)
  rw [of v low high]
  omega

theorem find_by_value_count (u : Nat) :
    (find_and_remove_by_value cards v).2.countP (hasValue u) =
      if u = v then cards.countP (hasValue u) - 1 else cards.countP (hasValue u) := by
  have gives := @find_and_remove_gives (hasValue v) cards
  have count := gives.countP (hasValue u)
  simp only [find_and_remove_by_value]
  cases found : (find_and_remove (hasValue v) cards).1 with
  | none =>
      have none := find_and_remove_none found
      simp only [found, Option.toList_none, List.countP_nil, Nat.zero_add] at count
      split
      · rename_i same
        subst same
        omega
      · exact count
  | some one =>
      have value := find_and_remove_kind found
      simp only [hasValue, decide_eq_true_eq] at value
      have alone : [one].countP (hasValue u) = if u = v then 1 else 0 := by
        simp [List.countP_cons, hasValue, value, eq_comm]
      rw [found, Option.toList_some, alone] at count
      split
      · rename_i same
        rw [if_pos same] at count
        omega
      · rename_i other
        rw [if_neg other] at count
        omega

theorem Jokers.Of.take (of : left.Of cards) :
    (left.take v).Of (find_and_remove_by_value cards v).2 := by
  intro u above below
  rw [find_by_value_count, Jokers.take, Function.update_apply]
  split
  · rename_i same
    rw [← same, of u above below]
  · exact of u above below

theorem Jokers.Of.found (of : left.Of cards) (low : 0xe ≤ v) (high : v ≤ 0xf) :
    (find_and_remove_by_value cards v).1 = none ↔ left v = 0 := by
  rw [of v low high, List.countP_eq_zero]
  exact List.find?_eq_none

theorem Jokers.Of.either (of : left.Of cards) (low : 0xe ≤ v) (high : v ≤ 0xf) :
    (left.either v w).Of (find_either cards v w).2 ∧
      Gives cards (find_either cards v w).1.toList (find_either cards v w).2 := by
  have taken := @Jokers.Of.take cards v left of
  have gives := @find_and_remove_gives (hasValue v) cards
  have found := of.found low high
  rw [find_either, Jokers.either]
  cases same : find_and_remove_by_value cards v with
  | mk one rest =>
      rw [same] at taken found
      cases one with
      | some one =>
          rw [if_neg fun none => by simpa using found.mpr none]
          have pair : find_and_remove (hasValue v) cards = (some one, rest) := same
          rw [pair] at gives
          exact ⟨taken, gives⟩
      | none =>
          rw [if_pos (found.mp rfl)]
          have pair : find_and_remove (hasValue v) cards = (none, rest) := same
          have unchanged : rest = cards := by
            have kept : (find_and_remove (hasValue v) cards).2 = cards :=
              List.eraseP_of_forall_not fun card mem =>
                List.find?_eq_none.mp (congrArg Prod.fst pair) card mem
            rw [← kept, pair]
          rw [unchanged]
          exact ⟨of.take, find_and_remove_gives⟩

theorem toList_length (one : Option Card) : one.toList.length ≤ 1 := by
  cases one with
  | none => exact Nat.zero_le 1
  | some one => exact le_refl 1

/-- A start skill gives no more than four cards, and a joker only as its ledger says. -/
theorem start_skill_cases (few : Few n cards) (most : n ≤ 16) (of : left.Of cards)
    (skill_id : Nat) :
    ∃ hand rest, start_skill skill_id cards d = (some hand, rest) ∧ Gives cards hand rest ∧
      hand.length ≤ 4 ∧
      (if skill_id = SKILL_LEPER then
        if random 1 2 d.first = 1 then left.either 0xe 0xf else left.either 0xf 0xe
      else left).Of rest := by
  simp only [start_skill]
  split
  · rename_i flower
    have gives := @find_and_remove_gives (hasValue 0xd) cards
    refine ⟨_, _, rfl, gives, (toList_length _).trans (by omega), ?_⟩
    have other : skill_id ≠ SKILL_LEPER := by
      rw [flower]
      decide
    rw [if_neg other]
    refine of.plain gives fun card mem => ?_
    have value := find_and_remove_kind (Option.mem_toList.mp mem)
    simp only [hasValue, decide_eq_true_eq] at value
    exact value.le
  split
  · rename_i king
    rw [if_pos (show skill_id = SKILL_LEPER from king)]
    split
    · obtain ⟨after, gives⟩ := of.either (v := 0xe) (w := 0xf) (by omega) (by omega)
      exact ⟨_, _, rfl, gives, (toList_length _).trans (by omega), after⟩
    · obtain ⟨after, gives⟩ := of.either (v := 0xf) (w := 0xe) (by omega) (by omega)
      exact ⟨_, _, rfl, gives, (toList_length _).trans (by omega), after⟩
  · rename_i other
    rw [if_neg (show ¬skill_id = SKILL_LEPER from other)]
    have suit := @random_range 1 4 (by omega) d.color
    have whole : ∀ c ∈ Finset.Icc 1 4, create_two_pair_cards.countP
        (fun one => C one = c ∧ V one ≠ 0xd) = 24 := by decide
    have enough := few.countP fun one => C one = random 1 4 d.color ∧ V one ≠ 0xd
    rw [whole _ (Finset.mem_Icc.mpr suit)] at enough
    obtain ⟨found, rest, done, perm, length, kinds⟩ :=
      @fourOfColor_found [] (random 1 4 d.color) cards.reverse
        (by rw [List.countP_reverse]; simp only [List.length_nil]; omega) (by simp)
    rw [done]
    have gives : Gives cards found rest.reverse :=
      ((List.reverse_perm rest).append_left found).trans (perm.trans (List.reverse_perm cards))
    refine ⟨found, rest.reverse, rfl, gives, length.le, of.plain gives fun card mem => ?_⟩
    have colored : C card = random 1 4 d.color := by
      cases kinds card mem with
      | inl held => exact absurd held List.not_mem_nil
      | inr fits => exact fits.1
    have inside := few.mem (gives.mem_iff.mp (List.mem_append_left _ mem))
    have suited : ∀ card ∈ create_two_pair_cards, C card ≤ 4 → V card ≤ 0xd := by decide
    exact suited card inside (by omega)

theorem gift_cases (of : left.Of cards) :
    ∃ one rest, random_one_2_or_king cards d = (one, rest) ∧ Gives cards one.toList rest ∧
      (if random 1 2 d.is_2 = 1 then left else left.either 0xe 0xf).Of rest := by
  simp only [random_one_2_or_king]
  split
  · have gives := @find_and_remove_gives (hasValue 0xd) cards
    refine ⟨_, _, rfl, gives, of.plain gives fun card mem => ?_⟩
    have value := find_and_remove_kind (Option.mem_toList.mp mem)
    simp only [hasValue, decide_eq_true_eq] at value
    exact value.le
  · obtain ⟨after, gives⟩ := of.either (v := 0xe) (w := 0xf) (by omega) (by omega)
    exact ⟨_, _, rfl, gives, after⟩

theorem disabled_pet (skill_id : Nat) (found : tmp_anchor_virtual_pet true d = some skill_id) :
    skill_id ≠ SKILL_LEPER := by
  obtain ⟨skill, here, rfl⟩ := Option.map_eq_some_iff.mp found
  have mem := List.mem_of_find?_eq_some here
  simp only [if_true, List.zipIdx_cons, List.zipIdx_nil, List.mem_cons, List.not_mem_nil,
    or_false] at mem
  obtain rfl | rfl := mem
  · decide
  · decide

theorem firstKing_cases (of : left.Of cards) (p : Dealee) :
    (firstKing cards p d = .error .raised ∧ random 1 100 d.prob ≤ p.chance ∧
      left (random 0xe 0xf d.king) = 0) ∨
    (∃ one rest, firstKing cards p d = .ok ([one], rest, true) ∧ Gives cards [one] rest ∧
      random 1 100 d.prob ≤ p.chance ∧ left (random 0xe 0xf d.king) ≠ 0 ∧
      (left.take (random 0xe 0xf d.king)).Of rest) ∨
    (firstKing cards p d = .ok ([], cards, false) ∧ p.chance < random 1 100 d.prob) := by
  have low := @random_range 1 100 (by omega) d.prob
  have value := @random_range 0xe 0xf (by omega) d.king
  simp only [firstKing, Dealee.chance]
  cases p.ssw_2game_king with
  | none => exact .inr (.inr ⟨rfl, low.1⟩)
  | some m =>
      simp only [Option.map_some, Option.getD_some]
      by_cases king : random 1 100 d.prob ≤ m % 256
      · rw [if_pos king]
        have found := of.found value.1 value.2
        have taken := @Jokers.Of.take cards (random 0xe 0xf d.king) left of
        have gives := @find_and_remove_gives (hasValue (random 0xe 0xf d.king)) cards
        cases same : find_one_king cards d with
        | mk one rest =>
            have pair : find_and_remove (hasValue (random 0xe 0xf d.king)) cards = (one, rest) :=
              same
            rw [find_and_remove_by_value, pair] at found taken
            rw [pair] at gives
            cases one with
            | none => exact .inl ⟨rfl, king, found.mp rfl⟩
            | some one =>
                refine .inr (.inl ⟨one, rest, rfl, gives, king, fun none => ?_, taken⟩)
                simpa using found.mpr none
      · rw [if_neg king]
        exact .inr (.inr ⟨rfl, not_le.mp king⟩)

theorem petSkill_cases (few : Few n cards) (most : n ≤ 16) (of : left.Of cards) (p : Dealee)
    (disable_king_skill : Bool) :
    ∃ more rest skill, petSkill p d hand cards disable_king_skill =
        .ok (hand ++ more, rest, skill) ∧
      Gives cards more rest ∧ more.length ≤ 4 ∧
      (if p.is_anchor = true ∧ tmp_anchor_virtual_pet disable_king_skill d = some SKILL_LEPER then
        if random 1 2 d.first = 1 then left.either 0xe 0xf else left.either 0xf 0xe
      else left).Of rest := by
  simp only [petSkill]
  by_cases anchor : p.is_anchor = true
  · rw [if_pos anchor]
    cases found : tmp_anchor_virtual_pet disable_king_skill d with
    | none => exact ⟨[], cards, none, by simp, .refl _, by simp, by simpa using of⟩
    | some skill_id =>
        obtain ⟨more, rest, done, gives, length, after⟩ :=
          @start_skill_cases cards n left d few most of skill_id
        refine ⟨more, rest, some skill_id, by simp only [done], gives, length, ?_⟩
        simpa [anchor] using after
  · rw [if_neg anchor]
    exact ⟨[], cards, none, by simp, .refl _, by simp, by simpa [anchor] using of⟩

/-- What a player is dealt: nothing, because a king is drawn that is not left; nothing yet,
because his values have run out; or up to five cards. -/
theorem init_hand_cases (few : Few n cards) (most : n ≤ 15) (of : left.Of cards)
    (p : Dealee) (roomtype : Nat) :
    (init_hand cards p roomtype d values = .error .raised ∧
      Jokers.after roomtype p d left = none) ∨
    ∃ left', Jokers.after roomtype p d left = some left' ∧
      ((init_hand cards p roomtype d values = .error .drawing ∧ ¬Enough values) ∨
        ∃ hand rest skill, init_hand cards p roomtype d values = .ok (hand, rest, skill) ∧
          Gives cards hand rest ∧ hand.length ≤ 5 ∧ left'.Of rest) := by
  by_cases robot : p.robot = true
  · right
    simp only [init_hand, Jokers.after, robot, if_true]
    by_cases level : GameRoomLevel.V1 < roomtype
    · rw [if_pos level, if_neg fun both => absurd level (not_lt.mpr both.1)]
      refine ⟨left, rfl, ?_⟩
      obtain ⟨drawing, short⟩ | ⟨hand, rest, done, four⟩ :=
        @random_4lian_cases cards n d values few (by omega)
      · rw [drawing]
        exact .inl ⟨rfl, short⟩
      · rw [done]
        exact .inr ⟨hand, rest, none, rfl, four.gives, four.length.trans (by omega),
          of.plain four.gives four.plain⟩
    · rw [if_neg level]
      by_cases gift : random 1 100 d.prob ≤ 10
      · rw [if_pos gift]
        obtain ⟨one, rest, done, gives, after⟩ := @gift_cases cards left d of
        rw [done]
        refine ⟨_, ?_, .inr ⟨one.toList, rest, none, rfl, gives,
          (toList_length one).trans (by omega), after⟩⟩
        by_cases flower : random 1 2 d.is_2 = 1
        · rw [if_pos flower, if_neg fun both => both.2.2 flower]
        · rw [if_neg flower, if_pos ⟨not_lt.mp level, gift, flower⟩]
      · rw [if_neg gift, if_neg fun both => gift both.2.1]
        exact ⟨left, rfl, .inr ⟨[], cards, none, rfl, .refl _, by simp, of⟩⟩
  · simp only [init_hand, Jokers.after, robot]
    obtain ⟨raised, king, gone⟩ | ⟨one, rest, drawn, gives, king, left_one, after⟩ |
      ⟨none, king⟩ := @firstKing_cases cards left d of p
    · left
      rw [raised, if_pos king, if_pos gone]
      exact ⟨rfl, rfl⟩
    · obtain ⟨more, rest', skill, done, others, length, after⟩ :=
        @petSkill_cases rest [one] (n + 1) (left.take (random 0xe 0xf d.king)) d
          (few.gives gives (by simp)) (by omega) after p true
      have unskilled : ¬(p.is_anchor = true ∧
          tmp_anchor_virtual_pet true d = some SKILL_LEPER) :=
        fun both => disabled_pet _ both.2 rfl
      rw [if_neg unskilled] at after
      right
      rw [drawn, if_pos king, if_neg left_one]
      refine ⟨_, rfl, .inr ⟨[one] ++ more, rest', skill, done, ?_, ?_, after⟩⟩
      · rw [Gives, List.append_assoc]
        exact (others.append_left [one]).trans gives
      · rw [List.length_append, List.length_singleton]
        omega
    · obtain ⟨more, rest, skill, done, gives, length, after⟩ :=
        @petSkill_cases cards [] n left d few (by omega) of p false
      right
      rw [none, if_neg (not_le.mpr king)]
      refine ⟨_, ?_, .inr ⟨more, rest, skill, done, gives, by omega, after⟩⟩
      by_cases skilled : p.is_anchor = true ∧ tmp_anchor_virtual_pet false d = some SKILL_LEPER
      · rw [if_pos skilled, if_pos skilled]
        rfl
      · rw [if_neg skilled, if_neg skilled]
        rfl

end Luck

/-- All the cards of a deal in progress. -/
def Table.stock (t : Table) : Multiset Card := (∑ p, (t.hands p : Multiset Card)) + t.cards

/-- The hands after the luck of `n` players. -/
structure Started (n : Nat) (left : Jokers) (t : Table) : Prop where
  whole : t.stock = deck
  short : ∀ p, (t.hands p).length ≤ 5
  dealt : (∑ p, (t.hands p).length) ≤ 5 * n
  jokers : left.Of t.cards

section Rounds
variable {t t' : Table} {p q : Chair} {n : Nat} {left : Jokers} {cards hand : List Card}
variable {roomtype : Nat} {players : Chair → Dealee} {d : Chair → Draws}
variable {values : Chair → List Nat}

theorem stock_card (t : Table) : (∑ p, (t.hands p).length) + t.cards.length = t.stock.card := by
  simp [Table.stock, Fin.sum_univ_four, add_assoc]

/-- A hand that takes its cards from the pool. -/
theorem stock_deal (whole : t.stock = deck)
    (moved : (hand : Multiset Card) + cards = (t.hands p : Multiset Card) + t.cards) :
    (∑ q, ((Function.update t.hands p hand q : List Card) : Multiset Card)) + cards = deck := by
  have sum := sum_update (fun hand : List Card => (hand : Multiset Card)) t.hands p hand
  apply add_right_cancel (b := (t.hands p : Multiset Card))
  rw [add_right_comm, sum, add_assoc, moved, ← whole, Table.stock]
  abel

theorem Started.few (started : Started n left t) : Few (5 * n) t.cards := by
  refine ⟨∑ p, (t.hands p : Multiset Card), started.whole, ?_⟩
  have dealt := started.dealt
  simpa [Fin.sum_univ_four, add_assoc] using dealt

theorem init_cases (started : Started n left t) (room : n ≤ 3) (empty : t.hands p = []) :
    (t.init roomtype players d values p = .error .raised ∧
      Jokers.after roomtype (players p) (d p) left = none) ∨
    ∃ left', Jokers.after roomtype (players p) (d p) left = some left' ∧
      ((t.init roomtype players d values p = .error .drawing ∧ ¬Enough (values p)) ∨
        ∃ t', t.init roomtype players d values p = .ok t' ∧ Started (n + 1) left' t' ∧
          ∀ q, q ≠ p → t'.hands q = t.hands q) := by
  simp only [Table.init]
  obtain ⟨raised, none⟩ | ⟨left', after, ⟨drawing, short⟩ |
      ⟨hand, rest, skill, done, gives, length, jokers⟩⟩ :=
    @init_hand_cases t.cards (5 * n) left (d p) (values p) started.few (by omega) started.jokers
      (players p) roomtype
  · left
    rw [raised]
    exact ⟨rfl, none⟩
  · right
    rw [drawing]
    exact ⟨left', after, .inl ⟨rfl, short⟩⟩
  · right
    rw [done]
    refine ⟨left', after, .inr ⟨_, rfl, ⟨?_, fun q => ?_, ?_, jokers⟩, fun q other =>
      Function.update_of_ne other _ _⟩⟩
    · refine stock_deal started.whole ?_
      rw [empty, Multiset.coe_add, Multiset.coe_eq_coe.mpr gives]
      exact (zero_add _).symm
    · by_cases here : q = p
      · rw [here]
        simpa using length
      · simpa [Function.update_of_ne here] using started.short q
    · have sum := sum_update List.length t.hands p hand
      have dealt := started.dealt
      rw [empty, List.length_nil, add_zero] at sum
      simp only [sum]
      omega

/-- The first round raises where a king is drawn that is not left, ends where enough values
are drawn, and deals no more than five cards to a player. -/
theorem init_rounds {ps : List Chair} (fresh : ps.Nodup) (room : n + ps.length ≤ 4)
    (empty : ∀ p ∈ ps, t.hands p = []) (started : Started n left t) :
    (ps.foldlM (Table.init roomtype players d values) t = .error .raised ∧
      ps.foldlM (fun left p => Jokers.after roomtype (players p) (d p) left) left = none) ∨
    (ps.foldlM (Table.init roomtype players d values) t = .error .drawing ∧
      ¬∀ p, Enough (values p)) ∨
    ∃ left' t', ps.foldlM (Table.init roomtype players d values) t = .ok t' ∧
      ps.foldlM (fun left p => Jokers.after roomtype (players p) (d p) left) left = some left' ∧
      Started (n + ps.length) left' t' := by
  induction ps generalizing n left t with
  | nil => exact .inr (.inr ⟨left, t, rfl, rfl, started⟩)
  | cons p ps ih =>
      rw [List.length_cons] at room
      obtain ⟨absent, fresh⟩ := List.nodup_cons.mp fresh
      rw [List.foldlM_cons, List.foldlM_cons]
      obtain ⟨raised, none⟩ | ⟨after, found, ⟨drawing, short⟩ | ⟨t', done, started, others⟩⟩ :=
        @init_cases t p n left roomtype players d values started (by omega)
          (empty p List.mem_cons_self)
      · rw [raised, none]
        exact .inl ⟨rfl, rfl⟩
      · rw [drawing]
        exact .inr (.inl ⟨rfl, fun enough => short (enough p)⟩)
      · rw [done, found]
        have next := ih fresh (by omega) (fun q mem => ?_) started
        · rw [List.length_cons, Nat.add_comm ps.length, ← Nat.add_assoc]
          exact next
        · rw [others q fun same => absent (same ▸ mem)]
          exact empty q (List.mem_cons_of_mem p mem)

theorem cards_left (whole : t.stock = deck) {m : Nat} (short : ∀ p, (t.hands p).length ≤ m) :
    108 ≤ t.cards.length + 4 * m := by
  have total := stock_card t
  rw [whole, show deck.card = 108 from rfl, Fin.sum_univ_four] at total
  have h0 := short 0
  have h1 := short 1
  have h2 := short 2
  have h3 := short 3
  omega

theorem fill_step (whole : t.stock = deck) (short : ∀ p, (t.hands p).length ≤ 7) (p : Chair) :
    ∃ t', t.fill p = .ok t' ∧ (t'.stock = deck ∧ ∀ p, (t'.hands p).length ≤ 7) ∧
      (t'.hands p).length = 7 ∧ ∀ q, q ≠ p → t'.hands q = t.hands q := by
  have enough := cards_left whole short
  have seven := short p
  refine ⟨_, if_neg ?_, ⟨?_, fun q => ?_⟩, ?_, fun q other => Function.update_of_ne other _ _⟩
  · rw [not_or]
    exact ⟨List.ne_nil_of_length_pos (by omega), by omega⟩
  · refine stock_deal whole ?_
    rw [Multiset.coe_add, Multiset.coe_add, List.append_assoc, List.take_append_drop]
  · by_cases here : q = p
    · simp only [here, Function.update_self, List.length_append, List.length_take]
      omega
    · simpa only [Function.update_of_ne here] using short q
  · simp only [Function.update_self, List.length_append, List.length_take]
    omega

/-- The second round fills every hand to seven cards. -/
theorem fill_rounds (whole : t.stock = deck) (short : ∀ p, (t.hands p).length ≤ 7) :
    ∃ t', (List.finRange 4).foldlM Table.fill t = .ok t' ∧ t'.stock = deck ∧
      ∀ p, (t'.hands p).length = 7 := by
  have step : ∀ (t : Table) (p : Chair),
      (t.stock = deck ∧ ∀ p, (t.hands p).length ≤ 7) → True →
      ∃ t', t.fill p = .ok t' ∧ (t'.stock = deck ∧ ∀ p, (t'.hands p).length ≤ 7) ∧
        (t'.hands p).length = 7 ∧ ∀ q, q ≠ p → (True → True) ∧
          ((t.hands q).length = 7 → (t'.hands q).length = 7) := by
    intro t p inv _
    obtain ⟨t', done, kept, full, others⟩ := fill_step inv.1 inv.2 p
    exact ⟨t', done, kept, full, fun q other => ⟨id, fun full => others q other ▸ full⟩⟩
  obtain ⟨t', done, kept, full, _⟩ := Transition.foldlM_each _ (fun _ _ => True)
    (fun p (t : Table) => (t.hands p).length = 7) step (List.nodup_finRange 4) ⟨whole, short⟩
    fun _ _ => trivial
  exact ⟨t', done, kept.1, fun p => full p (List.mem_finRange p)⟩

theorem deck_flowers : create_two_pair_cards.countP is_flower = 8 := by decide

/-- A pool never holds more flowers than the deck. -/
theorem few_flowers (whole : t.stock = deck) : t.cards.countP is_flower ≤ 8 := by
  have part : (t.cards : Multiset Card) ≤ deck := by
    rw [← whole, Table.stock]
    exact Multiset.le_add_left _ _
  have count := Multiset.countP_le_of_le (fun card => is_flower card = true) part
  rw [deck, Multiset.coe_countP, Multiset.coe_countP] at count
  have eight := deck_flowers
  simp only [Bool.decide_eq_true] at count
  exact count.trans eight.le

theorem swapAt_getElem {xs : List Card} {i j : Nat} (first : i < xs.length)
    (second : j < xs.length) (k : Nat) :
    (swapAt xs i j)[k]? = if k = j then xs[i]? else if k = i then xs[j]? else xs[k]? := by
  rw [swapAt, List.getElem?_eq_getElem first, List.getElem?_eq_getElem second]
  simp only [List.getElem?_set, List.length_set]
  by_cases last : j = k
  · simp [last ▸ second, last]
  · by_cases here : i = k
    · simp [last, here ▸ first, here, Ne.symm last]
    · simp [last, here, Ne.symm last, Ne.symm here]

theorem mem_inner {n i : Nat} : i ∈ ((List.range n).drop 1).reverse ↔ 0 < i ∧ i < n := by
  rw [List.mem_reverse]
  cases n with
  | zero => simp
  | succ n =>
      rw [List.range_succ_eq_map, List.drop_one, List.tail_cons, List.mem_map]
      simp only [List.mem_range]
      constructor
      · rintro ⟨j, short, rfl⟩
        omega
      · intro inside
        exact ⟨i - 1, by omega, by omega⟩

/-- Somewhere inside a long pool is a card that is no flower. -/
theorem find_not_2_found (long : 12 ≤ cards.length) (few : cards.countP is_flower ≤ 8) :
    ∃ i, find_not_2_index cards = some i ∧ 0 < i ∧ i + 1 < cards.length ∧
      ∀ card ∈ cards[i]?, is_flower card = false := by
  rw [find_not_2_index]
  cases found : ((List.range (cards.length - 1)).drop 1).reverse.find?
      fun i => !is_flower (cards.getD i 0) with
  | some i =>
      obtain ⟨low, high⟩ := mem_inner.mp (List.mem_of_find?_eq_some found)
      have plain := List.find?_some found
      refine ⟨i, rfl, low, by omega, fun card here => ?_⟩
      rw [List.getD_eq_getElem?_getD, here] at plain
      simpa using plain
  | none =>
      have inner : ((cards.drop 1).take (cards.length - 2)).countP is_flower =
          ((cards.drop 1).take (cards.length - 2)).length := by
        rw [List.countP_eq_length]
        intro card mem
        obtain ⟨i, short, rfl⟩ := List.mem_iff_getElem.mp mem
        rw [List.length_take, List.length_drop] at short
        have flower := List.find?_eq_none.mp found (i + 1) (mem_inner.mpr ⟨by omega, by omega⟩)
        rw [List.getElem_take, List.getElem_drop]
        rw [List.getD_eq_getElem?_getD, List.getElem?_eq_getElem (by omega)] at flower
        simpa [Nat.add_comm] using flower
      have part := ((List.take_sublist (cards.length - 2) _).trans
        (List.drop_sublist 1 cards)).countP_le (p := is_flower)
      rw [inner, List.length_take, List.length_drop] at part
      omega

/-- `pool_one_not_2` on either end of a long pool. -/
theorem not_2_found {index : Nat} (long : 12 ≤ cards.length)
    (few : cards.countP is_flower ≤ 8) (inside : index < cards.length) :
    ∃ rest, pool_one_not_2 cards index = some rest ∧ rest.Perm cards ∧
      (∀ card ∈ rest[index]?, is_flower card = false) ∧
      ((index ≠ 0 → rest[0]? = cards[0]?)) := by
  obtain ⟨i, found, low, high, plain⟩ := find_not_2_found long few
  simp only [pool_one_not_2, List.getElem?_eq_getElem inside, found]
  split
  · refine ⟨_, rfl, swapAt_perm _ _ _, fun card here => ?_, fun other => ?_⟩
    · rw [swapAt_getElem inside (by omega)] at here
      split at here
      · rename_i same
        exact plain card (same ▸ here)
      · rw [if_pos rfl] at here
        exact plain card here
    · rw [swapAt_getElem inside (by omega), if_neg (by omega), if_neg (Ne.symm other)]
  · rename_i kept
    refine ⟨cards, rfl, .refl _, fun card here => ?_, fun _ => rfl⟩
    rw [List.getElem?_eq_getElem inside] at here
    exact Option.some.inj here ▸ Bool.eq_false_iff.mpr kept

/-- Neither end of a pool is a flower. -/
structure Ends (cards : List Card) : Prop where
  head : ∀ card ∈ cards.head?, is_flower card = false
  last : ∀ card ∈ cards.getLast?, is_flower card = false

/-- A table whose hands are filled. -/
structure Filled (t : Table) : Prop where
  whole : t.stock = deck
  seven : ∀ p, (t.hands p).length = 7

theorem not_2_ends (whole : t.stock = deck) (seven : ∀ p, (t.hands p).length = 7) :
    ∃ front both, t.not_2 0 = .ok front ∧ front.not_2 (front.cards.length - 1) = .ok both ∧
      Filled both ∧ Ends both.cards := by
  have long := cards_left whole fun p => (seven p).le
  obtain ⟨front, first, perm, head, _⟩ :=
    @not_2_found t.cards 0 (by omega) (few_flowers whole) (by omega)
  have same := perm.length_eq
  obtain ⟨both, second, perm', last, kept⟩ :=
    @not_2_found front (front.length - 1) (by omega)
      (perm.countP_eq is_flower ▸ few_flowers whole) (by omega)
  refine ⟨{ t with cards := front }, { t with cards := both }, ?_, ?_, ⟨?_, seven⟩, ⟨?_, ?_⟩⟩
  · simp only [Table.not_2, first]
    rfl
  · simp only [Table.not_2, second]
    rfl
  · rw [← whole]
    exact congrArg (_ + ·) (Multiset.coe_eq_coe.mpr (perm'.trans perm))
  · rw [List.head?_eq_getElem?, kept (by omega)]
    exact head
  · rw [List.getLast?_eq_getElem?, perm'.length_eq]
    exact last

/-- A flower finds its card before the last one of the pool. -/
theorem fix_flower_found (long : 12 ≤ t.cards.length) (few : t.cards.countP is_flower ≤ 8)
    (ends : Ends t.cards) (p : Chair) :
    ∃ card cards, t.fix_flower p =
        .ok { t with hands := Function.update t.hands p (t.hands p ++ [card]), cards := cards } ∧
      is_flower card = false ∧ (card :: cards).Perm t.cards ∧ Ends cards := by
  cases whole : t.cards with
  | nil =>
      rw [whole] at long
      cases long
  | cons first rest =>
      rw [whole] at long few
      have plain : ∃ card ∈ rest, (!is_flower card) = true := by
        by_contra none
        have all : rest.countP is_flower = rest.length := by
          rw [List.countP_eq_length]
          intro card mem
          by_contra other
          exact none ⟨card, mem, by simpa using other⟩
        have part := (List.sublist_cons_self first rest).countP_le (p := is_flower)
        rw [List.length_cons] at long
        omega
      obtain ⟨card, mem, plain⟩ := plain
      obtain ⟨card, front, back, flowers, plain, split, left⟩ :=
        List.exists_of_eraseP (p := fun card => !is_flower card) mem plain
      have found : rest.find? (fun card => !is_flower card) = some card :=
        List.find?_eq_some_iff_append.mpr ⟨plain, front, back, split, fun card mem => by
          simpa using flowers card mem⟩
      have short : front.length ≤ 8 := by
        have all : front.countP is_flower = front.length :=
          List.countP_eq_length.mpr fun card mem => by simpa using flowers card mem
        have part : front.Sublist (first :: rest) :=
          split ▸ (List.sublist_append_left front _).cons first
        have count := part.countP_le (p := is_flower)
        omega
      have behind : back ≠ [] := by
        rintro rfl
        rw [split] at long
        simp only [List.length_cons, List.length_append, List.length_nil] at long
        omega
      refine ⟨card, first :: (front ++ back), ?_, by simpa using plain, ?_, ?_, ?_⟩
      · simp only [Table.fix_flower, whole, found, left]
        rfl
      · rw [split]
        exact (List.Perm.swap first card _).trans (List.perm_middle.symm.cons first)
      · rw [whole] at ends
        exact ends.head
      · have last := ends.last
        rw [whole, split] at last
        rw [← List.cons_append, List.getLast?_append_of_ne_nil _ behind]
        rw [← List.cons_append, List.getLast?_append_of_ne_nil _ (List.cons_ne_nil card back),
          List.getLast?_cons_of_ne_nil behind] at last
        exact last

/-- A table while its hands are fixed. -/
structure Fixing (t : Table) : Prop where
  whole : t.stock = deck
  short : ∀ p, (t.hands p).length ≤ 14
  ends : Ends t.cards

/-- The flowers of one hand in turn; each adds a card that is none. -/
theorem fix_flowers {flowers : List Card} (fixing : Fixing t)
    (room : (t.hands p).length + flowers.length ≤ 14) :
    ∃ t', flowers.foldlM (fun t _ => t.fix_flower p) t = .ok t' ∧ Fixing t' ∧
      (t'.hands p).length = (t.hands p).length + flowers.length ∧
      (t'.hands p).countP is_flower = (t.hands p).countP is_flower ∧
      ∀ q, q ≠ p → t'.hands q = t.hands q := by
  induction flowers generalizing t with
  | nil => exact ⟨t, rfl, fixing, rfl, rfl, fun _ _ => rfl⟩
  | cons flower flowers ih =>
      rw [List.length_cons] at room
      have long := cards_left fixing.whole fixing.short
      obtain ⟨card, cards, done, plain, perm, ends⟩ :=
        fix_flower_found (by omega) (few_flowers fixing.whole) fixing.ends p
      have next : Fixing { t with
          hands := Function.update t.hands p (t.hands p ++ [card]), cards := cards } := by
        refine ⟨?_, fun q => ?_, ends⟩
        · refine stock_deal fixing.whole ?_
          rw [← Multiset.coe_add, add_assoc, Multiset.coe_add [card] cards]
          exact congrArg (_ + ·) (Multiset.coe_eq_coe.mpr perm)
        · by_cases here : q = p
          · rw [here]
            simp only [Function.update_self, List.length_append, List.length_singleton]
            omega
          · simpa only [Function.update_of_ne here] using fixing.short q
      have later := ih next
      simp only [Function.update_self, List.length_append, List.length_singleton] at later
      obtain ⟨t', rest, fixing, length, count, others⟩ := later (by omega)
      refine ⟨t', ?_, fixing, ?_, ?_, fun q other => ?_⟩
      · rw [List.foldlM_cons, done]
        exact rest
      · rw [length, List.length_cons]
        omega
      · rw [count, List.countP_append, List.countP_singleton, plain]
        rfl
      · rw [others q other]
        exact Function.update_of_ne other _ _

/-- What the deal returns: the deck, and in every hand seven cards and one more for each of
its flowers. -/
structure Dealt (t : Table) : Prop where
  whole : t.stock = deck
  hands : ∀ p, (t.hands p).length = 7 + (t.hands p).countP is_flower
  ends : Ends t.cards

theorem fix_hand_step (fixing : Fixing t) (seven : (t.hands p).length = 7) :
    ∃ t', t.fix_hand p = .ok t' ∧ Fixing t' ∧
      (t'.hands p).length = 7 + (t'.hands p).countP is_flower ∧
      ∀ q, q ≠ p → t'.hands q = t.hands q := by
  have few := List.length_filter_le is_flower (t.hands p)
  obtain ⟨t', done, fixing, length, count, others⟩ :=
    @fix_flowers t p ((t.hands p).filter is_flower) fixing (by omega)
  refine ⟨t', done, fixing, ?_, others⟩
  rw [length, count, seven, List.countP_eq_length_filter]

theorem fix_rounds (filled : Filled t) (ends : Ends t.cards) :
    ∃ t', (List.finRange 4).foldlM Table.fix_hand t = .ok t' ∧ Dealt t' := by
  have step : ∀ (t : Table) (p : Chair), Fixing t → (t.hands p).length = 7 →
      ∃ t', t.fix_hand p = .ok t' ∧ Fixing t' ∧
        (t'.hands p).length = 7 + (t'.hands p).countP is_flower ∧
        ∀ q, q ≠ p → ((t.hands q).length = 7 → (t'.hands q).length = 7) ∧
          ((t.hands q).length = 7 + (t.hands q).countP is_flower →
            (t'.hands q).length = 7 + (t'.hands q).countP is_flower) := by
    intro t p fixing seven
    obtain ⟨t', done, fixing, fixed, others⟩ := fix_hand_step fixing seven
    refine ⟨t', done, fixing, fixed, fun q other => ?_⟩
    rw [others q other]
    exact ⟨id, id⟩
  obtain ⟨t', done, fixing, fixed, _⟩ := Transition.foldlM_each Fixing
    (fun p (t : Table) => (t.hands p).length = 7)
    (fun p (t : Table) => (t.hands p).length = 7 + (t.hands p).countP is_flower) step
    (List.nodup_finRange 4) ⟨filled.whole, fun p => (filled.seven p).le.trans (by omega), ends⟩
    fun p _ => filled.seven p
  exact ⟨t', done, fixing.whole, fun p => fixed p (List.mem_finRange p), fixing.ends⟩

/-- The deal raises where a king is drawn that is not left, and else returns as soon as
enough values are drawn. -/
theorem qptimized_for_robot_cases (roomtype : Nat) (players : Chair → Dealee)
    (shuffle : List Nat) (d : Chair → Draws) (values : Chair → List Nat) :
    (qptimized_for_robot roomtype players shuffle d values = .error .raised ∧
      ¬KingsLeft roomtype players d) ∨
    (qptimized_for_robot roomtype players shuffle d values = .error .drawing ∧
      ¬∀ p, Enough (values p)) ∨
    ∃ t, qptimized_for_robot roomtype players shuffle d values = .ok t ∧ Dealt t ∧
      KingsLeft roomtype players d := by
  have shuffled := randsort_perm create_two_pair_cards shuffle
  have started : Started 0 (fun _ => 2)
      ⟨fun _ => [], randsort create_two_pair_cards shuffle, fun _ => none⟩ := by
    refine ⟨?_, fun _ => Nat.zero_le 5, ?_, fun v low high => ?_⟩
    · rw [Table.stock, deck, ← Multiset.coe_eq_coe.mpr shuffled]
      simp
    · simp
    · rw [shuffled.countP_eq]
      interval_cases v
      · decide
      · decide
  simp only [qptimized_for_robot, KingsLeft]
  obtain ⟨raised, gone⟩ | ⟨drawing, short⟩ | ⟨left, t, lucky, kings, started⟩ :=
    @init_rounds _ 0 _ roomtype players d values _ (List.nodup_finRange 4) (by simp)
      (fun _ _ => rfl) started
  · left
    rw [raised, gone]
    exact ⟨rfl, by simp⟩
  · right
    left
    rw [drawing]
    exact ⟨rfl, short⟩
  · right
    right
    rw [lucky, kings]
    obtain ⟨t, full, whole, seven⟩ :=
      fill_rounds started.whole fun p => (started.short p).trans (by omega)
    obtain ⟨front, both, first, second, filled, ends⟩ := not_2_ends whole seven
    obtain ⟨t, done, dealt⟩ := fix_rounds filled ends
    refine ⟨t, ?_, dealt, rfl⟩
    simp only [bind, Except.bind] at full done ⊢
    rw [full]
    simp only [first, second]
    exact done

/-- A deal that raises no error, whose hands and pool are the deck, and whose loops have
an acceptable value to draw whatever they drew. -/
def DealsWell (roomtype : Nat) (players : Chair → Dealee) (shuffle : List Nat)
    (d : Chair → Draws) (values : Chair → List Nat) : Prop :=
  qptimized_for_robot roomtype players shuffle d values ≠ .error .raised ∧
  (∀ t, qptimized_for_robot roomtype players shuffle d values = .ok t → Dealt t) ∧
  ∃ (more : Chair → List Nat) (t : Table), qptimized_for_robot roomtype players shuffle d
    (fun p => values p ++ more p) = .ok t

theorem dealsWell_iff (roomtype : Nat) (players : Chair → Dealee) (shuffle : List Nat)
    (d : Chair → Draws) :
    (∀ values, DealsWell roomtype players shuffle d values) ↔ KingsLeft roomtype players d := by
  constructor
  · intro well
    obtain ⟨raised, _⟩ | ⟨_, short⟩ | ⟨_, _, _, kings⟩ :=
      qptimized_for_robot_cases roomtype players shuffle d fun _ => List.range 0xc
    · exact absurd raised (well _).1
    · exact absurd (fun _ => ⟨[], rfl⟩) short
    · exact kings
  · intro kings values
    refine ⟨fun raised => ?_, fun t done => ?_, fun _ => List.range 0xc, ?_⟩
    · obtain ⟨_, gone⟩ | ⟨drawing, _⟩ | ⟨_, done, _⟩ :=
        qptimized_for_robot_cases roomtype players shuffle d values
      · exact gone kings
      · cases raised.symm.trans drawing
      · cases raised.symm.trans done
    · obtain ⟨raised, _⟩ | ⟨drawing, _⟩ | ⟨_, done', dealt, _⟩ :=
        qptimized_for_robot_cases roomtype players shuffle d values
      · cases done.symm.trans raised
      · cases done.symm.trans drawing
      · exact Except.ok.inj (done'.symm.trans done) ▸ dealt
    · obtain ⟨_, gone⟩ | ⟨_, short⟩ | ⟨t, done, _⟩ :=
        qptimized_for_robot_cases roomtype players shuffle d
          fun p => values p ++ List.range 0xc
      · exact absurd kings gone
      · exact absurd (fun p => ⟨values p, rfl⟩) short
      · exact ⟨t, done⟩

/-- A user in his first games, and draws that give each of four a joker of one value. -/
def beginner : Dealee := ⟨false, some 0x128, false⟩

def kings : Draws := ⟨0, 0, 0, 0, fun _ => 99, 0, 0⟩

theorem dealsWell_fails : ¬∀ roomtype players shuffle d values,
    DealsWell roomtype players shuffle d values := by
  intro claim
  have well := claim 1 (fun _ => beginner) [] (fun _ => kings) fun _ => List.range 0xc
  have gone : ¬KingsLeft 1 (fun _ => beginner) fun _ => kings := by decide
  obtain ⟨raised, _⟩ | ⟨_, short⟩ | ⟨_, _, _, kings⟩ :=
    qptimized_for_robot_cases 1 (fun _ => beginner) [] (fun _ => kings) fun _ => List.range 0xc
  · exact well.1 raised
  · exact short fun _ => ⟨[], rfl⟩
  · exact gone kings

end Rounds

end HuluLandlord.SevenSparrow
