import HuluLandlord.Define
import HuluLandlord.Ddz.Card
import HuluLandlord.Shuffle

/-!
Dealing. A `Deal` is what `helper.dealcard` hands to the room: three hands and
the bottom cards, together a whole deck. The two routines of the game types that
reach this room build one from their random draws. Hand-configured deals
(`SetRoomCardDataCfg`) exist on test servers only, and rooms of this game never
receive `newUserCardCfgIdArr`; neither is a deal of this type.
-/
namespace HuluLandlord.Ddz
open Shuffle

structure Deal where
  cards_1 : List Card
  cards_2 : List Card
  cards_3 : List Card
  bottomCards : List Card
  isDeck : (cards_1 ++ cards_2 ++ cards_3 ++ bottomCards).Perm create_a_pair_cards
  length_1 : cards_1.length = 17
  length_2 : cards_2.length = 17
  length_3 : cards_3.length = 17

def Deal.cards (deal : Deal) : Seat → List Card
  | 0 => deal.cards_1
  | 1 => deal.cards_2
  | 2 => deal.cards_3

theorem Deal.length_cards (deal : Deal) (p : Seat) : (deal.cards p).length = 17 := by
  match p with
  | 0 => exact deal.length_1
  | 1 => exact deal.length_2
  | 2 => exact deal.length_3

theorem Deal.length_bottom (deal : Deal) : deal.bottomCards.length = 3 := by
  have total := deal.isDeck.length_eq
  simp only [List.length_append, deal.length_1, deal.length_2, deal.length_3] at total
  simp only [create_a_pair_cards, List.length_cons, List.length_nil] at total
  omega

/-- `table.splice(cards, 1, 17)` three times; the rest is the bottom. -/
def spliceDeal (cards : List Card) (whole : cards.Perm create_a_pair_cards) : Deal where
  cards_1 := cards.take 17
  cards_2 := (cards.drop 17).take 17
  cards_3 := (cards.drop 34).take 17
  bottomCards := cards.drop 51
  isDeck := by
    have second := List.take_append_drop 17 (cards.drop 17)
    have third := List.take_append_drop 17 (cards.drop 34)
    rw [List.drop_drop] at second third
    rw [List.append_assoc, third, List.append_assoc, second, List.take_append_drop]
    exact whole
  length_1 := by simp [whole.length_eq, create_a_pair_cards]
  length_2 := by simp [whole.length_eq, create_a_pair_cards]
  length_3 := by simp [whole.length_eq, create_a_pair_cards]

def classic (draws : List Nat) : Deal :=
  spliceDeal (randsort create_a_pair_cards draws) (randsort_perm _ _)

/-- `cut()` with the drawn `i` and `n`: the block of `n` cards at `i` moves to the
front, card by card. -/
def cut (cards : List Card) (i n : Nat) : List Card :=
  (List.range n).foldl (fun cards j => moveTo cards (i + j - 1) j) cards

theorem cut_perm (cards : List Card) (i n : Nat) : (cut cards i n).Perm cards :=
  foldl_perm (fun ys j => moveTo ys (i + j - 1) j)
    (fun ys j => moveTo_perm ys (i + j - 1) j) _ cards

/-- The deck sorted by falling value, cut a few times and dealt in blocks. -/
def noshuffle (cuts : List (Nat × Nat)) : Deal :=
  let sorted := create_a_pair_cards.insertionSort fun a b => V a ≥ V b
  spliceDeal (cuts.foldl (fun cards ij => cut cards ij.1 ij.2) sorted)
    ((foldl_perm (fun ys (ij : Nat × Nat) => cut ys ij.1 ij.2)
      (fun ys ij => cut_perm ys ij.1 ij.2) cuts sorted).trans
      (List.perm_insertionSort _ _))

end HuluLandlord.Ddz
