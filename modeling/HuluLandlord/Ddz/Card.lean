import Mathlib.Data.List.Sort
import Mathlib.Data.List.Perm.Basic
import Mathlib.Tactic

/-!
Card codes of the three-player game. A card is any Lua integer a client may
send: its low four bits are the face value, the next four the suit, and higher
bits are ignored by masking. `& 0xff` and `& 0x0f` are remainders because Lua
integers are two's complement. The tables filled by `groupByValue` are read
through the list of cards of one value; a missing entry is the empty list.
-/
namespace HuluLandlord.Ddz

abbrev Card := Int

/-- `card & 0xff`. -/
def low (card : Card) : Card := card % 256

def V (card : Card) : Nat := (card % 16).toNat

def C (card : Card) : Nat :=
  let c := ((card % 256).toNat / 16) % 5
  if c = 0 then 5 else c

def is2 (card : Card) : Bool := V card = 0xd
def isA (card : Card) : Bool := V card = 0xc
def isKing (card : Card) : Bool := 0xe ≤ V card

/-- `COMB(card, tv)` on numbers. -/
def COMB (card tv : Nat) : Nat := tv * 256 + card

def create_a_pair_cards : List Card := [
  0x11, 0x12, 0x13, 0x14, 0x15, 0x16, 0x17, 0x18, 0x19, 0x1a, 0x1b, 0x1c, 0x1d,
  0x21, 0x22, 0x23, 0x24, 0x25, 0x26, 0x27, 0x28, 0x29, 0x2a, 0x2b, 0x2c, 0x2d,
  0x31, 0x32, 0x33, 0x34, 0x35, 0x36, 0x37, 0x38, 0x39, 0x3a, 0x3b, 0x3c, 0x3d,
  0x41, 0x42, 0x43, 0x44, 0x45, 0x46, 0x47, 0x48, 0x49, 0x4a, 0x4b, 0x4c, 0x4d,
  0x5e, 0x5f]

theorem deck_nodup : create_a_pair_cards.Nodup := by decide

def getKingCount (cards : List Card) : Nat := cards.countP isKing

/-- The comparator of `cardSort`: by value, then by suit. -/
def cardLe (a b : Card) : Prop :=
  if V a = V b then C a ≤ C b else V a ≤ V b

instance : DecidableRel cardLe := fun a b => by unfold cardLe; infer_instance

/-- Lua's `table.sort` fixes no order between cards with equal keys; one deck
has none, and the stable order is taken here. -/
def cardSort (cards : List Card) : List Card := cards.insertionSort cardLe

/-- One entry of `groupByValue(cards)`. -/
def valueGroup (cards : List Card) (v : Nat) : List Card := cards.filter fun c => V c = v

/-- The keys of `groupByValue(cards)` and of `getValueNumObj(cards)`. -/
def valueKeys (cards : List Card) : List Nat :=
  (List.range 16).filter fun v => valueGroup cards v ≠ []

def valueNum (cards : List Card) (v : Nat) : Nat := (valueGroup cards v).length

/-- `V(cards[i])` for a position known to exist. -/
def valueAt (cards : List Card) (i : Nat) : Nat := V (cards.getD (i - 1) 0)

/-- `removeKing` walks the hand backwards: the kings come out in reverse order. -/
def removeKing (cards : List Card) : List Card × List Card :=
  ((cards.filter isKing).reverse, cards.filter fun c => !isKing c)

theorem V_lt (card : Card) : V card < 16 := by unfold V; omega

@[simp] theorem V_low (card : Card) : V (low card) = V card := by unfold V low; omega

@[simp] theorem low_low (card : Card) : low (low card) = low card :=
  Int.emod_emod_of_dvd card (dvd_refl 256)

theorem cardLe_total (a b : Card) : cardLe a b ∨ cardLe b a := by
  unfold cardLe
  split <;> split <;> omega

theorem cardLe_trans (a b c : Card) (first : cardLe a b) (second : cardLe b c) :
    cardLe a c := by
  unfold cardLe at *
  split at first <;> split at second <;> split <;> omega

instance : Std.Total cardLe := ⟨cardLe_total⟩
instance : IsTrans Card cardLe := ⟨cardLe_trans⟩

theorem V_le_of_cardLe {a b : Card} (h : cardLe a b) : V a ≤ V b := by
  unfold cardLe at h
  split at h <;> omega

theorem cardSort_perm (cards : List Card) : (cardSort cards).Perm cards :=
  List.perm_insertionSort _ _

@[simp] theorem cardSort_length (cards : List Card) : (cardSort cards).length = cards.length :=
  List.length_insertionSort _ _

/-- The values of a sorted list ascend. -/
theorem cardSort_values (cards : List Card) :
    ((cardSort cards).map V).Pairwise (· ≤ ·) :=
  List.pairwise_map.mpr ((List.pairwise_insertionSort cardLe cards).imp V_le_of_cardLe)

theorem mem_valueGroup {cards : List Card} {v : Nat} {c : Card} :
    c ∈ valueGroup cards v ↔ c ∈ cards ∧ V c = v := by simp [valueGroup]

theorem mem_valueKeys {cards : List Card} {v : Nat} :
    v ∈ valueKeys cards ↔ ∃ c ∈ cards, V c = v := by
  simp only [valueKeys, List.mem_filter, List.mem_range, decide_eq_true_eq, ne_eq,
    List.eq_nil_iff_forall_not_mem, mem_valueGroup, not_forall, not_not]
  constructor
  · rintro ⟨_, c, mem, val⟩
    exact ⟨c, mem, val⟩
  · rintro ⟨c, mem, val⟩
    exact ⟨val ▸ V_lt c, c, mem, val⟩

theorem valueNum_perm {xs ys : List Card} (h : xs.Perm ys) (v : Nat) :
    valueNum xs v = valueNum ys v := (h.filter _).length_eq

theorem valueNum_pos {cards : List Card} {v : Nat} :
    0 < valueNum cards v ↔ ∃ c ∈ cards, V c = v := by
  simp only [valueNum, List.length_pos_iff_exists_mem, mem_valueGroup]

theorem valueKeys_perm {xs ys : List Card} (h : xs.Perm ys) :
    valueKeys xs = valueKeys ys := by
  refine List.filter_congr fun v _ => ?_
  have same := valueNum_perm h v
  unfold valueNum at same
  by_cases empty : valueGroup xs v = []
  · have other : valueGroup ys v = [] := List.length_eq_zero_iff.mp (by simp [← same, empty])
    simp [empty, other]
  · have other : valueGroup ys v ≠ [] := by
      intro nil
      exact empty (List.length_eq_zero_iff.mp (by simp [same, nil]))
    simp [empty, other]

end HuluLandlord.Ddz
