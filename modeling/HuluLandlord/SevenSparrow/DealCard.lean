import HuluLandlord.SevenSparrow.Room
import Mathlib.Combinatorics.Pigeonhole

/-!
The deal of the seven-sparrow room. Every player is first given what his luck brings, out
of one pool; then all hands are filled to seven cards, and each flower in a hand is
followed by another card. What is drawn at random is read off `Draws`; the two loops that
draw until a value will do read it off `values`, and have not ended where that runs out.
Deals that are configured by hand, and the start skills no pet has, are left out.
-/
namespace HuluLandlord.SevenSparrow
open Shuffle
open Ddz (Card V C)

def create_two_pair_cards : List Card := [
  0x11, 0x12, 0x13, 0x14, 0x15, 0x16, 0x17, 0x18, 0x19, 0x1a, 0x1b, 0x1c, 0x1d,
  0x21, 0x22, 0x23, 0x24, 0x25, 0x26, 0x27, 0x28, 0x29, 0x2a, 0x2b, 0x2c, 0x2d,
  0x31, 0x32, 0x33, 0x34, 0x35, 0x36, 0x37, 0x38, 0x39, 0x3a, 0x3b, 0x3c, 0x3d,
  0x41, 0x42, 0x43, 0x44, 0x45, 0x46, 0x47, 0x48, 0x49, 0x4a, 0x4b, 0x4c, 0x4d,
  0x5e, 0x5f,
  0x61, 0x62, 0x63, 0x64, 0x65, 0x66, 0x67, 0x68, 0x69, 0x6a, 0x6b, 0x6c, 0x6d,
  0x71, 0x72, 0x73, 0x74, 0x75, 0x76, 0x77, 0x78, 0x79, 0x7a, 0x7b, 0x7c, 0x7d,
  0x81, 0x82, 0x83, 0x84, 0x85, 0x86, 0x87, 0x88, 0x89, 0x8a, 0x8b, 0x8c, 0x8d,
  0x91, 0x92, 0x93, 0x94, 0x95, 0x96, 0x97, 0x98, 0x99, 0x9a, 0x9b, 0x9c, 0x9d,
  0xae, 0xaf]

/-- What the deal reads of a player. -/
structure Dealee where
  robot : Bool
  ssw_2game_king : Option Nat
  is_anchor : Bool
  deriving DecidableEq, Repr

def GameRoomLevel.V1 : Nat := 1

def SKILL_LEPER : Nat := 10

/-- `math.random(lo, hi)`, on the number drawn. -/
def random (lo hi n : Nat) : Nat := lo + n % (hi + 1 - lo)

/-- What is drawn for one player. -/
structure Draws where
  prob : Nat
  is_2 : Nat
  is_leopard : Nat
  king : Nat
  trigger : Nat → Nat
  first : Nat
  color : Nat

/-- How a deal ends without cards: it raises, or a loop has not drawn what it waits for. -/
inductive Stop
  | raised | drawing
  deriving DecidableEq, Repr

/-- The first card of a kind, and the cards without it. -/
def find_and_remove (kind : Card → Bool) (cards : List Card) : Option Card × List Card :=
  (cards.find? kind, cards.eraseP kind)

def hasValue (v : Nat) (card : Card) : Bool := V card = v

def hasColorValue (c v : Nat) (card : Card) : Bool := V card = v && C card = c

def find_and_remove_by_value (cards : List Card) (v : Nat) : Option Card × List Card :=
  find_and_remove (hasValue v) cards

/-- A card of each kind in turn, and the cards left. -/
def removeKinds : List (Card → Bool) → List Card → List Card × List Card
  | [], cards => ([], cards)
  | kind :: kinds, cards =>
      let (one, cards) := find_and_remove kind cards
      let (hand, cards) := removeKinds kinds cards
      (one.toList ++ hand, cards)

/-- `cc[v][c]` of `cards_count`, which leaves out the jokers. -/
def cards_count (cards : List Card) (v c : Nat) : Nat :=
  cards.countP fun card => !is_leper card && hasColorValue c v card

/-- `count_item(cc[v])`. -/
def count_item (cards : List Card) (v : Nat) : Nat :=
  cards.countP fun card => !is_leper card && hasValue v card

def find_four_shunzi_color (cards : List Card) (v : Nat) : Option Nat :=
  if (List.range 4).any fun i => count_item cards (v + i) = 0 then none
  else [1, 2, 3, 4].find? fun c => (List.range 4).all fun i => cards_count cards (v + i) c ≠ 0

def random_4_leopard (cards : List Card) (values : List Nat) :
    Except Stop (List Card × List Card) :=
  match (values.map (random 1 0xc)).find? fun v => 4 ≤ count_item cards v with
  | none => .error .drawing
  | some v => .ok (removeKinds (List.replicate 4 (hasValue v)) cards)

def random_4_shunzi (cards : List Card) (values : List Nat) :
    Except Stop (List Card × List Card) :=
  match (values.map (random 1 (0xc - 3))).findSome? fun v =>
      (find_four_shunzi_color cards v).map fun c => (c, v) with
  | none => .error .drawing
  | some (c, v) => .ok (removeKinds ((List.range 4).map fun i => hasColorValue c (v + i)) cards)

def random_4lian (cards : List Card) (d : Draws) (values : List Nat) :
    Except Stop (List Card × List Card) :=
  if random 1 5 d.is_leopard = 5 then random_4_leopard cards values
  else random_4_shunzi cards values

def find_one_king (cards : List Card) (d : Draws) : Option Card × List Card :=
  find_and_remove_by_value cards (random 0xe 0xf d.king)

/-- `find_and_remove_by_value(cards, v) or find_and_remove_by_value(cards, w)`. -/
def find_either (cards : List Card) (v w : Nat) : Option Card × List Card :=
  match find_and_remove_by_value cards v with
  | (some one, cards) => (some one, cards)
  | (none, cards) => find_and_remove_by_value cards w

def random_one_2_or_king (cards : List Card) (d : Draws) : Option Card × List Card :=
  if random 1 2 d.is_2 = 1 then find_and_remove_by_value cards 0xd else find_either cards 0xe 0xf

/-- The loop over the cards from the last to the first: four of a suit, and the cards left
in the order of the loop; `none` where there are not so many. -/
def fourOfColor (c : Nat) : List Card → List Card → Option (List Card) × List Card
  | [], _ => (none, [])
  | one :: rest, hand =>
      if C one = c ∧ V one ≠ 0xd then
        if hand.length = 3 then (some (hand ++ [one]), rest)
        else fourOfColor c rest (hand ++ [one])
      else
        let (found, left) := fourOfColor c rest hand
        (found, one :: left)

/-- The three start skills a pet can have. -/
def start_skill (skill_id : Nat) (cards : List Card) (d : Draws) :
    Option (List Card) × List Card :=
  if skill_id = 9 then
    let (one, cards) := find_and_remove_by_value cards 0xd
    (some one.toList, cards)
  else if skill_id = 10 then
    let (one, cards) :=
      if random 1 2 d.first = 1 then find_either cards 0xe 0xf else find_either cards 0xf 0xe
    (some one.toList, cards)
  else
    let (hand, left) := fourOfColor (random 1 4 d.color) cards.reverse []
    (hand, left.reverse)

/-- `trigger`: the first skill whose draw succeeds. -/
def trigger (pet : List Nat) (d : Draws) : Option Nat :=
  (pet.zipIdx.find? fun skill => random 1 100 (d.trigger skill.2) ≤ 20).map Prod.fst

def tmp_anchor_virtual_pet (disable_king_skill : Bool) (d : Draws) : Option Nat :=
  trigger (if disable_king_skill then [9, 11] else [10, 9, 11]) d

/-- The king of a player with a chance of one, the cards left, and whether he was drawn.
`table.insert` raises when there is none left of the value: the call returns nothing. -/
def firstKing (cards : List Card) (p : Dealee) (d : Draws) :
    Except Stop (List Card × List Card × Bool) :=
  match p.ssw_2game_king with
  | none => .ok ([], cards, false)
  | some ssw_2game_king =>
      if random 1 100 d.prob ≤ ssw_2game_king % 256 then
        match find_one_king cards d with
        | (none, _) => .error .raised
        | (some one, cards) => .ok ([one], cards, true)
      else .ok ([], cards, false)

/-- What an anchor's pet adds to his hand, and the skill. -/
def petSkill (p : Dealee) (d : Draws) (hand cards : List Card) (disable_king_skill : Bool) :
    Except Stop (List Card × List Card × Option Nat) :=
  if p.is_anchor then
    match tmp_anchor_virtual_pet disable_king_skill d with
    | none => .ok (hand, cards, none)
    | some skill_id =>
        match start_skill skill_id cards d with
        | (none, _) => .error .raised
        | (some more, cards) => .ok (hand ++ more, cards, some skill_id)
  else .ok (hand, cards, none)

/-- A hand, the cards left, and the skill. -/
def init_hand (cards : List Card) (p : Dealee) (roomtype : Nat) (d : Draws) (values : List Nat) :
    Except Stop (List Card × List Card × Option Nat) :=
  if p.robot then
    if GameRoomLevel.V1 < roomtype then do
      let (hand, cards) ← random_4lian cards d values
      return (hand, cards, none)
    else if random 1 100 d.prob ≤ 10 then
      let (one, cards) := random_one_2_or_king cards d
      return (one.toList, cards, none)
    else return ([], cards, none)
  else do
    let (hand, cards, disable_king_skill) ← firstKing cards p d
    petSkill p d hand cards disable_king_skill

structure Table where
  hands : Chair → List Card
  cards : List Card
  skills : Chair → Option Nat

namespace Table

/-- The first round of the deal, of one player. -/
def init (roomtype : Nat) (players : Chair → Dealee) (d : Chair → Draws)
    (values : Chair → List Nat) (t : Table) (p : Chair) : Except Stop Table := do
  let (hand, cards, skill) ← init_hand t.cards (players p) roomtype (d p) (values p)
  return {
    hands := Function.update t.hands p hand
    cards := cards
    skills := Function.update t.skills p skill }

/-- `table.splice(cards, 1, 7-#hand)` for one player, with its assertions. -/
def fill (t : Table) (p : Chair) : Except Stop Table :=
  if t.cards = [] ∨ (t.cards.length : Int) ≤ 6 - (t.hands p).length then throw .raised
  else
    return { t with
      hands := Function.update t.hands p
        (t.hands p ++ t.cards.take (7 - (t.hands p).length))
      cards := t.cards.drop (7 - (t.hands p).length) }

/-- `pool_one_not_2(cards, index)`, which raises where it finds nothing to exchange. -/
def not_2 (t : Table) (index : Nat) : Except Stop Table :=
  match pool_one_not_2 t.cards index with
  | none => throw .raised
  | some cards => return { t with cards := cards }

/-- `fix_hand` on one flower: the first card from the second on that is none. -/
def fix_flower (t : Table) (p : Chair) : Except Stop Table :=
  match t.cards with
  | [] => throw .raised
  | first :: rest =>
      match rest.find? fun card => !is_flower card with
      | none => throw .raised
      | some card =>
          return { t with
            hands := Function.update t.hands p (t.hands p ++ [card])
            cards := first :: rest.eraseP fun card => !is_flower card }

def fix_hand (t : Table) (p : Chair) : Except Stop Table :=
  ((t.hands p).filter is_flower).foldlM (fun t _ => t.fix_flower p) t

end Table

/-- The deal; `shuffle` is drawn by `table.randsort`. -/
def qptimized_for_robot (roomtype : Nat) (players : Chair → Dealee) (shuffle : List Nat)
    (d : Chair → Draws) (values : Chair → List Nat) : Except Stop Table := do
  let t : Table := ⟨fun _ => [], randsort create_two_pair_cards shuffle, fun _ => none⟩
  let t ← (List.finRange 4).foldlM (Table.init roomtype players d values) t
  let t ← (List.finRange 4).foldlM Table.fill t
  let t ← t.not_2 0
  let t ← t.not_2 (t.cards.length - 1)
  (List.finRange 4).foldlM Table.fix_hand t

end HuluLandlord.SevenSparrow
