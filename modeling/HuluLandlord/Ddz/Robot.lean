import HuluLandlord.Define
import HuluLandlord.Ddz.SplitCards
import Mathlib.Data.Rat.Floor

/-!
The auto-player that moves for a player under trusteeship. Its decision reads
the decomposition of its own copy of the hand and, when following, the last
move; `none` is a pass. The copy is edited card by card, and a card that is not
found stops the edit with an error after the earlier ones have been removed.
-/
namespace HuluLandlord.Ddz

/-- Wings taken from pairs: whole pairs, then the first cards of one more. -/
def duiWings : List (List Card) → Nat → Nat → Lua (List Card)
  | _, 0, _ => .ok []
  | [], _ + 1, _ => .error "attempt to get length of a nil value"
  | duiArr :: rest, ndui + 1, n =>
      if n ≥ duiArr.length then do
        return duiArr ++ (← duiWings rest ndui (n - duiArr.length))
      else .ok (duiArr.take n)

def firstCards (lists : List (List Card)) : List Card := lists.map fun cards => cards.headD 0

def get_threeX (s : Split) : Lua (Option Move) :=
  match s.three_list with
  | [] => .ok none
  | three :: _ =>
      let n := three.length / 3
      let danLen := s.dan_list.length
      let weight := firstValue three
      if danLen ≥ n then
        .ok (some ⟨if n > 1 then .feiji_daidan else .sandaiyi, weight,
          three ++ firstCards (s.dan_list.take n)⟩)
      else if s.dui_list.length ≥ n then
        .ok (some ⟨if n > 1 then .feiji_daidui else .sandaiyidui, weight,
          three ++ (s.dui_list.take n).flatten⟩)
      else if s.dui_list.length * 2 + danLen ≥ n then do
        assertLua (n > 1)
        let ndan : Int := if (n - danLen) % 2 = 0 then danLen else danLen - 1
        let ndui : Int := (n - ndan) / 2
        let wings ← duiWings s.dui_list ndui.toNat n
        return some ⟨.feiji_daidan, weight,
          three ++ firstCards (s.dan_list.take ndan.toNat) ++ wings⟩
      else .ok none

def get_playedcards (s : Split) : Lua Move := do
  match ← get_threeX s with
  | some threex => return threex
  | none =>
      match s.dan_list, s.dui_list, s.three_list, s.type_list with
      | dan :: _, _, _, _ => return ⟨.dan, firstValue dan, dan⟩
      | [], dui :: _, _, _ => return ⟨.dui, firstValue dui, dui⟩
      | [], [], three :: _, _ =>
          return ⟨if three.length = 3 then .tuple else .feiji_budai, firstValue three, three⟩
      | [], [], [], item :: _ => return item
      | [], [], [], [] => .error "assertion failed!"

/-- The wing loop of `searcher.feiji_daidan`: singles first, then whole pairs. -/
def daidanWings (s : Split) (nthree : Nat) : Lua (List Card) :=
  let dans := firstCards (s.dan_list.take nthree)
  let duis := s.dui_list.take ((nthree - dans.length + 1) / 2)
  let count := dans.length + 2 * duis.length
  if count = nthree then .ok (dans ++ duis.flatten) else .error "assertion failed!"

/-- The first group of three or more that beats `weight` and passes `fits`. -/
def threeAbove (s : Split) (weight : Nat) (fits : List Card → Bool) : Option (List Card) :=
  s.three_list.find? fun cards => fits cards ∧ firstValue cards > weight

def searcher (s : Split) (last : PlayCardObj) : Lua (Option Move) :=
  let above (lists : List (List Card)) (type : CardType) : Option Move :=
    (lists.find? fun cards => firstValue cards > last.weight).map fun cards =>
      ⟨type, firstValue cards, cards⟩
  let withWings (type : CardType) (wings body : List Card) : Move :=
    ⟨type, firstValue body, body ++ wings⟩
  match last.type with
  | .dan => .ok (above s.dan_list .dan)
  | .dui => .ok (above s.dui_list .dui)
  | .tuple => .ok ((threeAbove s last.weight fun c => c.length = 3).map (withWings .tuple []))
  | .sandaiyi =>
      match s.dan_list with
      | [] => .ok none
      | dan :: _ => .ok ((threeAbove s last.weight fun c => c.length = 3).map
          (withWings .sandaiyi (firstCards [dan])))
  | .sandaiyidui =>
      match s.dui_list with
      | [] => .ok none
      | dui :: _ => .ok ((threeAbove s last.weight fun c => c.length = 3).map
          (withWings .sandaiyidui dui))
  | .feiji_budai =>
      .ok ((threeAbove s last.weight fun c => c.length = last.cards.length).map
        (withWings .feiji_budai []))
  | .feiji_daidan =>
      let nthree := last.cards.length / 4
      let ndan := s.dan_list.length
      if ndan ≥ nthree ∨ ((nthree - ndan) % 2 = 0 ∧ s.dui_list.length * 2 ≥ nthree - ndan) then
        -- the group of threes is compared with the whole last move, wings included
        match threeAbove s last.weight fun c => c.length = last.cards.length with
        | none => .ok none
        | some body => do
            let wings ← daidanWings s nthree
            return some (withWings .feiji_daidan wings body)
      else .ok none
  | .feiji_daidui =>
      let nthree := last.cards.length / 5
      if s.dui_list.length ≥ nthree then
        .ok ((threeAbove s last.weight fun c => c.length = last.cards.length).map
          (withWings .feiji_daidui (s.dui_list.take nthree).flatten))
      else .ok none
  | .shunzi | .liandui | .sidaier | .sidailiangdui | .zhadan => .ok none

def find_zhadan (s : Split) (last : PlayCardObj) : Option Move :=
  s.type_list.find? fun t =>
    t.type = .zhadan ∧ (last.type ≠ .zhadan ∨ t.weight > last.weight)

def find_bigger (s : Split) (last : PlayCardObj) : Lua (Option Move) := do
  match ← searcher s last with
  | some move => return some move
  | none => return find_zhadan s last

structure RobotAgent where
  handcards : List Card
  split : Split
  deriving DecidableEq, Repr

namespace RobotAgent

def init_handcards (cards : List Card) : RobotAgent := ⟨cards, split_cards cards⟩

def after_enemy_playcard (agent : RobotAgent) (last : PlayCardObj) : Lua (Option Move) :=
  find_bigger agent.split last

/-- `roll` is the outcome of `math.random()`. -/
def after_friend_playcard (agent : RobotAgent) (last : PlayCardObj) (roll : ℚ) :
    Lua (Option Move) := do
  let result ← find_bigger agent.split last
  match result.filter fun move => move.cards.length = agent.handcards.length with
  | some move => return some move
  | none =>
      if last.type = .zhadan then return none
      else if roll ≤ (0xf - last.weight : ℚ) / 0xf - 1 / 10 then searcher agent.split last
      else return none

/-- With `roomData = nil`, as `autoPlay` calls it. -/
def getPlayCardObj (agent : RobotAgent) (playstate : PlayCardState) (isLastPlayerFriend : Bool)
    (last : Option PlayCardObj) (roll : ℚ) : Lua (Option Move) :=
  match playstate, last with
  | .normal, some last =>
      if isLastPlayerFriend then agent.after_friend_playcard last roll
      else agent.after_enemy_playcard last
  | .normal, none => .error "attempt to index a nil value"
  | _, _ => do return some (← get_playedcards agent.split)

/-- `remove_from_handcards`; the flag tells whether every card was found. -/
def remove_from_handcards : List Card → List Card → List Card × Bool
  | handcards, [] => (handcards, true)
  | handcards, v :: cards =>
      if handcards.any fun c => low c = low v then
        remove_from_handcards (handcards.eraseP fun c => low c = low v) cards
      else (handcards, false)

/-- `self.playCard(pass, playCardObj)`; on an error the decomposition stays behind
the partly edited hand. -/
def playCard (agent : RobotAgent) (played : Option PlayCardObj) : RobotAgent × Bool :=
  match played with
  | none => (agent, true)
  | some obj =>
      match remove_from_handcards agent.handcards obj.cards with
      | (handcards, true) => (init_handcards handcards, true)
      | (handcards, false) => ({ agent with handcards := handcards }, false)

def setLandlord (agent : RobotAgent) (bottomCards : List Card) : RobotAgent :=
  init_handcards (agent.handcards ++ bottomCards)

end RobotAgent

end HuluLandlord.Ddz
