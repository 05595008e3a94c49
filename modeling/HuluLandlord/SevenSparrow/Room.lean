import HuluLandlord.Define
import HuluLandlord.Shuffle
import HuluLandlord.Ddz.Card

/-!
The four-player room of the seven-sparrow game. It has no request queue: a handler runs
until it sleeps or calls a user's agent, and what is left of it is an entry of `tasks`
until it is resumed. A robot's gold changes at once, a user's when his agent answers; the
notification an agent sends of its own answer arrives with it. `record` is what the room
has broadcast and which of its functions have run, oldest first; it is read by statements
only. Its entry of a charge holds what the charged player had, and whether he was gaming. Clocks, chat, the record of actions and the punishment at the end are left out, and
so are the fields of the messages that nothing here reads.
-/
namespace HuluLandlord.SevenSparrow
open Shuffle
open Ddz (Card V C)

abbrev Chair := Fin 4

instance Chair.neZero : NeZero 4 := ⟨Nat.succ_ne_zero 3⟩

theorem Chair.next_ne (p : Chair) : p + 1 ≠ p := by decide +revert

inductive PlayerState_QQP
  | readyOk | waiting | takeing | playing | recharging | watching | exited
  deriving DecidableEq, Repr

inductive RoomState_QQP
  | readying | takeCard | ended
  deriving DecidableEq, Repr

/-- The keys of the table of multiples. -/
inductive CardType
  | baxingzha | tonghuashun | six_two | five_three | shuanglonghui | lianzhahu | four_four
  | feijihu | sanliandui | four_two_two | three_three_two | two_two_two_two
  deriving DecidableEq, Repr

inductive HuEventType
  | tianHu | diHu | fishmoon | qingYiSe | ziMo | huaManYuan
  deriving DecidableEq, Repr

def is_flower (card : Card) : Bool := V card = 0xd

def is_leper (card : Card) : Bool := 0xe ≤ V card

structure Bill where
  id : Chair
  win_gold : Int
  gold : Int
  cardType : CardType
  multiple : Nat
  deriving DecidableEq, Repr

/-- What `gameOverInfo` says of one player. -/
structure OverData where
  gold : Int
  goldChange : Int
  goldBrokeLast : Int
  deriving DecidableEq, Repr

structure Player where
  status : PlayerState_QQP
  cards : List Card
  flowers : List Card
  hu_cards : List Card
  round : Nat
  is_first : Bool
  is_trusteeship : Bool
  from_pool : Bool
  fixed_events : List HuEventType
  gold : Int
  goldInit : Int
  goldBrokeLast : Int
  count_bankrupt : Nat
  delay_map : List Nat
  robot : Bool
  deriving DecidableEq, Repr

/-- The local variables of one `checkout_and_bills`, and of the `ssw_hu` that called it.
`goldStart` is the winner's gold when it begins, read by statements only. -/
structure Checkout where
  winner : Chair
  goldStart : Int
  card : Option Card
  cardType : CardType
  multiple : Nat
  winGoldMax : Int
  is_over : Bool
  goldWin : Int
  recharging : Bool
  bills : List Bill
  deriving DecidableEq, Repr

/-- What a handler has left to do when it sleeps, calls an agent or forks. -/
inductive Task
  | realstart
  | please_playcard (p : Chair)
  | next_one_take (p : Chair)
  | charge (c : Checkout) (q : Chair) (goldLost : Int) (rest : List Chair)
  | pay (c : Checkout)
  | please_recharge (p : Chair)
  | ssw_giveup (p : Chair)
  | gameover
  deriving DecidableEq, Repr

inductive Message
  | please_takecard (pid : Chair)
  | takecard (pid : Chair) (from_pool : Bool) (card : Option Card) (flowers : List Card)
  | please_playcard (pid : Chair)
  | playcard (pid : Chair) (card : Card)
  | hu (pid : Chair) (bills : List Bill)
  | please_recharge (pid : Chair) (goldBrokeLast : Int)
  | giveup (pid : Chair) (giveup : Bool)
  | exit (pid : Chair) (overInfo : Option (Chair → OverData))
  | gameover (datas : Chair → OverData)
  | sync_player_gold (pid : Chair) (gold : Nat)
  | next_one_take
  | charge (c : Checkout) (q : Chair) (goldLost gold : Int) (gameing : Bool)
  | add_gold (pid : Chair) (num : Int)

structure Room where
  status : RoomState_QQP
  round : Nat
  pool : List Card
  discard_cards : List Card
  selectional_cards : List Card
  players : Chair → Player
  all_bills : List Bill
  first_one : Chair
  last_hu_player : Option Chair
  tasks : List Task
  record : List Message

/-- The configuration of a room; `check_hu` is the rule of `util.qique`. -/
structure Conf where
  difen : Nat
  capped_num : Int
  multipleInfo : HuEventType → Nat
  flower : Nat
  check_hu : List Card → Card → Option (CardType × Nat)

/-- The last position of an inner card that is no flower. -/
def find_not_2_index (cards : List Card) : Option Nat :=
  ((List.range (cards.length - 1)).drop 1).reverse.find? fun i => !is_flower (cards.getD i 0)

/-- `helper.pool_one_not_2`; `none` where it raises. -/
def pool_one_not_2 (cards : List Card) (index : Nat) : Option (List Card) :=
  match cards[index]? with
  | none => none
  | some one =>
      if is_flower one then
        match find_not_2_index cards with
        | none => none
        | some index2 => some (swapAt cards index index2)
      else some cards

/-- The loop of `takeCard` over the pool: the pool, the card and the flowers. Nothing is
returned where exchanging the first card of the pool raises. -/
def takeLoop : Nat → List Card → List Card → List Card × Option (Option Card × List Card)
  | 0, pool, flowers => (pool, some (none, flowers))
  | n + 1, pool, flowers =>
      match pool.getLast? with
      | none => (pool, some (none, flowers))
      | some card =>
          if is_flower card then
            if pool.dropLast = [] then ([], some (some card, flowers ++ [card]))
            else match pool_one_not_2 pool.dropLast 0 with
              | none => (pool.dropLast, none)
              | some pool => takeLoop n pool (flowers ++ [card])
          else (pool.dropLast, some (some card, flowers))

namespace Player

def gameing (pl : Player) : Bool := pl.status ≠ .watching ∧ pl.status ≠ .exited

/-- Asked to take or to play. -/
def acting (pl : Player) : Bool := pl.status = .takeing ∨ pl.status = .playing

def is_huamanyuan (pl : Player) : Bool := [1, 2, 3, 4].all fun c => c ∈ pl.flowers.map C

def get_flowers_multiple (conf : Conf) (pl : Player) : Nat := conf.flower ^ pl.flowers.length

/-- `none` where there is no eighth card. -/
def check_hu (conf : Conf) (pl : Player) : Option (Option (CardType × Nat)) :=
  (pl.cards[7]?).map (conf.check_hu (pl.cards.take 7))

/-- The gold after `add_gold(-num)`. The agent of a user takes no more than he has, and
answers a request to take nothing with the number zero. -/
def removed (pl : Player) (num : Int) : Int :=
  if pl.robot then pl.gold - num
  else if num = 0 then 0 else pl.gold - min num pl.gold

/-- The gold after `add_gold(num)` of what a winner gets. -/
def added (pl : Player) (num : Int) : Int :=
  if pl.robot then pl.gold + num
  else if 0 < num then pl.gold + num else pl.removed (-num)

end Player

/-- `qique.is_qingyise`; with nothing but jokers it raises. -/
def is_qingyise (cards : List Card) : Option Bool :=
  match cards.filter fun card => !is_leper card with
  | [] => none
  | card :: rest => some (rest.all fun other => C other = C card)

namespace Room

def modify (b : Room) (p : Chair) (f : Player → Player) : Room :=
  { b with players := Function.update b.players p (f (b.players p)) }

def setStatus (b : Room) (p : Chair) (status : PlayerState_QQP) : Room :=
  b.modify p fun pl => { pl with status := status }

def setGold (b : Room) (p : Chair) (gold : Int) : Room :=
  b.modify p fun pl => { pl with gold := gold }

def radio (b : Room) (m : Message) : Room := { b with record := b.record ++ [m] }

def later (b : Room) (t : Task) : Room := { b with tasks := b.tasks ++ [t] }

def check_over (b : Room) : Bool := b.pool = []

def count_watching_or_exited (b : Room) : Nat :=
  (List.finRange 4).countP fun p => !(b.players p).gameing

def getRechargeingNum (b : Room) : Nat :=
  (List.finRange 4).countP fun p => (b.players p).status = .recharging

def next_game_player (b : Room) (p : Chair) : Option Chair :=
  [p + 1, p + 2, p + 3].find? fun q => (b.players q).gameing

def getWinGoldMax (conf : Conf) (b : Room) (p : Chair) (multiple : Nat) : Int :=
  let goldBase : Int := conf.difen * multiple
  min (min goldBase (if conf.capped_num < 0 then goldBase else conf.capped_num))
    (max (b.players p).gold (b.players p).goldInit)

/-- What a player has won by a list of bills. -/
def goldChange (bills : List Bill) (p : Chair) : Int :=
  ((bills.filter fun bill => bill.id = p).map Bill.win_gold).sum

/-- `gameOverInfo` brings `goldBrokeLast` of every player forward. -/
def broken (b : Room) : Room :=
  { b with players := fun p => { b.players p with
      goldBrokeLast := |goldChange b.all_bills p| - (b.players p).goldBrokeLast } }

/-- The report `gameOverInfo` returns, from the room it leaves. -/
def overDatas (b : Room) : Chair → OverData := fun p =>
  ⟨(b.players p).gold, goldChange b.all_bills p, (b.players p).goldBrokeLast⟩

def gameover (b : Room) : Room :=
  let b := { b with status := .ended }.broken
  b.radio (.gameover b.overDatas)

def please_takecard (b : Room) (p : Chair) (is_first : Bool) : Room :=
  (b.modify p fun pl => { pl with
    status := .takeing, is_first := is_first || pl.is_first }).radio (.please_takecard p)

/-- Without a next player it raises. -/
def next_one_take (b : Room) (p : Option Chair) : Room :=
  let b := b.radio .next_one_take
  if b.check_over then b.gameover
  else match p.bind b.next_game_player with
    | none => b
    | some q => b.please_takecard q false

def realstart (b : Room) : Room :=
  { b with status := .takeCard }.please_takecard b.first_one true

def please_playcard (b : Room) (p : Chair) : Room :=
  (b.setStatus p .playing).radio (.please_playcard p)

def please_recharge (b : Room) (p : Chair) : Room :=
  let goldBrokeLast := |goldChange b.all_bills p| - (b.players p).goldBrokeLast
  let b := (b.modify p fun pl => { pl with
    status := .recharging, goldBrokeLast := goldBrokeLast }).radio
      (.please_recharge p goldBrokeLast)
  if (b.players p).is_trusteeship then b.later (.ssw_giveup p) else b

/-- The room after `takeCard`, its result, the card and the flowers; no result where it
raises. What `removebyvalue` returns is a count, and every number is true in Lua, zero
too: a named card is given whether or not it was there. -/
def takeCard (b : Room) (card : Option Card) :
    Room × Option (Bool × Option Card × List Card) :=
  let b := { b with round := b.round + 1 }
  match card with
  | some card =>
      ({ b with selectional_cards := b.selectional_cards.erase card },
        some (true, some card, []))
  | none =>
      match takeLoop b.pool.length b.pool [] with
      | (pool, none) => ({ b with pool := pool }, none)
      | (pool, some (card, flowers)) =>
          ({ b with pool := pool }, some (b.pool ≠ [], card, flowers))

def on_player_playcard (b : Room) (card : Card) : Room :=
  let cards := card :: b.selectional_cards
  if cards.length = 4 then
    { b with
      selectional_cards := cards.take 3
      discard_cards := b.discard_cards ++ cards.drop 3 }
  else { b with selectional_cards := cards }

end Room

end HuluLandlord.SevenSparrow
