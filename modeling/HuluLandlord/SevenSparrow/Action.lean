import HuluLandlord.SevenSparrow.Room
import HuluLandlord.Transition

/-!
The requests of the seven-sparrow room, the timers and notifications that call the same
functions, and its runs. A request that raises leaves the room as it was at that point.
The timers only call `trusteeship`, `trusteeshipAction` and `ssw_giveup`, each of which
looks at the status itself, so they are events that may come at any time.
-/
namespace HuluLandlord.SevenSparrow
open Transition
open Ddz (Card V C)

/-- The event of a player's first round. -/
def firstEvent (b : Room) (p : Chair) : Option HuEventType :=
  if (b.players p).round = 1 then some (if b.first_one = p then .tianHu else .diHu) else none

/-- `addEvent(event, true)` on the list that stays with the player. -/
def fixEvent (fixed_events : List HuEventType) : Option HuEventType → List HuEventType
  | none => fixed_events
  | some event => if event ∈ fixed_events then fixed_events else fixed_events ++ [event]

/-- `getHuEventArr`; `none` where `is_qingyise` raises. -/
def getHuEventArr (b : Room) (p : Chair) (type : CardType) : Option (List HuEventType) :=
  let pl := b.players p
  (is_qingyise pl.cards).map fun qingyise =>
    (if pl.from_pool then [.ziMo] else []) ++ pl.fixed_events ++ (firstEvent b p).toList ++
      (if pl.from_pool ∧ b.pool = [] then [.fishmoon] else []) ++
      (if qingyise = true ∧ type ≠ .tonghuashun ∧ type ≠ .shuanglonghui then [.qingYiSe]
        else []) ++
      (if pl.is_huamanyuan then [.huaManYuan] else [])

namespace Room
variable (conf : Conf)

/-- After `p:add_gold(-goldLost)`: the bankruptcy, the bill and the forked prompt. -/
def charged (b : Room) (c : Checkout) (q : Chair) (goldLost : Int) : Room × Checkout :=
  let b := b.radio (.add_gold q (-goldLost))
  let b := b.setGold q ((b.players q).removed goldLost)
  let gold := (b.players q).gold
  let b := if gold = 0 then
    b.modify q fun pl => { pl with count_bankrupt := pl.count_bankrupt + 1 } else b
  let recharging : Bool := !c.is_over && gold = 0
  (if recharging then b.later (.please_recharge q) else b,
    { c with
      bills := c.bills ++ [⟨q, -goldLost, gold, c.cardType, c.multiple⟩]
      goldWin := c.goldWin + goldLost
      recharging := c.recharging || recharging })

/-- After the winner is paid: the bills and the rest of `ssw_hu`, up to its sleep. -/
def paid (b : Room) (c : Checkout) : Room :=
  let b := b.radio (.add_gold c.winner c.goldWin)
  let b := b.setGold c.winner ((b.players c.winner).added c.goldWin)
  let bills := c.bills ++
    [⟨c.winner, c.goldWin, (b.players c.winner).gold, c.cardType, c.multiple⟩]
  let b := { b with last_hu_player := some c.winner, all_bills := b.all_bills ++ bills }
  let b := b.radio (.hu c.winner bills)
  if c.recharging then b else b.later (.next_one_take c.winner)

/-- The loop of `checkout_and_bills` over the players that are left, up to the next call
of a user's agent. `add_gold` refuses what would leave less than nothing. -/
def checkout_and_bills (b : Room) (c : Checkout) : List Chair → Room
  | [] =>
      if (b.players c.winner).gold + c.goldWin < 0 then b
      else if (b.players c.winner).robot then b.paid c
      else b.later (.pay c)
  | q :: rest =>
      if q ≠ c.winner ∧ (b.players q).gameing then
        let goldLost := min (b.players q).gold c.winGoldMax
        let b := b.radio (.charge c q goldLost (b.players q).gold (b.players q).gameing)
        if (b.players q).robot then
          let (b, c) := b.charged c q goldLost
          b.checkout_and_bills c rest
        else b.later (.charge c q goldLost rest)
      else b.checkout_and_bills c rest

def ssw_hu (b : Room) (p : Chair) : Room :=
  let pl := b.players p
  if pl.status ≠ .playing then b
  else match pl.check_hu conf with
  | none | some none => b
  | some (some (type, multiple)) =>
      let events := getHuEventArr b p type
      let b := b.modify p fun pl => { pl with
        fixed_events := fixEvent pl.fixed_events (firstEvent b p) }
      match events with
      | none => b
      | some eventArr =>
          let eventMultiple := max 1 (eventArr.map conf.multipleInfo).sum
          let multiple := multiple * eventMultiple * pl.get_flowers_multiple conf
          let b := b.modify p fun pl => { pl with
            cards := pl.cards.dropLast
            hu_cards := pl.hu_cards ++ pl.cards.getLast?.toList
            status := .waiting }
          b.checkout_and_bills
            ⟨p, (b.players p).gold, pl.cards.getLast?, type, multiple,
              getWinGoldMax conf b p multiple, b.check_over, 0, false, []⟩ (List.finRange 4)

def ssw_playcard (b : Room) (p : Chair) (card : Option Card) : Room :=
  let pl := b.players p
  match card with
  | none => b
  | some card =>
      if pl.status ≠ .playing then b
      else if pl.hu_cards ≠ [] ∧ pl.cards.getLast? ≠ some card then b
      else if card ∉ pl.cards then b
      else
        let b := b.modify p fun pl => { pl with
          cards := pl.cards.erase card, status := .waiting }
        let b := b.on_player_playcard card
        (b.radio (.playcard p card)).later (.next_one_take p)

/-- The room after `ssw_takecard`, and whether the take succeeded. -/
def ssw_takecard (b : Room) (p : Chair) (from_pool : Bool) (card : Option Card) : Room × Bool :=
  if (b.players p).status ≠ .takeing then (b, false)
  else if from_pool = false ∧ card = none then (b, false)
  else match b.takeCard card with
  | (b, none) => (b, false)
  | (b, some (false, _, _)) => (b, false)
  | (b, some (true, card, flowers)) =>
      let b := b.modify p fun pl => { pl with
        status := .waiting
        cards := pl.cards ++ card.toList
        flowers := pl.flowers ++ flowers
        round := pl.round + 1
        from_pool := from_pool }
      ((b.radio (.takecard p from_pool card flowers)).later (.please_playcard p), true)

/-- `ssw_takecard` after its sleep. -/
def taken (b : Room) (p : Chair) : Room :=
  if (b.players p).cards.length = 7 then b.gameover else b.please_playcard p

def ssw_giveup (b : Room) (p : Chair) : Room :=
  if (b.players p).status ≠ .recharging then b
  else
    let b := (b.setStatus p .watching).radio (.giveup p true)
    if b.count_watching_or_exited = 3 then b.later .gameover
    else if b.getRechargeingNum = 0 then b.next_one_take b.last_hu_player
    else b

def ssw_not_giveup (b : Room) (p : Chair) : Room :=
  if (b.players p).status ≠ .recharging then b
  else
    let b := (b.setStatus p .waiting).radio (.giveup p false)
    if b.getRechargeingNum = 0 then b.next_one_take b.last_hu_player else b

def ssw_exit (b : Room) (p : Chair) : Room :=
  if (b.players p).status ≠ .watching then b
  else if b.status = .ended then (b.radio (.exit p none)).setStatus p .exited
  else
    let b := b.broken
    (b.radio (.exit p (some b.overDatas))).setStatus p .exited

/-- The open card an automatic take asks for: the first joker, or the card that wins most,
in the order `table.sort` leaves three candidates. -/
def find_hu_card (b : Room) (p : Chair) : Option Card :=
  match b.selectional_cards.find? is_leper with
  | some card => some card
  | none =>
      let list := b.selectional_cards.filterMap fun card =>
        (conf.check_hu (b.players p).cards card).map fun hu => (card, hu.2)
      match list with
      | [] => none
      | first :: rest => some (rest.reverse.foldl (fun best other =>
          if best.2 < other.2 then other else best) first).1

def auto_take (b : Room) (p : Chair) : Room :=
  match b.find_hu_card conf p with
  | some card => (b.ssw_takecard p false (some card)).1
  | none => (b.ssw_takecard p true none).1

def auto_play (b : Room) (p : Chair) : Room :=
  match (b.players p).check_hu conf with
  | none => b
  | some (some _) => b.ssw_hu conf p
  | some none => b.ssw_playcard p (b.players p).cards.getLast?

def trusteeshipAction (b : Room) (p : Chair) : Room :=
  match (b.players p).status with
  | .takeing => b.auto_take conf p
  | .playing => b.auto_play conf p
  | .recharging => b.ssw_giveup p
  | _ => b

def trusteeship (b : Room) (p : Chair) : Room :=
  if (b.players p).is_trusteeship then b
  else (b.modify p fun pl => { pl with is_trusteeship := true }).trusteeshipAction conf p

def cancel_trusteeship (b : Room) (p : Chair) : Room :=
  b.modify p fun pl => { pl with is_trusteeship := false }

def SyncRoomData (b : Room) (p : Chair) (num : Nat) : Room :=
  let b := (b.setGold p num).radio (.sync_player_gold p num)
  if (b.players p).status = .recharging ∧ 0 < (b.players p).gold then b.ssw_not_giveup p else b

def player_order (b : Room) (p : Chair) : Room :=
  let pl := b.players p
  if pl.status = .recharging ∧ pl.count_bankrupt ∉ pl.delay_map then
    (b.modify p fun pl => { pl with
      delay_map := pl.delay_map ++ [pl.count_bankrupt] }).please_recharge p
  else b

def runTask (b : Room) : Task → Room
  | .realstart => b.realstart
  | .please_playcard p => b.taken p
  | .next_one_take p => b.next_one_take (some p)
  | .charge c q goldLost rest =>
      let (b, c) := b.charged c q goldLost
      b.checkout_and_bills c rest
  | .pay c => b.paid c
  | .please_recharge p => b.please_recharge p
  | .ssw_giveup p => b.ssw_giveup p
  | .gameover => b.gameover

end Room

inductive Event
  | ssw_takecard (p : Chair) (from_pool : Bool) (card : Option Card)
  | ssw_playcard (p : Chair) (card : Option Card)
  | ssw_hu (p : Chair)
  | ssw_giveup (p : Chair)
  | ssw_not_giveup (p : Chair)
  | ssw_exit (p : Chair)
  | trusteeship (p : Chair)
  | cancel_trusteeship (p : Chair)
  | trusteeshipAction (p : Chair)
  | SyncRoomData (p : Chair) (num : Nat)
  | player_order (p : Chair)
  | resume (i : Nat)
  deriving DecidableEq, Repr

/-- The position of the task an event resumes. -/
def Event.resumed : Event → Option Nat
  | .resume i => some i
  | _ => none

namespace Room
variable (conf : Conf)

def answer (b : Room) : Event → Room
  | .ssw_takecard p from_pool card => (b.ssw_takecard p from_pool card).1
  | .ssw_playcard p card => b.ssw_playcard p card
  | .ssw_hu p => b.ssw_hu conf p
  | .ssw_giveup p => b.ssw_giveup p
  | .ssw_not_giveup p => b.ssw_not_giveup p
  | .ssw_exit p => b.ssw_exit p
  | .trusteeship p => b.trusteeship conf p
  | .cancel_trusteeship p => b.cancel_trusteeship p
  | .trusteeshipAction p => if (b.players p).is_trusteeship then b.trusteeshipAction conf p else b
  | .SyncRoomData p num => b.SyncRoomData p num
  | .player_order p => b.player_order p
  | .resume _ => b

/-- One event; only a task that is pending can be resumed. -/
def step (b : Room) : Event → Option Room
  | .resume i => (b.tasks[i]?).map ({ b with tasks := b.tasks.eraseIdx i } : Room).runTask
  | e => some (b.answer conf e)

end Room

/-- An event resumes a task, or is answered at once. -/
theorem step_cases {conf : Conf} {b b' : Room} {e : Event} (moved : b.step conf e = some b') :
    (∃ i t, e = .resume i ∧ b.tasks[i]? = some t ∧
      b' = ({ b with tasks := b.tasks.eraseIdx i } : Room).runTask t) ∨
    (∀ i, e ≠ .resume i) ∧ b' = b.answer conf e := by
  cases e with
  | resume i =>
      simp only [Room.step, Option.map_eq_some_iff] at moved
      obtain ⟨t, found, rfl⟩ := moved
      exact .inl ⟨i, t, rfl, found, rfl⟩
  | _ => exact .inr ⟨nofun, (Option.some.inj moved).symm⟩

/-- The room that keeps the event of a winner's first round. -/
def Room.marked (b : Room) (p : Chair) : Room :=
  b.modify p fun pl => { pl with fixed_events := fixEvent pl.fixed_events (firstEvent b p) }

/-- The room in which a winner has laid out his last card. -/
def Room.laid (b : Room) (p : Chair) : Room :=
  (b.marked p).modify p fun pl => { pl with
    cards := pl.cards.dropLast
    hu_cards := pl.hu_cards ++ pl.cards.getLast?.toList
    status := .waiting }

/-- The settlement a win starts with. -/
structure Checkout.Starts (conf : Conf) (a : Room) (p : Chair) (c : Checkout) : Prop where
  winner : c.winner = p
  goldStart : c.goldStart = (a.players p).gold
  limit : c.winGoldMax = Room.getWinGoldMax conf a p c.multiple
  goldWin : c.goldWin = 0
  bills : c.bills = []
  recharging : c.recharging = false

/-- A win is refused, raises after its first round has been kept, or is settled. -/
theorem ssw_hu_cases {conf : Conf} (b : Room) (p : Chair) :
    b.ssw_hu conf p = b ∨ b.ssw_hu conf p = b.marked p ∨
      ∃ c, (b.players p).status = .playing ∧ 7 < (b.players p).cards.length ∧
        c.Starts conf (b.laid p) p ∧
        b.ssw_hu conf p = (b.laid p).checkout_and_bills c (List.finRange 4) := by
  simp only [Room.ssw_hu]
  split
  · exact .inl rfl
  rename_i playing
  rw [not_not] at playing
  split
  · exact .inl rfl
  · exact .inl rfl
  rename_i type multiple won
  have eighth : 7 < (b.players p).cards.length := by
    by_contra short
    have none := List.getElem?_eq_none (not_lt.mp short)
    simp [Player.check_hu, none] at won
  split
  · exact .inr (.inl rfl)
  · exact .inr (.inr ⟨_, playing, eighth, ⟨rfl, rfl, rfl, rfl, rfl, rfl⟩, rfl⟩)

end HuluLandlord.SevenSparrow
