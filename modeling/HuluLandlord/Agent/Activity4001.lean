import HuluLandlord.Agent.Consume
import HuluLandlord.Table
import Mathlib.Data.List.Sort

/-!
The gift for a bankrupt user. A loss that is announced to the agent opens an offer, and the purchase of the
gift it offers returns a part of the loss. The offer is in the user's record of activity 4001, in memory
and in the row of `UserActivityData`. Looking an offer up sorts the table of the gifts, not a copy of it.
-/
namespace HuluLandlord.Agent
open Transition Table

/-- A row of `cfg_bust_gift`, with the key it has there. -/
structure BustGift where
  id : Nat
  trigger_amount : Int
  return_ratio : Int
  store_id : Nat
  deriving DecidableEq, Repr

structure BustTable where
  rows : List BustGift
  tables : Tables
  numbered : rows.map BustGift.id = List.range' 1 rows.length
  ascending : rows.Pairwise fun a b => a.trigger_amount < b.trigger_amount
  counted : tables.items itemGold ≠ none

/-- The field `data4001` of a record. -/
structure GiftOffer where
  id : Nat
  isBuy : Bool
  gold : Int
  deriving DecidableEq, Repr

structure UserActData where
  startDt : Int
  endDt : Int
  open_ : Bool
  isBuy : Bool
  data4001 : Option GiftOffer
  deriving DecidableEq, Repr

/-- A loss that opened an offer. -/
structure GoldLoss where
  now : Int
  goldChange : Int
  deriving DecidableEq, Repr

/-- What a purchase returned: the beans that the bag gained, for the loss of that index. -/
structure GiftReturn where
  loss : Nat
  storeId : Nat
  now : Int
  gold : Int
  deriving DecidableEq, Repr

/-- `actOpen` is the field `open` of the activity's configuration, and `saved` the record in the database. -/
structure BustUser where
  bust_gift : List BustGift
  actOpen : Bool
  datas : Option UserActData
  saved : Option UserActData
  bag : Bag
  losses : List GoldLoss
  returns : List GiftReturn

inductive BustEvent
  | RoomGameLostGold (goldChange : Option Int) (now : Int)
  | UserStoreBuy (id : Nat) (now : Int)
  | reloadActiveConfig (actOpen : Bool)
  | login (actOpen : Bool)
  | spend (bag : Bag)

def orderBy {α : Type*} (arr : List α) (func : α → Int) : List α :=
  arr.insertionSort fun a b => func a ≤ func b

def addHours (val num : Int) : Int := val + 3600 * num

namespace BustGift

/-- The row for a loss: the first that reaches it, or else the last. -/
def offered (arr : List BustGift) (val : Int) : Option BustGift :=
  (arr.find? fun value => val ≤ value.trigger_amount).or arr.getLast?

def returned (sData : BustGift) (val : Int) : Int := val * sData.return_ratio / 10000

end BustGift

namespace BustUser

def getUserActData (s : BustUser) : UserActData := s.datas.getD ⟨0, 0, false, false, none⟩

def setUserActData (s : BustUser) (data : UserActData) : BustUser :=
  { s with datas := some data, saved := some data }

def openTriggerAct (s : BustUser) (func : UserActData → UserActData) : BustUser :=
  s.setUserActData { func s.getUserActData with open_ := true }

def stopAct (s : BustUser) (func : UserActData → UserActData) : BustUser :=
  s.setUserActData { func s.getUserActData with open_ := false }

def lostGold (s : BustUser) (val now : Int) : BustUser :=
  let arr := orderBy s.bust_gift BustGift.trigger_amount
  match BustGift.offered arr val with
  | none => { s with bust_gift := arr }
  | some sData =>
      { s with bust_gift := arr, losses := s.losses ++ [(⟨now, val⟩ : GoldLoss)] }.openTriggerAct fun uAct =>
        { uAct with
          startDt := now
          endDt := addHours now 2
          data4001 := some ⟨sData.id, false, sData.returned val⟩ }

variable (cfg : BustTable)

/-- The offer that a purchase takes up. Neither the record's `open_` nor its `endDt` is looked at. -/
def boughtOffer (s : BustUser) (id : Nat) : Option GiftOffer :=
  if cfg.rows.any (fun value => value.store_id = id) ∧ s.actOpen then
    s.getUserActData.data4001.filter fun data4001 => ¬data4001.isBuy ∧ data4001.id ≠ 0 ∧
      s.bust_gift[data4001.id - 1]?.any fun giftCfg => giftCfg.store_id = id
  else none

def returnGold (s : BustUser) (id : Nat) (now gold : Int) : BustUser :=
  let bag := s.bag.add cfg.tables now ⟨itemGold, gold⟩
  { s with
    bag
    returns := s.returns ++ [⟨s.losses.length - 1, id, now, bag.num itemGold - s.bag.num itemGold⟩] }

/-- The field that is set is not the offer's. -/
def takeUp (s : BustUser) (id : Nat) (now : Int) (data4001 : GiftOffer) : BustUser :=
  (if data4001.gold > 0 then s.returnGold cfg id now data4001.gold else s).stopAct fun uAct =>
    { uAct with isBuy := true }

def step (s : BustUser) : BustEvent → Option BustUser
  | .RoomGameLostGold goldChange now =>
      match goldChange with
      | none => some s
      | some val => some (if s.actOpen then s.lostGold val now else s)
  | .UserStoreBuy id now =>
      match s.boughtOffer cfg id with
      | none => some s
      | some data4001 => some (s.takeUp cfg id now data4001)
  | .reloadActiveConfig actOpen => some { s with actOpen }
  | .login actOpen => some { s with bust_gift := cfg.rows, actOpen, datas := s.saved }
  | .spend bag => some { s with bag }

/-- A user without a record of the activity. -/
def start (bag : Bag) : BustUser := ⟨cfg.rows, false, none, none, bag, [], []⟩

/-- Every loss returns beans at most once, for the gift it offers and within two hours. -/
structure ReturnedOnce (s : BustUser) : Prop where
  once : (s.returns.map GiftReturn.loss).Nodup
  offered : ∀ r ∈ s.returns, ∃ loss sData, s.losses[r.loss]? = some loss ∧
    BustGift.offered cfg.rows loss.goldChange = some sData ∧ r.storeId = sData.store_id ∧
    r.now ≤ loss.now + 7200 ∧ r.gold = loss.goldChange * sData.return_ratio / 10000

/-- Where an offer is taken up that returns beans, it is still open, and its time is not over. -/
def InTime (s : BustUser) : BustEvent → Prop
  | .UserStoreBuy id now => ∀ data4001 ∈ s.boughtOffer cfg id, data4001.gold > 0 →
      s.getUserActData.open_ = true ∧ now ≤ s.getUserActData.endDt
  | .RoomGameLostGold _ _ | .reloadActiveConfig _ | .login _ | .spend _ => True

section Offers
variable {cfg : BustTable} {s t : BustUser} {id : Nat} {now : Int} {data4001 : GiftOffer}

theorem orderBy_rows : orderBy cfg.rows BustGift.trigger_amount = cfg.rows :=
  (cfg.ascending.imp le_of_lt).insertionSort_eq

theorem offered_row {val : Int} {sData : BustGift} (found : BustGift.offered cfg.rows val = some sData) :
    sData.id ≠ 0 ∧ cfg.rows[sData.id - 1]? = some sData := by
  have mem : sData ∈ cfg.rows := by
    obtain reached | ⟨-, last⟩ := Option.or_eq_some_iff.mp found
    · exact List.mem_of_find?_eq_some reached
    · exact List.mem_of_getLast? last
  obtain ⟨i, row⟩ := List.mem_iff_getElem?.mp mem
  have key := numbered_key cfg.numbered row
  exact ⟨by omega, (mem_numbered cfg.numbered).mp mem⟩

theorem num_add_gold (bag : Bag) {gold : Int} (positive : 0 < gold) :
    (bag.add cfg.tables now ⟨itemGold, gold⟩).num itemGold - bag.num itemGold = gold := by
  have added : ¬(gold ≤ 0 ∨ cfg.tables.items itemGold = none) :=
    not_or.mpr ⟨not_le.mpr positive, cfg.counted⟩
  rw [Bag.add, if_neg added, if_pos (.inl rfl)]
  simp [Bag.num, Bag.find, Bag.setNum]

/-- The offer is that of the last loss. -/
structure OfferOf (cfg : BustTable) (s : BustUser) (data4001 : GiftOffer) (loss : GoldLoss)
    (sData : BustGift) : Prop where
  last : s.losses[s.losses.length - 1]? = some loss
  offered : BustGift.offered cfg.rows loss.goldChange = some sData
  made : data4001 = ⟨sData.id, false, sData.returned loss.goldChange⟩
  ends : s.getUserActData.endDt = loss.now + 7200
  taken : s.losses.length - 1 ∈ s.returns.map GiftReturn.loss ↔
    s.getUserActData.open_ = false ∧ 0 < data4001.gold

structure OfferInv (cfg : BustTable) (s : BustUser) : Prop where
  table : s.bust_gift = cfg.rows
  saved : s.saved = s.datas
  earlier : ∀ r ∈ s.returns, r.loss < s.losses.length
  offer : ∀ data4001 ∈ s.getUserActData.data4001, ∃ loss sData, OfferOf cfg s data4001 loss sData

/-- The losses, the returns and the record have not changed. -/
theorem OfferInv.same (inv : OfferInv cfg s) (table : t.bust_gift = cfg.rows) (saved : t.saved = t.datas)
    (losses : t.losses = s.losses) (returns : t.returns = s.returns)
    (record : t.getUserActData = s.getUserActData) : OfferInv cfg t := by
  refine ⟨table, saved, ?_, fun data4001 made => ?_⟩
  · rw [losses, returns]
    exact inv.earlier
  · rw [record] at made
    obtain ⟨loss, sData, of⟩ := inv.offer data4001 made
    refine ⟨loss, sData, ?_, of.offered, of.made, record ▸ of.ends, ?_⟩
    · rw [losses]
      exact of.last
    · rw [losses, returns, record]
      exact of.taken

theorem boughtOffer_of (inv : OfferInv cfg s) (found : s.boughtOffer cfg id = some data4001) :
    s.getUserActData.data4001 = some data4001 ∧
    ∃ loss sData, OfferOf cfg s data4001 loss sData ∧ sData.store_id = id := by
  rw [boughtOffer] at found
  split at found
  · obtain ⟨offer, checks⟩ := Option.filter_eq_some_iff.mp found
    obtain ⟨loss, sData, made⟩ := inv.offer data4001 offer
    obtain ⟨-, -, gift⟩ := of_decide_eq_true checks
    have row := (offered_row made.offered).2
    rw [inv.table, made.made] at gift
    dsimp only at gift
    rw [row, Option.any_some] at gift
    exact ⟨offer, loss, sData, made, of_decide_eq_true gift⟩
  · cases found

theorem offerInv_lostGold {val : Int} (inv : OfferInv cfg s) : OfferInv cfg (s.lostGold val now) := by
  have sorted : orderBy s.bust_gift BustGift.trigger_amount = cfg.rows := by
    rw [inv.table]
    exact orderBy_rows
  rw [lostGold, sorted]
  cases here : BustGift.offered cfg.rows val with
  | none => exact inv.same rfl inv.saved rfl rfl rfl
  | some sData =>
      refine ⟨rfl, rfl, fun r mem => ?_, fun data4001 made => ?_⟩
      · have before := inv.earlier r mem
        exact (List.length_append ..).symm ▸ Nat.lt_add_right 1 before
      · obtain rfl := Option.some.inj made
        refine ⟨⟨now, val⟩, sData, ?_, here, rfl, rfl, iff_of_false ?_ nofun⟩
        · simp [openTriggerAct, setUserActData]
        · intro again
          obtain ⟨r, mem, same⟩ := List.mem_map.mp again
          have before := inv.earlier r mem
          simp [openTriggerAct, setUserActData] at same
          omega

theorem offerInv_takeUp (inv : OfferInv cfg s) (found : s.boughtOffer cfg id = some data4001) :
    OfferInv cfg (s.takeUp cfg id now data4001) := by
  obtain ⟨offer, loss, sData, made, -⟩ := boughtOffer_of inv found
  have inside : s.losses.length - 1 < s.losses.length := (List.getElem?_eq_some_iff.mp made.last).1
  rw [takeUp]
  split
  · rename_i positive
    refine ⟨inv.table, rfl, ?_, fun d kept => ?_⟩
    · exact List.forall_mem_append.mpr ⟨inv.earlier, List.forall_mem_singleton.mpr inside⟩
    · obtain rfl := Option.some.inj (offer.symm.trans kept)
      refine ⟨loss, sData, made.last, made.offered, made.made, made.ends, iff_of_true ?_ ⟨rfl, positive⟩⟩
      exact List.mem_map.mpr ⟨_, List.mem_append_right _ List.mem_cons_self, rfl⟩
  · rename_i nothing
    refine ⟨inv.table, rfl, inv.earlier, fun d kept => ?_⟩
    obtain rfl := Option.some.inj (offer.symm.trans kept)
    refine ⟨loss, sData, made.last, made.offered, made.made, made.ends, iff_of_false ?_ ?_⟩
    · exact fun again => nothing (made.taken.mp again).2
    · exact fun both => nothing both.2

theorem offerInv_step {e : BustEvent} (inv : OfferInv cfg s) (moved : s.step cfg e = some t) :
    OfferInv cfg t := by
  cases e with
  | RoomGameLostGold goldChange now =>
      cases goldChange with
      | none => exact Option.some.inj moved ▸ inv
      | some val =>
          obtain rfl := Option.some.inj moved
          split
          · exact offerInv_lostGold inv
          · exact inv
  | UserStoreBuy id now =>
      rw [step] at moved
      split at moved
      · exact Option.some.inj moved ▸ inv
      · rename_i found
        exact Option.some.inj moved ▸ offerInv_takeUp inv found
  | reloadActiveConfig actOpen | spend bag =>
      obtain rfl := Option.some.inj moved
      exact inv.same inv.table inv.saved rfl rfl rfl
  | login actOpen =>
      obtain rfl := Option.some.inj moved
      exact inv.same rfl rfl rfl rfl (congrArg (Option.getD · _) inv.saved)

theorem inv_start {bag : Bag} : OfferInv cfg (start cfg bag) :=
  ⟨rfl, rfl, fun r mem => absurd mem List.not_mem_nil, nofun⟩

/-- Nothing is returned, and the losses are still there. -/
theorem returnedOnce_same (returns : t.returns = s.returns)
    (losses : ∀ r ∈ s.returns, t.losses[r.loss]? = s.losses[r.loss]?) :
    ReturnedOnce cfg t ↔ ReturnedOnce cfg s := by
  constructor
  · intro whole
    refine ⟨returns ▸ whole.once, fun r mem => ?_⟩
    rw [← losses r mem]
    exact whole.offered r (returns ▸ mem)
  · intro whole
    refine ⟨returns ▸ whole.once, fun r mem => ?_⟩
    rw [returns] at mem
    rw [losses r mem]
    exact whole.offered r mem

theorem returnedOnce_lostGold {val : Int} (inv : OfferInv cfg s) :
    ReturnedOnce cfg (s.lostGold val now) ↔ ReturnedOnce cfg s := by
  rw [lostGold]
  cases BustGift.offered (orderBy s.bust_gift BustGift.trigger_amount) val with
  | none => exact returnedOnce_same rfl fun _ _ => rfl
  | some sData => exact returnedOnce_same rfl fun r mem => List.getElem?_append_left (inv.earlier r mem)

theorem returnedOnce_returnGold {loss : GoldLoss} {sData : BustGift}
    (of : OfferOf cfg s data4001 loss sData) (gift : sData.store_id = id) (positive : 0 < data4001.gold) :
    ReturnedOnce cfg (s.returnGold cfg id now data4001.gold) ↔
      ReturnedOnce cfg s ∧ s.getUserActData.open_ = true ∧ now ≤ s.getUserActData.endDt := by
  constructor
  · intro whole
    obtain ⟨new, once⟩ := nodup_map_snoc.mp whole.once
    obtain ⟨before, last⟩ := List.forall_mem_append.mp whole.offered
    obtain ⟨loss', sData', there, -, -, inTime, -⟩ := List.forall_mem_singleton.mp last
    obtain rfl := Option.some.inj (of.last.symm.trans there)
    refine ⟨⟨once, before⟩, ?_, of.ends ▸ inTime⟩
    by_contra closed
    exact new (of.taken.mpr ⟨Bool.eq_false_of_not_eq_true closed, positive⟩)
  · rintro ⟨whole, opened, inTime⟩
    refine ⟨nodup_map_snoc.mpr ⟨fun again => ?_, whole.once⟩, List.forall_mem_append.mpr
      ⟨whole.offered, List.forall_mem_singleton.mpr ?_⟩⟩
    · have closed := (of.taken.mp again).1
      exact absurd (opened.symm.trans closed) Bool.noConfusion
    · refine ⟨loss, sData, of.last, of.offered, gift.symm, of.ends ▸ inTime, ?_⟩
      calc (s.bag.add cfg.tables now ⟨itemGold, data4001.gold⟩).num itemGold - s.bag.num itemGold
          = data4001.gold := num_add_gold s.bag positive
        _ = sData.returned loss.goldChange := congrArg GiftOffer.gold of.made

theorem returnedOnce_takeUp (inv : OfferInv cfg s) (found : s.boughtOffer cfg id = some data4001) :
    ReturnedOnce cfg (s.takeUp cfg id now data4001) ↔ ReturnedOnce cfg s ∧
      (data4001.gold > 0 → s.getUserActData.open_ = true ∧ now ≤ s.getUserActData.endDt) := by
  obtain ⟨-, loss, sData, of, gift⟩ := boughtOffer_of inv found
  have stopped (u : BustUser) : ReturnedOnce cfg (u.stopAct fun uAct => { uAct with isBuy := true }) ↔
      ReturnedOnce cfg u := returnedOnce_same rfl fun _ _ => rfl
  rw [takeUp, stopped]
  by_cases positive : data4001.gold > 0
  · rw [if_pos positive, forall_prop_of_true positive]
    exact returnedOnce_returnGold of gift positive
  · rw [if_neg positive, forall_prop_of_false positive, and_true]

theorem returnedOnce_step {e : BustEvent} (inv : OfferInv cfg s) (moved : s.step cfg e = some t) :
    ReturnedOnce cfg t ↔ ReturnedOnce cfg s ∧ s.InTime cfg e := by
  cases e with
  | RoomGameLostGold goldChange now =>
      rw [InTime, and_true]
      cases goldChange with
      | none =>
          obtain rfl := Option.some.inj moved
          exact Iff.rfl
      | some val =>
          obtain rfl := Option.some.inj moved
          split
          · exact returnedOnce_lostGold inv
          · exact Iff.rfl
  | UserStoreBuy id now =>
      rw [step] at moved
      rw [InTime]
      cases found : s.boughtOffer cfg id with
      | none =>
          rw [found] at moved
          obtain rfl := Option.some.inj moved
          simp
      | some data4001 =>
          rw [found] at moved
          obtain rfl := Option.some.inj moved
          simpa using returnedOnce_takeUp inv found
  | reloadActiveConfig actOpen | login actOpen | spend bag =>
      obtain rfl := Option.some.inj moved
      rw [InTime, and_true]
      exact returnedOnce_same rfl fun _ _ => rfl

/-- The runs whose purchases are in time are those whose losses return beans once, for the gifts they
offered and within two hours. -/
theorem run_bust {bag : Bag} {es : List BustEvent} (run : Run (step cfg) anyStep (start cfg bag) es s) :
    Run (step cfg) (InTime cfg) (start cfg bag) es s ↔ ReturnedOnce cfg s := by
  refine Run.holds_iff (ReturnedOnce cfg) ⟨.nil, fun r mem => absurd mem List.not_mem_nil⟩ ?_ run
  intro front t e u before _ moved
  exact returnedOnce_step (before.invariant (OfferInv cfg) inv_start fun _ _ _ inv _ moved =>
    offerInv_step inv moved) moved

end Offers

/-- The rows as they are configured. -/
def cfg_bust_gift : BustTable where
  rows := [⟨1, 880000, 10000, 800027⟩, ⟨2, 1080000, 10000, 800028⟩, ⟨3, 2088000, 10000, 800029⟩,
    ⟨4, 2688000, 10000, 800030⟩, ⟨5, 3280000, 10000, 800031⟩, ⟨6, 88000000, 10000, 800032⟩,
    ⟨7, 528000000, 10000, 800033⟩, ⟨8, 1080000000, 10000, 800034⟩, ⟨9, 1280000000, 10000, 800035⟩,
    ⟨10, 1580000000, 10000, 800036⟩, ⟨11, 1880000000, 10000, 800037⟩, ⟨12, 2080000000, 10000, 800038⟩,
    ⟨13, 2280000000, 10000, 800039⟩, ⟨14, 2580000000, 10000, 800040⟩, ⟨15, 2880000000, 10000, 800041⟩,
    ⟨16, 3080000000, 10000, 800042⟩]
  tables := runeTables
  numbered := rfl
  ascending := by decide
  counted := nofun

def brokeBag : Bag := ⟨0, 0, 0, fun _ => none⟩

/-- A loss, the purchase of another gift and of the one it offers, and a second loss. -/
def bustEvents : List BustEvent :=
  [.login true, .RoomGameLostGold (some 900000) 100, .UserStoreBuy 800027 200, .login true,
    .UserStoreBuy 800028 7300, .RoomGameLostGold (some 4000000000) 8000, .UserStoreBuy 800042 8001]

theorem run_bust_bought : ∃ s,
    Run (step cfg_bust_gift) anyStep (start cfg_bust_gift brokeBag) bustEvents s ∧
    (s.returns = [⟨0, 800028, 7300, 900000⟩, ⟨1, 800042, 8001, 4000000000⟩] ∧
      s.bag.num itemGold = 4000900000) ∧
    (Run (step cfg_bust_gift) (InTime cfg_bust_gift) (start cfg_bust_gift brokeBag) bustEvents s ↔
      ReturnedOnce cfg_bust_gift s) := by
  obtain ⟨s, run, shown⟩ := run_of_exec_any (step cfg_bust_gift) (start cfg_bust_gift brokeBag) bustEvents
    (fun s => s.returns = [⟨0, 800028, 7300, 900000⟩, ⟨1, 800042, 8001, 4000000000⟩] ∧
      s.bag.num itemGold = 4000900000) (by decide)
  exact ⟨s, run, shown, run_bust run⟩

/-- The gift is bought again, the next day. -/
theorem bust_fail : ¬∀ (cfg : BustTable) (bag : Bag) (es : List BustEvent) (s : BustUser),
    Run (step cfg) anyStep (start cfg bag) es s → ReturnedOnce cfg s := by
  intro all
  obtain ⟨s, run, again⟩ := run_of_exec_any (step cfg_bust_gift) (start cfg_bust_gift brokeBag)
    [.login true, .RoomGameLostGold (some 900000) 100, .UserStoreBuy 800028 200, .UserStoreBuy 800028 86600]
    (fun s => s.returns = [⟨0, 800028, 200, 900000⟩, ⟨0, 800028, 86600, 900000⟩]) (by decide)
  have once := (all cfg_bust_gift brokeBag _ s run).once
  rw [again] at once
  exact (List.nodup_cons.mp once).1 List.mem_cons_self

end BustUser

end HuluLandlord.Agent
