import HuluLandlord.Agent.UserItem
import HuluLandlord.Define
import HuluLandlord.Transition
import HuluLandlord.Table

/-!
Gifts between friends. A friendship is a row for each of the two, and here it begins and ends
with both at once. A gift is a row of its own until the receiver looks at his friends on a later
day, and an index in the row the receiver has of the sender. Gifts have numbers, in `sent` all
that were sent, and in `collected` those that were collected; what is in a gift is handed out
elsewhere. Hours are counted in a zone without changes.
-/
namespace HuluLandlord.Agent
open Transition Table

/-- A row of `cfg_friend_vaule`. -/
structure FriendLvRow where
  exp : Int
  unlock_items : List Entry

/-- `cfg_friend_vaule` by level, and the entries 102001 and 102005 of `globalCfg`; a vip never
gets less. -/
structure GiftCfg where
  zone : Int
  row : Nat → Option FriendLvRow
  friendLvMax : Nat
  val : Nat
  valVip : Nat
  val_le : val ≤ valVip

/-- What `id` has of his friend `uId`. -/
structure FriendData where
  friendVal : Int
  friendLv : Nat
  isSendGift : Bool
  giftIndex : Int
  deriving DecidableEq, Repr

structure GiftRow where
  uid : UserId
  tarid : UserId
  gifttime : Int
  deriving DecidableEq, Repr

structure GiftUser where
  vip : Bool
  auto_gift : Bool
  friend_gift_num : Nat
  friend_gift_reset_at : Int
  deriving DecidableEq, Repr

structure SentGift where
  no : Nat
  row : GiftRow
  deriving DecidableEq, Repr

structure CollectedGift where
  no : Nat
  uId : UserId
  dt : Int
  gift : Entry
  deriving DecidableEq, Repr

structure GiftState where
  now : Int
  friend : UserId → UserId → Option FriendData
  gifts : List GiftRow
  users : UserId → GiftUser
  sent : List SentGift
  collected : List CollectedGift

inductive GiftRet
  | succeed_1 | fail_2 | error_3 | notExists_5 | noUse_8 | other_9 | other_10
  deriving DecidableEq, Repr

inductive GiftEvent
  | tick (d : Nat)
  | befriend (id uId : UserId)
  | remove (id uId : UserId)
  | vip (id : UserId)
  | auto_gift (id : UserId) (auto : Bool)
  | GetUserFriendDatas (me : UserId)
  | FriendSendGift (me id : UserId) (index : Int)
  | FriendGetGift (me : UserId) (idArr : Option (List UserId))
  deriving DecidableEq, Repr

namespace GiftCfg
variable (cfg : GiftCfg)

/-- `get_refresh_time`: the last midnight. -/
def get_refresh_time (now : Int) : Int := now - (now + cfg.zone) % 86400

/-- `GetRefreshTime`: the next five o'clock. -/
def GetRefreshTime (now : Int) : Int :=
  let refresh_time := cfg.get_refresh_time now + 18000
  if refresh_time < now then refresh_time + 86400 else refresh_time

/-- How many gifts may be sent, and collected, on a day. -/
def maxgift (u : GiftUser) : Nat := if u.vip then cfg.valVip else cfg.val

/-- `unlock_items` of a level at an index, which is counted from one. -/
def unlock (friendLv : Nat) (index : Int) : Option Entry :=
  (cfg.row friendLv).bind fun sData =>
    if 1 ≤ index then sData.unlock_items[(index - 1).toNat]? else none

/-- The loop of `addExp`, with the number of levels there may still be. -/
def raiseFriendLv (friendVal : Int) : Nat → Nat → Nat
  | lv, 0 => lv
  | lv, n + 1 => match cfg.row lv with
      | none => lv
      | some sData => if friendVal ≥ sData.exp then raiseFriendLv friendVal (lv + 1) n else lv

def addExp (target : FriendData) (num : Int) : FriendData :=
  let friendVal := target.friendVal + num
  { target with
    friendVal := friendVal
    friendLv := cfg.raiseFriendLv friendVal target.friendLv (cfg.friendLvMax - target.friendLv) }

end GiftCfg

namespace GiftState
variable (cfg : GiftCfg)

/-- `dbx.update` of a row of a friend. -/
def update (s : GiftState) (id uId : UserId) (f : FriendData → FriendData) : GiftState :=
  { s with friend := fun a b => if a = id ∧ b = uId then (s.friend a b).map f else s.friend a b }

def setUser (s : GiftState) (id : UserId) (u : GiftUser) : GiftState :=
  { s with users := Function.update s.users id u }

/-- `FriendExpAdd`, and whether it finds both rows. -/
def FriendExpAdd (s : GiftState) (uId friendId : UserId) (num : Int) : GiftState × Bool :=
  match s.friend uId friendId with
  | none => (s, false)
  | some uData =>
      let s := s.update uId friendId fun _ => cfg.addExp uData num
      match s.friend friendId uId with
      | none => (s, false)
      | some friendData => (s.update friendId uId fun _ => cfg.addExp friendData num, true)

/-- `SendGift`; it raises when a row is missing. -/
def SendGift (s : GiftState) (me fid : UserId) (giftidx : Int) : GiftState × Bool :=
  match s.FriendExpAdd cfg me fid 1 with
  | (s, false) => (s, false)
  | (s, true) =>
      let row : GiftRow := ⟨me, fid, s.now⟩
      let s : GiftState :=
        { s with gifts := s.gifts ++ [row], sent := s.sent ++ [⟨s.sent.length, row⟩] }
      let s := s.update me fid fun fd => { fd with isSendGift := true }
      (s.update fid me fun fd => { fd with giftIndex := giftidx }, true)

/-- The gift row `find_one` finds for a friend. -/
def dbgift (gifts : List GiftRow) (me id : UserId) : Option GiftRow :=
  gifts.find? fun d => d.uid = me ∧ d.tarid = id

/-- The row that is found is of today. -/
def hasSent (gifts : List GiftRow) (refresh_time : Int) (me id : UserId) : Bool :=
  (dbgift gifts me id).any fun d => d.gifttime ≥ refresh_time

/-- How many gifts a user has sent today. -/
def arrtoday (gifts : List GiftRow) (refresh_time : Int) (me : UserId) : Nat :=
  gifts.countP fun d => d.uid = me ∧ d.gifttime > refresh_time

def FriendSendGift (s : GiftState) (me id : UserId) (index : Int) : GiftState × GiftRet :=
  let refresh_time := cfg.get_refresh_time s.now
  match s.friend me id with
  | none => (s, .notExists_5)
  | some target =>
      if hasSent s.gifts refresh_time me id then (s, .fail_2)
      else if arrtoday s.gifts refresh_time me ≥ cfg.maxgift (s.users me) then (s, .other_10)
      else if cfg.unlock target.friendLv index = none then (s, .noUse_8)
      else match s.SendGift cfg me id index with
        | (s, true) => (s, .succeed_1)
        | (s, false) => (s, .error_3)

/-- The friends of a request, each with a gift. -/
def fdArr (s : GiftState) (me : UserId) : List UserId → Except GiftRet (List (UserId × FriendData))
  | [] => .ok []
  | fid :: fids => match s.friend me fid with
      | none => .error .notExists_5
      | some fd =>
          if fd.giftIndex = 0 then .error .other_9
          else (s.fdArr me fids).map fun arr => (fid, fd) :: arr

def CheckGetGiftLimit (s : GiftState) (me : UserId) : Bool :=
  (s.users me).friend_gift_num ≥ cfg.maxgift (s.users me)

def UpdateGetGiftNum (s : GiftState) (me : UserId) (reward_num : Nat) : GiftState :=
  let u := s.users me
  let u := if s.now > u.friend_gift_reset_at then
    { u with friend_gift_num := 0, friend_gift_reset_at := cfg.GetRefreshTime s.now } else u
  s.setUser me { u with friend_gift_num := u.friend_gift_num + reward_num }

/-- The number of the last gift between two users. -/
def lastGift (sent : List SentGift) (uid tarid : UserId) : Option SentGift :=
  (sent.filter fun g => g.row.uid = uid ∧ g.row.tarid = tarid).getLast?

/-- The loop of `FriendGetGift` that takes the gifts. -/
def take (me : UserId) : GiftState → List (UserId × FriendData) → GiftState
  | s, [] => s
  | s, (uId, fd) :: arr => match cfg.unlock fd.friendLv fd.giftIndex with
      | none => take me s arr
      | some gift =>
          let s : GiftState := { s with
            collected := s.collected ++
              [⟨((lastGift s.sent uId me).map SentGift.no).getD 0, me, s.now, gift⟩] }
          let s := s.update me uId fun fd => { fd with giftIndex := 0 }
          take me (s.FriendExpAdd cfg me uId 1).1 arr

/-- `CheckAutoGift`: how many gifts may be returned. -/
def CheckAutoGift (s : GiftState) (me : UserId) (refresh_time : Int) : Nat :=
  if (s.users me).auto_gift then
    cfg.maxgift (s.users me) - arrtoday s.gifts refresh_time me else 0

/-- The loop that returns gifts, `left` of them at most. -/
def giveBack (me : UserId) (refresh_time : Int) :
    GiftState → List (UserId × FriendData) → Nat → GiftState × Bool
  | s, [], _ => (s, true)
  | s, _ :: _, 0 => (s, true)
  | s, (uId, fd) :: arr, left + 1 =>
      if hasSent s.gifts refresh_time me uId then giveBack me refresh_time s arr (left + 1)
      else match s.SendGift cfg me uId fd.giftIndex with
        | (s, true) => giveBack me refresh_time s arr left
        | (s, false) => (s, false)

def FriendGetGift (s : GiftState) (me : UserId) (idArr : Option (List UserId)) :
    GiftState × GiftRet :=
  match idArr with
  | none => (s, .error_3)
  | some fids => match s.fdArr me fids with
      | .error ret => (s, ret)
      | .ok arr =>
          if s.CheckGetGiftLimit cfg me then (s, .other_10)
          else
            let s := (take cfg me s arr).UpdateGetGiftNum cfg me 1
            let refresh_time := cfg.get_refresh_time s.now
            match giveBack cfg me refresh_time s arr (s.CheckAutoGift cfg me refresh_time) with
            | (s, true) => (s, .succeed_1)
            | (s, false) => (s, .error_3)

/-- `checkResetGift`: the gifts of the days before are gone. -/
def checkResetGift (s : GiftState) (me : UserId) : GiftState :=
  let refresh_time := cfg.get_refresh_time s.now
  let old : GiftRow → Bool := fun d => d.tarid = me ∧ d.gifttime < refresh_time
  { s with
    friend := fun a b =>
      if a = me ∧ s.gifts.any (fun d => old d && d.uid = b) then
        (s.friend a b).map fun fd => { fd with giftIndex := 0 }
      else s.friend a b
    gifts := s.gifts.filter fun d => !old d }

def GetUserFriendDatas (s : GiftState) (me : UserId) : GiftState :=
  let s := s.checkResetGift cfg me
  let refresh_time := cfg.get_refresh_time s.now
  let s : GiftState := { s with
    friend := fun a b =>
      if a = me then (s.friend a b).map fun uData => { uData with
        isSendGift := s.gifts.any fun d => d.uid = me ∧ d.tarid = b ∧ d.gifttime ≥ refresh_time }
      else s.friend a b }
  s.UpdateGetGiftNum cfg me 0

def newFriend : FriendData := ⟨0, 0, false, 0⟩

def step (s : GiftState) (e : GiftEvent) : Option GiftState :=
  match e with
  | .tick d => some { s with now := s.now + d }
  | .befriend id uId =>
      if s.friend id uId = none ∧ s.friend uId id = none ∧ id ≠ uId then
        some { s with friend := fun a b =>
          if (a = id ∧ b = uId) ∨ (a = uId ∧ b = id) then some newFriend else s.friend a b }
      else none
  | .remove id uId => some { s with friend := fun a b =>
      if (a = id ∧ b = uId) ∨ (a = uId ∧ b = id) then none else s.friend a b }
  | .vip id => some (s.setUser id { s.users id with vip := true })
  | .auto_gift id auto => some (s.setUser id { s.users id with auto_gift := auto })
  | .GetUserFriendDatas me => some (s.GetUserFriendDatas cfg me)
  | .FriendSendGift me id index => some (s.FriendSendGift cfg me id index).1
  | .FriendGetGift me idArr => some (s.FriendGetGift cfg me idArr).1

/-- Nobody has friends yet, or has collected a gift. -/
def start (now : Int) (vip : UserId → Bool) : GiftState :=
  ⟨now, fun _ _ => none, [], fun id => ⟨vip id, true, 0, 0⟩, [], []⟩

end GiftState

/-- A gift a day to a friend, no gift collected twice, and no more on a day than allowed. -/
structure Gifted (cfg : GiftCfg) (s : GiftState) : Prop where
  daily : (s.sent.map fun g =>
    (g.row.uid, g.row.tarid, cfg.get_refresh_time g.row.gifttime)).Nodup
  once : (s.collected.map CollectedGift.no).Nodup
  limit : ∀ id day, s.collected.countP (fun c => c.uId = id ∧ cfg.GetRefreshTime c.dt = day) ≤
    cfg.maxgift (s.users id)

namespace GiftState
variable (cfg : GiftCfg)

/-- No gift of today has been sent to a friend. -/
def NotToday (gifts : List GiftRow) (refresh_time : Int) (me id : UserId) : Prop :=
  ∀ d ∈ gifts, d.uid = me → d.tarid = id → d.gifttime < refresh_time

/-- `FriendSendGift` passes its checks. -/
def Sends (s : GiftState) (me id : UserId) (index : Int) : Prop :=
  ∃ target ∈ s.friend me id, hasSent s.gifts (cfg.get_refresh_time s.now) me id = false ∧
    arrtoday s.gifts (cfg.get_refresh_time s.now) me < cfg.maxgift (s.users me) ∧
    cfg.unlock target.friendLv index ≠ none

/-- Those whose gifts a request takes. -/
def taken (arr : List (UserId × FriendData)) : List UserId :=
  (arr.filter fun f => (cfg.unlock f.2.friendLv f.2.giftIndex).isSome).map Prod.fst

/-- A gift is only returned to a friend who has got none today. -/
def GivesOnce (me : UserId) (now refresh_time : Int) :
    List GiftRow → List UserId → Nat → Prop
  | _, [], _ => True
  | _, _ :: _, 0 => True
  | gifts, uId :: arr, left + 1 =>
      if hasSent gifts refresh_time me uId then GivesOnce me now refresh_time gifts arr (left + 1)
      else NotToday gifts refresh_time me uId ∧
        GivesOnce me now refresh_time (gifts ++ [⟨me, uId, now⟩]) arr left

/-- A gift is only sent to a friend who has got none today, and only so many are taken, from
as many friends, as the day has left. -/
def Sparing (s : GiftState) : GiftEvent → Prop
  | .FriendSendGift me id index => s.Sends cfg me id index →
      NotToday s.gifts (cfg.get_refresh_time s.now) me id
  | .FriendGetGift me idArr => ∀ fids ∈ idArr, ∀ arr, s.fdArr me fids = .ok arr →
      s.CheckGetGiftLimit cfg me = false →
        (taken cfg arr).Nodup ∧
        s.collected.countP (fun c =>
            c.uId = me ∧ cfg.GetRefreshTime c.dt = cfg.GetRefreshTime s.now) +
          (taken cfg arr).length ≤ cfg.maxgift (s.users me) ∧
        GivesOnce me s.now (cfg.get_refresh_time s.now) s.gifts (arr.map Prod.fst)
          (s.CheckAutoGift cfg me (cfg.get_refresh_time s.now))
  | _ => True

/-- A gift is only sent to a friend who has got none today, and a request takes one gift at
most. -/
def Single (s : GiftState) : GiftEvent → Prop
  | .FriendSendGift me id index => s.Sends cfg me id index →
      NotToday s.gifts (cfg.get_refresh_time s.now) me id
  | .FriendGetGift me idArr => ∀ fids ∈ idArr, ∀ arr, s.fdArr me fids = .ok arr →
      s.CheckGetGiftLimit cfg me = false →
        (taken cfg arr).length ≤ 1 ∧
        GivesOnce me s.now (cfg.get_refresh_time s.now) s.gifts (arr.map Prod.fst)
          (s.CheckAutoGift cfg me (cfg.get_refresh_time s.now))
  | _ => True

end GiftState

namespace GiftCfg
variable {cfg : GiftCfg} {t now : Int}

theorem refresh_le : cfg.get_refresh_time t ≤ t := by
  rw [get_refresh_time]
  omega

theorem refresh_mono (later : t ≤ now) : cfg.get_refresh_time t ≤ cfg.get_refresh_time now := by
  rw [get_refresh_time, get_refresh_time]
  omega

/-- A time of today is a time of the same day. -/
theorem refresh_today (today : cfg.get_refresh_time now ≤ t) (past : t ≤ now) :
    cfg.get_refresh_time t = cfg.get_refresh_time now := by
  rw [get_refresh_time] at today
  rw [get_refresh_time, get_refresh_time]
  omega

theorem le_GetRefreshTime : now ≤ cfg.GetRefreshTime now := by
  rw [GetRefreshTime, get_refresh_time]
  split <;> omega

/-- Until the next five o'clock it is the next one. -/
theorem GetRefreshTime_same (past : t ≤ now) (open_ : now ≤ cfg.GetRefreshTime t) :
    cfg.GetRefreshTime t = cfg.GetRefreshTime now := by
  rw [GetRefreshTime, get_refresh_time] at open_
  rw [GetRefreshTime, GetRefreshTime, get_refresh_time, get_refresh_time]
  split at open_ <;> split <;> split <;> omega

theorem maxgift_vip {u v : GiftUser} (same : u.vip = v.vip) : cfg.maxgift u = cfg.maxgift v := by
  rw [maxgift, maxgift, same]

end GiftCfg

namespace GiftState

/-- The gift in a row of a friend. -/
def index (s : GiftState) (a b : UserId) : Option Int := (s.friend a b).map FriendData.giftIndex

/-- What holds of the gifts in all states: what is of today has a row, and what can be collected
is the last gift, which has not been. -/
structure GiftInv (cfg : GiftCfg) (s : GiftState) : Prop where
  both : ∀ a b, (s.index a b).isSome = (s.index b a).isSome
  numbers : (s.sent.map SentGift.no).Nodup
  below : ∀ g ∈ s.sent, g.no < s.sent.length
  known : ∀ no ∈ s.collected.map CollectedGift.no, no < s.sent.length
  past : ∀ g ∈ s.sent, g.row.gifttime ≤ s.now
  rows : ∀ d ∈ s.gifts, ∃ g ∈ s.sent, g.row = d
  kept : ∀ g ∈ s.sent, cfg.get_refresh_time s.now ≤ g.row.gifttime → g.row ∈ s.gifts
  pending : ∀ a b k, s.index a b = some k → k ≠ 0 →
    ∃ g, lastGift s.sent b a = some g ∧ g.no ∉ s.collected.map CollectedGift.no

/-- The gifts that were sent are one a day to a friend. -/
def Daily (cfg : GiftCfg) (sent : List SentGift) : Prop :=
  (sent.map fun g => (g.row.uid, g.row.tarid, cfg.get_refresh_time g.row.gifttime)).Nodup

section Rows
variable {cfg : GiftCfg} {s s' : GiftState} {me fid a b : UserId} {giftidx : Int}
  {f : FriendData → FriendData}

theorem index_update : (s.update me fid f).index a b =
    if a = me ∧ b = fid then (s.friend a b).map fun fd => (f fd).giftIndex else s.index a b := by
  rw [index, update]
  simp only
  split
  · rw [Option.map_map]
    rfl
  · rfl

theorem isSome_index : (s.index a b).isSome = (s.friend a b).isSome := Option.isSome_map ..

theorem index_kept (kept : ∀ fd, s.friend me fid = some fd → (f fd).giftIndex = fd.giftIndex) :
    (s.update me fid f).index = s.index := by
  funext a b
  rw [index_update]
  split
  · rename_i here
    obtain ⟨rfl, rfl⟩ := here
    rw [index]
    cases row : s.friend a b with
    | none => rfl
    | some fd => exact congrArg some (kept fd row)
  · rfl

/-- Experience changes no gift. -/
theorem FriendExpAdd_frame {num : Int} : ∃ friend,
    (s.FriendExpAdd cfg me fid num).1 = { s with friend := friend } ∧
      (s.FriendExpAdd cfg me fid num).1.index = s.index ∧
      ((s.index me fid).isSome = true → (s.index fid me).isSome = true →
        (s.FriendExpAdd cfg me fid num).2 = true) := by
  rw [FriendExpAdd]
  cases row : s.friend me fid with
  | none =>
      refine ⟨s.friend, rfl, rfl, fun there => ?_⟩
      rw [isSome_index, row] at there
      cases there
  | some uData =>
      have first : (s.update me fid fun _ => cfg.addExp uData num).index = s.index := by
        refine index_kept fun fd here => ?_
        obtain rfl := Option.some.inj (row.symm.trans here)
        rfl
      simp only
      cases back : (s.update me fid fun _ => cfg.addExp uData num).friend fid me with
      | none =>
          refine ⟨_, rfl, first, fun _ there => ?_⟩
          rw [← first, isSome_index, back] at there
          cases there
      | some friendData =>
          refine ⟨_, rfl, ?_, fun _ _ => rfl⟩
          refine (index_kept fun fd here => ?_).trans first
          obtain rfl := Option.some.inj (back.symm.trans here)
          rfl

/-- `SendGift` to a friend. -/
theorem SendGift_eq (there : (s.index me fid).isSome = true) (back : (s.index fid me).isSome = true) :
    ∃ friend, s.SendGift cfg me fid giftidx =
        ({ s with
          friend := friend, gifts := s.gifts ++ [⟨me, fid, s.now⟩]
          sent := s.sent ++ [⟨s.sent.length, ⟨me, fid, s.now⟩⟩] }, true) ∧
      ∀ a b, (friend a b).map FriendData.giftIndex =
        if a = fid ∧ b = me then (s.index a b).map fun _ => giftidx else s.index a b := by
  obtain ⟨friend, same, kept, found⟩ := @FriendExpAdd_frame cfg s me fid 1
  have both := found there back
  have added : s.FriendExpAdd cfg me fid 1 = ({ s with friend := friend }, true) :=
    Prod.ext same both
  rw [SendGift, added]
  refine ⟨_, rfl, fun a b => ?_⟩
  have exp : ∀ a b, (friend a b).map FriendData.giftIndex = s.index a b := by
    intro a b
    rw [← kept, same]
    rfl
  simp only [update]
  by_cases here : a = fid ∧ b = me
  · rw [if_pos here, if_pos here, Option.map_map, ← exp]
    split
    · rw [Option.map_map, Option.map_map]
      rfl
    · rw [Option.map_map]
      rfl
  · rw [if_neg here, if_neg here, ← exp]
    split
    · rw [Option.map_map]
      rfl
    · rfl

theorem lastGift_append {sent : List SentGift} {g : SentGift} :
    lastGift (sent ++ [g]) a b =
      if g.row.uid = a ∧ g.row.tarid = b then some g else lastGift sent a b := by
  rw [lastGift, List.filter_append]
  split
  · rename_i here
    have one : [g].filter (fun g => g.row.uid = a ∧ g.row.tarid = b) = [g] := by simp [here]
    rw [one, List.getLast?_concat]
  · rename_i apart
    have none_ : [g].filter (fun g => g.row.uid = a ∧ g.row.tarid = b) = [] := by simp [apart]
    rw [none_, List.append_nil, lastGift]

theorem lastGift_some {sent : List SentGift} {g : SentGift} (last : lastGift sent a b = some g) :
    g ∈ sent ∧ g.row.uid = a ∧ g.row.tarid = b := by
  obtain ⟨mem, here⟩ := List.mem_filter.mp (List.mem_of_getLast? last)
  exact ⟨mem, decide_eq_true_eq.mp here⟩

/-- The rows of today are the gifts of today. -/
theorem notToday_iff (inv : s.GiftInv cfg) :
    NotToday s.gifts (cfg.get_refresh_time s.now) a b ↔
      (a, b, cfg.get_refresh_time s.now) ∉
        s.sent.map fun g => (g.row.uid, g.row.tarid, cfg.get_refresh_time g.row.gifttime) := by
  constructor
  · intro none_ mem
    obtain ⟨g, sent, key⟩ := List.mem_map.mp mem
    obtain ⟨uid, rest⟩ := Prod.mk.inj key
    obtain ⟨tarid, day⟩ := Prod.mk.inj rest
    have today : cfg.get_refresh_time s.now ≤ g.row.gifttime := day ▸ GiftCfg.refresh_le
    have before := none_ g.row (inv.kept g sent today) uid tarid
    omega
  · intro free d mem uid tarid
    by_contra late
    obtain ⟨g, sent, rfl⟩ := inv.rows d mem
    refine free (List.mem_map.mpr ⟨g, sent, ?_⟩)
    rw [uid, tarid, GiftCfg.refresh_today (not_lt.mp late) (inv.past g sent)]

/-- A gift more is one a day, if and only if none has been sent today. -/
theorem daily_append (inv : s.GiftInv cfg) (daily : Daily cfg s.sent) (no : Nat) :
    Daily cfg (s.sent ++ [⟨no, ⟨a, b, s.now⟩⟩]) ↔
      NotToday s.gifts (cfg.get_refresh_time s.now) a b := by
  rw [notToday_iff inv, Daily, List.map_append, List.map_singleton, ← List.concat_eq_append,
    List.nodup_concat]
  exact ⟨And.left, fun free => ⟨free, daily⟩⟩

theorem inv_SendGift (inv : s.GiftInv cfg) (there : (s.index me fid).isSome = true) :
    (s.SendGift cfg me fid giftidx).1.GiftInv cfg := by
  have back : (s.index fid me).isSome = true := (inv.both fid me).trans there
  obtain ⟨friend, same, index⟩ := @SendGift_eq cfg s me fid giftidx there back
  rw [same]
  have isSome : ∀ a b, ((friend a b).map FriendData.giftIndex).isSome = (s.index a b).isSome := by
    intro a b
    rw [index]
    split
    · rw [Option.isSome_map]
    · rfl
  refine ⟨fun a b => ?_, ?_, ?_, ?_, ?_, ?_, ?_, ?_⟩
  · exact (isSome a b).trans ((inv.both a b).trans (isSome b a).symm)
  · rw [List.map_append, List.map_singleton, ← List.concat_eq_append, List.nodup_concat]
    refine ⟨fun mem => ?_, inv.numbers⟩
    obtain ⟨g, sent, no⟩ := List.mem_map.mp mem
    exact absurd (inv.below g sent) (no ▸ lt_irrefl _)
  · intro g mem
    rw [List.length_append, List.length_singleton]
    obtain mem | mem := List.mem_append.mp mem
    · exact Nat.lt_succ_of_lt (inv.below g mem)
    · rw [List.mem_singleton.mp mem]
      exact Nat.lt_succ_self _
  · intro no mem
    rw [List.length_append, List.length_singleton]
    exact Nat.lt_succ_of_lt (inv.known no mem)
  · intro g mem
    obtain mem | mem := List.mem_append.mp mem
    · exact inv.past g mem
    · rw [List.mem_singleton.mp mem]
  · intro d mem
    obtain mem | mem := List.mem_append.mp mem
    · obtain ⟨g, sent, row⟩ := inv.rows d mem
      exact ⟨g, List.mem_append_left _ sent, row⟩
    · exact ⟨_, List.mem_append_right _ (List.mem_singleton_self _), (List.mem_singleton.mp mem).symm⟩
  · intro g mem today
    obtain mem | mem := List.mem_append.mp mem
    · exact List.mem_append_left _ (inv.kept g mem today)
    · rw [List.mem_singleton.mp mem]
      exact List.mem_append_right _ (List.mem_singleton_self _)
  · intro a b k shown nonzero
    simp only
    rw [lastGift_append]
    split
    · -- the gift that has just been sent
      refine ⟨_, rfl, fun mem => ?_⟩
      exact lt_irrefl _ (inv.known _ mem)
    · rename_i apart
      refine inv.pending a b k ?_ nonzero
      have old := (index a b).symm.trans shown
      rwa [if_neg fun here => apart ⟨here.2.symm, here.1.symm⟩] at old

theorem index_SendGift (inv : s.GiftInv cfg) (there : (s.index me fid).isSome = true) :
    (s.SendGift cfg me fid giftidx).2 = true ∧
      ∀ a b, ((s.SendGift cfg me fid giftidx).1.index a b).isSome = (s.index a b).isSome := by
  obtain ⟨friend, same, index⟩ :=
    @SendGift_eq cfg s me fid giftidx there ((inv.both fid me).trans there)
  rw [same]
  refine ⟨rfl, fun a b => ?_⟩
  refine (congrArg Option.isSome (index a b)).trans ?_
  split
  · rw [Option.isSome_map]
  · rfl

/-- What the loop that returns gifts keeps. -/
theorem giveBack_frame {refresh_time : Int} {arr : List (UserId × FriendData)} {left : Nat}
    (inv : s.GiftInv cfg) (there : ∀ f ∈ arr, (s.index me f.1).isSome = true) :
    (giveBack cfg me refresh_time s arr left).1.GiftInv cfg ∧
      (giveBack cfg me refresh_time s arr left).1.collected = s.collected ∧
      (giveBack cfg me refresh_time s arr left).1.users = s.users ∧
      s.sent <+: (giveBack cfg me refresh_time s arr left).1.sent ∧
      (giveBack cfg me refresh_time s arr left).1.now = s.now := by
  induction arr generalizing s left with
  | nil =>
      have same : giveBack cfg me refresh_time s [] left = (s, true) := by
        cases left <;> rfl
      rw [same]
      exact ⟨inv, rfl, rfl, List.prefix_rfl, rfl⟩
  | cons f arr ih =>
      obtain ⟨uId, fd⟩ := f
      obtain ⟨mine, others⟩ := List.forall_mem_cons.mp there
      cases left with
      | zero => exact ⟨inv, rfl, rfl, List.prefix_rfl, rfl⟩
      | succ left =>
          rw [giveBack]
          split
          · exact ih inv others
          · obtain ⟨friend, same, _⟩ :=
              @SendGift_eq cfg s me uId fd.giftIndex mine ((inv.both uId me).trans mine)
            have after := @inv_SendGift cfg s me uId fd.giftIndex inv mine
            have isSome := (@index_SendGift cfg s me uId fd.giftIndex inv mine).2
            rw [same] at after isSome ⊢
            obtain ⟨inv', collected, users, longer, now⟩ := @ih _ left after fun f mem =>
              (isSome me f.1).trans (others f mem)
            exact ⟨inv', collected, users, (List.prefix_append ..).trans longer, now⟩

/-- The gifts that are returned are one a day, if and only if none is returned to a friend who has
got one. -/
theorem giveBack_daily {arr : List (UserId × FriendData)} {left : Nat} (inv : s.GiftInv cfg)
    (daily : Daily cfg s.sent) (there : ∀ f ∈ arr, (s.index me f.1).isSome = true) :
    Daily cfg (giveBack cfg me (cfg.get_refresh_time s.now) s arr left).1.sent ↔
      GivesOnce me s.now (cfg.get_refresh_time s.now) s.gifts (arr.map Prod.fst) left := by
  induction arr generalizing s left with
  | nil =>
      have same : giveBack cfg me (cfg.get_refresh_time s.now) s [] left = (s, true) := by
        cases left <;> rfl
      rw [same, List.map_nil, GivesOnce]
      exact iff_of_true daily trivial
  | cons f arr ih =>
      obtain ⟨uId, fd⟩ := f
      obtain ⟨mine, others⟩ := List.forall_mem_cons.mp there
      cases left with
      | zero => exact iff_of_true daily trivial
      | succ left =>
          rw [giveBack, List.map_cons, GivesOnce]
          by_cases sent : hasSent s.gifts (cfg.get_refresh_time s.now) me uId = true
          · rw [if_pos sent, if_pos sent]
            exact ih inv daily others
          · rw [if_neg sent, if_neg sent]
            obtain ⟨friend, same, _⟩ :=
              @SendGift_eq cfg s me uId fd.giftIndex mine ((inv.both uId me).trans mine)
            have after := @inv_SendGift cfg s me uId fd.giftIndex inv mine
            have isSome := (@index_SendGift cfg s me uId fd.giftIndex inv mine).2
            rw [same] at after isSome ⊢
            have once := @daily_append cfg s me uId inv daily s.sent.length
            have others' := fun f mem => (isSome me f.1).trans (others f mem)
            by_cases free : NotToday s.gifts (cfg.get_refresh_time s.now) me uId
            · rw [and_iff_right free]
              exact ih after (once.mpr free) others'
            · -- what is sent later leaves the second gift of the day where it is
              refine iff_of_false (fun daily' => free (once.mp ?_)) fun gives => free gives.1
              obtain ⟨_, _, _, longer, _⟩ := @giveBack_frame cfg _ me
                (cfg.get_refresh_time s.now) arr left after others'
              exact daily'.sublist (longer.sublist.map _)

/-- The number of the gift that is taken from a friend. -/
def giftNo (sent : List SentGift) (me uId : UserId) : Nat :=
  ((lastGift sent uId me).map SentGift.no).getD 0

/-- What a request takes. -/
def takes (cfg : GiftCfg) (s : GiftState) (me : UserId) (arr : List (UserId × FriendData)) :
    List CollectedGift :=
  arr.filterMap fun f => (cfg.unlock f.2.friendLv f.2.giftIndex).map fun gift =>
    ⟨giftNo s.sent me f.1, me, s.now, gift⟩

/-- The loop takes the gifts, and leaves nothing of them. -/
theorem take_eq {arr : List (UserId × FriendData)} : ∃ friend,
    take cfg me s arr = { s with
      friend := friend, collected := s.collected ++ takes cfg s me arr } ∧
    (∀ a b, ((friend a b).map FriendData.giftIndex).isSome = (s.index a b).isSome) ∧
    ∀ a b k, (friend a b).map FriendData.giftIndex = some k → k ≠ 0 →
      s.index a b = some k ∧ ¬(a = me ∧ b ∈ taken cfg arr) := by
  induction arr generalizing s with
  | nil =>
      refine ⟨s.friend, ?_, fun a b => rfl, fun a b k shown _ => ⟨shown, fun here => ?_⟩⟩
      · rw [take, takes, List.filterMap_nil, List.append_nil]
      · cases here.2
  | cons f arr ih =>
      obtain ⟨uId, fd⟩ := f
      rw [take]
      cases unlocked : cfg.unlock fd.friendLv fd.giftIndex with
      | none =>
          obtain ⟨friend, same, isSome, shown⟩ := @ih s
          have skipped : takes cfg s me ((uId, fd) :: arr) = takes cfg s me arr := by
            rw [takes, List.filterMap_cons_none]
            · rfl
            · rw [unlocked]
              rfl
          have others : taken cfg ((uId, fd) :: arr) = taken cfg arr := by
            rw [taken, List.filter_cons_of_neg]
            · rfl
            · rw [unlocked]
              exact Bool.false_ne_true
          rw [skipped, others]
          exact ⟨friend, same, isSome, shown⟩
      | some gift =>
          have first : takes cfg s me ((uId, fd) :: arr) =
              ⟨giftNo s.sent me uId, me, s.now, gift⟩ :: takes cfg s me arr := by
            rw [takes, List.filterMap_cons_some]
            · rfl
            · rw [unlocked]
              rfl
          have mine : taken cfg ((uId, fd) :: arr) = uId :: taken cfg arr := by
            rw [taken, List.filter_cons_of_pos]
            · rfl
            · rw [unlocked]
              rfl
          simp only
          generalize noted : GiftState.update { s with
            collected := s.collected ++ [⟨((lastGift s.sent uId me).map SentGift.no).getD 0, me,
              s.now, gift⟩] } me uId (fun fd => { fd with giftIndex := 0 }) = t
          obtain ⟨added, exp, kept, _⟩ := @FriendExpAdd_frame cfg t me uId 1
          obtain ⟨friend, same, isSome, shown⟩ := @ih (t.FriendExpAdd cfg me uId 1).1
          have cleared : ∀ a b, t.index a b =
              if a = me ∧ b = uId then (s.friend a b).map fun _ => 0 else s.index a b := by
            intro a b
            rw [← noted, index_update]
            rfl
          rw [kept] at isSome shown
          refine ⟨friend, ?_, fun a b => ?_, fun a b k here nonzero => ?_⟩
          · rw [same, exp, ← noted, first]
            exact congrArg (fun collected => ({ s with
              friend := friend, collected := collected } : GiftState)) (List.append_cons ..).symm
          · rw [isSome, cleared]
            split
            · rw [Option.isSome_map, isSome_index]
            · rfl
          · obtain ⟨here, other⟩ := shown a b k here nonzero
            rw [cleared] at here
            split at here
            · obtain ⟨_, _, zero⟩ := Option.map_eq_some_iff.mp here
              exact absurd zero.symm nonzero
            · rename_i apart
              refine ⟨here, fun both => ?_⟩
              rw [mine] at both
              obtain rfl | mem := List.mem_cons.mp both.2
              · exact apart ⟨both.1, rfl⟩
              · exact other ⟨both.1, mem⟩

theorem fdArr_ok {fids : List UserId} {arr : List (UserId × FriendData)}
    (found : s.fdArr me fids = .ok arr) :
    ∀ f ∈ arr, s.friend me f.1 = some f.2 ∧ f.2.giftIndex ≠ 0 := by
  induction fids generalizing arr with
  | nil =>
      obtain rfl := Except.ok.inj found
      exact fun f mem => nomatch mem
  | cons fid fids ih =>
      rw [fdArr] at found
      split at found
      · cases found
      · rename_i fd row
        split at found
        · cases found
        · rename_i nonzero
          cases rest : s.fdArr me fids with
          | error ret =>
              rw [rest] at found
              cases found
          | ok arr' =>
              rw [rest] at found
              obtain rfl := Except.ok.inj found
              exact List.forall_mem_cons.mpr ⟨⟨row, nonzero⟩, ih rest⟩

theorem takes_no {arr : List (UserId × FriendData)} :
    (takes cfg s me arr).map CollectedGift.no = (taken cfg arr).map (giftNo s.sent me) := by
  induction arr with
  | nil => rfl
  | cons f arr ih =>
      rw [takes] at ih
      rw [taken] at ih
      rw [takes, taken, List.filterMap_cons]
      cases unlocked : cfg.unlock f.2.friendLv f.2.giftIndex with
      | none =>
          rw [List.filter_cons_of_neg]
          · exact ih
          · rw [unlocked]
            exact Bool.false_ne_true
      | some gift =>
          rw [List.filter_cons_of_pos]
          · exact congrArg (giftNo s.sent me f.1 :: ·) ih
          · rw [unlocked]
            rfl

theorem takes_length {arr : List (UserId × FriendData)} :
    (takes cfg s me arr).length = (taken cfg arr).length := by
  have same := congrArg List.length (@takes_no cfg s me arr)
  rwa [List.length_map, List.length_map] at same

theorem takes_mine {arr : List (UserId × FriendData)} :
    ∀ c ∈ takes cfg s me arr, c.uId = me ∧ c.dt = s.now := by
  intro c mem
  obtain ⟨f, _, some_⟩ := List.mem_filterMap.mp mem
  obtain ⟨gift, _, rfl⟩ := Option.map_eq_some_iff.mp some_
  exact ⟨rfl, rfl⟩

section Taking
variable {arr : List (UserId × FriendData)}

theorem taken_gift (inv : s.GiftInv cfg)
    (good : ∀ f ∈ arr, s.friend me f.1 = some f.2 ∧ f.2.giftIndex ≠ 0) :
    ∀ uId ∈ taken cfg arr, ∃ g, lastGift s.sent uId me = some g ∧ giftNo s.sent me uId = g.no ∧
      g.no ∉ s.collected.map CollectedGift.no := by
  intro uId mem
  obtain ⟨f, listed, rfl⟩ := List.mem_map.mp mem
  obtain ⟨row, nonzero⟩ := good f (List.mem_filter.mp listed).1
  have shown : s.index me f.1 = some f.2.giftIndex := by
    rw [index, row]
    rfl
  obtain ⟨g, last, new⟩ := inv.pending me f.1 _ shown nonzero
  refine ⟨g, last, ?_, new⟩
  rw [giftNo, last]
  rfl

/-- Gifts of one number are the same. -/
theorem sent_unique (inv : s.GiftInv cfg) {g g' : SentGift} (mem : g ∈ s.sent) (mem' : g' ∈ s.sent)
    (same : g.no = g'.no) : g = g' := List.inj_on_of_nodup_map inv.numbers mem mem' same

theorem giftNo_inj (inv : s.GiftInv cfg)
    (good : ∀ f ∈ arr, s.friend me f.1 = some f.2 ∧ f.2.giftIndex ≠ 0) :
    ∀ x ∈ taken cfg arr, ∀ y ∈ taken cfg arr, giftNo s.sent me x = giftNo s.sent me y → x = y := by
  intro x memX y memY same
  obtain ⟨g, last, no, _⟩ := taken_gift inv good x memX
  obtain ⟨g', last', no', _⟩ := taken_gift inv good y memY
  obtain ⟨sent, uid, _⟩ := lastGift_some last
  obtain ⟨sent', uid', _⟩ := lastGift_some last'
  obtain rfl := sent_unique inv sent sent' (no.symm.trans (same.trans no'))
  exact uid.symm.trans uid'

theorem inv_take (inv : s.GiftInv cfg)
    (good : ∀ f ∈ arr, s.friend me f.1 = some f.2 ∧ f.2.giftIndex ≠ 0) :
    (take cfg me s arr).GiftInv cfg := by
  obtain ⟨friend, same, isSome, shown⟩ := @take_eq cfg s me arr
  rw [same]
  have numbers : (s.collected ++ takes cfg s me arr).map CollectedGift.no =
      s.collected.map CollectedGift.no ++ (taken cfg arr).map (giftNo s.sent me) := by
    rw [List.map_append, takes_no]
  refine ⟨fun a b => (isSome a b).trans ((inv.both a b).trans (isSome b a).symm), inv.numbers,
    inv.below, fun no mem => ?_, inv.past, inv.rows, inv.kept, fun a b k here nonzero => ?_⟩
  · rw [numbers] at mem
    obtain mem | mem := List.mem_append.mp mem
    · exact inv.known no mem
    · obtain ⟨uId, listed, rfl⟩ := List.mem_map.mp mem
      obtain ⟨g, last, no, _⟩ := taken_gift inv good uId listed
      rw [no]
      exact inv.below g (lastGift_some last).1
  · obtain ⟨here, other⟩ := shown a b k here nonzero
    obtain ⟨g, last, new⟩ := inv.pending a b k here nonzero
    refine ⟨g, last, fun mem => ?_⟩
    rw [numbers] at mem
    obtain mem | mem := List.mem_append.mp mem
    · exact new mem
    · obtain ⟨uId, mem, no⟩ := List.mem_map.mp mem
      obtain ⟨g', last', no', _⟩ := taken_gift inv good uId mem
      obtain ⟨sent, uid, tarid⟩ := lastGift_some last
      obtain ⟨sent', uid', tarid'⟩ := lastGift_some last'
      obtain rfl := sent_unique inv sent sent' (no.symm.trans no')
      exact other ⟨tarid.symm.trans tarid', uid.symm.trans uid' ▸ mem⟩

/-- No gift is collected twice, if and only if a request takes none twice. -/
theorem once_take (inv : s.GiftInv cfg)
    (good : ∀ f ∈ arr, s.friend me f.1 = some f.2 ∧ f.2.giftIndex ≠ 0)
    (once : (s.collected.map CollectedGift.no).Nodup) :
    ((s.collected ++ takes cfg s me arr).map CollectedGift.no).Nodup ↔ (taken cfg arr).Nodup := by
  rw [List.map_append, takes_no]
  constructor
  · intro all
    exact (List.nodup_append.mp all).2.1.of_map
  · intro apart
    refine List.nodup_append.mpr ⟨once, apart.map_on (giftNo_inj inv good), ?_⟩
    rintro no old _ mem rfl
    obtain ⟨uId, listed, rfl⟩ := List.mem_map.mp mem
    obtain ⟨g, _, no, new⟩ := taken_gift inv good uId listed
    exact new (no ▸ old)

theorem takes_count {id : UserId} {day : Int} :
    (takes cfg s me arr).countP (fun c => c.uId = id ∧ cfg.GetRefreshTime c.dt = day) =
      if id = me ∧ day = cfg.GetRefreshTime s.now then (taken cfg arr).length else 0 := by
  split
  · rename_i here
    rw [← @takes_length cfg s me, List.countP_eq_length]
    intro c mem
    obtain ⟨uId, dt⟩ := takes_mine c mem
    rw [uId, dt]
    exact decide_eq_true ⟨here.1.symm, here.2.symm⟩
  · rename_i apart
    rw [List.countP_eq_zero]
    intro c mem here
    obtain ⟨uId, dt⟩ := takes_mine c mem
    obtain ⟨id, day⟩ := decide_eq_true_eq.mp here
    exact apart ⟨id.symm.trans uId, dt ▸ day.symm⟩

/-- The limit of a day is kept, if and only if what a request takes is left of it. -/
theorem limit_take (limit : ∀ id day, s.collected.countP
      (fun c => c.uId = id ∧ cfg.GetRefreshTime c.dt = day) ≤ cfg.maxgift (s.users id)) :
    (∀ id day, (s.collected ++ takes cfg s me arr).countP
        (fun c => c.uId = id ∧ cfg.GetRefreshTime c.dt = day) ≤ cfg.maxgift (s.users id)) ↔
      s.collected.countP (fun c =>
          c.uId = me ∧ cfg.GetRefreshTime c.dt = cfg.GetRefreshTime s.now) +
        (taken cfg arr).length ≤ cfg.maxgift (s.users me) := by
  constructor
  · intro all
    have mine := all me (cfg.GetRefreshTime s.now)
    rwa [List.countP_append, takes_count, if_pos ⟨rfl, rfl⟩] at mine
  · intro room id day
    rw [List.countP_append, takes_count]
    split
    · rename_i here
      obtain ⟨rfl, rfl⟩ := here
      exact room
    · exact limit id day

end Taking

theorem UpdateGetGiftNum_frame {n : Nat} : ∃ users,
    s.UpdateGetGiftNum cfg me n = { s with users := users } ∧
      ∀ id, (users id).vip = (s.users id).vip ∧ (users id).auto_gift = (s.users id).auto_gift := by
  rw [UpdateGetGiftNum]
  refine ⟨_, rfl, fun id => ?_⟩
  by_cases mine : id = me
  · subst mine
    rw [Function.update_self]
    split <;> exact ⟨rfl, rfl⟩
  · rw [Function.update_of_ne mine]
    exact ⟨rfl, rfl⟩

/-- Rows of friends may change, where no gift comes into them. -/
theorem inv_friend {friend : UserId → UserId → Option FriendData} (inv : s.GiftInv cfg)
    (both : ∀ a b, (friend a b).isSome = (friend b a).isSome)
    (fewer : ∀ a b k, (friend a b).map FriendData.giftIndex = some k → k ≠ 0 →
      s.index a b = some k) : GiftInv cfg { s with friend := friend } := by
  refine ⟨fun a b => ?_, inv.numbers, inv.below, inv.known, inv.past, inv.rows, inv.kept,
    fun a b k shown nonzero => inv.pending a b k (fewer a b k shown nonzero) nonzero⟩
  rw [isSome_index, isSome_index]
  exact both a b

theorem inv_users {users : UserId → GiftUser} (inv : s.GiftInv cfg) :
    GiftInv cfg { s with users := users } :=
  ⟨inv.both, inv.numbers, inv.below, inv.known, inv.past, inv.rows, inv.kept, inv.pending⟩

theorem inv_UpdateGetGiftNum {n : Nat} (inv : s.GiftInv cfg) :
    (s.UpdateGetGiftNum cfg me n).GiftInv cfg := by
  obtain ⟨users, same, _⟩ := @UpdateGetGiftNum_frame cfg s me n
  rw [same]
  exact inv_users inv

theorem inv_GetUserFriendDatas (inv : s.GiftInv cfg) :
    (s.GetUserFriendDatas cfg me).GiftInv cfg := by
  have reset : (s.checkResetGift cfg me).GiftInv cfg := by
    have rows : GiftInv cfg { s with
        gifts := s.gifts.filter fun d =>
          !decide (d.tarid = me ∧ d.gifttime < cfg.get_refresh_time s.now) } := by
      refine ⟨inv.both, inv.numbers, inv.below, inv.known, inv.past, fun d mem => ?_,
        fun g sent today => ?_, inv.pending⟩
      · exact inv.rows d (List.mem_filter.mp mem).1
      · refine List.mem_filter.mpr ⟨inv.kept g sent today, ?_⟩
        rw [Bool.not_eq_true', decide_eq_false_iff_not]
        exact fun old => absurd old.2 (not_lt.mpr today)
    rw [checkResetGift]
    refine inv_friend rows (fun a b => ?_) fun a b k shown nonzero => ?_
    · have same := inv.both a b
      rw [isSome_index, isSome_index] at same
      split <;> split
      all_goals simp only [Option.isSome_map, same]
    · split at shown
      · rw [Option.map_map] at shown
        obtain ⟨_, _, zero⟩ := Option.map_eq_some_iff.mp shown
        exact absurd zero.symm nonzero
      · exact shown
  rw [GetUserFriendDatas]
  refine inv_UpdateGetGiftNum (inv_friend reset (fun a b => ?_) fun a b k shown nonzero => ?_)
  · have both := reset.both a b
    rw [isSome_index, isSome_index] at both
    split <;> split
    all_goals simp only [Option.isSome_map, both]
  · split at shown
    · rw [Option.map_map] at shown
      exact shown
    · exact shown

/-- `FriendSendGift` sends a gift, or does nothing. -/
theorem FriendSendGift_cases (inv : s.GiftInv cfg) :
    (s.Sends cfg me fid giftidx ∧ (s.index me fid).isSome = true ∧
        (s.FriendSendGift cfg me fid giftidx).1 = (s.SendGift cfg me fid giftidx).1) ∨
      (¬s.Sends cfg me fid giftidx ∧ (s.FriendSendGift cfg me fid giftidx).1 = s) := by
  rw [FriendSendGift, Sends]
  cases row : s.friend me fid with
  | none =>
      refine .inr ⟨?_, rfl⟩
      rintro ⟨_, found, _⟩
      cases found
  | some target =>
      have there : (s.index me fid).isSome = true := by
        rw [isSome_index, row]
        rfl
      have sent := (@index_SendGift cfg s me fid giftidx inv there).1
      simp only
      by_cases today : hasSent s.gifts (cfg.get_refresh_time s.now) me fid = true
      · rw [if_pos today]
        refine .inr ⟨?_, rfl⟩
        rintro ⟨_, _, unsent, _⟩
        nomatch today.symm.trans unsent
      · rw [if_neg today]
        by_cases full : arrtoday s.gifts (cfg.get_refresh_time s.now) me ≥ cfg.maxgift (s.users me)
        · rw [if_pos full]
          refine .inr ⟨?_, rfl⟩
          rintro ⟨_, _, _, room, _⟩
          exact absurd full (not_le.mpr room)
        · rw [if_neg full]
          by_cases locked : cfg.unlock target.friendLv giftidx = none
          · rw [if_pos locked]
            refine .inr ⟨?_, rfl⟩
            rintro ⟨_, found, _, _, unlocked⟩
            obtain rfl := Option.some.inj found
            exact unlocked locked
          · rw [if_neg locked]
            refine .inl ⟨⟨target, rfl, Bool.eq_false_iff.mpr today, not_le.mp full, locked⟩,
              there, ?_⟩
            generalize s.SendGift cfg me fid giftidx = out at sent ⊢
            obtain ⟨t, ok⟩ := out
            obtain rfl := sent
            rfl

/-- `FriendGetGift` takes gifts and returns some, or does nothing. -/
theorem FriendGetGift_cases {idArr : Option (List UserId)} :
    (∃ fids ∈ idArr, ∃ arr, s.fdArr me fids = .ok arr ∧ s.CheckGetGiftLimit cfg me = false ∧
        ∃ users, (s.FriendGetGift cfg me idArr).1 =
            (giveBack cfg me (cfg.get_refresh_time s.now)
              { take cfg me s arr with users := users } arr
              (s.CheckAutoGift cfg me (cfg.get_refresh_time s.now))).1 ∧
          users = ((take cfg me s arr).UpdateGetGiftNum cfg me 1).users) ∨
      ((∀ fids ∈ idArr, ∀ arr, s.fdArr me fids = .ok arr →
          s.CheckGetGiftLimit cfg me = false → False) ∧
        (s.FriendGetGift cfg me idArr).1 = s) := by
  rw [FriendGetGift.eq_def]
  cases idArr with
  | none => exact .inr ⟨fun fids mem => (nomatch mem), rfl⟩
  | some fids =>
      simp only
      cases found : s.fdArr me fids with
      | error ret =>
          refine .inr ⟨fun fids' mem arr ok => ?_, rfl⟩
          obtain rfl := Option.some.inj mem
          nomatch found.symm.trans ok
      | ok arr =>
          simp only
          by_cases limit : s.CheckGetGiftLimit cfg me = true
          · rw [if_pos limit]
            refine .inr ⟨fun fids' mem arr' _ room => ?_, rfl⟩
            nomatch limit.symm.trans room
          · rw [if_neg limit]
            refine .inl ⟨fids, rfl, arr, found, Bool.eq_false_iff.mpr limit, ?_⟩
            obtain ⟨friend, taken_, _⟩ := @take_eq cfg s me arr
            have kept : (take cfg me s arr).now = s.now ∧ (take cfg me s arr).users = s.users ∧
                (take cfg me s arr).gifts = s.gifts := by
              rw [taken_]
              exact ⟨rfl, rfl, rfl⟩
            generalize take cfg me s arr = t at kept ⊢
            obtain ⟨now, before, gifts⟩ := kept
            obtain ⟨users, updated, same⟩ := @UpdateGetGiftNum_frame cfg t me 1
            have counted : users = (t.UpdateGetGiftNum cfg me 1).users := by
              rw [updated]
            rw [before] at same
            have left : CheckAutoGift cfg { t with users := users } me
                (cfg.get_refresh_time s.now) =
                s.CheckAutoGift cfg me (cfg.get_refresh_time s.now) := by
              rw [CheckAutoGift, CheckAutoGift, (same me).2, GiftCfg.maxgift_vip (same me).1]
              simp only [gifts]
            refine ⟨users, ?_, counted⟩
            rw [updated, ← left, ← now]
            simp only
            split
            · rename_i back
              exact (congrArg Prod.fst back).symm
            · rename_i back
              exact (congrArg Prod.fst back).symm

theorem gifted_of {u : GiftState} (gifted : Gifted cfg s) (sent : u.sent = s.sent)
    (collected : u.collected = s.collected)
    (more : ∀ id, cfg.maxgift (s.users id) ≤ cfg.maxgift (u.users id)) : Gifted cfg u := by
  refine ⟨sent ▸ gifted.daily, collected ▸ gifted.once, fun id day => ?_⟩
  rw [collected]
  exact (gifted.limit id day).trans (more id)

theorem maxgift_mono {u v : GiftUser} (vip : u.vip = true → v.vip = true) :
    cfg.maxgift u ≤ cfg.maxgift v := by
  rw [GiftCfg.maxgift, GiftCfg.maxgift]
  cases here : u.vip with
  | true =>
      rw [vip here]
  | false =>
      cases v.vip with
      | true => exact cfg.val_le
      | false => exact le_refl _

theorem inv_tick {d : Nat} (inv : s.GiftInv cfg) : GiftInv cfg { s with now := s.now + d } := by
  have later : s.now ≤ s.now + d := by omega
  refine ⟨inv.both, inv.numbers, inv.below, inv.known, fun g sent => (inv.past g sent).trans later,
    inv.rows, fun g sent today => ?_, inv.pending⟩
  exact inv.kept g sent ((GiftCfg.refresh_mono later).trans today)

theorem inv_befriend {newData : Option FriendData} (inv : s.GiftInv cfg)
    (empty : ∀ fd ∈ newData, fd.giftIndex = 0) : GiftInv cfg { s with
      friend := fun x y =>
        if (x = a ∧ y = b) ∨ (x = b ∧ y = a) then newData else s.friend x y } := by
  refine inv_friend inv (fun x y => ?_) fun x y k shown nonzero => ?_
  · have both := inv.both x y
    rw [isSome_index, isSome_index] at both
    by_cases here : (x = a ∧ y = b) ∨ (x = b ∧ y = a)
    · rw [if_pos here, if_pos (here.symm.imp And.symm And.symm)]
    · rw [if_neg here, if_neg fun there => here (there.symm.imp And.symm And.symm)]
      exact both
  · split at shown
    · obtain ⟨fd, new, rfl⟩ := Option.map_eq_some_iff.mp shown
      exact absurd (empty fd new) nonzero
    · exact shown

theorem gifted_FriendSendGift (inv : s.GiftInv cfg) (gifted : Gifted cfg s) :
    (s.FriendSendGift cfg me fid giftidx).1.GiftInv cfg ∧
      (Gifted cfg (s.FriendSendGift cfg me fid giftidx).1 ↔
        s.Sparing cfg (.FriendSendGift me fid giftidx)) := by
  obtain ⟨sends, there, same⟩ | ⟨refused, same⟩ := @FriendSendGift_cases cfg s me fid giftidx inv
  · have after := @inv_SendGift cfg s me fid giftidx inv there
    obtain ⟨friend, sent, _⟩ :=
      @SendGift_eq cfg s me fid giftidx there ((inv.both fid me).trans there)
    have once := @daily_append cfg s me fid inv gifted.daily s.sent.length
    rw [same]
    refine ⟨after, ?_⟩
    rw [sent]
    constructor
    · exact fun gifted' _ => once.mp gifted'.daily
    · exact fun sparing => ⟨once.mpr (sparing sends), gifted.once, gifted.limit⟩
  · rw [same]
    exact ⟨inv, iff_of_true gifted fun sends => absurd sends refused⟩

/-- What is left of a request for gifts, where it passes its checks. -/
theorem FriendGetGift_took {idArr : Option (List UserId)} (inv : s.GiftInv cfg)
    (daily : Daily cfg s.sent) :
    (∃ fids ∈ idArr, ∃ arr, s.fdArr me fids = .ok arr ∧ s.CheckGetGiftLimit cfg me = false ∧
        (s.FriendGetGift cfg me idArr).1.GiftInv cfg ∧
        (s.FriendGetGift cfg me idArr).1.now = s.now ∧
        (s.FriendGetGift cfg me idArr).1.collected = s.collected ++ takes cfg s me arr ∧
        (s.FriendGetGift cfg me idArr).1.users = (s.UpdateGetGiftNum cfg me 1).users ∧
        (Daily cfg (s.FriendGetGift cfg me idArr).1.sent ↔
          GivesOnce me s.now (cfg.get_refresh_time s.now) s.gifts (arr.map Prod.fst)
            (s.CheckAutoGift cfg me (cfg.get_refresh_time s.now)))) ∨
      ((∀ fids ∈ idArr, ∀ arr, s.fdArr me fids = .ok arr →
          s.CheckGetGiftLimit cfg me = false → False) ∧
        (s.FriendGetGift cfg me idArr).1 = s) := by
  obtain ⟨fids, listed, arr, found, room, users, same, counter⟩ | refused :=
    @FriendGetGift_cases cfg s me idArr
  · refine .inl ⟨fids, listed, arr, found, room, ?_⟩
    have good := fdArr_ok found
    obtain ⟨friend, took, isSome, _⟩ := @take_eq cfg s me arr
    have taking := @inv_users cfg _ users (inv_take inv good)
    rw [took] at taking same counter
    have there : ∀ f ∈ arr, ((friend me f.1).map FriendData.giftIndex).isSome = true := by
      intro f mem
      rw [isSome, isSome_index, (good f mem).1]
      rfl
    have back := @giveBack_daily cfg _ me arr
      (s.CheckAutoGift cfg me (cfg.get_refresh_time s.now)) taking daily there
    obtain ⟨after, collected, users', _, now⟩ := @giveBack_frame cfg _ me
      (cfg.get_refresh_time s.now) arr
      (s.CheckAutoGift cfg me (cfg.get_refresh_time s.now)) taking there
    rw [same]
    refine ⟨after, now, collected, users'.trans (counter.trans ?_), back⟩
    rw [UpdateGetGiftNum, UpdateGetGiftNum]
    simp only [setUser]
  · exact .inr refused

theorem gifted_FriendGetGift {idArr : Option (List UserId)} (inv : s.GiftInv cfg)
    (gifted : Gifted cfg s) : (s.FriendGetGift cfg me idArr).1.GiftInv cfg ∧
      (Gifted cfg (s.FriendGetGift cfg me idArr).1 ↔ s.Sparing cfg (.FriendGetGift me idArr)) := by
  obtain ⟨fids, listed, arr, found, room, after, _, collected, users, back⟩ | ⟨refused, same⟩ :=
    @FriendGetGift_took cfg s me idArr inv gifted.daily
  · refine ⟨after, ?_⟩
    have good := fdArr_ok found
    have sparing : s.Sparing cfg (.FriendGetGift me idArr) ↔ (taken cfg arr).Nodup ∧
        s.collected.countP (fun c =>
            c.uId = me ∧ cfg.GetRefreshTime c.dt = cfg.GetRefreshTime s.now) +
          (taken cfg arr).length ≤ cfg.maxgift (s.users me) ∧
        GivesOnce me s.now (cfg.get_refresh_time s.now) s.gifts (arr.map Prod.fst)
          (s.CheckAutoGift cfg me (cfg.get_refresh_time s.now)) := by
      constructor
      · exact fun all => all fids listed arr found room
      · intro holds fids' listed' arr' found' _
        obtain rfl := Option.some.inj (listed.symm.trans listed')
        obtain rfl := Except.ok.inj (found.symm.trans found')
        exact holds
    rw [sparing, ← once_take inv good gifted.once, ← limit_take gifted.limit, ← back]
    have limits : ∀ id, cfg.maxgift ((s.UpdateGetGiftNum cfg me 1).users id) =
        cfg.maxgift (s.users id) := by
      obtain ⟨users, same, vip⟩ := @UpdateGetGiftNum_frame cfg s me 1
      rw [same]
      exact fun id => GiftCfg.maxgift_vip (vip id).1
    constructor
    · intro gifted'
      have once := gifted'.once
      have limit := gifted'.limit
      rw [collected] at once limit
      refine ⟨once, fun id day => ?_, gifted'.daily⟩
      rw [← limits, ← users]
      exact limit id day
    · rintro ⟨once, limit, daily⟩
      refine ⟨daily, ?_, fun id day => ?_⟩
      · rw [collected]
        exact once
      · rw [collected, users, limits]
        exact limit id day
  · rw [same]
    refine ⟨inv, iff_of_true gifted fun fids listed arr found room => ?_⟩
    exact (refused fids listed arr found room).elim

/-- A step keeps the records, and is one a day, none twice and within the limit if and only if it
is sparing. -/
theorem gift_step {e : GiftEvent} (inv : s.GiftInv cfg) (gifted : Gifted cfg s)
    (moved : s.step cfg e = some s') :
    s'.GiftInv cfg ∧ (Gifted cfg s' ↔ s.Sparing cfg e) := by
  cases e with
  | tick d =>
      obtain rfl := Option.some.inj moved
      exact ⟨inv_tick inv, iff_of_true ⟨gifted.daily, gifted.once, gifted.limit⟩ trivial⟩
  | befriend id uId =>
      rw [step] at moved
      split at moved
      · obtain rfl := Option.some.inj moved
        refine ⟨inv_befriend inv fun fd new => ?_,
          iff_of_true ⟨gifted.daily, gifted.once, gifted.limit⟩ trivial⟩
        obtain rfl := Option.some.inj new
        rfl
      · cases moved
  | remove id uId =>
      obtain rfl := Option.some.inj moved
      have gone := @inv_befriend cfg s id uId none inv fun fd new => nomatch new
      exact ⟨gone, iff_of_true ⟨gifted.daily, gifted.once, gifted.limit⟩ trivial⟩
  | vip id =>
      obtain rfl := Option.some.inj moved
      refine ⟨inv_users inv, iff_of_true (gifted_of gifted rfl rfl fun other => ?_) trivial⟩
      refine maxgift_mono fun vip => ?_
      by_cases same : other = id
      · subst same
        simp only [setUser, Function.update_self]
      · simp only [setUser, Function.update_of_ne same]
        exact vip
  | auto_gift id auto =>
      obtain rfl := Option.some.inj moved
      refine ⟨inv_users inv, iff_of_true (gifted_of gifted rfl rfl fun other => ?_) trivial⟩
      refine maxgift_mono fun vip => ?_
      by_cases same : other = id
      · subst same
        simp only [setUser, Function.update_self]
        exact vip
      · simp only [setUser, Function.update_of_ne same]
        exact vip
  | GetUserFriendDatas me =>
      obtain rfl := Option.some.inj moved
      refine ⟨inv_GetUserFriendDatas inv, iff_of_true ?_ trivial⟩
      rw [GetUserFriendDatas]
      obtain ⟨users, same, vip⟩ := @UpdateGetGiftNum_frame cfg { s.checkResetGift cfg me with
        friend := fun a b =>
          if a = me then ((s.checkResetGift cfg me).friend a b).map fun uData => { uData with
            isSendGift := (s.checkResetGift cfg me).gifts.any fun d => d.uid = me ∧ d.tarid = b ∧
              d.gifttime ≥ cfg.get_refresh_time (s.checkResetGift cfg me).now }
          else (s.checkResetGift cfg me).friend a b } me 0
      simp only [same]
      exact gifted_of gifted rfl rfl fun id => le_of_eq (GiftCfg.maxgift_vip (vip id).1.symm)
  | FriendSendGift me id index =>
      obtain rfl := Option.some.inj moved
      exact gifted_FriendSendGift inv gifted
  | FriendGetGift me idArr =>
      obtain rfl := Option.some.inj moved
      exact gifted_FriendGetGift inv gifted

variable {now : Int} {vip : UserId → Bool} {es : List GiftEvent}

theorem gift_start : (start now vip).GiftInv cfg ∧ Gifted cfg (start now vip) := by
  refine ⟨⟨fun a b => rfl, List.nodup_nil, fun g mem => (nomatch mem), fun no mem => (nomatch mem),
    fun g mem => (nomatch mem), fun d mem => (nomatch mem), fun g mem => (nomatch mem),
    fun a b k shown => (nomatch shown)⟩, List.nodup_nil, List.nodup_nil, fun id day => ?_⟩
  exact Nat.zero_le _

theorem run_gift (run : Run (step cfg) (Sparing cfg) (start now vip) es s) :
    s.GiftInv cfg ∧ Gifted cfg s := by
  refine run.invariant (fun s => s.GiftInv cfg ∧ Gifted cfg s) gift_start ?_
  intro t e u inv sparing moved
  obtain ⟨after, exact_⟩ := gift_step inv.1 inv.2 moved
  exact ⟨after, exact_.mpr sparing⟩

/-- What the counter counts: the gifts a user has collected until the next reset. -/
structure Counted (cfg : GiftCfg) (s : GiftState) : Prop where
  began : 0 < s.now
  opened : ∀ id, (s.users id).friend_gift_reset_at = 0 ∨
    ∃ t ≤ s.now, (s.users id).friend_gift_reset_at = cfg.GetRefreshTime t
  within : ∀ c ∈ s.collected, cfg.GetRefreshTime c.dt ≤ (s.users c.uId).friend_gift_reset_at
  counted : ∀ id, s.collected.countP (fun c =>
    c.uId = id ∧ cfg.GetRefreshTime c.dt = (s.users id).friend_gift_reset_at) ≤
      (s.users id).friend_gift_num

theorem counted_frame {u : GiftState} (inv : s.Counted cfg) (later : s.now ≤ u.now)
    (collected : u.collected = s.collected)
    (same : ∀ id, (u.users id).friend_gift_num = (s.users id).friend_gift_num ∧
      (u.users id).friend_gift_reset_at = (s.users id).friend_gift_reset_at) : u.Counted cfg := by
  refine ⟨lt_of_lt_of_le inv.began later, fun id => ?_, fun c mem => ?_, fun id => ?_⟩
  · rw [(same id).2]
    exact (inv.opened id).imp_right fun ⟨t, past, at_⟩ => ⟨t, past.trans later, at_⟩
  · rw [(same c.uId).2]
    exact inv.within c (collected ▸ mem)
  · rw [(same id).1, (same id).2, collected]
    exact inv.counted id

/-- A counter that is not over is one of today. -/
theorem reset_today (inv : s.Counted cfg) (open_ : s.now ≤ (s.users me).friend_gift_reset_at) :
    (s.users me).friend_gift_reset_at = cfg.GetRefreshTime s.now := by
  have began := inv.began
  obtain never | ⟨t, past, at_⟩ := inv.opened me
  · omega
  · rw [at_] at open_ ⊢
    exact GiftCfg.GetRefreshTime_same past open_

/-- What has been collected today is at most what the counter says. -/
theorem counted_today (inv : s.Counted cfg) :
    s.collected.countP (fun c => c.uId = me ∧ cfg.GetRefreshTime c.dt = cfg.GetRefreshTime s.now) ≤
      if s.now > (s.users me).friend_gift_reset_at then 0 else (s.users me).friend_gift_num := by
  split
  · rename_i over_
    rw [Nat.le_zero, List.countP_eq_zero]
    intro c mem here
    obtain ⟨mine, today⟩ := decide_eq_true_eq.mp here
    have before := inv.within c mem
    have after := @GiftCfg.le_GetRefreshTime cfg s.now
    rw [mine, today] at before
    omega
  · rename_i open_
    rw [← reset_today inv (not_lt.mp open_)]
    exact inv.counted me

theorem UpdateGetGiftNum_users {n : Nat} (inv : s.Counted cfg) :
    ((s.UpdateGetGiftNum cfg me n).users me).friend_gift_reset_at = cfg.GetRefreshTime s.now ∧
      ((s.UpdateGetGiftNum cfg me n).users me).friend_gift_num =
        (if s.now > (s.users me).friend_gift_reset_at then 0
          else (s.users me).friend_gift_num) + n ∧
      ∀ id, id ≠ me → (s.UpdateGetGiftNum cfg me n).users id = s.users id := by
  rw [UpdateGetGiftNum]
  simp only [setUser, Function.update_self]
  refine ⟨?_, ?_, fun id other => Function.update_of_ne other _ _⟩
  · split
    · rfl
    · rename_i open_
      exact reset_today inv (not_lt.mp open_)
  · split <;> rfl

/-- The counter goes on counting where no more gifts are collected than it is told. -/
theorem counted_UpdateGetGiftNum {n : Nat} {u : GiftState} {new : List CollectedGift}
    (inv : s.Counted cfg) (now : u.now = s.now) (collected : u.collected = s.collected ++ new)
    (users : u.users = (s.UpdateGetGiftNum cfg me n).users)
    (mine : ∀ c ∈ new, c.uId = me ∧ c.dt = s.now) (few : new.length ≤ n) : u.Counted cfg := by
  obtain ⟨reset, num, others⟩ := @UpdateGetGiftNum_users cfg s me n inv
  rw [← users] at reset num others
  have today := @counted_today cfg s me inv
  refine ⟨now ▸ inv.began, fun id => ?_, fun c mem => ?_, fun id => ?_⟩
  · rw [now]
    by_cases same : id = me
    · exact .inr ⟨s.now, le_refl _, same ▸ reset⟩
    · rw [others id same]
      exact inv.opened id
  · rw [collected] at mem
    obtain mem | mem := List.mem_append.mp mem
    · have before := inv.within c mem
      by_cases same : c.uId = me
      · rw [same] at before ⊢
        rw [reset]
        by_cases open_ : s.now ≤ (s.users me).friend_gift_reset_at
        · rwa [reset_today inv open_] at before
        · have after := @GiftCfg.le_GetRefreshTime cfg s.now
          omega
      · rw [others c.uId same]
        exact before
    · rw [(mine c mem).1, (mine c mem).2, reset]
  · rw [collected, List.countP_append]
    by_cases same : id = me
    · subst same
      rw [reset, num]
      exact Nat.add_le_add today (List.countP_le_length.trans few)
    · rw [others id same]
      have none_ : new.countP (fun c => c.uId = id ∧
          cfg.GetRefreshTime c.dt = (s.users id).friend_gift_reset_at) = 0 := by
        rw [List.countP_eq_zero]
        intro c mem here
        exact same ((decide_eq_true_eq.mp here).1.symm.trans (mine c mem).1)
      rw [none_]
      exact inv.counted id

/-- Requests for one gift each leave the limit to the counter. -/
theorem sparing_of_single {e : GiftEvent} (inv : s.Counted cfg)
    (single : s.Single cfg e) : s.Sparing cfg e := by
  cases e with
  | FriendSendGift me id index => exact single
  | FriendGetGift me idArr =>
      intro fids listed arr found room
      obtain ⟨one, gives⟩ := single fids listed arr found room
      refine ⟨List.nodup_iff_count_le_one.mpr fun uId => List.count_le_length.trans one, ?_, gives⟩
      have today := @counted_today cfg s me inv
      have below : (s.users me).friend_gift_num < cfg.maxgift (s.users me) :=
        not_le.mp (of_decide_eq_false room)
      split at today <;> omega
  | _ => trivial

theorem counted_step {e : GiftEvent} (gift : s.GiftInv cfg) (daily : Daily cfg s.sent)
    (inv : s.Counted cfg) (single : s.Single cfg e) (moved : s.step cfg e = some s') : s'.Counted cfg := by
  cases e with
  | tick d =>
      obtain rfl := Option.some.inj moved
      have later : s.now ≤ s.now + d := by omega
      exact counted_frame inv later rfl fun id => ⟨rfl, rfl⟩
  | befriend id uId =>
      rw [step] at moved
      split at moved
      · obtain rfl := Option.some.inj moved
        exact counted_frame inv (le_refl _) rfl fun id => ⟨rfl, rfl⟩
      · cases moved
  | remove id uId =>
      obtain rfl := Option.some.inj moved
      exact counted_frame inv (le_refl _) rfl fun id => ⟨rfl, rfl⟩
  | vip id =>
      obtain rfl := Option.some.inj moved
      refine counted_frame inv (le_refl _) rfl fun other => ?_
      by_cases same : other = id
      · subst same
        simp only [setUser, Function.update_self, and_self]
      · simp only [setUser, Function.update_of_ne same, and_self]
  | auto_gift id auto =>
      obtain rfl := Option.some.inj moved
      refine counted_frame inv (le_refl _) rfl fun other => ?_
      by_cases same : other = id
      · subst same
        simp only [setUser, Function.update_self, and_self]
      · simp only [setUser, Function.update_of_ne same, and_self]
  | GetUserFriendDatas me =>
      obtain rfl := Option.some.inj moved
      exact @counted_UpdateGetGiftNum cfg s me 0 _ [] inv rfl (List.append_nil _).symm rfl
        (fun c mem => nomatch mem) (le_refl _)
  | FriendSendGift me id index =>
      obtain rfl := Option.some.inj moved
      obtain ⟨_, there, same⟩ | ⟨_, same⟩ := @FriendSendGift_cases cfg s me id index gift
      · obtain ⟨friend, sent, _⟩ :=
          @SendGift_eq cfg s me id index there ((gift.both id me).trans there)
        rw [same, sent]
        exact counted_frame inv (le_refl _) rfl fun id => ⟨rfl, rfl⟩
      · rwa [same]
  | FriendGetGift me idArr =>
      obtain rfl := Option.some.inj moved
      obtain ⟨fids, listed, arr, found, room, _, now, collected, users, _⟩ | ⟨_, same⟩ :=
        @FriendGetGift_took cfg s me idArr gift daily
      · have few := (single fids listed arr found room).1
        rw [← @takes_length cfg s me] at few
        exact counted_UpdateGetGiftNum inv now collected users takes_mine few
      · rwa [same]

theorem run_single (began : 0 < now) (run : Run (step cfg) (Single cfg) (start now vip) es s) :
    Run (step cfg) (Sparing cfg) (start now vip) es s := by
  have first : (start now vip).Counted cfg :=
    ⟨began, fun id => .inl rfl, fun c mem => (nomatch mem), fun id => Nat.zero_le _⟩
  refine (run.strengthen (fun s => (s.GiftInv cfg ∧ Gifted cfg s) ∧ s.Counted cfg)
    ⟨gift_start, first⟩ ?_).1
  intro t e u inv single moved
  have sparing := sparing_of_single inv.2 single
  obtain ⟨after, exact_⟩ := gift_step inv.1.1 inv.1.2 moved
  exact ⟨sparing, ⟨after, exact_.mpr sparing⟩, counted_step inv.1.1 inv.1.2.daily inv.2 single moved⟩

/-- Along a run a gift a day is sent to a friend, none is collected twice and the limit of the day
is kept, if and only if each request is sparing. Where each request is for one gift, the counter
sees to the limit. -/
theorem run_gifted (run : Run (step cfg) anyStep (start now vip) es s) :
    (Run (step cfg) (Sparing cfg) (start now vip) es s ↔
      ∀ front t, front <+: es →
        Run (step cfg) anyStep (start now vip) front t → Gifted cfg t) ∧
    (0 < now → Run (step cfg) (Single cfg) (start now vip) es s →
      Run (step cfg) (Sparing cfg) (start now vip) es s) := by
  refine ⟨run.always_iff (Gifted cfg) gift_start.2 fun front t e u before moved => ?_, run_single⟩
  obtain ⟨inv, gifted⟩ := run_gift before
  exact (gift_step inv gifted moved).2

end Rows

/-- A level with one gift, and the limits as shipped. -/
def giftSample : GiftCfg where
  zone := 28800
  row := fun friendLv => if friendLv = 0 then some ⟨1000, [⟨itemGold, 100⟩]⟩ else none
  friendLvMax := 1
  val := 8
  valVip := 15
  val_le := by decide

def giftEvents : List GiftEvent :=
  [.befriend 1 2, .tick 60, .FriendSendGift 2 1 1, .tick 60, .FriendGetGift 1 (some [2])]

/-- A user collects the gift of a friend, who gets one back. -/
theorem run_gifted_back : ∃ s,
    Run (step giftSample) anyStep (start 1000000 fun _ => false) giftEvents s ∧
    s.sent.map SentGift.no = [0, 1] ∧ s.collected.map CollectedGift.no = [0] ∧
    (Run (step giftSample) (Sparing giftSample) (start 1000000 fun _ => false) giftEvents s ↔
      ∀ front t, front <+: giftEvents →
        Run (step giftSample) anyStep (start 1000000 fun _ => false) front t →
          Gifted giftSample t) ∧
    (Run (step giftSample) (Single giftSample) (start 1000000 fun _ => false) giftEvents s →
      Run (step giftSample) (Sparing giftSample) (start 1000000 fun _ => false) giftEvents s) := by
  have run := @run_of_exec _ _ (step giftSample) (start 1000000 fun _ => false) giftEvents _ rfl
  obtain ⟨always, single⟩ := run_gifted run
  exact ⟨_, run, rfl, rfl, always, single (by decide)⟩

/-- A user names the friend twice, and collects the gift twice. -/
theorem gifted_fails : ¬∀ cfg now vip es s,
    Run (step cfg) anyStep (start now vip) es s → Gifted cfg s := by
  intro gifted
  have run := @run_of_exec _ _ (step giftSample) (start 1000000 fun _ => false)
    [.befriend 1 2, .FriendSendGift 2 1 1, .FriendGetGift 1 (some [2, 2])] _ rfl
  have once := (gifted _ _ _ _ _ run).once
  exact absurd once (by decide +kernel)

end GiftState

end HuluLandlord.Agent
