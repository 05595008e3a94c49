import HuluLandlord.Agent.Consume
import HuluLandlord.Define
import HuluLandlord.Table

/-!
The battle pass of a user: the record of one activity period, its levels, and the rewards
of the levels. A level is gained with experience or bought with diamonds. A claim is made
for one level or for all of them, and for the normal reward, the senior one or both.
-/
namespace HuluLandlord.Agent
open Transition Table

abbrev StorId := Nat

def storeTxzGold : StorId := 900101
def storeTxzChaoGold_1 : StorId := 900102
def storeTxzChaoGold_2 : StorId := 900103

/-- A row of `cfg_passcheck`. -/
structure PassRow where
  level : Nat
  ex : Int
  award : List Entry
  senior_award : List Entry
  diam : List Entry
  deriving DecidableEq, Repr

/-- The levels of the table are `1`, `2` and so on. -/
structure PassTable where
  rows : List PassRow
  levels : rows.map PassRow.level = List.range' 1 rows.length

/-- `Unknown` stands nowhere in a record. -/
inductive StatusReward
  | normal | senior | normalAndSenior
  deriving DecidableEq, Repr

inductive RewardType
  | normal | senior | normalAndSenior
  deriving DecidableEq, Repr

/-- `self.Data` once it has been made by `CreateRecord`, but for `emailAt`. -/
structure PassRecord where
  lv : Nat
  exp : Int
  storyIdList : List StorId
  lvList : Int → Option StatusReward
  startAt : Int
  endAt : Int

/-- A record while a claim goes through the levels, and the two lists it fills. -/
structure Claim where
  record : PassRecord
  rNormalList : List PassRow
  rSeniorList : List PassRow

namespace PassTable
variable (cfg : PassTable)

def GetCfgByLv (lv : Int) : Option PassRow := cfg.rows.find? fun c => (c.level : Int) = lv

/-- The rows of the next levels, up to one that is missing. -/
def nextRows : Nat → Nat → List PassRow
  | _, 0 => []
  | lv, n + 1 => match cfg.GetCfgByLv (lv + 1 : Nat) with
      | none => []
      | some c => c :: nextRows (lv + 1) n

end PassTable

/-- An item more in `consumeMap`. -/
def addConsume (consumeList : List Entry) (item : Entry) : List Entry :=
  if consumeList.any fun e => e.id = item.id then
    consumeList.map fun e => if e.id = item.id then { e with num := e.num + item.num } else e
  else consumeList ++ [item]

namespace PassRecord
variable (cfg : PassTable)

/-- `CreateRecord`. -/
def create (startAt endAt : Int) : PassRecord := ⟨1, 0, [], fun _ => none, startAt, endAt⟩

def addExp (r : PassRecord) (addValue : Int) : PassRecord :=
  let exp := r.exp + addValue
  let maxlv := cfg.rows.foldl
    (fun maxlv c => if c.ex ≤ exp then (if maxlv < c.level then c.level else maxlv) else maxlv) r.lv
  { r with exp := exp, lv := if maxlv > r.lv then maxlv else r.lv }

/-- `GetBuyLvConsumeItems`; in an error case there is no list. -/
def GetBuyLvConsumeItems (r : PassRecord) (lv : Int) : Option (List Entry) :=
  let lvRange := lv - r.lv
  if lvRange ≤ 0 then none
  else
    let consumeList := ((cfg.nextRows r.lv lvRange.toNat).flatMap PassRow.diam).foldl addConsume []
    if consumeList = [] then none else some consumeList

def BuyLvByDiamond (items : Items) (now : Int) (r : PassRecord) (bag : Bag) (lv : Int) :
    PassRecord × Bag × RetVal :=
  match cfg.GetCfgByLv lv with
  | none => (r, bag, .noUse_8)
  | some c => match r.GetBuyLvConsumeItems cfg lv with
      | none => (r, bag, .notExists_5)
      | some consumeList => match bag.removeList items now (some consumeList) 1 with
          | (bag, false) => (r, bag, .lack_6)
          | (bag, true) =>
              let exp := match cfg.GetCfgByLv r.lv with
                | some oldCfg => c.ex + r.exp - oldCfg.ex
                | none => c.ex
              ({ r with exp := exp, lv := c.level }, bag, .succeed_1)

/-- `addStory`; it looks for the id among the positions of the list. -/
def addStory (r : PassRecord) (id : StorId) : PassRecord :=
  if 1 ≤ id ∧ id ≤ r.storyIdList.length then r
  else { r with storyIdList := r.storyIdList ++ [id] }

def HasGold (r : PassRecord) : Bool :=
  r.storyIdList.any fun id =>
    id = storeTxzGold ∨ id = storeTxzChaoGold_1 ∨ id = storeTxzChaoGold_2

def checkReward (r : PassRecord) (lv : Int) (type : RewardType) : Bool :=
  match r.lvList lv with
  | none => true
  | some status =>
      if status = .normalAndSenior then false
      else match type with
        | .normalAndSenior => true
        | .normal => status ≠ .normal
        | .senior => status ≠ .senior

def SetLvStatus (r : PassRecord) (lv : Int) (status : StatusReward) : PassRecord :=
  { r with lvList := Function.update r.lvList lv (some status) }

/-- `ValidType`; a type that is not one of the three counts as normal. -/
def ValidType (r : PassRecord) (type : Option RewardType) : RewardType :=
  match type with
  | some .senior => if r.HasGold then .senior else .normal
  | some .normalAndSenior => if r.HasGold then .normalAndSenior else .normal
  | _ => .normal

end PassRecord

namespace Claim
variable (cfg : PassTable)

/-- `reward`, whose result nothing looks at. -/
def reward (c : Claim) (rLv : Int) (type : RewardType) : Claim :=
  if c.record.lv < rLv then c
  else match cfg.GetCfgByLv rLv with
    | none => c
    | some rlvCfg =>
        if ¬c.record.checkReward rLv type then c
        else match type with
          | .normal =>
              let c := { c with rNormalList := c.rNormalList ++ [rlvCfg] }
              match c.record.lvList rLv with
              | none => { c with record := c.record.SetLvStatus rLv .normal }
              | some .senior => { c with record := c.record.SetLvStatus rLv .normalAndSenior }
              | _ => c
          | .senior =>
              let c := { c with rSeniorList := c.rSeniorList ++ [rlvCfg] }
              match c.record.lvList rLv with
              | none => { c with record := c.record.SetLvStatus rLv .senior }
              | some .normal => { c with record := c.record.SetLvStatus rLv .normalAndSenior }
              | _ => c
          | .normalAndSenior =>
              let status := c.record.lvList rLv
              { record := if status ≠ some .normalAndSenior then
                  c.record.SetLvStatus rLv .normalAndSenior else c.record
                rNormalList := c.rNormalList ++ if status ≠ some .normal then [rlvCfg] else []
                rSeniorList := c.rSeniorList ++ if status ≠ some .senior then [rlvCfg] else [] }

end Claim

namespace PassRecord
variable (cfg : PassTable)

/-- The levels a claim names; `0` names all up to the record's. -/
def claimLevels (r : PassRecord) (lv : Int) : List Int :=
  if lv = 0 then (List.range' 1 r.lv).map Int.ofNat else [lv]

/-- `rewardList`; where it fails it has marked nothing. -/
def rewardList (r : PassRecord) (lv : Int) (type : Option RewardType) : Except RetVal Claim :=
  let type := r.ValidType (if lv = 0 then some .normalAndSenior else type)
  let startRLv := if lv = 0 then 1 else lv
  if startRLv > r.lv then .error .empty_7
  else
    let claim : Claim := (r.claimLevels lv).foldl (fun c l =>
      if c.record.checkReward l type then c.reward cfg l type else c) ⟨r, [], []⟩
    if claim.rNormalList = [] ∧ claim.rSeniorList = [] then .error .noUse_8 else .ok claim

end PassRecord

/-- `self.Data`, or the row of the user: a record if there is one, and when a mail went out. -/
structure TxzData where
  record : Option PassRecord
  emailAt : Option Int

/-- A reward handed out on request, in the period of the record with this number. -/
structure PassGrant where
  no : Nat
  level : Nat
  isSenior : Bool
  deriving DecidableEq, Repr

structure PassMail where
  no : Nat
  itemArr : List Entry
  deriving DecidableEq, Repr

/-- `data` is not there until it is loaded; `act` is the activity while it is open. Records are
counted by `no`. -/
structure TxzUser where
  data : Option TxzData
  SFlag : Bool
  row : TxzData
  bag : Bag
  now : Int
  act : Option (Int × Int)
  no : Nat
  granted : List PassGrant
  mails : List PassMail

inductive TxzEvent
  | tick (d : Nat)
  | activity (act : Option (Int × Int))
  | restart
  | userOnline
  | userStoreBuy (id : StorId)
  | addTxzExp (num : Nat)
  | getTxzData
  | txzBuyLvByDiamond (lv : Int)
  | txzReward (lv : Int) (type : Option RewardType)
  deriving DecidableEq, Repr

/-- Before this no period counts as over. -/
def firstEndAt : Int := 1640966400

def mailDays : Int := 30 * 86400

/-- A row after `update_add`: a field that is `nil` is not written. -/
def TxzData.set (row data : TxzData) : TxzData where
  record := data.record.or row.record
  emailAt := data.emailAt.or row.emailAt

/-- `CheckOver`. -/
def TxzData.CheckOver (d : TxzData) (now : Int) : Bool :=
  match d.record with
  | none => false
  | some r => !(r.endAt < firstEndAt) && now > r.endAt

namespace TxzUser
variable (cfg : PassTable) (t : Tables)

def getCfg (s : TxzUser) : Option (Int × Int) :=
  s.act.filter fun act => act.1 ≤ s.now ∧ s.now ≤ act.2

/-- What `self.Data` is once it has been loaded. -/
def loaded (s : TxzUser) : TxzData := s.data.getD s.row

def load (s : TxzUser) : TxzUser := { s with data := some s.loaded, SFlag := false }

def save (s : TxzUser) : TxzUser :=
  if s.SFlag then { s with row := s.row.set s.loaded, SFlag := false } else s

/-- `self.Data` replaced. -/
def write (s : TxzUser) (data : TxzData) : TxzUser := { s with data := some data, SFlag := true }

/-- `RewardToEmail`; without normal rewards there is no mail. -/
def RewardToEmail (s : TxzUser) : TxzUser :=
  match s.loaded.record with
  | none => s
  | some r =>
      if s.loaded.emailAt.getD 0 > 0 then s
      else match r.rewardList cfg 0 none with
        | .error _ => s
        | .ok claim =>
            if s.now - r.endAt > mailDays then s.write ⟨none, none⟩
            else
              let s := s.write ⟨none, some s.now⟩
              if claim.rNormalList = [] then s
              else
                { s with mails := s.mails ++ [⟨s.no, claim.rNormalList.flatMap PassRow.award ++
                  claim.rSeniorList.flatMap PassRow.senior_award⟩] }

/-- The end of a period, as it is looked for at a check and when the user comes online. -/
def settle (s : TxzUser) : TxzUser :=
  if s.loaded.CheckOver s.now then s.RewardToEmail cfg else s

def UpdateActivityTime (s : TxzUser) (startAt endAt : Int) : TxzUser :=
  { s.write ⟨some (.create startAt endAt), some 0⟩ with no := s.no + 1 }

/-- `CheckAndUpdateOpen`. -/
def CheckAndUpdateOpen (s : TxzUser) : TxzUser :=
  let s := (s.load.settle cfg).save
  match s.getCfg with
  | none => s
  | some (startAt, endAt) =>
      let same := s.loaded.record.any fun r => r.startAt = startAt ∧ r.endAt = endAt
      (if same then s else s.UpdateActivityTime startAt endAt).save

/-- The record, where the activity is open and the record is of its time. -/
def openRecord (s : TxzUser) : Option PassRecord :=
  if s.getCfg = none then none
  else s.loaded.record.filter fun r => r.startAt ≤ s.now ∧ s.now ≤ r.endAt

/-- A record that has changed. -/
def writeRecord (s : TxzUser) (r : PassRecord) : TxzUser :=
  s.write { s.loaded with record := some r }

/-- The rewards of a claim, handed out. -/
def grant (s : TxzUser) (claim : Claim) : TxzUser :=
  { s with
    bag := (claim.rNormalList.map PassRow.award ++ claim.rSeniorList.map PassRow.senior_award).foldl
      (Bag.addList t s.now) s.bag
    granted := s.granted ++ claim.rNormalList.map (fun c => ⟨s.no, c.level, false⟩) ++
      claim.rSeniorList.map (fun c => ⟨s.no, c.level, true⟩) }

/-- The request `TxzReward`. -/
def TxzReward (s : TxzUser) (lv : Int) (type : Option RewardType) : TxzUser × RetVal :=
  let s := s.CheckAndUpdateOpen cfg
  match s.openRecord with
  | none => (s, .notOpen_9)
  | some r =>
      if type = some .senior ∧ ¬r.HasGold then (s, .empty_7)
      else match r.rewardList cfg lv type with
        | .error ret => (s, ret)
        | .ok claim => ((s.writeRecord claim.record).save.grant t claim, .succeed_1)

/-- The request `TxzBuyLvByDiamond`. -/
def TxzBuyLvByDiamond (s : TxzUser) (lv : Int) : TxzUser × RetVal :=
  let s := s.CheckAndUpdateOpen cfg
  match s.openRecord with
  | none => (s, .notOpen_9)
  | some r => match r.BuyLvByDiamond cfg t.items s.now s.bag lv with
      | (r, bag, .succeed_1) => ({ s.writeRecord r with bag := bag }.save, .succeed_1)
      | (_, _, ret) => (s.save, ret)

def loadAndAddTxzExp (s : TxzUser) (num : Nat) : TxzUser :=
  let s := s.CheckAndUpdateOpen cfg
  match s.openRecord with
  | none => s
  | some r => (s.writeRecord (r.addExp cfg num)).save

/-- The listener of a purchase in the store. -/
def userStoreBuy (s : TxzUser) (id : StorId) : TxzUser :=
  if id = storeTxzGold ∨ id = storeTxzChaoGold_1 ∨ id = storeTxzChaoGold_2 then
    let s := s.CheckAndUpdateOpen cfg
    match s.openRecord with
    | none => s
    | some r => (s.writeRecord (r.addStory id)).save
  else s

def userOnline (s : TxzUser) : TxzUser :=
  let s := s.CheckAndUpdateOpen cfg
  match s.openRecord with
  | none => s
  | some _ => (s.settle cfg).save

def step (s : TxzUser) (e : TxzEvent) : Option TxzUser :=
  match e with
  | .tick d => some { s with now := s.now + d }
  | .activity act => some { s with act := act }
  | .restart => some { s with data := none, SFlag := false }
  | .userOnline => some (s.userOnline cfg)
  | .userStoreBuy id => some (s.userStoreBuy cfg id)
  | .addTxzExp num => some (s.loadAndAddTxzExp cfg num)
  | .getTxzData => some (s.CheckAndUpdateOpen cfg).save
  | .txzBuyLvByDiamond lv => some (s.TxzBuyLvByDiamond cfg t lv).1
  | .txzReward lv type => some (s.TxzReward cfg t lv type).1

/-- A user without a row. -/
def start (bag : Bag) (now : Int) : TxzUser :=
  ⟨none, false, ⟨none, none⟩, bag, now, none, 0, [], []⟩

end TxzUser

end HuluLandlord.Agent
