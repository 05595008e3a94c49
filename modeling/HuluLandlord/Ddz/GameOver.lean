import HuluLandlord.Define
import Mathlib.Data.Rat.Floor
import Mathlib.Algebra.Order.Floor.Ring
import Mathlib.Tactic

/-!
Settlement of a finished game. Each farmer's amount is the least of four limits;
the landlord takes or pays the sum, and a correction removes one more bean from
him. Division is exact.
-/
namespace HuluLandlord.Ddz

structure GameOverData where
  multiple : Nat
  isWin : Bool
  isLast : Bool
  isLandlord : Bool
  gold : Int
  goldChange : Int
  goldBrokeLast : Int
  tag : RoomPlayerOverTag
  goldBase : Int
  goldOld : Int
  goldMax : Int
  goldRealNum : ℚ
  goldReal : Int
  deriving DecidableEq

/-- The fields the first loop of `gameover` fills in. -/
def GameOverData.start (multiple : Nat) (isWin isLast isLandlord : Bool) (gold : Int) :
    GameOverData where
  multiple := multiple
  isWin := isWin
  isLast := isLast
  isLandlord := isLandlord
  gold := gold
  goldChange := 0
  goldBrokeLast := 0
  tag := .default
  goldBase := 0
  goldOld := 0
  goldMax := 0
  goldRealNum := 0
  goldReal := 0

def getMultipleMax (capped_num : Int) (doubleMaxMultiple : Seat → Option Nat) : Int :=
  (List.finRange 3).foldl (fun top q =>
    if (doubleMaxMultiple q).any fun m => 1 < m then top * 2 else top) capped_num

def getRewardMax (capped_num : Int) (doubleMaxMultiple : Seat → Option Nat) : Int :=
  if capped_num < 0 then capped_num else getMultipleMax capped_num doubleMaxMultiple

def sign (isWin : Bool) : Int := if isWin then 1 else -1

/-- The amount between a farmer and the landlord before it gets its sign. -/
def farmerGoldChange (difen rewardMax : Int) (landlord farmer : GameOverData) : Int :=
  let goldBase := difen * farmer.multiple
  let goldRealNum : ℚ := landlord.gold / landlord.multiple * farmer.multiple
  min (min goldBase (if rewardMax < 0 then goldBase else rewardMax))
    (min ⌊goldRealNum⌋ farmer.gold)

def farmerOver (difen rewardMax : Int) (landlord farmer : GameOverData) : GameOverData :=
  let goldRealNum : ℚ := landlord.gold / landlord.multiple * farmer.multiple
  let amount := farmerGoldChange difen rewardMax landlord farmer
  let tag := if amount = rewardMax then .max else farmer.tag
  { farmer with
    goldBase := difen * farmer.multiple
    goldOld := farmer.gold
    goldMax := rewardMax
    goldRealNum := goldRealNum
    goldReal := ⌊goldRealNum⌋
    tag := if !farmer.isWin ∧ amount = farmer.gold then .broke else tag
    goldChange := amount * sign farmer.isWin
    gold := farmer.gold + amount * sign farmer.isWin }

/-- What the landlord takes or pays: the farmers' sum, and one more bean when the
system eats it. -/
def landlordGoldChange (difen rewardMax : Int) (landlord : GameOverData)
    (farmers : List GameOverData) : Int :=
  let goldChangeSum := (farmers.map (farmerGoldChange difen rewardMax landlord)).sum
  if !landlord.isWin ∧ landlord.gold - goldChangeSum = 1 then
    let goldRealNumSum := ⌈(farmers.map fun farmer =>
      (landlord.gold / landlord.multiple * farmer.multiple : ℚ)).sum⌉
    if goldRealNumSum ≥ landlord.gold then goldChangeSum + 1 else goldChangeSum
  else goldChangeSum

def landlordOver (difen rewardMax : Int) (landlord : GameOverData)
    (farmers : List GameOverData) : GameOverData :=
  let amount := landlordGoldChange difen rewardMax landlord farmers
  let gold := landlord.gold + amount * sign landlord.isWin
  let allMax := (farmers.map (farmerOver difen rewardMax landlord)).all fun farmer =>
    farmer.tag = .max
  { landlord with
    goldOld := landlord.gold
    goldChange := amount * sign landlord.isWin
    gold := gold
    tag := if !landlord.isWin ∧ gold ≤ 1 then .broke
      else if allMax then .max else .default }

/-- `gameover` from the data of the three players on; `none` where no player is the
landlord and the source indexes a nil value. -/
def gameover (difen rewardMax : Int) (datas : Seat → GameOverData) :
    Option (Seat → GameOverData) :=
  match (List.finRange 3).reverse.find? fun q => (datas q).isLandlord with
  | none => none
  | some l =>
      let farmers := ((List.finRange 3).filter fun q => !(datas q).isLandlord).map datas
      some fun q =>
        let data :=
          if q = l then landlordOver difen rewardMax (datas l) farmers
          else if (datas q).isLandlord then datas q
          else farmerOver difen rewardMax (datas l) (datas q)
        if data.isWin then data else { data with goldBrokeLast := data.goldChange }

end HuluLandlord.Ddz
