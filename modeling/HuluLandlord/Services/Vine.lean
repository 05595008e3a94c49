import HuluLandlord.Services.Gourd

/-!
The cache of the gourd service and the rows it is written to. The data of a vine are loaded
from their row, with a default for every field that is missing, so such a field counts as
its default here; a place without fruits counts as one that is not there. A vine is written
as a whole when a new day begins and when a growth pass has grown or fertilised a fruit, and
by hand otherwise. No command clears a field, so a row that is written as a whole is the data.
-/
namespace HuluLandlord.Services
open Transition Table

structure VineFruit where
  id : Nat
  growLv : Nat
  tiemVal : Int
  type : Nat
  endDt : Int
  addNum : Int
  bePickNum : Int
  canPick : Bool
  isTree : Bool
  isStopOutput : Bool
  isUseFertilizer : Bool
  deriving DecidableEq, Repr

structure FriendHelp where
  id : UserId
  endDt : Int
  deriving DecidableEq, Repr

/-- The data of a vine; of `bonusObj` the bonuses of the runes, by type. -/
structure GourdData where
  versionsKey1 : Option String
  resetDt : Option Int
  vip : Option Nat
  gourdLv : Option Nat
  bonusObj : Option (List (String × Int))
  gourdArr : Nat → List VineFruit
  bePickFruitNumDay : Int
  fertilizerNum : Int
  loosenSoilLv : Nat
  loosenSoilO2Val : Int
  loosenSoilO2ValDay : Int
  loosenSoilEndDt : Int
  loosenSoilRecord : UserId → Nat
  friendHelpArr : List FriendHelp

/-- A row of `cfg_gourd_vine`. -/
structure VineRow where
  level : Nat
  unlock_num : Nat
  single_output_times : Int
  rewards : Nat → FruitReward

structure OxygenRow where
  oxygen_num : Int
  output_percentage : Int
  deriving DecidableEq, Repr

/-- The tables the service reads: `cfg_gourd_vine`, `cfg_gourd_vine_oxygen`, `vipGroup`, and of
`globalCfg` the entries 103003, 103004, 103012, 103016, 103017 and 103020. -/
structure VineCfg where
  row : Nat → Option VineRow
  oxygen : Nat → Option OxygenRow
  oxygenMax : Nat
  vipAdd : Nat → Option Int
  fertilizerRate : Int
  rateMax : Int
  ratePick : Int
  soilTime : Int
  helpRate : Int
  helpTime : Int
  numMax : Nat
  timeMax : Int
  countMax : Nat
  dayZero : Int → Int

/-- The time of a command, and what its growth passes draw: for the pass, the place and the fruit
an id, and a type. -/
structure VineEnv where
  now : Int
  uid : Nat → Nat → Nat → Nat
  chance : Nat → Nat → Nat → Nat

def gourdGoldBase : String := "GourdGoldBase"

def versionsKey1 : String := "2021.11.16 10:58"

namespace GourdData
variable (cfg : VineCfg)

/-- `getGourdAddRate`: the data, the rate, and whether fertiliser has been used. -/
def getGourdAddRate (u : GourdData) (now : Int) : GourdData × Int × Bool :=
  let isUse : Bool := u.fertilizerNum > 0
  let soil := if now ≤ u.loosenSoilEndDt then
    ((cfg.oxygen u.loosenSoilLv).map OxygenRow.output_percentage).getD 0 else 0
  let help := ((u.friendHelpArr.filter fun value => now ≤ value.endDt).map fun _ =>
    cfg.helpRate).sum
  let rune := ((u.bonusObj.bind fun rune => rune.lookup gourdGoldBase).getD 0)
  let vip := ((u.vip.bind cfg.vipAdd).getD 0)
  ({ u with fertilizerNum := if isUse then u.fertilizerNum - 1 else u.fertilizerNum },
    (if isUse then cfg.fertilizerRate else 0) + soil + help + rune + vip, isUse)

/-- The gold that is added to what a fruit of a type brings. -/
def addNum (sData : VineRow) (type : Nat) (rate : Int) : Int := (sData.rewards type).gold * rate / 10000

/-- The time that is left in a place. -/
def timeVal (arr : List VineFruit) : Int := cfg.timeMax - (arr.map VineFruit.tiemVal).sum

/-- The last fruit of a place replaced. -/
def setLast (arr : List VineFruit) (f : VineFruit → VineFruit) : List VineFruit :=
  match arr.getLast? with
  | none => arr
  | some endData => arr.dropLast ++ [f endData]

/-- The loop of `updateGourdOutput`, with the number of fruits it may still add, over the fruits
of one place; `chance` and `uid` are by that number. -/
def outputLoop (sData : VineRow) (now : Int) (uid chance : Nat → Nat) (isOutputOther : Bool) :
    Nat → GourdData → List VineFruit → Bool → GourdData × List VineFruit × Bool
  | 0, u, arr, isDirty => (u, arr, isDirty)
  | n + 1, u, arr, isDirty =>
      let grow (startDt : Int) : GourdData × List VineFruit × Bool :=
        if timeVal cfg arr < sData.single_output_times then
          (u, setLast arr fun endData => { endData with isStopOutput := true }, isDirty)
        else
          let type := if isOutputOther then chance n else 0
          let (u, addRateSum, isUseFertilizer) := u.getGourdAddRate cfg now
          let data : VineFruit := ⟨uid n, sData.level, sData.single_output_times, type,
            startDt + sData.single_output_times, addNum sData type addRateSum, 0, true, true, false,
            isUseFertilizer⟩
          outputLoop sData now uid chance isOutputOther n u
            (setLast arr (fun endData => { endData with isTree := false }) ++ [data]) true
      match arr.getLast? with
      | none => grow now
      | some endData =>
          if endData.endDt > now then
            if u.fertilizerNum > 0 ∧ ¬endData.isUseFertilizer then
              let (u, addRateSum, isUseFertilizer) := u.getGourdAddRate cfg now
              (u, setLast arr fun endData => { endData with
                isUseFertilizer := isUseFertilizer
                addNum := addNum sData endData.type addRateSum }, true)
            else (u, arr, isDirty)
          else if endData.type ≠ 0 then (u, arr, isDirty)
          else grow (if endData.isTree ∧ ¬endData.isStopOutput then endData.endDt else now)

/-- `updateGourd`: the places from `i` on, `n` of them, and whether anything has to be written. -/
def growPlaces (sData : VineRow) (e : VineEnv) (pass : Nat) :
    Nat → Nat → Nat → GourdData → Bool → GourdData × Bool
  | _, 0, _, u, isDirty => (u, isDirty)
  | i, n + 1, otherTypeNum, u, isDirty =>
      let (u, arr, dirty) := outputLoop cfg sData e.now (e.uid pass i) (e.chance pass i)
        (otherTypeNum < cfg.countMax) 20 u (u.gourdArr i) false
      growPlaces sData e pass (i + 1) n
        (if arr.head?.any fun f => f.type ≠ 0 then otherTypeNum + 1 else otherTypeNum)
        { u with gourdArr := Function.update u.gourdArr i arr } (isDirty || dirty)

def grow (e : VineEnv) (pass : Nat) (u : GourdData) : GourdData × Bool :=
  match u.gourdLv.bind cfg.row with
  | none => (u, false)
  | some sData => growPlaces cfg sData e pass 1 sData.unlock_num 0 u false

/-- The data of a new day. -/
def newDay (u : GourdData) (dt : Int) : GourdData :=
  { u with
    resetDt := some dt, bePickFruitNumDay := 0, loosenSoilO2ValDay := 0
    loosenSoilRecord := fun _ => 0, friendHelpArr := [] }

/-- Soil whose time is over. -/
def expire (u : GourdData) (now : Int) : GourdData :=
  if now > u.loosenSoilEndDt then { u with loosenSoilLv := 0, loosenSoilO2Val := 0 } else u

/-- The levels of the soil in `AddO2`, `n` of which may follow. -/
def raiseSoil (o2Val : Int) : Nat → Nat → Nat
  | lv, 0 => lv
  | lv, n + 1 => match cfg.oxygen lv with
      | none => lv
      | some sData => if o2Val ≥ sData.oxygen_num then raiseSoil o2Val (lv + 1) n else lv

end GourdData

/-- What agents send to `UpdateData`; a field that is not there is left as it is. -/
structure VineUpdate where
  vip : Option Nat
  gourdLv : Option Nat
  bonusObj : Option (List (String × Int))
  deriving DecidableEq, Repr

/-- `table.merge`. -/
def GourdData.merge (u : GourdData) (data : VineUpdate) : GourdData :=
  { u with
    vip := data.vip.or u.vip, gourdLv := data.gourdLv.or u.gourdLv
    bonusObj := data.bonusObj.or u.bonusObj }

/-- The data of a user in the cache, and his row. -/
structure Vine where
  obj : GourdData
  row : GourdData

namespace Vine
variable (cfg : VineCfg)

def updateGourd (e : VineEnv) (pass : Nat) (v : Vine) : Vine :=
  let grown := v.obj.grow cfg e pass
  ⟨grown.1, if grown.2 then grown.1 else v.row⟩

/-- `tryGetData` once the data are in the cache. -/
def tryGetData (e : VineEnv) (pass : Nat) (v : Vine) : Vine :=
  let dt := cfg.dayZero e.now
  let v : Vine := if v.obj.resetDt ≠ some dt then ⟨v.obj.newDay dt, v.obj.newDay dt⟩ else v
  updateGourd cfg e pass ⟨v.obj.expire e.now, v.row⟩

def UpdateData (data : VineUpdate) (e : VineEnv) (v : Vine) : Vine :=
  let v := v.tryGetData cfg e 0
  updateGourd cfg e 1 ⟨v.obj.merge data, v.row⟩

/-- The fruit of a place, with where it stands. -/
def fruitAt (u : GourdData) (id fruitId : Nat) : Option (Nat × VineFruit) :=
  let index := (u.gourdArr id).findIdx fun f => f.id = fruitId
  ((u.gourdArr id)[index]?).map fun gourdData => (index, gourdData)

/-- `_getGourdRewardArr`: the gold of a fruit. -/
def goldOf (gourdData : VineFruit) : Option Int :=
  (cfg.row gourdData.growLv).map fun sData => (sData.rewards gourdData.type).gold + gourdData.addNum

/-- A place of the data without a fruit. -/
def removeFruit (u : GourdData) (id index : Nat) : GourdData :=
  { u with gourdArr := Function.update u.gourdArr id ((u.gourdArr id).eraseIdx index) }

/-- A fruit that may be picked, with where it stands and its gold. -/
def ripe (u : GourdData) (now : Int) (id fruitId : Nat) : Option (Nat × VineFruit × Int) :=
  match fruitAt u id fruitId with
  | none => none
  | some (index, gourdData) =>
      if gourdData.endDt > now then none
      else (goldOf cfg gourdData).map fun gold => (index, gourdData, gold)

/-- `PickFruit` by the owner. -/
def PickFruit (id fruitId : Nat) (e : VineEnv) (v : Vine) : Vine :=
  let v := v.tryGetData cfg e 0
  match ripe cfg v.obj e.now id fruitId with
  | none => v
  | some (index, _, _) => updateGourd cfg e 1 ⟨removeFruit v.obj id index, v.row⟩

/-- `bePickNum / gold >= rateMax / 10000`. -/
def overMax (bePickNum gold : Int) : Bool := bePickNum * 10000 ≥ cfg.rateMax * gold

/-- What `PickFruit` by another takes: the data after it, where a share may still be taken. -/
def steal (u : GourdData) (now : Int) (id fruitId : Nat) : Option GourdData :=
  match ripe cfg u now id fruitId with
  | none => none
  | some (index, gourdData, gold) =>
      if overMax cfg gourdData.bePickNum gold then none
      else
        let num := gold * cfg.ratePick / 10000
        let bePickNum := gourdData.bePickNum + num
        some { u with
          bePickFruitNumDay := u.bePickFruitNumDay + num
          gourdArr := Function.update u.gourdArr id ((u.gourdArr id).set index { gourdData with
            bePickNum := bePickNum, canPick := overMax cfg bePickNum gold }) }

/-- The fruits that a quick pick takes. -/
def goes (now : Int) (type : Nat) (f : VineFruit) : Bool :=
  f.endDt ≤ now ∧ (type = 0 ∨ (type = 1 ∧ ¬f.isTree))

def removeAll (u : GourdData) (now : Int) (type : Nat) : GourdData :=
  { u with gourdArr := fun id => (u.gourdArr id).filter fun f => !goes now type f }

def PickFruitQuick (type : Nat) (e : VineEnv) (v : Vine) : Vine :=
  let v := v.tryGetData cfg e 0
  updateGourd cfg e 1 ⟨removeAll v.obj e.now type, v.row⟩

def Fertilizer (num : Int) (e : VineEnv) (v : Vine) : Vine :=
  let v := v.tryGetData cfg e 0
  let fertilizerNum := v.obj.fertilizerNum + num
  updateGourd cfg e 1 ⟨{ v.obj with fertilizerNum := fertilizerNum },
    { v.row with fertilizerNum := fertilizerNum }⟩

/-- The data of `AddO2`, whose soil gets new time when its own is over. -/
def breathe (u : GourdData) (now o2Val : Int) : GourdData :=
  let u := if now > u.loosenSoilEndDt then
    { u with loosenSoilLv := 0, loosenSoilO2Val := 0, loosenSoilEndDt := now + cfg.soilTime } else u
  let loosenSoilO2Val := u.loosenSoilO2Val + o2Val
  { u with
    loosenSoilO2Val := loosenSoilO2Val
    loosenSoilO2ValDay := u.loosenSoilO2ValDay + o2Val
    loosenSoilLv := if cfg.oxygen (u.loosenSoilLv + 1) = none then u.loosenSoilLv
      else GourdData.raiseSoil cfg loosenSoilO2Val u.loosenSoilLv (cfg.oxygenMax - u.loosenSoilLv) }

/-- `AddO2`; the level of the soil is not among the fields that are written. -/
def AddO2 (o2Val : Int) (e : VineEnv) (pass : Nat) (v : Vine) : Vine :=
  let v := v.tryGetData cfg e pass
  let obj := breathe cfg v.obj e.now o2Val
  ⟨obj, { v.row with
    loosenSoilO2Val := obj.loosenSoilO2Val
    loosenSoilO2ValDay := obj.loosenSoilO2ValDay
    loosenSoilEndDt := obj.loosenSoilEndDt }⟩

def LoosenSoil (fromId : UserId) (o2Val : Int) (e : VineEnv) (v : Vine) : Vine :=
  let v := v.tryGetData cfg e 0
  let count := v.obj.loosenSoilRecord fromId + 1
  AddO2 cfg o2Val e 1
    ⟨{ v.obj with loosenSoilRecord := Function.update v.obj.loosenSoilRecord fromId count },
      { v.row with loosenSoilRecord := Function.update v.row.loosenSoilRecord fromId count }⟩

def FriendHelp (friendId : UserId) (e : VineEnv) (v : Vine) : Vine :=
  let v := v.tryGetData cfg e 0
  if v.obj.friendHelpArr.length ≥ cfg.numMax then v
  else
    let friendHelpArr := v.obj.friendHelpArr ++ [⟨friendId, e.now + cfg.helpTime⟩]
    ⟨{ v.obj with friendHelpArr := friendHelpArr }, { v.row with friendHelpArr := friendHelpArr }⟩

end Vine

/-- The cache of the service, and the rows of the users. Ids are numerals, those of places too. -/
structure VineState where
  cache : UserId → Option GourdData
  rows : UserId → Option GourdData

inductive VineEvent
  | insert (id : UserId) (gourdLv : Option Nat)
  | restart
  | getData (id : UserId) (e : VineEnv)
  | updateData (id : UserId) (data : VineUpdate) (e : VineEnv)
  | pickFruit (targetId fromId : UserId) (id fruitId : Nat) (e : VineEnv)
  | pickFruitQuick (targetId : UserId) (type : Nat) (e : VineEnv)
  | fertilizer (id : UserId) (num : Int) (e : VineEnv)
  | loosenSoil (id fromId : UserId) (o2Val : Int) (e : VineEnv)
  | addO2 (id : UserId) (o2Val : Int) (e : VineEnv)
  | friendHelp (id friendId : UserId) (e : VineEnv)

namespace VineState
variable (cfg : VineCfg)

/-- A row as the agent of a new user makes it. -/
def newRow (gourdLv : Option Nat) : GourdData where
  versionsKey1 := none
  resetDt := none
  vip := none
  gourdLv := gourdLv
  bonusObj := none
  gourdArr := fun _ => []
  bePickFruitNumDay := 0
  fertilizerNum := 0
  loosenSoilLv := 0
  loosenSoilO2Val := 0
  loosenSoilO2ValDay := 0
  loosenSoilEndDt := 0
  loosenSoilRecord := fun _ => 0
  friendHelpArr := []

/-- The data of a user, from the cache or from his row. -/
def load (s : VineState) (id : UserId) : Option Vine :=
  match s.rows id with
  | none => none
  | some row => match s.cache id with
      | some obj => some ⟨obj, row⟩
      | none =>
          if row.versionsKey1 ≠ some Services.versionsKey1 then
            let obj := { row with
              versionsKey1 := some Services.versionsKey1, gourdArr := fun _ => [] }
            some ⟨obj, obj⟩
          else some ⟨row, row⟩

/-- A command on the data of a user, where there are any. -/
def on (s : VineState) (id : UserId) (f : Vine → Vine) : VineState :=
  match s.load id with
  | none => s
  | some v => ⟨Function.update s.cache id (some (f v).obj), Function.update s.rows id (some (f v).row)⟩

/-- `dbx.update` after `PickFruit` by another, on the row with the id of the place. -/
def writePlace (s : VineState) (id : Nat) (u : GourdData) : VineState :=
  { s with rows := Function.update s.rows id ((s.rows id).map fun row => { row with
      bePickFruitNumDay := u.bePickFruitNumDay
      gourdArr := Function.update row.gourdArr id (u.gourdArr id) }) }

/-- `PickFruit` by another. -/
def steal (s : VineState) (targetId : UserId) (id fruitId : Nat) (e : VineEnv) : VineState :=
  let s := s.on targetId (Vine.tryGetData cfg e 0)
  match (s.cache targetId).bind fun obj => Vine.steal cfg obj e.now id fruitId with
  | none => s
  | some u => { s with cache := Function.update s.cache targetId (some u) }.writePlace id u

def step (s : VineState) (e : VineEvent) : Option VineState :=
  match e with
  | .insert id gourdLv =>
      if s.rows id = none then some { s with rows := Function.update s.rows id (newRow gourdLv) }
      else none
  | .restart => some { s with cache := fun _ => none }
  | .getData id e => some (s.on id (Vine.tryGetData cfg e 0))
  | .updateData id data e => some (s.on id (Vine.UpdateData cfg data e))
  | .pickFruit targetId fromId id fruitId e =>
      if targetId = fromId then some (s.on targetId (Vine.PickFruit cfg id fruitId e))
      else some (s.steal cfg targetId id fruitId e)
  | .pickFruitQuick targetId type e => some (s.on targetId (Vine.PickFruitQuick cfg type e))
  | .fertilizer id num e => some (s.on id (Vine.Fertilizer cfg num e))
  | .loosenSoil id fromId o2Val e => some (s.on id (Vine.LoosenSoil cfg fromId o2Val e))
  | .addO2 id o2Val e => some (s.on id (Vine.AddO2 cfg o2Val e 0))
  | .friendHelp id friendId e => some (s.on id (Vine.FriendHelp cfg friendId e))

def start : VineState := ⟨fun _ => none, fun _ => none⟩

end VineState

namespace GourdData

/-- A growth pass grows or fertilises a fruit of a place. -/
def PlaceGrows (cfg : VineCfg) (sData : VineRow) (now fertilizerNum : Int) (arr : List VineFruit) :
    Prop :=
  match arr.getLast? with
  | none => ¬timeVal cfg arr < sData.single_output_times
  | some endData =>
      if endData.endDt > now then fertilizerNum > 0 ∧ ¬endData.isUseFertilizer
      else endData.type = 0 ∧ ¬timeVal cfg arr < sData.single_output_times

/-- A growth pass finds a place full, and marks it. -/
def PlaceStops (cfg : VineCfg) (sData : VineRow) (now : Int) (arr : List VineFruit) : Prop :=
  match arr.getLast? with
  | none => False
  | some endData => endData.endDt ≤ now ∧ endData.type = 0 ∧
      timeVal cfg arr < sData.single_output_times ∧ endData.isStopOutput = false

/-- A growth pass grows or fertilises a fruit, so it writes the whole vine. -/
def Grows (cfg : VineCfg) (u : GourdData) (now : Int) : Prop :=
  ∃ sData ∈ u.gourdLv.bind cfg.row, ∃ i < sData.unlock_num,
    PlaceGrows cfg sData now u.fertilizerNum (u.gourdArr (1 + i))

/-- A growth pass marks a place that has become full. -/
def Stops (cfg : VineCfg) (u : GourdData) (now : Int) : Prop :=
  ∃ sData ∈ u.gourdLv.bind cfg.row, ∃ i < sData.unlock_num,
    PlaceStops cfg sData now (u.gourdArr (1 + i))

section Pass
variable {cfg : VineCfg} {sData : VineRow} {u : GourdData} {e : VineEnv} {now : Int}
  {uid chance : Nat → Nat} {isOutputOther isDirty : Bool} {arr : List VineFruit}
  {n i other pass : Nat}

theorem outputLoop_dirty :
    (outputLoop cfg sData now uid chance isOutputOther n u arr true).2.2 = true := by
  induction n generalizing u arr with
  | zero => rfl
  | succ n ih =>
      simp only [outputLoop]
      split
      · split
        · rfl
        · exact ih
      · split
        · split <;> rfl
        · split
          · rfl
          · split
            · rfl
            · exact ih

theorem outputLoop_grows (grows : PlaceGrows cfg sData now u.fertilizerNum arr) :
    (outputLoop cfg sData now uid chance isOutputOther (n + 1) u arr isDirty).2.2 = true := by
  rw [PlaceGrows] at grows
  simp only [outputLoop]
  cases last : arr.getLast? with
  | none =>
      rw [last] at grows
      simp only
      rw [if_neg grows]
      exact outputLoop_dirty
  | some endData =>
      rw [last] at grows
      simp only at grows ⊢
      split
      · rename_i later
        rw [if_pos later] at grows
        rw [if_pos grows]
      · rename_i past
        rw [if_neg past] at grows
        rw [if_neg (not_not.mpr grows.1), if_neg grows.2]
        exact outputLoop_dirty

/-- A place in which nothing is grown or fertilised is left as it is, unless it is marked. -/
theorem outputLoop_quiet
    (quiet : (outputLoop cfg sData now uid chance isOutputOther (n + 1) u arr false).2.2 = false) :
    (outputLoop cfg sData now uid chance isOutputOther (n + 1) u arr false).1 = u ∧
      (¬PlaceStops cfg sData now arr →
        (outputLoop cfg sData now uid chance isOutputOther (n + 1) u arr false).2.1 = arr) := by
  simp only [outputLoop] at quiet ⊢
  rw [PlaceStops]
  cases last : arr.getLast? with
  | none =>
      rw [last] at quiet
      simp only at quiet ⊢
      split at quiet
      · rename_i full
        rw [if_pos full]
        refine ⟨rfl, fun _ => ?_⟩
        simp only [setLast, last]
      · cases outputLoop_dirty.symm.trans quiet
  | some endData =>
      rw [last] at quiet
      simp only at quiet ⊢
      split at quiet
      · rename_i later
        rw [if_pos later]
        split at quiet
        · cases quiet
        · rename_i unused
          rw [if_neg unused]
          exact ⟨rfl, fun _ => rfl⟩
      · rename_i past
        rw [if_neg past]
        split at quiet
        · rename_i special
          rw [if_pos special]
          exact ⟨rfl, fun _ => rfl⟩
        · rename_i default_
          rw [if_neg default_]
          split at quiet
          · rename_i full
            rw [if_pos full]
            refine ⟨rfl, fun unmarked => ?_⟩
            have marked : endData.isStopOutput = true := by
              by_contra free
              exact unmarked ⟨not_lt.mp past, not_not.mp default_, full, Bool.eq_false_iff.mpr free⟩
            simp only [setLast, last]
            have same : { endData with isStopOutput := true } = endData := by
              rw [← marked]
            rw [same]
            exact List.dropLast_append_getLast? endData last
          · cases outputLoop_dirty.symm.trans quiet

theorem growPlaces_dirty : (growPlaces cfg sData e pass i n other u true).2 = true := by
  induction n generalizing i other u with
  | zero => rfl
  | succ n ih => exact ih

theorem growPlaces_grows {k : Nat} (short : k < n)
    (grows : PlaceGrows cfg sData e.now u.fertilizerNum (u.gourdArr (i + k))) :
    (growPlaces cfg sData e pass i n other u isDirty).2 = true := by
  induction n generalizing i other u isDirty k with
  | zero => omega
  | succ n ih =>
      simp only [growPlaces]
      generalize done : outputLoop cfg sData e.now (e.uid pass i) (e.chance pass i)
        (decide (other < cfg.countMax)) 20 u (u.gourdArr i) false = out
      cases dirty : out.2.2 with
      | true =>
          rw [Bool.or_true]
          exact growPlaces_dirty
      | false =>
          -- a place that is not changed leaves the others what they were
          obtain ⟨same, _⟩ := outputLoop_quiet (done.symm ▸ dirty)
          rw [done] at same
          cases k with
          | zero =>
              have grown := @outputLoop_grows cfg sData u e.now (e.uid pass i) (e.chance pass i)
                (decide (other < cfg.countMax)) false (u.gourdArr i) 19 grows
              rw [done, dirty] at grown
              cases grown
          | succ k =>
              refine ih (k := k) (by omega) ?_
              have apart : i + 1 + k ≠ i := by omega
              simp only [same, Function.update_of_ne apart]
              have next : i + 1 + k = i + (k + 1) := by omega
              exact next.symm ▸ grows

theorem growPlaces_quiet (quiet : (growPlaces cfg sData e pass i n other u isDirty).2 = false)
    (free : ∀ k < n, ¬PlaceStops cfg sData e.now (u.gourdArr (i + k))) :
    (growPlaces cfg sData e pass i n other u isDirty).1 = u := by
  induction n generalizing i other isDirty with
  | zero => rfl
  | succ n ih =>
      simp only [growPlaces] at quiet ⊢
      generalize done : outputLoop cfg sData e.now (e.uid pass i) (e.chance pass i)
        (decide (other < cfg.countMax)) 20 u (u.gourdArr i) false = out at quiet ⊢
      cases dirty : out.2.2 with
      | true =>
          rw [dirty, Bool.or_true] at quiet
          nomatch growPlaces_dirty.symm.trans quiet
      | false =>
          obtain ⟨same, kept⟩ := outputLoop_quiet (done.symm ▸ dirty)
          rw [done] at same kept
          have unchanged : { out.1 with gourdArr := Function.update out.1.gourdArr i out.2.1 } = u := by
            rw [same, kept (free 0 (Nat.succ_pos n)), Function.update_eq_self]
          rw [unchanged, dirty] at quiet
          rw [unchanged]
          refine ih quiet fun k short => ?_
          have next : i + 1 + k = i + (k + 1) := by omega
          exact next.symm ▸ free (k + 1) (Nat.succ_lt_succ short)

theorem grow_grows (grows : u.Grows cfg e.now) : (u.grow cfg e pass).2 = true := by
  obtain ⟨sData, found, i, short, grows⟩ := grows
  rw [grow, found]
  exact growPlaces_grows short grows

theorem grow_quiet (quiet : (u.grow cfg e pass).2 = false) (free : ¬u.Stops cfg e.now) :
    (u.grow cfg e pass).1 = u := by
  rw [grow] at quiet ⊢
  cases found : u.gourdLv.bind cfg.row with
  | none => rfl
  | some sData =>
      rw [found] at quiet
      exact growPlaces_quiet quiet fun k short stops => free ⟨sData, found, k, short, stops⟩

theorem outputLoop_frame : ∃ k,
    (outputLoop cfg sData now uid chance isOutputOther n u arr isDirty).1 =
      { u with fertilizerNum := k } := by
  induction n generalizing u arr isDirty with
  | zero => exact ⟨u.fertilizerNum, rfl⟩
  | succ n ih =>
      have grown : ∀ arr, ∃ k, (outputLoop cfg sData now uid chance isOutputOther n
          (u.getGourdAddRate cfg now).1 arr true).1 = { u with fertilizerNum := k } := fun arr =>
        @ih (u.getGourdAddRate cfg now).1 true arr
      simp only [outputLoop]
      split
      · split
        · exact ⟨u.fertilizerNum, rfl⟩
        · exact grown _
      · split
        · split
          · exact ⟨_, rfl⟩
          · exact ⟨u.fertilizerNum, rfl⟩
        · split
          · exact ⟨u.fertilizerNum, rfl⟩
          · split
            · exact ⟨u.fertilizerNum, rfl⟩
            · exact grown _

theorem growPlaces_frame : ∃ arr k, (growPlaces cfg sData e pass i n other u isDirty).1 =
    { u with gourdArr := arr, fertilizerNum := k } := by
  induction n generalizing i other u isDirty with
  | zero => exact ⟨u.gourdArr, u.fertilizerNum, rfl⟩
  | succ n ih =>
      simp only [growPlaces]
      obtain ⟨k, used⟩ := @outputLoop_frame cfg sData u e.now (e.uid pass i) (e.chance pass i)
        (decide (other < cfg.countMax)) false (u.gourdArr i) 20
      generalize outputLoop cfg sData e.now (e.uid pass i) (e.chance pass i)
        (decide (other < cfg.countMax)) 20 u (u.gourdArr i) false = out at used ⊢
      obtain ⟨arr, k', grown⟩ := @ih
        { out.1 with gourdArr := Function.update out.1.gourdArr i out.2.1 } (isDirty || out.2.2)
        (i + 1) (if out.2.1.head?.any fun f => f.type ≠ 0 then other + 1 else other)
      exact ⟨arr, k', by rw [grown, used]⟩

/-- A growth pass changes nothing but fruits and fertiliser. -/
theorem grow_frame : ∃ arr k, (u.grow cfg e pass).1 =
    { u with gourdArr := arr, fertilizerNum := k } := by
  rw [grow]
  cases u.gourdLv.bind cfg.row with
  | none => exact ⟨u.gourdArr, u.fertilizerNum, rfl⟩
  | some sData => exact growPlaces_frame

end Pass

/-- The data as a command finds them on its day. -/
def today (u : GourdData) (dt : Int) : GourdData := if u.resetDt ≠ some dt then u.newDay dt else u

/-- Soil whose time is over has no level left. -/
def Level (u : GourdData) (now : Int) : Prop := now > u.loosenSoilEndDt → u.loosenSoilLv = 0

/-- The level of the soil stays: its oxygen does not come up to the threshold. -/
def Stays (cfg : VineCfg) (lv : Nat) (o2Val : Int) : Prop :=
  cfg.oxygen (lv + 1) = none ∨ cfg.oxygenMax ≤ lv ∨ ∀ sData ∈ cfg.oxygen lv, o2Val < sData.oxygen_num

/-- Oxygen that adds no level, whether the soil has time or gets it. -/
def Breathes (cfg : VineCfg) (u : GourdData) (now o2Val : Int) : Prop :=
  if now > u.loosenSoilEndDt then Stays cfg 0 o2Val
  else Stays cfg u.loosenSoilLv (u.loosenSoilO2Val + o2Val)

/-- What is sent is known already. -/
def Known (u : GourdData) (data : VineUpdate) : Prop :=
  data.vip.or u.vip = u.vip ∧ data.gourdLv.or u.gourdLv = u.gourdLv ∧
    data.bonusObj.or u.bonusObj = u.bonusObj

/-- When the data are asked for, a fruit is grown or fertilised, or neither a place has become
full nor the time of the soil has run out. -/
def Opens (cfg : VineCfg) (u : GourdData) (now : Int) : Prop :=
  let u := u.today (cfg.dayZero now)
  u.Grows cfg now ∨ ¬u.Stops cfg now ∧ u.Level now ∧
    (now > u.loosenSoilEndDt → u.loosenSoilO2Val = 0)

/-- The same for a command that writes the oxygen. -/
def OpensSoil (cfg : VineCfg) (u : GourdData) (now : Int) : Prop :=
  let u := u.today (cfg.dayZero now)
  u.Grows cfg now ∨ ¬u.Stops cfg now ∧ u.Level now

end GourdData

namespace Vine

/-- All but the oxygen is written. -/
def ButO2 (u row : GourdData) : Prop := u = { row with loosenSoilO2Val := u.loosenSoilO2Val }

section Commands
variable {cfg : VineCfg} {v : Vine} {e : VineEnv} {pass : Nat} {R : GourdData → GourdData → Prop}
  {now o2Val num : Int} {u row : GourdData}

/-- A growth pass writes what it changes, and with it what has not been written. -/
theorem updateGourd_written (whole : ∀ u, R u u)
    (written : v.obj.Grows cfg e.now ∨ ¬v.obj.Stops cfg e.now ∧ R v.obj v.row) :
    R (v.updateGourd cfg e pass).obj (v.updateGourd cfg e pass).row := by
  rw [updateGourd]
  cases dirty : (v.obj.grow cfg e pass).2 with
  | true => exact whole _
  | false =>
      obtain grows | ⟨free, same⟩ := written
      · cases (GourdData.grow_grows grows).symm.trans dirty
      · have kept : (v.obj.grow cfg e pass).1 = v.obj := GourdData.grow_quiet dirty free
        simp only [kept]
        exact same

theorem expire_grows : (u.expire now).Grows cfg now ↔ u.Grows cfg now := by
  rw [GourdData.expire]
  split <;> exact Iff.rfl

theorem expire_stops : (u.expire now).Stops cfg now ↔ u.Stops cfg now := by
  rw [GourdData.expire]
  split <;> exact Iff.rfl

/-- The row, once the data have been asked for, on the day and with soil that has time. -/
theorem tryGetData_eq (saved : v.obj = v.row) : v.tryGetData cfg e pass = updateGourd cfg e pass
    ⟨(v.obj.today (cfg.dayZero e.now)).expire e.now, v.obj.today (cfg.dayZero e.now)⟩ := by
  rw [tryGetData, GourdData.today]
  split
  · rfl
  · rw [← saved]

theorem expire_same (level : u.Level now) (o2 : now > u.loosenSoilEndDt → u.loosenSoilO2Val = 0) :
    u.expire now = u := by
  rw [GourdData.expire]
  split
  · rename_i past
    rw [← level past, ← o2 past]
  · rfl

theorem tryGetData_saved (saved : v.obj = v.row) (opens : v.obj.Opens cfg e.now) :
    (v.tryGetData cfg e pass).obj = (v.tryGetData cfg e pass).row := by
  rw [tryGetData_eq saved]
  refine updateGourd_written (fun u => rfl) ?_
  obtain grows | ⟨free, level, o2⟩ := opens
  · exact .inl (expire_grows.mpr grows)
  · exact .inr ⟨fun stops => free (expire_stops.mp stops), expire_same level o2⟩

theorem tryGetData_soil (saved : ButO2 v.obj v.row) (opens : v.obj.OpensSoil cfg e.now) :
    ButO2 (v.tryGetData cfg e pass).obj (v.tryGetData cfg e pass).row := by
  have expired : ∀ u row : GourdData, u.Level e.now → ButO2 u row → ButO2 (u.expire e.now) row := by
    intro u row level same
    rw [GourdData.expire]
    split
    · rename_i past
      rw [ButO2, ← level past]
      conv_lhs => rw [same]
    · exact same
  have found : ∃ row, ButO2 (v.obj.today (cfg.dayZero e.now)) row ∧ v.tryGetData cfg e pass =
      updateGourd cfg e pass ⟨(v.obj.today (cfg.dayZero e.now)).expire e.now, row⟩ := by
    rw [tryGetData, GourdData.today]
    split
    · exact ⟨v.obj.newDay (cfg.dayZero e.now), rfl, rfl⟩
    · exact ⟨v.row, saved, rfl⟩
  obtain ⟨row, same, asked⟩ := found
  rw [asked]
  refine updateGourd_written (fun u => rfl) ?_
  obtain grows | ⟨free, level⟩ := opens
  · exact .inl (expire_grows.mpr grows)
  · exact .inr ⟨fun stops => free (expire_stops.mp stops), expired _ _ level same⟩

theorem updateGourd_frame : ∃ arr k, (v.updateGourd cfg e pass).obj =
    { v.obj with gourdArr := arr, fertilizerNum := k } := GourdData.grow_frame

/-- To ask for the data changes them by the day and the time, but for fruits and fertiliser. -/
theorem tryGetData_frame : ∃ arr k, (v.tryGetData cfg e pass).obj =
    { (v.obj.today (cfg.dayZero e.now)).expire e.now with gourdArr := arr, fertilizerNum := k } := by
  have day : (if v.obj.resetDt ≠ some (cfg.dayZero e.now) then
      (⟨v.obj.newDay (cfg.dayZero e.now), v.obj.newDay (cfg.dayZero e.now)⟩ : Vine) else v).obj =
      v.obj.today (cfg.dayZero e.now) := by
    rw [GourdData.today]
    split <;> rfl
  rw [← day]
  exact updateGourd_frame

theorem tryGetData_key : (v.tryGetData cfg e pass).obj.versionsKey1 = v.obj.versionsKey1 := by
  obtain ⟨arr, k, same⟩ := @tryGetData_frame cfg v e pass
  rw [same, GourdData.expire, GourdData.today]
  split <;> split <;> rfl

/-- Soil without time has no oxygen left when the data have been asked for, and soil with time has
what it had. -/
theorem tryGetData_breathes (breathes : v.obj.Breathes cfg e.now o2Val) :
    (v.tryGetData cfg e pass).obj.Level e.now ∧
      (v.tryGetData cfg e pass).obj.Breathes cfg e.now o2Val := by
  obtain ⟨arr, k, same⟩ := @tryGetData_frame cfg v e pass
  have end_ : (v.obj.today (cfg.dayZero e.now)).loosenSoilEndDt = v.obj.loosenSoilEndDt := by
    rw [GourdData.today]
    split <;> rfl
  have soil : (v.obj.today (cfg.dayZero e.now)).loosenSoilLv = v.obj.loosenSoilLv ∧
      (v.obj.today (cfg.dayZero e.now)).loosenSoilO2Val = v.obj.loosenSoilO2Val := by
    rw [GourdData.today]
    split <;> exact ⟨rfl, rfl⟩
  rw [same, GourdData.expire, end_, GourdData.Level, GourdData.Breathes]
  rw [GourdData.Breathes] at breathes
  by_cases past : e.now > v.obj.loosenSoilEndDt
  · rw [if_pos past] at breathes ⊢
    refine ⟨fun _ => rfl, ?_⟩
    simp only [if_pos past]
    exact breathes
  · rw [if_neg past] at breathes ⊢
    simp only [end_, if_neg past, soil.1, soil.2]
    exact ⟨fun over_ => absurd over_ past, breathes⟩

theorem raiseSoil_stays {lv : Nat} (stays : GourdData.Stays cfg lv o2Val) :
    (if cfg.oxygen (lv + 1) = none then lv
      else GourdData.raiseSoil cfg o2Val lv (cfg.oxygenMax - lv)) = lv := by
  split
  · rfl
  · rename_i more
    cases left : cfg.oxygenMax - lv with
    | zero => rfl
    | succ n =>
        obtain none | top | below := stays
        · exact absurd none more
        · omega
        · rw [GourdData.raiseSoil]
          cases row : cfg.oxygen lv with
          | none => rfl
          | some sData => exact if_neg (not_le.mpr (below sData row))

/-- The fields that `AddO2` writes are those it changes. -/
theorem breathe_saved (same : ButO2 u row) (level : u.Level now)
    (breathes : u.Breathes cfg now o2Val) :
    breathe cfg u now o2Val = { row with
      loosenSoilO2Val := (breathe cfg u now o2Val).loosenSoilO2Val
      loosenSoilO2ValDay := (breathe cfg u now o2Val).loosenSoilO2ValDay
      loosenSoilEndDt := (breathe cfg u now o2Val).loosenSoilEndDt } := by
  have kept : (breathe cfg u now o2Val).loosenSoilLv = u.loosenSoilLv := by
    rw [GourdData.Breathes] at breathes
    simp only [breathe]
    by_cases past : now > u.loosenSoilEndDt
    · rw [if_pos past] at breathes
      simp only [if_pos past]
      rw [level past]
      exact raiseSoil_stays ((zero_add o2Val).symm ▸ breathes)
    · rw [if_neg past] at breathes
      simp only [if_neg past]
      exact raiseSoil_stays breathes
  have fields : breathe cfg u now o2Val = { u with
      loosenSoilLv := (breathe cfg u now o2Val).loosenSoilLv
      loosenSoilO2Val := (breathe cfg u now o2Val).loosenSoilO2Val
      loosenSoilO2ValDay := (breathe cfg u now o2Val).loosenSoilO2ValDay
      loosenSoilEndDt := (breathe cfg u now o2Val).loosenSoilEndDt } := by
    simp only [breathe]
    split <;> rfl
  rw [kept] at fields
  generalize breathe cfg u now o2Val = w at fields ⊢
  rw [ButO2] at same
  rw [fields, same]

theorem AddO2_saved (saved : ButO2 v.obj v.row) (opens : v.obj.OpensSoil cfg e.now)
    (breathes : v.obj.Breathes cfg e.now o2Val) :
    (v.AddO2 cfg o2Val e pass).obj = (v.AddO2 cfg o2Val e pass).row := by
  obtain ⟨level, breathes'⟩ := @tryGetData_breathes cfg v e pass o2Val breathes
  exact breathe_saved (tryGetData_soil saved opens) level breathes'

theorem AddO2_key : (v.AddO2 cfg o2Val e pass).obj.versionsKey1 = v.obj.versionsKey1 := by
  have same : (v.AddO2 cfg o2Val e pass).obj.versionsKey1 =
      (v.tryGetData cfg e pass).obj.versionsKey1 := by
    simp only [AddO2, breathe]
    split <;> rfl
  exact same.trans tryGetData_key

theorem updateGourd_key : (v.updateGourd cfg e pass).obj.versionsKey1 = v.obj.versionsKey1 := by
  obtain ⟨arr, k, same⟩ := @updateGourd_frame cfg v e pass
  rw [same]

/-- A command leaves the data of a user in his row. -/
structure Keeps (f : Vine → Vine) (v : Vine) : Prop where
  saved : v.obj = v.row → (f v).obj = (f v).row
  key : (f v).obj.versionsKey1 = v.obj.versionsKey1

/-- The growth pass of a command, after what the command has changed itself. -/
theorem keeps_updateGourd {f : Vine → Vine} (change : v.obj = v.row →
      (f v).obj.Grows cfg e.now ∨ ¬(f v).obj.Stops cfg e.now ∧ (f v).obj = (f v).row)
    (key : (f v).obj.versionsKey1 = v.obj.versionsKey1) :
    Keeps (fun v => (f v).updateGourd cfg e pass) v :=
  ⟨fun saved => updateGourd_written (fun _ => rfl) (change saved), updateGourd_key.trans key⟩

theorem keeps_tryGetData (opens : v.obj.Opens cfg e.now) : Keeps (tryGetData cfg e pass) v :=
  ⟨fun saved => tryGetData_saved saved opens, tryGetData_key⟩

theorem keeps_UpdateData {data : VineUpdate}
    (writes : ((v.tryGetData cfg e 0).obj.merge data).Grows cfg e.now ∨
      v.obj.Opens cfg e.now ∧ (v.tryGetData cfg e 0).obj.Known data ∧
        ¬(v.tryGetData cfg e 0).obj.Stops cfg e.now) : Keeps (UpdateData cfg data e) v := by
  refine @keeps_updateGourd cfg v e 1 (fun v => ⟨(v.tryGetData cfg e 0).obj.merge data,
    (v.tryGetData cfg e 0).row⟩) (fun saved => ?_) tryGetData_key
  obtain grows | ⟨opens, ⟨vip, gourdLv, bonusObj⟩, free⟩ := writes
  · exact .inl grows
  · have same : (v.tryGetData cfg e 0).obj.merge data = (v.tryGetData cfg e 0).obj := by
      rw [GourdData.merge, vip, gourdLv, bonusObj]
    simp only [same]
    exact .inr ⟨free, tryGetData_saved saved opens⟩

theorem keeps_PickFruit {id fruitId : Nat}
    (writes : match ripe cfg (v.tryGetData cfg e 0).obj e.now id fruitId with
      | none => v.obj.Opens cfg e.now
      | some (index, _, _) => (removeFruit (v.tryGetData cfg e 0).obj id index).Grows cfg e.now) :
    Keeps (PickFruit cfg id fruitId e) v := by
  cases found : ripe cfg (v.tryGetData cfg e 0).obj e.now id fruitId with
  | none =>
      rw [found] at writes
      have same : PickFruit cfg id fruitId e v = v.tryGetData cfg e 0 := by
        rw [PickFruit, found]
      refine ⟨fun saved => ?_, ?_⟩
      · rw [same]
        exact tryGetData_saved saved writes
      · rw [same]
        exact tryGetData_key
  | some fruit =>
      rw [found] at writes
      have same : PickFruit cfg id fruitId e v = updateGourd cfg e 1
          ⟨removeFruit (v.tryGetData cfg e 0).obj id fruit.1, (v.tryGetData cfg e 0).row⟩ := by
        rw [PickFruit, found]
      refine ⟨fun saved => ?_, ?_⟩
      · rw [same]
        exact updateGourd_written (fun u => rfl) (.inl writes)
      · rw [same]
        exact updateGourd_key.trans tryGetData_key

theorem keeps_PickFruitQuick {type : Nat}
    (writes : (removeAll (v.tryGetData cfg e 0).obj e.now type).Grows cfg e.now ∨
      v.obj.Opens cfg e.now ∧ (∀ id, ∀ f ∈ (v.tryGetData cfg e 0).obj.gourdArr id,
        goes e.now type f = false) ∧ ¬(v.tryGetData cfg e 0).obj.Stops cfg e.now) :
    Keeps (PickFruitQuick cfg type e) v := by
  refine @keeps_updateGourd cfg v e 1 (fun v => ⟨removeAll (v.tryGetData cfg e 0).obj e.now type,
    (v.tryGetData cfg e 0).row⟩) (fun saved => ?_) tryGetData_key
  obtain grows | ⟨opens, none_, free⟩ := writes
  · exact .inl grows
  · have same : removeAll (v.tryGetData cfg e 0).obj e.now type = (v.tryGetData cfg e 0).obj := by
      have kept : (fun id => ((v.tryGetData cfg e 0).obj.gourdArr id).filter fun f =>
          !goes e.now type f) = (v.tryGetData cfg e 0).obj.gourdArr := by
        funext id
        refine List.filter_eq_self.mpr fun f mem => ?_
        rw [none_ id f mem]
        rfl
      rw [removeAll, kept]
    simp only [same]
    exact .inr ⟨free, tryGetData_saved saved opens⟩

theorem keeps_Fertilizer
    (writes : GourdData.Grows cfg { (v.tryGetData cfg e 0).obj with
        fertilizerNum := (v.tryGetData cfg e 0).obj.fertilizerNum + num } e.now ∨
      v.obj.Opens cfg e.now ∧ ¬(v.tryGetData cfg e 0).obj.Stops cfg e.now) :
    Keeps (Fertilizer cfg num e) v := by
  refine @keeps_updateGourd cfg v e 1 (fun v =>
    ⟨{ (v.tryGetData cfg e 0).obj with
        fertilizerNum := (v.tryGetData cfg e 0).obj.fertilizerNum + num },
      { (v.tryGetData cfg e 0).row with
        fertilizerNum := (v.tryGetData cfg e 0).obj.fertilizerNum + num }⟩)
    (fun saved => ?_) tryGetData_key
  obtain grows | ⟨opens, free⟩ := writes
  · exact .inl grows
  · refine .inr ⟨free, ?_⟩
    simp only [tryGetData_saved saved opens]

theorem keeps_AddO2 (opens : v.obj.OpensSoil cfg e.now) (breathes : v.obj.Breathes cfg e.now o2Val) :
    Keeps (fun v => AddO2 cfg o2Val e pass v) v :=
  ⟨fun saved => AddO2_saved (by rw [ButO2, ← saved]) opens breathes, AddO2_key⟩

/-- The data of `LoosenSoil`, once it has noted who has loosened the soil. -/
def loosened (cfg : VineCfg) (fromId : UserId) (e : VineEnv) (v : Vine) : GourdData :=
  { (v.tryGetData cfg e 0).obj with
    loosenSoilRecord := Function.update (v.tryGetData cfg e 0).obj.loosenSoilRecord fromId
      ((v.tryGetData cfg e 0).obj.loosenSoilRecord fromId + 1) }

theorem keeps_LoosenSoil {fromId : UserId} (opens : v.obj.OpensSoil cfg e.now)
    (again : (loosened cfg fromId e v).OpensSoil cfg e.now)
    (breathes : v.obj.Breathes cfg e.now o2Val) : Keeps (LoosenSoil cfg fromId o2Val e) v := by
  refine ⟨fun saved => ?_, AddO2_key.trans tryGetData_key⟩
  have first : ButO2 v.obj v.row := by rw [ButO2, ← saved]
  have same := @tryGetData_soil cfg v e 0 first opens
  refine AddO2_saved ?_ again (tryGetData_breathes breathes).2
  generalize v.tryGetData cfg e 0 = w at same ⊢
  show ButO2 _ _
  rw [ButO2] at same ⊢
  rw [same]

theorem keeps_FriendHelp {friendId : UserId} (opens : v.obj.Opens cfg e.now) :
    Keeps (FriendHelp cfg friendId e) v := by
  refine ⟨fun saved => ?_, ?_⟩
  · have same := @tryGetData_saved cfg v e 0 saved opens
    simp only [FriendHelp]
    split
    · exact same
    · rw [← same]
  · have key := @tryGetData_key cfg v e 0
    simp only [FriendHelp]
    split <;> exact key

end Commands

end Vine

namespace VineState

/-- What a command on the data of a user needs in order to write all it changes: mostly that the
growth pass after the change has a fruit to grow or to fertilise, or that nothing was changed. -/
def Writes (cfg : VineCfg) (v : Vine) : VineEvent → Prop
  | .insert .. | .restart => True
  | .getData _ e | .friendHelp _ _ e => v.obj.Opens cfg e.now
  | .updateData _ data e =>
      ((v.tryGetData cfg e 0).obj.merge data).Grows cfg e.now ∨
        v.obj.Opens cfg e.now ∧ (v.tryGetData cfg e 0).obj.Known data ∧
          ¬(v.tryGetData cfg e 0).obj.Stops cfg e.now
  | .pickFruit targetId fromId id fruitId e =>
      if targetId = fromId then
        match Vine.ripe cfg (v.tryGetData cfg e 0).obj e.now id fruitId with
        | none => v.obj.Opens cfg e.now
        | some (index, _, _) =>
            (Vine.removeFruit (v.tryGetData cfg e 0).obj id index).Grows cfg e.now
      else v.obj.Opens cfg e.now ∧ Vine.steal cfg (v.tryGetData cfg e 0).obj e.now id fruitId = none
  | .pickFruitQuick _ type e =>
      (Vine.removeAll (v.tryGetData cfg e 0).obj e.now type).Grows cfg e.now ∨
        v.obj.Opens cfg e.now ∧ (∀ id, ∀ f ∈ (v.tryGetData cfg e 0).obj.gourdArr id,
          Vine.goes e.now type f = false) ∧ ¬(v.tryGetData cfg e 0).obj.Stops cfg e.now
  | .fertilizer _ num e =>
      GourdData.Grows cfg { (v.tryGetData cfg e 0).obj with
          fertilizerNum := (v.tryGetData cfg e 0).obj.fertilizerNum + num } e.now ∨
        v.obj.Opens cfg e.now ∧ ¬(v.tryGetData cfg e 0).obj.Stops cfg e.now
  | .loosenSoil _ fromId o2Val e => v.obj.OpensSoil cfg e.now ∧
      (Vine.loosened cfg fromId e v).OpensSoil cfg e.now ∧ v.obj.Breathes cfg e.now o2Val
  | .addO2 _ o2Val e => v.obj.OpensSoil cfg e.now ∧ v.obj.Breathes cfg e.now o2Val

end VineState

/-- The user whose data a command is about. -/
def VineEvent.target : VineEvent → Option UserId
  | .restart => none
  | .insert id _ | .getData id _ | .updateData id _ _ | .pickFruit id _ _ _ _
  | .pickFruitQuick id _ _ | .fertilizer id _ _ | .loosenSoil id _ _ _ | .addO2 id _ _
  | .friendHelp id _ _ => some id

namespace VineState

/-- A command that writes all it changes. -/
def written (cfg : VineCfg) (s : VineState) (e : VineEvent) : Prop :=
  ∀ id ∈ e.target, ∀ v ∈ s.load id, Writes cfg v e

/-- The rows hold what is in the cache. -/
structure VineInv (s : VineState) : Prop where
  saved : ∀ id obj, s.cache id = some obj → s.rows id = some obj
  key : ∀ id obj, s.cache id = some obj → obj.versionsKey1 = some Services.versionsKey1

section Runs
variable {cfg : VineCfg} {s s' : VineState} {e : VineEvent} {es : List VineEvent} {id other : UserId}
  {f : Vine → Vine} {v : Vine} {obj : GourdData}

theorem load_saved (inv : s.VineInv) (found : s.load id = some v) :
    v.obj = v.row ∧ v.obj.versionsKey1 = some Services.versionsKey1 := by
  rw [load] at found
  cases row : s.rows id with
  | none =>
      rw [row] at found
      cases found
  | some row' =>
      rw [row] at found
      cases cached : s.cache id with
      | some obj =>
          rw [cached] at found
          obtain rfl := Option.some.inj found
          exact ⟨Option.some.inj ((inv.saved id obj cached).symm.trans row), inv.key id obj cached⟩
      | none =>
          rw [cached] at found
          simp only at found
          split at found
          · obtain rfl := Option.some.inj found
            exact ⟨rfl, rfl⟩
          · rename_i key
            obtain rfl := Option.some.inj found
            exact ⟨rfl, not_not.mp key⟩

theorem inv_on (inv : s.VineInv) (keeps : ∀ v ∈ s.load id, Vine.Keeps f v) : (s.on id f).VineInv := by
  rw [on]
  cases found : s.load id with
  | none => exact inv
  | some v =>
      obtain ⟨saved, key⟩ := load_saved inv found
      have kept := keeps v found
      refine ⟨fun id' obj cached => ?_, fun id' obj cached => ?_⟩
      · obtain ⟨rfl, rfl⟩ | ⟨apart, cached⟩ := update_some cached
        · exact (Function.update_self ..).trans (congrArg some (kept.saved saved).symm)
        · exact (Function.update_of_ne apart ..).trans (inv.saved id' obj cached)
      · obtain ⟨rfl, rfl⟩ | ⟨_, cached⟩ := update_some cached
        · exact kept.key.trans key
        · exact inv.key id' obj cached

theorem rows_on (apart : other ≠ id) : (s.on id f).rows other = s.rows other := by
  rw [on]
  cases s.load id with
  | none => rfl
  | some v => exact Function.update_of_ne apart ..

/-- A pick by another that takes nothing only asks for the data. -/
theorem steal_none {e : VineEnv} {place fruitId : Nat} (refused : ∀ v ∈ s.load id,
      Vine.steal cfg (v.tryGetData cfg e 0).obj e.now place fruitId = none)
    (cached : ∀ obj, s.cache id = some obj → s.rows id = some obj) :
    s.steal cfg id place fruitId e = s.on id (Vine.tryGetData cfg e 0) := by
  have nothing : ((s.on id (Vine.tryGetData cfg e 0)).cache id).bind
      (fun obj => Vine.steal cfg obj e.now place fruitId) = none := by
    rw [on]
    cases found : s.load id with
    | none =>
        cases here : s.cache id with
        | none => simp only [Option.bind_none]
        | some obj =>
            rw [load, cached obj here, here] at found
            cases found
    | some v =>
        simp only [Function.update_self, Option.bind_some]
        exact refused v found
  rw [steal, nothing]

theorem inv_vineStep (inv : s.VineInv) (writes : s.written cfg e) (moved : s.step cfg e = some s') :
    s'.VineInv := by
  cases e with
  | insert id gourdLv =>
      rw [step] at moved
      split at moved
      · rename_i free
        obtain rfl := Option.some.inj moved
        refine ⟨fun id' obj cached => ?_, inv.key⟩
        have apart : id' ≠ id := by
          rintro rfl
          cases free.symm.trans (inv.saved id' obj cached)
        exact (Function.update_of_ne apart ..).trans (inv.saved id' obj cached)
      · cases moved
  | restart =>
      obtain rfl := Option.some.inj moved
      exact ⟨fun id obj cached => (nomatch cached), fun id obj cached => (nomatch cached)⟩
  | getData id e =>
      obtain rfl := Option.some.inj moved
      exact inv_on inv fun v found => Vine.keeps_tryGetData (writes id rfl v found)
  | updateData id data e =>
      obtain rfl := Option.some.inj moved
      exact inv_on inv fun v found => Vine.keeps_UpdateData (writes id rfl v found)
  | pickFruit targetId fromId place fruitId e =>
      rw [step] at moved
      split at moved
      · rename_i own
        obtain rfl := Option.some.inj moved
        refine inv_on inv fun v found => Vine.keeps_PickFruit ?_
        have here := writes targetId rfl v found
        rw [Writes, if_pos own] at here
        exact here
      · rename_i another
        obtain rfl := Option.some.inj moved
        have here : ∀ v ∈ s.load targetId, v.obj.Opens cfg e.now ∧
            Vine.steal cfg (v.tryGetData cfg e 0).obj e.now place fruitId = none := fun v found => by
          have both := writes targetId rfl v found
          rw [Writes, if_neg another] at both
          exact both
        rw [steal_none (fun v found => (here v found).2) (inv.saved targetId)]
        exact inv_on inv fun v found => Vine.keeps_tryGetData (here v found).1
  | pickFruitQuick id type e =>
      obtain rfl := Option.some.inj moved
      exact inv_on inv fun v found => Vine.keeps_PickFruitQuick (writes id rfl v found)
  | fertilizer id num e =>
      obtain rfl := Option.some.inj moved
      exact inv_on inv fun v found => Vine.keeps_Fertilizer (writes id rfl v found)
  | loosenSoil id fromId o2Val e =>
      obtain rfl := Option.some.inj moved
      refine inv_on inv fun v found => ?_
      obtain ⟨opens, again, breathes⟩ := writes id rfl v found
      exact Vine.keeps_LoosenSoil opens again breathes
  | addO2 id o2Val e =>
      obtain rfl := Option.some.inj moved
      refine inv_on inv fun v found => ?_
      obtain ⟨opens, breathes⟩ := writes id rfl v found
      exact Vine.keeps_AddO2 opens breathes
  | friendHelp id friendId e =>
      obtain rfl := Option.some.inj moved
      exact inv_on inv fun v found => Vine.keeps_FriendHelp (writes id rfl v found)

/-- A command that writes all it changes touches no row but that of its user. -/
theorem rows_step (inv : s.VineInv) (writes : s.written cfg e) (moved : s.step cfg e = some s')
    (apart : some other ≠ e.target) : s'.rows other = s.rows other := by
  have ne : ∀ {id}, e.target = some id → other ≠ id := fun target same =>
    apart (target.trans (congrArg some same.symm)).symm
  cases e with
  | insert id gourdLv =>
      rw [step] at moved
      split at moved
      · obtain rfl := Option.some.inj moved
        exact Function.update_of_ne (ne rfl) ..
      · cases moved
  | restart =>
      obtain rfl := Option.some.inj moved
      rfl
  | pickFruit targetId fromId place fruitId e =>
      rw [step] at moved
      split at moved
      · obtain rfl := Option.some.inj moved
        exact rows_on (ne rfl)
      · rename_i another
        obtain rfl := Option.some.inj moved
        rw [steal_none (fun v found => ?_) (inv.saved targetId)]
        · exact rows_on (ne rfl)
        · have both := writes targetId rfl v found
          rw [Writes, if_neg another] at both
          exact both.2
  | getData | updateData | pickFruitQuick | fertilizer | loosenSoil | addO2 | friendHelp =>
      obtain rfl := Option.some.inj moved
      exact rows_on (ne rfl)

/-- After any commands that write all they change, the rows are what is in the cache, so that
the service loads the same data after a restart, and a command of that kind touches no row but
that of its user. -/
theorem run_saved (run : Run (step cfg) (written cfg) start es s) :
    (∀ id obj, s.cache id = some obj → s.rows id = some obj) ∧
      (∀ id obj, s.cache id = some obj →
        load { s with cache := fun _ => none } id = some ⟨obj, obj⟩) ∧
      ∀ e s' other, s.written cfg e → s.step cfg e = some s' → some other ≠ e.target →
        s'.rows other = s.rows other := by
  have first : start.VineInv :=
    ⟨fun id obj cached => (nomatch cached), fun id obj cached => (nomatch cached)⟩
  have inv := run.invariant VineInv first fun _ _ _ inv writes moved => inv_vineStep inv writes moved
  refine ⟨inv.saved, fun id obj cached => ?_, fun e s' other writes moved apart =>
    rows_step inv writes moved apart⟩
  have key := inv.key id obj cached
  rw [load]
  simp only [inv.saved id obj cached]
  rw [if_neg (not_not.mpr key)]

end Runs

/-- One level of vine with one place, where a fruit takes an hour and brings a hundred gold. -/
def sample : VineCfg where
  row := fun lv => if lv = 1 then some ⟨1, 1, 3600, fun _ => ⟨100, [], by decide⟩⟩ else none
  oxygen := fun _ => none
  oxygenMax := 0
  vipAdd := fun _ => none
  fertilizerRate := 2000
  rateMax := 5000
  ratePick := 1000
  soilTime := 7200
  helpRate := 500
  helpTime := 7200
  numMax := 3
  timeMax := 28800
  countMax := 1
  dayZero := fun now => now / 86400

/-- A moment, at which fruits get ids from `base` on, and all are of the common type. -/
def moment (now : Int) (base : Nat) : VineEnv :=
  ⟨now, fun pass i n => base + 400 * pass + 20 * i + n, fun _ _ _ => 0⟩

/-- A new user whose vine is looked at for the first time: its fruit is written. -/
theorem run_saved_first : ∃ s,
    Run (step sample) (written sample) start [.insert 7 (some 1), .getData 7 (moment 0 1000)] s ∧
      (s.cache 7).isSome ∧ ∀ id obj, s.cache id = some obj → s.rows id = some obj := by
  have first : Run (step sample) (written sample) start [.insert 7 (some 1)]
      ⟨fun _ => none, Function.update (fun _ => none) 7 (some (newRow (some 1)))⟩ := by
    refine .next .refl ?_ rfl
    intro id _ v loaded
    cases loaded
  have asked := first.next (e := .getData 7 (moment 0 1000)) ?_ rfl
  · exact ⟨_, asked, rfl, (run_saved asked).1⟩
  · intro id same v loaded
    obtain rfl := Option.some.inj same
    obtain rfl := Option.some.inj loaded
    have room : ¬GourdData.timeVal sample [] < 3600 := by decide
    exact .inl ⟨_, rfl, 0, Nat.one_pos, room⟩

/-- An hour later the owner picks the fruit, and the next one has already begun to grow. -/
def picked : List VineEvent :=
  [.insert 7 (some 1), .getData 7 (moment 0 1000), .getData 7 (moment 3600 2000),
    .pickFruit 7 7 1 1039 (moment 3600 3000)]

/-- A picked fruit comes back when the service is started again. -/
theorem saved_fails : ¬∀ cfg es s, Run (step cfg) anyStep start es s →
    ∀ id obj, s.cache id = some obj → s.rows id = some obj := by
  intro saved
  have ran := @run_of_exec _ _ (step sample) start picked _ rfl
  have same := saved _ _ _ ran 7 _ rfl
  have fruits := congrArg (Option.map fun row => (row.gourdArr 1).length) same
  exact absurd fruits (by decide +kernel)

end VineState

end HuluLandlord.Services
