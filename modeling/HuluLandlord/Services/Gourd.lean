import HuluLandlord.Agent.UserItem
import HuluLandlord.Define
import HuluLandlord.Transition
import HuluLandlord.Table

/-!
The gourd vines: the service that keeps the fruits of all users, and the part of a user's
agent that picks them, his own and those of others. The fruits of a user are one list, in
which `gourd` is the place a fruit grows at; when a fruit is added, of which type, and with
how much gold on top is left open. Ratios are compared exactly. `picks` are all picks that
were answered with success, and the `today` of an agent those on the fruits of others since
its last new day, newest first.
-/
namespace HuluLandlord.Services
open Transition Table

/-- Ids are texts: those of places are counted from `"1"`, those of fruits begin with the
time. -/
inductive GourdId
  | place (n : Nat) | uid (n : Nat)
  deriving DecidableEq, Repr

structure Fruit where
  id : GourdId
  gourd : GourdId
  growLv : Nat
  type : Nat
  endDt : Int
  addNum : Nat
  bePickNum : Nat
  canPick : Bool
  isTree : Bool
  deriving DecidableEq, Repr

/-- What a fruit brings: some gold, which comes first in every list of the table, and other
items. -/
structure FruitReward where
  gold : Nat
  others : List Agent.Entry
  gold_pos : 0 < gold

/-- The lists of `cfg_gourd_vine` by level and type, and the entries 103004 and 103005 of
`cfg_global`. -/
structure GourdCfg where
  rewards : Nat → Nat → Option FruitReward
  unlockLv : Nat
  countMax : Nat
  countSumMax : Nat
  rateMax : Nat
  ratePick : Nat
  freeNum : Nat
  rateMax_pos : 0 < rateMax

inductive PickRet
  | succeed_1 | fail_2 | error_3 | exists_4 | lack_6 | empty_7 | noUse_8 | notOpen_9 | other_10
  deriving DecidableEq, Repr

structure Pick where
  fromId : UserId
  toId : UserId
  fruitId : GourdId
  endDt : Int
  dt : Int
  gold : Nat
  num : Nat
  deriving DecidableEq, Repr

structure PickRecord where
  count : Nat
  arr : List GourdId
  deriving DecidableEq, Repr

/-- What an agent knows of its picks; a record that is not there is an empty one. -/
structure Picker where
  pickFruitRecord : UserId → PickRecord
  pickFruitCountDay : Nat
  pickFruitFreeCountDay : Nat
  today : List Pick

structure GourdState where
  now : Int
  nextId : Nat
  vines : UserId → List Fruit
  agents : UserId → Picker
  picks : List Pick

/-- What a request meets: the level of the user's own vine, whether the other is a friend,
and whether the disguise can be paid. -/
structure PickEnv where
  gourdLv : Nat
  isFriend : Bool
  hasCost : Bool
  deriving DecidableEq, Repr

inductive GourdEvent
  | tick (d : Nat)
  | grow (uId : UserId) (gourd : GourdId) (growLv type : Nat) (endDt : Int) (addNum : Nat)
  | fertilizer (uId : UserId) (fruitId : GourdId) (addNum : Nat)
  | newDay (uId : UserId)
  | pickFruit (me : UserId) (env : PickEnv) (uId : UserId) (id fruitId : GourdId)
  | pickFruitQuick (me : UserId) (type : Nat)
  deriving DecidableEq, Repr

/-- `_getGourdRewardArr`: the rewards, and the gold among them. -/
def getGourdRewardArr (cfg : GourdCfg) (f : Fruit) : Option (List Agent.Entry × Nat) :=
  (cfg.rewards f.growLv f.type).map fun r =>
    (⟨Agent.itemGold, (r.gold + f.addNum : Nat)⟩ :: r.others, r.gold + f.addNum)

/-- `bePickNum / gold >= rateMax / 10000`. -/
def overMax (cfg : GourdCfg) (bePickNum gold : Nat) : Bool :=
  bePickNum * 10000 ≥ cfg.rateMax * gold

/-- `arrayx.findIndex` in a place; past the end where there is no such fruit. -/
def fruitIndex (arr : List Fruit) (id fruitId : GourdId) : Nat :=
  arr.findIdx fun f => f.gourd = id ∧ f.id = fruitId

def emptyPicker : Picker := ⟨fun _ => ⟨0, []⟩, 0, 0, []⟩

/-- A pick of a fruit of another is noted under the place it grew at; `p` is what it was. -/
def Picker.note (mine : Picker) (uId : UserId) (id : GourdId) (isFree : Bool) (p : List Pick) :
    Picker :=
  let recordArr := mine.pickFruitRecord uId
  { pickFruitRecord := Function.update mine.pickFruitRecord uId
      ⟨recordArr.count + 1, recordArr.arr ++ [id]⟩
    pickFruitCountDay := mine.pickFruitCountDay + 1
    pickFruitFreeCountDay := mine.pickFruitFreeCountDay + if isFree then 1 else 0
    today := p ++ mine.today }

namespace GourdState
variable (cfg : GourdCfg)

/-- `CMD.PickFruit`. -/
def PickFruit (s : GourdState) (targetId fromId : UserId) (id fruitId : GourdId) :
    GourdState × PickRet × List Agent.Entry :=
  let arr := s.vines targetId
  let index := fruitIndex arr id fruitId
  match arr[index]? with
  | none => (s, .error_3, [])
  | some gourdData =>
      if gourdData.endDt > s.now then (s, .noUse_8, [])
      else match getGourdRewardArr cfg gourdData with
        | none => (s, .error_3, [])
        | some (rewardArr, gold) =>
            if targetId = fromId then
              ({ s with
                vines := Function.update s.vines targetId (arr.eraseIdx index)
                picks := ⟨fromId, targetId, fruitId, gourdData.endDt, s.now, gold, gold⟩ :: s.picks },
                .succeed_1, rewardArr)
            else if overMax cfg gourdData.bePickNum gold then (s, .other_10, [])
            else
              let num := gold * cfg.ratePick / 10000
              let bePickNum := gourdData.bePickNum + num
              ({ s with
                vines := Function.update s.vines targetId (arr.set index
                  { gourdData with
                    bePickNum := bePickNum
                    canPick := overMax cfg bePickNum gold })
                picks := ⟨fromId, targetId, fruitId, gourdData.endDt, s.now, gold, num⟩ :: s.picks },
                .succeed_1, [⟨Agent.itemGold, num⟩])

/-- `CMD.PickFruitQuick`; the rewards of all fruits are added up by item, which comes to the
same when they are handed out. -/
def PickFruitQuick (s : GourdState) (targetId : UserId) (type : Nat) :
    GourdState × List Agent.Entry :=
  let goes : Fruit → Bool := fun f => f.endDt ≤ s.now ∧ (type = 0 ∨ (type = 1 ∧ ¬f.isTree))
  let gone := (s.vines targetId).filter goes
  ({ s with
    vines := Function.update s.vines targetId ((s.vines targetId).filter fun f => !goes f)
    picks := (gone.filterMap fun f => (getGourdRewardArr cfg f).map fun r =>
      ⟨targetId, targetId, f.id, f.endDt, s.now, r.2, r.2⟩) ++ s.picks },
    gone.flatMap fun f => ((getGourdRewardArr cfg f).map Prod.fst).getD [])

/-- The request `GourdPickFruit` of a user. -/
def GourdPickFruit (s : GourdState) (me : UserId) (env : PickEnv) (uId : UserId)
    (id fruitId : GourdId) : GourdState × PickRet :=
  if uId = me then
    match s.PickFruit cfg uId me id fruitId with
    | (s, ret, _) => (s, ret)
  else
    let mine := s.agents me
    let recordArr := mine.pickFruitRecord uId
    if env.gourdLv < cfg.unlockLv then (s, .notOpen_9)
    else if fruitId ∈ recordArr.arr then (s, .exists_4)
    else if recordArr.count ≥ cfg.countMax then (s, .empty_7)
    else if mine.pickFruitCountDay ≥ cfg.countSumMax then (s, .fail_2)
    else if ¬env.isFriend ∧ mine.pickFruitFreeCountDay ≥ cfg.freeNum ∧ ¬env.hasCost then
      (s, .lack_6)
    else
      let isFree := !env.isFriend && mine.pickFruitFreeCountDay < cfg.freeNum
      match s.PickFruit cfg uId me id fruitId with
      | (s, .succeed_1, _) =>
          ({ s with
            agents := Function.update s.agents me (mine.note uId id isFree (s.picks.take 1)) },
            .succeed_1)
      | (s, ret, _) => (s, ret)

def GourdPickFruitQuick (s : GourdState) (me : UserId) (type : Nat) : GourdState × PickRet :=
  match s.PickFruitQuick cfg me type with
  | (s, rewardArr) => (s, if rewardArr = [] then .empty_7 else .succeed_1)

/-- A new fruit; the one before it goes into the basket. -/
def grow (s : GourdState) (uId : UserId) (gourd : GourdId) (growLv type : Nat) (endDt : Int)
    (addNum : Nat) : GourdState :=
  { s with
    nextId := s.nextId + 1
    vines := Function.update s.vines uId
      (((s.vines uId).map fun f => if f.gourd = gourd then { f with isTree := false } else f) ++
        [⟨.uid s.nextId, gourd, growLv, type, endDt, addNum, 0, true, true⟩]) }

/-- A fruit that is still growing gets more gold. -/
def fertilizer (s : GourdState) (uId : UserId) (fruitId : GourdId) (addNum : Nat) : GourdState :=
  { s with
    vines := Function.update s.vines uId ((s.vines uId).map fun f =>
      if f.id = fruitId ∧ f.endDt > s.now then { f with addNum := addNum } else f) }

def step (s : GourdState) (e : GourdEvent) : Option GourdState :=
  match e with
  | .tick d => some { s with now := s.now + d }
  | .grow uId gourd growLv type endDt addNum =>
      if (cfg.rewards growLv type).isSome then some (s.grow uId gourd growLv type endDt addNum)
      else none
  | .fertilizer uId fruitId addNum => some (s.fertilizer uId fruitId addNum)
  | .newDay uId => some { s with agents := Function.update s.agents uId emptyPicker }
  | .pickFruit me env uId id fruitId => some (s.GourdPickFruit cfg me env uId id fruitId).1
  | .pickFruitQuick me type => some (s.GourdPickFruitQuick cfg me type).1

def start (now : Int) : GourdState := ⟨now, 0, fun _ => [], fun _ => emptyPicker, []⟩

end GourdState

def Pick.steals (p : Pick) : Bool := p.fromId ≠ p.toId

/-- What others have taken of a fruit. -/
def stolen (picks : List Pick) (o : UserId) (id : GourdId) : Nat :=
  ((picks.filter fun p => p.steals ∧ p.toId = o ∧ p.fruitId = id).map Pick.num).sum

def Fruit.gold (cfg : GourdCfg) (f : Fruit) : Nat :=
  ((cfg.rewards f.growLv f.type).map fun r => r.gold + f.addNum).getD 0

/-- The owner has each fruit once, no one takes an unripe one, and the limits on the picks of a
day are kept. -/
structure Orderly (cfg : GourdCfg) (s : GourdState) : Prop where
  once : ((s.picks.filter fun p => !p.steals).map fun p => (p.toId, p.fruitId)).Nodup
  ripe : ∀ p ∈ s.picks, p.endDt ≤ p.dt
  count : ∀ u o, (s.agents u).today.countP (fun p => p.toId = o) ≤ cfg.countMax
  countSum : ∀ u, (s.agents u).today.length ≤ cfg.countSumMax

/-- In addition no more than the share is taken of a fruit, no one takes of a fruit twice in a
day, and `canPick` says whether more can be taken. -/
structure Picked (cfg : GourdCfg) (s : GourdState) : Prop extends Orderly cfg s where
  share : ∀ p ∈ s.picks, p.steals = true →
    stolen s.picks p.toId p.fruitId * 10000 ≤ cfg.rateMax * p.gold
  daily : ∀ u, ((s.agents u).today.map fun p => (p.toId, p.fruitId)).Nodup
  canPick : ∀ o, ∀ f ∈ s.vines o,
    f.canPick = true ↔ f.bePickNum * 10000 < cfg.rateMax * f.gold cfg

/-- A user takes of a fruit of another: every check of the agent and of the service passes. -/
def Steals (cfg : GourdCfg) (s : GourdState) : GourdEvent → Prop
  | .pickFruit me env uId id fruitId =>
      let mine := s.agents me
      let recordArr := mine.pickFruitRecord uId
      uId ≠ me ∧ cfg.unlockLv ≤ env.gourdLv ∧ fruitId ∉ recordArr.arr ∧
        recordArr.count < cfg.countMax ∧ mine.pickFruitCountDay < cfg.countSumMax ∧
        (env.isFriend ∨ mine.pickFruitFreeCountDay < cfg.freeNum ∨ env.hasCost) ∧
        ∃ f, (s.vines uId)[fruitIndex (s.vines uId) id fruitId]? = some f ∧ f.endDt ≤ s.now ∧
          (cfg.rewards f.growLv f.type).isSome ∧ ¬overMax cfg f.bePickNum (f.gold cfg)
  | _ => False

def NoSteal (cfg : GourdCfg) (s : GourdState) (e : GourdEvent) : Prop := ¬Steals cfg s e

namespace GourdState

/-- The owner has taken some of his fruits. -/
def collect (cfg : GourdCfg) (s : GourdState) (o : UserId) (kept taken : List Fruit) : GourdState :=
  { s with
    vines := Function.update s.vines o kept
    picks := (taken.map fun f => ⟨o, o, f.id, f.endDt, s.now, f.gold cfg, f.gold cfg⟩) ++ s.picks }

/-- The share of one pick. -/
def pickNum (cfg : GourdCfg) (f : Fruit) : Nat := f.gold cfg * cfg.ratePick / 10000

def robbed (cfg : GourdCfg) (f : Fruit) : Fruit :=
  { f with
    bePickNum := f.bePickNum + pickNum cfg f
    canPick := overMax cfg (f.bePickNum + pickNum cfg f) (f.gold cfg) }

def robbery (cfg : GourdCfg) (s : GourdState) (o u : UserId) (f : Fruit) : Pick :=
  ⟨u, o, f.id, f.endDt, s.now, f.gold cfg, pickNum cfg f⟩

/-- Someone else has taken of a fruit. -/
def rob (cfg : GourdCfg) (s : GourdState) (o u : UserId) (i : Nat) (f : Fruit) : GourdState :=
  { s with
    vines := Function.update s.vines o ((s.vines o).set i (robbed cfg f))
    picks := robbery cfg s o u f :: s.picks }

@[simp] theorem vines_collect (cfg : GourdCfg) (s : GourdState) (o : UserId)
    (kept taken : List Fruit) :
    (s.collect cfg o kept taken).vines = Function.update s.vines o kept := rfl

@[simp] theorem vines_rob (cfg : GourdCfg) (s : GourdState) (o u : UserId) (i : Nat) (f : Fruit) :
    (s.rob cfg o u i f).vines = Function.update s.vines o ((s.vines o).set i (robbed cfg f)) := rfl

@[simp] theorem picks_rob (cfg : GourdCfg) (s : GourdState) (o u : UserId) (i : Nat) (f : Fruit) :
    (s.rob cfg o u i f).picks = robbery cfg s o u f :: s.picks := rfl

end GourdState

/-- What holds of the fruits and the picks. -/
structure VineInv (cfg : GourdCfg) (s : GourdState) : Prop where
  rows : ∀ o, ∀ f ∈ s.vines o, (cfg.rewards f.growLv f.type).isSome
  keys : ∀ o, ((s.vines o).map Fruit.id).Nodup
  fresh : ∀ o, ∀ f ∈ s.vines o, ∃ n < s.nextId, f.id = .uid n
  known : ∀ p ∈ s.picks, ∃ n < s.nextId, p.fruitId = .uid n
  gone : ∀ p ∈ s.picks, p.steals = false → ∀ f ∈ s.vines p.toId, f.id ≠ p.fruitId
  once : ((s.picks.filter fun p => !p.steals).map fun p => (p.toId, p.fruitId)).Nodup
  ripe : ∀ p ∈ s.picks, p.endDt ≤ p.dt
  bePickNum : ∀ o, ∀ f ∈ s.vines o, f.bePickNum = stolen s.picks o f.id
  same : ∀ p ∈ s.picks, p.steals = true → ∀ f ∈ s.vines p.toId, f.id = p.fruitId →
    f.endDt ≤ s.now ∧ f.gold cfg = p.gold
  share : ∀ p ∈ s.picks, p.steals = true → stolen s.picks p.toId p.fruitId * 10000 <
    (cfg.rateMax + cfg.ratePick) * p.gold

/-- What an agent counts is what it has picked today. -/
structure PickerInv (cfg : GourdCfg) (a : Picker) : Prop where
  count : ∀ o, (a.pickFruitRecord o).count = a.today.countP fun p => p.toId = o
  countMax : ∀ o, (a.pickFruitRecord o).count ≤ cfg.countMax
  countDay : a.pickFruitCountDay = a.today.length
  countSumMax : a.pickFruitCountDay ≤ cfg.countSumMax

section Vines
variable {cfg : GourdCfg} {s s' : GourdState} {o u : UserId} {f : Fruit} {p : Pick}
  {picks : List Pick} {i : Nat} {id fruitId : GourdId}

theorem stolen_cons : stolen (p :: picks) o id =
    (if p.steals ∧ p.toId = o ∧ p.fruitId = id then p.num else 0) + stolen picks o id := by
  by_cases here : p.steals ∧ p.toId = o ∧ p.fruitId = id
  · simp [stolen, here]
  · simp [stolen, here]

/-- What the owner takes is not stolen. -/
theorem stolen_own {own : List Pick} (mine : ∀ p ∈ own, p.steals = false) :
    stolen (own ++ picks) o id = stolen picks o id := by
  have none : (own.filter fun p => p.steals ∧ p.toId = o ∧ p.fruitId = id) = [] := by
    rw [List.filter_eq_nil_iff]
    intro p mem
    simp [mine p mem]
  rw [stolen, List.filter_append, none, List.nil_append, stolen]

theorem stolen_none (absent : ∀ p ∈ picks, p.fruitId ≠ id) : stolen picks o id = 0 := by
  have none : (picks.filter fun p => p.steals ∧ p.toId = o ∧ p.fruitId = id) = [] := by
    rw [List.filter_eq_nil_iff]
    intro p mem
    simp [absent p mem]
  rw [stolen, none]
  rfl

theorem getGourdRewardArr_gold {r : List Agent.Entry × Nat}
    (row : getGourdRewardArr cfg f = some r) : r.2 = f.gold cfg := by
  rw [getGourdRewardArr, Option.map_eq_some_iff] at row
  obtain ⟨reward, found, rfl⟩ := row
  rw [Fruit.gold, found]
  rfl

/-- The fruits of a user change, and what counts in a pick does not. -/
theorem vine_map (inv : VineInv cfg s) (change : Fruit → Fruit)
    (keeps : ∀ f, (change f).id = f.id ∧ (change f).growLv = f.growLv ∧ (change f).type = f.type ∧
      (change f).endDt = f.endDt ∧ (change f).bePickNum = f.bePickNum)
    (gold : ∀ f, f.endDt ≤ s.now → (change f).addNum = f.addNum) :
    VineInv cfg { s with vines := Function.update s.vines o ((s.vines o).map change) } := by
  have ids : ∀ o', ∀ f' ∈ Function.update s.vines o ((s.vines o).map change) o',
      ∃ f ∈ s.vines o', f'.id = f.id ∧ f'.growLv = f.growLv ∧ f'.type = f.type ∧
        f'.endDt = f.endDt ∧ f'.bePickNum = f.bePickNum ∧
        (f.endDt ≤ s.now → f'.addNum = f.addNum) := by
    intro o' f' mem
    by_cases here : o' = o
    · subst here
      rw [Function.update_self, List.mem_map] at mem
      obtain ⟨f, mem, rfl⟩ := mem
      obtain ⟨id, growLv, type, endDt, bePickNum⟩ := keeps f
      exact ⟨f, mem, id, growLv, type, endDt, bePickNum, gold f⟩
    · rw [Function.update_of_ne here] at mem
      exact ⟨f', mem, rfl, rfl, rfl, rfl, rfl, fun _ => rfl⟩
  refine ⟨fun o' f' mem => ?_, fun o' => ?_, fun o' f' mem => ?_, inv.known,
    fun p mem own f' mem' => ?_, inv.once, inv.ripe, fun o' f' mem => ?_,
    fun p mem steals f' mem' named => ?_, inv.share⟩
  · obtain ⟨f, mem, _, growLv, type, _⟩ := ids o' f' mem
    rw [growLv, type]
    exact inv.rows o' f mem
  · by_cases here : o' = o
    · subst here
      have same : Fruit.id ∘ change = Fruit.id := funext fun f => (keeps f).1
      simpa [same] using inv.keys o'
    · simpa [here] using inv.keys o'
  · obtain ⟨f, mem, id, _⟩ := ids o' f' mem
    rw [id]
    exact inv.fresh o' f mem
  · obtain ⟨f, mem', id, _⟩ := ids p.toId f' mem'
    rw [id]
    exact inv.gone p mem own f mem'
  · obtain ⟨f, mem, id, _, _, _, bePickNum, _⟩ := ids o' f' mem
    rw [id, bePickNum]
    exact inv.bePickNum o' f mem
  · obtain ⟨f, mem', id, growLv, type, endDt, _, addNum⟩ := ids p.toId f' mem'
    obtain ⟨ripe, amount⟩ := inv.same p mem steals f mem' (id.symm.trans named)
    refine ⟨endDt ▸ ripe, amount ▸ ?_⟩
    rw [Fruit.gold, Fruit.gold, growLv, type, addNum ripe]

/-- A fruit that nobody has seen before. -/
theorem vine_add (inv : VineInv cfg s) (row : (cfg.rewards f.growLv f.type).isSome)
    (new : f.id = .uid s.nextId) (whole : f.bePickNum = 0) :
    VineInv cfg { s with
      nextId := s.nextId + 1
      vines := Function.update s.vines o (s.vines o ++ [f]) } := by
  have old : ∀ o', ∀ f' ∈ Function.update s.vines o (s.vines o ++ [f]) o',
      f' ∈ s.vines o' ∨ f' = f := by
    intro o' f' mem
    by_cases here : o' = o
    · subst here
      simpa using mem
    · rw [Function.update_of_ne here] at mem
      exact .inl mem
  have unseen : ∀ p ∈ s.picks, p.fruitId ≠ f.id := by
    intro p mem same
    obtain ⟨n, less, id⟩ := inv.known p mem
    obtain rfl := GourdId.uid.inj (id.symm.trans (same.trans new))
    exact absurd less (lt_irrefl _)
  refine ⟨fun o' f' mem => ?_, fun o' => ?_, fun o' f' mem => ?_, fun p mem => ?_,
    fun p mem own f' mem' => ?_, inv.once, inv.ripe, fun o' f' mem => ?_,
    fun p mem steals f' mem' named => ?_, inv.share⟩
  · obtain mem | rfl := old o' f' mem
    · exact inv.rows o' f' mem
    · exact row
  · by_cases here : o' = o
    · subst here
      have absent : f.id ∉ (s.vines o').map Fruit.id := by
        intro mem
        obtain ⟨f', mem, same⟩ := List.mem_map.mp mem
        obtain ⟨n, less, id⟩ := inv.fresh o' f' mem
        obtain rfl := GourdId.uid.inj (id.symm.trans (same.trans new))
        exact absurd less (lt_irrefl _)
      simpa [List.nodup_append, inv.keys o'] using absent
    · simpa [here] using inv.keys o'
  · obtain mem | rfl := old o' f' mem
    · obtain ⟨n, less, id⟩ := inv.fresh o' f' mem
      exact ⟨n, less.trans (Nat.lt_succ_self _), id⟩
    · exact ⟨s.nextId, Nat.lt_succ_self _, new⟩
  · obtain ⟨n, less, id⟩ := inv.known p mem
    exact ⟨n, less.trans (Nat.lt_succ_self _), id⟩
  · obtain mem' | rfl := old p.toId f' mem'
    · exact inv.gone p mem own f' mem'
    · exact (unseen p mem).symm
  · obtain mem | rfl := old o' f' mem
    · exact inv.bePickNum o' f' mem
    · rw [whole, stolen_none unseen]
  · obtain mem' | rfl := old p.toId f' mem'
    · exact inv.same p mem steals f' mem' named
    · exact absurd named.symm (unseen p mem)

theorem vine_collect {kept taken : List Fruit} (inv : VineInv cfg s)
    (less : kept.Sublist (s.vines o)) (ripe : ∀ f ∈ taken, f ∈ s.vines o ∧ f.endDt ≤ s.now)
    (each : (taken.map Fruit.id).Nodup) (apart : ∀ f ∈ taken, ∀ f' ∈ kept, f'.id ≠ f.id) :
    VineInv cfg (s.collect cfg o kept taken) := by
  have left : ∀ o', (Function.update s.vines o kept o').Sublist (s.vines o') := by
    intro o'
    by_cases here : o' = o
    · subst here
      rwa [Function.update_self]
    · rw [Function.update_of_ne here]
  have total : ∀ o' id, stolen (s.collect cfg o kept taken).picks o' id = stolen s.picks o' id := by
    intro o' id
    refine stolen_own fun p mem => ?_
    obtain ⟨f, _, rfl⟩ := List.mem_map.mp mem
    simp [Pick.steals]
  have old : ∀ p ∈ (s.collect cfg o kept taken).picks, p ∈ s.picks ∨
      ∃ f ∈ taken, p = ⟨o, o, f.id, f.endDt, s.now, f.gold cfg, f.gold cfg⟩ := by
    intro p mem
    obtain mem | mem := List.mem_append.mp mem
    · obtain ⟨f, here, rfl⟩ := List.mem_map.mp mem
      exact .inr ⟨f, here, rfl⟩
    · exact .inl mem
  have before : ∀ p ∈ (s.collect cfg o kept taken).picks, p.steals = true → p ∈ s.picks := by
    intro p mem steals
    obtain mem | ⟨f, _, rfl⟩ := old p mem
    · exact mem
    · simp [Pick.steals] at steals
  refine ⟨fun o' f mem => inv.rows o' f ((left o').subset mem),
    fun o' => (inv.keys o').sublist ((left o').map _),
    fun o' f mem => inv.fresh o' f ((left o').subset mem), fun p mem => ?_,
    fun p mem own f mem' => ?_, ?_, fun p mem => ?_, fun o' f mem => ?_,
    fun p mem steals f mem' => ?_, fun p mem steals => ?_⟩
  · obtain mem | ⟨f, here, rfl⟩ := old p mem
    · exact inv.known p mem
    · exact inv.fresh o f (ripe f here).1
  · obtain mem | ⟨f', here, rfl⟩ := old p mem
    · exact inv.gone p mem own f ((left p.toId).subset mem')
    · exact apart f' here f (by simpa using mem')
  · have mine : (taken.map fun f => (⟨o, o, f.id, f.endDt, s.now, f.gold cfg, f.gold cfg⟩ : Pick)).filter
        (fun p => !p.steals) = taken.map fun f => ⟨o, o, f.id, f.endDt, s.now, f.gold cfg, f.gold cfg⟩ := by
      rw [List.filter_eq_self]
      intro p mem
      obtain ⟨f, _, rfl⟩ := List.mem_map.mp mem
      simp [Pick.steals]
    rw [GourdState.collect, List.filter_append, mine, List.map_append, List.map_map,
      List.nodup_append]
    refine ⟨?_, inv.once, ?_⟩
    · have pairs : taken.map ((fun p : Pick => (p.toId, p.fruitId)) ∘ fun f =>
          ⟨o, o, f.id, f.endDt, s.now, f.gold cfg, f.gold cfg⟩) =
          (taken.map Fruit.id).map fun id => (o, id) := by
        rw [List.map_map]
        rfl
      rw [pairs]
      exact each.map (Prod.mk_right_injective o)
    · intro a new b old' same
      obtain ⟨f, here, rfl⟩ := List.mem_map.mp new
      obtain ⟨p, mem', rfl⟩ := List.mem_map.mp old'
      obtain ⟨mem', own⟩ := List.mem_filter.mp mem'
      obtain ⟨rfl, id⟩ := Prod.mk.inj same
      exact inv.gone p mem' (by simpa using own) f (ripe f here).1 id
  · obtain mem | ⟨f, here, rfl⟩ := old p mem
    · exact inv.ripe p mem
    · exact (ripe f here).2
  · rw [total]
    exact inv.bePickNum o' f ((left o').subset mem)
  · exact inv.same p (before p mem steals) steals f ((left p.toId).subset mem')
  · rw [total]
    exact inv.share p (before p mem steals) steals

/-- The last share may go past the limit, and less than one share past it. -/
theorem share_robbed (under : ¬overMax cfg f.bePickNum (f.gold cfg)) :
    (f.bePickNum + GourdState.pickNum cfg f) * 10000 <
      (cfg.rateMax + cfg.ratePick) * f.gold cfg := by
  have less : f.bePickNum * 10000 < cfg.rateMax * f.gold cfg := by
    simpa [overMax] using under
  have part : GourdState.pickNum cfg f * 10000 ≤ cfg.ratePick * f.gold cfg := by
    rw [Nat.mul_comm cfg.ratePick]
    exact Nat.div_mul_le_self _ _
  calc (f.bePickNum + GourdState.pickNum cfg f) * 10000
      = f.bePickNum * 10000 + GourdState.pickNum cfg f * 10000 := Nat.add_mul _ _ _
    _ < cfg.rateMax * f.gold cfg + cfg.ratePick * f.gold cfg := Nat.add_lt_add_of_lt_of_le less part
    _ = (cfg.rateMax + cfg.ratePick) * f.gold cfg := (Nat.add_mul _ _ _).symm

theorem vine_rob (inv : VineInv cfg s) (found : (s.vines o)[i]? = some f) (other : u ≠ o)
    (ripe : f.endDt ≤ s.now) (under : ¬overMax cfg f.bePickNum (f.gold cfg)) :
    VineInv cfg (s.rob cfg o u i f) := by
  have mem : f ∈ s.vines o := List.mem_of_getElem? found
  have old : ∀ o', ∀ f' ∈ (s.rob cfg o u i f).vines o', (o' = o ∧ f' = GourdState.robbed cfg f) ∨
      (f' ∈ s.vines o' ∧ ¬(o = o' ∧ f.id = f'.id)) := by
    intro o' f' mem'
    by_cases here : o' = o
    · subst here
      rw [GourdState.vines_rob, Function.update_self] at mem'
      obtain rfl | ⟨mem', apart⟩ := mem_set_keyed (inv.keys o') found mem'
      · exact .inl ⟨rfl, rfl⟩
      · exact .inr ⟨mem', fun same => apart same.2.symm⟩
    · rw [GourdState.vines_rob, Function.update_of_ne here] at mem'
      exact .inr ⟨mem', fun same => here same.1.symm⟩
  have total : ∀ o' id, stolen (s.rob cfg o u i f).picks o' id =
      (if o = o' ∧ f.id = id then GourdState.pickNum cfg f else 0) + stolen s.picks o' id := by
    intro o' id
    rw [GourdState.picks_rob, stolen_cons]
    simp [GourdState.robbery, Pick.steals, other]
  have steals : (GourdState.robbery cfg s o u f).steals = true := by
    simp [GourdState.robbery, Pick.steals, other]
  have mine := inv.bePickNum o f mem
  refine ⟨fun o' f' mem' => ?_, fun o' => ?_, fun o' f' mem' => ?_, fun p mem' => ?_,
    fun p mem' own f' mem'' => ?_, ?_, fun p mem' => ?_, fun o' f' mem' => ?_,
    fun p mem' stole f' mem'' named => ?_, fun p mem' stole => ?_⟩
  · obtain ⟨rfl, rfl⟩ | ⟨mem', _⟩ := old o' f' mem'
    · exact inv.rows o' f mem
    · exact inv.rows o' f' mem'
  · by_cases here : o' = o
    · subst here
      have same : ((s.vines o').set i (GourdState.robbed cfg f)).map Fruit.id =
          (s.vines o').map Fruit.id := by
        have bound := (List.getElem?_eq_some_iff.mp found).1
        refine List.ext_getElem? fun j => ?_
        rw [List.getElem?_map, List.getElem?_map, List.getElem?_set]
        split
        · rename_i same
          subst same
          rw [found]
          rfl
        · rfl
      rw [GourdState.vines_rob, Function.update_self, same]
      exact inv.keys o'
    · rw [GourdState.vines_rob, Function.update_of_ne here]
      exact inv.keys o'
  · obtain ⟨rfl, rfl⟩ | ⟨mem', _⟩ := old o' f' mem'
    · exact inv.fresh o' f mem
    · exact inv.fresh o' f' mem'
  · obtain rfl | mem' := List.mem_cons.mp mem'
    · exact inv.fresh o f mem
    · exact inv.known p mem'
  · obtain rfl | mem' := List.mem_cons.mp mem'
    · cases steals.symm.trans own
    · obtain ⟨same, rfl⟩ | ⟨mem'', _⟩ := old p.toId f' mem''
      · exact inv.gone p mem' own f (same ▸ mem)
      · exact inv.gone p mem' own f' mem''
  · rw [GourdState.picks_rob, List.filter_cons_of_neg (by simp [steals])]
    exact inv.once
  · obtain rfl | mem' := List.mem_cons.mp mem'
    · exact ripe
    · exact inv.ripe p mem'
  · rw [total]
    obtain ⟨rfl, rfl⟩ | ⟨mem', apart⟩ := old o' f' mem'
    · rw [if_pos ⟨rfl, rfl⟩, Nat.add_comm, GourdState.robbed, mine]
    · rw [if_neg apart, Nat.zero_add]
      exact inv.bePickNum o' f' mem'
  · obtain rfl | mem' := List.mem_cons.mp mem'
    · obtain ⟨_, rfl⟩ | ⟨_, apart⟩ := old _ f' mem''
      · exact ⟨ripe, rfl⟩
      · exact absurd ⟨rfl, named.symm⟩ apart
    · obtain ⟨same, rfl⟩ | ⟨mem'', _⟩ := old p.toId f' mem''
      · exact inv.same p mem' stole f (same ▸ mem) named
      · exact inv.same p mem' stole f' mem'' named
  · rw [total]
    by_cases here : o = p.toId ∧ f.id = p.fruitId
    · have amount : p.gold = f.gold cfg := by
        obtain rfl | mem' := List.mem_cons.mp mem'
        · rfl
        · exact (inv.same p mem' stole f (here.1 ▸ mem) here.2).2.symm
      rw [if_pos here, ← here.1, ← here.2, ← mine, amount, Nat.add_comm]
      exact share_robbed under
    · rw [if_neg here, Nat.zero_add]
      obtain rfl | mem' := List.mem_cons.mp mem'
      · exact absurd ⟨rfl, rfl⟩ here
      · exact inv.share p mem' stole

/-- What the service does with a pick. -/
inductive Outcome (cfg : GourdCfg) (s : GourdState) (o u : UserId) (id fruitId : GourdId) :
    GourdState × PickRet × List Agent.Entry → Prop
  | refused (ret : PickRet) (failed : ret ≠ .succeed_1)
      (blocked : o ≠ u → ¬∃ f, (s.vines o)[fruitIndex (s.vines o) id fruitId]? = some f ∧
        f.endDt ≤ s.now ∧ (cfg.rewards f.growLv f.type).isSome ∧
        ¬overMax cfg f.bePickNum (f.gold cfg)) : Outcome cfg s o u id fruitId (s, ret, [])
  | own (i : Nat) (f : Fruit) (rewardArr : List Agent.Entry) (found : (s.vines o)[i]? = some f)
      (ripe : f.endDt ≤ s.now) (mine : o = u) :
      Outcome cfg s o u id fruitId (s.collect cfg o ((s.vines o).eraseIdx i) [f], .succeed_1, rewardArr)
  | stolen (f : Fruit) (rewardArr : List Agent.Entry)
      (found : (s.vines o)[fruitIndex (s.vines o) id fruitId]? = some f)
      (ripe : f.endDt ≤ s.now) (row : (cfg.rewards f.growLv f.type).isSome)
      (under : ¬overMax cfg f.bePickNum (f.gold cfg)) (other : u ≠ o) :
      Outcome cfg s o u id fruitId
        (s.rob cfg o u (fruitIndex (s.vines o) id fruitId) f, .succeed_1, rewardArr)

theorem id_of_index (found : (s.vines o)[fruitIndex (s.vines o) id fruitId]? = some f) :
    f.id = fruitId := by
  obtain ⟨bound, rfl⟩ := List.getElem?_eq_some_iff.mp found
  have named := List.findIdx_getElem (w := bound)
  exact (of_decide_eq_true named).2

theorem pickFruit_outcome :
    Outcome cfg s o u id fruitId (s.PickFruit cfg o u id fruitId) := by
  simp only [GourdState.PickFruit]
  cases found : (s.vines o)[fruitIndex (s.vines o) id fruitId]? with
  | none =>
      refine .refused .error_3 nofun fun _ ⟨f, there, _⟩ => ?_
      cases found.symm.trans there
  | some f =>
      simp only
      have named := id_of_index found
      split
      · rename_i growing
        refine .refused .noUse_8 nofun fun _ ⟨f', there, ripe, _⟩ => ?_
        obtain rfl := Option.some.inj (found.symm.trans there)
        exact absurd ripe growing.not_ge
      rename_i ripe
      have ripe : f.endDt ≤ s.now := not_lt.mp ripe
      cases row : getGourdRewardArr cfg f with
      | none =>
          refine .refused .error_3 nofun fun _ ⟨f', there, _, known, _⟩ => ?_
          obtain rfl := Option.some.inj (found.symm.trans there)
          rw [getGourdRewardArr, Option.map_eq_none_iff] at row
          rw [row] at known
          cases known
      | some r =>
          obtain ⟨rewardArr, gold⟩ := r
          obtain rfl : gold = f.gold cfg := getGourdRewardArr_gold row
          have known : (cfg.rewards f.growLv f.type).isSome := by
            rw [getGourdRewardArr] at row
            rw [← Option.isSome_map, row]
            rfl
          simp only
          subst named
          split
          · rename_i mine
            subst mine
            exact .own _ f rewardArr found ripe rfl
          rename_i other
          split
          · rename_i full
            refine .refused .other_10 nofun fun _ ⟨f', there, _, _, under⟩ => ?_
            obtain rfl := Option.some.inj (found.symm.trans there)
            exact under full
          · rename_i under
            exact .stolen f _ found ripe known under (Ne.symm other)

/-- What the request to pick a fruit leaves. -/
inductive Requested (cfg : GourdCfg) (s : GourdState) (me : UserId) (uId : UserId) (id : GourdId) :
    (steals : Prop) → GourdState → Prop
  | same {steals : Prop} (not : ¬steals) : Requested cfg s me uId id steals s
  | own {steals : Prop} (not : ¬steals) (i : Nat) (f : Fruit) (found : (s.vines me)[i]? = some f)
      (ripe : f.endDt ≤ s.now) :
      Requested cfg s me uId id steals (s.collect cfg me ((s.vines me).eraseIdx i) [f])
  | stolen {steals : Prop} (did : steals) (i : Nat) (f : Fruit) (isFree : Bool)
      (found : (s.vines uId)[i]? = some f) (ripe : f.endDt ≤ s.now)
      (under : ¬overMax cfg f.bePickNum (f.gold cfg)) (other : me ≠ uId)
      (count : ((s.agents me).pickFruitRecord uId).count < cfg.countMax)
      (countSum : (s.agents me).pickFruitCountDay < cfg.countSumMax) :
      Requested cfg s me uId id steals { s.rob cfg uId me i f with
        agents := Function.update s.agents me
          ((s.agents me).note uId id isFree [GourdState.robbery cfg s uId me f]) }

theorem pickFruit_requested {me uId : UserId} {env : PickEnv} :
    Requested cfg s me uId id (Steals cfg s (.pickFruit me env uId id fruitId))
      (s.GourdPickFruit cfg me env uId id fruitId).1 := by
  simp only [GourdState.GourdPickFruit]
  split
  · rename_i mine
    subst mine
    have outcome := @pickFruit_outcome cfg s uId uId id fruitId
    generalize s.PickFruit cfg uId uId id fruitId = out at outcome
    cases outcome with
    | refused ret failed blocked => exact .same fun did => did.1 rfl
    | own i f rewardArr found ripe mine => exact .own (fun did => did.1 rfl) i f found ripe
    | stolen f rewardArr found ripe row under other => exact absurd rfl other
  rename_i other
  split
  · rename_i locked
    exact .same fun did => absurd did.2.1 locked.not_ge
  rename_i open_
  split
  · rename_i noted
    exact .same fun did => did.2.2.1 noted
  rename_i fresh
  split
  · rename_i full
    exact .same fun did => absurd did.2.2.2.1 full.not_gt
  rename_i room
  split
  · rename_i full
    exact .same fun did => absurd did.2.2.2.2.1 full.not_gt
  rename_i roomSum
  split
  · rename_i poor
    refine .same fun did => ?_
    obtain friend | free | cost := did.2.2.2.2.2.1
    · exact poor.1 friend
    · exact absurd free poor.2.1.not_gt
    · exact poor.2.2 cost
  rename_i rich
  have outcome := @pickFruit_outcome cfg s uId me id fruitId
  generalize s.PickFruit cfg uId me id fruitId = out at outcome
  cases outcome with
  | refused ret failed blocked =>
      have kept : ∀ t : GourdState × PickRet, t.1 = s → Requested cfg s me uId id
          (Steals cfg s (.pickFruit me env uId id fruitId)) t.1 := by
        rintro ⟨_, _⟩ rfl
        exact .same fun did => blocked other did.2.2.2.2.2.2
      exact kept _ (by cases ret <;> first | rfl | exact absurd rfl failed)
  | own i f rewardArr found ripe mine => exact absurd mine other
  | stolen f rewardArr found ripe row under other' =>
      refine .stolen ⟨other, not_lt.mp open_, fresh, not_le.mp room, not_le.mp roomSum, ?_,
        f, found, ripe, row, under⟩ _ f _ found ripe under other' (not_le.mp room)
        (not_le.mp roomSum)
      by_cases friend : env.isFriend = true
      · exact .inl friend
      · by_cases free : (s.agents me).pickFruitFreeCountDay < cfg.freeNum
        · exact .inr (.inl free)
        · refine .inr (.inr ?_)
          by_contra cost
          exact rich ⟨friend, not_lt.mp free, cost⟩

theorem quick_collect (rows : ∀ f ∈ s.vines o, (cfg.rewards f.growLv f.type).isSome) (type : Nat) :
    ∃ goes : Fruit → Bool, (∀ f, goes f = true → f.endDt ≤ s.now) ∧
      (s.GourdPickFruitQuick cfg o type).1 =
        s.collect cfg o ((s.vines o).filter fun f => !goes f) ((s.vines o).filter goes) := by
  refine ⟨fun f => f.endDt ≤ s.now ∧ (type = 0 ∨ (type = 1 ∧ ¬f.isTree)), fun f goes => ?_, ?_⟩
  · exact (of_decide_eq_true goes).1
  · rw [GourdState.GourdPickFruitQuick, GourdState.PickFruitQuick, GourdState.collect]
    simp only
    rw [← List.filterMap_eq_map]
    congr 2
    refine List.filterMap_congr fun f mem => ?_
    have known := rows f (List.mem_of_mem_filter mem)
    obtain ⟨r, row⟩ := Option.isSome_iff_exists.mp known
    simp [getGourdRewardArr, Fruit.gold, row]

theorem picker_note {a : Picker} {uId : UserId} {isFree : Bool} (inv : PickerInv cfg a)
    (whose : p.toId = uId) (count : (a.pickFruitRecord uId).count < cfg.countMax)
    (countSum : a.pickFruitCountDay < cfg.countSumMax) :
    PickerInv cfg (a.note uId id isFree [p]) := by
  have record : ∀ o, ((a.note uId id isFree [p]).pickFruitRecord o).count =
      (a.pickFruitRecord o).count + if uId = o then 1 else 0 := by
    intro o
    by_cases here : o = uId
    · subst here
      simp [Picker.note]
    · simp [Picker.note, here, Ne.symm here]
  refine ⟨fun o => ?_, fun o => ?_, ?_, countSum⟩
  · rw [record, inv.count, Picker.note, List.singleton_append, List.countP_cons, whose]
    simp
  · rw [record]
    split
    · rename_i here
      exact here ▸ count
    · exact inv.countMax o
  · rw [Picker.note, List.singleton_append, List.length_cons, ← inv.countDay]

theorem picker_empty : PickerInv cfg emptyPicker :=
  ⟨fun _ => rfl, fun _ => Nat.zero_le _, rfl, Nat.zero_le _⟩

/-- The fruits know nothing of what the agents have noted. -/
theorem VineInv.note (inv : VineInv cfg s) (agents : UserId → Picker) :
    VineInv cfg { s with agents := agents } :=
  ⟨inv.rows, inv.keys, inv.fresh, inv.known, inv.gone, inv.once, inv.ripe, inv.bePickNum, inv.same,
    inv.share⟩

theorem vine_tick (inv : VineInv cfg s) (d : Nat) : VineInv cfg { s with now := s.now + d } := by
  refine ⟨inv.rows, inv.keys, inv.fresh, inv.known, inv.gone, inv.once, inv.ripe, inv.bePickNum,
    fun p mem steals f mem' named => ?_, inv.share⟩
  obtain ⟨ripe, amount⟩ := inv.same p mem steals f mem' named
  exact ⟨ripe.trans (Int.le_add_of_nonneg_right (Int.natCast_nonneg d)), amount⟩

theorem vine_grow {uId : UserId} {gourd : GourdId} {growLv type addNum : Nat} {endDt : Int}
    (inv : VineInv cfg s) (row : (cfg.rewards growLv type).isSome) :
    VineInv cfg (s.grow uId gourd growLv type endDt addNum) := by
  have basket := vine_map (o := uId) inv
    (fun f => if f.gourd = gourd then { f with isTree := false } else f)
    (fun f => by split <;> exact ⟨rfl, rfl, rfl, rfl, rfl⟩) (fun f _ => by split <;> rfl)
  have added := vine_add (o := uId)
    (f := ⟨.uid s.nextId, gourd, growLv, type, endDt, addNum, 0, true, true⟩) basket row rfl rfl
  simpa [GourdState.grow] using added

/-- The owner takes one fruit. -/
theorem vine_own (inv : VineInv cfg s) (found : (s.vines o)[i]? = some f) (ripe : f.endDt ≤ s.now) :
    VineInv cfg (s.collect cfg o ((s.vines o).eraseIdx i) [f]) := by
  have mem : f ∈ s.vines o := List.mem_of_getElem? found
  refine vine_collect inv (List.eraseIdx_sublist _ _) ?_ (List.nodup_singleton _) ?_
  · intro f' mem'
    obtain rfl := List.mem_singleton.mp mem'
    exact ⟨mem, ripe⟩
  · intro f' mem' g kept
    obtain rfl := List.mem_singleton.mp mem'
    obtain ⟨bound, here⟩ := List.getElem?_eq_some_iff.mp found
    have each := ((List.getElem_cons_eraseIdx_perm bound).map Fruit.id).nodup_iff.mpr (inv.keys o)
    rw [here, List.map_cons, List.nodup_cons] at each
    exact fun same => each.1 (same ▸ List.mem_map_of_mem kept)

theorem vine_quick {goes : Fruit → Bool} (inv : VineInv cfg s)
    (ripe : ∀ f, goes f = true → f.endDt ≤ s.now) :
    VineInv cfg (s.collect cfg o ((s.vines o).filter fun f => !goes f) ((s.vines o).filter goes)) := by
  refine vine_collect inv List.filter_sublist (fun f mem => ?_) ?_ fun f mem g kept same => ?_
  · obtain ⟨mem, goes⟩ := List.mem_filter.mp mem
    exact ⟨mem, ripe f goes⟩
  · exact (inv.keys o).sublist (List.filter_sublist.map _)
  · obtain ⟨mem, goes⟩ := List.mem_filter.mp mem
    obtain ⟨kept, stays⟩ := List.mem_filter.mp kept
    obtain rfl := List.inj_on_of_nodup_map (inv.keys o) kept mem same
    simp [goes] at stays

structure GourdInv (cfg : GourdCfg) (s : GourdState) : Prop where
  vine : VineInv cfg s
  picker : ∀ u, PickerInv cfg (s.agents u)

theorem gourd_step {e : GourdEvent} (inv : GourdInv cfg s) (moved : s.step cfg e = some s') :
    GourdInv cfg s' := by
  cases e with
  | tick d =>
      obtain rfl := Option.some.inj moved
      exact ⟨vine_tick inv.vine d, inv.picker⟩
  | grow uId gourd growLv type endDt addNum =>
      simp only [GourdState.step] at moved
      split at moved
      · rename_i row
        obtain rfl := Option.some.inj moved
        exact ⟨vine_grow inv.vine row, inv.picker⟩
      · cases moved
  | fertilizer uId fruitId addNum =>
      obtain rfl := Option.some.inj moved
      refine ⟨vine_map inv.vine _ (fun f => ?_) (fun f ripe => ?_), inv.picker⟩
      · split <;> exact ⟨rfl, rfl, rfl, rfl, rfl⟩
      · rw [if_neg fun grows => absurd ripe grows.2.not_ge]
  | newDay uId =>
      obtain rfl := Option.some.inj moved
      refine ⟨inv.vine.note _, fun u => ?_⟩
      by_cases here : u = uId
      · subst here
        simpa using picker_empty
      · simpa [here] using inv.picker u
  | pickFruit me env uId id fruitId =>
      obtain rfl := Option.some.inj moved
      have requested := @pickFruit_requested cfg s id fruitId me uId env
      generalize (s.GourdPickFruit cfg me env uId id fruitId).1 = t at requested
      cases requested with
      | same => exact inv
      | own _ i f found ripe => exact ⟨vine_own inv.vine found ripe, inv.picker⟩
      | stolen _ i f isFree found ripe under other count countSum =>
          refine ⟨(vine_rob inv.vine found other ripe under).note _, fun u => ?_⟩
          by_cases here : u = me
          · subst here
            have noted : PickerInv cfg ((s.agents u).note uId id isFree
                [GourdState.robbery cfg s uId u f]) :=
              picker_note (inv.picker u) rfl count countSum
            simpa using noted
          · simpa [here] using inv.picker u
  | pickFruitQuick me type =>
      obtain rfl := Option.some.inj moved
      obtain ⟨goes, ripe, done⟩ := @quick_collect cfg s me (inv.vine.rows me) type
      rw [done]
      exact ⟨vine_quick inv.vine ripe, inv.picker⟩

theorem gourd_start (now : Int) : GourdInv cfg (GourdState.start now) := by
  refine ⟨⟨?_, fun _ => List.nodup_nil, ?_, ?_, ?_, List.nodup_nil, ?_, ?_, ?_, ?_⟩,
    fun _ => picker_empty⟩
  all_goals
    intros
    contradiction

theorem GourdInv.orderly (inv : GourdInv cfg s) : Orderly cfg s := by
  refine ⟨inv.vine.once, inv.vine.ripe, fun u o => ?_, fun u => ?_⟩
  · rw [← (inv.picker u).count]
    exact (inv.picker u).countMax o
  · rw [← (inv.picker u).countDay]
    exact (inv.picker u).countSumMax

/-- Nothing has been stolen. -/
structure Calm (s : GourdState) : Prop where
  own : ∀ p ∈ s.picks, p.steals = false
  today : ∀ u, (s.agents u).today = []
  canPick : ∀ o, ∀ f ∈ s.vines o, f.canPick = true

theorem calm_vines {vines : UserId → List Fruit} {now : Int} {nextId : Nat} (calm : Calm s)
    (canPick : ∀ o, ∀ f ∈ vines o, f.canPick = true) :
    Calm ⟨now, nextId, vines, s.agents, s.picks⟩ := ⟨calm.own, calm.today, canPick⟩

/-- One user's fruits are others that can be picked. -/
theorem calm_update {arr : List Fruit} (calm : Calm s) (canPick : ∀ f ∈ arr, f.canPick = true) :
    ∀ o', ∀ f ∈ Function.update s.vines o arr o', f.canPick = true := by
  intro o' f mem
  by_cases here : o' = o
  · subst here
    rw [Function.update_self] at mem
    exact canPick f mem
  · rw [Function.update_of_ne here] at mem
    exact calm.canPick o' f mem

theorem calm_collect {kept taken : List Fruit} (calm : Calm s) (less : kept ⊆ s.vines o) :
    Calm (s.collect cfg o kept taken) := by
  refine ⟨fun p mem => ?_, calm.today, calm_update calm fun f mem => calm.canPick o f (less mem)⟩
  obtain mem | mem := List.mem_append.mp mem
  · obtain ⟨f, _, rfl⟩ := List.mem_map.mp mem
    simp [Pick.steals]
  · exact calm.own p mem

theorem calm_step {e : GourdEvent} (inv : GourdInv cfg s) (calm : Calm s) (guard : NoSteal cfg s e)
    (moved : s.step cfg e = some s') : Calm s' := by
  cases e with
  | tick d =>
      obtain rfl := Option.some.inj moved
      exact calm_vines calm calm.canPick
  | grow uId gourd growLv type endDt addNum =>
      simp only [GourdState.step] at moved
      split at moved
      · obtain rfl := Option.some.inj moved
        refine calm_vines calm (calm_update calm fun f mem => ?_)
        obtain mem | mem := List.mem_append.mp mem
        · obtain ⟨f', mem', rfl⟩ := List.mem_map.mp mem
          have before := calm.canPick uId f' mem'
          split <;> exact before
        · obtain rfl := List.mem_singleton.mp mem
          rfl
      · cases moved
  | fertilizer uId fruitId addNum =>
      obtain rfl := Option.some.inj moved
      refine calm_vines calm (calm_update calm fun f mem => ?_)
      obtain ⟨f', mem', rfl⟩ := List.mem_map.mp mem
      have before := calm.canPick uId f' mem'
      split <;> exact before
  | newDay uId =>
      obtain rfl := Option.some.inj moved
      refine ⟨calm.own, fun u => ?_, calm.canPick⟩
      by_cases here : u = uId
      · subst here
        simp [emptyPicker]
      · simpa [here] using calm.today u
  | pickFruit me env uId id fruitId =>
      obtain rfl := Option.some.inj moved
      have requested := @pickFruit_requested cfg s id fruitId me uId env
      generalize (s.GourdPickFruit cfg me env uId id fruitId).1 = t at requested
      cases requested with
      | same => exact calm
      | own _ i f found ripe => exact calm_collect calm (List.eraseIdx_subset)
      | stolen did => exact absurd did guard
  | pickFruitQuick me type =>
      obtain rfl := Option.some.inj moved
      obtain ⟨goes, ripe, done⟩ := @quick_collect cfg s me (inv.vine.rows me) type
      rw [done]
      exact calm_collect calm (List.filter_subset_self _)

theorem Calm.picked (calm : Calm s) (inv : GourdInv cfg s) : Picked cfg s := by
  have none : ∀ p ∈ s.picks, ¬p.steals = true := by
    intro p mem steals
    cases steals.symm.trans (calm.own p mem)
  refine ⟨inv.orderly, fun p mem steals => absurd steals (none p mem), fun u => ?_,
    fun o f mem => ?_⟩
  · rw [calm.today u]
    exact List.nodup_nil
  · have whole : f.bePickNum = 0 := by
      rw [inv.vine.bePickNum o f mem, stolen]
      have empty : (s.picks.filter fun p => p.steals ∧ p.toId = o ∧ p.fruitId = f.id) = [] := by
        rw [List.filter_eq_nil_iff]
        intro p mem
        simp [none p mem]
      rw [empty]
      rfl
    obtain ⟨r, row⟩ := Option.isSome_iff_exists.mp (inv.vine.rows o f mem)
    have gold : 0 < f.gold cfg := by
      rw [Fruit.gold, row]
      exact Nat.add_pos_left r.gold_pos _
    rw [whole, Nat.zero_mul]
    exact iff_of_true (calm.canPick o f mem) (Nat.mul_pos cfg.rateMax_pos gold)

/-- Once something has been stolen of a fruit its `canPick` says the opposite. -/
theorem canPick_robbed : ¬((GourdState.robbed cfg f).canPick = true ↔
    (GourdState.robbed cfg f).bePickNum * 10000 <
      cfg.rateMax * (GourdState.robbed cfg f).gold cfg) := by
  have gold : (GourdState.robbed cfg f).gold cfg = f.gold cfg := rfl
  rw [gold]
  simp only [GourdState.robbed, overMax, decide_eq_true_eq, ge_iff_le]
  intro same
  obtain less | more := lt_or_ge ((f.bePickNum + GourdState.pickNum cfg f) * 10000)
    (cfg.rateMax * f.gold cfg)
  · exact absurd (same.mpr less) less.not_ge
  · exact absurd (same.mp more) more.not_gt

theorem picked_step {e : GourdEvent} (inv : GourdInv cfg s) (calm : Calm s)
    (moved : s.step cfg e = some s') : Picked cfg s' ↔ NoSteal cfg s e := by
  constructor
  · intro picked did
    cases e with
    | pickFruit me env uId id fruitId =>
        obtain rfl := Option.some.inj moved
        have requested := @pickFruit_requested cfg s id fruitId me uId env
        generalize (s.GourdPickFruit cfg me env uId id fruitId).1 = t at requested picked
        cases requested with
        | same not => exact not did
        | own not => exact not did
        | stolen _ i f isFree found =>
            have bound := (List.getElem?_eq_some_iff.mp found).1
            refine canPick_robbed (picked.canPick uId (GourdState.robbed cfg f) ?_)
            simpa using List.mem_set bound (GourdState.robbed cfg f)
    | tick | grow | fertilizer | newDay | pickFruitQuick => exact did
  · exact fun guard => (calm_step inv calm guard moved).picked (gourd_step inv moved)

end Vines

section Runs
variable {cfg : GourdCfg} {now : Int} {es : List GourdEvent} {s : GourdState}

theorem run_gourd
    (run : Run (GourdState.step cfg) anyStep (GourdState.start now) es s) : GourdInv cfg s :=
  run.invariant (GourdInv cfg) (gourd_start now) fun _ _ _ inv _ => gourd_step inv

theorem calm_start : Calm (GourdState.start now) :=
  ⟨fun _ mem => absurd mem List.not_mem_nil, fun _ => rfl,
    fun _ _ mem => absurd mem List.not_mem_nil⟩

theorem run_calm
    (run : Run (GourdState.step cfg) (NoSteal cfg) (GourdState.start now) es s) :
    GourdInv cfg s ∧ Calm s := by
  refine run.invariant (fun s => GourdInv cfg s ∧ Calm s) ⟨gourd_start now, calm_start⟩ ?_
  intro t e u inv guard moved
  exact ⟨gourd_step inv.1 moved, calm_step inv.1 inv.2 guard moved⟩

/-- In every run less than one pick is taken of a fruit beyond its share. -/
theorem run_share (run : Run (GourdState.step cfg) anyStep (GourdState.start now) es s) :
    ∀ p ∈ s.picks, p.steals = true → stolen s.picks p.toId p.fruitId * 10000 <
      (cfg.rateMax + cfg.ratePick) * p.gold :=
  (run_gourd run).vine.share

/-- In every run the owner has each fruit once, only ripe fruits are picked and the limits of a
day are kept; the rest is kept all along if and only if nothing is ever stolen. -/
theorem run_picked (run : Run (GourdState.step cfg) anyStep (GourdState.start now) es s) :
    Orderly cfg s ∧
      (Run (GourdState.step cfg) (NoSteal cfg) (GourdState.start now) es s ↔
        ∀ front t, front <+: es →
          Run (GourdState.step cfg) anyStep (GourdState.start now) front t → Picked cfg t) := by
  refine ⟨(run_gourd run).orderly, run.always_iff (Picked cfg) ?_ fun front t e u before moved => ?_⟩
  · exact calm_start.picked (gourd_start now)
  · obtain ⟨inv, calm⟩ := run_calm before
    exact picked_step inv calm moved

/-- The first level of the vine, and the limits as they are. -/
def firstVine : GourdCfg where
  rewards growLv type := if growLv = 1 ∧ type = 0 then some ⟨800, [], by decide⟩ else none
  unlockLv := 3
  countMax := 6
  countSumMax := 30
  rateMax := 5000
  ratePick := 1500
  freeNum := 8
  rateMax_pos := by decide

/-- A fruit that is ripe after an hour. -/
def ripened : List GourdEvent := [.grow 1 (.place 1) 1 0 3600 0, .tick 3600]

def friendPick : GourdEvent := .pickFruit 2 ⟨3, true, false⟩ 1 (.place 1) (.uid 0)

/-- The owner picks a fruit, and a second time there is nothing to pick. -/
theorem run_picked_own :
    ∃ es s, Run (GourdState.step firstVine) anyStep (GourdState.start 0) es s ∧
      (s.picks.map fun p => (p.fromId, p.toId, p.num)) = [(1, 1, 800)] ∧ Orderly firstVine s ∧
      (Run (GourdState.step firstVine) (NoSteal firstVine) (GourdState.start 0) es s ↔
        ∀ front t, front <+: es →
          Run (GourdState.step firstVine) anyStep (GourdState.start 0) front t →
            Picked firstVine t) := by
  have run := @run_of_exec _ _ (GourdState.step firstVine) (GourdState.start 0)
    (ripened ++ [.pickFruit 1 ⟨3, true, false⟩ 1 (.place 1) (.uid 0), .pickFruitQuick 1 0]) _ rfl
  exact ⟨_, _, run, by decide, run_picked run⟩

/-- A friend takes of the same fruit four times on one day, 480 of its 800 gold. -/
theorem picked_fails :
    ¬∀ cfg now es s, Run (GourdState.step cfg) anyStep (GourdState.start now) es s →
      Picked cfg s := by
  intro all
  have run := @run_of_exec _ _ (GourdState.step firstVine) (GourdState.start 0)
    (ripened ++ List.replicate 4 friendPick) _ rfl
  have share := (all _ _ _ _ run).share _ List.mem_cons_self rfl
  exact absurd share (by decide)

end Runs

end HuluLandlord.Services
