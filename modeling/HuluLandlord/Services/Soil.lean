import HuluLandlord.Agent.Consume
import HuluLandlord.Services.Vine

/-!
Loosening the soil of vines, the boxes found in it, and help by friends, over the service that
keeps the vines. A user's agent has his boxes, by the vine they were found at, and only adds to
them until his next day; that a service call fails for a user without a vine is part of what
it does. Chances, boxes and oxygen are drawn for a request. `loosened`, `opened` and `helped`
are what users have been granted, oldest first.
-/
namespace HuluLandlord.Services
open Transition Table

structure SoilBox where
  id : Nat
  endDt : Int
  isOpen : Bool
  rewardArr : Option (List Agent.Entry)
  deriving DecidableEq, Repr

structure O2Range where
  low : Int
  heig : Int
  deriving DecidableEq, Repr

/-- The entries of `globalCfg`: `val` and `o2Range` of 103012, 103013, the box of 103014, 103015,
`reward` of 103016 and the hoe of 103018; the service has the rest. -/
structure SoilCfg where
  vine : VineCfg
  tables : Agent.Tables
  val : Nat
  o2Range : O2Range
  rewardArr : List Agent.Entry
  boxRate : Int
  boxTime : Int
  boxCost : Agent.Entry
  boxRange : O2Range
  helpReward : Agent.Entry
  hoeCost : Agent.Entry
  hoeRate : Int
  hoeRange : O2Range

structure SoilAgent where
  bag : Agent.Bag
  loosenSoilBoxRecord : UserId → List SoilBox
  loosenSoilO2ValDayMy : Int

/-- A reward out of a box: whose it is, at whose vine it was found, and as which one. -/
structure Opened where
  fromId : UserId
  toId : UserId
  index : Nat
  endDt : Int
  dt : Int
  reward : Agent.Entry
  deriving DecidableEq, Repr

structure SoilState where
  service : VineState
  agents : UserId → SoilAgent
  isFriend : UserId → UserId → Bool
  loosened : List (UserId × UserId)
  opened : List Opened
  helped : List (UserId × UserId)

/-- The time of a request, what it draws, and the calls to the service it makes. -/
structure SoilEnv where
  now : Int
  chance : Int
  uid : Nat
  random : O2Range → Int
  reward : Agent.Entry
  asked : VineEnv
  called : VineEnv

inductive SoilEvent
  | insert (id : UserId) (gourdLv : Option Nat)
  | outside (id : UserId) (bag : Agent.Bag) (isFriend : UserId → Bool)
  | loosenSoil (me id : UserId) (isHoe : Bool) (e : SoilEnv)
  | boxOpen (me id : UserId) (index : Nat) (e : SoilEnv)
  | friendHelp (me id : UserId) (e : SoilEnv)

/-- What a box is known by. -/
def Opened.box (o : Opened) : UserId × UserId × Nat := (o.fromId, o.toId, o.index)

namespace SoilState
variable (cfg : SoilCfg)

/-- The check of `GourdLoosenSoil`; a count that is not there is zero. -/
def worn (count : Nat) : Bool := 0 < count ∧ cfg.val ≤ count

/-- The bag after a removal, if there was enough. -/
def pay (bag : Agent.Bag) (cost : Agent.Entry) : Option Agent.Bag :=
  match bag.remove cfg.tables.items cost.id cost.num with
  | (bag, true, _) => some bag
  | (_, false, _) => none

def hoe (bag : Agent.Bag) (isHoe : Bool) : Option Agent.Bag :=
  if isHoe then pay cfg bag cfg.hoeCost else some bag

def setAgent (s : SoilState) (me : UserId) (mine : SoilAgent) : SoilState :=
  { s with agents := Function.update s.agents me mine }

/-- The boxes of a user, with the one that may have been found. -/
def found (boxObjArr : List SoilBox) (isHoe : Bool) (e : SoilEnv) : List SoilBox :=
  if e.chance ≤ (if isHoe then cfg.hoeRate else cfg.boxRate) then
    boxObjArr ++ [⟨e.uid, e.now + cfg.boxTime, false, none⟩]
  else boxObjArr

def GourdLoosenSoil (s : SoilState) (me id : UserId) (isHoe : Bool) (e : SoilEnv) :
    SoilState × RetVal :=
  match s.service.load me with
  | none => (s, .error_3)
  | some v =>
      let s := { s with service := s.service.on me (Vine.tryGetData cfg.vine e.asked 0) }
      let data := (v.tryGetData cfg.vine e.asked 0).obj
      if worn cfg (data.loosenSoilRecord id) then (s, .noUse_8)
      else match hoe cfg (s.agents me).bag isHoe with
        | none => (s, .lack_6)
        | some bag =>
            let mine : SoilAgent := { s.agents me with
              bag := bag
              loosenSoilBoxRecord := Function.update (s.agents me).loosenSoilBoxRecord id
                (found cfg ((s.agents me).loosenSoilBoxRecord id) isHoe e) }
            match s.service.load id with
            | none => (s.setAgent me mine, .error_3)
            | some _ =>
                let o2Val := e.random (if isHoe then cfg.hoeRange else cfg.o2Range)
                ({ s.setAgent me { mine with
                    loosenSoilO2ValDayMy := mine.loosenSoilO2ValDayMy + o2Val } with
                  service := s.service.on id (Vine.LoosenSoil cfg.vine me o2Val e.called)
                  loosened := s.loosened ++ [(me, id)] }, .succeed_1)

/-- `index` is counted from zero. -/
def GourdLoosenSoilBoxOpen (s : SoilState) (me id : UserId) (index : Nat) (e : SoilEnv) :
    SoilState × RetVal :=
  match ((s.agents me).loosenSoilBoxRecord id)[index]? with
  | none => (s, .notExists_5)
  | some boxObj =>
      if e.now > boxObj.endDt then (s, .noUse_8)
      else match pay cfg (s.agents me).bag cfg.boxCost with
        | none => (s, .lack_6)
        | some bag =>
            let mine : SoilAgent := { s.agents me with
              bag := bag.add cfg.tables e.now e.reward
              loosenSoilBoxRecord := Function.update (s.agents me).loosenSoilBoxRecord id
                (((s.agents me).loosenSoilBoxRecord id).set index { boxObj with
                  isOpen := true, rewardArr := some [e.reward] }) }
            let opened := s.opened ++ [⟨me, id, index, boxObj.endDt, e.now, e.reward⟩]
            match s.service.load id with
            | none => ({ s.setAgent me mine with opened := opened }, .error_3)
            | some _ =>
                let o2Val := e.random cfg.boxRange
                ({ s.setAgent me { mine with
                    loosenSoilO2ValDayMy := mine.loosenSoilO2ValDayMy + o2Val } with
                  service := s.service.on id (Vine.AddO2 cfg.vine o2Val e.called 0)
                  opened := opened }, .succeed_1)

def GourdFriendHelp (s : SoilState) (me id : UserId) (e : SoilEnv) : SoilState × RetVal :=
  if ¬s.isFriend me id then (s, .notExists_5)
  else match s.service.load id with
    | none => (s, .error_3)
    | some v =>
        let s := { s with service := s.service.on id (Vine.FriendHelp cfg.vine me e.called) }
        if (v.tryGetData cfg.vine e.called 0).obj.friendHelpArr.length ≥ cfg.vine.numMax then
          (s, .noUse_8)
        else
          ({ s.setAgent me { s.agents me with
              bag := (s.agents me).bag.add cfg.tables e.now cfg.helpReward } with
            helped := s.helped ++ [(me, id)] }, .succeed_1)

end SoilState

/-- When the service is called. -/
def SoilEvent.times : SoilEvent → List Int
  | .insert .. | .outside .. => []
  | .loosenSoil _ _ _ e => [e.asked.now, e.called.now]
  | .boxOpen _ _ _ e | .friendHelp _ _ e => [e.called.now]

namespace SoilState
variable (cfg : SoilCfg) (day : Int)

/-- What happens on a day. -/
def step (s : SoilState) (e : SoilEvent) : Option SoilState :=
  if ∀ t ∈ e.times, cfg.vine.dayZero t = day then
    match e with
    | .insert id gourdLv => (s.service.step cfg.vine (.insert id gourdLv)).map fun service =>
        { s with service := service }
    | .outside id bag isFriend => some { s.setAgent id { s.agents id with bag := bag } with
        isFriend := Function.update s.isFriend id isFriend }
    | .loosenSoil me id isHoe e => some (s.GourdLoosenSoil cfg me id isHoe e).1
    | .boxOpen me id index e =>
        if e.reward ∈ cfg.rewardArr then some (s.GourdLoosenSoilBoxOpen cfg me id index e).1 else none
    | .friendHelp me id e => some (s.GourdFriendHelp cfg me id e).1
  else none

/-- The beginning of a day: no box has been found. -/
def start (service : VineState) (bags : UserId → Agent.Bag) (isFriend : UserId → UserId → Bool) :
    SoilState :=
  ⟨service, fun id => ⟨bags id, fun _ => [], 0⟩, isFriend, [], [], []⟩

end SoilState

/-- Nobody has used his vine on the day. -/
structure VineState.Morning (s : VineState) (day : Int) : Prop where
  cache : ∀ id u, s.cache id = some u → u.resetDt ≠ some day
  rows : ∀ id u, s.rows id = some u → u.resetDt ≠ some day
  cached : ∀ id u, s.cache id = some u → (s.rows id).isSome

/-- What is granted keeps within what there is for a day. -/
structure Fair (cfg : SoilCfg) (s : SoilState) : Prop where
  loosened : ∀ me id, s.loosened.count (me, id) ≤ cfg.val
  opened : (s.opened.map Opened.box).Nodup
  inTime : ∀ o ∈ s.opened, o.dt ≤ o.endDt
  helped : s.helped.Nodup
  numMax : ∀ id, s.helped.countP (fun h => h.2 = id) ≤ cfg.vine.numMax

/-- Who has loosened the soil of a vine on a day, and who helps its owner. -/
def GourdData.daily (u : GourdData) (day : Int) : (UserId → Nat) × List FriendHelp :=
  ((u.today day).loosenSoilRecord, (u.today day).friendHelpArr)

/-- The same in the service. -/
def VineState.daily (s : VineState) (day : Int) (id : UserId) : (UserId → Nat) × List FriendHelp :=
  match s.load id with
  | none => (fun _ => 0, [])
  | some v => v.obj.daily day

namespace SoilState
variable (cfg : SoilCfg) (day : Int)

/-- `GourdLoosenSoil` succeeds: the record of the user's own vine lets it pass. -/
def Loosens (s : SoilState) (me id : UserId) (isHoe : Bool) : Prop :=
  (s.service.load me).isSome ∧ worn cfg ((s.service.daily day me).1 id) = false ∧
    (hoe cfg (s.agents me).bag isHoe).isSome ∧ (s.service.load id).isSome

/-- `GourdLoosenSoilBoxOpen` hands out a reward. -/
def Opens (s : SoilState) (me id : UserId) (index : Nat) (now : Int) (boxObj : SoilBox) : Prop :=
  ((s.agents me).loosenSoilBoxRecord id)[index]? = some boxObj ∧ now ≤ boxObj.endDt ∧
    (pay cfg (s.agents me).bag cfg.boxCost).isSome

/-- `GourdFriendHelp` succeeds. -/
def Helps (s : SoilState) (me id : UserId) : Prop :=
  s.isFriend me id ∧ (s.service.load id).isSome ∧
    (s.service.daily day id).2.length < cfg.vine.numMax

/-- A request that passes the checks finds the soil loosened less often than it may be by the
record of the vine, the box closed, and the user not among the helpers. -/
def Binds (s : SoilState) : SoilEvent → Prop
  | .insert .. | .outside .. => True
  | .loosenSoil me id isHoe _ =>
      s.Loosens cfg day me id isHoe → (s.service.daily day id).1 me < cfg.val
  | .boxOpen me id index e =>
      ∀ boxObj, s.Opens cfg me id index e.now boxObj → boxObj.isOpen = false
  | .friendHelp me id _ =>
      s.Helps cfg day me id → me ∉ (s.service.daily day id).2.map FriendHelp.id

end SoilState

namespace GourdData
variable {u u' : GourdData} {day : Int}

theorem today_reset (reset : u.resetDt = some day) : u.today day = u :=
  if_neg (not_not.mpr reset)

theorem daily_reset (reset : u.resetDt = some day) :
    u.daily day = (u.loosenSoilRecord, u.friendHelpArr) := by
  rw [daily, today_reset reset]

theorem daily_yesterday (yesterday : u.resetDt ≠ some day) : u.daily day = (fun _ => 0, []) := by
  rw [daily, today, if_pos yesterday, newDay]

end GourdData

namespace Vine
variable {cfg : VineCfg} {v : Vine} {e : VineEnv} {day : Int} {pass : Nat} {o2Val : Int}
  {me : UserId}

/-- The data that have been asked for are those of the day. -/
theorem tryGetData_reset (now : cfg.dayZero e.now = day) :
    (v.tryGetData cfg e pass).obj.resetDt = some day := by
  obtain ⟨arr, k, same⟩ := @tryGetData_frame cfg v e pass
  have reset : (v.obj.today (cfg.dayZero e.now)).resetDt = some day := by
    rw [GourdData.today, now]
    split
    · rfl
    · rename_i same
      exact not_not.mp same
  rw [same, ← reset, GourdData.expire]
  split <;> rfl

theorem daily_tryGetData (now : cfg.dayZero e.now = day) :
    (v.tryGetData cfg e pass).obj.daily day = v.obj.daily day := by
  rw [GourdData.daily_reset (tryGetData_reset now)]
  obtain ⟨arr, k, same⟩ := @tryGetData_frame cfg v e pass
  rw [same, GourdData.expire, now, GourdData.daily]
  split <;> rfl

theorem AddO2_reset (now : cfg.dayZero e.now = day) :
    (v.AddO2 cfg o2Val e pass).obj.resetDt = some day := by
  rw [← @tryGetData_reset cfg v e day pass now, AddO2, breathe]
  split <;> rfl

theorem daily_AddO2 (now : cfg.dayZero e.now = day) :
    (v.AddO2 cfg o2Val e pass).obj.daily day = v.obj.daily day := by
  rw [← @daily_tryGetData cfg v e day pass now, GourdData.daily_reset (AddO2_reset now),
    GourdData.daily_reset (tryGetData_reset now), AddO2, breathe]
  split <;> rfl

theorem daily_LoosenSoil (now : cfg.dayZero e.now = day) :
    (v.LoosenSoil cfg me o2Val e).obj.daily day =
      (Function.update (v.obj.daily day).1 me ((v.obj.daily day).1 me + 1),
        (v.obj.daily day).2) := by
  have asked := @daily_tryGetData cfg v e day 0 now
  have reset := @tryGetData_reset cfg v e day 0 now
  have noted : (loosened cfg me e v).resetDt = some day := reset
  rw [LoosenSoil, daily_AddO2 now]
  show (loosened cfg me e v).daily day = _
  rw [GourdData.daily_reset noted, ← asked, GourdData.daily_reset reset, loosened]

theorem daily_FriendHelp (now : cfg.dayZero e.now = day) :
    (v.FriendHelp cfg me e).obj.daily day = ((v.obj.daily day).1,
      if (v.obj.daily day).2.length ≥ cfg.numMax then (v.obj.daily day).2
      else (v.obj.daily day).2 ++ [⟨me, e.now + cfg.helpTime⟩]) := by
  have asked := @daily_tryGetData cfg v e day 0 now
  have reset := @tryGetData_reset cfg v e day 0 now
  rw [GourdData.daily_reset reset] at asked
  rw [FriendHelp, ← asked]
  split
  · exact GourdData.daily_reset reset
  · exact GourdData.daily_reset reset

end Vine

namespace VineState
variable {cfg : VineCfg} {s : VineState} {id other : UserId} {v : Vine} {f : Vine → Vine}
  {day : Int}

/-- Only users with a row are in the cache. -/
def Backed (s : VineState) : Prop := ∀ id u, s.cache id = some u → (s.rows id).isSome

theorem backed_on (backed : s.Backed) : (s.on id f).Backed := by
  rw [on]
  cases s.load id with
  | none => exact backed
  | some v =>
      intro other u cached
      by_cases same : other = id
      · subst same
        simp only [Function.update_self, Option.isSome_some]
      · simp only [Function.update_of_ne same] at cached ⊢
        exact backed other u cached

theorem load_on (loaded : s.load id = some v) : (s.on id f).load id = some (f v) := by
  rw [on, loaded, load]
  simp only [Function.update_self]

theorem load_on_ne (apart : other ≠ id) : (s.on id f).load other = s.load other := by
  rw [on]
  cases s.load id with
  | none => rfl
  | some v => simp only [load, Function.update_of_ne apart]

theorem isSome_load_on : ((s.on id f).load other).isSome = (s.load other).isSome := by
  by_cases same : other = id
  · subst same
    cases loaded : s.load other with
    | none => rw [on, loaded, loaded]
    | some v => rw [load_on loaded, Option.isSome_some, Option.isSome_some]
  · rw [load_on_ne same]

theorem daily_load (loaded : s.load id = some v) : s.daily day id = v.obj.daily day := by
  rw [daily, loaded]

theorem daily_on (loaded : s.load id = some v) :
    (s.on id f).daily day id = (f v).obj.daily day := by
  rw [daily, load_on loaded]

theorem daily_on_ne (apart : other ≠ id) : (s.on id f).daily day other = s.daily day other := by
  rw [daily, load_on_ne apart, daily]

/-- A command that keeps what belongs to the day of one vine keeps that of all. -/
theorem daily_on_kept (kept : ∀ v, (f v).obj.daily day = v.obj.daily day) :
    (s.on id f).daily day = s.daily day := by
  funext other
  by_cases same : other = id
  · subst same
    cases loaded : s.load other with
    | none => rw [on, loaded]
    | some v => rw [daily_on loaded, kept, daily, loaded]
  · exact daily_on_ne same

end VineState

namespace SoilState

/-- The boxes of a user are those he had, and new ones that are closed. -/
def Finds (s s' : SoilState) : Prop :=
  ∀ me id, ∃ new, (s'.agents me).loosenSoilBoxRecord id =
    (s.agents me).loosenSoilBoxRecord id ++ new ∧ ∀ boxObj ∈ new, boxObj.isOpen = false

section Requests
variable {cfg : SoilCfg} {day : Int} {s : SoilState} {me id : UserId} {isHoe : Bool} {e : SoilEnv}
  {index : Nat}

theorem Finds.refl (s : SoilState) : s.Finds s := fun _ _ =>
  ⟨[], (List.append_nil _).symm, fun _ mem => nomatch mem⟩

theorem found_new (boxObjArr : List SoilBox) : ∃ new, found cfg boxObjArr isHoe e = boxObjArr ++ new ∧
    ∀ boxObj ∈ new, boxObj.isOpen = false := by
  rw [found]
  generalize (if isHoe then cfg.hoeRate else cfg.boxRate) = rate
  split
  · refine ⟨[⟨e.uid, e.now + cfg.boxTime, false, none⟩], rfl, fun boxObj mem => ?_⟩
    rw [List.mem_singleton.mp mem]
  · exact ⟨[], (List.append_nil _).symm, fun _ mem => nomatch mem⟩

/-- The boxes of all users, when those of one user at one vine have changed. -/
theorem boxes_update {mine : SoilAgent} {arr : List SoilBox} {other place : UserId}
    (record : mine.loosenSoilBoxRecord =
      Function.update (s.agents me).loosenSoilBoxRecord id arr) :
    (Function.update s.agents me mine other).loosenSoilBoxRecord place =
      if other = me ∧ place = id then arr else (s.agents other).loosenSoilBoxRecord place := by
  by_cases same : other = me
  · subst same
    rw [Function.update_self, record]
    by_cases here : place = id
    · subst here
      rw [if_pos ⟨rfl, rfl⟩, Function.update_self]
    · rw [if_neg fun both => here both.2, Function.update_of_ne here]
  · rw [if_neg fun both => same both.1, Function.update_of_ne same]

/-- What `GourdLoosenSoil` does to the boxes, whether it succeeds or not. -/
theorem finds_found {s' : SoilState} {mine : SoilAgent}
    (agents : s'.agents = Function.update s.agents me mine)
    (record : mine.loosenSoilBoxRecord = Function.update (s.agents me).loosenSoilBoxRecord id
      (found cfg ((s.agents me).loosenSoilBoxRecord id) isHoe e)) : s.Finds s' := by
  intro other place
  rw [agents, boxes_update record]
  split
  · rename_i same
    rw [same.1, same.2]
    exact found_new _
  · exact Finds.refl s other place

/-- `GourdLoosenSoil` succeeds, and the record of the vine counts it, or counts nothing. -/
theorem GourdLoosenSoil_cases (asked : cfg.vine.dayZero e.asked.now = day)
    (called : cfg.vine.dayZero e.called.now = day) :
    (s.GourdLoosenSoil cfg me id isHoe e).1.opened = s.opened ∧
      (s.GourdLoosenSoil cfg me id isHoe e).1.helped = s.helped ∧
      s.Finds (s.GourdLoosenSoil cfg me id isHoe e).1 ∧
      ((s.Loosens cfg day me id isHoe ∧
          (s.GourdLoosenSoil cfg me id isHoe e).1.loosened = s.loosened ++ [(me, id)] ∧
          (s.GourdLoosenSoil cfg me id isHoe e).1.service.daily day =
            Function.update (s.service.daily day) id
              (Function.update (s.service.daily day id).1 me ((s.service.daily day id).1 me + 1),
                (s.service.daily day id).2)) ∨
        (¬s.Loosens cfg day me id isHoe ∧
          (s.GourdLoosenSoil cfg me id isHoe e).1.loosened = s.loosened ∧
          (s.GourdLoosenSoil cfg me id isHoe e).1.service.daily day = s.service.daily day)) := by
  have kept : (s.service.on me (Vine.tryGetData cfg.vine e.asked 0)).daily day =
      s.service.daily day :=
    VineState.daily_on_kept fun v => Vine.daily_tryGetData asked
  rw [GourdLoosenSoil, Loosens]
  cases mine : s.service.load me with
  | none =>
      refine ⟨rfl, rfl, Finds.refl s, .inr ⟨?_, rfl, rfl⟩⟩
      rintro ⟨loaded, _⟩
      cases loaded
  | some v =>
      have record : (v.tryGetData cfg.vine e.asked 0).obj.loosenSoilRecord =
          (s.service.daily day me).1 := by
        have reset := @Vine.tryGetData_reset cfg.vine v e.asked day 0 asked
        rw [VineState.daily_load mine, ← @Vine.daily_tryGetData cfg.vine v e.asked day 0 asked,
          GourdData.daily_reset reset]
      simp only [record]
      by_cases refused : worn cfg ((s.service.daily day me).1 id) = true
      · rw [if_pos refused]
        refine ⟨rfl, rfl, Finds.refl s, .inr ⟨?_, rfl, kept⟩⟩
        rintro ⟨_, passes, _⟩
        nomatch refused.symm.trans passes
      · rw [if_neg refused]
        cases paid : hoe cfg (s.agents me).bag isHoe with
        | none =>
            refine ⟨rfl, rfl, Finds.refl s, .inr ⟨?_, rfl, kept⟩⟩
            rintro ⟨_, _, pays, _⟩
            cases pays
        | some bag =>
            have there : ((s.service.on me (Vine.tryGetData cfg.vine e.asked 0)).load id).isSome =
                (s.service.load id).isSome := VineState.isSome_load_on
            cases target : (s.service.on me (Vine.tryGetData cfg.vine e.asked 0)).load id with
            | none =>
                rw [target] at there
                refine ⟨rfl, rfl, finds_found rfl rfl, .inr ⟨?_, rfl, kept⟩⟩
                rintro ⟨_, _, _, loaded⟩
                nomatch there.trans loaded
            | some w =>
                rw [target] at there
                refine ⟨rfl, rfl, finds_found rfl rfl, .inl ⟨⟨rfl, ?_, rfl, there.symm⟩, rfl, ?_⟩⟩
                · exact Bool.eq_false_iff.mpr refused
                · funext other
                  by_cases same : other = id
                  · subst same
                    rw [Function.update_self]
                    have before : w.obj.daily day = s.service.daily day other := by
                      rw [← kept, VineState.daily_load target]
                    simp only
                    rw [VineState.daily_on target, Vine.daily_LoosenSoil called, before]
                  · rw [Function.update_of_ne same]
                    simp only
                    rw [VineState.daily_on_ne same, kept]

/-- `GourdLoosenSoilBoxOpen` hands out a reward and opens the box, or leaves the boxes as they
are. -/
theorem GourdLoosenSoilBoxOpen_cases (called : cfg.vine.dayZero e.called.now = day) :
    (s.GourdLoosenSoilBoxOpen cfg me id index e).1.loosened = s.loosened ∧
      (s.GourdLoosenSoilBoxOpen cfg me id index e).1.helped = s.helped ∧
      (s.GourdLoosenSoilBoxOpen cfg me id index e).1.service.daily day = s.service.daily day ∧
      ((∃ boxObj opened, s.Opens cfg me id index e.now boxObj ∧ opened.isOpen = true ∧
          (s.GourdLoosenSoilBoxOpen cfg me id index e).1.opened =
            s.opened ++ [⟨me, id, index, boxObj.endDt, e.now, e.reward⟩] ∧
          ∀ other place,
            ((s.GourdLoosenSoilBoxOpen cfg me id index e).1.agents other).loosenSoilBoxRecord place =
              if other = me ∧ place = id then
                ((s.agents me).loosenSoilBoxRecord id).set index opened
              else (s.agents other).loosenSoilBoxRecord place) ∨
        ((∀ boxObj, ¬s.Opens cfg me id index e.now boxObj) ∧
          (s.GourdLoosenSoilBoxOpen cfg me id index e).1.opened = s.opened ∧
          (s.GourdLoosenSoilBoxOpen cfg me id index e).1.agents = s.agents)) := by
  have kept : ∀ o2Val, (s.service.on id (Vine.AddO2 cfg.vine o2Val e.called 0)).daily day =
      s.service.daily day := fun o2Val =>
    VineState.daily_on_kept fun v => Vine.daily_AddO2 called
  simp only [GourdLoosenSoilBoxOpen, Opens]
  cases box : ((s.agents me).loosenSoilBoxRecord id)[index]? with
  | none => exact ⟨rfl, rfl, rfl, .inr ⟨fun boxObj opens => (nomatch opens.1), rfl, rfl⟩⟩
  | some boxObj =>
      simp only
      by_cases late : e.now > boxObj.endDt
      · rw [if_pos late]
        refine ⟨rfl, rfl, rfl, .inr ⟨?_, rfl, rfl⟩⟩
        rintro _ ⟨same, inTime, _⟩
        obtain rfl := Option.some.inj same
        omega
      · rw [if_neg late]
        cases paid : pay cfg (s.agents me).bag cfg.boxCost with
        | none =>
            refine ⟨rfl, rfl, rfl, .inr ⟨?_, rfl, rfl⟩⟩
            rintro _ ⟨_, _, pays⟩
            cases pays
        | some bag =>
            have inTime : e.now ≤ boxObj.endDt := not_lt.mp late
            cases s.service.load id with
            | none =>
                exact ⟨rfl, rfl, rfl, .inl ⟨boxObj, _, ⟨rfl, inTime, rfl⟩, rfl, rfl, fun _ _ => boxes_update rfl⟩⟩
            | some v =>
                exact ⟨rfl, rfl, kept _,
                  .inl ⟨boxObj, _, ⟨rfl, inTime, rfl⟩, rfl, rfl, fun _ _ => boxes_update rfl⟩⟩

/-- `GourdFriendHelp` succeeds, and the owner has one more helper, or changes nothing. -/
theorem GourdFriendHelp_cases (called : cfg.vine.dayZero e.called.now = day) :
    (s.GourdFriendHelp cfg me id e).1.loosened = s.loosened ∧
      (s.GourdFriendHelp cfg me id e).1.opened = s.opened ∧
      (∀ other, ((s.GourdFriendHelp cfg me id e).1.agents other).loosenSoilBoxRecord =
        (s.agents other).loosenSoilBoxRecord) ∧
      ((s.Helps cfg day me id ∧
          (s.GourdFriendHelp cfg me id e).1.helped = s.helped ++ [(me, id)] ∧
          (s.GourdFriendHelp cfg me id e).1.service.daily day =
            Function.update (s.service.daily day) id ((s.service.daily day id).1,
              (s.service.daily day id).2 ++ [⟨me, e.called.now + cfg.vine.helpTime⟩])) ∨
        (¬s.Helps cfg day me id ∧ (s.GourdFriendHelp cfg me id e).1.helped = s.helped ∧
          (s.GourdFriendHelp cfg me id e).1.service.daily day = s.service.daily day)) := by
  rw [GourdFriendHelp, Helps]
  by_cases isFriend : s.isFriend me id = true
  · rw [if_neg (not_not.mpr isFriend)]
    cases loaded : s.service.load id with
    | none =>
        refine ⟨rfl, rfl, fun _ => rfl, .inr ⟨?_, rfl, rfl⟩⟩
        rintro ⟨_, there, _⟩
        cases there
    | some v =>
        have here : s.service.daily day id = v.obj.daily day := VineState.daily_load loaded
        have reset := @Vine.tryGetData_reset cfg.vine v e.called day 0 called
        have helpers : (v.tryGetData cfg.vine e.called 0).obj.friendHelpArr =
            (s.service.daily day id).2 := by
          rw [here, ← @Vine.daily_tryGetData cfg.vine v e.called day 0 called,
            GourdData.daily_reset reset]
        have after : (s.service.on id (Vine.FriendHelp cfg.vine me e.called)).daily day =
            Function.update (s.service.daily day) id ((s.service.daily day id).1,
              if (s.service.daily day id).2.length ≥ cfg.vine.numMax then (s.service.daily day id).2
              else (s.service.daily day id).2 ++ [⟨me, e.called.now + cfg.vine.helpTime⟩]) := by
          funext other
          by_cases same : other = id
          · subst same
            rw [Function.update_self, VineState.daily_on loaded, Vine.daily_FriendHelp called, here]
          · rw [Function.update_of_ne same, VineState.daily_on_ne same]
        simp only [helpers]
        by_cases full : (s.service.daily day id).2.length ≥ cfg.vine.numMax
        · rw [if_pos full] at after ⊢
          refine ⟨rfl, rfl, fun _ => rfl, .inr ⟨?_, rfl, ?_⟩⟩
          · rintro ⟨_, _, room⟩
            omega
          · rw [after]
            exact Function.update_eq_self id (s.service.daily day)
        · rw [if_neg full] at after ⊢
          refine ⟨rfl, rfl, fun other => ?_, .inl ⟨⟨isFriend, rfl, not_le.mp full⟩, rfl, after⟩⟩
          simp only [setAgent]
          by_cases mine : other = me
          · subst mine
            rw [Function.update_self]
          · rw [Function.update_of_ne mine]
  · rw [if_pos isFriend]
    exact ⟨rfl, rfl, fun _ => rfl, .inr ⟨fun helps => isFriend helps.1, rfl, rfl⟩⟩

theorem backed_GourdLoosenSoil (backed : s.service.Backed) :
    (s.GourdLoosenSoil cfg me id isHoe e).1.service.Backed := by
  have asked : (s.service.on me (Vine.tryGetData cfg.vine e.asked 0)).Backed :=
    VineState.backed_on backed
  rw [GourdLoosenSoil]
  split
  · exact backed
  · simp only
    split
    · exact asked
    · split
      · exact asked
      · split
        · exact asked
        · exact VineState.backed_on asked

theorem backed_GourdLoosenSoilBoxOpen (backed : s.service.Backed) :
    (s.GourdLoosenSoilBoxOpen cfg me id index e).1.service.Backed := by
  rw [GourdLoosenSoilBoxOpen]
  split
  · exact backed
  · split
    · exact backed
    · split
      · exact backed
      · simp only
        split
        · exact backed
        · exact VineState.backed_on backed

theorem backed_GourdFriendHelp (backed : s.service.Backed) :
    (s.GourdFriendHelp cfg me id e).1.service.Backed := by
  have called : (s.service.on id (Vine.FriendHelp cfg.vine me e.called)).Backed :=
    VineState.backed_on backed
  rw [GourdFriendHelp]
  split
  · exact backed
  · split
    · exact backed
    · simp only
      split
      · exact called
      · exact called

end Requests

/-- What the records of the service and the boxes of the agents say of what has been granted. -/
structure SoilInv (cfg : SoilCfg) (day : Int) (s : SoilState) : Prop where
  backed : s.service.Backed
  record : ∀ me id, (s.service.daily day id).1 me = s.loosened.count (me, id)
  helpers : ∀ id, (s.service.daily day id).2.map FriendHelp.id =
    (s.helped.filter fun h => h.2 = id).map Prod.fst
  numMax : ∀ id, (s.service.daily day id).2.length ≤ cfg.vine.numMax
  isOpen : ∀ me id index boxObj, ((s.agents me).loosenSoilBoxRecord id)[index]? = some boxObj →
    (boxObj.isOpen = true ↔ (me, id, index) ∈ s.opened.map Opened.box)
  known : ∀ me id index, (me, id, index) ∈ s.opened.map Opened.box →
    index < ((s.agents me).loosenSoilBoxRecord id).length
  inTime : ∀ o ∈ s.opened, o.dt ≤ o.endDt

section Steps
variable {cfg : SoilCfg} {day : Int} {s s' : SoilState} {me id : UserId} {isHoe : Bool}
  {e : SoilEnv} {index : Nat}

/-- Boxes that are found are not known, and those that were there stay as they are. -/
theorem boxes_found (inv : s.SoilInv cfg day) (finds : s.Finds s') (same : s'.opened = s.opened) :
    (∀ me id index boxObj, ((s'.agents me).loosenSoilBoxRecord id)[index]? = some boxObj →
        (boxObj.isOpen = true ↔ (me, id, index) ∈ s'.opened.map Opened.box)) ∧
      ∀ me id index, (me, id, index) ∈ s'.opened.map Opened.box →
        index < ((s'.agents me).loosenSoilBoxRecord id).length := by
  rw [same]
  refine ⟨fun me id index boxObj box => ?_, fun me id index mem => ?_⟩
  · obtain ⟨new, record, closed⟩ := finds me id
    rw [record] at box
    by_cases old : index < ((s.agents me).loosenSoilBoxRecord id).length
    · rw [List.getElem?_append_left old] at box
      exact inv.isOpen me id index boxObj box
    · rw [List.getElem?_append_right (not_lt.mp old)] at box
      have isOpen := closed boxObj (List.mem_of_getElem? box)
      rw [isOpen]
      exact iff_of_false Bool.false_ne_true fun mem => old (inv.known me id index mem)
  · obtain ⟨new, record, _⟩ := finds me id
    rw [record, List.length_append]
    exact Nat.lt_add_right _ (inv.known me id index mem)

theorem inv_loosenSoil (asked : cfg.vine.dayZero e.asked.now = day)
    (called : cfg.vine.dayZero e.called.now = day) (inv : s.SoilInv cfg day) :
    (s.GourdLoosenSoil cfg me id isHoe e).1.SoilInv cfg day := by
  obtain ⟨opened, helped, finds, granted⟩ :=
    @GourdLoosenSoil_cases cfg day s me id isHoe e asked called
  have backed := @backed_GourdLoosenSoil cfg s me id isHoe e inv.backed
  generalize (s.GourdLoosenSoil cfg me id isHoe e).1 = s' at opened helped finds granted backed ⊢
  obtain ⟨isOpen, known⟩ := boxes_found inv finds opened
  have inTime : ∀ o ∈ s'.opened, o.dt ≤ o.endDt := opened.symm ▸ inv.inTime
  obtain ⟨_, loosened, daily⟩ | ⟨_, loosened, daily⟩ := granted
  · have helpers : ∀ id, (s'.service.daily day id).2 = (s.service.daily day id).2 := by
      intro other
      rw [daily]
      by_cases same : other = id
      · subst same
        rw [Function.update_self]
      · rw [Function.update_of_ne same]
    refine ⟨backed, fun me' id' => ?_, ?_, ?_, isOpen, known, inTime⟩
    · rw [daily, loosened, List.count_append, List.count_singleton, ← inv.record]
      by_cases same : id' = id
      · subst same
        rw [Function.update_self]
        by_cases mine : me' = me
        · subst mine
          simp only [Function.update_self, beq_self_eq_true, if_true]
        · simp only [Function.update_of_ne mine]
          have other : ((me, id') == (me', id')) = false :=
            beq_eq_false_iff_ne.mpr fun pair => mine (Prod.mk.inj pair).1.symm
          rw [other]
          rfl
      · rw [Function.update_of_ne same]
        have other : ((me, id) == (me', id')) = false :=
          beq_eq_false_iff_ne.mpr fun pair => same (Prod.mk.inj pair).2.symm
        rw [other]
        rfl
    · intro other
      rw [helpers, helped]
      exact inv.helpers other
    · intro other
      rw [helpers]
      exact inv.numMax other
  · refine ⟨backed, ?_, ?_, ?_, isOpen, known, inTime⟩
    · rw [daily, loosened]
      exact inv.record
    · rw [daily, helped]
      exact inv.helpers
    · rw [daily]
      exact inv.numMax

theorem inv_boxOpen (called : cfg.vine.dayZero e.called.now = day) (inv : s.SoilInv cfg day) :
    (s.GourdLoosenSoilBoxOpen cfg me id index e).1.SoilInv cfg day := by
  obtain ⟨loosened, helped, daily, granted⟩ :=
    @GourdLoosenSoilBoxOpen_cases cfg day s me id e index called
  have backed := @backed_GourdLoosenSoilBoxOpen cfg s me id e index inv.backed
  generalize (s.GourdLoosenSoilBoxOpen cfg me id index e).1 = s'
    at loosened helped daily granted backed ⊢
  have record : ∀ me id, (s'.service.daily day id).1 me = s'.loosened.count (me, id) := by
    rw [daily, loosened]
    exact inv.record
  have helpers : ∀ id, (s'.service.daily day id).2.map FriendHelp.id =
      (s'.helped.filter fun h => h.2 = id).map Prod.fst := by
    rw [daily, helped]
    exact inv.helpers
  have numMax : ∀ id, (s'.service.daily day id).2.length ≤ cfg.vine.numMax := by
    rw [daily]
    exact inv.numMax
  obtain ⟨boxObj, opened', ⟨box, inTime, _⟩, isOpen, opened, boxes⟩ | ⟨_, opened, agents⟩ := granted
  · have there : index < ((s.agents me).loosenSoilBoxRecord id).length :=
      (List.getElem?_eq_some_iff.mp box).1
    refine ⟨backed, record, helpers, numMax, fun me' id' index' boxObj' box' => ?_,
      fun me' id' index' mem => ?_, fun o mem => ?_⟩
    · rw [boxes] at box'
      rw [opened, List.map_append, List.mem_append, List.map_singleton, List.mem_singleton,
        Opened.box]
      split at box'
      · rename_i same
        obtain ⟨rfl, rfl⟩ := same
        rw [List.getElem?_set] at box'
        split at box'
        · rename_i here
          subst here
          obtain rfl := Option.some.inj box'
          exact iff_of_true isOpen (.inr rfl)
        · rename_i apart
          rw [inv.isOpen _ _ _ _ box']
          refine ⟨.inl, fun mem => mem.resolve_right fun same => apart ?_⟩
          exact (Prod.mk.inj (Prod.mk.inj same).2).2.symm
      · rename_i apart
        rw [inv.isOpen _ _ _ _ box']
        refine ⟨.inl, fun mem => mem.resolve_right fun same => apart ?_⟩
        exact ⟨(Prod.mk.inj same).1, (Prod.mk.inj (Prod.mk.inj same).2).1⟩
    · rw [boxes]
      rw [opened, List.map_append, List.mem_append, List.map_singleton, List.mem_singleton,
        Opened.box] at mem
      split
      · rename_i same
        obtain ⟨rfl, rfl⟩ := same
        rw [List.length_set]
        obtain mem | same := mem
        · exact inv.known _ _ _ mem
        · exact (Prod.mk.inj (Prod.mk.inj same).2).2 ▸ there
      · rename_i apart
        obtain mem | same := mem
        · exact inv.known _ _ _ mem
        · exact absurd ⟨(Prod.mk.inj same).1, (Prod.mk.inj (Prod.mk.inj same).2).1⟩ apart
    · rw [opened] at mem
      obtain mem | mem := List.mem_append.mp mem
      · exact inv.inTime o mem
      · obtain rfl := List.mem_singleton.mp mem
        exact inTime
  · refine ⟨backed, record, helpers, numMax, ?_, ?_, ?_⟩
    · rw [agents, opened]
      exact inv.isOpen
    · rw [agents, opened]
      exact inv.known
    · rw [opened]
      exact inv.inTime

theorem inv_friendHelp (called : cfg.vine.dayZero e.called.now = day) (inv : s.SoilInv cfg day) :
    (s.GourdFriendHelp cfg me id e).1.SoilInv cfg day := by
  obtain ⟨loosened, opened, agents, granted⟩ := @GourdFriendHelp_cases cfg day s me id e called
  have backed := @backed_GourdFriendHelp cfg s me id e inv.backed
  generalize (s.GourdFriendHelp cfg me id e).1 = s' at loosened opened agents granted backed ⊢
  have isOpen : ∀ me id index boxObj,
      ((s'.agents me).loosenSoilBoxRecord id)[index]? = some boxObj →
      (boxObj.isOpen = true ↔ (me, id, index) ∈ s'.opened.map Opened.box) := by
    intro me' id'
    rw [agents, opened]
    exact inv.isOpen me' id'
  have known : ∀ me id index, (me, id, index) ∈ s'.opened.map Opened.box →
      index < ((s'.agents me).loosenSoilBoxRecord id).length := by
    intro me' id'
    rw [agents, opened]
    exact inv.known me' id'
  have inTime : ∀ o ∈ s'.opened, o.dt ≤ o.endDt := opened.symm ▸ inv.inTime
  obtain ⟨helps, helped, daily⟩ | ⟨_, helped, daily⟩ := granted
  · refine ⟨backed, fun me' id' => ?_, fun id' => ?_, fun id' => ?_, isOpen, known, inTime⟩
    · rw [loosened, ← inv.record, daily]
      by_cases same : id' = id
      · subst same
        rw [Function.update_self]
      · rw [Function.update_of_ne same]
    · rw [daily, helped, List.filter_append, List.map_append, ← inv.helpers]
      by_cases same : id' = id
      · subst same
        rw [Function.update_self]
        simp
      · rw [Function.update_of_ne same]
        have other : ¬id = id' := fun here => same here.symm
        simp [other]
    · rw [daily]
      by_cases same : id' = id
      · subst same
        rw [Function.update_self, List.length_append]
        exact helps.2.2
      · rw [Function.update_of_ne same]
        exact inv.numMax id'
  · refine ⟨backed, ?_, ?_, ?_, isOpen, known, inTime⟩
    · rw [daily, loosened]
      exact inv.record
    · rw [daily, helped]
      exact inv.helpers
    · rw [daily]
      exact inv.numMax

theorem inv_insert {gourdLv : Option Nat} {service : VineState} (inv : s.SoilInv cfg day)
    (moved : s.service.step cfg.vine (.insert id gourdLv) = some service) :
    SoilInv cfg day { s with service := service } := by
  rw [VineState.step] at moved
  split at moved
  · rename_i free
    obtain rfl := Option.some.inj moved
    have none_ : s.service.cache id = none := by
      cases cached : s.service.cache id with
      | none => rfl
      | some u =>
          have row := inv.backed id u cached
          rw [free] at row
          cases row
    have daily : VineState.daily { s.service with
        rows := Function.update s.service.rows id (VineState.newRow gourdLv) } day =
        s.service.daily day := by
      funext other
      by_cases same : other = id
      · subst same
        rw [VineState.daily, VineState.daily, VineState.load, VineState.load, free, none_]
        simp only [Function.update_self]
        exact GourdData.daily_yesterday (Option.some_ne_none day).symm
      · rw [VineState.daily, VineState.daily, VineState.load, VineState.load]
        simp only [Function.update_of_ne same]
    refine ⟨fun other u cached => ?_, ?_, ?_, ?_, inv.isOpen, inv.known, inv.inTime⟩
    · by_cases same : other = id
      · subst same
        cases none_.symm.trans cached
      · simp only [Function.update_of_ne same]
        exact inv.backed other u cached
    · rw [daily]
      exact inv.record
    · rw [daily]
      exact inv.helpers
    · rw [daily]
      exact inv.numMax
  · cases moved

theorem inv_outside {bag : Agent.Bag} {isFriend : UserId → Bool} (inv : s.SoilInv cfg day) :
    SoilInv cfg day { s.setAgent id { s.agents id with bag := bag } with
      isFriend := Function.update s.isFriend id isFriend } := by
  have boxes : ∀ other, (Function.update s.agents id { s.agents id with bag := bag }
      other).loosenSoilBoxRecord = (s.agents other).loosenSoilBoxRecord := by
    intro other
    by_cases same : other = id
    · subst same
      rw [Function.update_self]
    · rw [Function.update_of_ne same]
  refine ⟨inv.backed, inv.record, inv.helpers, inv.numMax, ?_, ?_, inv.inTime⟩
  · intro me id'
    simp only [setAgent, boxes]
    exact inv.isOpen me id'
  · intro me id'
    simp only [setAgent, boxes]
    exact inv.known me id'

theorem fair_loosenSoil (asked : cfg.vine.dayZero e.asked.now = day)
    (called : cfg.vine.dayZero e.called.now = day) (inv : s.SoilInv cfg day) (fair : Fair cfg s) :
    Fair cfg (s.GourdLoosenSoil cfg me id isHoe e).1 ↔
      s.Binds cfg day (.loosenSoil me id isHoe e) := by
  obtain ⟨opened, helped, _, granted⟩ :=
    @GourdLoosenSoil_cases cfg day s me id isHoe e asked called
  generalize (s.GourdLoosenSoil cfg me id isHoe e).1 = s' at opened helped granted ⊢
  have rest : (s'.opened.map Opened.box).Nodup ∧ (∀ o ∈ s'.opened, o.dt ≤ o.endDt) ∧
      s'.helped.Nodup ∧ ∀ id, s'.helped.countP (fun h => h.2 = id) ≤ cfg.vine.numMax := by
    rw [opened, helped]
    exact ⟨fair.opened, fair.inTime, fair.helped, fair.numMax⟩
  obtain ⟨loosens, loosened, _⟩ | ⟨refused, loosened, _⟩ := granted
  · have once : s'.loosened.count (me, id) = (s.service.daily day id).1 me + 1 := by
      rw [loosened, List.count_append, List.count_singleton_self, inv.record]
    constructor
    · intro fair' _
      have limit := fair'.loosened me id
      omega
    · intro binds
      refine ⟨fun me' id' => ?_, rest.1, rest.2.1, rest.2.2.1, rest.2.2.2⟩
      by_cases same : (me, id) = (me', id')
      · obtain ⟨rfl, rfl⟩ := Prod.mk.inj same
        have room := binds loosens
        omega
      · rw [loosened, List.count_append, List.count_singleton, beq_eq_false_iff_ne.mpr same]
        exact fair.loosened me' id'
  · refine iff_of_true ⟨?_, rest.1, rest.2.1, rest.2.2.1, rest.2.2.2⟩ fun loosens =>
      absurd loosens refused
    rw [loosened]
    exact fair.loosened

theorem fair_boxOpen (called : cfg.vine.dayZero e.called.now = day) (inv : s.SoilInv cfg day)
    (fair : Fair cfg s) : Fair cfg (s.GourdLoosenSoilBoxOpen cfg me id index e).1 ↔
      s.Binds cfg day (.boxOpen me id index e) := by
  have after := @inv_boxOpen cfg day s me id e index called inv
  obtain ⟨loosened, helped, _, granted⟩ :=
    @GourdLoosenSoilBoxOpen_cases cfg day s me id e index called
  generalize (s.GourdLoosenSoilBoxOpen cfg me id index e).1 = s' at loosened helped granted after ⊢
  have first : ∀ me id, s'.loosened.count (me, id) ≤ cfg.val := by
    rw [loosened]
    exact fair.loosened
  have last : s'.helped.Nodup ∧
      ∀ id, s'.helped.countP (fun h => h.2 = id) ≤ cfg.vine.numMax := by
    rw [helped]
    exact ⟨fair.helped, fair.numMax⟩
  obtain ⟨boxObj, _, opens, _, opened, _⟩ | ⟨refused, opened, _⟩ := granted
  · have known := inv.isOpen me id index boxObj opens.1
    have boxes : s'.opened.map Opened.box = s.opened.map Opened.box ++ [(me, id, index)] := by
      rw [opened, List.map_append]
      rfl
    constructor
    · intro fair' boxObj' opens'
      obtain rfl := Option.some.inj (opens.1.symm.trans opens'.1)
      have once := fair'.opened
      rw [boxes] at once
      refine Bool.eq_false_iff.mpr fun isOpen => ?_
      exact (List.nodup_append.mp once).2.2 _ (known.mp isOpen) _ (List.mem_singleton_self _) rfl
    · intro binds
      refine ⟨first, ?_, after.inTime, last.1, last.2⟩
      rw [boxes]
      refine List.nodup_append.mpr ⟨fair.opened, List.nodup_singleton _, ?_⟩
      rintro box mem _ same rfl
      rw [List.mem_singleton.mp same] at mem
      nomatch (known.mpr mem).symm.trans (binds boxObj opens)
  · refine iff_of_true ⟨first, ?_, after.inTime, last.1, last.2⟩ fun boxObj opens =>
      absurd opens (refused boxObj)
    rw [opened]
    exact fair.opened

theorem fair_friendHelp (called : cfg.vine.dayZero e.called.now = day) (inv : s.SoilInv cfg day)
    (fair : Fair cfg s) :
    Fair cfg (s.GourdFriendHelp cfg me id e).1 ↔ s.Binds cfg day (.friendHelp me id e) := by
  have after := @inv_friendHelp cfg day s me id e called inv
  obtain ⟨loosened, opened, _, granted⟩ := @GourdFriendHelp_cases cfg day s me id e called
  generalize (s.GourdFriendHelp cfg me id e).1 = s' at loosened opened granted after ⊢
  have numMax : ∀ id, s'.helped.countP (fun h => h.2 = id) ≤ cfg.vine.numMax := by
    intro id'
    have helpers := congrArg List.length (after.helpers id')
    rw [List.length_map, List.length_map] at helpers
    rw [List.countP_eq_length_filter, ← helpers]
    exact after.numMax id'
  have rest : (∀ me id, s'.loosened.count (me, id) ≤ cfg.val) ∧
      (s'.opened.map Opened.box).Nodup := by
    rw [loosened, opened]
    exact ⟨fair.loosened, fair.opened⟩
  have known : me ∈ (s.service.daily day id).2.map FriendHelp.id ↔ (me, id) ∈ s.helped := by
    rw [inv.helpers, List.mem_map]
    constructor
    · rintro ⟨h, mem, rfl⟩
      obtain ⟨mem, here⟩ := List.mem_filter.mp mem
      exact (decide_eq_true_eq.mp here) ▸ mem
    · intro mem
      exact ⟨(me, id), List.mem_filter.mpr ⟨mem, decide_eq_true rfl⟩, rfl⟩
  obtain ⟨helps, helped, _⟩ | ⟨refused, helped, _⟩ := granted
  · constructor
    · intro fair' _ mem
      have once := fair'.helped
      rw [helped] at once
      exact (List.nodup_append.mp once).2.2 _ (known.mp mem) _ (List.mem_singleton_self _) rfl
    · intro binds
      refine ⟨rest.1, rest.2, after.inTime, ?_, numMax⟩
      rw [helped]
      refine List.nodup_append.mpr ⟨fair.helped, List.nodup_singleton _, ?_⟩
      rintro pair mem _ same rfl
      rw [List.mem_singleton.mp same] at mem
      exact binds helps (known.mpr mem)
  · refine iff_of_true ⟨rest.1, rest.2, after.inTime, ?_, numMax⟩ fun helps =>
      absurd helps refused
    rw [helped]
    exact fair.helped

/-- A step on the day keeps the records, and keeps within the limits if and only if it binds. -/
theorem soil_step {e : SoilEvent} (inv : s.SoilInv cfg day) (fair : Fair cfg s)
    (moved : s.step cfg day e = some s') :
    s'.SoilInv cfg day ∧ (Fair cfg s' ↔ s.Binds cfg day e) := by
  rw [step.eq_def] at moved
  split at moved
  · rename_i onDay
    cases e with
    | insert id gourdLv =>
        obtain ⟨service, inserted, rfl⟩ := Option.map_eq_some_iff.mp moved
        exact ⟨inv_insert inv inserted, iff_of_true ⟨fair.1, fair.2, fair.3, fair.4, fair.5⟩ trivial⟩
    | outside id bag isFriend =>
        obtain rfl := Option.some.inj moved
        exact ⟨inv_outside inv, iff_of_true ⟨fair.1, fair.2, fair.3, fair.4, fair.5⟩ trivial⟩
    | loosenSoil me id isHoe e =>
        obtain rfl := Option.some.inj moved
        have asked := onDay e.asked.now (List.mem_cons_self ..)
        have called := onDay e.called.now (List.mem_cons_of_mem _ (List.mem_cons_self ..))
        exact ⟨inv_loosenSoil asked called inv, fair_loosenSoil asked called inv fair⟩
    | boxOpen me id index e =>
        simp only at moved
        split at moved
        · obtain rfl := Option.some.inj moved
          have called := onDay e.called.now (List.mem_cons_self ..)
          exact ⟨inv_boxOpen called inv, fair_boxOpen called inv fair⟩
        · cases moved
    | friendHelp me id e =>
        obtain rfl := Option.some.inj moved
        have called := onDay e.called.now (List.mem_cons_self ..)
        exact ⟨inv_friendHelp called inv, fair_friendHelp called inv fair⟩
  · cases moved

variable {service : VineState} {bags : UserId → Agent.Bag} {isFriend : UserId → UserId → Bool}
  {es : List SoilEvent}

theorem soil_start (morning : service.Morning day) :
    (start service bags isFriend).SoilInv cfg day ∧ Fair cfg (start service bags isFriend) := by
  have daily : ∀ id, service.daily day id = (fun _ => 0, []) := by
    intro id
    rw [VineState.daily]
    cases loaded : service.load id with
    | none => rfl
    | some v =>
        refine GourdData.daily_yesterday ?_
        rw [VineState.load] at loaded
        cases row : service.rows id with
        | none =>
            rw [row] at loaded
            cases loaded
        | some row' =>
            rw [row] at loaded
            cases cached : service.cache id with
            | some u =>
                rw [cached] at loaded
                obtain rfl := Option.some.inj loaded
                exact morning.cache id u cached
            | none =>
                rw [cached] at loaded
                have yesterday := morning.rows id row' row
                simp only at loaded
                split at loaded
                · obtain rfl := Option.some.inj loaded
                  exact yesterday
                · obtain rfl := Option.some.inj loaded
                  exact yesterday
  refine ⟨⟨morning.cached, ?_, ?_, ?_, ?_, ?_, ?_⟩, ⟨?_, List.nodup_nil, ?_, List.nodup_nil, ?_⟩⟩
  · intro me id
    exact congrFun (congrArg Prod.fst (daily id)) me
  · intro id
    exact congrArg (fun d => d.2.map FriendHelp.id) (daily id)
  · intro id
    exact (congrArg (fun d => d.2.length) (daily id)).trans_le (Nat.zero_le _)
  · intro me id index boxObj box
    cases box
  · intro me id index mem
    cases mem
  · intro o mem
    cases mem
  · exact fun _ _ => Nat.zero_le _
  · intro o mem
    cases mem
  · exact fun _ => Nat.zero_le _

theorem run_soil (morning : service.Morning day)
    (run : Run (step cfg day) (Binds cfg day) (start service bags isFriend) es s) :
    s.SoilInv cfg day ∧ Fair cfg s := by
  refine run.invariant (fun s => s.SoilInv cfg day ∧ Fair cfg s) (soil_start morning) ?_
  intro t e u inv binds moved
  obtain ⟨after, exact_⟩ := soil_step inv.1 inv.2 moved
  exact ⟨after, exact_.mpr binds⟩

/-- A run of requests on a day keeps within the limits all along if and only if each request
that passes the checks of the code finds them not reached. -/
theorem run_soilFair (morning : service.Morning day)
    (run : Run (step cfg day) anyStep (start service bags isFriend) es s) :
    Run (step cfg day) (Binds cfg day) (start service bags isFriend) es s ↔
      ∀ front t, front <+: es →
        Run (step cfg day) anyStep (start service bags isFriend) front t → Fair cfg t := by
  refine run.always_iff (Fair cfg) (soil_start morning).2 fun front t e u before moved => ?_
  obtain ⟨inv, fair⟩ := run_soil morning before
  exact (soil_step inv fair moved).2

end Steps

/-- Each vine is loosened once a day by a user, and every time a box is found. -/
def soilSample : SoilCfg where
  vine := VineState.sample
  tables := Agent.runeTables
  val := 1
  o2Range := ⟨1, 5⟩
  rewardArr := [⟨Agent.itemGold, 100⟩]
  boxRate := 10000
  boxTime := 600
  boxCost := ⟨Agent.itemDiamond, 10⟩
  boxRange := ⟨5, 10⟩
  helpReward := ⟨Agent.itemGold, 50⟩
  hoeCost := ⟨Agent.itemDiamond, 20⟩
  hoeRate := 10000
  hoeRange := ⟨10, 20⟩

/-- Two users, each with a vine. -/
def neighbours : VineState :=
  ⟨fun _ => none, fun id => if id = 1 ∨ id = 2 then some (VineState.newRow (some 1)) else none⟩

theorem neighbours_morning (day : Int) : neighbours.Morning day := by
  refine ⟨fun id u cached => (nomatch cached), fun id u row => ?_,
    fun id u cached => (nomatch cached)⟩
  simp only [neighbours] at row
  split at row
  · obtain rfl := Option.some.inj row
    exact (Option.some_ne_none day).symm
  · cases row

/-- Two friends, each with a hundred diamonds. -/
def soilStart : SoilState := start neighbours (fun _ => ⟨0, 100, 0, fun _ => none⟩) fun _ _ => true

def soilEnv (now : Int) : SoilEnv :=
  ⟨now, 1, 1, O2Range.low, ⟨Agent.itemGold, 100⟩, VineState.moment now 1000,
    VineState.moment now 5000⟩

def soilEvents : List SoilEvent :=
  [.loosenSoil 1 2 false (soilEnv 100), .boxOpen 1 2 0 (soilEnv 200), .friendHelp 1 2 (soilEnv 300)]

/-- A user loosens the soil of a friend, opens the box he finds and helps him. -/
theorem run_soilFair_once : ∃ s, Run (step soilSample 0) anyStep soilStart soilEvents s ∧
    s.loosened = [(1, 2)] ∧ s.opened.map Opened.box = [(1, 2, 0)] ∧ s.helped = [(1, 2)] ∧
    (Run (step soilSample 0) (Binds soilSample 0) soilStart soilEvents s ↔
      ∀ front t, front <+: soilEvents →
        Run (step soilSample 0) anyStep soilStart front t → Fair soilSample t) := by
  have run := @run_of_exec _ _ (step soilSample 0) soilStart soilEvents _ rfl
  exact ⟨_, run, rfl, rfl, rfl, run_soilFair (neighbours_morning 0) run⟩

/-- A user loosens the soil of the same vine twice, where once is the limit. -/
theorem soilFair_fails : ¬∀ cfg day service bags isFriend es s, service.Morning day →
    Run (step cfg day) anyStep (start service bags isFriend) es s → Fair cfg s := by
  intro fair
  have run := @run_of_exec _ _ (step soilSample 0) soilStart
    [.loosenSoil 1 2 false (soilEnv 100), .loosenSoil 1 2 false (soilEnv 200)] _ rfl
  have once := (fair _ _ _ _ _ _ _ (neighbours_morning 0) run).loosened 1 2
  exact absurd once (by decide +kernel)

end SoilState

end HuluLandlord.Services
