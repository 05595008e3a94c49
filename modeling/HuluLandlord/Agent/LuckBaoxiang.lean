import HuluLandlord.Agent.UserItem
import HuluLandlord.Calendar
import HuluLandlord.Define
import HuluLandlord.Table
import HuluLandlord.Transition

/-!
The lucky boxes: single draws and ten-draws, each from the day's free ones, from those that watched
advertisements have brought, or for diamonds. What a box holds is drawn elsewhere; of it only the
diamonds matter here.
-/
namespace HuluLandlord.Agent
open Calendar Table Transition

inductive LockBXType
  | type1 | type10
  deriving DecidableEq, Repr

inductive LockBXCosumeType
  | systemFree | adv | diamond
  deriving DecidableEq, Repr

/-- `cfg_data`, as `init` has filled it. `switch_on_off` is the global value it is filled from. -/
structure LuckCfg where
  zone : Int
  switch_on_off : Bool
  luck1_system_free_num_limit : Nat
  luck10_system_free_num_limit : Nat
  daily_take_num_limit : Nat
  lucktype1_consume_diamond : Nat
  lucktype10_consume_diamond : Nat
  luck1adv_to_free_num_step : Nat
  luck1adv_free_num_limit : Nat
  luck10adv_to_free_num_step : Nat
  luck10adv_free_num_limit : Nat
  luck10adv_con_day_num : Nat
  step_pos : 0 < luck1adv_to_free_num_step

structure LuckyData where
  SystemFreeNum : Nat
  AdvFreeNumLimit : Nat
  AdvFreeNum : Nat
  TodayTakeNum : Nat
  deriving DecidableEq, Repr

/-- `AdvFreeNumTime` is a field of `Lucky10Data` alone. -/
structure LuckData where
  NextRefreshTime : Int
  AdvNum : Nat
  LastAdvTime : List (Date × Nat)
  Lucky1Data : LuckyData
  Lucky10Data : LuckyData
  AdvFreeNumTime : Int
  deriving DecidableEq, Repr

structure LuckDraw where
  time : Int
  luckType : LockBXType
  consumeType : LockBXCosumeType
  removed : Int
  deriving DecidableEq, Repr

/-- `stored` is the row of `UserLuckBaoxiangRecord`. The last three are what has happened: the draws,
the times of the advertisements watched, and those of the ten-draws granted for them. -/
structure LuckBox where
  Data : Option LuckData
  SFlag : Bool
  stored : Option LuckData
  diamond : Nat
  clock : Int
  draws : List LuckDraw
  adverts : List Int
  grants : List Int
  deriving DecidableEq

/-- `won` is the number of diamonds among the rewards, and `gain` what changes them elsewhere. -/
inductive LuckEvent
  | login (now : Int)
  | AdvertLook (now type : Int)
  | GetTakeLuckBaoxiang (now : Int)
  | TakeLuckBaoxiang (now : Int) (lucktype : Option Int) (won : Nat)
  | TakeLuckBaoxiangTest (now : Int) (type : Option Int)
  | gain (num : Int)
  deriving DecidableEq, Repr

/-- `init` takes the global value or true. -/
def LuckCfg.switched (cfg : LuckCfg) : Bool := cfg.switch_on_off || true

def LuckCfg.price (cfg : LuckCfg) : LockBXType → Nat
  | .type1 => cfg.lucktype1_consume_diamond
  | .type10 => cfg.lucktype10_consume_diamond

def dayZero (zone now : Int) : Int := dayOf zone now * 86400 - zone

namespace LuckData
variable (cfg : LuckCfg)

def GetNextRefreshTime (refresh_time now : Int) : Int :=
  if refresh_time < now then
    let refresh_time := dayZero cfg.zone now
    if refresh_time < now then refresh_time + 86400 else refresh_time
  else refresh_time

/-- The test of `refresh`. -/
def stale (data : Option LuckData) (now : Int) : Bool :=
  data.elim true fun data => data.NextRefreshTime < now

def yesterday (now : Int) (i : Nat) : Date := civil (dayOf cfg.zone now - i)

def ResetDailyData (data : Option LuckData) (now : Int) : LuckData :=
  let curr_date := date cfg.zone now
  let lastAdvTime := data.elim [(curr_date, 0)] LuckData.LastAdvTime
  { NextRefreshTime := GetNextRefreshTime cfg (data.elim 0 LuckData.NextRefreshTime) now
    AdvNum := 0
    LastAdvTime :=
      if (lastAdvTime.lookup (yesterday cfg now 1)).any (· < cfg.luck10adv_to_free_num_step) then
        [(curr_date, (lastAdvTime.lookup curr_date).getD 0)]
      else lastAdvTime
    Lucky1Data := ⟨cfg.luck1_system_free_num_limit, cfg.luck1adv_free_num_limit, 0, 0⟩
    Lucky10Data := ⟨cfg.luck10_system_free_num_limit, cfg.luck10adv_free_num_limit, 0, 0⟩
    AdvFreeNumTime := 0 }

/-- How many days of the list have five advertisements. -/
def getArrayLength (array : List (Date × Nat)) : Nat := array.countP fun day => day.2 ≥ 5

def setDay (array : List (Date × Nat)) (day : Date) (num : Nat) : List (Date × Nat) :=
  (day, num) :: array.filter fun entry => entry.1 ≠ day

/-- `addAdvNum` as far as single draws go. -/
def addAdvNum1 (data : LuckData) : LuckData :=
  let advNum := data.AdvNum + 1
  let lucky1 := data.Lucky1Data
  { data with
    AdvNum := advNum
    Lucky1Data :=
      if advNum % cfg.luck1adv_to_free_num_step = 0 then
        if lucky1.AdvFreeNumLimit > 0 then
          { lucky1 with
            AdvFreeNum := lucky1.AdvFreeNum + 1
            AdvFreeNumLimit := lucky1.AdvFreeNumLimit - 1 }
        else lucky1
      else lucky1 }

/-- The list of days in `addAdvNum`: today is counted, and without a full yesterday only today stays. -/
def countDay (data : LuckData) (now : Int) : List (Date × Nat) :=
  let curr_date := date cfg.zone now
  let counted :=
    if date cfg.zone data.AdvFreeNumTime ≠ curr_date then
      setDay data.LastAdvTime curr_date ((data.LastAdvTime.lookup curr_date).getD 0 + 1)
    else data.LastAdvTime
  if (counted.lookup (yesterday cfg now 1)).getD 0 < cfg.luck10adv_to_free_num_step then
    [(curr_date, (counted.lookup curr_date).getD 0)]
  else counted

/-- `con_flag`, together with the test of today. -/
def con_flag (lastAdvTime : List (Date × Nat)) (now : Int) : Bool :=
  let length := getArrayLength lastAdvTime
  (lastAdvTime.lookup (date cfg.zone now)).getD 0 ≥ cfg.luck10adv_to_free_num_step ∧
    length ≥ cfg.luck10adv_con_day_num ∧
    ∀ i < length,
      (lastAdvTime.lookup (yesterday cfg now i)).getD 0 ≥ cfg.luck10adv_to_free_num_step

/-- `addAdvNum`, and whether it grants a ten-draw. -/
def addAdvNum (data : LuckData) (now : Int) : LuckData × Bool :=
  let lastAdvTime := data.countDay cfg now
  let data := data.addAdvNum1 cfg
  let lucky10 := data.Lucky10Data
  if con_flag cfg lastAdvTime now ∧ lucky10.AdvFreeNumLimit > 0 then
    ({ data with
      LastAdvTime := []
      Lucky10Data := { lucky10 with
        AdvFreeNum := lucky10.AdvFreeNum + 1
        AdvFreeNumLimit := lucky10.AdvFreeNumLimit - 1 }
      AdvFreeNumTime := now }, true)
  else ({ data with LastAdvTime := lastAdvTime }, false)

end LuckData

namespace LuckyData

/-- The branch of `cosume` for a type of draw, and what it leaves of the diamonds. -/
def cosume (lucky : LuckyData) (diamond price : Nat) :
    Option (LuckyData × LockBXCosumeType × Nat) :=
  let taken := { lucky with TodayTakeNum := lucky.TodayTakeNum + 1 }
  if lucky.SystemFreeNum > 0 then
    some ({ taken with SystemFreeNum := lucky.SystemFreeNum - 1 }, .systemFree, diamond)
  else if lucky.AdvFreeNum > 0 then
    some ({ taken with AdvFreeNum := lucky.AdvFreeNum - 1 }, .adv, diamond)
  else if diamond ≥ price then some (taken, .diamond, diamond - price)
  else none

end LuckyData

namespace LuckData
variable (cfg : LuckCfg)

def lucky (data : LuckData) : LockBXType → LuckyData
  | .type1 => data.Lucky1Data
  | .type10 => data.Lucky10Data

def setLucky (data : LuckData) (lucky : LuckyData) : LockBXType → LuckData
  | .type1 => { data with Lucky1Data := lucky }
  | .type10 => { data with Lucky10Data := lucky }

def luckType : Option Int → Option LockBXType
  | some 1 => some .type1
  | some 2 => some .type10
  | _ => none

def cosume (data : LuckData) (diamond : Nat) (lucktype : Option Int) :
    Except RetVal (LuckData × LockBXType × LockBXCosumeType × Nat) :=
  if data.Lucky1Data.TodayTakeNum + data.Lucky10Data.TodayTakeNum * 10 ≥ cfg.daily_take_num_limit then
    .error .error_3
  else
    match luckType lucktype with
    | none => .error .lack_6
    | some type =>
        match (data.lucky type).cosume diamond (cfg.price type) with
        | none => .error .lack_6
        | some (lucky, consumeType, diamond) =>
            .ok (data.setLucky lucky type, type, consumeType, diamond)

end LuckData

namespace LuckBox
variable (cfg : LuckCfg)

def refresh (s : LuckBox) (now : Int) : LuckBox :=
  if LuckData.stale s.Data now then
    { s with Data := some (.ResetDailyData cfg s.Data now), SFlag := true }
  else s

def save (s : LuckBox) : LuckBox :=
  if s.SFlag then { s with SFlag := false, stored := s.Data } else s

def addAdvNum (s : LuckBox) (now : Int) : LuckBox :=
  match s.Data with
  | none => s
  | some data =>
      let added := data.addAdvNum cfg now
      { s with
        Data := some added.1
        SFlag := true
        grants := if added.2 then s.grants ++ [now] else s.grants }

/-- `load`, and `refresh`, for an agent that has just been made. -/
def init (s : LuckBox) (now : Int) : LuckBox :=
  let s := { s with Data := none, SFlag := false }
  let s :=
    match s.stored with
    | none => (s.refresh cfg now).save
    | some data => { s with Data := some data }
  s.refresh cfg now

def TakeLuckBaoxiang (s : LuckBox) (now : Int) (lucktype : Option Int) (won : Nat) : LuckBox :=
  if cfg.switched = false then s
  else
    let s := (s.refresh cfg now).save
    match s.Data with
    | none => s
    | some data =>
        match data.cosume cfg s.diamond lucktype with
        | .error _ => s
        | .ok (data, type, consumeType, diamond) =>
            let s := { s with Data := some data, SFlag := true }.save
            { s with
              diamond := diamond + won
              draws := s.draws ++ [⟨now, type, consumeType, s.diamond - diamond⟩] }

/-- The other types of the test touch other modules only. -/
def TakeLuckBaoxiangTest (s : LuckBox) (now : Int) : Option Int → LuckBox
  | some 0 => ((s.refresh cfg now).addAdvNum cfg now).save
  | some 1 =>
      let s := s.refresh cfg now
      { s with Data := some (.ResetDailyData cfg s.Data now), SFlag := true }.save
  | some 2 =>
      let s := (s.refresh cfg now).save
      { s with Data := s.Data.map fun data =>
          { data with NextRefreshTime := LuckData.GetNextRefreshTime cfg data.NextRefreshTime now } }
  | _ => s

/-- The types of advertisement the boxes listen to: `Luck1` and `Luck10`. -/
def luckAdv (type : Int) : Bool := type = 7 ∨ type = 8

def AdvertLook (s : LuckBox) (now type : Int) : LuckBox :=
  if luckAdv type then
    { ((s.refresh cfg now).addAdvNum cfg now).save with adverts := s.adverts ++ [now] }
  else s

def request (s : LuckBox) : LuckEvent → LuckBox
  | .login now => s.init cfg now
  | .AdvertLook now type => s.AdvertLook cfg now type
  | .GetTakeLuckBaoxiang now => if cfg.switched = false then s else (s.refresh cfg now).save
  | .TakeLuckBaoxiang now lucktype won => s.TakeLuckBaoxiang cfg now lucktype won
  | .TakeLuckBaoxiangTest now type => s.TakeLuckBaoxiangTest cfg now type
  | .gain num => { s with diamond := (s.diamond + num).toNat }

end LuckBox

def LuckEvent.now (clock : Int) : LuckEvent → Int
  | .login now => now
  | .AdvertLook now _ => now
  | .GetTakeLuckBaoxiang now => now
  | .TakeLuckBaoxiang now _ _ => now
  | .TakeLuckBaoxiangTest now _ => now
  | .gain _ => clock

def LuckEvent.isLogin : LuckEvent → Bool
  | .login _ => true
  | _ => false

namespace LuckBox
variable (cfg : LuckCfg)

/-- Time does not go back, and an agent answers once it has its data. -/
def step (s : LuckBox) (e : LuckEvent) : Option LuckBox :=
  if s.clock ≤ e.now s.clock ∧ (e.isLogin ∨ s.Data.isSome) then
    some { s.request cfg e with clock := e.now s.clock }
  else none

/-- A new user. Times are seconds of the epoch. -/
def start (diamond : Nat) : LuckBox := ⟨none, false, none, diamond, 1, [], [], []⟩

end LuckBox

/-- A draw of a type that was made without paying on a day. -/
def LuckDraw.freeOn (zone : Int) (type : LockBXType) (day : Int) (g : LuckDraw) : Bool :=
  g.luckType = type ∧ g.consumeType ≠ .diamond ∧ dayOf zone g.time = day

def onDay (zone : Int) (day : Int) (t : Int) : Bool := dayOf zone t = day

/-- Free draws of a day are within the system limit and what advertisements have brought that day,
a ten-draw is granted after that many full days, and any other draw was paid. -/
structure LuckInStep (cfg : LuckCfg) (s : LuckBox) : Prop where
  single : ∀ day, s.draws.countP (LuckDraw.freeOn cfg.zone .type1 day) ≤
    cfg.luck1_system_free_num_limit +
      s.adverts.countP (onDay cfg.zone day) / cfg.luck1adv_to_free_num_step
  ten : ∀ day, s.draws.countP (LuckDraw.freeOn cfg.zone .type10 day) ≤
    cfg.luck10_system_free_num_limit + s.grants.countP (onDay cfg.zone day)
  granted : ∀ t ∈ s.grants, ∀ i < cfg.luck10adv_con_day_num, cfg.luck10adv_to_free_num_step ≤
    s.adverts.countP (onDay cfg.zone (dayOf cfg.zone t - (i : Nat)))
  paid : ∀ g ∈ s.draws, g.removed = if g.consumeType = .diamond then (cfg.price g.luckType : Int) else 0

def midnight (zone now : Int) : Prop := dayZero zone now = now

/-- Nothing is tested, and at the very midnight no advertisement is watched, nothing is drawn and no
counter renewed. -/
def LuckBox.Regular (cfg : LuckCfg) (s : LuckBox) : LuckEvent → Prop
  | .login now => LuckData.stale s.stored now → ¬midnight cfg.zone now
  | .AdvertLook now type => LuckBox.luckAdv type → ¬midnight cfg.zone now
  | .GetTakeLuckBaoxiang now => LuckData.stale s.Data now → ¬midnight cfg.zone now
  | .TakeLuckBaoxiang now _ _ => ¬midnight cfg.zone now
  | .TakeLuckBaoxiangTest now type =>
      type ≠ some 0 ∧ type ≠ some 1 ∧ (type = some 2 → LuckData.stale s.Data now →
        ¬midnight cfg.zone now)
  | .gain _ => True

namespace LuckBox

/-- The data is that of a day, and the day's counters cover what is left of its free draws. -/
structure OfDay (cfg : LuckCfg) (s : LuckBox) (day : Int) (data : LuckData) : Prop where
  until_ : data.NextRefreshTime = (day + 1) * 86400 - cfg.zone
  advNum : data.AdvNum = s.adverts.countP (onDay cfg.zone day)
  single : s.draws.countP (LuckDraw.freeOn cfg.zone .type1 day) + data.Lucky1Data.SystemFreeNum +
    data.Lucky1Data.AdvFreeNum ≤ cfg.luck1_system_free_num_limit +
      s.adverts.countP (onDay cfg.zone day) / cfg.luck1adv_to_free_num_step
  ten : s.draws.countP (LuckDraw.freeOn cfg.zone .type10 day) + data.Lucky10Data.SystemFreeNum +
    data.Lucky10Data.AdvFreeNum ≤
      cfg.luck10_system_free_num_limit + s.grants.countP (onDay cfg.zone day)
  last : ∀ k n, data.LastAdvTime.lookup (civil k) = some n → n ≤ s.adverts.countP (onDay cfg.zone k)
  draws : ∀ g ∈ s.draws, dayOf cfg.zone g.time ≤ day
  adverts : ∀ t ∈ s.adverts, dayOf cfg.zone t ≤ day
  grants : ∀ t ∈ s.grants, dayOf cfg.zone t ≤ day

/-- Data in memory or in the database: of some day up to now, or none where nothing has happened. -/
def Current (cfg : LuckCfg) (s : LuckBox) : Option LuckData → Prop
  | none => s.draws = [] ∧ s.adverts = [] ∧ s.grants = []
  | some data => ∃ day, day ≤ dayOf cfg.zone s.clock ∧ s.OfDay cfg day data

structure LuckInv (cfg : LuckCfg) (s : LuckBox) : Prop extends LuckInStep cfg s where
  epoch : 0 < s.clock
  data : s.Data.isSome → s.Current cfg s.Data
  stored : s.Current cfg s.stored

section Refresh
variable {cfg : LuckCfg} {s : LuckBox} {data : Option LuckData} {now day : Int}

theorem dayZero_spec {zone : Int} : dayZero zone now ≤ now ∧ now < dayZero zone now + 86400 := by
  rw [dayZero, dayOf]
  omega

theorem dayOf_of_lt {zone : Int} (passed : (day + 1) * 86400 - zone < now) : day < dayOf zone now := by
  rw [dayOf]
  omega

theorem reset_until (epoch : 0 < now) (stale : LuckData.stale data now = true)
    (awake : ¬midnight cfg.zone now) : (LuckData.ResetDailyData cfg data now).NextRefreshTime =
      (dayOf cfg.zone now + 1) * 86400 - cfg.zone := by
  have zero := @dayZero_spec now cfg.zone
  have later : dayZero cfg.zone now < now := lt_of_le_of_ne zero.1 awake
  have past : data.elim 0 LuckData.NextRefreshTime < now := by
    cases data with
    | none => exact epoch
    | some data => exact of_decide_eq_true stale
  simp only [LuckData.ResetDailyData, LuckData.GetNextRefreshTime]
  rw [if_pos past, if_pos later, dayZero]
  omega

theorem countP_later {α : Type*} {p : α → Bool} {f : α → Int} {xs : List α} {day' : Int}
    (past : ∀ x ∈ xs, f x ≤ day) (later : day < day') (on : ∀ x, p x = true → f x = day') :
    xs.countP p = 0 := by
  rw [List.countP_eq_zero]
  intro x mem holds
  have le := past x mem
  have same := on x holds
  omega

theorem freeOn_day {zone : Int} {type : LockBXType} (g : LuckDraw)
    (free : g.freeOn zone type day = true) : dayOf zone g.time = day :=
  (of_decide_eq_true free).2.2

theorem lookup_single {x y : Date} {m n : Nat} (found : [(y, m)].lookup x = some n) :
    x = y ∧ m = n := by
  rw [List.lookup_cons] at found
  split at found
  · rename_i same
    exact ⟨eq_of_beq same, Option.some.inj found⟩
  · cases found

/-- Where only one day is kept of a list, the other days are lost. -/
theorem lookup_kept {c : Prop} [Decidable c] {x y : Date} {n : Nat} {array : List (Date × Nat)}
    (found : (if c then [(y, (array.lookup y).getD 0)] else array).lookup x = some n) :
    n = 0 ∨ array.lookup x = some n := by
  by_cases cut : c
  · rw [if_pos cut] at found
    obtain ⟨rfl, rfl⟩ := lookup_single found
    cases array.lookup x with
    | none => exact .inl rfl
    | some n => exact .inr rfl
  · rw [if_neg cut] at found
    exact .inr found

/-- What a reset leaves of the list of days was there, but for a zero. -/
theorem reset_last {x : Date} {n : Nat}
    (found : (LuckData.ResetDailyData cfg data now).LastAdvTime.lookup x = some n) :
    n = 0 ∨ data.elim none (fun data => data.LastAdvTime.lookup x) = some n := by
  obtain zero | kept := lookup_kept found
  · exact .inl zero
  · cases data with
    | none => exact .inl (lookup_single kept).2.symm
    | some data => exact .inr kept

/-- A reset that is due makes the data one of today. -/
theorem ofDay_reset (epoch : 0 < now) (current : s.Current cfg data)
    (stale : LuckData.stale data now = true) (awake : ¬midnight cfg.zone now) :
    s.OfDay cfg (dayOf cfg.zone now) (LuckData.ResetDailyData cfg data now) := by
  cases data with
  | none =>
      obtain ⟨draws, adverts, grants⟩ := current
      refine ⟨reset_until epoch stale awake, ?_, ?_, ?_, fun k n found => ?_, ?_, ?_, ?_⟩
      · rw [adverts]
        rfl
      · rw [draws, adverts, List.countP_nil, List.countP_nil, Nat.zero_div]
        exact (Nat.zero_add _).le
      · rw [draws, grants, List.countP_nil, List.countP_nil]
        exact (Nat.zero_add _).le
      · obtain rfl | none_ := reset_last found
        · exact Nat.zero_le _
        · cases none_
      · rw [draws]
        exact fun _ mem => (nomatch mem)
      · rw [adverts]
        exact fun _ mem => (nomatch mem)
      · rw [grants]
        exact fun _ mem => (nomatch mem)
  | some data =>
      obtain ⟨day, _, of⟩ := current
      have later : day < dayOf cfg.zone now :=
        dayOf_of_lt (of.until_.symm.trans_lt (of_decide_eq_true stale))
      have none1 := countP_later of.draws later (@freeOn_day _ cfg.zone .type1)
      have none10 := countP_later of.draws later (@freeOn_day _ cfg.zone .type10)
      have unwatched := countP_later (f := dayOf cfg.zone) of.adverts later fun _ on =>
        of_decide_eq_true on
      refine ⟨reset_until epoch stale awake, unwatched.symm, ?_, ?_, fun k n found => ?_,
        fun g mem => (of.draws g mem).trans later.le, fun t mem => (of.adverts t mem).trans later.le,
        fun t mem => (of.grants t mem).trans later.le⟩
      · rw [none1, Nat.zero_add]
        exact Nat.le_add_right _ _
      · rw [none10, Nat.zero_add]
        exact Nat.le_add_right _ _
      · obtain rfl | kept := reset_last found
        · exact Nat.zero_le _
        · exact of.last k n kept

/-- Data that is not due is of today, away from midnight. -/
theorem ofDay_kept {data : LuckData} (of : s.OfDay cfg day data) (past : day ≤ dayOf cfg.zone now)
    (fresh : ¬LuckData.stale (some data) now = true) (awake : ¬midnight cfg.zone now) :
    day = dayOf cfg.zone now := by
  have next : now ≤ data.NextRefreshTime := not_lt.mp fun due => fresh (decide_eq_true due)
  rw [of.until_] at next
  rw [midnight, dayZero] at awake
  rw [dayOf] at past awake ⊢
  omega

end Refresh

section Adverts
variable {cfg : LuckCfg} {s : LuckBox} {data : LuckData} {now : Int} {zone : Int}

theorem lookup_filter_ne {array : List (Date × Nat)} {x y : Date} (other : x ≠ y) :
    (array.filter fun entry => entry.1 ≠ y).lookup x = array.lookup x := by
  induction array with
  | nil => rfl
  | cons entry array ih =>
      by_cases removed : entry.1 = y
      · rw [List.filter_cons_of_neg (by simpa using removed), ih, List.lookup_cons,
          beq_false_of_ne (removed ▸ other)]
      · rw [List.filter_cons_of_pos (by simpa using removed), List.lookup_cons, List.lookup_cons, ih]

theorem lookup_setDay {array : List (Date × Nat)} {x y : Date} {n : Nat} :
    (LuckData.setDay array y n).lookup x = if x = y then some n else array.lookup x := by
  rw [LuckData.setDay, List.lookup_cons]
  by_cases same : x = y
  · rw [if_pos same, same, beq_self_eq_true]
  · rw [if_neg same, beq_false_of_ne same]
    exact lookup_filter_ne same

theorem count_snoc {ts : List Int} {day : Int} : (ts ++ [now]).countP (onDay zone day) =
    ts.countP (onDay zone day) + if dayOf zone now = day then 1 else 0 := by
  rw [List.countP_append, List.countP_singleton, onDay]
  simp only [decide_eq_true_eq]

theorem count_today {ts : List Int} : (ts ++ [now]).countP (onDay zone (dayOf zone now)) =
    ts.countP (onDay zone (dayOf zone now)) + 1 := by
  rw [count_snoc, if_pos rfl]

/-- With a time of now no time is of a later day than today. -/
theorem dayOf_snoc {ts : List Int} (past : ∀ t ∈ ts, dayOf zone t ≤ dayOf zone now) :
    ∀ t ∈ ts ++ [now], dayOf zone t ≤ dayOf zone now := by
  intro t mem
  obtain mem | mem := List.mem_append.mp mem
  · exact past t mem
  · rw [List.mem_singleton.mp mem]

theorem count_grows {ts : List Int} {day : Int} :
    ts.countP (onDay zone day) ≤ (ts ++ [now]).countP (onDay zone day) := by
  rw [count_snoc]
  exact Nat.le_add_right _ _

/-- The list of days never runs ahead of the advertisements. -/
theorem countDay_last {k : Int} {n : Nat} (last : ∀ k n, data.LastAdvTime.lookup (civil k) = some n →
      n ≤ s.adverts.countP (onDay cfg.zone k))
    (found : (data.countDay cfg now).lookup (civil k) = some n) :
    n ≤ (s.adverts ++ [now]).countP (onDay cfg.zone k) := by
  rw [LuckData.countDay] at found
  obtain rfl | kept := lookup_kept found
  · exact Nat.zero_le _
  · split at kept
    · rw [lookup_setDay] at kept
      split at kept
      · rename_i today
        obtain rfl : k = dayOf cfg.zone now := civil_injective today
        obtain rfl := Option.some.inj kept
        rw [count_today, date]
        cases before : data.LastAdvTime.lookup (civil (dayOf cfg.zone now)) with
        | none => exact Nat.le_add_left _ _
        | some m => exact Nat.succ_le_succ (last _ m before)
      · exact (last k n kept).trans count_grows
    · exact (last k n kept).trans count_grows

/-- A ten-draw is granted for full days in a row. -/
theorem con_flag_days {array : List (Date × Nat)} {ts : List Int}
    (last : ∀ k n, array.lookup (civil k) = some n → n ≤ ts.countP (onDay cfg.zone k))
    (full : LuckData.con_flag cfg array now = true) {i : Nat} (within : i < cfg.luck10adv_con_day_num) :
    cfg.luck10adv_to_free_num_step ≤ ts.countP (onDay cfg.zone (dayOf cfg.zone now - i)) := by
  obtain ⟨_, length, days⟩ := of_decide_eq_true full
  have day := days i (within.trans_le length)
  rw [LuckData.yesterday] at day
  cases found : array.lookup (civil (dayOf cfg.zone now - i)) with
  | none =>
      rw [found] at day
      exact (show cfg.luck10adv_to_free_num_step ≤ 0 from day).trans (Nat.zero_le _)
  | some n =>
      rw [found] at day
      exact (show cfg.luck10adv_to_free_num_step ≤ n from day).trans (last _ n found)

/-- Every group of advertisements brings a single draw at most. -/
theorem addAdvNum1_single {left : Nat} {ads : Nat} (counted : data.AdvNum = ads)
    (within : left + data.Lucky1Data.SystemFreeNum + data.Lucky1Data.AdvFreeNum ≤
      cfg.luck1_system_free_num_limit + ads / cfg.luck1adv_to_free_num_step) :
    left + (data.addAdvNum1 cfg).Lucky1Data.SystemFreeNum + (data.addAdvNum1 cfg).Lucky1Data.AdvFreeNum ≤
      cfg.luck1_system_free_num_limit + (ads + 1) / cfg.luck1adv_to_free_num_step := by
  have more : ads / cfg.luck1adv_to_free_num_step ≤ (ads + 1) / cfg.luck1adv_to_free_num_step :=
    Nat.div_le_div_right (Nat.le_succ _)
  simp only [LuckData.addAdvNum1]
  split
  · rename_i group
    rw [counted] at group
    have next : (ads + 1) / cfg.luck1adv_to_free_num_step = ads / cfg.luck1adv_to_free_num_step + 1 := by
      rw [Nat.succ_div, if_pos (Nat.dvd_of_mod_eq_zero group)]
    split
    · simp only
      omega
    · omega
  · omega

/-- An advertisement of today is counted. -/
theorem ofDay_advert (of : s.OfDay cfg (dayOf cfg.zone now) data) :
    OfDay cfg { s with
      adverts := s.adverts ++ [now]
      grants := if (data.addAdvNum cfg now).2 then s.grants ++ [now] else s.grants }
      (dayOf cfg.zone now) (data.addAdvNum cfg now).1 := by
  have adverts := dayOf_snoc of.adverts
  have single := @addAdvNum1_single cfg data _ _ of.advNum of.single
  rw [LuckData.addAdvNum]
  split
  · refine ⟨of.until_, ?_, ?_, ?_, fun k n found => (nomatch found), of.draws, adverts, ?_⟩
    · simp only [count_today]
      exact congrArg (· + 1) of.advNum
    · simp only [count_today]
      exact single
    · have ten := of.ten
      simp only [if_true, count_today, LuckData.addAdvNum1] at ten ⊢
      omega
    · exact dayOf_snoc of.grants
  · refine ⟨of.until_, ?_, ?_, of.ten, fun k n found => countDay_last of.last found, of.draws, adverts,
      of.grants⟩
    · simp only [count_today]
      exact congrArg (· + 1) of.advNum
    · simp only [count_today]
      exact single

end Adverts

section Draws
variable {cfg : LuckCfg} {s : LuckBox} {data data' : LuckData} {now : Int} {type : LockBXType}
  {consumeType : LockBXCosumeType} {diamond diamond' : Nat} {lucktype : Option Int}

/-- A draw uses up a free one, or it is paid. -/
theorem cosume_lucky {lucky lucky' : LuckyData} {price : Nat}
    (taken : lucky.cosume diamond price = some (lucky', consumeType, diamond')) :
    (consumeType ≠ .diamond ∧ diamond' = diamond ∧
      lucky'.SystemFreeNum + lucky'.AdvFreeNum + 1 = lucky.SystemFreeNum + lucky.AdvFreeNum) ∨
    (consumeType = .diamond ∧ diamond' + price = diamond ∧
      lucky'.SystemFreeNum + lucky'.AdvFreeNum = lucky.SystemFreeNum + lucky.AdvFreeNum) := by
  rw [LuckyData.cosume] at taken
  split at taken
  · cases taken
    refine .inl ⟨nofun, rfl, ?_⟩
    simp only
    omega
  · split at taken
    · cases taken
      refine .inl ⟨nofun, rfl, ?_⟩
      simp only
      omega
    · split at taken
      · rename_i enough
        cases taken
        exact .inr ⟨rfl, Nat.sub_add_cancel enough, rfl⟩
      · cases taken

theorem cosume_within {lucky lucky' : LuckyData} {price drawn most : Nat}
    (taken : lucky.cosume diamond price = some (lucky', consumeType, diamond'))
    (within : drawn + lucky.SystemFreeNum + lucky.AdvFreeNum ≤ most) :
    drawn + (if consumeType ≠ .diamond then 1 else 0) + lucky'.SystemFreeNum + lucky'.AdvFreeNum ≤
      most := by
  obtain ⟨free, _, left⟩ | ⟨paid, _, left⟩ := cosume_lucky taken
  · rw [if_pos free]
    omega
  · rw [if_neg (not_not.mpr paid)]
    omega

theorem cosume_ok
    (taken : data.cosume cfg diamond lucktype = .ok (data', type, consumeType, diamond')) :
    ∃ lucky, (data.lucky type).cosume diamond (cfg.price type) = some (lucky, consumeType, diamond') ∧
      data' = data.setLucky lucky type := by
  rw [LuckData.cosume] at taken
  split at taken
  · cases taken
  · split at taken
    · cases taken
    · split at taken
      · cases taken
      · rename_i found
        cases taken
        exact ⟨_, found, rfl⟩

theorem count_draw {draws : List LuckDraw} {g : LuckDraw} {zone day : Int} {of : LockBXType} :
    (draws ++ [g]).countP (LuckDraw.freeOn zone of day) =
      draws.countP (LuckDraw.freeOn zone of day) +
        if g.luckType = of ∧ g.consumeType ≠ .diamond ∧ dayOf zone g.time = day then 1 else 0 := by
  rw [List.countP_append, List.countP_singleton, LuckDraw.freeOn]
  simp only [decide_eq_true_eq]

/-- A draw of today is counted. -/
theorem ofDay_draw {removed : Int} (of : s.OfDay cfg (dayOf cfg.zone now) data)
    (taken : data.cosume cfg diamond lucktype = .ok (data', type, consumeType, diamond')) :
    OfDay cfg { s with draws := s.draws ++ [⟨now, type, consumeType, removed⟩] }
      (dayOf cfg.zone now) data' := by
  obtain ⟨lucky, branch, rfl⟩ := cosume_ok taken
  have draws : ∀ g ∈ s.draws ++ [⟨now, type, consumeType, removed⟩],
      dayOf cfg.zone g.time ≤ dayOf cfg.zone now := by
    intro g mem
    obtain mem | mem := List.mem_append.mp mem
    · exact of.draws g mem
    · rw [List.mem_singleton.mp mem]
  cases type with
  | type1 =>
      refine ⟨of.until_, of.advNum, ?_, ?_, of.last, draws, of.adverts, of.grants⟩
      · simp only [count_draw, LuckData.setLucky, true_and, and_true]
        exact cosume_within branch of.single
      · simp only [count_draw, LuckData.setLucky, reduceCtorEq, false_and, if_false]
        exact of.ten
  | type10 =>
      refine ⟨of.until_, of.advNum, ?_, ?_, of.last, draws, of.adverts, of.grants⟩
      · simp only [count_draw, LuckData.setLucky, reduceCtorEq, false_and, if_false]
        exact of.single
      · simp only [count_draw, LuckData.setLucky, true_and, and_true]
        exact cosume_within branch of.ten

end Draws

section Requests
variable {cfg : LuckCfg} {s s' : LuckBox} {data : Option LuckData} {now : Int} {e : LuckEvent}

/-- Data is judged by what has happened alone. -/
theorem OfDay.frame {day : Int} {data : LuckData} (of : s.OfDay cfg day data)
    (draws : s'.draws = s.draws) (adverts : s'.adverts = s.adverts) (grants : s'.grants = s.grants) :
    s'.OfDay cfg day data := by
  refine ⟨of.until_, ?_, ?_, ?_, ?_, ?_, ?_, ?_⟩
  · exact adverts ▸ of.advNum
  · exact draws ▸ adverts ▸ of.single
  · exact draws ▸ grants ▸ of.ten
  · exact adverts ▸ of.last
  · exact draws ▸ of.draws
  · exact adverts ▸ of.adverts
  · exact grants ▸ of.grants

theorem Current.frame (current : s.Current cfg data) (later : s.clock ≤ s'.clock)
    (draws : s'.draws = s.draws) (adverts : s'.adverts = s.adverts) (grants : s'.grants = s.grants) :
    s'.Current cfg data := by
  cases data with
  | none => exact ⟨draws.trans current.1, adverts.trans current.2.1, grants.trans current.2.2⟩
  | some data =>
      obtain ⟨day, past, of⟩ := current
      exact ⟨day, past.trans (dayOf_mono later), of.frame draws adverts grants⟩

theorem save_eq : s.save =
    { s with SFlag := false, stored := if s.SFlag then s.Data else s.stored } := by
  rw [save]
  cases s with
  | mk data flag stored diamond clock draws adverts grants =>
      cases flag with
      | true => rfl
      | false => rfl

/-- Away from midnight a refresh leaves data of today. -/
theorem refresh_today (epoch : 0 < s.clock) (current : s.Current cfg s.Data) (le : s.clock ≤ now)
    (awake : ¬midnight cfg.zone now) :
    ∃ data flag, s.refresh cfg now = { s with Data := some data, SFlag := flag } ∧
      s.OfDay cfg (dayOf cfg.zone now) data := by
  rw [refresh]
  split
  · rename_i stale
    exact ⟨_, true, rfl, ofDay_reset (epoch.trans_le le) current stale awake⟩
  · rename_i fresh
    cases here : s.Data with
    | none => exact absurd (by rw [here]; rfl) fresh
    | some data =>
        rw [here] at current fresh
        obtain ⟨day, past, of⟩ := current
        have today := ofDay_kept of (past.trans (dayOf_mono le)) fresh awake
        exact ⟨data, s.SFlag, by rw [← here], today ▸ of⟩

theorem refresh_due (due : LuckData.stale s.Data now = true) : s.refresh cfg now =
    { s with Data := some (LuckData.ResetDailyData cfg s.Data now), SFlag := true } := by
  rw [refresh, if_pos due]

/-- A refresh alone leaves data that is current. -/
theorem refresh_current (epoch : 0 < s.clock) (current : s.Current cfg s.Data) (le : s.clock ≤ now)
    (awake : LuckData.stale s.Data now = true → ¬midnight cfg.zone now) :
    ∃ data flag, s.refresh cfg now = { s with Data := data, SFlag := flag } ∧
      Current cfg { s with clock := now } data := by
  by_cases stale : LuckData.stale s.Data now = true
  · obtain ⟨data, flag, done, of⟩ := refresh_today epoch current le (awake stale)
    exact ⟨some data, flag, done, _, le_refl _, of.frame rfl rfl rfl⟩
  · rw [refresh, if_neg stale]
    exact ⟨s.Data, s.SFlag, rfl, current.frame le rfl rfl rfl⟩

/-- The data changes, and nothing is drawn or watched. -/
theorem inv_data {stored : Option LuckData} {flag : Bool} {diamond : Nat} (inv : LuckInv cfg s)
    (le : s.clock ≤ now) (current : data.isSome = true → Current cfg { s with clock := now } data)
    (kept : Current cfg { s with clock := now } stored) :
    LuckInv cfg { s with
      Data := data, SFlag := flag, stored := stored, diamond := diamond, clock := now } := by
  exact ⟨⟨inv.single, inv.ten, inv.granted, inv.paid⟩, inv.epoch.trans_le le,
    fun some_ => (current some_).frame le_rfl rfl rfl rfl, kept.frame le_rfl rfl rfl rfl⟩

theorem inv_saved (inv : LuckInv cfg s) (some_ : s.Data.isSome = true) (le : s.clock ≤ now)
    (awake : LuckData.stale s.Data now = true → ¬midnight cfg.zone now) :
    LuckInv cfg { (s.refresh cfg now).save with clock := now } := by
  obtain ⟨data, flag, done, current⟩ := refresh_current inv.epoch (inv.data some_) le awake
  have kept : Current cfg { s with clock := now } (if flag = true then data else s.stored) := by
    cases flag with
    | true => exact current
    | false => exact inv.stored.frame le rfl rfl rfl
  rw [done, save_eq]
  exact @inv_data cfg s data now _ false s.diamond inv le (fun _ => current) kept

variable {today : LuckData}

theorem inv_advert (inv : LuckInv cfg s) (le : s.clock ≤ now)
    (of : s.OfDay cfg (dayOf cfg.zone now) today) :
    LuckInv cfg { s with
      Data := some (today.addAdvNum cfg now).1
      SFlag := false
      stored := some (today.addAdvNum cfg now).1
      clock := now
      adverts := s.adverts ++ [now]
      grants := if (today.addAdvNum cfg now).2 then s.grants ++ [now] else s.grants } := by
  have after := ofDay_advert of
  refine ⟨⟨fun day => ?_, fun day => ?_, fun t mem i within => ?_, inv.paid⟩, inv.epoch.trans_le le,
    fun _ => ⟨_, le_refl _, after.frame rfl rfl rfl⟩, ⟨_, le_refl _, after.frame rfl rfl rfl⟩⟩
  · exact (inv.single day).trans (Nat.add_le_add_left (Nat.div_le_div_right count_grows) _)
  · refine (inv.ten day).trans (Nat.add_le_add_left ?_ _)
    simp only
    split
    · exact count_grows
    · exact le_refl _
  · have old (mem : t ∈ s.grants) := (inv.granted t mem i within).trans (@count_grows now cfg.zone _ _)
    rw [LuckData.addAdvNum] at mem
    split at mem
    · rename_i full
      obtain mem | mem := List.mem_append.mp mem
      · exact old mem
      · rw [List.mem_singleton.mp mem]
        exact con_flag_days (fun k n found => countDay_last of.last found) full.1 within
    · exact old mem

theorem inv_draw {drawn : LuckData} {type : LockBXType} {consumeType : LockBXCosumeType}
    {diamond diamond' : Nat} {lucktype : Option Int} (inv : LuckInv cfg s) (le : s.clock ≤ now)
    (of : s.OfDay cfg (dayOf cfg.zone now) today)
    (taken : today.cosume cfg s.diamond lucktype = .ok (drawn, type, consumeType, diamond')) :
    LuckInv cfg { s with
      Data := some drawn
      SFlag := false
      stored := some drawn
      diamond := diamond
      clock := now
      draws := s.draws ++ [⟨now, type, consumeType, s.diamond - diamond'⟩] } := by
  have after := @ofDay_draw cfg s today drawn now type consumeType s.diamond diamond' lucktype
    (s.diamond - diamond') of taken
  refine ⟨⟨fun day => ?_, fun day => ?_, inv.granted, fun g mem => ?_⟩, inv.epoch.trans_le le,
    fun _ => ⟨_, le_refl _, after.frame rfl rfl rfl⟩, ⟨_, le_refl _, after.frame rfl rfl rfl⟩⟩
  · by_cases here : dayOf cfg.zone now = day
    · subst here
      have within := after.single
      simp only at within ⊢
      omega
    · rw [count_draw, if_neg fun all => here all.2.2]
      exact inv.single day
  · by_cases here : dayOf cfg.zone now = day
    · subst here
      have within := after.ten
      simp only at within ⊢
      omega
    · rw [count_draw, if_neg fun all => here all.2.2]
      exact inv.ten day
  · obtain mem | mem := List.mem_append.mp mem
    · exact inv.paid g mem
    · obtain rfl := List.mem_singleton.mp mem
      obtain ⟨lucky, branch, _⟩ := cosume_ok taken
      obtain ⟨free, same, _⟩ | ⟨paid, less, _⟩ := cosume_lucky branch
      · simp only
        rw [if_neg free, same, Int.sub_self]
      · simp only
        rw [if_pos paid]
        omega

theorem inv_AdvertLook {type : Int} (inv : LuckInv cfg s) (some_ : s.Data.isSome = true)
    (le : s.clock ≤ now) (regular : s.Regular cfg (.AdvertLook now type)) :
    LuckInv cfg { s.AdvertLook cfg now type with clock := now } := by
  rw [AdvertLook]
  split
  · rename_i luck
    obtain ⟨data, flag, done, of⟩ := refresh_today inv.epoch (inv.data some_) le (regular luck)
    rw [done, save_eq]
    exact inv_advert inv le of
  · exact inv_data inv le (fun _ => (inv.data some_).frame le rfl rfl rfl)
      (inv.stored.frame le rfl rfl rfl)

theorem inv_TakeLuckBaoxiang {lucktype : Option Int} {won : Nat} (inv : LuckInv cfg s)
    (some_ : s.Data.isSome = true) (le : s.clock ≤ now)
    (regular : s.Regular cfg (.TakeLuckBaoxiang now lucktype won)) :
    LuckInv cfg { s.TakeLuckBaoxiang cfg now lucktype won with clock := now } := by
  have saved := inv_saved inv some_ le fun _ => regular
  obtain ⟨data, flag, done, of⟩ := refresh_today inv.epoch (inv.data some_) le regular
  rw [TakeLuckBaoxiang]
  split
  · exact inv_data inv le (fun _ => (inv.data some_).frame le rfl rfl rfl)
      (inv.stored.frame le rfl rfl rfl)
  · rw [done, save_eq] at saved ⊢
    simp only
    split
    · exact saved
    · rename_i data' type consumeType diamond taken
      rw [save_eq]
      have drawn := @inv_draw cfg s now data data' type consumeType (diamond + won) diamond lucktype
        inv le of taken
      exact drawn

/-- A new agent takes over the row, and renews it where it is due. -/
theorem inv_init (inv : LuckInv cfg s) (le : s.clock ≤ now) (regular : s.Regular cfg (.login now)) :
    LuckInv cfg { s.init cfg now with clock := now } := by
  have stored := inv.stored
  have kept : Current cfg { s with clock := now } s.stored := inv.stored.frame le rfl rfl rfl
  rw [Regular] at regular
  rw [init]
  simp only
  split
  · rename_i row
    rw [row] at regular stored
    have of := ofDay_reset (inv.epoch.trans_le le) stored rfl (regular rfl)
    have fresh : ¬LuckData.stale (some (LuckData.ResetDailyData cfg none now)) now = true := by
      intro due
      have passed := dayOf_of_lt (of.until_.symm.trans_lt (of_decide_eq_true due))
      exact lt_irrefl _ passed
    have first : (refresh cfg { s with Data := none, SFlag := false } now).save =
        { s with
          Data := some (LuckData.ResetDailyData cfg none now)
          SFlag := false
          stored := some (LuckData.ResetDailyData cfg none now) } := by
      rw [refresh_due rfl, save_eq]
      rfl
    have current : Current cfg { s with clock := now }
        (some (LuckData.ResetDailyData cfg none now)) := ⟨_, le_refl _, of.frame rfl rfl rfl⟩
    have made := @inv_data cfg s _ now _ false s.diamond inv le (fun _ => current) current
    rw [first, refresh, if_neg fresh]
    exact made
  · rename_i data row
    rw [row] at regular stored
    obtain ⟨data', flag, done, current⟩ := @refresh_current cfg
      { s with Data := some data, SFlag := false } now inv.epoch
      (stored.frame le_rfl rfl rfl rfl) le regular
    have made := @inv_data cfg s data' now s.stored flag s.diamond inv le
      (fun _ => current.frame le_rfl rfl rfl rfl) kept
    rw [done]
    exact made

/-- Right after a refresh the next one is not due. -/
theorem refresh_next {data : LuckData} (done : (s.refresh cfg now).Data = some data) :
    now ≤ data.NextRefreshTime := by
  rw [refresh] at done
  split at done
  · obtain rfl := Option.some.inj done
    simp only [LuckData.ResetDailyData]
    rw [LuckData.GetNextRefreshTime]
    split
    · have zero := @dayZero_spec now cfg.zone
      simp only
      split
      · omega
      · rename_i midnight
        exact not_lt.mp midnight
    · rename_i fresh
      exact not_lt.mp fresh
  · rename_i fresh
    rw [done] at fresh
    exact not_lt.mp fun due => fresh (decide_eq_true due)

theorem next_kept : (s.refresh cfg now).save.Data.map (fun data =>
    { data with NextRefreshTime := LuckData.GetNextRefreshTime cfg data.NextRefreshTime now }) =
      (s.refresh cfg now).save.Data := by
  rw [save_eq]
  simp only
  cases done : (s.refresh cfg now).Data with
  | none => rfl
  | some data =>
      rw [Option.map_some, LuckData.GetNextRefreshTime, if_neg (not_lt.mpr (refresh_next done))]

theorem inv_TakeLuckBaoxiangTest {type : Option Int} (inv : LuckInv cfg s)
    (some_ : s.Data.isSome = true) (le : s.clock ≤ now)
    (regular : s.Regular cfg (.TakeLuckBaoxiangTest now type)) :
    LuckInv cfg { s.TakeLuckBaoxiangTest cfg now type with clock := now } := by
  have idle : LuckInv cfg { s with clock := now } :=
    inv_data inv le (fun _ => (inv.data some_).frame le rfl rfl rfl) (inv.stored.frame le rfl rfl rfl)
  rw [TakeLuckBaoxiangTest.eq_def]
  split
  · exact absurd rfl regular.1
  · exact absurd rfl regular.2.1
  · simp only [next_kept]
    exact inv_saved inv some_ le (regular.2.2 rfl)
  · exact idle

theorem inv_step (inv : LuckInv cfg s) (regular : s.Regular cfg e)
    (moved : s.step cfg e = some s') : LuckInv cfg s' := by
  rw [step] at moved
  split at moved
  · rename_i enabled
    obtain ⟨le, ready⟩ := enabled
    obtain rfl := Option.some.inj moved
    have idle {now : Int} {diamond : Nat} (some_ : s.Data.isSome = true) (le : s.clock ≤ now) :
        LuckInv cfg { s with diamond := diamond, clock := now } :=
      inv_data inv le (fun _ => (inv.data some_).frame le rfl rfl rfl)
        (inv.stored.frame le rfl rfl rfl)
    cases e with
    | login now => exact inv_init inv le regular
    | AdvertLook now type => exact inv_AdvertLook inv (ready.resolve_left nofun) le regular
    | GetTakeLuckBaoxiang now =>
        have some_ := ready.resolve_left nofun
        simp only [request]
        split
        · exact idle some_ le
        · exact inv_saved inv some_ le regular
    | TakeLuckBaoxiang now lucktype won =>
        exact inv_TakeLuckBaoxiang inv (ready.resolve_left nofun) le regular
    | TakeLuckBaoxiangTest now type =>
        exact inv_TakeLuckBaoxiangTest inv (ready.resolve_left nofun) le regular
    | gain num => exact idle (ready.resolve_left nofun) le
  · cases moved

theorem inv_start {diamond : Nat} : LuckInv cfg (start diamond) :=
  ⟨⟨fun _ => Nat.zero_le _, fun _ => Nat.zero_le _, fun _ mem => (nomatch mem),
    fun _ mem => (nomatch mem)⟩, Int.zero_lt_one, fun some_ => (nomatch some_), rfl, rfl, rfl⟩

/-- Along a run whose steps are regular every free draw is covered, and every other one is paid. -/
theorem run_lucky {es : List LuckEvent} {diamond : Nat}
    (run : Run (step cfg) (Regular cfg) (start diamond) es s) : LuckInStep cfg s := by
  have inv : LuckInv cfg s := run.invariant (LuckInv cfg) inv_start
    fun _ _ _ inv regular moved => inv_step inv regular moved
  exact inv.toLuckInStep

end Requests

instance decMidnight {zone now : Int} : Decidable (midnight zone now) :=
  inferInstanceAs (Decidable (_ = _))

instance decLuckRegular {cfg : LuckCfg} : ∀ s e, Decidable (Regular cfg s e)
  | _, .login _ => inferInstanceAs (Decidable (_ → ¬_))
  | _, .AdvertLook _ _ => inferInstanceAs (Decidable (_ → ¬_))
  | _, .GetTakeLuckBaoxiang _ => inferInstanceAs (Decidable (_ → ¬_))
  | _, .TakeLuckBaoxiang .. => inferInstanceAs (Decidable (¬_))
  | _, .TakeLuckBaoxiangTest _ _ => inferInstanceAs (Decidable (_ ≠ _ ∧ _ ≠ _ ∧ (_ → _ → ¬_)))
  | _, .gain _ => inferInstanceAs (Decidable True)

/-- The values as shipped. -/
def luckSample : LuckCfg where
  zone := 28800
  switch_on_off := true
  luck1_system_free_num_limit := 1
  luck10_system_free_num_limit := 0
  daily_take_num_limit := 9999
  lucktype1_consume_diamond := 10
  lucktype10_consume_diamond := 90
  luck1adv_to_free_num_step := 5
  luck1adv_free_num_limit := 9999
  luck10adv_to_free_num_step := 5
  luck10adv_free_num_limit := 5
  luck10adv_con_day_num := 5
  step_pos := by decide

/-- Five advertisements of one evening, then draws, and one more after midnight. -/
def luckEvents : List LuckEvent :=
  .login 60000 :: List.replicate 5 (.AdvertLook 60100 7) ++
    List.replicate 4 (.TakeLuckBaoxiang 60200 (some 1) 0) ++
    [.GetTakeLuckBaoxiang 144000, .TakeLuckBaoxiang 144001 (some 1) 0]

/-- With fifteen diamonds: the system's draw, one for advertisements, one paid, and the next day's. -/
theorem run_lucky_day : ∃ s, Run (step luckSample) (Regular luckSample) (start 15) luckEvents s ∧
    LuckInStep luckSample s ∧ s.draws.map LuckDraw.consumeType =
      [.systemFree, .adv, .diamond, .systemFree] ∧ s.diamond = 5 := by
  have run := @run_of_guarded _ _ (step luckSample) (Regular luckSample) _ (start 15) luckEvents _ rfl
  exact ⟨_, run, run_lucky run, by decide +kernel, by decide +kernel⟩

/-- A test renews the day's free draw. -/
theorem lucky_fails : ¬∀ cfg diamond es s, Run (step cfg) anyStep (start diamond) es s →
    LuckInStep cfg s := by
  intro lucky
  have run := @run_of_exec _ _ (step luckSample) (start 0)
    [.login 60000, .TakeLuckBaoxiang 60000 (some 1) 0, .TakeLuckBaoxiangTest 60001 (some 1),
      .TakeLuckBaoxiang 60002 (some 1) 0] _ rfl
  exact absurd ((lucky _ _ _ _ run).single 1) (by decide +kernel)

/-- The free draw of yesterday at midnight, and that of today a second later. -/
example : ((exec (step luckSample) (start 0) [.login 143000, .TakeLuckBaoxiang 144000 (some 1) 0,
    .TakeLuckBaoxiang 144001 (some 1) 0]).map fun s =>
      s.draws.countP (LuckDraw.freeOn 28800 .type1 2)) = some 2 := by decide +kernel

end LuckBox
end HuluLandlord.Agent
