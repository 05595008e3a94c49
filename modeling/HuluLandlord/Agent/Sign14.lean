import HuluLandlord.Agent.Consume
import HuluLandlord.Calendar
import HuluLandlord.Table

/-!
The sign-in of the first fourteen days. The days open one after the other, at most one a calendar day, and
on the last day those that are left can only be bought. The record is in memory and in the database, and
it is written only when a status has changed, which the date of its last refresh does not count as.
-/
namespace HuluLandlord.Agent
open Calendar Transition

/-- A day that cannot be claimed, that can, that can for diamonds, and that has been. -/
inductive SignStatus
  | noSign | sign | diamSign | reward
  deriving DecidableEq, Repr

/-- A row of `cfg_sign_in_14`. -/
structure Sign14Row where
  rewards : List Entry
  diamonds : Option (List Entry)
  deriving DecidableEq, Repr

/-- `DayNum` is the global value 150001. No row names an item twice, or one that is not counted. -/
structure Sign14Table where
  zone : Int
  DayNum : Int
  rows : List Sign14Row
  tables : Tables
  plain : ∀ row ∈ rows, ∀ list, row.diamonds = some list →
    Plain tables.items list ∧ (list.map Entry.id).Nodup

structure Sign14Data where
  list : List SignStatus
  refresh : Int
  deriving DecidableEq, Repr

/-- A day that became claimable, with the statuses before. -/
structure Opening where
  day : Int
  index : Nat
  before : List SignStatus
  deriving DecidableEq, Repr

/-- A reward handed out: its day's status before, and what the bag lost for it. -/
structure Sign14Grant where
  day : Int
  index : Nat
  status : SignStatus
  taken : ItemId → Int

/-- `saved` is the row of `UserSign14Record`, and `now` the time of the last event. `switched` is set by the
switch of the last day. -/
structure Sign14 where
  firstLoginDt : Int
  data : Option Sign14Data
  sFlag : Bool
  saved : Option Sign14Data
  bag : Bag
  now : Int
  switched : Bool
  opened : List Opening
  granted : List Sign14Grant

inductive Sign14Ret
  | default_0 | notExists_5 | lack_6 | notOpen_9 | other_10
  | listed (currentindex : Nat) (signdatalist : List SignStatus)
  | succeed_1 (currentindex index : Nat) (signdata : Option SignStatus)
  deriving DecidableEq, Repr

inductive Sign14Event
  | UserNewDay
  | GetSign14
  | RewardSign14 (signtype index : Option Int)
  | restart
  | spend (bag : Bag)

namespace Sign14Data

/-- `GetCurrentIndex`, from an index on. -/
def currentIndex : Nat → Nat → List SignStatus → Nat
  | _, current, [] => current
  | index, current, status :: rest =>
      if status = .sign then index
      else currentIndex (index + 1) (if status = .reward then index else current) rest

def CheckCanReward (d : Sign14Data) (stype index : Int) : Bool :=
  if index ≤ 0 ∨ index > d.list.length then false
  else match d.list[index.toNat - 1]? with
    | none => false
    | some status => (stype = 0 ∧ status = .sign) ∨ (stype = 1 ∧ status = .diamSign)

end Sign14Data

/-- The loop of `refresh` before the last day: the first day that is closed opens, if its time has come. -/
def openFirst (diff_day_num : Int) : Nat → List SignStatus → List SignStatus × Bool
  | _, [] => ([], false)
  | index, status :: rest =>
      if index ≤ diff_day_num ∧ status = .noSign then (.sign :: rest, true)
      else
        let opened := openFirst diff_day_num (index + 1) rest
        (status :: opened.1, opened.2)

def toDiamSign (status : SignStatus) : SignStatus :=
  if status = .noSign ∨ status = .sign then .diamSign else status

namespace Sign14
variable (cfg : Sign14Table)

/-- `GetDayDiff` of the beginning of a time's day. -/
def GetDayDiff (now old_time : Int) : Int := dayOf cfg.zone now - dayOf cfg.zone old_time

def diffDayNum (s : Sign14) (now : Int) : Int := GetDayDiff cfg now s.firstLoginDt + 1

def CheckExpire (s : Sign14) (now : Int) : Bool := s.diffDayNum cfg now > cfg.DayNum

def CreateRecord (s : Sign14) (now : Int) : Sign14Data :=
  ⟨if s.diffDayNum cfg now < cfg.DayNum then List.replicate (cfg.DayNum - 1).toNat .noSign else [], 0⟩

def load (s : Sign14) (now : Int) : Sign14 :=
  if s.CheckExpire cfg now then { s with sFlag := false }
  else match s.data with
    | some _ => { s with sFlag := false }
    | none => { s with data := some (s.saved.getD (s.CreateRecord cfg now)), sFlag := true }

/-- What `refresh` makes of the statuses on a new day, and whether it changed one. -/
def refreshList (diff_day_num : Int) (list : List SignStatus) : List SignStatus × Bool :=
  if diff_day_num < cfg.DayNum then
    if list.contains .sign then (list, false) else openFirst diff_day_num 1 list
  else if diff_day_num = cfg.DayNum then
    (list.map toDiamSign, list.any fun status => status = .noSign ∨ status = .sign)
  else (list, false)

def refresh (s : Sign14) (now : Int) : Sign14 :=
  match s.data with
  | none => s
  | some d =>
      if GetDayDiff cfg now d.refresh > 0 then
        let list := refreshList cfg (s.diffDayNum cfg now) d.list
        { s with
          data := some ⟨list.1, now⟩
          sFlag := s.sFlag || list.2
          switched := s.switched || s.diffDayNum cfg now = cfg.DayNum }
      else s

def save (s : Sign14) : Sign14 :=
  if s.sFlag then { s with sFlag := false, saved := s.data } else s

/-- What every request begins with, and all that a new day and a login do. -/
def visit (s : Sign14) (now : Int) : Sign14 := ((s.load cfg now).refresh cfg now).save

/-- The statuses of the user: those in memory, or those a login will load. -/
def view (s : Sign14) : List SignStatus := (s.data <|> s.saved).elim [] Sign14Data.list

/-- The days that are claimable and were not before. -/
def newly (before after : List SignStatus) : List Nat :=
  ((List.range after.length).filter fun i =>
    after[i]? = some .sign ∧ before[i]? ≠ some .sign).map (· + 1)

def observe (s : Sign14) (before : List SignStatus) (now : Int) : Sign14 :=
  { s with
    opened := s.opened ++
      (newly before s.view).map fun index => ⟨dayOf cfg.zone now, index, before⟩ }

def Sign (s : Sign14) (now : Int) : Sign14 := (s.visit cfg now).observe cfg s.view now

/-- `Reward`. It checks the status a second time, and its result is never false. -/
def Reward (s : Sign14) (stype index : Int) : Sign14 :=
  match s.data with
  | none => s
  | some d =>
      if d.CheckCanReward stype index then
        { s with data := some { d with list := d.list.set (index.toNat - 1) .reward }, sFlag := true }
      else s

def GetSign14 (s : Sign14) (now : Int) : Sign14 × Sign14Ret :=
  if s.CheckExpire cfg now then (s, .notOpen_9)
  else
    let s := s.Sign cfg now
    let list := s.data.elim [] Sign14Data.list
    (s, .listed (Sign14Data.currentIndex 1 0 list) list)

/-- The end of `RewardSign14`, with the bag after the payment. -/
def grant (s : Sign14) (now stype index : Int) (row : Sign14Row) (bag : Bag) : Sign14 × Sign14Ret :=
  let list := s.data.elim [] Sign14Data.list
  let t := (s.Reward stype index).save
  let list' := t.data.elim [] Sign14Data.list
  ({ t with
      bag := bag.addList cfg.tables now row.rewards
      granted := s.granted ++ [⟨dayOf cfg.zone now, index.toNat,
        list[index.toNat - 1]?.getD .noSign, fun id => s.bag.num id - bag.num id⟩] },
    .succeed_1 (Sign14Data.currentIndex 1 0 list') index.toNat list'[index.toNat - 1]?)

def RewardSign14 (s : Sign14) (signtype index : Option Int) (now : Int) : Sign14 × Sign14Ret :=
  match signtype, index with
  | some stype, some index =>
      if s.CheckExpire cfg now then (s, .notOpen_9)
      else
        let s := s.Sign cfg now
        match (if 0 < index then cfg.rows[index.toNat - 1]? else none) with
        | none => (s, .default_0)
        | some row =>
            if (s.data.map fun d => d.CheckCanReward stype index).getD false then
              if stype = 1 then
                match row.diamonds with
                | none => (s, .other_10)
                | some consumeItems =>
                    let paid := s.bag.removeList cfg.tables.items now (some consumeItems) 1
                    if paid.2 then s.grant cfg now stype index row paid.1
                    else ({ s with bag := paid.1 }, .lack_6)
              else s.grant cfg now stype index row s.bag
            else (s, .notExists_5)
  | _, _ => (s, .default_0)

/-- With `spend`, whatever else the user gains and spends. -/
def handle (s : Sign14) (now : Int) : Sign14Event → Sign14
  | .UserNewDay => s.Sign cfg now
  | .GetSign14 => (s.GetSign14 cfg now).1
  | .RewardSign14 signtype index => (s.RewardSign14 cfg signtype index now).1
  | .restart => ({ s with data := none }.visit cfg now).observe cfg s.view now
  | .spend bag => { s with bag }

/-- The clock never goes back. -/
def step (s : Sign14) (e : Int × Sign14Event) : Option Sign14 :=
  if s.now ≤ e.1 then some ({ s with now := e.1 }.handle cfg e.1 e.2) else none

/-- Before the login that is the first one. -/
def start (firstLoginDt : Nat) (bag : Bag) : Sign14 :=
  ⟨firstLoginDt, none, false, none, bag, firstLoginDt, false, [], []⟩

/-- The day on which the closed days are switched. -/
def lastDay (s : Sign14) : Int := dayOf cfg.zone s.firstLoginDt + cfg.DayNum - 1

end Sign14

/-- A grant is free for a claimable day, before the last day, and costs what the table says for a day that
is to be bought. -/
def Sign14Grant.Paid (cfg : Sign14Table) (lastDay : Int) (g : Sign14Grant) : Prop :=
  (g.status = .sign ∧ g.day < lastDay ∧ ∀ id, g.taken id = 0) ∨
  (g.status = .diamSign ∧ ∃ row list, cfg.rows[g.index - 1]? = some row ∧ row.diamonds = some list ∧
    ∀ id, g.taken id = total list id)

/-- The days open in order, one a day and only when none is pending, are granted once and as they should
be paid, and none is claimable after the switch. -/
structure SignedInOrder (cfg : Sign14Table) (s : Sign14) : Prop where
  days : s.opened.Pairwise fun a b => a.day < b.day
  increasing : s.opened.Pairwise fun a b => a.index < b.index
  pending : ∀ o ∈ s.opened, .sign ∉ o.before
  once : (s.granted.map Sign14Grant.index).Nodup
  paid : ∀ g ∈ s.granted, g.Paid cfg (s.lastDay cfg)
  closed : s.switched = true → .sign ∉ s.view

section Statuses
variable {cfg : Sign14Table} {list before : List SignStatus} {diff : Int} {i : Nat}

/-- The day that opens is the first that is closed. -/
theorem openFirst_cases (index : Nat) : openFirst diff index list = (list, false) ∨
    ∃ i : Nat, index + i ≤ diff ∧ list[i]? = some .noSign ∧ (∀ j < i, list[j]? ≠ some .noSign) ∧
      openFirst diff index list = (list.set i .sign, true) := by
  induction list generalizing index with
  | nil => exact .inl rfl
  | cons status rest ih =>
      rw [openFirst]
      split
      · rename_i due
        refine .inr ⟨0, by simpa using due.1, congrArg some due.2, fun j less => ?_, rfl⟩
        exact absurd less (Nat.not_lt_zero j)
      · rename_i notDue
        obtain same | ⟨i, time, closed, first, opened⟩ := ih (index + 1)
        · left
          rw [same]
        · refine .inr ⟨i + 1, by push_cast at time ⊢; omega, closed, fun j less => ?_, ?_⟩
          · cases j with
            | zero =>
                intro here
                refine notDue ⟨by push_cast at time; omega, ?_⟩
                exact Option.some.inj here
            | succ j => exact first j (Nat.lt_of_succ_lt_succ less)
          · rw [opened]
            rfl

theorem toDiamSign_ne (status : SignStatus) : toDiamSign status ≠ .noSign ∧ toDiamSign status ≠ .sign := by
  cases status with
  | noSign | sign | diamSign | reward => decide

theorem not_sign_toDiamSign : SignStatus.sign ∉ list.map toDiamSign := by
  intro mem
  obtain ⟨status, -, same⟩ := List.mem_map.mp mem
  exact (toDiamSign_ne status).2 same

/-- What becomes of the statuses: nothing before the last day, or one opens, or the last day switches
them. -/
theorem refreshList_cases :
    (Sign14.refreshList cfg diff list = (list, false) ∧ diff ≠ cfg.DayNum) ∨
    (diff < cfg.DayNum ∧ .sign ∉ list ∧ ∃ i : Nat, list[i]? = some .noSign ∧
      (∀ j < i, list[j]? ≠ some .noSign) ∧
      Sign14.refreshList cfg diff list = (list.set i .sign, true)) ∨
    (diff = cfg.DayNum ∧ (Sign14.refreshList cfg diff list).1 = list.map toDiamSign ∧
      ((Sign14.refreshList cfg diff list).2 = false → list.map toDiamSign = list)) := by
  rw [Sign14.refreshList]
  split
  · rename_i early
    split
    · exact .inl ⟨rfl, early.ne⟩
    · rename_i none_
      obtain same | ⟨i, -, closed, first, opened⟩ := @openFirst_cases list diff 1
      · exact .inl ⟨same, early.ne⟩
      · refine .inr (.inl ⟨early, fun mem => none_ ?_, i, closed, first, opened⟩)
        exact List.contains_iff_mem.mpr mem
  · split
    · rename_i last
      refine .inr (.inr ⟨last, rfl, fun unchanged => ?_⟩)
      have none_ := List.any_eq_false.mp unchanged
      refine (List.map_congr_left fun status mem => ?_).trans (List.map_id list)
      rw [toDiamSign, if_neg fun found => none_ status mem (decide_eq_true found)]
      rfl
    · rename_i other
      exact .inl ⟨rfl, other⟩

theorem newly_eq_nil
    (none_ : ∀ i : Nat, list[i]? = some SignStatus.sign → before[i]? = some SignStatus.sign) :
    Sign14.newly before list = [] := by
  rw [Sign14.newly, List.map_eq_nil_iff, List.filter_eq_nil_iff]
  intro i _ found
  exact (of_decide_eq_true found).2 (none_ i (of_decide_eq_true found).1)

theorem newly_self : Sign14.newly list list = [] := newly_eq_nil fun _ found => found

theorem newly_set (pending : .sign ∉ before) (none_ : .sign ∉ list) (here : i < list.length) :
    Sign14.newly before (list.set i .sign) = [i + 1] := by
  have only (k : Nat) : (list.set i .sign)[k]? = some .sign ↔ k = i := by
    constructor
    · intro found
      by_contra other
      rw [List.getElem?_set_ne (Ne.symm other)] at found
      exact none_ (List.mem_of_getElem? found)
    · rintro rfl
      exact List.getElem?_set_self here
  have unseen (k : Nat) : before[k]? ≠ some .sign := fun found => pending (List.mem_of_getElem? found)
  rw [Sign14.newly]
  simp only [only, unseen, ne_eq, not_false_eq_true, and_true, List.length_set]
  have one := List.count_eq_one_of_mem List.nodup_range (List.mem_range.mpr here)
  have single : (List.range list.length).filter (fun k => decide (k = i)) = [i] := by
    rw [List.filter_eq, one]
    rfl
  rw [single]
  rfl

end Statuses

/-- What a visit makes of the record it has loaded; the flag is that of the last day's switch. -/
inductive Refreshed (cfg : Sign14Table) (now diff : Int) (d : Sign14Data) : Sign14Data → Bool → Prop
  | sameDay (day : dayOf cfg.zone now ≤ dayOf cfg.zone d.refresh) : Refreshed cfg now diff d d false
  | unchanged (day : dayOf cfg.zone d.refresh < dayOf cfg.zone now) (other : diff ≠ cfg.DayNum) :
      Refreshed cfg now diff d ⟨d.list, now⟩ false
  | opened (day : dayOf cfg.zone d.refresh < dayOf cfg.zone now) (early : diff < cfg.DayNum)
      (none_ : SignStatus.sign ∉ d.list) (i : Nat) (closed : d.list[i]? = some .noSign)
      (first : ∀ j < i, d.list[j]? ≠ some .noSign) :
      Refreshed cfg now diff d ⟨d.list.set i .sign, now⟩ false
  | switched (day : dayOf cfg.zone d.refresh < dayOf cfg.zone now) (last : diff = cfg.DayNum) :
      Refreshed cfg now diff d ⟨d.list.map toDiamSign, now⟩ true

namespace Sign14

section Visits
variable {cfg : Sign14Table} {s t : Sign14} {now : Int} {d : Sign14Data}

/-- A record is written as it is, or the statuses are those that were loaded. -/
theorem refresh_cases (here : s.data = some d) :
    ∃ d' switch, Refreshed cfg now (s.diffDayNum cfg now) d d' switch ∧
      ∃ flag, (flag = false → s.sFlag = false ∧ d'.list = d.list) ∧ s.refresh cfg now =
        { s with data := some d', sFlag := flag, switched := s.switched || switch } := by
  rw [refresh, here]
  dsimp only
  split
  · rename_i day
    have day : dayOf cfg.zone d.refresh < dayOf cfg.zone now := by
      rw [GetDayDiff] at day
      omega
    obtain ⟨same, other⟩ | ⟨early, none_, i, closed, first, opened⟩ | ⟨last, list, kept⟩ :=
      @refreshList_cases cfg d.list (s.diffDayNum cfg now)
    · refine ⟨_, _, .unchanged day other, s.sFlag, fun clear => ⟨clear, rfl⟩, ?_⟩
      simp [same, other]
    · refine ⟨_, _, .opened day early none_ i closed first, true, fun clear => ?_, ?_⟩
      · cases clear
      · simp [opened, early.ne]
    · refine ⟨_, _, .switched day last, s.sFlag || (refreshList cfg (s.diffDayNum cfg now) d.list).2,
        fun clear => ?_, ?_⟩
      · rw [Bool.or_eq_false_iff] at clear
        exact ⟨clear.1, kept clear.2⟩
      · simp only [list, decide_eq_true last]
  · rename_i day
    refine ⟨d, false, .sameDay ?_, s.sFlag, fun clear => ⟨clear, rfl⟩, ?_⟩
    · rw [GetDayDiff] at day
      omega
    · simp [← here]

/-- The record of a visit: the one in memory, the one in the database, or a new one. -/
def Loaded (cfg : Sign14Table) (s : Sign14) (now : Int) (d : Sign14Data) : Prop :=
  s.data = some d ∨
    s.data = none ∧ s.CheckExpire cfg now = false ∧ d = s.saved.getD (s.CreateRecord cfg now)

theorem visit_cases : (s.CheckExpire cfg now = true ∧ s.data = none ∧
      s.visit cfg now = { s with sFlag := false }) ∨
    ∃ d d' switch saved, s.Loaded cfg now d ∧ Refreshed cfg now (s.diffDayNum cfg now) d d' switch ∧
      (saved = some d' ∨ s.data = some d ∧ saved = s.saved ∧ d'.list = d.list) ∧
      s.visit cfg now =
        { s with data := some d', sFlag := false, saved := saved, switched := s.switched || switch } := by
  -- a loaded record is refreshed, and written if it was not in memory before
  have loaded (d : Sign14Data) (flag : Bool) (found : s.Loaded cfg now d)
      (stale : flag = false → s.data = some d)
      (load : s.load cfg now = { s with data := some d, sFlag := flag }) :
      ∃ d d' switch saved, s.Loaded cfg now d ∧ Refreshed cfg now (s.diffDayNum cfg now) d d' switch ∧
        (saved = some d' ∨ s.data = some d ∧ saved = s.saved ∧ d'.list = d.list) ∧
        s.visit cfg now =
          { s with data := some d', sFlag := false, saved := saved, switched := s.switched || switch } := by
    obtain ⟨d', switch, refreshed, flag', clear, result⟩ :=
      @refresh_cases cfg { s with data := some d, sFlag := flag } now d rfl
    rw [visit, load, result, save]
    cases flag' with
    | true => exact ⟨d, d', switch, some d', found, refreshed, .inl rfl, rfl⟩
    | false =>
        obtain ⟨fresh, same⟩ := clear rfl
        exact ⟨d, d', switch, s.saved, found, refreshed, .inr ⟨stale fresh, rfl, same⟩, rfl⟩
  cases expired : s.CheckExpire cfg now with
  | true =>
      have load : s.load cfg now = { s with sFlag := false } := by rw [load, if_pos expired]
      cases here : s.data with
      | none =>
          left
          refine ⟨rfl, rfl, ?_⟩
          rw [visit, load, refresh, here]
          rfl
      | some d =>
          right
          exact here ▸ loaded d false (.inl here) (fun _ => here) (by rw [load, ← here])
  | false =>
      right
      cases here : s.data with
      | some d =>
          refine here ▸ loaded d false (.inl here) (fun _ => here) ?_
          rw [load, if_neg (Bool.eq_false_iff.mp expired), here]
      | none =>
          refine here ▸ loaded _ true (.inr ⟨here, expired, rfl⟩) nofun ?_
          rw [load, if_neg (Bool.eq_false_iff.mp expired), here]

end Visits

/-- The days that have opened, beside what the database has. -/
structure Openings (cfg : Sign14Table) (saved : Option Sign14Data) (opened : List Opening) : Prop where
  seen : ∀ o ∈ opened, ∃ d, saved = some d ∧ o.day ≤ dayOf cfg.zone d.refresh ∧
    ∀ j, d.list[j]? = some .noSign → o.index ≤ j
  days : opened.Pairwise fun a b => a.day < b.day
  increasing : opened.Pairwise fun a b => a.index < b.index
  pending : ∀ o ∈ opened, SignStatus.sign ∉ o.before

theorem Openings.concat {cfg : Sign14Table} {d : Sign14Data} {opened : List Opening} {o : Opening}
    (old : Openings cfg (some d) opened) (day : o.day ≤ dayOf cfg.zone d.refresh)
    (closed : ∀ j, d.list[j]? = some .noSign → o.index ≤ j)
    (later : ∀ o' ∈ opened, o'.day < o.day ∧ o'.index < o.index) (pending : SignStatus.sign ∉ o.before) :
    Openings cfg (some d) (opened ++ [o]) where
  seen := List.forall_mem_append.mpr
    ⟨old.seen, List.forall_mem_singleton.mpr ⟨d, rfl, day, closed⟩⟩
  days := List.pairwise_append.mpr ⟨old.days, List.pairwise_singleton _ _, fun o' mem _ last =>
    List.mem_singleton.mp last ▸ (later o' mem).1⟩
  increasing := List.pairwise_append.mpr ⟨old.increasing, List.pairwise_singleton _ _, fun o' mem _ last =>
    List.mem_singleton.mp last ▸ (later o' mem).2⟩
  pending := List.forall_mem_append.mpr ⟨old.pending, List.forall_mem_singleton.mpr pending⟩

/-- What every step keeps. The statuses in memory are those in the database, whose refresh may be older, but
not older than the last day that opened. -/
structure Sign14Inv (cfg : Sign14Table) (s : Sign14) : Prop where
  clock : 0 ≤ s.firstLoginDt ∧ s.firstLoginDt ≤ s.now
  kept : ∀ d, s.data = some d → ∃ d', s.saved = some d' ∧ d'.list = d.list ∧
    dayOf cfg.zone d'.refresh ≤ dayOf cfg.zone d.refresh
  recent : ∀ d, s.data = some d ∨ s.saved = some d →
    dayOf cfg.zone d.refresh ≤ dayOf cfg.zone s.now
  lastDay : ∀ d, s.data = some d ∨ s.saved = some d → dayOf cfg.zone d.refresh = s.lastDay cfg →
    SignStatus.sign ∉ d.list
  openings : Openings cfg s.saved s.opened
  rewarded : ∀ g ∈ s.granted, ∃ d, s.saved = some d ∧ d.list[g.index - 1]? = some .reward
  once : (s.granted.map Sign14Grant.index).Nodup
  paid : ∀ g ∈ s.granted, g.Paid cfg (s.lastDay cfg)
  closed : s.switched = true → s.lastDay cfg ≤ dayOf cfg.zone s.now ∧
    ∀ d, s.saved = some d → SignStatus.sign ∉ d.list

section Steps
variable {cfg : Sign14Table} {s t : Sign14} {now : Int} {d d' : Sign14Data} {switch : Bool}

/-- What is in memory and what is in the database show the same. -/
theorem view_eq (inv : Sign14Inv cfg s) : s.view = s.saved.elim [] Sign14Data.list := by
  rw [view]
  cases here : s.data with
  | none => rfl
  | some d =>
      obtain ⟨d', saved, same, -⟩ := inv.kept d here
      rw [saved]
      exact same.symm

/-- Time passes. -/
theorem inv_later (inv : Sign14Inv cfg s) (le : s.now ≤ now) : Sign14Inv cfg { s with now } where
  clock := ⟨inv.clock.1, inv.clock.2.trans le⟩
  kept := inv.kept
  recent d here := (inv.recent d here).trans (dayOf_mono le)
  lastDay := inv.lastDay
  openings := inv.openings
  rewarded := inv.rewarded
  once := inv.once
  paid := inv.paid
  closed on := ⟨(inv.closed on).1.trans (dayOf_mono le), (inv.closed on).2⟩

/-- The record in memory is dropped. -/
theorem inv_dropped (inv : Sign14Inv cfg s) : Sign14Inv cfg { s with data := none } where
  clock := inv.clock
  kept _ here := nomatch here
  recent d here := inv.recent d (.inr (here.resolve_left nofun))
  lastDay d here := inv.lastDay d (.inr (here.resolve_left nofun))
  openings := inv.openings
  rewarded := inv.rewarded
  once := inv.once
  paid := inv.paid
  closed := inv.closed

/-- Neither what is in the bag nor whether the record is to be written is looked at. -/
theorem inv_spent (inv : Sign14Inv cfg s) (bag : Bag) (sFlag : Bool) : Sign14Inv cfg { s with bag, sFlag } :=
  ⟨inv.clock, inv.kept, inv.recent, inv.lastDay, inv.openings, inv.rewarded, inv.once, inv.paid, inv.closed⟩

/-- Every status that was claimed stays so. -/
theorem reward_refreshed {diff : Int} {i : Nat} (refreshed : Refreshed cfg now diff d d' switch)
    (claimed : d.list[i]? = some .reward) : d'.list[i]? = some .reward := by
  cases refreshed with
  | sameDay | unchanged => exact claimed
  | opened _ _ _ k closed _ =>
      have other : k ≠ i := by
        rintro rfl
        rw [claimed] at closed
        cases closed
      exact (List.getElem?_set_ne other).trans claimed
  | switched =>
      simp only [List.getElem?_map, claimed, Option.map_some]
      rfl

/-- The loaded record beside the database. -/
structure Beside (cfg : Sign14Table) (s : Sign14) (now : Int) (d : Sign14Data) : Prop where
  older : ∀ d₀, s.saved = some d₀ →
    d₀.list = d.list ∧ dayOf cfg.zone d₀.refresh ≤ dayOf cfg.zone d.refresh
  created : s.saved = none → SignStatus.sign ∉ d.list
  recent : dayOf cfg.zone d.refresh ≤ dayOf cfg.zone now
  lastDay : dayOf cfg.zone d.refresh = s.lastDay cfg → SignStatus.sign ∉ d.list

theorem beside_loaded (inv : Sign14Inv cfg s) (at_ : s.now = now) (loaded : s.Loaded cfg now d) :
    Beside cfg s now d := by
  obtain here | ⟨-, -, rfl⟩ := loaded
  · obtain ⟨d₁, saved, same, older⟩ := inv.kept d here
    refine ⟨fun d₀ found => ?_, fun none_ => ?_, at_ ▸ inv.recent d (.inl here), inv.lastDay d (.inl here)⟩
    · obtain rfl := Option.some.inj (saved.symm.trans found)
      exact ⟨same, older⟩
    · cases saved.symm.trans none_
  · cases saved : s.saved with
    | some d₀ =>
        refine ⟨fun d₁ found => ?_, fun none_ => ?_, at_ ▸ inv.recent d₀ (.inr saved),
          inv.lastDay d₀ (.inr saved)⟩
        · obtain rfl := Option.some.inj (saved.symm.trans found)
          exact ⟨rfl, le_rfl⟩
        · cases saved.symm.trans none_
    | none =>
        have blank : SignStatus.sign ∉ (s.CreateRecord cfg now).list := by
          intro mem
          rw [CreateRecord] at mem
          dsimp only at mem
          split at mem
          · cases List.eq_of_mem_replicate mem
          · exact List.not_mem_nil mem
        refine ⟨fun d₀ found => ?_, fun _ => blank, ?_, fun _ => blank⟩
        · cases saved.symm.trans found
        · exact dayOf_mono (at_ ▸ inv.clock.1.trans inv.clock.2)

theorem Beside.view (beside : Beside cfg s now d) (inv : Sign14Inv cfg s) :
    s.view = d.list ∨ s.view = [] ∧ SignStatus.sign ∉ d.list := by
  rw [view_eq inv]
  cases saved : s.saved with
  | some d₀ => exact .inl (beside.older d₀ saved).1
  | none => exact .inr ⟨rfl, beside.created saved⟩

/-- A day that is claimable in the loaded record was so before. -/
theorem Beside.newly (beside : Beside cfg s now d) (inv : Sign14Inv cfg s) :
    newly s.view d.list = [] := by
  obtain same | ⟨-, none_⟩ := beside.view inv
  · rw [same, newly_self]
  · exact newly_eq_nil fun i found => absurd (List.mem_of_getElem? found) none_

/-- What a refresh leaves is as recent, closes no day, and has no day claimable from the last day on. -/
structure After (cfg : Sign14Table) (s : Sign14) (now : Int) (d d' : Sign14Data) (switch : Bool) :
    Prop where
  newer : dayOf cfg.zone d.refresh ≤ dayOf cfg.zone d'.refresh
  today : dayOf cfg.zone d'.refresh = dayOf cfg.zone now
  closed : ∀ j : Nat, d'.list[j]? = some .noSign → d.list[j]? = some .noSign
  lastDay : dayOf cfg.zone now = s.lastDay cfg → SignStatus.sign ∉ d'.list
  switched : switch = true → dayOf cfg.zone now = s.lastDay cfg
  late : s.lastDay cfg ≤ dayOf cfg.zone now → SignStatus.sign ∉ d.list → SignStatus.sign ∉ d'.list

theorem after_refreshed (beside : Beside cfg s now d)
    (refreshed : Refreshed cfg now (s.diffDayNum cfg now) d d' switch) :
    After cfg s now d d' switch := by
  have counted : s.diffDayNum cfg now = dayOf cfg.zone now - s.lastDay cfg + cfg.DayNum := by
    simp only [diffDayNum, GetDayDiff, lastDay]
    omega
  cases refreshed with
  | sameDay day =>
      have today := le_antisymm beside.recent day
      exact ⟨le_rfl, today, fun _ found => found, fun last => beside.lastDay (today.trans last), nofun,
        fun _ none_ => none_⟩
  | unchanged day other =>
      exact ⟨day.le, rfl, fun _ found => found, fun last => absurd (by omega) other, nofun,
        fun _ none_ => none_⟩
  | opened day early none_ i closed first =>
      refine ⟨day.le, rfl, fun j found => ?_, fun last => absurd early (by omega), nofun,
        fun late => absurd early (by omega)⟩
      by_cases here : i = j
      · subst here
        rw [List.getElem?_set_self (List.getElem?_eq_some_iff.mp closed).1] at found
        cases found
      · exact (List.getElem?_set_ne here).symm.trans found
  | switched day last =>
      refine ⟨day.le, rfl, fun j found => ?_, fun _ => not_sign_toDiamSign, fun _ => by omega,
        fun _ _ => not_sign_toDiamSign⟩
      obtain ⟨status, -, same⟩ := List.mem_map.mp (List.mem_of_getElem? found)
      exact absurd same (toDiamSign_ne status).1

/-- The day that a refresh makes claimable, if there is one. -/
theorem newly_refreshed (inv : Sign14Inv cfg s) (beside : Beside cfg s now d)
    (refreshed : Refreshed cfg now (s.diffDayNum cfg now) d d' switch) :
    newly s.view d'.list = [] ∨ dayOf cfg.zone d.refresh < dayOf cfg.zone now ∧
      SignStatus.sign ∉ s.view ∧ ∃ i : Nat, newly s.view d'.list = [i + 1] ∧
        d.list[i]? = some .noSign ∧ ∀ j, d'.list[j]? = some .noSign → i + 1 ≤ j := by
  cases refreshed with
  | sameDay | unchanged => exact .inl (beside.newly inv)
  | switched =>
      left
      exact newly_eq_nil fun i found => absurd (List.mem_of_getElem? found) not_sign_toDiamSign
  | opened day early none_ i closed first =>
      have pending : SignStatus.sign ∉ s.view := by
        obtain same | ⟨blank, -⟩ := beside.view inv
        · rw [same]
          exact none_
        · rw [blank]
          exact List.not_mem_nil
      have short := (List.getElem?_eq_some_iff.mp closed).1
      refine .inr ⟨day, pending, i, newly_set pending none_ short, closed, fun j found => ?_⟩
      by_contra above
      obtain before | same := (show j ≤ i by omega).lt_or_eq
      · exact first j before ((List.getElem?_set_ne (by omega)).symm.trans found)
      · subst same
        rw [List.getElem?_set_self short] at found
        cases found

/-- What the database has after a visit shows the statuses in memory. -/
theorem saved_after {saved : Option Sign14Data} (beside : Beside cfg s now d)
    (after : After cfg s now d d' switch)
    (written : saved = some d' ∨ s.data = some d ∧ saved = s.saved ∧ d'.list = d.list)
    (inv : Sign14Inv cfg s) : ∃ d₁, saved = some d₁ ∧ d₁.list = d'.list ∧
      dayOf cfg.zone d₁.refresh ≤ dayOf cfg.zone d'.refresh ∧
      ∀ d₀, s.saved = some d₀ → dayOf cfg.zone d₀.refresh ≤ dayOf cfg.zone d₁.refresh := by
  obtain rfl | ⟨here, rfl, same⟩ := written
  · exact ⟨d', rfl, rfl, le_rfl, fun d₀ found => (beside.older d₀ found).2.trans after.newer⟩
  · obtain ⟨d₁, found, list, older⟩ := inv.kept d here
    refine ⟨d₁, found, list.trans same.symm, older.trans after.newer, fun d₀ found' => ?_⟩
    obtain rfl := Option.some.inj (found.symm.trans found')
    exact le_rfl

theorem inv_Sign (inv : Sign14Inv cfg s) (at_ : s.now = now) : Sign14Inv cfg (s.Sign cfg now) ∧
    ∀ d, (s.Sign cfg now).data = some d → dayOf cfg.zone d.refresh = dayOf cfg.zone now := by
  obtain ⟨-, none_, result⟩ | ⟨d, d', switch, saved, loaded, refreshed, written, result⟩ :=
    @visit_cases cfg s now
  · have view : ({ s with sFlag := false }).view = s.view := rfl
    rw [Sign, result, observe, view, newly_self, List.map_nil, List.append_nil]
    exact ⟨inv_spent inv s.bag false, fun d here => nomatch none_.symm.trans here⟩
  · have beside := beside_loaded inv at_ loaded
    have after := after_refreshed beside refreshed
    obtain ⟨d₁, rfl, same, older, newer⟩ := saved_after beside after written inv
    have shown (switched : Bool) :
        view { s with data := some d', sFlag := false, saved := some d₁, switched } = d'.list := rfl
    rw [Sign, result, observe, shown]
    have record (d₂ : Sign14Data) (here : some d' = some d₂ ∨ some d₁ = some d₂) :
        d₂.list = d'.list ∧ dayOf cfg.zone d₂.refresh ≤ dayOf cfg.zone d'.refresh := by
      obtain found | found := here
      · obtain rfl := Option.some.inj found
        exact ⟨rfl, le_rfl⟩
      · obtain rfl := Option.some.inj found
        exact ⟨same, older⟩
    -- what was opened before is older than the record, and opened for good
    have old : ∀ o ∈ s.opened, o.day ≤ dayOf cfg.zone d.refresh ∧ o.day ≤ dayOf cfg.zone d₁.refresh ∧
        ∀ j, d.list[j]? = some .noSign → o.index ≤ j := by
      intro o mem
      obtain ⟨d₀, found, day, closed⟩ := inv.openings.seen o mem
      obtain ⟨list, older⟩ := beside.older d₀ found
      exact ⟨day.trans older, day.trans (newer d₀ found), list ▸ closed⟩
    have kept : Openings cfg (some d₁) s.opened :=
      ⟨fun o mem => ⟨d₁, rfl, (old o mem).2.1, fun j found =>
        (old o mem).2.2 j (after.closed j (same ▸ found))⟩, inv.openings.days, inv.openings.increasing,
        inv.openings.pending⟩
    have openings : Openings cfg (some d₁) (s.opened ++
        (newly s.view d'.list).map fun index => ⟨dayOf cfg.zone now, index, s.view⟩) := by
      obtain none_ | ⟨day, pending, i, one, closed, first⟩ := newly_refreshed inv beside refreshed
      · rw [none_, List.map_nil, List.append_nil]
        exact kept
      · have today : dayOf cfg.zone d₁.refresh = dayOf cfg.zone now := by
          obtain found | ⟨-, -, list⟩ := written
          · obtain rfl := Option.some.inj found
            exact after.today
          · rw [list, beside.newly inv] at one
            cases one
        rw [one, List.map_singleton]
        refine kept.concat today.ge (same ▸ first) (fun o mem => ?_) pending
        exact ⟨(old o mem).1.trans_lt day, Nat.lt_succ_of_le ((old o mem).2.2 i closed)⟩
    have rewarded : ∀ g ∈ s.granted, ∃ d₂, some d₁ = some d₂ ∧ d₂.list[g.index - 1]? = some .reward := by
      intro g mem
      obtain ⟨d₀, found, claimed⟩ := inv.rewarded g mem
      refine ⟨d₁, rfl, ?_⟩
      rw [same]
      exact reward_refreshed refreshed ((beside.older d₀ found).1 ▸ claimed)
    have last (d₂ : Sign14Data) (here : some d' = some d₂ ∨ some d₁ = some d₂)
        (day : dayOf cfg.zone d₂.refresh = s.lastDay cfg) : SignStatus.sign ∉ d₂.list := by
      have today : dayOf cfg.zone d'.refresh = s.lastDay cfg → SignStatus.sign ∉ d'.list :=
        fun day => after.lastDay (after.today.symm.trans day)
      obtain found | found := here
      · obtain rfl := Option.some.inj found
        exact today day
      · obtain rfl := Option.some.inj found
        obtain found | ⟨-, found, -⟩ := written
        · obtain rfl := Option.some.inj found
          exact today day
        · exact inv.lastDay d₁ (.inr found.symm) day
    have closed (on : (s.switched || switch) = true) : s.lastDay cfg ≤ dayOf cfg.zone now ∧
        SignStatus.sign ∉ d'.list := by
      obtain on | on := Bool.or_eq_true_iff.mp on
      · obtain ⟨late, none_⟩ := inv.closed on
        rw [at_] at late
        refine ⟨late, after.late late ?_⟩
        cases found : s.saved with
        | none => exact beside.created found
        | some d₀ => exact (beside.older d₀ found).1 ▸ none_ d₀ found
      · exact ⟨(after.switched on).ge, after.lastDay (after.switched on)⟩
    refine ⟨⟨inv.clock, ?_, ?_, last, openings, rewarded, inv.once, inv.paid, ?_⟩, ?_⟩
    · rintro d₂ here
      obtain rfl := Option.some.inj here
      exact ⟨d₁, rfl, same, older⟩
    · intro d₂ here
      exact (record d₂ here).2.trans (at_ ▸ after.today.le)
    · intro on
      refine ⟨at_ ▸ (closed on).1, fun d₂ here => ?_⟩
      rw [(record d₂ (.inr here)).1]
      exact (closed on).2
    · intro d₂ here
      obtain rfl := Option.some.inj here
      exact after.today

theorem Sign_frame : (s.Sign cfg now).firstLoginDt = s.firstLoginDt ∧ (s.Sign cfg now).now = s.now := by
  obtain ⟨-, -, result⟩ | ⟨_, _, _, _, -, -, -, result⟩ := @visit_cases cfg s now
  · rw [Sign, result]
    exact ⟨rfl, rfl⟩
  · rw [Sign, result]
    exact ⟨rfl, rfl⟩

/-- The day that may be claimed, and how. -/
theorem canReward_iff {stype index : Int} : d.CheckCanReward stype index = true ↔
    0 < index ∧ ∃ status, d.list[index.toNat - 1]? = some status ∧
      (stype = 0 ∧ status = .sign ∨ stype = 1 ∧ status = .diamSign) := by
  rw [Sign14Data.CheckCanReward]
  split
  · rename_i out
    refine iff_of_false nofun ?_
    rintro ⟨positive, status, here, -⟩
    obtain negative | long := out
    · omega
    · have short := (List.getElem?_eq_some_iff.mp here).1
      omega
  · rename_i inside
    rw [not_or, not_le] at inside
    cases here : d.list[index.toNat - 1]? with
    | none => simp
    | some status => simp [inside.1]

/-- The bag before and after the payment of a day. -/
def PaidBag (cfg : Sign14Table) (stype index : Int) (before after : Bag) : Prop :=
  (stype = 0 ∧ after = before) ∨
  (stype = 1 ∧ ∃ row list, cfg.rows[index.toNat - 1]? = some row ∧ row.diamonds = some list ∧
    ∀ id, before.num id - after.num id = total list id)

theorem inv_grant {stype index : Int} {row : Sign14Row} {bag : Bag} (inv : Sign14Inv cfg s)
    (here : s.data = some d) (can : d.CheckCanReward stype index = true)
    (today : dayOf cfg.zone d.refresh = dayOf cfg.zone now) (early : dayOf cfg.zone now ≤ s.lastDay cfg)
    (paid : PaidBag cfg stype index s.bag bag) :
    Sign14Inv cfg (s.grant cfg now stype index row bag).1 := by
  obtain ⟨positive, status, claim, kind⟩ := canReward_iff.mp can
  obtain ⟨d₀, saved, list, older⟩ := inv.kept d here
  have short := (List.getElem?_eq_some_iff.mp claim).1
  have unpaid : status ≠ .reward := by
    obtain ⟨-, rfl⟩ | ⟨-, rfl⟩ := kind
    · nofun
    · nofun
  rw [grant, Reward, here]
  dsimp only
  rw [if_pos can, save]
  have claimable (mem : SignStatus.sign ∈ d.list.set (index.toNat - 1) .reward) :
      SignStatus.sign ∈ d.list := (List.mem_or_eq_of_mem_set mem).resolve_right nofun
  have closed (j : Nat) (found : (d.list.set (index.toNat - 1) .reward)[j]? = some .noSign) :
      d.list[j]? = some .noSign := by
    by_cases same : index.toNat - 1 = j
    · subst same
      rw [List.getElem?_set_self short] at found
      cases found
    · exact (List.getElem?_set_ne same).symm.trans found
  have rewarded (j : Nat) (found : d.list[j]? = some .reward) :
      (d.list.set (index.toNat - 1) .reward)[j]? = some .reward := by
    by_cases same : index.toNat - 1 = j
    · subst same
      exact List.getElem?_set_self short
    · exact (List.getElem?_set_ne same).trans found
  have record (d₂ : Sign14Data) (found : some ({ d with list := d.list.set (index.toNat - 1) .reward }) =
        some d₂ ∨ some ({ d with list := d.list.set (index.toNat - 1) .reward }) = some d₂) :
      { d with list := d.list.set (index.toNat - 1) .reward } = d₂ :=
    Option.some.inj (found.elim id id)
  refine ⟨inv.clock, fun d₂ found => ?_, fun d₂ found => ?_, fun d₂ found last => ?_, ?_, ?_, ?_, ?_,
    fun on => ?_⟩
  · obtain rfl := Option.some.inj found
    exact ⟨_, rfl, rfl, le_rfl⟩
  · obtain rfl := record d₂ found
    exact inv.recent d (.inl here)
  · obtain rfl := record d₂ found
    exact fun mem => inv.lastDay d (.inl here) last (claimable mem)
  · refine ⟨fun o mem => ?_, inv.openings.days, inv.openings.increasing, inv.openings.pending⟩
    obtain ⟨d₁, found, day, before⟩ := inv.openings.seen o mem
    obtain rfl := Option.some.inj (saved.symm.trans found)
    exact ⟨_, rfl, day.trans older, fun j found => before j (list ▸ closed j found)⟩
  · refine List.forall_mem_append.mpr ⟨fun g mem => ?_, List.forall_mem_singleton.mpr ?_⟩
    · obtain ⟨d₁, found, claimed⟩ := inv.rewarded g mem
      obtain rfl := Option.some.inj (saved.symm.trans found)
      exact ⟨_, rfl, rewarded _ (list ▸ claimed)⟩
    · exact ⟨_, rfl, List.getElem?_set_self short⟩
  · rw [List.map_append, List.map_singleton, ← List.concat_eq_append, List.nodup_concat]
    refine ⟨fun again => ?_, inv.once⟩
    obtain ⟨g, mem, same⟩ := List.mem_map.mp again
    obtain ⟨d₁, found, claimed⟩ := inv.rewarded g mem
    obtain rfl := Option.some.inj (saved.symm.trans found)
    rw [list, same] at claimed
    exact unpaid (Option.some.inj (claim.symm.trans claimed))
  · refine List.forall_mem_append.mpr ⟨inv.paid, List.forall_mem_singleton.mpr ?_⟩
    have shown : (d.list[index.toNat - 1]?).getD .noSign = status := by
      rw [claim]
      rfl
    obtain ⟨rfl, rfl⟩ | ⟨rfl, rfl⟩ := kind
    · obtain ⟨-, rfl⟩ | ⟨wrong, -⟩ := paid
      · refine .inl ⟨shown, lt_of_le_of_ne early fun last => ?_, fun id => sub_self _⟩
        exact inv.lastDay d (.inl here) (today.trans last) (List.mem_of_getElem? claim)
      · cases wrong
    · obtain ⟨wrong, -⟩ | ⟨-, paid⟩ := paid
      · cases wrong
      · exact .inr ⟨shown, paid⟩
  · refine ⟨(inv.closed on).1, fun d₂ found mem => ?_⟩
    obtain rfl := Option.some.inj found
    exact (inv.closed on).2 d₀ saved (list ▸ claimable mem)

/-- A list that names no item twice is removed as a whole. -/
theorem removed_nodup {items : Items} {list : List Entry} {b : Bag} (plain : Plain items list)
    (distinct : (list.map Entry.id).Nodup) (paid : (b.removeList items now (some list) 1).2 = true)
    (id : ItemId) :
    b.num id - (b.removeList items now (some list) 1).1.num id = total list id := by
  have single : ∀ e ∈ list, total list e.id = e.num := by
    intro e mem
    have alone : (list.filter fun e' => e'.id = e.id) = [e] := Table.filter_keyed distinct mem
    rw [total, alone]
    simp
  have removed := num_removeList le_rfl plain single paid id
  omega

theorem inv_RewardSign14 {signtype index : Option Int} (inv : Sign14Inv cfg s) (at_ : s.now = now) :
    Sign14Inv cfg (s.RewardSign14 cfg signtype index now).1 := by
  unfold RewardSign14
  split
  · rename_i stype index
    split
    · exact inv
    · rename_i unexpired
      obtain ⟨inv', today⟩ := inv_Sign inv at_
      have early : dayOf cfg.zone now ≤ (s.Sign cfg now).lastDay cfg := by
        have inTime := of_decide_eq_false (Bool.eq_false_iff.mpr unexpired)
        rw [diffDayNum, GetDayDiff] at inTime
        rw [lastDay, Sign_frame.1]
        omega
      generalize s.Sign cfg now = u at inv' today early
      dsimp only
      split
      · exact inv'
      · rename_i row found
        split
        · rename_i can
          obtain ⟨d, here, can⟩ : ∃ d, u.data = some d ∧ d.CheckCanReward stype index = true := by
            cases here : u.data with
            | none =>
                rw [here] at can
                cases can
            | some d =>
                rw [here] at can
                exact ⟨d, rfl, can⟩
          obtain ⟨positive, status, -, kind⟩ := canReward_iff.mp can
          rw [if_pos positive] at found
          split
          · rename_i diam
            split
            · exact inv'
            · rename_i consumeItems diamonds
              split
              · rename_i paid
                obtain ⟨plain, distinct⟩ := cfg.plain row (List.mem_of_getElem? found) _ diamonds
                exact inv_grant inv' here can (today d here) early (.inr ⟨diam, row, consumeItems, found,
                  diamonds, removed_nodup plain distinct paid⟩)
              · exact inv_spent inv' _ _
          · rename_i other
            refine inv_grant inv' here can (today d here) early (.inl ⟨?_, rfl⟩)
            exact (kind.resolve_right fun diam => other diam.1).1
        · exact inv'
  · exact inv

theorem inv_step {e : Int × Sign14Event} (inv : Sign14Inv cfg s) (moved : s.step cfg e = some t) :
    Sign14Inv cfg t := by
  obtain ⟨now, e⟩ := e
  rw [step] at moved
  split at moved
  · rename_i le
    obtain rfl := Option.some.inj moved
    have later := inv_later inv le
    cases e with
    | UserNewDay => exact (inv_Sign later rfl).1
    | GetSign14 =>
        rw [handle, GetSign14]
        split
        · exact later
        · exact (inv_Sign later rfl).1
    | RewardSign14 signtype index => exact inv_RewardSign14 later rfl
    | restart =>
        have dropped := inv_dropped later
        have same := (view_eq later).trans (view_eq dropped).symm
        rw [handle, same]
        exact (inv_Sign dropped rfl).1
    | spend bag => exact inv_spent later bag _
  · cases moved

theorem inv_start (cfg : Sign14Table) (firstLoginDt : Nat) (bag : Bag) :
    Sign14Inv cfg (start firstLoginDt bag) where
  clock := ⟨Int.natCast_nonneg _, le_rfl⟩
  kept _ here := nomatch here
  recent _ here := nomatch here
  lastDay _ here := nomatch here
  openings := ⟨nofun, .nil, .nil, nofun⟩
  rewarded := nofun
  once := .nil
  paid := nofun
  closed := nofun

end Steps

section Runs
variable {cfg : Sign14Table} {s : Sign14} {es : List (Int × Sign14Event)} {firstLoginDt : Nat} {bag : Bag}

theorem run_sign14 (run : Run (step cfg) anyStep (start firstLoginDt bag) es s) :
    SignedInOrder cfg s := by
  have inv := run.invariant (Sign14Inv cfg) (inv_start cfg firstLoginDt bag) fun _ _ _ inv _ moved =>
    inv_step inv moved
  refine ⟨inv.openings.days, inv.openings.increasing, inv.openings.pending, inv.once, inv.paid,
    fun on => ?_⟩
  rw [view_eq inv]
  cases saved : s.saved with
  | none => exact List.not_mem_nil
  | some d => exact (inv.closed on).2 d saved

/-- The first three days of the table. -/
def sign14Table : Sign14Table where
  zone := 28800
  DayNum := 4
  rows :=
    [⟨[⟨10002, 500000⟩], some [⟨10001, 1⟩]⟩, ⟨[⟨115001, 500⟩], some [⟨10001, 1⟩]⟩,
      ⟨[⟨225007, 1⟩], some [⟨10001, 5⟩]⟩]
  tables := runeTables
  plain := by
    intro row mem list diamonds
    obtain ⟨n, positive, rfl⟩ : ∃ n : Int, 0 ≤ n ∧ list = [⟨10001, n⟩] := by
      simp only [List.mem_cons, List.not_mem_nil, or_false] at mem
      obtain rfl | rfl | rfl := mem
      · exact ⟨1, by decide, (Option.some.inj diamonds).symm⟩
      · exact ⟨1, by decide, (Option.some.inj diamonds).symm⟩
      · exact ⟨5, by decide, (Option.some.inj diamonds).symm⟩
    exact ⟨List.forall_mem_singleton.mpr ⟨⟨.unset, rfl, nofun⟩, positive⟩, List.nodup_singleton _⟩

/-- Two days are claimed as they open, and the third is bought on the last day. -/
theorem run_sign14_bought : ∃ s, Run (step sign14Table) anyStep (start 864000 ⟨0, 8, 0, fun _ => none⟩)
    [(864000, .restart), (864000, .RewardSign14 (some 0) (some 1)), (954000, .UserNewDay),
      (954001, .RewardSign14 (some 0) (some 2)), (1124000, .restart),
      (1124000, .RewardSign14 (some 1) (some 3))] s ∧
    (s.opened.map Opening.index = [1, 2] ∧ s.granted.map Sign14Grant.index = [1, 2, 3] ∧
      s.bag.diamond = 3) ∧ SignedInOrder sign14Table s := by
  obtain ⟨s, run, shown⟩ := run_of_exec_any (step sign14Table) (start 864000 ⟨0, 8, 0, fun _ => none⟩)
    [(864000, .restart), (864000, .RewardSign14 (some 0) (some 1)), (954000, .UserNewDay),
      (954001, .RewardSign14 (some 0) (some 2)), (1124000, .restart),
      (1124000, .RewardSign14 (some 1) (some 3))]
    (fun s => s.opened.map Opening.index = [1, 2] ∧ s.granted.map Sign14Grant.index = [1, 2, 3] ∧
      s.bag.diamond = 3) (by decide)
  exact ⟨s, run, shown, run_sign14 run⟩

end Runs

end Sign14

end HuluLandlord.Agent
