import HuluLandlord.Agent.UserItem
import HuluLandlord.Calendar
import HuluLandlord.Define
import HuluLandlord.Table
import HuluLandlord.Transition

/-!
The sign-in calendar of a user. A day is signed on itself, by a patch later in its month, or once
more by a video, and the number of days brings progress rewards. All of it starts anew with a month.
The user's VIP row and runes belong to other modules, and a request is given what it reads of them.
-/
namespace HuluLandlord.Agent
open Calendar Table Transition

/-- A row of `cfg_sign_in`. -/
structure SignInRow where
  sign_rewards : List Entry
  continuous_sign_rewards : List Entry
  deriving DecidableEq

/-- `cfg_sign_in` has a row for each day, and `maxct` is the global value 106001. -/
structure SignInTable where
  zone : Int
  maxct : Nat
  rows : List SignInRow
  full : rows.length = 31

structure SignInData where
  patchcount : Nat
  video3count : Nat
  signlog : List Int
  progressawardtakelog : List Int
  optime : Int
  video3At : Int
  deriving DecidableEq, Repr

inductive SignKind
  | normal | patch | video3
  deriving DecidableEq, Repr

/-- A reward handed out for a day, with the VIP and the rune rate it was raised by. -/
structure Signing where
  time : Int
  kind : SignKind
  day : Int
  vipadd : Int
  goldRate : Int
  items : List Entry
  deriving DecidableEq, Repr

structure ProgressTake where
  time : Int
  awardid : Int
  deriving DecidableEq, Repr

/-- `stored` is the row of `UserSignInTable`, and `clock` the time of the last request. -/
structure SignIn where
  mData : SignInData
  stored : SignInData
  clock : Int
  signings : List Signing
  takes : List ProgressTake
  deriving DecidableEq

inductive SignInEvent
  | login
  | SignIn_GetInfo (now : Int)
  | SignIn_Sign (now : Int) (ispatch isvideo3 : Bool) (patchday : Option Int) (vipadd goldRate : Int)
  | SignIn_TakeProgressAward (now : Int) (awardid : Option Int)
  deriving DecidableEq, Repr

def SignKind.mult : SignKind → Int
  | .video3 => 3
  | .normal | .patch => 1

namespace SignInTable
variable (cfg : SignInTable)

def row (day : Int) : Option SignInRow :=
  if 1 ≤ day then cfg.rows[(day - 1).toNat]? else none

end SignInTable

/-- The VIP rate raises the first entry of coins. -/
def raiseGold (vipadd : Int) : List Entry → List Entry
  | [] => []
  | item :: awards =>
      if item.id = itemGold then ⟨item.id, item.num + item.num * vipadd / 10000⟩ :: awards
      else item :: raiseGold vipadd awards

def runeGold (goldRate : Int) (awards : List Entry) : List Entry :=
  if goldRate > 0 then
    match awards.find? fun value => value.id = itemGold with
    | some goldItem =>
        let num := goldItem.num * goldRate / 10000
        if num > 0 then [⟨goldItem.id, num⟩] else []
    | none => []
  else []

/-- What `SignIn_Sign` adds to the bag. -/
def signItems (sign_rewards : List Entry) (mult vipadd goldRate : Int) : List Entry :=
  let awards := raiseGold vipadd sign_rewards
  awards.map (fun item => ⟨item.id, item.num * mult⟩) ++ runeGold goldRate awards

namespace SignInData
variable (cfg : SignInTable)

def InitData (now : Int) : SignInData := ⟨0, 0, [], [], now, now⟩

def IsSigned (m : SignInData) (day : Int) : Bool := day ∈ m.signlog

def IsTaked (m : SignInData) (awardid : Int) : Bool := awardid ∈ m.progressawardtakelog

def IsNextMonth (m : SignInData) (now : Int) : Bool :=
  (date cfg.zone m.optime).month ≠ (date cfg.zone now).month

def IsNextDay (m : SignInData) (now : Int) : Bool :=
  date cfg.zone m.video3At ≠ date cfg.zone now

/-- The checks of `SignIn_Sign`: what is signed, and for which day. -/
def signKind (m : SignInData) (now : Int) (ispatch isvideo3 : Bool) (patchday : Option Int) :
    Except RetVal (SignKind × Int) :=
  let day := (date cfg.zone now).day
  if ispatch then
    if m.patchcount ≥ cfg.maxct then .error .fail_2
    else
      match patchday with
      | none => .error .error_3
      | some patchday =>
          if patchday < 0 ∨ patchday ≥ day then .error .error_3
          else if m.IsSigned patchday then .error .exists_4
          else .ok (.patch, patchday)
  else if isvideo3 then
    if m.IsSigned day = false then .error .notExists_5
    else if m.video3count ≥ 1 then .error .noUse_8
    else .ok (.video3, day)
  else if m.IsSigned day then .error .exists_4
  else .ok (.normal, day)

def log (m : SignInData) : SignKind × Int → SignInData
  | (.normal, day) => { m with signlog := m.signlog ++ [day] }
  | (.patch, day) => { m with patchcount := m.patchcount + 1, signlog := m.signlog ++ [day] }
  | (.video3, _) => { m with video3count := m.video3count + 1 }

/-- The checks of `SignIn_TakeProgressAward`. -/
def takeCheck (m : SignInData) (awardid : Option Int) : Except RetVal Int :=
  match awardid with
  | none => .error .error_3
  | some awardid =>
      if awardid < 1 ∨ awardid > cfg.rows.length then .error .error_3
      else if ((cfg.row awardid).elim [] SignInRow.continuous_sign_rewards).length < 1 then
        .error .fail_2
      else if m.signlog.length < awardid then .error .lack_6
      else if m.IsTaked awardid then .error .exists_4
      else .ok awardid

end SignInData

namespace SignIn
variable (cfg : SignInTable)

def save (s : SignIn) (m : SignInData) : SignIn := { s with mData := m, stored := m }

def NextMonth (s : SignIn) (now : Int) : SignIn := s.save (.InitData now)

def NextDay (s : SignIn) (now : Int) : SignIn :=
  s.save { s.mData with video3count := 0, video3At := now }

def SignIn_GetInfo (s : SignIn) (now : Int) : SignIn × Option RetVal :=
  let s := if s.mData.IsNextMonth cfg now then s.NextMonth now else s
  let s := if s.mData.IsNextDay cfg now then s.NextDay now else s
  (s, some .succeed_1)

/-- The table is read once the log is saved. A day it has no row for raises, and `none` is answered. -/
def SignIn_Sign (s : SignIn) (now : Int) (ispatch isvideo3 : Bool) (patchday : Option Int)
    (vipadd goldRate : Int) : SignIn × Option RetVal :=
  if s.mData.IsNextMonth cfg now then (s.NextMonth now, some .error_3)
  else
    match s.mData.signKind cfg now ispatch isvideo3 patchday with
    | .error e => (s, some e)
    | .ok signed =>
        let s := s.save (s.mData.log signed)
        match cfg.row signed.2 with
        | none => (s, none)
        | some row =>
            let items := signItems row.sign_rewards signed.1.mult vipadd goldRate
            ({ s with
              signings := s.signings ++ [⟨now, signed.1, signed.2, vipadd, goldRate, items⟩] },
              some .succeed_1)

def SignIn_TakeProgressAward (s : SignIn) (now : Int) (awardid : Option Int) :
    SignIn × Option RetVal :=
  if s.mData.IsNextMonth cfg now then (s.NextMonth now, some .error_3)
  else
    match s.mData.takeCheck cfg awardid with
    | .error e => (s, some e)
    | .ok awardid =>
        let s := s.save { s.mData with
          progressawardtakelog := s.mData.progressawardtakelog ++ [awardid] }
        ({ s with takes := s.takes ++ [⟨now, awardid⟩] }, some .succeed_1)

/-- A request and its answer. -/
def request (s : SignIn) : SignInEvent → SignIn × Option RetVal
  | .login => ({ s with mData := s.stored }, some .succeed_1)
  | .SignIn_GetInfo now => s.SignIn_GetInfo cfg now
  | .SignIn_Sign now ispatch isvideo3 patchday vipadd goldRate =>
      s.SignIn_Sign cfg now ispatch isvideo3 patchday vipadd goldRate
  | .SignIn_TakeProgressAward now awardid => s.SignIn_TakeProgressAward cfg now awardid

end SignIn

def SignInEvent.now (clock : Int) : SignInEvent → Int
  | .login => clock
  | .SignIn_GetInfo now => now
  | .SignIn_Sign now .. => now
  | .SignIn_TakeProgressAward now _ => now

namespace SignIn
variable (cfg : SignInTable)

/-- Time does not go back. -/
def step (s : SignIn) (e : SignInEvent) : Option SignIn :=
  if s.clock ≤ e.now s.clock then some { (s.request cfg e).1 with clock := e.now s.clock } else none

/-- A new user, logged in at `now`. -/
def start (now : Int) : SignIn := ⟨.InitData now, .InitData now, now, [], []⟩

end SignIn

/-- The rewards for days of a month, those by video aside. -/
def Signing.ofMonth (zone month : Int) (g : Signing) : Bool :=
  g.kind ≠ .video3 ∧ monthAt zone g.time = month

/-- The log is what was signed in this month; each of its days brought its reward once, a video
three times as much once a day; patches and progress rewards are within their limits. -/
structure SignInStep (cfg : SignInTable) (s : SignIn) : Prop where
  log : s.mData.signlog =
    (s.signings.filter (Signing.ofMonth cfg.zone (monthAt cfg.zone s.clock))).map Signing.day
  distinct : s.mData.signlog.Nodup
  past : ∀ d ∈ s.mData.signlog, 1 ≤ d ∧ d ≤ (date cfg.zone s.clock).day
  rewards : ∀ g ∈ s.signings, ∃ row, cfg.row g.day = some row ∧
    g.items = signItems row.sign_rewards g.kind.mult g.vipadd g.goldRate
  once : ((s.signings.filter fun g => g.kind ≠ .video3).map
    fun g => (monthAt cfg.zone g.time, g.day)).Nodup
  video : ((s.signings.filter fun g => g.kind = .video3).map fun g => date cfg.zone g.time).Nodup
  patched : ∀ month, (s.signings.filter
    fun g => g.kind = .patch ∧ monthAt cfg.zone g.time = month).length ≤ cfg.maxct
  taken : (s.takes.map fun g => (monthAt cfg.zone g.time, g.awardid)).Nodup
  enough : ∀ g ∈ s.takes, g.awardid ≤
    (s.signings.filter (Signing.ofMonth cfg.zone (monthAt cfg.zone g.time))).length

/-- What a request that is not answered with success leaves: everything, or an empty log where the
month has changed. -/
def SignIn.Kept (cfg : SignInTable) (s : SignIn) (now : Int) (m : SignInData) : Prop :=
  m = s.mData ∨ monthAt cfg.zone s.clock ≠ monthAt cfg.zone now ∧ m = .InitData now

/-- Two requests of one month of different years have nothing logged between them. -/
def SignIn.SameYear (cfg : SignInTable) (s : SignIn) (now : Int) : Prop :=
  (date cfg.zone s.clock).month = (date cfg.zone now).month →
    (date cfg.zone s.clock).year = (date cfg.zone now).year ∨ s.mData.signlog = []

/-- No patch for the day 0 gets to the log, no month is taken for that of another year, and a video
does not come before the day's first `SignIn_GetInfo`. -/
def SignIn.Regular (cfg : SignInTable) (s : SignIn) : SignInEvent → Prop
  | .login => True
  | .SignIn_GetInfo now => s.SameYear cfg now ∧ (s.mData.IsNextDay cfg now →
      ∀ g ∈ s.signings, g.kind = .video3 → date cfg.zone g.time ≠ date cfg.zone now)
  | .SignIn_Sign now ispatch _ patchday _ _ => s.SameYear cfg now ∧
      (ispatch → patchday = some 0 → s.mData.patchcount ≥ cfg.maxct)
  | .SignIn_TakeProgressAward now _ => s.SameYear cfg now

theorem SignInTable.row_of {cfg : SignInTable} {day : Int} (within : 1 ≤ day ∧ day ≤ 31) :
    ∃ row, cfg.row day = some row := by
  rw [row, if_pos within.1]
  have inside : (day - 1).toNat < cfg.rows.length := by
    rw [cfg.full]
    omega
  exact ⟨_, List.getElem?_eq_getElem inside⟩

namespace SignIn

/-- What keeps `SignInStep`: the counters and the taken rewards are those of the month of the last
request, which `optime` names but for the year, and today's video is counted. -/
structure SignInInv (cfg : SignInTable) (s : SignIn) : Prop extends SignInStep cfg s where
  stored : s.stored = s.mData
  month : (date cfg.zone s.mData.optime).month = (date cfg.zone s.clock).month
  timed : ∀ g ∈ s.signings, g.time ≤ s.clock
  takenTimed : ∀ g ∈ s.takes, g.time ≤ s.clock
  positive : ∀ g ∈ s.takes, 1 ≤ g.awardid
  patchcount : s.mData.patchcount = (s.signings.filter
    fun g => g.kind = .patch ∧ monthAt cfg.zone g.time = monthAt cfg.zone s.clock).length
  progress : s.mData.progressawardtakelog =
    (s.takes.filter fun g => monthAt cfg.zone g.time = monthAt cfg.zone s.clock).map
      ProgressTake.awardid
  spent : ∀ g ∈ s.signings, g.kind = .video3 →
    date cfg.zone g.time = date cfg.zone s.clock → 1 ≤ s.mData.video3count

section Clock
variable {cfg : SignInTable} {s : SignIn} {m : SignInData} {now : Int}

/-- Nothing was signed or taken yet in a month that comes after the last request's. -/
theorem SignInInv.fresh (inv : SignInInv cfg s) (le : s.clock ≤ now)
    (other : monthAt cfg.zone s.clock ≠ monthAt cfg.zone now) :
    (∀ g ∈ s.signings, monthAt cfg.zone g.time ≠ monthAt cfg.zone now) ∧
      ∀ g ∈ s.takes, monthAt cfg.zone g.time ≠ monthAt cfg.zone now :=
  ⟨fun g mem same => other (monthAt_between (inv.timed g mem) le same),
    fun g mem same => other (monthAt_between (inv.takenTimed g mem) le same)⟩

/-- The clock moves to another month, with nothing counted. -/
theorem inv_clear (inv : SignInInv cfg s) (le : s.clock ≤ now)
    (other : monthAt cfg.zone s.clock ≠ monthAt cfg.zone now)
    (month : (date cfg.zone m.optime).month = (date cfg.zone now).month) (log : m.signlog = [])
    (patchcount : m.patchcount = 0) (progress : m.progressawardtakelog = []) :
    SignInInv cfg { s with mData := m, stored := m, clock := now } := by
  obtain ⟨none_, none_'⟩ := inv.fresh le other
  have cleared : s.signings.filter (Signing.ofMonth cfg.zone (monthAt cfg.zone now)) = [] := by
    refine List.filter_eq_nil_iff.mpr fun g mem => ?_
    rw [Signing.ofMonth, decide_eq_true_eq]
    exact fun of => none_ g mem of.2
  have unpatched : (s.signings.filter
      fun g => g.kind = .patch ∧ monthAt cfg.zone g.time = monthAt cfg.zone now) = [] := by
    refine List.filter_eq_nil_iff.mpr fun g mem => ?_
    rw [decide_eq_true_eq]
    exact fun of => none_ g mem of.2
  have untaken : (s.takes.filter fun g => monthAt cfg.zone g.time = monthAt cfg.zone now) = [] := by
    refine List.filter_eq_nil_iff.mpr fun g mem => ?_
    rw [decide_eq_true_eq]
    exact none_' g mem
  refine ⟨⟨?_, ?_, ?_, inv.rewards, inv.once, inv.video, inv.patched, inv.taken, inv.enough⟩, rfl,
    month, fun g mem => (inv.timed g mem).trans le, fun g mem => (inv.takenTimed g mem).trans le,
    inv.positive, ?_, ?_, fun g mem _ same => absurd (monthAt_of_date same) (none_ g mem)⟩
  · simp only [log, cleared, List.map_nil]
  · simp only [log, List.nodup_nil]
  · simp only [log]
    exact fun _ mem => (nomatch mem)
  · simp only [patchcount, unpatched, List.length_nil]
  · simp only [progress, untaken, List.map_nil]

/-- The clock moves on within a month. -/
theorem inv_same (inv : SignInInv cfg s) (le : s.clock ≤ now)
    (same : monthAt cfg.zone s.clock = monthAt cfg.zone now) :
    SignInInv cfg { s with clock := now } := by
  refine ⟨⟨?_, inv.distinct, fun d mem => ?_, inv.rewards, inv.once, inv.video, inv.patched,
    inv.taken, inv.enough⟩, inv.stored, ?_, fun g mem => (inv.timed g mem).trans le,
    fun g mem => (inv.takenTimed g mem).trans le, inv.positive, ?_, ?_, fun g mem kind today => ?_⟩
  · rw [← same]
    exact inv.log
  · exact ⟨(inv.past d mem).1, (inv.past d mem).2.trans (date_day_le le same)⟩
  · exact inv.month.trans (monthAt_iff.mpr same).2
  · rw [← same]
    exact inv.patchcount
  · rw [← same]
    exact inv.progress
  · have between := date_between (inv.timed g mem) le today
    exact inv.spent g mem kind (today.trans between.symm)

theorem inv_empty (inv : SignInInv cfg s) (empty : s.mData.signlog = []) :
    s.mData.patchcount = 0 ∧ s.mData.progressawardtakelog = [] := by
  have none_ : s.signings.filter (Signing.ofMonth cfg.zone (monthAt cfg.zone s.clock)) = [] :=
    List.map_eq_nil_iff.mp (inv.log.symm.trans empty)
  constructor
  · rw [inv.patchcount, List.length_eq_zero_iff]
    refine List.filter_eq_nil_iff.mpr fun g mem => ?_
    rw [decide_eq_true_eq]
    intro of
    have no := List.filter_eq_nil_iff.mp none_ g mem
    rw [Signing.ofMonth, decide_eq_true_eq, of.1] at no
    exact no ⟨nofun, of.2⟩
  · rw [inv.progress, List.map_eq_nil_iff]
    refine List.filter_eq_nil_iff.mpr fun g mem => ?_
    rw [decide_eq_true_eq]
    intro of
    have least := inv.positive g mem
    have most := inv.enough g mem
    rw [of, none_] at most
    simp only [List.length_nil, Nat.cast_zero] at most
    omega

theorem nextMonth_other (inv : SignInInv cfg s) (next : s.mData.IsNextMonth cfg now = true) :
    monthAt cfg.zone s.clock ≠ monthAt cfg.zone now := by
  rw [SignInData.IsNextMonth, decide_eq_true_eq] at next
  exact fun same => next (inv.month.trans (monthAt_iff.mpr same).2)

/-- The first thing every request does. -/
theorem inv_month (inv : SignInInv cfg s) (le : s.clock ≤ now) (year : s.SameYear cfg now) :
    SignInInv cfg
      { (if s.mData.IsNextMonth cfg now then s.NextMonth now else s) with clock := now } := by
  split
  · rename_i next
    have other := nextMonth_other inv next
    have cleared := @inv_clear cfg s (.InitData now) now inv le other rfl rfl rfl rfl
    exact cleared
  · rename_i here
    rw [SignInData.IsNextMonth, decide_eq_true_eq, not_not] at here
    by_cases same : monthAt cfg.zone s.clock = monthAt cfg.zone now
    · exact inv_same inv le same
    · have month := inv.month.symm.trans here
      obtain year | empty := year month
      · exact absurd (monthAt_iff.mp ⟨year, month⟩) same
      · obtain ⟨patchcount, progress⟩ := inv_empty inv empty
        have cleared := @inv_clear cfg s s.mData now inv le same here empty patchcount progress
        cases s with
        | mk mData stored clock signings takes =>
            obtain rfl : stored = mData := inv.stored
            exact cleared

end Clock

section Requests
variable {cfg : SignInTable} {s s' : SignIn} {now : Int} {ispatch isvideo3 : Bool}
  {patchday awardid : Option Int} {vipadd goldRate : Int} {signed : SignKind × Int}
  {items : List Entry} {row : SignInRow} {e : SignInEvent}

/-- What passes the checks: a day before today or today that is not in the log, or today's video. -/
theorem signKind_ok (passed : s.mData.signKind cfg now ispatch isvideo3 patchday = .ok signed) :
    (signed.1 = .patch ∧ ispatch = true ∧ patchday = some signed.2 ∧
      s.mData.patchcount < cfg.maxct ∧ 0 ≤ signed.2 ∧ signed.2 < (date cfg.zone now).day ∧
      signed.2 ∉ s.mData.signlog) ∨
    (signed.1 = .video3 ∧ signed.2 = (date cfg.zone now).day ∧ s.mData.video3count = 0) ∨
    (signed.1 = .normal ∧ signed.2 = (date cfg.zone now).day ∧ signed.2 ∉ s.mData.signlog) := by
  simp only [SignInData.signKind] at passed
  split at passed
  · rename_i patch
    split at passed
    · cases passed
    · rename_i room
      cases patchday with
      | none => cases passed
      | some day =>
          simp only at passed
          split at passed
          · cases passed
          · rename_i range
            split at passed
            · cases passed
            · rename_i fresh
              obtain rfl := Except.ok.inj passed
              rw [SignInData.IsSigned, decide_eq_true_eq] at fresh
              rw [not_or, not_lt, ge_iff_le, not_le] at range
              exact .inl ⟨rfl, patch, rfl, not_le.mp room, range.1, range.2, fresh⟩
  · split at passed
    · split at passed
      · cases passed
      · split at passed
        · cases passed
        · rename_i unused
          obtain rfl := Except.ok.inj passed
          exact .inr (.inl ⟨rfl, rfl, Nat.lt_one_iff.mp (not_le.mp unused)⟩)
    · split at passed
      · cases passed
      · rename_i fresh
        obtain rfl := Except.ok.inj passed
        rw [SignInData.IsSigned, decide_eq_true_eq] at fresh
        exact .inr (.inr ⟨rfl, rfl, fresh⟩)

theorem takeCheck_ok {n : Int} (passed : s.mData.takeCheck cfg awardid = .ok n) :
    1 ≤ n ∧ n ≤ s.mData.signlog.length ∧ n ∉ s.mData.progressawardtakelog := by
  rw [SignInData.takeCheck.eq_def] at passed
  cases awardid with
  | none => cases passed
  | some awardid =>
      simp only at passed
      split at passed
      · cases passed
      · rename_i range
        split at passed
        · cases passed
        · split at passed
          · cases passed
          · rename_i enough
            split at passed
            · cases passed
            · rename_i fresh
              obtain rfl := Except.ok.inj passed
              rw [SignInData.IsTaked, decide_eq_true_eq] at fresh
              rw [not_or, not_lt] at range
              exact ⟨range.1, not_lt.mp enough, fresh⟩

/-- What a regular request signs is a day of the calendar. -/
theorem signKind_day
    (regular : s.Regular cfg (.SignIn_Sign now ispatch isvideo3 patchday vipadd goldRate))
    (passed : s.mData.signKind cfg now ispatch isvideo3 patchday = .ok signed) :
    1 ≤ signed.2 ∧ signed.2 ≤ 31 := by
  have today := civil_day (dayOf cfg.zone now)
  obtain ⟨_, patch, same, room, least, before, _⟩ | ⟨_, here, _⟩ | ⟨_, here, _⟩ := signKind_ok passed
  · have positive : signed.2 ≠ 0 := fun zero =>
      absurd room (not_lt.mpr (regular.2 patch (zero ▸ same)))
    exact ⟨by omega, before.le.trans today.2⟩
  · exact here ▸ today
  · exact here ▸ today

theorem inv_patched (inv : SignInInv cfg s) : s.mData.patchcount ≤ cfg.maxct :=
  inv.patchcount.le.trans (inv.patched _)

/-- A day is logged, by itself or as a patch. -/
theorem inv_logged {day : Int} {kind : SignKind} {patchcount : Nat} (inv : SignInInv cfg s)
    (other : kind ≠ .video3) (past : 1 ≤ day ∧ day ≤ (date cfg.zone s.clock).day)
    (fresh : day ∉ s.mData.signlog) (found : cfg.row day = some row)
    (count : patchcount = s.mData.patchcount + if kind = .patch then 1 else 0)
    (room : patchcount ≤ cfg.maxct) :
    SignInInv cfg { s with
      mData := { s.mData with patchcount := patchcount, signlog := s.mData.signlog ++ [day] }
      stored := { s.mData with patchcount := patchcount, signlog := s.mData.signlog ++ [day] }
      signings := s.signings ++ [⟨s.clock, kind, day, vipadd, goldRate,
        signItems row.sign_rewards kind.mult vipadd goldRate⟩] } := by
  refine ⟨⟨?_, ?_, ?_, ?_, ?_, ?_, ?_, inv.taken, ?_⟩, rfl, inv.month, ?_, inv.takenTimed,
    inv.positive, ?_, inv.progress, ?_⟩
  · simp only
    rw [filter_snoc_pos, List.map_append, ← inv.log]
    · rfl
    · exact decide_eq_true ⟨other, rfl⟩
  · exact List.concat_eq_append ▸ (List.nodup_concat _ _).mpr ⟨fresh, inv.distinct⟩
  · intro d mem
    obtain mem | mem := List.mem_append.mp mem
    · exact inv.past d mem
    · exact List.mem_singleton.mp mem ▸ past
  · intro g mem
    obtain mem | mem := List.mem_append.mp mem
    · exact inv.rewards g mem
    · obtain rfl := List.mem_singleton.mp mem
      exact ⟨row, found, rfl⟩
  · simp only
    rw [filter_snoc_pos, nodup_map_snoc]
    · refine ⟨fun mem => ?_, inv.once⟩
      obtain ⟨g, mem, same⟩ := List.mem_map.mp mem
      obtain ⟨mem, plain⟩ := List.mem_filter.mp mem
      obtain ⟨month, same⟩ := Prod.mk.inj same
      refine fresh (inv.log ▸ List.mem_map.mpr ⟨g, List.mem_filter.mpr ⟨mem, ?_⟩, same⟩)
      exact decide_eq_true ⟨of_decide_eq_true plain, month⟩
    · exact decide_eq_true other
  · simp only
    rw [filter_snoc_neg]
    · exact inv.video
    · exact fun video => other (of_decide_eq_true video)
  · intro month
    simp only
    by_cases here : kind = .patch ∧ monthAt cfg.zone s.clock = month
    · rw [filter_snoc_pos, List.length_append, ← here.2, ← inv.patchcount]
      · rw [count, if_pos here.1] at room
        exact room
      · exact decide_eq_true here
    · rw [filter_snoc_neg]
      · exact inv.patched month
      · exact fun of => here (of_decide_eq_true of)
  · intro g mem
    refine (inv.enough g mem).trans ?_
    simp only [List.filter_append, List.length_append]
    omega
  · intro g mem
    obtain mem | mem := List.mem_append.mp mem
    · exact inv.timed g mem
    · obtain rfl := List.mem_singleton.mp mem
      exact le_refl _
  · simp only
    rw [count, inv.patchcount]
    by_cases patch : kind = .patch
    · rw [filter_snoc_pos, List.length_append, if_pos patch]
      · rfl
      · exact decide_eq_true ⟨patch, rfl⟩
    · rw [filter_snoc_neg, if_neg patch]
      · exact Nat.add_zero _
      · exact fun of => patch (of_decide_eq_true of).1
  · intro g mem video
    obtain mem | mem := List.mem_append.mp mem
    · exact inv.spent g mem video
    · obtain rfl := List.mem_singleton.mp mem
      exact absurd video other

/-- A day is signed once more by a video. -/
theorem inv_video {day : Int} (inv : SignInInv cfg s) (unused : s.mData.video3count = 0)
    (found : cfg.row day = some row) :
    SignInInv cfg { s with
      mData := { s.mData with video3count := s.mData.video3count + 1 }
      stored := { s.mData with video3count := s.mData.video3count + 1 }
      signings := s.signings ++ [⟨s.clock, .video3, day, vipadd, goldRate,
        signItems row.sign_rewards (SignKind.video3).mult vipadd goldRate⟩] } := by
  refine ⟨⟨?_, inv.distinct, inv.past, ?_, ?_, ?_, ?_, inv.taken, ?_⟩, rfl, inv.month, ?_,
    inv.takenTimed, inv.positive, ?_, inv.progress, fun _ _ _ _ => Nat.le_add_left 1 _⟩
  · simp only
    rw [filter_snoc_neg]
    · exact inv.log
    · exact fun of => (of_decide_eq_true of).1 rfl
  · intro g mem
    obtain mem | mem := List.mem_append.mp mem
    · exact inv.rewards g mem
    · obtain rfl := List.mem_singleton.mp mem
      exact ⟨row, found, rfl⟩
  · simp only
    rw [filter_snoc_neg]
    · exact inv.once
    · exact fun other => (of_decide_eq_true other) rfl
  · simp only
    rw [filter_snoc_pos, nodup_map_snoc]
    · refine ⟨fun mem => ?_, inv.video⟩
      obtain ⟨g, mem, same⟩ := List.mem_map.mp mem
      obtain ⟨mem, video⟩ := List.mem_filter.mp mem
      have counted := inv.spent g mem (of_decide_eq_true video) same
      omega
    · rfl
  · intro month
    simp only
    rw [filter_snoc_neg]
    · exact inv.patched month
    · exact fun of => SignKind.noConfusion (of_decide_eq_true of).1
  · intro g mem
    refine (inv.enough g mem).trans ?_
    simp only [List.filter_append, List.length_append]
    omega
  · intro g mem
    obtain mem | mem := List.mem_append.mp mem
    · exact inv.timed g mem
    · obtain rfl := List.mem_singleton.mp mem
      exact le_refl _
  · simp only
    rw [filter_snoc_neg]
    · exact inv.patchcount
    · exact fun of => SignKind.noConfusion (of_decide_eq_true of).1

theorem inv_take {n : Int} (inv : SignInInv cfg s) (positive : 1 ≤ n)
    (enough : n ≤ s.mData.signlog.length) (fresh : n ∉ s.mData.progressawardtakelog) :
    SignInInv cfg { s with
      mData := { s.mData with progressawardtakelog := s.mData.progressawardtakelog ++ [n] }
      stored := { s.mData with progressawardtakelog := s.mData.progressawardtakelog ++ [n] }
      takes := s.takes ++ [⟨s.clock, n⟩] } := by
  refine ⟨⟨inv.log, inv.distinct, inv.past, inv.rewards, inv.once, inv.video, inv.patched, ?_, ?_⟩,
    rfl, inv.month, inv.timed, ?_, ?_, inv.patchcount, ?_, inv.spent⟩
  · simp only
    rw [nodup_map_snoc]
    refine ⟨fun mem => ?_, inv.taken⟩
    obtain ⟨g, mem, same⟩ := List.mem_map.mp mem
    obtain ⟨month, same⟩ := Prod.mk.inj same
    refine fresh (inv.progress ▸ List.mem_map.mpr ⟨g, List.mem_filter.mpr ⟨mem, ?_⟩, same⟩)
    exact decide_eq_true month
  · intro g mem
    obtain mem | mem := List.mem_append.mp mem
    · exact inv.enough g mem
    · obtain rfl := List.mem_singleton.mp mem
      rw [inv.log, List.length_map] at enough
      exact enough
  · intro g mem
    obtain mem | mem := List.mem_append.mp mem
    · exact inv.takenTimed g mem
    · obtain rfl := List.mem_singleton.mp mem
      exact le_refl _
  · intro g mem
    obtain mem | mem := List.mem_append.mp mem
    · exact inv.positive g mem
    · obtain rfl := List.mem_singleton.mp mem
      exact positive
  · simp only
    rw [filter_snoc_pos, List.map_append, ← inv.progress]
    · rfl
    · exact decide_eq_true rfl

/-- The day's first look renews the video, which nobody used yet. -/
theorem inv_NextDay (inv : SignInInv cfg s)
    (unused : ∀ g ∈ s.signings, g.kind = .video3 → date cfg.zone g.time ≠ date cfg.zone s.clock) :
    SignInInv cfg (s.NextDay s.clock) :=
  ⟨⟨inv.log, inv.distinct, inv.past, inv.rewards, inv.once, inv.video, inv.patched, inv.taken,
    inv.enough⟩, rfl, inv.month, inv.timed, inv.takenTimed, inv.positive, inv.patchcount,
    inv.progress, fun g mem video today => absurd today (unused g mem video)⟩

theorem inv_GetInfo (inv : SignInInv cfg s) (le : s.clock ≤ now)
    (regular : s.Regular cfg (.SignIn_GetInfo now)) :
    SignInInv cfg { (s.SignIn_GetInfo cfg now).1 with clock := now } := by
  have turned := inv_month inv le regular.1
  rw [SignIn_GetInfo]
  simp only
  split at turned
  · rename_i next
    rw [if_pos next]
    split
    · rename_i day
      exact absurd rfl (of_decide_eq_true day)
    · exact turned
  · rename_i here
    rw [if_neg here]
    split
    · rename_i day
      exact inv_NextDay turned (regular.2 day)
    · exact turned

theorem inv_Sign (inv : SignInInv cfg s) (le : s.clock ≤ now)
    (regular : s.Regular cfg (.SignIn_Sign now ispatch isvideo3 patchday vipadd goldRate)) :
    SignInInv cfg
      { (s.SignIn_Sign cfg now ispatch isvideo3 patchday vipadd goldRate).1 with clock := now } := by
  have turned := inv_month inv le regular.1
  rw [SignIn_Sign]
  split at turned
  · rename_i next
    rw [if_pos next]
    exact turned
  · rename_i here
    rw [if_neg here]
    split
    · exact turned
    · rename_i signed passed
      have today := civil_day (dayOf cfg.zone now)
      obtain ⟨row, found⟩ := cfg.row_of (signKind_day regular passed)
      simp only [found]
      obtain ⟨kind, day⟩ := signed
      obtain ⟨rfl, _, _, room, _, before, fresh⟩ | ⟨rfl, here, unused⟩ | ⟨rfl, here, fresh⟩ :=
        signKind_ok passed
      · exact inv_logged turned nofun ⟨(signKind_day regular passed).1, before.le⟩ fresh found rfl room
      · exact inv_video turned unused found
      · have within := inv_patched turned
        exact inv_logged turned nofun ⟨today.1.trans here.symm.le, here.le⟩ fresh found rfl
          within

theorem inv_TakeProgressAward (inv : SignInInv cfg s) (le : s.clock ≤ now)
    (regular : s.Regular cfg (.SignIn_TakeProgressAward now awardid)) :
    SignInInv cfg { (s.SignIn_TakeProgressAward cfg now awardid).1 with clock := now } := by
  have turned := inv_month inv le regular
  rw [SignIn_TakeProgressAward]
  split at turned
  · rename_i next
    rw [if_pos next]
    exact turned
  · rename_i here
    rw [if_neg here]
    split
    · exact turned
    · rename_i n passed
      obtain ⟨positive, enough, fresh⟩ := takeCheck_ok passed
      exact inv_take turned positive enough fresh

theorem inv_step (inv : SignInInv cfg s) (regular : s.Regular cfg e)
    (moved : s.step cfg e = some s') : SignInInv cfg s' := by
  rw [step] at moved
  split at moved
  · rename_i le
    obtain rfl := Option.some.inj moved
    cases e with
    | login =>
        cases s with
        | mk mData stored clock signings takes =>
            obtain rfl : stored = mData := inv.stored
            exact inv
    | SignIn_GetInfo now => exact inv_GetInfo inv le regular
    | SignIn_Sign now ispatch isvideo3 patchday vipadd goldRate => exact inv_Sign inv le regular
    | SignIn_TakeProgressAward now awardid => exact inv_TakeProgressAward inv le regular
  · cases moved

theorem inv_start : SignInInv cfg (start now) :=
  ⟨⟨rfl, List.nodup_nil, fun _ mem => (nomatch mem), fun _ mem => (nomatch mem), List.nodup_nil,
    List.nodup_nil, fun _ => Nat.zero_le _, List.nodup_nil, fun _ mem => (nomatch mem)⟩, rfl, rfl,
    fun _ mem => (nomatch mem), fun _ mem => (nomatch mem), fun _ mem => (nomatch mem), rfl, rfl,
    fun _ mem => (nomatch mem)⟩

/-- A request that fails in a regular state changes nothing but the month. -/
theorem refused (inv : SignInInv cfg s) (regular : s.Regular cfg e)
    (moved : s.step cfg e = some s') (failed : (s.request cfg e).2 ≠ some .succeed_1) :
    s.Kept cfg s'.clock s'.mData := by
  rw [step] at moved
  split at moved
  · obtain rfl := Option.some.inj moved
    cases e with
    | login => exact absurd rfl failed
    | SignIn_GetInfo now => exact absurd rfl failed
    | SignIn_Sign now ispatch isvideo3 patchday vipadd goldRate =>
        simp only [request, SignIn_Sign] at failed ⊢
        split
        · rename_i next
          exact .inr ⟨nextMonth_other inv next, rfl⟩
        · rename_i here
          rw [if_neg here] at failed
          split
          · exact .inl rfl
          · rename_i signed passed
            obtain ⟨row, found⟩ := cfg.row_of (signKind_day regular passed)
            simp only [passed, found] at failed
            exact absurd rfl failed
    | SignIn_TakeProgressAward now awardid =>
        simp only [request, SignIn_TakeProgressAward] at failed ⊢
        split
        · rename_i next
          exact .inr ⟨nextMonth_other inv next, rfl⟩
        · rename_i here
          rw [if_neg here] at failed
          split
          · exact .inl rfl
          · rename_i n passed
            simp only [passed] at failed
            exact absurd rfl failed
  · cases moved

/-- Along a run whose steps are regular the log, the counters and the rewards keep their rules, and
a request that fails changes at most the month. -/
theorem run_signed {es : List SignInEvent} {t₀ : Int}
    (run : Run (step cfg) (Regular cfg) (start t₀) es s) : SignInStep cfg s ∧
      ∀ e s', s.Regular cfg e → s.step cfg e = some s' →
        (s.request cfg e).2 ≠ some .succeed_1 → s.Kept cfg s'.clock s'.mData := by
  have inv : SignInInv cfg s := run.invariant (SignInInv cfg) inv_start
    fun _ _ _ inv regular moved => inv_step inv regular moved
  exact ⟨inv.toSignInStep, fun _ _ regular moved failed => refused inv regular moved failed⟩

end Requests

instance decSameYear {cfg : SignInTable} {s : SignIn} {now : Int} :
    Decidable (s.SameYear cfg now) :=
  inferInstanceAs (Decidable (_ → _ ∨ _))

instance decRegular {cfg : SignInTable} : ∀ s e, Decidable (Regular cfg s e)
  | _, .login => inferInstanceAs (Decidable True)
  | _, .SignIn_GetInfo _ => inferInstanceAs (Decidable (_ ∧ _))
  | _, .SignIn_Sign .. => inferInstanceAs (Decidable (_ ∧ _))
  | s, .SignIn_TakeProgressAward now _ => inferInstanceAs (Decidable (s.SameYear cfg now))

/-- A thousand coins a day, and a progress reward for the second. -/
def signInSample : SignInTable where
  zone := 28800
  maxct := 5
  rows := ⟨[⟨itemGold, 1000⟩], []⟩ :: ⟨[⟨itemGold, 1000⟩], [⟨itemGold, 5⟩]⟩ ::
    List.replicate 29 ⟨[⟨itemGold, 1000⟩], []⟩
  full := by decide

/-- The second and the third of January 1970, and the first of February. -/
def signInEvents : List SignInEvent :=
  [.SignIn_GetInfo 90000, .SignIn_Sign 90000 false false none 2000 0,
    .SignIn_Sign 90200 false true none 2000 0, .SignIn_Sign 180000 true false (some 1) 0 0,
    .SignIn_TakeProgressAward 180100 (some 2), .SignIn_Sign 180200 true false (some 2) 0 0,
    .SignIn_Sign 2700000 false false none 0 0]

/-- A user signs a day, once more by a video, and the day before by a patch, and takes the reward for
two days. The next month starts with an empty log. -/
theorem run_signed_months : ∃ s, Run (step signInSample) (Regular signInSample) (start 80000)
    signInEvents s ∧ SignInStep signInSample s ∧ s.mData.signlog = [] ∧ s.takes.length = 1 ∧
    s.signings.map Signing.items =
      [[⟨itemGold, 1200⟩], [⟨itemGold, 3600⟩], [⟨itemGold, 1000⟩]] := by
  have run := @run_of_guarded _ _ (step signInSample) (Regular signInSample) _ (start 80000)
    signInEvents _ rfl
  exact ⟨_, run, (run_signed run).1, by decide +kernel, by decide +kernel, by decide +kernel⟩

/-- A patch for the day 0 gets into the log. -/
theorem signed_fails : ¬∀ cfg t₀ es s, Run (step cfg) anyStep (start t₀) es s →
    SignInStep cfg s := by
  intro signed
  have run := @run_of_exec _ _ (step signInSample) (start 80000)
    [.SignIn_Sign 90000 true false (some 0) 0 0] _ rfl
  exact absurd ((signed _ _ _ _ run).past 0 (by decide +kernel)).1 (by decide)

/-- A log of January is still there in the next January. -/
example : (exec (step signInSample) (start 80000)
    [.SignIn_Sign 90000 false false none 0 0, .SignIn_GetInfo 31626000]).map
      (fun s => s.mData.signlog) = some [2] := by decide +kernel

/-- A video before the day's first look is followed by another one. -/
example : (exec (step signInSample) (start 80000)
    [.SignIn_Sign 180000 false false none 0 0, .SignIn_Sign 180100 false true none 0 0,
      .SignIn_GetInfo 180200, .SignIn_Sign 180300 false true none 0 0]).map
      (fun s => s.signings.map Signing.kind) = some [.normal, .video3, .video3] := by decide +kernel

end SignIn

end HuluLandlord.Agent
