import HuluLandlord.Calendar
import HuluLandlord.Transition

/-!
The events of a new month, week, day and minute that an agent raises for its user. For each of them the
user keeps keys of his last time, which are stored with him. Whoever listens may fail: an event calls
each listener on its own.
-/
namespace HuluLandlord.Agent
open Calendar Transition

/-- `ma_userother.keyEnum`. -/
inductive TimeKey
  | newYear | newMonth | newWeek | newDay | newMinutes
  deriving DecidableEq, Repr

inductive TimeEvent
  | UserNewMonth | UserNewWeek | UserNewDay | UserNewMinutes
  deriving DecidableEq, Repr

/-- What a listener makes of the user, and the error it ends with if it does. -/
abbrev Listener (σ ε : Type) := σ → Except ε Unit × σ

/-- `prev` is the time of the check before. -/
structure TimeCheck where
  time : Int
  prev : Option Int
  raised : List TimeEvent
  deriving DecidableEq, Repr

/-- `stored` is the row of `UserOther`, and `user` all else of the user. -/
structure UserTime (σ : Type) where
  userOther : TimeKey → Option Int
  stored : TimeKey → Option Int
  lastTime : Option Int
  user : σ
  checks : List TimeCheck

inductive TimeStep
  | check (now : Int)
  | restart
  deriving DecidableEq, Repr

namespace TimeKey
variable (zone : Int)

/-- The first Monday, at midnight. -/
def weekStartDt : Int := 4 * 86400 - zone

/-- The week since the first Monday; the quotient is rounded up. -/
def weekTimes (now : Int) : Int :=
  let daySum := (now - weekStartDt zone) / (24 * 60 * 60) + 1
  (daySum + 6) / 7

/-- What a check sets a key to. -/
def value (now : Int) : TimeKey → Int
  | newYear => (date zone now).year
  | newMonth => (date zone now).month
  | newWeek => weekTimes zone now
  | newDay => yday (dayOf zone now)
  | newMinutes => (now + zone) / 60 % 60

end TimeKey

namespace UserTime
variable {σ ε : Type} (zone : Int) (listeners : TimeEvent → List (Listener σ ε))

/-- `eventx.invoke`: the error of a listener is only logged. -/
def invoke (user : σ) (event : TimeEvent) : σ :=
  (listeners event).foldl (fun user func => (func user).2) user

def set (s : UserTime σ) (key : TimeKey) (value : Int) : UserTime σ :=
  { s with
    userOther := Function.update s.userOther key (some value)
    stored := Function.update s.stored key (some value) }

/-- One period: where one of its keys is not that of the time, all are set and the event is raised. -/
def renew (now : Int) (keys : List TimeKey) (event : TimeEvent) (s : UserTime σ × List TimeEvent) :
    UserTime σ × List TimeEvent :=
  if keys.any fun key => s.1.userOther key ≠ some (key.value zone now) then
    let t := keys.foldl (fun t key => t.set key (key.value zone now)) s.1
    ({ t with user := invoke listeners t.user event }, s.2 ++ [event])
  else s

def newMonth (now : Int) : UserTime σ × List TimeEvent → UserTime σ × List TimeEvent :=
  renew zone listeners now [.newYear, .newMonth] .UserNewMonth

def newWeek (now : Int) : UserTime σ × List TimeEvent → UserTime σ × List TimeEvent :=
  renew zone listeners now [.newWeek] .UserNewWeek

def newDay (now : Int) : UserTime σ × List TimeEvent → UserTime σ × List TimeEvent :=
  renew zone listeners now [.newDay] .UserNewDay

def newMinutes (now : Int) : UserTime σ × List TimeEvent → UserTime σ × List TimeEvent :=
  renew zone listeners now [.newMinutes] .UserNewMinutes

def check (s : UserTime σ) (now : Int) : UserTime σ :=
  if s.lastTime = some now then s
  else
    let (t, raised) := newMinutes zone listeners now (newDay zone listeners now
      (newWeek zone listeners now (newMonth zone listeners now ({ s with lastTime := some now }, []))))
    { t with checks := s.checks ++ [⟨now, s.checks.getLast?.map TimeCheck.time, raised⟩] }

def step (s : UserTime σ) : TimeStep → Option (UserTime σ)
  | .check now => some (s.check zone listeners now)
  | .restart => some { s with userOther := s.stored, lastTime := none }

def start (user : σ) : UserTime σ := ⟨fun _ => none, fun _ => none, none, user, []⟩

/-- The time of the last check. -/
def last (s : UserTime σ) : Option Int := s.checks.getLast?.map TimeCheck.time

/-- Two checks in a row are not on one day of the year in two years. -/
def Apart (zone : Int) (s : UserTime σ) : TimeStep → Prop
  | .check now => ∀ t ∈ s.last, yday (dayOf zone t) = yday (dayOf zone now) →
      (date zone t).year = (date zone now).year
  | .restart => True

end UserTime

/-- A check raises the event of a period once, where the period is not that of the check before. -/
structure TimeCheck.Right (zone : Int) (c : TimeCheck) : Prop where
  day : TimeEvent.UserNewDay ∈ c.raised ↔ ∀ t ∈ c.prev, date zone t ≠ date zone c.time
  month : TimeEvent.UserNewMonth ∈ c.raised ↔ ∀ t ∈ c.prev,
    ¬((date zone t).year = (date zone c.time).year ∧ (date zone t).month = (date zone c.time).month)
  week : TimeEvent.UserNewWeek ∈ c.raised ↔ ∀ t ∈ c.prev,
    monday (dayOf zone t) ≠ monday (dayOf zone c.time)
  once : c.raised.Nodup

/-- The keys an event hangs on. -/
def TimeEvent.keys : TimeEvent → List TimeKey
  | UserNewMonth => [.newYear, .newMonth]
  | UserNewWeek => [.newWeek]
  | UserNewDay => [.newDay]
  | UserNewMinutes => [.newMinutes]

namespace UserTime
variable {σ ε : Type} {zone : Int} {listeners : TimeEvent → List (Listener σ ε)}
variable {s t : UserTime σ} {now : Int}

/-- Weeks are numbered from Monday to Sunday. -/
theorem weekTimes_iff {t u : Int} : TimeKey.weekTimes zone t = TimeKey.weekTimes zone u ↔
    monday (dayOf zone t) = monday (dayOf zone u) := by
  have days : ∀ t, (t - TimeKey.weekStartDt zone) / (24 * 60 * 60) = dayOf zone t - 4 := by
    intro t
    rw [TimeKey.weekStartDt, dayOf]
    omega
  simp only [TimeKey.weekTimes, days, monday]
  omega

/-- Whether an event is due: one of its keys is not that of the time. -/
def Due (zone now : Int) (keys : List TimeKey) (s : UserTime σ) : Prop :=
  ∃ key ∈ keys, s.userOther key ≠ some (key.value zone now)

instance {keys : List TimeKey} : Decidable (Due zone now keys s) :=
  inferInstanceAs (Decidable (∃ key ∈ keys, _))

/-- What one period leaves behind, whether its event was due or not. -/
structure Renewed (zone now : Int) (keys : List TimeKey) (event : TimeEvent)
    (s t : UserTime σ × List TimeEvent) : Prop where
  userOther : ∀ key, t.1.userOther key =
    if key ∈ keys then some (key.value zone now) else s.1.userOther key
  stored : s.1.userOther = s.1.stored → t.1.userOther = t.1.stored
  raised : t.2 = s.2 ++ if Due zone now keys s.1 then [event] else []
  lastTime : t.1.lastTime = s.1.lastTime

theorem foldl_set (keys : List TimeKey) (s : UserTime σ) (key : TimeKey) :
    (keys.foldl (fun t key => t.set key (key.value zone now)) s).userOther key =
      if key ∈ keys then some (key.value zone now) else s.userOther key := by
  induction keys generalizing s with
  | nil => rfl
  | cons first keys ih =>
      rw [List.foldl_cons, ih]
      by_cases later : key ∈ keys
      · rw [if_pos later, if_pos (List.mem_cons_of_mem first later)]
      · rw [if_neg later]
        by_cases here : key = first
        · rw [here, if_pos List.mem_cons_self]
          exact Function.update_self _ _ _
        · rw [if_neg (by simp [here, later])]
          exact Function.update_of_ne here _ _

theorem foldl_set_stored (keys : List TimeKey) (same : s.userOther = s.stored) :
    (keys.foldl (fun t key => t.set key (key.value zone now)) s).userOther =
      (keys.foldl (fun t key => t.set key (key.value zone now)) s).stored := by
  induction keys generalizing s with
  | nil => exact same
  | cons key keys ih =>
      apply ih
      simp only [set, same]

theorem foldl_set_lastTime (keys : List TimeKey) (s : UserTime σ) :
    (keys.foldl (fun t key => t.set key (key.value zone now)) s).lastTime = s.lastTime := by
  induction keys generalizing s with
  | nil => rfl
  | cons key keys ih => exact ih _

theorem renew_renewed (keys : List TimeKey) (event : TimeEvent) (s : UserTime σ × List TimeEvent) :
    Renewed zone now keys event s (renew zone listeners now keys event s) := by
  rw [renew]
  split
  · rename_i due
    have due : Due zone now keys s.1 := by
      obtain ⟨key, mem, other⟩ := List.any_eq_true.mp due
      exact ⟨key, mem, of_decide_eq_true other⟩
    refine ⟨fun key => foldl_set keys s.1 key, fun same => foldl_set_stored keys same, ?_,
      foldl_set_lastTime keys s.1⟩
    rw [if_pos due]
  · rename_i none
    have none : ¬Due zone now keys s.1 := by
      rintro ⟨key, mem, other⟩
      exact none (List.any_eq_true.mpr ⟨key, mem, decide_eq_true other⟩)
    refine ⟨fun key => ?_, fun same => same, ?_, rfl⟩
    · split
      · rename_i mem
        exact not_not.mp fun other => none ⟨key, mem, other⟩
      · rfl
    · rw [if_neg none, List.append_nil]

/-- The keys of the user are those of his last check, in the store as well. -/
structure Synced (zone : Int) (s : UserTime σ) : Prop where
  stored : s.userOther = s.stored
  keys : ∀ key, s.userOther key = s.last.map fun t => key.value zone t
  lastTime : ∀ t ∈ s.lastTime, s.last = some t

theorem due_iff (synced : Synced zone s) (event : TimeEvent) : Due zone now event.keys s ↔
    ∀ t ∈ s.last, ∃ key ∈ event.keys, key.value zone t ≠ key.value zone now := by
  simp only [Due, synced.keys]
  cases s.last with
  | none =>
      obtain ⟨key, mem⟩ := List.exists_mem_of_ne_nil event.keys (by cases event <;> decide)
      exact iff_of_true ⟨key, mem, fun same => nomatch same⟩ fun t none => nomatch none
  | some t =>
      simp only [Option.map_some, ne_eq, Option.some.injEq, Option.mem_def, forall_eq']

theorem Renewed.due {keys keys' : List TimeKey} {event : TimeEvent}
    {s t : UserTime σ × List TimeEvent} (renewed : Renewed zone now keys event s t)
    (other : ∀ key ∈ keys', key ∉ keys) : Due zone now keys' t.1 ↔ Due zone now keys' s.1 := by
  refine exists_congr fun key => and_congr_right fun mem => ?_
  rw [renewed.userOther, if_neg (other key mem)]

/-- The events of a check, in the order in which it raises them. -/
def events (zone now : Int) (s : UserTime σ) : List TimeEvent :=
  [.UserNewMonth, .UserNewWeek, .UserNewDay, .UserNewMinutes].filter fun event =>
    Due zone now event.keys s

theorem check_appends (synced : Synced zone s) (fresh : s.lastTime ≠ some now) :
    (s.check zone listeners now).checks = s.checks ++ [⟨now, s.last, events zone now s⟩] ∧
      Synced zone (s.check zone listeners now) := by
  simp only [check, if_neg fresh]
  have month := @renew_renewed σ ε zone listeners now [.newYear, .newMonth] .UserNewMonth
    ({ s with lastTime := some now }, [])
  rw [newMonth]
  generalize renew zone listeners now [.newYear, .newMonth] .UserNewMonth
    ({ s with lastTime := some now }, []) = s₁ at month ⊢
  have week := @renew_renewed σ ε zone listeners now [.newWeek] .UserNewWeek s₁
  rw [newWeek]
  generalize renew zone listeners now [.newWeek] .UserNewWeek s₁ = s₂ at week ⊢
  have day := @renew_renewed σ ε zone listeners now [.newDay] .UserNewDay s₂
  rw [newDay]
  generalize renew zone listeners now [.newDay] .UserNewDay s₂ = s₃ at day ⊢
  have minutes := @renew_renewed σ ε zone listeners now [.newMinutes] .UserNewMinutes s₃
  rw [newMinutes]
  generalize renew zone listeners now [.newMinutes] .UserNewMinutes s₃ = s₄ at minutes ⊢
  have week_due : Due zone now [.newWeek] s₁.1 ↔ Due zone now [.newWeek] s :=
    month.due (by decide)
  have day_due : Due zone now [.newDay] s₂.1 ↔ Due zone now [.newDay] s :=
    (week.due (by decide)).trans (month.due (by decide))
  have minutes_due : Due zone now [.newMinutes] s₃.1 ↔ Due zone now [.newMinutes] s :=
    (day.due (by decide)).trans ((week.due (by decide)).trans (month.due (by decide)))
  have first : ∀ (event : TimeEvent) rest, List.filter (fun event => decide (Due zone now event.keys s))
      (event :: rest) = (if Due zone now event.keys s then [event] else []) ++
        rest.filter fun event => Due zone now event.keys s := by
    intro event rest
    simp only [List.filter_cons, decide_eq_true_eq]
    split
    · rfl
    · rfl
  refine ⟨?_, ?_⟩
  · rw [minutes.raised, day.raised, week.raised, month.raised]
    simp only [week_due, day_due, minutes_due, List.nil_append, events, first, List.filter_nil,
      List.append_nil, List.append_assoc]
    rfl
  · refine ⟨?_, fun key => ?_, fun t here => ?_⟩
    · exact minutes.stored (day.stored (week.stored (month.stored synced.stored)))
    · rw [last, List.getLast?_concat]
      simp only [minutes.userOther, day.userOther, week.userOther, month.userOther]
      cases key with
      | newYear => rfl
      | newMonth => rfl
      | newWeek => rfl
      | newDay => rfl
      | newMinutes => rfl
    · rw [last, List.getLast?_concat]
      simp only [minutes.lastTime, day.lastTime, week.lastTime, month.lastTime] at here
      exact here

theorem mem_events {event : TimeEvent} : event ∈ events zone now s ↔ Due zone now event.keys s := by
  rw [events, List.mem_filter, decide_eq_true_eq]
  refine and_iff_right ?_
  cases event with
  | UserNewMonth => decide
  | UserNewWeek => decide
  | UserNewDay => decide
  | UserNewMinutes => decide

theorem month_due (synced : Synced zone s) : TimeEvent.UserNewMonth ∈ events zone now s ↔
    ∀ t ∈ s.last, ¬((date zone t).year = (date zone now).year ∧
      (date zone t).month = (date zone now).month) := by
  rw [mem_events, due_iff synced]
  refine forall₂_congr fun t _ => ?_
  simp only [TimeEvent.keys, List.exists_mem_cons_iff, List.not_mem_nil, false_and, exists_false,
    or_false, TimeKey.value, not_and_or, ne_eq]

theorem week_due (synced : Synced zone s) : TimeEvent.UserNewWeek ∈ events zone now s ↔
    ∀ t ∈ s.last, monday (dayOf zone t) ≠ monday (dayOf zone now) := by
  rw [mem_events, due_iff synced]
  refine forall₂_congr fun t _ => ?_
  simp only [TimeEvent.keys, List.exists_mem_cons_iff, List.not_mem_nil, false_and, exists_false,
    or_false, TimeKey.value, ne_eq, weekTimes_iff]

theorem day_due (synced : Synced zone s) : TimeEvent.UserNewDay ∈ events zone now s ↔
    ∀ t ∈ s.last, yday (dayOf zone t) ≠ yday (dayOf zone now) := by
  rw [mem_events, due_iff synced]
  refine forall₂_congr fun t _ => ?_
  simp only [TimeEvent.keys, List.exists_mem_cons_iff, List.not_mem_nil, false_and, exists_false,
    or_false, TimeKey.value]

/-- The month and the week are always right; the day is told from the day of the year alone. -/
theorem right_iff (synced : Synced zone s) :
    TimeCheck.Right zone ⟨now, s.last, events zone now s⟩ ↔ Apart zone s (.check now) := by
  have same : ∀ t, date zone t = date zone now ↔ yday (dayOf zone t) = yday (dayOf zone now) ∧
      (date zone t).year = (date zone now).year := by
    intro t
    constructor
    · intro same
      exact ⟨congrArg yday (civil_injective same), congrArg Date.year same⟩
    · rintro ⟨day, year⟩
      exact congrArg civil (yday_injective year day)
  constructor
  · intro right t before day
    have day_iff := (day_due synced).symm.trans right.day
    by_contra year
    refine day_iff.mpr (fun u before' => ?_) t before day
    obtain rfl := Option.some.inj (before.symm.trans before')
    exact fun date => year ((same t).mp date).2
  · intro apart
    refine ⟨(day_due synced).trans (forall₂_congr fun t before => ?_), month_due synced,
      week_due synced, List.Nodup.filter _ (by decide)⟩
    rw [ne_eq, ne_eq, same]
    exact not_congr ⟨fun day => ⟨day, apart t before day⟩, And.left⟩

theorem synced_step {e : TimeStep} (synced : Synced zone s)
    (moved : s.step zone listeners e = some t) : Synced zone t := by
  cases e with
  | check now =>
      obtain rfl := Option.some.inj moved
      by_cases again : s.lastTime = some now
      · rw [check, if_pos again]
        exact synced
      · exact (check_appends synced again).2
  | restart =>
      obtain rfl := Option.some.inj moved
      refine ⟨rfl, fun key => ?_, fun t none => nomatch none⟩
      rw [← synced.stored]
      exact synced.keys key

/-- In every run, with restarts at any point and whatever the listeners do, all checks are right if and
only if the run keeps apart the years. -/
theorem run_periods {user : σ} {steps : List TimeStep}
    (run : Run (step zone listeners) anyStep (start user) steps s) :
    Run (step zone listeners) (Apart zone) (start user) steps s ↔
      ∀ c ∈ s.checks, c.Right zone := by
  refine run.holds_iff (fun s => ∀ c ∈ s.checks, c.Right zone) (fun c mem => absurd mem List.not_mem_nil) ?_
  intro front t e u ran _ moved
  have synced : Synced zone t := ran.invariant (Synced zone)
    ⟨rfl, fun _ => rfl, by rintro t ⟨⟩⟩ fun _ _ _ synced _ moved => synced_step synced moved
  cases e with
  | check now =>
      obtain rfl := Option.some.inj moved
      by_cases again : t.lastTime = some now
      · rw [check, if_pos again]
        refine (and_iff_left fun t' before _ => ?_).symm
        rw [Option.some.inj (before.symm.trans (synced.lastTime now again))]
      · rw [(check_appends synced again).1]
        simp only [List.mem_append, List.mem_singleton, or_imp, forall_and, forall_eq]
        rw [right_iff synced]
  | restart =>
      obtain rfl := Option.some.inj moved
      exact (and_iff_left trivial).symm

instance decApart : ∀ (s : UserTime σ) e, Decidable (Apart zone s e)
  | s, .check now => inferInstanceAs (Decidable (∀ t ∈ s.last, _ → _))
  | _, .restart => inferInstanceAs (Decidable True)

/-- A user whose only listener fails, and logs no more than that it was called. -/
def failing : TimeEvent → List (Listener Nat Unit) := fun _ => [fun n => (.error (), n + 1)]

/-- Three days in June 2021, in Beijing: the Tuesday the user comes first, the Sunday of that week, and
the Monday after it. -/
def juneChecks : List TimeStep :=
  [.check 1622520000, .check 1622960000, .restart, .check 1623020400]

theorem run_periods_june : ∃ s, Run (step 28800 failing) (Apart 28800) (start 0) juneChecks s ∧
    (∀ c ∈ s.checks, c.Right 28800) ∧ s.checks.map (fun c => c.raised.length) = [4, 2, 3] := by
  obtain ⟨s, run, raised⟩ := run_of_guarded_any (step 28800 failing) (Apart 28800) (start 0)
    juneChecks (fun s => s.checks.map (fun c => c.raised.length) = [4, 2, 3]) (by decide +kernel)
  exact ⟨s, run, (run_periods (run.mono fun _ _ _ => trivial)).mp run, raised⟩

/-- A year later to the day there is no new day. -/
theorem periods_fail : ¬∀ (zone : Int) (steps : List TimeStep) (s : UserTime Nat),
    Run (step zone failing) anyStep (start 0) steps s → ∀ c ∈ s.checks, c.Right zone := by
  intro all
  obtain ⟨s, run, missed⟩ := run_of_exec_any (step 28800 failing) (start 0)
    [.check 1622520000, .check 1654056000]
    (fun s => (⟨1654056000, some 1622520000, [.UserNewMonth, .UserNewWeek]⟩ : TimeCheck) ∈ s.checks)
    (by decide +kernel)
  have right := all 28800 _ s run _ missed
  have raised := right.day.mpr fun t before => by
    obtain rfl := Option.some.inj before
    decide +kernel
  nomatch raised

end UserTime

end HuluLandlord.Agent
