import HuluLandlord.Skynet.Timer

/-!
Timeouts of all threads against the thread that moves the clock. The timer thread holds the lock but
for the time in which it pushes the events of a list, so that a timeout may be added between any two
pushes. The clock of the proofs counts the shifts and does not wrap.
-/
namespace HuluLandlord.Skynet
open Transition Wheel

def PTYPE_RESPONSE : Nat := 1

/-- A message without its data; the source keeps the type in the upper bits of the size. -/
structure SkynetMessage where
  source : Nat
  session : Int
  type : Nat
  deriving DecidableEq, Repr, Inhabited

/-- A call of `skynet_context_push`, when it was made, and whether by the timer thread. -/
structure Push where
  handle : Nat
  message : SkynetMessage
  clock : Nat
  timed : Bool
  deriving DecidableEq, Repr

def eventMessage (event : TimerEvent) : SkynetMessage := ⟨0, event.session, PTYPE_RESPONSE⟩

/-- Where the timer thread has let go of the lock. -/
inductive TimerPhase
  | idle | before | after
  deriving DecidableEq, Repr

structure TimerSystem where
  timer : Timer
  phase : TimerPhase
  /-- What `dispatch_list` has still to push. -/
  walking : List TimerNode
  /-- The rounds that the loop of `skynet_updatetime` still has. -/
  rounds : Nat
  current : Nat
  current_point : Nat
  clock : Nat
  asked : List (TimerEvent × Nat)
  pushed : List Push

namespace TimerSystem

def skynet_timer_init (current : BitVec 32) (current_point : Nat) : TimerSystem :=
  ⟨Timer.timer_create_timer, .idle, [], 0, current.toNat, current_point, 0, [], []⟩

/-- `alive` tells whether the handle has a context to push to. -/
def skynet_timeout (s : TimerSystem) (alive : Bool) (handle : Nat) (time : BitVec 32) (session : Int) :
    Int × TimerSystem :=
  let event : TimerEvent := ⟨handle, session⟩
  if time.toInt ≤ 0 then
    (if alive then session else -1,
      { s with pushed := s.pushed ++ [⟨handle, eventMessage event, s.clock, false⟩] })
  else
    (session, { s with
      timer := s.timer.timer_add event time.toNat
      asked := s.asked ++ [(event, s.clock + time.toNat)] })

/-- The list at hand is taken and the lock released. -/
def take (s : TimerSystem) (phase : TimerPhase) : TimerSystem :=
  { s with timer := s.timer.clear_near, walking := s.timer.near_list, phase := phase }

/-- From the second `timer_execute` on. -/
def update_after (s : TimerSystem) : TimerSystem :=
  if s.timer.near_list ≠ [] then s.take .after else { s with phase := .idle, rounds := s.rounds - 1 }

def shifted (s : TimerSystem) : TimerSystem :=
  { s with timer := s.timer.timer_shift, clock := s.clock + 1 }

/-- From the first `timer_execute` on. -/
def update_before (s : TimerSystem) : TimerSystem :=
  if s.timer.near_list ≠ [] then s.take .before else s.shifted.update_after

def push (s : TimerSystem) (event : TimerEvent) : TimerSystem :=
  { s with pushed := s.pushed ++ [⟨event.handle, eventMessage event, s.clock, true⟩] }

/-- `dispatch_list` pushes an event, or the timer thread takes the lock again. -/
def update (s : TimerSystem) : Option TimerSystem :=
  match s.walking with
  | node :: rest => some ({ s with walking := rest }.push node.event)
  | [] =>
      match s.phase with
      | .idle => if s.rounds = 0 then none else some s.update_before
      | .before => some s.update_before
      | .after => some s.update_after

/-- Between two calls of it the loop has ended. -/
def skynet_updatetime (s : TimerSystem) (cp : Nat) : Option TimerSystem :=
  if s.phase = .idle ∧ s.rounds = 0 then
    if cp < s.current_point then some { s with current_point := cp }
    else if cp ≠ s.current_point then
      let diff := (cp - s.current_point) % 2 ^ 32
      some { s with current_point := cp, current := (s.current + diff) % 2 ^ 64, rounds := diff }
    else some s
  else none

/-- The events that the timer thread has pushed at a tick. -/
def sentAt (s : TimerSystem) (k : Nat) : List (Nat × SkynetMessage) :=
  (s.pushed.filter fun push => push.timed ∧ push.clock = k).map fun push => (push.handle, push.message)

/-- What was to be pushed at a tick. -/
def askedFor (s : TimerSystem) (k : Nat) : List (Nat × SkynetMessage) :=
  (s.asked.filter fun ask => ask.2 = k).map fun ask => (ask.1.handle, eventMessage ask.1)

end TimerSystem

inductive TimerAct
  | skynet_timeout (alive : Bool) (handle : Nat) (time : BitVec 32) (session : Int)
  | update
  | skynet_updatetime (cp : Nat)

def TimerSystem.step (s : TimerSystem) : TimerAct → Option TimerSystem
  | .skynet_timeout alive handle time session => some (s.skynet_timeout alive handle time session).2
  | .update => s.update
  | .skynet_updatetime cp => s.skynet_updatetime cp

def askNode (ask : TimerEvent × Nat) : TimerNode := ⟨ask.1, ask.2 % 2 ^ 32⟩

/-- The timeouts of the future, in the order in which they were asked for, stand in the lists of their places. -/
def Holds (T : Timer) (asks : List (TimerEvent × Nat)) (clock : Nat) : Prop :=
  ∀ p, T.list p = (asks.filter fun ask => timerPlace ask.2 clock = p).map askNode

section Holds
variable {T : Timer} {asks : List (TimerEvent × Nat)} {clock : Nat}

theorem askNode_filter (ahead : ∀ ask ∈ asks, clock ≤ ask.2 ∧ ask.2 < clock + 2 ^ 31) (p : Nat × Nat) :
    (asks.map askNode).filter (fun node => nodePlace node.expire (clock % 2 ^ 32) = p) =
      (asks.filter fun ask => timerPlace ask.2 clock = p).map askNode := by
  rw [List.filter_map]
  refine congrArg (List.map askNode) (List.filter_congr fun ask mem => ?_)
  obtain ⟨later, near⟩ := ahead ask mem
  exact congrArg (fun place => decide (place = p)) (nodePlace_eq later near)

theorem Holds.add (holds : Holds T asks clock) (time : T.time = clock % 2 ^ 32) {event : TimerEvent} {d : Nat}
    (small : d < 2 ^ 31) : Holds (T.timer_add event d) (asks ++ [(event, clock + d)]) clock := by
  intro p
  have expire : (d + T.time) % 2 ^ 32 = (clock + d) % 2 ^ 32 := by
    rw [time, Nat.add_mod_mod, Nat.add_comm]
  rw [Timer.timer_add, list_add_node, holds p, List.filter_append, List.map_append, expire, time]
  dsimp only
  rw [nodePlace_eq (by omega) (by omega), List.filter_singleton]
  by_cases here : timerPlace (clock + d) clock = p
  · rw [if_pos here.symm, decide_eq_true here]
    rfl
  · rw [if_neg (Ne.symm here), decide_eq_false here]
    rfl

theorem time_timer_shift (time : T.time = clock % 2 ^ 32) : T.timer_shift.time = (clock + 1) % 2 ^ 32 := by
  by_cases ends : 2 ^ blockShift 0 ∣ clock + 1
  · obtain ⟨m, turns⟩ := exists_turns (n := 4) ends (by decide)
    rw [timer_shift_turns time turns, time_move_list]
  · rw [timer_shift_still time ends]

theorem Holds.shift (holds : Holds T asks clock) (time : T.time = clock % 2 ^ 32)
    (ahead : ∀ ask ∈ asks, clock < ask.2 ∧ ask.2 < clock + 2 ^ 31) : Holds T.timer_shift asks (clock + 1) := by
  intro p
  by_cases ends : 2 ^ blockShift 0 ∣ clock + 1
  · obtain ⟨m, turns⟩ := exists_turns (n := 4) ends (by decide)
    have dealt := turns.lists levelDigit blockShift_mono (fun ask mem => (ahead ask mem).1) p
    have later : ∀ ask ∈ asks.filter (fun ask => timerPlace ask.2 clock =
        (m + 1, levelDigit m ((clock + 1) / 2 ^ blockShift m))),
        clock + 1 ≤ ask.2 ∧ ask.2 < clock + 1 + 2 ^ 31 := fun ask mem => by
      have := ahead ask (List.mem_of_mem_filter mem)
      omega
    rw [timer_shift_turns time turns, list_move_list, ← dealt, List.map_append]
    refine congrArg₂ (· ++ ·) ?_ ?_
    · split
      · rfl
      · exact holds p
    · exact (congrArg (List.filter _) (holds _)).trans (askNode_filter later p)
  · rw [timer_shift_still time ends]
    refine (holds p).trans (congrArg (List.map askNode) (List.filter_congr fun ask _ => ?_))
    rw [timerPlace, timerPlace, place_of_level (level_still blockShift_mono ends)]

/-- The near list of the moment is for the events of that moment. -/
theorem place_now {due : Nat} : timerPlace due clock = (0, clock % 2 ^ 8) ↔ due = clock := by
  constructor
  · intro now
    have lowest : level blockShift 4 due clock = 0 :=
      (place_fst blockShift 4 levelDigit due clock).symm.trans (congrArg Prod.fst now)
    have block : due / 2 ^ 8 = clock / 2 ^ 8 := (level_le_iff blockShift_mono (by decide)).mp lowest.le
    rw [timerPlace, place, lowest] at now
    have digit : due % 2 ^ 8 = clock % 2 ^ 8 := congrArg Prod.snd now
    omega
  · rintro rfl
    have lowest := Nat.le_zero.mp ((level_le_iff (n := 4) (k := 0) blockShift_mono (by decide)).mpr
      (rfl : due / 2 ^ blockShift 0 = _))
    rw [timerPlace, place, lowest]
    rfl

theorem near_list_eq (time : T.time = clock % 2 ^ 32) : T.near_list = T.list (0, clock % 2 ^ 8) := by
  rw [Timer.near_list, time]
  refine congrArg T.near ?_
  exact (and_mask_eq _ 8).trans (Nat.mod_mod_of_dvd _ (by decide))

theorem Holds.near_list (holds : Holds T asks clock) (time : T.time = clock % 2 ^ 32) :
    T.near_list = (asks.filter fun ask => ask.2 = clock).map askNode := by
  rw [near_list_eq time, holds]
  exact congrArg (List.map askNode) (List.filter_congr fun ask _ => decide_eq_decide.mpr place_now)

/-- With that list taken, the timeouts of later moments are left. -/
theorem Holds.clear_near (holds : Holds T asks clock) (time : T.time = clock % 2 ^ 32) :
    Holds T.clear_near (asks.filter fun ask => ask.2 ≠ clock) clock := by
  intro p
  have now : T.time &&& TIME_NEAR_MASK = clock % 2 ^ 8 := by
    rw [time]
    exact (and_mask_eq _ 8).trans (Nat.mod_mod_of_dvd _ (by decide))
  rw [list_clear_near, now, List.filter_filter]
  split
  · rename_i here
    refine (congrArg (List.map askNode) (List.filter_eq_nil_iff.mpr fun ask _ both => ?_)).symm
    simp only [Bool.and_eq_true, decide_eq_true_eq, here, place_now] at both
    exact both.2 both.1
  · rename_i other
    refine (holds p).trans (congrArg (List.map askNode) (List.filter_congr fun ask _ => ?_))
    symm
    rw [Bool.and_eq_left_iff_imp, decide_eq_true_eq, decide_eq_true_eq]
    rintro rfl rfl
    exact other (place_now.mpr rfl)

end Holds

/-- The messages of timeouts. -/
def eventsOf (events : List TimerEvent) : List (Nat × SkynetMessage) :=
  events.map fun event => (event.handle, eventMessage event)

/-- What holds whenever the lock is free. Each tick has had its timeouts pushed, but for those of the
present one that are still being walked. -/
structure OnTime (start : Nat) (s : TimerSystem) : Prop where
  time : s.timer.time = s.clock % 2 ^ 32
  near : ∀ ask ∈ s.asked, ask.2 < s.clock + 2 ^ 31
  lists : Holds s.timer (s.asked.filter fun ask => s.clock < ask.2) s.clock
  sent : ∀ k, s.sentAt k ++ (if k = s.clock then eventsOf (s.walking.map TimerNode.event) else []) =
    if k ≤ s.clock then s.askedFor k else []
  idle : s.phase = .idle → s.walking = []
  rounds : s.phase ≠ .idle → 0 < s.rounds
  now : (s.current + if s.phase = .after then 1 else 0) % 2 ^ 64 = (start + s.clock + s.rounds) % 2 ^ 64

section Steps
variable {s u : TimerSystem} {start k : Nat}
open TimerSystem

theorem sentAt_push (s : TimerSystem) (event : TimerEvent) (k : Nat) :
    (s.push event).sentAt k = s.sentAt k ++ if k = s.clock then eventsOf [event] else [] := by
  rw [sentAt, sentAt, push, List.filter_append, List.map_append, List.filter_singleton]
  by_cases here : k = s.clock
  · simp [here, eventsOf]
  · simp [here, Ne.symm here]

theorem askedFor_snoc (asked : List (TimerEvent × Nat)) (event : TimerEvent) (due : Nat)
    (later : k < due) :
    ((asked ++ [(event, due)]).filter fun ask => ask.2 = k) = asked.filter fun ask => ask.2 = k := by
  rw [List.filter_append, List.filter_singleton, decide_eq_false (Nat.ne_of_gt later)]
  exact List.append_nil _

theorem OnTime.skynet_timeout (onTime : OnTime start s) (alive : Bool) (handle : Nat) (time : BitVec 32) (session : Int) :
    OnTime start (s.skynet_timeout alive handle time session).2 := by
  rw [TimerSystem.skynet_timeout]
  split
  · refine ⟨onTime.time, onTime.near, onTime.lists, fun k => ?_, onTime.idle, onTime.rounds, onTime.now⟩
    refine Eq.trans (congrArg (· ++ _) ?_) (onTime.sent k)
    rw [sentAt, sentAt, List.filter_append, List.filter_singleton]
    simp
  · rename_i positive
    rw [BitVec.toInt_eq_toNat_cond] at positive
    have range : 0 < time.toNat ∧ time.toNat < 2 ^ 31 := by
      have := time.isLt
      split at positive <;> omega
    have asked : ((s.asked ++ [((⟨handle, session⟩ : TimerEvent), s.clock + time.toNat)]).filter
        fun ask => s.clock < ask.2) = (s.asked.filter fun ask => s.clock < ask.2) ++
          [((⟨handle, session⟩ : TimerEvent), s.clock + time.toNat)] := by
      rw [List.filter_append, List.filter_singleton, decide_eq_true (by omega)]
      rfl
    refine ⟨?_, fun ask mem => ?_, ?_, fun k => ?_, onTime.idle, onTime.rounds, onTime.now⟩
    · exact (time_add_node _ _).trans onTime.time
    · obtain old | new := List.mem_append.mp mem
      · exact onTime.near ask old
      · rw [List.mem_singleton.mp new]
        exact Nat.add_lt_add_left range.2 _
    · dsimp only
      rw [asked]
      exact onTime.lists.add onTime.time range.2
    · refine (onTime.sent k).trans ?_
      dsimp only
      split
      · rw [askedFor, askedFor, askedFor_snoc _ _ _ (by omega)]
      · rfl

/-- A tick just begun, its own timeouts still in their list. -/
structure Ticked (start : Nat) (s : TimerSystem) : Prop where
  time : s.timer.time = s.clock % 2 ^ 32
  near : ∀ ask ∈ s.asked, ask.2 < s.clock + 2 ^ 31
  lists : Holds s.timer (s.asked.filter fun ask => s.clock ≤ ask.2) s.clock
  sent : ∀ k, s.sentAt k = if k < s.clock then s.askedFor k else []
  walked : s.walking = []
  rounds : 0 < s.rounds
  now : (s.current + 1) % 2 ^ 64 = (start + s.clock + s.rounds) % 2 ^ 64

theorem OnTime.near_list (onTime : OnTime start s) : s.timer.near_list = [] := by
  rw [onTime.lists.near_list onTime.time, List.filter_filter]
  refine congrArg (List.map askNode) (List.filter_eq_nil_iff.mpr fun ask _ both => ?_)
  simp only [Bool.and_eq_true, decide_eq_true_eq] at both
  omega

theorem OnTime.shifted (onTime : OnTime start s) (walked : s.walking = []) (rounds : 0 < s.rounds)
    (phase : s.phase ≠ .after) : Ticked start s.shifted := by
  have ahead : ∀ ask ∈ s.asked.filter (fun ask => s.clock < ask.2),
      s.clock < ask.2 ∧ ask.2 < s.clock + 2 ^ 31 := fun ask mem =>
    ⟨of_decide_eq_true (List.mem_filter.mp mem).2, onTime.near ask (List.mem_of_mem_filter mem)⟩
  have now := onTime.now
  rw [if_neg phase] at now
  refine ⟨time_timer_shift onTime.time, fun ask mem => ?_, onTime.lists.shift onTime.time ahead, fun k => ?_,
    walked, rounds, ?_⟩
  · exact (onTime.near ask mem).trans (Nat.add_lt_add_right (Nat.lt_succ_self _) _)
  · have sent := onTime.sent k
    rw [walked] at sent
    simp only [← Nat.lt_succ_iff] at sent
    refine Eq.trans ?_ sent
    split
    · exact (List.append_nil _).symm
    · exact (List.append_nil _).symm
  · simp only [TimerSystem.shifted]
    omega

theorem Ticked.update_after (ticked : Ticked start s) : OnTime start s.update_after := by
  have left : (s.asked.filter fun ask => s.clock ≤ ask.2).filter (fun ask => ask.2 ≠ s.clock) =
      s.asked.filter fun ask => s.clock < ask.2 := by
    rw [List.filter_filter]
    refine List.filter_congr fun ask _ => ?_
    rw [← Bool.decide_and, decide_eq_decide]
    omega
  have cleared := ticked.lists.clear_near ticked.time
  rw [left] at cleared
  have due := ticked.lists.near_list ticked.time
  have now : (s.asked.filter fun ask => s.clock ≤ ask.2).filter (fun ask => ask.2 = s.clock) =
      s.asked.filter fun ask => ask.2 = s.clock := by
    rw [List.filter_filter]
    refine List.filter_congr fun ask _ => ?_
    rw [← Bool.decide_and, decide_eq_decide]
    omega
  rw [now] at due
  have walked : eventsOf (s.timer.near_list.map TimerNode.event) = s.askedFor s.clock := by
    rw [due, List.map_map, eventsOf, List.map_map]
    rfl
  have sent (k : Nat) : s.sentAt k ++ (if k = s.clock then s.askedFor s.clock else []) =
      if k ≤ s.clock then s.askedFor k else [] := by
    rw [ticked.sent]
    obtain less | rfl | more := lt_trichotomy k s.clock
    · rw [if_pos less, if_neg less.ne, if_pos less.le, List.append_nil]
    · rw [if_neg (lt_irrefl _), if_pos rfl, if_pos le_rfl, List.nil_append]
    · rw [if_neg more.not_gt, if_neg more.ne', if_neg more.not_ge, List.append_nil]
  rw [TimerSystem.update_after]
  split
  · refine ⟨ticked.time, ticked.near, cleared, fun k => ?_, fun idle => ?_, fun _ => ticked.rounds, ticked.now⟩
    · refine Eq.trans ?_ (sent k)
      simp only [take, walked]
      rfl
    · exact TimerPhase.noConfusion idle
  · rename_i none_
    rw [ne_eq, not_not] at none_
    have same : ∀ p, s.timer.clear_near.list p = s.timer.list p := fun p => by
      rw [list_clear_near]
      split
      · rename_i here
        rw [here]
        exact none_.symm
      · rfl
    have empty : s.askedFor s.clock = [] := by rw [← walked, none_]; rfl
    refine ⟨ticked.time, ticked.near, fun p => (same p).symm.trans (cleared p), fun k => ?_, fun _ => ticked.walked,
      fun busy => absurd rfl busy, ?_⟩
    · refine Eq.trans ?_ (sent k)
      simp only [ticked.walked, empty]
      rfl
    · have := ticked.rounds
      have := ticked.now
      dsimp only
      rw [if_neg (by decide)]
      omega

theorem OnTime.update_after (onTime : OnTime start s) (walked : s.walking = []) (phase : s.phase = .after) :
    OnTime start s.update_after := by
  rw [TimerSystem.update_after, if_neg (not_not.mpr onTime.near_list)]
  refine ⟨onTime.time, onTime.near, onTime.lists, onTime.sent, fun _ => walked, fun busy => absurd rfl busy, ?_⟩
  have now := onTime.now
  have := onTime.rounds (by rw [phase]; decide)
  rw [if_pos phase] at now
  dsimp only
  rw [if_neg (by decide)]
  omega

theorem OnTime.update_before (onTime : OnTime start s) (walked : s.walking = []) (rounds : 0 < s.rounds)
    (phase : s.phase ≠ .after) : OnTime start s.update_before := by
  rw [TimerSystem.update_before, if_neg (not_not.mpr onTime.near_list)]
  exact (onTime.shifted walked rounds phase).update_after

theorem OnTime.update (onTime : OnTime start s) (moved : s.update = some u) : OnTime start u := by
  rw [TimerSystem.update] at moved
  split at moved
  · rename_i node rest walking
    obtain rfl := Option.some.inj moved
    refine ⟨onTime.time, onTime.near, onTime.lists, fun k => ?_, fun idle => ?_, onTime.rounds, onTime.now⟩
    · have sent := onTime.sent k
      rw [walking] at sent
      rw [sentAt_push, List.append_assoc]
      refine Eq.trans (congrArg (List.append _) ?_) sent
      change (if k = s.clock then eventsOf [node.event] else []) ++
        (if k = s.clock then eventsOf (rest.map TimerNode.event) else []) = _
      split
      · rfl
      · rfl
    · exact nomatch (onTime.idle idle).symm.trans walking
  · rename_i walking
    split at moved
    · rename_i phase
      split at moved
      · cases moved
      · obtain rfl := Option.some.inj moved
        exact onTime.update_before walking (by omega) (by rw [phase]; decide)
    · rename_i phase
      obtain rfl := Option.some.inj moved
      exact onTime.update_before walking (onTime.rounds (by rw [phase]; decide)) (by rw [phase]; decide)
    · rename_i phase
      obtain rfl := Option.some.inj moved
      exact onTime.update_after walking phase

theorem OnTime.skynet_updatetime (onTime : OnTime start s) {cp : Nat}
    (moved : s.skynet_updatetime cp = some u) : OnTime start u := by
  rw [TimerSystem.skynet_updatetime] at moved
  split at moved
  · rename_i done
    have now := onTime.now
    rw [done.1, done.2, if_neg (by decide)] at now
    split at moved
    · obtain rfl := Option.some.inj moved
      exact ⟨onTime.time, onTime.near, onTime.lists, onTime.sent, onTime.idle, onTime.rounds, onTime.now⟩
    split at moved
    · obtain rfl := Option.some.inj moved
      refine ⟨onTime.time, onTime.near, onTime.lists, onTime.sent, onTime.idle, fun busy => absurd done.1 busy, ?_⟩
      dsimp only
      rw [done.1, if_neg (by decide)]
      omega
    · obtain rfl := Option.some.inj moved
      exact onTime
  · cases moved

theorem OnTime.step {act : TimerAct} (onTime : OnTime start s) (moved : s.step act = some u) : OnTime start u := by
  cases act with
  | skynet_timeout alive handle time session =>
      obtain rfl := Option.some.inj moved
      exact onTime.skynet_timeout alive handle time session
  | update => exact onTime.update moved
  | skynet_updatetime cp => exact onTime.skynet_updatetime moved

theorem onTime_init (current : BitVec 32) (current_point : Nat) :
    OnTime current.toNat (skynet_timer_init current current_point) where
  time := rfl
  near ask mem := absurd mem List.not_mem_nil
  lists p := by
    obtain ⟨level, idx⟩ := p
    cases level with
    | zero => rfl
    | succ i => rfl
  sent k := by
    change [] ++ (if k = 0 then [] else []) = if k ≤ 0 then [] else []
    split <;> split <;> rfl
  idle _ := rfl
  rounds busy := absurd rfl busy
  now := rfl

end Steps

/-- Whatever the order of timeouts, pushes and shifts: what the timer thread pushes at a tick is what was asked
for that tick, in the order of the calls, each event once, and at rest `skynet_now` counts the ticks. -/
theorem timer_on_time {current : BitVec 32} {current_point : Nat} {acts : List TimerAct} {s : TimerSystem}
    (run : Run TimerSystem.step anyStep (TimerSystem.skynet_timer_init current current_point) acts s) :
    (∀ k, s.sentAt k ++ (if k = s.clock then eventsOf (s.walking.map TimerNode.event) else []) =
      if k ≤ s.clock then s.askedFor k else []) ∧
      (s.phase = .idle → s.current % 2 ^ 64 = (current.toNat + s.clock + s.rounds) % 2 ^ 64) := by
  have onTime : OnTime current.toNat s := run.invariant (OnTime current.toNat) (onTime_init current current_point)
    fun _ _ _ onTime _ moved => onTime.step moved
  refine ⟨onTime.sent, fun idle => ?_⟩
  have now := onTime.now
  rwa [idle, if_neg (by decide)] at now

/-- A timeout of two ticks, one of one tick, and one that is pushed at once. -/
theorem timer_on_time_two : ∃ s, Run TimerSystem.step anyStep (TimerSystem.skynet_timer_init 0 0)
    [.skynet_timeout true 7 2 1, .skynet_timeout true 8 1 2, .skynet_timeout true 9 0 3, .skynet_updatetime 2,
      .update, .update, .update, .update, .update] s ∧ s.sentAt 1 = [(8, ⟨0, 2, 1⟩)] ∧
    (∀ k, s.sentAt k ++ (if k = s.clock then eventsOf (s.walking.map TimerNode.event) else []) =
      if k ≤ s.clock then s.askedFor k else []) ∧
      (s.phase = .idle → s.current % 2 ^ 64 = ((0 : BitVec 32).toNat + s.clock + s.rounds) % 2 ^ 64) := by
  obtain ⟨s, run, sent⟩ := run_of_exec_any TimerSystem.step (TimerSystem.skynet_timer_init 0 0)
    [.skynet_timeout true 7 2 1, .skynet_timeout true 8 1 2, .skynet_timeout true 9 0 3, .skynet_updatetime 2,
      .update, .update, .update, .update, .update] (fun s => s.sentAt 1 = [(8, ⟨0, 2, 1⟩)]) (by decide)
  exact ⟨s, run, sent, timer_on_time run⟩

end HuluLandlord.Skynet
