import HuluLandlord.Ddz.Clock

/-!
The critical section of a room with its queue. A request joins the queue when it
arrives, a timer's callback when its `skynet.timeout` fires and the timer has not been
cancelled by then. What `cb` does after `func` looks at nothing but the count of
iterations: it starts the next timeout, or sends `on_end` to the same queue.

A callback that is already in the queue when the player answers is no longer stopped
by `cancel_timer`. `Clean` says which of these may still run, and in the runs that
keep to it the callbacks of a prompt that is over change nothing.
-/
namespace HuluLandlord.Ddz
open Transition

/-- An entry of the queue. -/
inductive Job
  | request (p : Seat) (request : Request)
  | func (id : Nat)
  | on_end (id : Nat)
  deriving DecidableEq

def Job.timer : Job → Option Nat
  | .request .. => none
  | .func id | .on_end id => some id

def Job.event : Job → Event
  | .request p asked => .request p asked
  | .func id => .tick id
  | .on_end id => .onEnd id

/-- The `cb` that goes on after the section. -/
def Job.cb : Job → Option Nat
  | .func id => some id
  | _ => none

/-- A room, the queue of its section, and the timer whose `func` sleeps inside it. -/
structure TimedRoom where
  room : Room
  queue : List Job
  holder : Option Nat

inductive Occurrence
  | request (p : Seat) (request : Request)
  | timeout (id : Nat)
  | run (d : Draws)
  | resume (d : Draws)
  | wait (w : Wait) (d : Draws)
  | agent (p : Seat) (agent : UserAgent)

/-- `iteration` after a tick. -/
def Timer.next (t : Timer) : Int := if 0 < t.iteration then t.iteration - 1 else t.iteration

namespace TimedRoom
variable (conf : Conf)

def enqueue (s : TimedRoom) (job : Job) : TimedRoom := { s with queue := s.queue ++ [job] }

def setTimer (s : TimedRoom) (id : Nat) (f : Timer → Timer) : TimedRoom :=
  { s with room := s.room.setTimer id f }

/-- `cb` up to the queue; a cancelled timer has no `func`. -/
def timeout (s : TimedRoom) (id : Nat) : Option TimedRoom :=
  match s.room.timers[id]? with
  | some t =>
      if t.armed then
        let s := s.setTimer id fun t => { t with armed := false }
        some (if t.canceled then s else s.enqueue (.func id))
      else none
  | none => none

/-- `cb` from the return of `func` on. -/
def afterFunc (s : TimedRoom) (id : Nat) : TimedRoom :=
  match s.room.timers[id]? with
  | some t =>
      if t.next ≠ 0 then s.setTimer id fun t => { t with iteration := t.next, armed := true }
      else (s.setTimer id fun t => { t with iteration := t.next }).enqueue (.on_end id)
  | none => s

/-- The section is left, or it sleeps; an error ends the `cb` it came from. -/
def leave (s : TimedRoom) (outcome : Outcome) : TimedRoom :=
  match s.holder, outcome with
  | some id, .ret _ => { s with holder := none }.afterFunc id
  | some _, .raised _ => { s with holder := none }
  | _, _ => s

/-- The first entry of the queue gets the section. -/
def run (s : TimedRoom) (d : Draws) : Option TimedRoom :=
  match s.queue with
  | [] => none
  | job :: queue => (s.room.exec conf job.event d).map fun done =>
      (⟨done.1, queue, job.cb⟩ : TimedRoom).leave done.2

def resume (s : TimedRoom) (d : Draws) : Option TimedRoom :=
  (s.room.exec conf .resume d).map fun done => { s with room := done.1 }.leave done.2

def step (s : TimedRoom) (o : Occurrence) : Option TimedRoom :=
  match o with
  | .request p request => some (s.enqueue (.request p request))
  | .timeout id => s.timeout id
  | .run d => s.run conf d
  | .resume d => s.resume conf d
  | .wait w d => (s.room.exec conf (.wait w) d).map fun done => { s with room := done.1 }
  | .agent p agent => some { s with room := s.room.setAgent p agent }

def init (agents : Seat → UserAgent) (gold : Seat → Int) (d : Draws) : TimedRoom :=
  ⟨Room.init conf agents gold d, [], none⟩

/-- The timer whose callback an occurrence starts. -/
def callback (s : TimedRoom) : Occurrence → Option Nat
  | .timeout id => some id
  | .run _ => s.queue.head?.bind Job.timer
  | _ => none

end TimedRoom

namespace Room

/-- The prompt a timer belongs to is still to be answered: its player is in the state
of the prompt and has not been prompted again. -/
def Open (r : Room) (t : Timer) : Prop :=
  (r.players t.owner).state = t.state ∧
    ∀ t' ∈ r.timers, t'.owner = t.owner → t'.prompt ≤ t.prompt

/-- Everything of a room but the timers' own counters. -/
def visible (r : Room) : Room := { r with timers := [] }

end Room

/-- A tick of the first stage that is not its last one. -/
def Timer.Counting (t : Timer) : Prop := (∃ n, t.stage = .check n) ∧ 2 ≤ t.iteration

/-- `cb` comes back to a timer that has been cancelled and finds nothing to do: a first
stage only counts, a second one whose end is due does not act for its player. -/
def Timer.Idle (r : Room) (t : Timer) : Prop :=
  match t.stage with
  | .check n => n - 1 ≤ 0 → (r.players t.owner).isTrusteeship = true →
      (r.players t.owner).state ≠ t.state
  | .count =>
      if t.state = .doubleing ∨ t.state = .doubleMax then (r.players t.owner).state ≠ t.state
      else (r.players t.owner).isTrusteeship = true

namespace TimedRoom
variable (conf : Conf)

/-- When a section cancels a timer, the callbacks of that timer that wait in the queue or
run at the moment are the end of a second stage or a tick that only counts. -/
def CancelsClean (s : TimedRoom) (queue : List Job) (r' : Room) : Prop :=
  ∀ (id : Nat) (t t' : Timer), s.room.timers[id]? = some t → r'.timers[id]? = some t' →
    t.canceled = false → t'.canceled = true →
    (.on_end id ∈ queue → t.stage = .count) ∧ (.func id ∈ s.queue → t.Counting)

/-- The callback of a cancelled timer gets the section only when it has nothing to do. -/
def StaleClean (s : TimedRoom) (job : Job) : Prop :=
  ∀ (id : Nat) (t : Timer), job.timer = some id → s.room.timers[id]? = some t →
    t.canceled = true → t.Idle s.room

/-- The condition on an occurrence. -/
def Clean (s : TimedRoom) (o : Occurrence) : Prop :=
  ∀ d job queue done, o = .run d → s.queue = job :: queue →
    s.room.exec conf job.event d = some done → s.CancelsClean queue done.1 ∧ s.StaleClean job

end TimedRoom

theorem timer_of_func {queue : List Job} {id : Nat} (mem : .func id ∈ queue) :
    id ∈ queue.filterMap Job.timer := List.mem_filterMap.mpr ⟨_, mem, rfl⟩

theorem timer_of_end {queue : List Job} {id : Nat} (mem : .on_end id ∈ queue) :
    id ∈ queue.filterMap Job.timer := List.mem_filterMap.mpr ⟨_, mem, rfl⟩

/-- A callback of the timer is still to come. -/
def Pending (queue : List Job) (holder : Option Nat) (id : Nat) (t : Timer) : Prop :=
  t.armed = true ∨ id ∈ queue.filterMap Job.timer ∨ holder = some id

/-- Each timer has at most one callback to come; that of a timer that has not been
cancelled belongs to a prompt that is open, and that of a cancelled one only counts. -/
structure Orderly (c : Clocks) (queue : List Job) (holder : Option Nat) : Prop where
  tidy : c.Tidy
  once : (queue.filterMap Job.timer).Nodup
  queued : ∀ id ∈ queue.filterMap Job.timer,
    holder ≠ some id ∧ ∃ t : Timer, c.timers[id]? = some t ∧ t.armed = false
  held : ∀ id, holder = some id → ∃ t : Timer, c.timers[id]? = some t ∧ t.armed = false ∧
    (t.canceled = true → t.Counting)
  late : ∀ (id : Nat) (t : Timer), c.timers[id]? = some t → t.canceled = true →
    (.on_end id ∈ queue → t.stage = .count) ∧ (.func id ∈ queue → t.Counting)
  current : ∀ (id : Nat) (t : Timer), c.timers[id]? = some t → t.canceled = false →
    Pending queue holder id t → c.Current id t

namespace Orderly
variable {c c' : Clocks} {queue : List Job} {holder : Option Nat} {job : Job} {id : Nat} {t : Timer}

theorem drop (orderly : Orderly c queue holder) : Orderly c queue none where
  tidy := orderly.tidy
  once := orderly.once
  queued := fun id mem => ⟨Option.some_ne_none id |>.symm, (orderly.queued id mem).2⟩
  held := fun _ none' => by cases none'
  late := orderly.late
  current := by
    intro id t at' live pending
    apply orderly.current id t at' live
    obtain armed | mem | none' := pending
    · exact .inl armed
    · exact .inr (.inl mem)
    · cases none'

/-- The first entry of the queue leaves it. -/
theorem pop (orderly : Orderly c (job :: queue) holder) : Orderly c queue job.cb := by
  have once : (queue.filterMap Job.timer).Nodup ∧
      ∀ id, job.timer = some id → id ∉ queue.filterMap Job.timer := by
    have once := orderly.once
    rw [List.filterMap_cons] at once
    split at once
    · rename_i none'
      exact ⟨once, fun id some' => by rw [none'] at some'; cases some'⟩
    · rename_i id some'
      obtain ⟨fresh, once⟩ := List.nodup_cons.mp once
      refine ⟨once, fun id' some'' => ?_⟩
      obtain rfl := Option.some.inj (some'.symm.trans some'')
      exact fresh
  have later : ∀ id ∈ queue.filterMap Job.timer, id ∈ (job :: queue).filterMap Job.timer :=
    fun id mem => (List.sublist_cons_self job queue).filterMap _ |>.subset mem
  have holds : ∀ id, job.cb = some id → job = .func id := by
    intro id some'
    cases job with
    | func id' => exact congrArg Job.func (Option.some.inj some')
    | _ => cases some'
  refine ⟨orderly.tidy, once.1, ?_, ?_, ?_, ?_⟩
  · intro id mem
    refine ⟨fun some' => ?_, (orderly.queued id (later id mem)).2⟩
    exact once.2 id (holds id some' ▸ rfl) mem
  · intro id some'
    obtain rfl := holds id some'
    obtain ⟨t, at', armed⟩ := (orderly.queued id (timer_of_func List.mem_cons_self)).2
    exact ⟨t, at', armed, fun canceled =>
      (orderly.late id t at' canceled).2 List.mem_cons_self⟩
  · intro id t at' canceled
    obtain ⟨ending, counting⟩ := orderly.late id t at' canceled
    exact ⟨fun mem => ending (List.mem_cons_of_mem job mem),
      fun mem => counting (List.mem_cons_of_mem job mem)⟩
  · intro id t at' live pending
    apply orderly.current id t at' live
    obtain armed | mem | some' := pending
    · exact .inl armed
    · exact .inr (.inl (later id mem))
    · obtain rfl := holds id some'
      exact .inr (.inl (timer_of_func List.mem_cons_self))

theorem request (orderly : Orderly c queue holder) (p : Seat) (asked : Request) :
    Orderly c (queue ++ [.request p asked]) holder := by
  have same : (queue ++ [Job.request p asked]).filterMap Job.timer = queue.filterMap Job.timer := by
    rw [List.filterMap_append]
    exact List.append_nil _
  refine ⟨orderly.tidy, same ▸ orderly.once, same ▸ orderly.queued, orderly.held, ?_, ?_⟩
  · intro id t at' canceled
    obtain ⟨ending, counting⟩ := orderly.late id t at' canceled
    constructor
    · simpa using ending
    · simpa using counting
  · intro id t at' live pending
    rw [Pending, same] at pending
    exact orderly.current id t at' live pending

/-- The clocks go on, and the callbacks of what is cancelled only count. -/
theorem evolve (orderly : Orderly c queue holder) (evolves : c.Evolves c')
    (clean : ∀ (id : Nat) (t t' : Timer), c.timers[id]? = some t → c'.timers[id]? = some t' →
      t.canceled = false → t'.canceled = true →
      (.on_end id ∈ queue → t.stage = .count) ∧
        (.func id ∈ queue ∨ holder = some id → t.Counting)) :
    Orderly c' queue holder := by
  have old : ∀ (id : Nat) (t : Timer), c'.timers[id]? = some t → t.canceled = true →
      ∃ t' : Timer, c.timers[id]? = some t' ∧ ∃ b, t = { t' with canceled := b } := by
    intro id t at' canceled
    obtain inside | outside := Nat.lt_or_ge id c.timers.length
    · obtain ⟨b, after, _⟩ := evolves.kept.timer id _ (List.getElem?_eq_getElem inside)
      exact ⟨_, List.getElem?_eq_getElem inside, b, Option.some.inj (at'.symm.trans after)⟩
    · have live := (evolves.fresh id t outside at').1
      rw [canceled] at live
      cases live
  refine ⟨evolves.tidy, orderly.once, ?_, ?_, ?_, ?_⟩
  · intro id mem
    obtain ⟨free, t, at', armed⟩ := orderly.queued id mem
    obtain ⟨b, after, _⟩ := evolves.kept.timer id t at'
    exact ⟨free, _, after, armed⟩
  · intro id held
    obtain ⟨t, at', armed, counting⟩ := orderly.held id held
    obtain ⟨b, after, _⟩ := evolves.kept.timer id t at'
    refine ⟨_, after, armed, fun canceled => ?_⟩
    cases before : t.canceled with
    | true => exact counting before
    | false => exact (clean id t _ at' after before canceled).2 (.inr held)
  · intro id t after canceled
    obtain ⟨t', at', b, rfl⟩ := old id t after canceled
    cases before : t'.canceled with
    | true => exact orderly.late id t' at' before
    | false =>
        obtain ⟨ending, counting⟩ := clean id t' _ at' after before canceled
        exact ⟨ending, fun mem => counting (.inl mem)⟩
  · intro id t after live pending
    obtain inside | outside := Nat.lt_or_ge id c.timers.length
    · have at' := List.getElem?_eq_getElem inside
      obtain ⟨b, after', up⟩ := evolves.kept.timer id _ at'
      obtain rfl := Option.some.inj (after.symm.trans after')
      have down : b = false := live
      have before : (c.timers[id]).canceled = false := by
        by_contra raised
        rw [Bool.not_eq_false] at raised
        exact absurd (up raised) (by rw [down]; exact Bool.false_ne_true)
      have same : ({ c.timers[id] with canceled := b } : Timer) = c.timers[id] := by
        rw [down, ← before]
      rw [same] at after pending ⊢
      exact evolves.kept.current id _ at' after before
        (orderly.current id _ at' before pending)
    · exact (evolves.fresh id t outside after).2.2

end Orderly

/-- A change of one timer's counters. -/
structure Timer.Counts (t t' : Timer) : Prop where
  owner : t'.owner = t.owner
  state : t'.state = t.state
  prompt : t'.prompt = t.prompt
  canceled : t'.canceled = t.canceled

namespace Clocks
variable {c : Clocks} {id : Nat} {t : Timer} {f : Timer → Timer}

def setTimer (c : Clocks) (id : Nat) (f : Timer → Timer) : Clocks :=
  { c with timers := c.timers.modify id f }

theorem setTimer_self (at' : c.timers[id]? = some t) :
    (c.setTimer id f).timers[id]? = some (f t) := by
  simp [setTimer, at']

theorem setTimer_other {j : Nat} (other : j ≠ id) :
    (c.setTimer id f).timers[j]? = c.timers[j]? :=
  List.getElem?_modify_ne f c.timers other.symm

/-- The timers afterwards are those before with other counters. -/
theorem setTimer_counts (counts : ∀ t : Timer, t.Counts (f t)) {j : Nat} {t' : Timer}
    (after : (c.setTimer id f).timers[j]? = some t') :
    ∃ t, c.timers[j]? = some t ∧ t.Counts t' ∧ (j ≠ id → t' = t) := by
  by_cases here : j = id
  · subst here
    simp only [setTimer, List.getElem?_modify_eq, Option.map_eq_map, Option.map_eq_some_iff] at after
    obtain ⟨t, at', rfl⟩ := after
    exact ⟨t, at', counts t, fun other => absurd rfl other⟩
  · rw [setTimer_other here] at after
    exact ⟨t', after, ⟨rfl, rfl, rfl, rfl⟩, fun _ => rfl⟩

theorem tidy_setTimer (counts : ∀ t : Timer, t.Counts (f t)) (tidy : c.Tidy) : (c.setTimer id f).Tidy := by
  constructor
  · intro p j armed
    obtain ⟨t, at', owner⟩ := tidy.owned p j armed
    by_cases here : j = id
    · subst here
      exact ⟨f t, setTimer_self at', (counts t).owner.trans owner⟩
    · exact ⟨t, (setTimer_other here).trans at', owner⟩
  · intro t' mem
    obtain ⟨j, after⟩ := List.mem_iff_getElem?.mp mem
    obtain ⟨t, at', same, _⟩ := setTimer_counts counts after
    rw [same.prompt]
    exact (tidy.numbered t (List.mem_of_getElem? at')).trans_eq (List.length_modify _ _ _).symm

theorem current_setTimer (counts : ∀ t : Timer, t.Counts (f t)) {j : Nat} {t' : Timer} (same : t.Counts t')
    (current : c.Current j t) : (c.setTimer id f).Current j t' := by
  refine ⟨same.state ▸ current.timed, same.owner ▸ current.cancel, ?_, ?_⟩
  · rw [same.owner, same.state]
    exact current.state
  · intro t'' mem owner
    obtain ⟨i, after⟩ := List.mem_iff_getElem?.mp mem
    obtain ⟨t₀, at', same', _⟩ := setTimer_counts counts after
    rw [same.prompt, same'.prompt]
    apply current.newest t₀ (List.mem_of_getElem? at')
    rw [← same'.owner, owner, same.owner]

end Clocks

namespace Orderly
variable {c : Clocks} {queue : List Job} {holder : Option Nat} {id : Nat} {t : Timer}
  {f : Timer → Timer}

/-- A change of counters that leaves the timer where it is. -/
theorem setTimer (orderly : Orderly c queue holder) (counts : ∀ t : Timer, t.Counts (f t))
    (armed : ∀ t : Timer, (f t).armed = t.armed)
    (counting : ∀ t : Timer, t.Counting → (f t).Counting)
    (ending : .on_end id ∉ queue) :
    Orderly (c.setTimer id f) queue holder := by
  have moved : ∀ (j : Nat) (t : Timer), c.timers[j]? = some t → ∃ t' : Timer,
      (c.setTimer id f).timers[j]? = some t' ∧ t'.armed = t.armed ∧ t'.canceled = t.canceled ∧
        (t.Counting → t'.Counting) := by
    intro j t at'
    by_cases here : j = id
    · subst here
      exact ⟨f t, Clocks.setTimer_self at', armed t, (counts t).canceled, counting t⟩
    · exact ⟨t, (Clocks.setTimer_other here).trans at', rfl, rfl, fun counting => counting⟩
  refine ⟨Clocks.tidy_setTimer counts orderly.tidy, orderly.once, ?_, ?_, ?_, ?_⟩
  · intro j mem
    obtain ⟨free, t, at', idle⟩ := orderly.queued j mem
    obtain ⟨t', after, armed', _⟩ := moved j t at'
    exact ⟨free, t', after, armed'.trans idle⟩
  · intro j held
    obtain ⟨t, at', idle, only⟩ := orderly.held j held
    obtain ⟨t', after, armed', canceled', counting'⟩ := moved j t at'
    exact ⟨t', after, armed'.trans idle, fun canceled => counting' (only (canceled' ▸ canceled))⟩
  · intro j t' after canceled
    obtain ⟨t, at', _, keep⟩ := Clocks.setTimer_counts counts after
    obtain ⟨t'', after', _, canceled', counting'⟩ := moved j t at'
    obtain rfl := Option.some.inj (after'.symm.trans after)
    obtain ⟨last, only⟩ := orderly.late j t at' (canceled' ▸ canceled)
    refine ⟨fun mem => ?_, fun mem => counting' (only mem)⟩
    have other : j ≠ id := fun same => ending (same ▸ mem)
    exact keep other ▸ last mem
  · intro j t' after live pending
    obtain ⟨t, at', same, _⟩ := Clocks.setTimer_counts counts after
    obtain ⟨t'', after', armed', _, _⟩ := moved j t at'
    obtain rfl := Option.some.inj (after'.symm.trans after)
    rw [Pending, armed'] at pending
    exact Clocks.current_setTimer counts same
      (orderly.current j t at' (same.canceled ▸ live) pending)

/-- The callback of a timer moves from one place to another. -/
theorem move {queue' : List Job} {holder' : Option Nat} (orderly : Orderly c queue holder)
    (at' : c.timers[id]? = some t) (counts : ∀ t : Timer, t.Counts (f t))
    (pending : t.canceled = false → Pending queue holder id t)
    (once : (queue'.filterMap Job.timer).Nodup)
    (others : ∀ j, j ≠ id → (j ∈ queue'.filterMap Job.timer → j ∈ queue.filterMap Job.timer) ∧
      (holder' = some j → holder = some j))
    (jobs : ∀ job, job ∈ queue' → job.timer ≠ some id → job ∈ queue)
    (queued : id ∈ queue'.filterMap Job.timer → (f t).armed = false ∧ t.canceled = false)
    (free : holder' ≠ some id) : Orderly (c.setTimer id f) queue' holder' := by
  refine ⟨Clocks.tidy_setTimer counts orderly.tidy, once, ?_, ?_, ?_, ?_⟩
  · intro j mem
    by_cases here : j = id
    · subst here
      exact ⟨free, f t, Clocks.setTimer_self at', (queued mem).1⟩
    · obtain ⟨away, t', old, idle⟩ := orderly.queued j ((others j here).1 mem)
      exact ⟨fun held => away ((others j here).2 held), t',
        (Clocks.setTimer_other here).trans old, idle⟩
  · intro j held
    have other : j ≠ id := fun same => free (same ▸ held)
    obtain ⟨t', old, idle, only⟩ := orderly.held j ((others j other).2 held)
    exact ⟨t', (Clocks.setTimer_other other).trans old, idle, only⟩
  · intro j t' after canceled
    by_cases here : j = id
    · subst here
      obtain rfl := Option.some.inj ((Clocks.setTimer_self at').symm.trans after)
      have gone : j ∉ queue'.filterMap Job.timer := by
        intro mem
        have live := (queued mem).2
        rw [← (counts t).canceled, canceled] at live
        cases live
      exact ⟨fun mem => absurd (timer_of_end mem) gone, fun mem => absurd (timer_of_func mem) gone⟩
    · rw [Clocks.setTimer_other here] at after
      have away : ∀ job : Job, job.timer = some j → job.timer ≠ some id :=
        fun job own same => here (Option.some.inj (own.symm.trans same))
      obtain ⟨ending, only⟩ := orderly.late j t' after canceled
      exact ⟨fun mem => ending (jobs _ mem (away _ rfl)),
        fun mem => only (jobs _ mem (away _ rfl))⟩
  · intro j t' after live pending'
    obtain ⟨t₀, old, same, keep⟩ := Clocks.setTimer_counts counts after
    apply Clocks.current_setTimer counts same
    apply orderly.current j t₀ old (same.canceled ▸ live)
    by_cases here : j = id
    · subst here
      obtain rfl := Option.some.inj (at'.symm.trans old)
      exact pending (same.canceled ▸ live)
    · obtain rfl := keep here
      obtain armed | mem | held := pending'
      · exact .inl armed
      · exact .inr (.inl ((others j here).1 mem))
      · exact .inr (.inr ((others j here).2 held))

/-- The first stage of a prompt hands over to a second timer. -/
theorem second (orderly : Orderly c queue none) (at' : c.timers[id]? = some t)
    (second : Timer) (current : c.Current id t) (gone : ¬Pending queue none id t) (owner : second.owner = t.owner)
    (state : second.state = t.state) (prompt : second.prompt = t.prompt)
    (live : second.canceled = false) :
    Orderly ⟨c.timers ++ [second],
      Function.update c.cancel_timer t.owner (some c.timers.length), c.pstate⟩ queue none := by
  have newest : ∀ t' ∈ c.timers ++ [second], t'.owner = t.owner → t'.prompt ≤ t.prompt := by
    intro t' mem same
    obtain old | new := List.mem_append.mp mem
    · exact current.newest t' old same
    · rw [List.mem_singleton.mp new, prompt]
  refine ⟨⟨?_, ?_⟩, orderly.once, ?_, fun _ none' => (by cases none'), ?_, ?_⟩
  · intro p j armed
    have armed : Function.update c.cancel_timer t.owner (some c.timers.length) p = some j := armed
    rw [Function.update_apply] at armed
    split at armed
    · rename_i here
      obtain rfl := Option.some.inj armed
      exact ⟨second, List.getElem?_concat_length, owner.trans here.symm⟩
    · obtain ⟨t', old, same⟩ := orderly.tidy.owned p j armed
      exact ⟨t', Table.append_found old, same⟩
  · intro t' mem
    show t'.prompt < (c.timers ++ [second]).length
    rw [List.length_append, List.length_singleton]
    apply Nat.lt_succ_of_lt
    obtain old | new := List.mem_append.mp mem
    · exact orderly.tidy.numbered t' old
    · rw [List.mem_singleton.mp new, prompt]
      exact orderly.tidy.numbered t (List.mem_of_getElem? at')
  · intro j mem
    obtain ⟨free, t', old, idle⟩ := orderly.queued j mem
    exact ⟨free, t', Table.append_found old, idle⟩
  · intro j t' after canceled
    obtain old | ⟨_, rfl⟩ := Table.concat_cases after
    · exact orderly.late j t' old canceled
    · rw [live] at canceled
      cases canceled
  · intro j t' after live' pending
    obtain old | ⟨rfl, rfl⟩ := Table.concat_cases after
    · have now := orderly.current j t' old live' pending
      have other : t'.owner ≠ t.owner := by
        intro same
        have sameId : j = id := by
          apply Option.some.inj
          rw [← now.cancel, same, current.cancel]
        subst sameId
        obtain rfl := Option.some.inj (at'.symm.trans old)
        exact gone pending
      refine ⟨now.timed, (Function.update_of_ne other _ _).trans now.cancel, now.state, ?_⟩
      intro t'' mem same
      obtain old' | new := List.mem_append.mp mem
      · exact now.newest t'' old' same
      · rw [List.mem_singleton.mp new, owner] at same
        exact absurd same.symm other
    · refine ⟨state ▸ current.timed, ?_, ?_, ?_⟩
      · rw [owner]
        exact Function.update_self _ _ _
      · rw [owner, state]
        exact current.state
      · rw [owner, prompt]
        exact newest

end Orderly

namespace TimedRoom
variable {conf : Conf} {s s' : TimedRoom}

structure Sound (s : TimedRoom) : Prop where
  phased : s.room.Phased
  orderly : Orderly s.room.clocks s.queue s.holder

/-- The `cb` of a timer that is done with its tick. -/
theorem sound_afterFunc {r : Room} {queue : List Job} {id : Nat}
    (sound : Sound ⟨r, queue, some id⟩) : Sound ((⟨r, queue, none⟩ : TimedRoom).afterFunc id) := by
  have phased : r.Phased := sound.phased
  have orderly : Orderly r.clocks queue (some id) := sound.orderly
  obtain ⟨t, at', idle, counting⟩ := orderly.held id rfl
  have fresh : id ∉ queue.filterMap Job.timer := fun mem => (orderly.queued id mem).1 rfl
  have found : r.timers[id]? = some t := at'
  simp only [afterFunc, found]
  split
  · refine ⟨phased.of_control rfl, ?_⟩
    exact orderly.move at' (f := fun t => { t with iteration := t.next, armed := true })
      (fun _ => ⟨rfl, rfl, rfl, rfl⟩) (fun _ => .inr (.inr rfl)) orderly.once
      (fun _ _ => ⟨fun mem => mem, fun none' => by cases none'⟩) (fun _ mem _ => mem)
      (fun mem => absurd mem fresh) (Option.some_ne_none id).symm
  · rename_i last
    have live : t.canceled = false := by
      by_contra raised
      rw [Bool.not_eq_false] at raised
      have more := (counting raised).2
      rw [not_not, Timer.next] at last
      split at last
      · omega
      · omega
    have queued : (queue ++ [Job.on_end id]).filterMap Job.timer =
        queue.filterMap Job.timer ++ [id] := by
      rw [List.filterMap_append]
      rfl
    refine ⟨phased.of_control rfl, ?_⟩
    refine orderly.move at' (f := fun t => { t with iteration := t.next })
      (fun _ => ⟨rfl, rfl, rfl, rfl⟩) (fun _ => .inr (.inr rfl)) ?_ ?_ ?_ (fun _ => ⟨idle, live⟩)
      (Option.some_ne_none id).symm
    · show ((queue ++ [Job.on_end id]).filterMap Job.timer).Nodup
      rw [queued]
      exact orderly.once.append (List.nodup_singleton id) (by simpa using fresh)
    · intro j other
      refine ⟨fun mem => ?_, fun none' => by cases none'⟩
      have mem : j ∈ (queue ++ [Job.on_end id]).filterMap Job.timer := mem
      rw [queued] at mem
      simpa [other] using mem
    · intro job mem other
      obtain mem | mem := List.mem_append.mp mem
      · exact mem
      · rw [List.mem_singleton.mp mem] at other
        exact absurd rfl other

theorem sound_leave (sound : s.Sound) (outcome : Outcome) : (s.leave outcome).Sound := by
  obtain ⟨r, queue, holder⟩ := s
  cases holder with
  | none => exact sound
  | some id =>
      cases outcome with
      | ret retVal => exact sound_afterFunc sound
      | raised message => exact ⟨sound.phased, sound.orderly.drop⟩
      | sleeping => exact sound

/-- A section evolves the clocks; what it cancels is as `Clean` allows. -/
theorem orderly_section {job : Job} {queue : List Job} {r' : Room} (sound : s.Sound)
    (head : s.queue = job :: queue) (clean : s.CancelsClean queue r')
    (evolves : s.room.clocks.Evolves r'.clocks) : Orderly r'.clocks queue job.cb := by
  have popped : Orderly s.room.clocks queue job.cb := Orderly.pop (head ▸ sound.orderly)
  refine popped.evolve evolves fun id t t' before after live canceled => ?_
  obtain ⟨ending, counting⟩ := clean id t t' before after live canceled
  refine ⟨ending, fun here => counting ?_⟩
  rw [head]
  obtain mem | held := here
  · exact List.mem_cons_of_mem job mem
  · cases job with
    | func id' =>
        obtain rfl := Option.some.inj held
        exact List.mem_cons_self
    | _ => cases held

theorem ticked_counts (n : Int) (t : Timer) : t.Counts { t with stage := .check n } :=
  ⟨rfl, rfl, rfl, rfl⟩

/-- The section a tick is. -/
theorem orderly_tick {id : Nat} {queue : List Job} {t : Timer} {d : Draws} (sound : s.Sound)
    (head : s.queue = .func id :: queue) (at' : s.room.timers[id]? = some t)
    (clean : s.CancelsClean queue (s.room.timerFunc conf id t d).1) :
    Orderly (s.room.timerFunc conf id t d).1.clocks queue (some id) := by
  have popped : Orderly s.room.clocks queue (some id) := Orderly.pop (head ▸ sound.orderly)
  have answers := Room.timerFunc_answers conf (d := d) sound.phased id t
  cases stage : t.stage with
  | count =>
      have same : s.room.ticked id t = s.room := by simp only [Room.ticked, stage]
      rw [same] at answers
      exact orderly_section sound head clean (answers.evolves popped.tidy)
  | check n =>
      have same : (s.room.ticked id t).clocks =
          s.room.clocks.setTimer id fun t => { t with stage := .check (n - 1) } := by
        simp only [Room.ticked, stage]
        rfl
      rw [same] at answers
      have alone : Job.on_end id ∉ queue := fun mem =>
        (popped.queued id (timer_of_end mem)).1 rfl
      have counted := popped.setTimer (ticked_counts (n - 1)) (fun _ => rfl)
        (fun t counting => ⟨⟨n - 1, rfl⟩, counting.2⟩) alone
      refine counted.evolve (answers.evolves counted.tidy) fun j t₁ t' before after live canceled => ?_
      obtain ⟨t₀, old, counts, keep⟩ := Clocks.setTimer_counts (ticked_counts (n - 1)) before
      obtain ⟨ending, counting⟩ := clean j t₀ t' old after (counts.canceled ▸ live) canceled
      refine ⟨fun mem => ?_, fun here => ?_⟩
      · have other : j ≠ id := fun same => alone (same ▸ mem)
        exact keep other ▸ ending mem
      have queued : Job.func j ∈ s.queue := by
        rw [head]
        obtain mem | held := here
        · exact List.mem_cons_of_mem _ mem
        · obtain rfl := Option.some.inj held
          exact List.mem_cons_self
      by_cases self : j = id
      · subst self
        obtain rfl := Option.some.inj ((Clocks.setTimer_self old).symm.trans before)
        exact ⟨⟨n - 1, rfl⟩, (counting queued).2⟩
      · exact keep self ▸ counting queued

/-- The section an `on_end` is. -/
theorem orderly_end {id : Nat} {queue : List Job} {t : Timer} {d : Draws} (sound : s.Sound)
    (head : s.queue = .on_end id :: queue) (at' : s.room.timers[id]? = some t)
    (clean : s.CancelsClean queue (s.room.timerEnd conf t d).1) :
    Orderly (s.room.timerEnd conf t d).1.clocks queue none := by
  cases stage : t.stage with
  | count =>
      have answers := Room.timerEnd_answers conf (d := d) sound.phased t stage
      exact orderly_section sound head clean (answers.evolves sound.orderly.tidy)
  | check n =>
      have orderly : Orderly s.room.clocks (.on_end id :: queue) s.holder := head ▸ sound.orderly
      have at' : s.room.clocks.timers[id]? = some t := at'
      have popped : Orderly s.room.clocks queue none := orderly.pop
      have live : t.canceled = false := by
        by_contra raised
        rw [Bool.not_eq_false] at raised
        have second := (orderly.late id t at' raised).1 List.mem_cons_self
        rw [stage] at second
        cases second
      have placed : id ∈ (Job.on_end id :: queue).filterMap Job.timer :=
        timer_of_end List.mem_cons_self
      have current := orderly.current id t at' live (.inr (.inl placed))
      have gone : ¬Pending queue none id t := by
        intro pending
        obtain armed | mem | none' := pending
        · obtain ⟨_, t', old, idle⟩ := orderly.queued id placed
          obtain rfl := Option.some.inj (at'.symm.trans old)
          rw [armed] at idle
          cases idle
        · have once : (id :: queue.filterMap Job.timer).Nodup := orderly.once
          exact (List.nodup_cons.mp once).1 mem
        · cases none'
      have handed := popped.second at' { t with
        stage := .count, iteration := (s.room.players t.owner).clock, canceled := false,
        armed := true } current gone rfl rfl rfl rfl
      have clocks : (s.room.timerEnd conf t d).1.clocks = ⟨s.room.timers ++ [{ t with
          stage := .count, iteration := (s.room.players t.owner).clock, canceled := false,
          armed := true }], Function.update s.room.clocks.cancel_timer t.owner
            (some s.room.timers.length), s.room.clocks.pstate⟩ := by
        simp only [Room.timerEnd, stage, Room.clocks, Room.modify, Clocks.mk.injEq, true_and]
        constructor
        · funext q
          by_cases here : q = t.owner
          · simp [here]
          · simp [here]
        · funext q
          by_cases here : q = t.owner
          · simp [here]
          · simp [here]
      rw [clocks]
      exact handed

theorem sound_run {d : Draws} (sound : s.Sound) (clean : s.Clean conf (.run d))
    (moved : s.run conf d = some s') : s'.Sound := by
  simp only [run] at moved
  split at moved
  · cases moved
  · rename_i job queue head
    obtain ⟨⟨r', outcome⟩, done, rfl⟩ := Option.map_eq_some_iff.mp moved
    obtain ⟨cancels, _⟩ := clean d job queue _ rfl head done
    apply sound_leave
    refine ⟨sound.phased.step conf done, ?_⟩
    cases job with
    | request p asked =>
        simp only [Job.event, Room.exec, Option.ite_none_right_eq_some, Option.some.injEq] at done
        obtain ⟨_, done⟩ := done
        rw [← congrArg Prod.fst done] at cancels ⊢
        have answers := Room.playerRequest_answers conf (p := p) (d := d) sound.phased asked
        exact orderly_section sound head cancels (answers.evolves sound.orderly.tidy)
    | func id =>
        simp only [Job.event, Room.exec, Option.ite_none_right_eq_some,
          Option.map_eq_some_iff] at done
        obtain ⟨_, t, at', done⟩ := done
        rw [← congrArg Prod.fst done] at cancels ⊢
        exact orderly_tick sound head at' cancels
    | on_end id =>
        simp only [Job.event, Room.exec, Option.ite_none_right_eq_some,
          Option.map_eq_some_iff] at done
        obtain ⟨_, t, at', done⟩ := done
        rw [← congrArg Prod.fst done] at cancels ⊢
        exact orderly_end sound head at' cancels

theorem sound_timeout {id : Nat} (sound : s.Sound) (moved : s.timeout id = some s') :
    s'.Sound := by
  simp only [timeout] at moved
  split at moved
  · rename_i t at'
    split at moved
    · rename_i armed
      have fresh : id ∉ s.queue.filterMap Job.timer := by
        intro mem
        obtain ⟨_, t', old, idle⟩ := sound.orderly.queued id mem
        obtain rfl : t = t' := Option.some.inj (Eq.trans (Eq.symm at') old)
        rw [armed] at idle
        cases idle
      have free : s.holder ≠ some id := by
        intro held
        obtain ⟨t', old, idle, _⟩ := sound.orderly.held id held
        obtain rfl : t = t' := Option.some.inj (Eq.trans (Eq.symm at') old)
        rw [armed] at idle
        cases idle
      have counts : ∀ t : Timer, t.Counts { t with armed := false } := fun _ => ⟨rfl, rfl, rfl, rfl⟩
      obtain rfl := Option.some.inj moved
      split
      · refine ⟨sound.phased.of_control rfl, ?_⟩
        exact sound.orderly.move at' counts (fun _ => .inl armed) sound.orderly.once
          (fun _ _ => ⟨fun mem => mem, fun held => held⟩) (fun _ mem _ => mem)
          (fun mem => absurd mem fresh) free
      · rename_i live
        have queued : (s.queue ++ [Job.func id]).filterMap Job.timer =
            s.queue.filterMap Job.timer ++ [id] := by
          rw [List.filterMap_append]
          rfl
        refine ⟨sound.phased.of_control rfl, ?_⟩
        refine sound.orderly.move at' counts (fun _ => .inl armed) ?_ ?_ ?_
          (fun _ => ⟨rfl, Bool.eq_false_iff.mpr live⟩) free
        · show ((s.queue ++ [Job.func id]).filterMap Job.timer).Nodup
          rw [queued]
          exact sound.orderly.once.append (List.nodup_singleton id) (by simpa using fresh)
        · intro j other
          refine ⟨fun mem => ?_, fun held => held⟩
          have mem : j ∈ (s.queue ++ [Job.func id]).filterMap Job.timer := mem
          rw [queued] at mem
          simpa [other] using mem
        · intro job mem other
          obtain mem | mem := List.mem_append.mp mem
          · exact mem
          · rw [List.mem_singleton.mp mem] at other
            exact absurd rfl other
    · cases moved
  · cases moved

/-- Prompts leave the timers that are there alone. -/
theorem prompts_timers {c c' : Clocks} (prompts : c.Prompts c') {id : Nat} {t : Timer}
    (at' : c.timers[id]? = some t) : c'.timers[id]? = some t := by
  induction prompts with
  | refl => exact at'
  | enter p state _ _ _ ih => exact ih
  | ask p state n _ _ _ ih =>
      exact Table.append_found ih

theorem sound_prompts {r' : Room} (sound : s.Sound) (phased : r'.Phased)
    (prompts : s.room.clocks.Prompts r'.clocks) : Sound { s with room := r' } := by
  refine ⟨phased, sound.orderly.evolve (prompts.evolves sound.orderly.tidy) ?_⟩
  intro id t t' before after live canceled
  obtain rfl := Option.some.inj ((prompts_timers prompts before).symm.trans after)
  rw [live] at canceled
  cases canceled

theorem sound_step {o : Occurrence} (sound : s.Sound) (clean : s.Clean conf o)
    (moved : s.step conf o = some s') : s'.Sound := by
  cases o with
  | request p asked =>
      obtain rfl := Option.some.inj moved
      exact ⟨sound.phased, sound.orderly.request p asked⟩
  | timeout id => exact sound_timeout sound moved
  | run d => exact sound_run sound clean moved
  | resume d =>
      obtain ⟨⟨r', outcome⟩, done, rfl⟩ := Option.map_eq_some_iff.mp moved
      apply sound_leave
      have phased := sound.phased.step conf done
      simp only [Room.exec, Option.map_eq_some_iff] at done
      obtain ⟨rest, held, done⟩ := done
      have prompts := Room.resume_prompts conf (d := d) sound.phased rest held
      rw [congrArg Prod.fst done] at prompts
      exact sound_prompts sound phased prompts
  | wait w d =>
      obtain ⟨⟨r', outcome⟩, done, rfl⟩ := Option.map_eq_some_iff.mp moved
      have phased := sound.phased.step conf done
      simp only [Room.exec, Option.ite_none_right_eq_some, Option.some.injEq] at done
      obtain ⟨due, done⟩ := done
      obtain ⟨rfl, _⟩ := Prod.mk.inj done
      exact sound_prompts sound phased (Room.fire_prompts conf sound.phased w due)
  | agent p agent =>
      obtain rfl := Option.some.inj moved
      exact ⟨sound.phased.of_control rfl, sound.orderly⟩

/-- No timer has been made yet. -/
theorem orderly_empty {c : Clocks} (timers : c.timers = [])
    (unset : ∀ p, c.cancel_timer p = none) : Orderly c [] none := by
  constructor
  · constructor
    · intro p id armed
      rw [unset p] at armed
      cases armed
    · intro t mem
      rw [timers] at mem
      cases mem
  · exact List.nodup_nil
  · intro id mem
    cases mem
  · intro id none'
    cases none'
  · intro id t at'
    rw [timers] at at'
    cases at'
  · intro id t at'
    rw [timers] at at'
    cases at'

theorem sound_init (agents : Seat → UserAgent) (gold : Seat → Int) (d : Draws) :
    (init conf agents gold d).Sound := by
  have empty := orderly_empty (c := (Room.new agents gold).clocks) rfl fun _ => rfl
  have ready := Room.clocks_setActionStateAll_untimed
    (r := (Room.new agents gold).enter .readyOk none) (d := d) .readyOk rfl
  have idle := @Clocks.enterAll (Room.new agents gold).clocks .readyOk (fun _ => rfl) rfl
    (List.finRange 3)
  have first : (Room.new agents gold).clocks.Prompts
      ((Room.new agents gold).action conf .readyOk none d).clocks := ready ▸ idle.1
  have second := Room.action_prompts conf (d := d)
    (r := (Room.new agents gold).action conf .readyOk none d) .dealCard none fun q =>
      (congrArg TIME (congrFun (congrArg Clocks.pstate ready) q)).trans (idle.2 q)
  refine ⟨⟨.dealt, Room.control_init conf agents gold d⟩, ?_⟩
  refine empty.evolve ((first.trans second).evolves empty.tidy) ?_
  intro _ _ _ at'
  cases at'

section Stale
variable {r : Room} {p : Seat} {d : Draws}

/-- An automatic answer for a state the player is not in changes nothing. -/
theorem trusteeshipAction_refused (state : PlayerState) (off : (r.players p).state ≠ state) :
    (r.trusteeshipAction conf p state d).1 = r := by
  cases state with
  | callLandlord => simp only [Room.trusteeshipAction, Room.CallLandlord, off, ne_eq,
      not_false_eq_true, if_true]
  | robLandlord => simp only [Room.trusteeshipAction, Room.RobLandlord, off, ne_eq,
      not_false_eq_true, if_true]
  | doubleing =>
      have refused : r.payFor p (decide (PlayerAction.notDouble = .double_4 ∧ conf.isUser p))
          .gameDoubleSuper 500006 .doubleing = (r, some .fail_2) := by
        simp [Room.payFor, off]
      simp only [Room.trusteeshipAction, Room.Double, Room.doubleInfo, refused]
  | doubleMax =>
      have refused : r.payFor p (true && decide (PlayerAction.notDoubleMax = .doubleMax ∧
          conf.isUser p)) .gameDoubleMax 500007 .doubleMax = (r, some .fail_2) := by
        simp [Room.payFor, off]
      simp [Room.trusteeshipAction, Room.DoubleMax, Room.doubleMaxInfo, refused, Room.payFor, off]
  | playing =>
      simp only [Room.trusteeshipAction, Room.autoPlay]
      split
      · rfl
      · simp only [Room.PlayCard, Room.playCardCheck, off, ne_eq, not_false_eq_true, if_true]
  | _ => rfl

theorem visible_setTimer (id : Nat) (f : Timer → Timer) :
    (r.setTimer id f).visible = r.visible := rfl

/-- A tick of a timer that is idle. -/
theorem visible_timerFunc {id : Nat} {t : Timer} (counting : t.Counting) (idle : t.Idle r) :
    (r.timerFunc conf id t d).1.visible = r.visible := by
  obtain ⟨⟨n, stage⟩, _⟩ := counting
  simp only [Timer.Idle, stage] at idle
  simp only [Room.timerFunc, stage]
  split
  · rename_i due
    let r' := r.setTimer id fun t => { t with stage := .check (n - 1) }
    have refused : (r'.trusteeshipAction conf t.owner t.state d).1 = r' :=
      trusteeshipAction_refused t.state (idle due.1 due.2)
    exact (congrArg Room.visible refused).trans (visible_setTimer id _)
  · rfl

theorem visible_timerEnd {t : Timer} (stage : t.stage = .count) (idle : t.Idle r) :
    (r.timerEnd conf t d).1.visible = r.visible := by
  simp only [Timer.Idle, stage] at idle
  simp only [Room.timerEnd, stage]
  split
  · rename_i doubling
    rw [if_pos doubling] at idle
    rw [trusteeshipAction_refused _ idle]
  · rename_i other
    rw [if_neg other] at idle
    simp only [Room.SetTrusteeship, idle, if_true]

end Stale

theorem visible_afterFunc (s : TimedRoom) (id : Nat) :
    (s.afterFunc id).room.visible = s.room.visible := by
  simp only [afterFunc]
  split
  · split
    · rfl
    · rfl
  · rfl

theorem visible_leave (s : TimedRoom) (outcome : Outcome) :
    (s.leave outcome).room.visible = s.room.visible := by
  simp only [leave]
  split
  · exact visible_afterFunc _ _
  · rfl
  · rfl

/-- The prompt of a timer that still can act and has a callback to come is open. -/
theorem canceled_of_over {id : Nat} {t : Timer} (sound : s.Sound)
    (at' : s.room.timers[id]? = some t) (pending : Pending s.queue s.holder id t)
    (done : ¬s.room.Open t) : t.canceled = true := by
  by_contra live
  rw [Bool.not_eq_true] at live
  have current := sound.orderly.current id t at' live pending
  exact done ⟨current.state, current.newest⟩

/-- What a callback of a prompt that is over leaves behind. -/
def Settled (s : TimedRoom) (o : Occurrence) (s' : TimedRoom) : Prop :=
  ∀ (id : Nat) (t : Timer), s.callback o = some id → s.room.timers[id]? = some t →
    ¬s.room.Open t → s'.room.visible = s.room.visible

theorem settled_run {d : Draws} (sound : s.Sound) (clean : s.Clean conf (.run d))
    (moved : s.run conf d = some s') : Settled s (.run d) s' := by
  intro id t own at' done
  simp only [run] at moved
  split at moved
  · cases moved
  · rename_i job queue head
    obtain ⟨⟨r', outcome⟩, ran, rfl⟩ := Option.map_eq_some_iff.mp moved
    obtain ⟨_, stale⟩ := clean d job queue _ rfl head ran
    have timer : job.timer = some id := by
      rw [callback, head] at own
      exact own
    have first : job ∈ s.queue := by
      rw [head]
      exact List.mem_cons_self
    have placed : id ∈ s.queue.filterMap Job.timer := List.mem_filterMap.mpr ⟨job, first, timer⟩
    have canceled := canceled_of_over sound at' (.inr (.inl placed)) done
    have idle := stale id t timer at' canceled
    obtain ⟨ending, counting⟩ := sound.orderly.late id t at' canceled
    rw [visible_leave]
    cases job with
    | request p asked => cases timer
    | func id' =>
        obtain rfl := Option.some.inj timer
        simp only [Job.event, Room.exec, at', Option.map_some, Option.ite_none_right_eq_some,
          Option.some.injEq] at ran
        exact (congrArg (fun done => done.1.visible) ran.2).symm.trans
          (visible_timerFunc (counting first) idle)
    | on_end id' =>
        obtain rfl := Option.some.inj timer
        simp only [Job.event, Room.exec, at', Option.map_some, Option.ite_none_right_eq_some,
          Option.some.injEq] at ran
        exact (congrArg (fun done => done.1.visible) ran.2).symm.trans
          (visible_timerEnd (ending first) idle)

theorem settled_timeout {id : Nat} (moved : s.timeout id = some s') :
    s'.room.visible = s.room.visible := by
  simp only [timeout] at moved
  split at moved
  · split at moved
    · obtain rfl := Option.some.inj moved
      split
      · rfl
      · rfl
    · cases moved
  · cases moved

variable {agents : Seat → UserAgent} {gold : Seat → Int} {d : Draws} {es : List Occurrence}

theorem run_sound (run : Run (step conf) (Clean conf) (init conf agents gold d) es s) : s.Sound :=
  Run.invariant Sound (sound_init agents gold d)
    (fun _ _ _ sound clean moved => sound_step sound clean moved) run

/-- In a run in which no answer overtakes a callback of its own prompt that would still
act, the callbacks of a prompt that is over change nothing in the room. -/
theorem callbacks_settled (run : Run (step conf) (Clean conf) (init conf agents gold d) es s)
    (o : Occurrence) (clean : s.Clean conf o) (moved : s.step conf o = some s') :
    Settled s o s' := by
  have sound := run_sound run
  cases o with
  | run d => exact settled_run sound clean moved
  | timeout id => exact fun _ _ _ _ _ => settled_timeout moved
  | _ => exact fun _ _ none' => by cases none'

end TimedRoom

section Runs

def plainDraws : Draws := .plain (classic [])

def timedStart : TimedRoom :=
  .init (.plain 1 Nat.one_pos) (fun _ => noAgent) (fun _ => 1000) plainDraws

/-- The first player calls, and a tick of his timer joins the queue behind the call. -/
def overtakenRun : List Occurrence :=
  [.wait .dealCard plainDraws, .request 0 (.callLandlord (some .callLandlord)), .timeout 0]

def firstTimer (canceled : Bool) : Timer :=
  { Timer.start 0 .callLandlord 12 0 with armed := false, canceled := canceled }

theorem clean_other (conf : Conf) (s : TimedRoom) {o : Occurrence} (other : ∀ d, o ≠ .run d) :
    s.Clean conf o := fun d _ _ _ same => absurd same (other d)

/-- The tick runs after the answer, on a timer that has been cancelled, and only counts. -/
theorem callbacks_settled_overtaken : ∃ s' s'' : TimedRoom,
    Run (TimedRoom.step (.plain 1 Nat.one_pos)) (TimedRoom.Clean (.plain 1 Nat.one_pos)) timedStart
      (overtakenRun ++ [.run plainDraws]) s' ∧
    s'.step (.plain 1 Nat.one_pos) (.run plainDraws) = some s'' ∧
    s'.queue = [.func 0] ∧ s'.room.timers[0]? = some (firstTimer true) ∧
    ¬s'.room.Open (firstTimer true) ∧ s'.Settled (.run plainDraws) s'' := by
  have ran : ((exec (TimedRoom.step (.plain 1 Nat.one_pos)) timedStart overtakenRun).bind fun s =>
      (s.step (.plain 1 Nat.one_pos) (.run plainDraws)).bind fun s' =>
        (s'.step (.plain 1 Nat.one_pos) (.run plainDraws)).map fun _ =>
          (s.queue, s.room.timers, s'.queue, s'.room.timers[0]?, (s'.room.players 0).state)) =
      some ([.request 0 (.callLandlord (some .callLandlord)), .func 0], [firstTimer false],
        [.func 0], some (firstTimer true), .waiting) := by decide +kernel
  obtain ⟨s, done, ran⟩ := Option.bind_eq_some_iff.mp ran
  obtain ⟨s', fourth, ran⟩ := Option.bind_eq_some_iff.mp ran
  obtain ⟨s'', fifth, ran⟩ := Option.map_eq_some_iff.mp ran
  simp only [Prod.mk.injEq] at ran
  obtain ⟨queue, timers, queue', timers', state⟩ := ran
  simp only [overtakenRun, exec, Option.bind_eq_some_iff, Option.some.injEq] at done
  obtain ⟨s₁, first, s₂, second, s₃, third, rfl⟩ := done
  have front := Run.refl.next (clean_other (.plain 1 Nat.one_pos) timedStart (by simp)) first
  have front := (front.next (clean_other _ _ (by simp)) second).next (clean_other _ _ (by simp)) third
  have live : s₃.Clean (.plain 1 Nat.one_pos) (.run plainDraws) := by
    intro d job rest done same head ran
    rw [queue, List.cons.injEq] at head
    obtain ⟨rfl, rfl⟩ := head
    refine ⟨fun id t t' at' _ _ _ => ⟨fun mem => by simp at mem, fun mem => ?_⟩,
      fun id t none' => by cases none'⟩
    obtain rfl : id = 0 := by simpa [queue] using mem
    rw [timers] at at'
    obtain rfl := Option.some.inj at'
    exact ⟨⟨12, rfl⟩, by decide⟩
  have stale : s'.Clean (.plain 1 Nat.one_pos) (.run plainDraws) := by
    intro d job rest done same head ran
    rw [queue', List.cons.injEq] at head
    obtain ⟨rfl, rfl⟩ := head
    refine ⟨fun id t t' at' _ live _ => ⟨fun mem => by simp at mem, fun mem => ?_⟩,
      fun id t own at' _ => ?_⟩
    · obtain rfl : id = 0 := by simpa [queue'] using mem
      obtain rfl := Option.some.inj (timers'.symm.trans at')
      cases live
    · obtain rfl := Option.some.inj own
      obtain rfl := Option.some.inj (timers'.symm.trans at')
      exact fun due => absurd due (by decide)
  have whole := front.next live fourth
  refine ⟨s', s'', whole, fifth, queue', timers', fun still => ?_,
    TimedRoom.callbacks_settled whole _ stale fifth⟩
  have waiting := still.1
  rw [show (firstTimer true).owner = 0 from rfl, state] at waiting
  cases waiting

/-- The first stage is at its last tick; another player's request holds the section when
the call and that tick join the queue. -/
def lateRun : List Occurrence :=
  .wait .dealCard plainDraws ::
    ((List.replicate 19 [Occurrence.timeout 0, .run plainDraws]).flatten ++
    [.request 1 .bottomCardInfo, .request 0 (.callLandlord (some .callLandlord)), .timeout 0,
      .run plainDraws, .run plainDraws, .run plainDraws, .run plainDraws, .timeout 2,
      .run plainDraws])

/-- The end of an answered prompt's timer puts its player under trusteeship. -/
theorem callbacks_fail : ∃ (s s' : TimedRoom) (t : Timer),
    Run (TimedRoom.step (.plain 1 Nat.one_pos)) anyStep timedStart lateRun s ∧
    s.step (.plain 1 Nat.one_pos) (.run plainDraws) = some s' ∧
    s.callback (.run plainDraws) = some 2 ∧ s.room.timers[2]? = some t ∧
    (s.room.players 0).lastAction = some .callLandlord ∧ t.owner = 0 ∧ ¬s.room.Open t ∧
    (s.room.players 0).isTrusteeship = false ∧ (s'.room.players 0).isTrusteeship = true ∧
    ¬s.Settled (.run plainDraws) s' := by
  have ran : ((exec (TimedRoom.step (.plain 1 Nat.one_pos)) timedStart lateRun).bind fun s =>
      (s.step (.plain 1 Nat.one_pos) (.run plainDraws)).map fun s' =>
        ((s.callback (.run plainDraws), (s.room.timers[2]?).map fun t => (t.owner, t.state)),
          ((s.room.players 0).lastAction, (s.room.players 0).state),
          ((s.room.players 0).isTrusteeship, (s'.room.players 0).isTrusteeship))) =
      some ((some 2, some (0, .callLandlord)), (some .callLandlord, .waiting), (false, true)) := by
    decide +kernel
  obtain ⟨s, done, ran⟩ := Option.bind_eq_some_iff.mp ran
  obtain ⟨s', last, ran⟩ := Option.map_eq_some_iff.mp ran
  simp only [Prod.mk.injEq, Option.map_eq_some_iff] at ran
  obtain ⟨⟨own, t, at', owner, asked⟩, ⟨action, state⟩, before, after⟩ := ran
  have answered : ¬s.room.Open t := by
    intro still
    have waiting := still.1
    rw [owner, state, asked] at waiting
    cases waiting
  refine ⟨s, s', t, run_of_exec _ _ s done, last, own, at', action, owner, answered, before,
    after, fun settled => ?_⟩
  have same := settled 2 t own at' answered
  have players : s'.room.visible.players = s.room.visible.players :=
    congrArg Room.players same
  have trusting : (s'.room.players 0).isTrusteeship = (s.room.players 0).isTrusteeship :=
    congrArg (fun players => (players 0).isTrusteeship) players
  rw [after, before] at trusting
  cases trusting

end Runs

end HuluLandlord.Ddz
