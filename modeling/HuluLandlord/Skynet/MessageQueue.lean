import HuluLandlord.Transition
import Mathlib.Data.List.Basic
import Mathlib.Tactic

/-!
The message queue of a service: a ring that doubles when it is full. Each operation is one hold of the
queue's lock. What `skynet_malloc` leaves in new cells is the default message here.
-/
namespace HuluLandlord.Skynet
open Transition

def DEFAULT_QUEUE_SIZE : Nat := 64
def MQ_OVERLOAD : Nat := 1024

structure MessageQueue (α : Type*) where
  handle : Nat
  cap : Nat
  head : Nat
  tail : Nat
  release : Bool
  in_global : Bool
  overload : Nat
  overload_threshold : Nat
  queue : Nat → α

/-- The loop of `skynet_mq_pop` over the threshold, which doubles no more than `left` times. -/
def overloadLoop (length : Nat) : Nat → Nat × Nat → Nat × Nat
  | 0, acc => acc
  | left + 1, (overload, threshold) =>
      if length > threshold then overloadLoop length left (length, threshold * 2) else (overload, threshold)

namespace MessageQueue
variable {α : Type*}

def skynet_mq_create [Inhabited α] (handle : Nat) : MessageQueue α :=
  ⟨handle, DEFAULT_QUEUE_SIZE, 0, 0, false, true, 0, MQ_OVERLOAD, fun _ => default⟩

def skynet_mq_length (q : MessageQueue α) : Nat :=
  if q.head ≤ q.tail then q.tail - q.head else q.tail + q.cap - q.head

def skynet_mq_overload (q : MessageQueue α) : Nat × MessageQueue α :=
  if q.overload ≠ 0 then (q.overload, { q with overload := 0 }) else (0, q)

/-- An index of the ring goes on to the next cell. -/
def next (i cap : Nat) : Nat := if i + 1 ≥ cap then 0 else i + 1

/-- The length after the head has moved on, as `skynet_mq_pop` computes it in `int`s. -/
def lengthAfter (tail head cap : Nat) : Nat :=
  if tail < head then tail + cap - head else tail - head

def skynet_mq_pop (q : MessageQueue α) : Option α × MessageQueue α :=
  if q.head ≠ q.tail then
    let message := q.queue q.head
    let head := next q.head q.cap
    let length := lengthAfter q.tail head q.cap
    let acc := overloadLoop length length (q.overload, q.overload_threshold)
    (some message, { q with head := head, overload := acc.1, overload_threshold := acc.2 })
  else (none, { q with overload_threshold := MQ_OVERLOAD, in_global := false })

def expand_queue [Inhabited α] (q : MessageQueue α) : MessageQueue α :=
  { q with
    queue := fun i => if i < q.cap then q.queue ((q.head + i) % q.cap) else default
    head := 0
    tail := q.cap
    cap := q.cap * 2 }

/-- The cell is written and the ring expanded if that fills it. -/
def enqueue [Inhabited α] (q : MessageQueue α) (message : α) : MessageQueue α :=
  let q := { q with queue := Function.update q.queue q.tail message }
  let q := { q with tail := next q.tail q.cap }
  if q.head = q.tail then q.expand_queue else q

/-- The flag tells that `skynet_globalmq_push` is called. -/
def skynet_mq_push [Inhabited α] (q : MessageQueue α) (message : α) : MessageQueue α × Bool :=
  let q := q.enqueue message
  if q.in_global = false then ({ q with in_global := true }, true) else (q, false)

def skynet_mq_mark_release (q : MessageQueue α) : MessageQueue α × Bool :=
  ({ q with release := true }, !q.in_global)

section Indices
variable {head tail cap : Nat}

theorem next_lt (inside : tail < cap) : next tail cap < cap := by
  rw [next]
  split <;> omega

theorem length_full (head_lt : head < cap) (tail_lt : tail < cap) (full : head = next tail cap) :
    (if head ≤ tail then tail - head else tail + cap - head) + 1 = cap := by
  rw [next] at full
  split_ifs at full ⊢ <;> omega

theorem length_next (head_lt : head < cap) (tail_lt : tail < cap) (room : head ≠ next tail cap) :
    (if head ≤ next tail cap then next tail cap - head else next tail cap + cap - head) =
      (if head ≤ tail then tail - head else tail + cap - head) + 1 := by
  rw [next] at room ⊢
  split_ifs at room ⊢ <;> omega

end Indices

/-- The messages in the ring, the next one first. -/
def contents (q : MessageQueue α) : List α :=
  (List.range q.skynet_mq_length).map fun i => q.queue ((q.head + i) % q.cap)

/-- The indices stay in the ring. -/
structure Ring (q : MessageQueue α) : Prop where
  head : q.head < q.cap
  tail : q.tail < q.cap

section Ring
variable {q : MessageQueue α} {message : α} {i head tail cap : Nat}

theorem Ring.length_lt (ring : Ring q) : q.skynet_mq_length < q.cap := by
  have := ring.head
  have := ring.tail
  rw [skynet_mq_length]
  split <;> omega

/-- The tail stands where the next message goes. -/
theorem Ring.tail_eq (ring : Ring q) : (q.head + q.skynet_mq_length) % q.cap = q.tail := by
  have head := ring.head
  have tail := ring.tail
  rw [skynet_mq_length]
  split
  · rw [Nat.add_sub_cancel' (by omega), Nat.mod_eq_of_lt tail]
  · rw [show q.head + (q.tail + q.cap - q.head) = q.tail + q.cap by omega, Nat.add_mod_right, Nat.mod_eq_of_lt tail]

/-- No message stands in the cell at the tail. -/
theorem Ring.cell_ne_tail (ring : Ring q) (inside : i < q.skynet_mq_length) : (q.head + i) % q.cap ≠ q.tail := by
  have length := ring.length_lt
  have head := ring.head
  rw [← ring.tail_eq]
  intro same
  have apart := (Nat.modEq_iff_dvd' (by omega : q.head + i ≤ q.head + q.skynet_mq_length)).mp same
  have := Nat.eq_zero_of_dvd_of_lt apart (by omega)
  omega

theorem Ring.enqueue [Inhabited α] (ring : Ring q) (message : α) :
    Ring (q.enqueue message) ∧ (q.enqueue message).contents = q.contents ++ [message] := by
  have head := ring.head
  have tail := ring.tail
  have length := ring.length_lt
  have tail_eq := ring.tail_eq
  have cells : ∀ i < q.skynet_mq_length,
      Function.update q.queue q.tail message ((q.head + i) % q.cap) = q.queue ((q.head + i) % q.cap) :=
    fun i inside => Function.update_of_ne (ring.cell_ne_tail inside) _ _
  have last : Function.update q.queue q.tail message ((q.head + q.skynet_mq_length) % q.cap) = message := by
    rw [tail_eq, Function.update_self]
  have whole : (List.range (q.skynet_mq_length + 1)).map
      (fun i => Function.update q.queue q.tail message ((q.head + i) % q.cap)) = q.contents ++ [message] := by
    rw [List.range_succ, List.map_append, List.map_singleton, last, contents]
    exact congrArg (· ++ [message]) (List.map_congr_left fun i mem => cells i (List.mem_range.mp mem))
  rw [MessageQueue.enqueue]
  dsimp only
  by_cases full : q.head = next q.tail q.cap
  · rw [if_pos full]
    -- the ring holds as many messages as it has cells
    have num : q.skynet_mq_length + 1 = q.cap := length_full head tail full
    refine ⟨⟨?_, ?_⟩, ?_⟩
    · change 0 < q.cap * 2
      omega
    · change q.cap < q.cap * 2
      omega
    · rw [← whole, num, contents, skynet_mq_length]
      simp only [expand_queue, Nat.zero_le, if_true, Nat.sub_zero, Nat.zero_add]
      refine List.map_congr_left fun i mem => ?_
      have inside := List.mem_range.mp mem
      rw [Nat.mod_eq_of_lt (by omega : i < q.cap * 2), if_pos inside]
  · rw [if_neg full]
    refine ⟨⟨head, ?_⟩, ?_⟩
    · exact next_lt tail
    · have num : skynet_mq_length { q with
          queue := Function.update q.queue q.tail message
          tail := next q.tail q.cap } = q.skynet_mq_length + 1 := length_next head tail full
      rw [← whole, contents, num]

theorem overloadLoop_le (length : Nat) {left : Nat} {acc : Nat × Nat} (pos : 0 < acc.2) (enough : length ≤ left + acc.2) :
    length ≤ (overloadLoop length left acc).2 := by
  induction left generalizing acc with
  | zero =>
      rw [overloadLoop]
      omega
  | succ left ih =>
      obtain ⟨overload, threshold⟩ := acc
      dsimp only at pos enough
      rw [overloadLoop]
      split
      · exact ih (by dsimp only; omega) (by dsimp only; omega)
      · dsimp only
        omega

theorem contents_eq_nil : q.contents = [] ↔ q.skynet_mq_length = 0 := by
  rw [contents, List.map_eq_nil_iff, List.range_eq_nil]

theorem Ring.length_zero (ring : Ring q) : q.skynet_mq_length = 0 ↔ q.head = q.tail := by
  have := ring.head
  have := ring.tail
  rw [skynet_mq_length]
  split <;> omega

theorem Ring.pop_none (ring : Ring q) (empty : q.contents = []) : q.skynet_mq_pop =
    (none, { q with overload_threshold := MQ_OVERLOAD, in_global := false }) := by
  rw [skynet_mq_pop, if_neg]
  exact not_not.mpr (ring.length_zero.mp (contents_eq_nil.mp empty))

theorem length_pop (head_lt : head < cap) (tail_lt : tail < cap) (some_ : head ≠ tail) :
    (if next head cap ≤ tail then tail - next head cap else tail + cap - next head cap) + 1 =
      if head ≤ tail then tail - head else tail + cap - head := by
  simp only [next]
  split_ifs <;> omega

theorem next_add (inside : head < cap) (i : Nat) : (next head cap + i) % cap = (head + (i + 1)) % cap := by
  rw [next]
  split
  · rw [show head + (i + 1) = i + cap by omega, Nat.add_mod_right, Nat.zero_add]
  · rw [Nat.add_assoc, Nat.add_comm 1]

/-- What a pop does when there is a message. -/
theorem Ring.pop_some (ring : Ring q) {rest : List α} (some_ : q.contents = message :: rest) :
    ∃ q', q.skynet_mq_pop = (some message, q') ∧ Ring q' ∧ q'.contents = rest ∧ q'.cap = q.cap ∧
      q'.in_global = q.in_global ∧ q'.release = q.release := by
  have length : q.skynet_mq_length = rest.length + 1 := by
    rw [← List.length_cons (a := message), ← some_, contents, List.length_map, List.length_range]
  have differ : q.head ≠ q.tail := fun same => by
    have := ring.length_zero.mpr same
    omega
  have left : skynet_mq_length { q with head := next q.head q.cap } = rest.length :=
    Nat.succ_injective ((length_pop ring.head ring.tail differ).trans length)
  rw [contents, length, List.range_succ_eq_map, List.map_cons, List.map_map, List.cons.injEq, Nat.add_zero,
    Nat.mod_eq_of_lt ring.head] at some_
  rw [skynet_mq_pop, if_pos differ]
  refine ⟨_, congrArg (fun message => (some message, _)) some_.1, ⟨next_lt ring.head, ring.tail⟩, ?_, rfl, rfl, rfl⟩
  refine Eq.trans ?_ some_.2
  rw [contents]
  refine Eq.trans (congrArg (fun n => (List.range n).map _) left) (List.map_congr_left fun i _ => ?_)
  exact congrArg q.queue (next_add ring.head i)

/-- After a pop the threshold is not exceeded. -/
theorem Ring.pop_overload (ring : Ring q) (pos : 0 < q.overload_threshold) :
    q.skynet_mq_pop.2.skynet_mq_length ≤ q.skynet_mq_pop.2.overload_threshold := by
  rw [skynet_mq_pop]
  split
  · refine le_trans (le_of_eq ?_) (overloadLoop_le (lengthAfter q.tail (next q.head q.cap) q.cap) pos
      (Nat.le_add_right _ _))
    change (if next q.head q.cap ≤ q.tail then q.tail - next q.head q.cap else q.tail + q.cap - next q.head q.cap) = _
    rw [lengthAfter]
    split_ifs <;> omega
  · rename_i same
    rw [not_not] at same
    change q.skynet_mq_length ≤ MQ_OVERLOAD
    rw [ring.length_zero.mpr same]
    exact Nat.zero_le _

end Ring

end MessageQueue

inductive QueueOp (α : Type*)
  | push (message : α)
  | pop

/-- A queue with what went in, what came out and the most that it held. -/
structure QueueHistory (α : Type*) where
  q : MessageQueue α
  pushed : List α
  popped : List α
  peak : Nat

def QueueHistory.step {α : Type*} [Inhabited α] (h : QueueHistory α) : QueueOp α → Option (QueueHistory α)
  | .push message =>
      let q := (h.q.skynet_mq_push message).1
      some { h with q := q, pushed := h.pushed ++ [message], peak := max h.peak q.contents.length }
  | .pop =>
      match h.q.skynet_mq_pop with
      | (some message, q) => some { h with q := q, popped := h.popped ++ [message] }
      | (none, q) => some { h with q := q }

def QueueHistory.create (α : Type*) [Inhabited α] (handle : Nat) : QueueHistory α :=
  ⟨MessageQueue.skynet_mq_create handle, [], [], 0⟩

/-- What a queue keeps: the order of its messages, and no more room than twice what it ever held. -/
structure QueueHistory.Kept {α : Type*} (h : QueueHistory α) : Prop where
  ring : h.q.Ring
  fifo : h.popped ++ h.q.contents = h.pushed
  room : h.q.cap ≤ max DEFAULT_QUEUE_SIZE (2 * h.peak)
  threshold : 0 < h.q.overload_threshold

section History
variable {α : Type*} [Inhabited α] {h u : QueueHistory α} {q : MessageQueue α}
open MessageQueue

theorem contents_push (q : MessageQueue α) (message : α) :
    (q.skynet_mq_push message).1.contents = (q.enqueue message).contents ∧
      ((q.enqueue message).Ring → (q.skynet_mq_push message).1.Ring) ∧
      (q.skynet_mq_push message).1.cap = (q.enqueue message).cap ∧
      (q.skynet_mq_push message).1.overload_threshold = (q.enqueue message).overload_threshold := by
  rw [skynet_mq_push]
  split
  · exact ⟨rfl, fun ring => ⟨ring.head, ring.tail⟩, rfl, rfl⟩
  · exact ⟨rfl, id, rfl, rfl⟩

/-- The ring grows only when it is full. -/
theorem cap_enqueue (ring : q.Ring) (message : α) :
    (q.enqueue message).cap ≤ max q.cap (2 * (q.enqueue message).contents.length) := by
  have kept := (ring.enqueue message).2
  rw [enqueue] at kept ⊢
  split at kept
  · rename_i full
    rw [if_pos full, kept, List.length_append, List.length_singleton, contents, List.length_map, List.length_range]
    have num : q.skynet_mq_length + 1 = q.cap := length_full ring.head ring.tail full
    refine le_trans ?_ (Nat.le_max_right _ _)
    change q.cap * 2 ≤ _
    omega
  · rename_i room
    rw [if_neg room]
    exact Nat.le_max_left _ _

theorem threshold_enqueue (q : MessageQueue α) (message : α) :
    (q.enqueue message).overload_threshold = q.overload_threshold := by
  rw [enqueue]
  split <;> rfl

theorem overloadLoop_pos {length left : Nat} {acc : Nat × Nat} (pos : 0 < acc.2) :
    0 < (overloadLoop length left acc).2 := by
  induction left generalizing acc with
  | zero => exact pos
  | succ left ih =>
      obtain ⟨overload, threshold⟩ := acc
      rw [overloadLoop]
      split
      · exact ih (Nat.mul_pos pos (by decide))
      · exact pos

theorem MQ_OVERLOAD_pos : 0 < MQ_OVERLOAD := by decide

omit [Inhabited α] in
theorem threshold_pop (pos : 0 < q.overload_threshold) : 0 < q.skynet_mq_pop.2.overload_threshold := by
  rw [skynet_mq_pop]
  split
  · exact overloadLoop_pos pos
  · exact MQ_OVERLOAD_pos

theorem QueueHistory.Kept.step {op : QueueOp α} (kept : h.Kept) (moved : h.step op = some u) : u.Kept := by
  cases op with
  | push message =>
      obtain rfl := Option.some.inj moved
      obtain ⟨contents, ring, cap, threshold⟩ := contents_push h.q message
      obtain ⟨ring', fifo⟩ := kept.ring.enqueue message
      refine ⟨ring ring', ?_, ?_, ?_⟩
      · rw [contents, fifo, ← List.append_assoc, kept.fifo]
      · dsimp only
        have grown := cap_enqueue kept.ring message
        have room := kept.room
        rw [cap, contents]
        omega
      · dsimp only
        rw [threshold, threshold_enqueue]
        exact kept.threshold
  | pop =>
      have threshold := threshold_pop kept.threshold
      cases held : h.q.contents with
      | nil =>
          rw [QueueHistory.step, kept.ring.pop_none held] at moved
          obtain rfl := Option.some.inj moved
          exact ⟨⟨kept.ring.head, kept.ring.tail⟩, kept.fifo, kept.room, MQ_OVERLOAD_pos⟩
      | cons message rest =>
          obtain ⟨q', popped, ring, contents, cap, -, -⟩ := kept.ring.pop_some held
          rw [popped] at threshold
          rw [QueueHistory.step, popped] at moved
          obtain rfl := Option.some.inj moved
          refine ⟨ring, ?_, cap ▸ kept.room, threshold⟩
          rw [← kept.fifo, held, contents, List.append_assoc]
          rfl

theorem kept_create (α : Type*) [Inhabited α] (handle : Nat) : (QueueHistory.create α handle).Kept where
  ring := ⟨(by decide : 0 < DEFAULT_QUEUE_SIZE), (by decide : 0 < DEFAULT_QUEUE_SIZE)⟩
  fifo := rfl
  room := (by decide : DEFAULT_QUEUE_SIZE ≤ max DEFAULT_QUEUE_SIZE (2 * 0))
  threshold := MQ_OVERLOAD_pos

end History

/-- Over every run of pushes and pops, through all expansions of the ring: the messages come out once each and in
the order of the pushes, and the ring has no more room than 64 or twice the most it ever held. -/
theorem queue_fifo {α : Type*} [Inhabited α] {handle : Nat} {ops : List (QueueOp α)} {h : QueueHistory α}
    (run : Run QueueHistory.step anyStep (QueueHistory.create α handle) ops h) :
    h.popped ++ h.q.contents = h.pushed ∧ h.q.skynet_mq_length = h.q.contents.length ∧
      h.q.cap ≤ max DEFAULT_QUEUE_SIZE (2 * h.peak) := by
  have kept : h.Kept := run.invariant QueueHistory.Kept
    (kept_create α handle) fun _ _ _ kept _ moved => kept.step moved
  refine ⟨kept.fifo, ?_, kept.room⟩
  rw [MessageQueue.contents, List.length_map, List.length_range]

/-- One message in and out again. -/
theorem queue_fifo_one : ∃ h, Run QueueHistory.step anyStep (QueueHistory.create Nat 1) [.push 7, .pop] h ∧
    h.popped = [7] ∧ h.popped ++ h.q.contents = h.pushed ∧ h.q.skynet_mq_length = h.q.contents.length ∧
      h.q.cap ≤ max DEFAULT_QUEUE_SIZE (2 * h.peak) := by
  obtain ⟨h, run, popped⟩ := run_of_exec_any QueueHistory.step (QueueHistory.create Nat 1) [.push 7, .pop]
    (fun h => h.popped = [7]) (by decide)
  exact ⟨h, run, popped, queue_fifo run⟩

end HuluLandlord.Skynet
