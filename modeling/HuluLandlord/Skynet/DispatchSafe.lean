import HuluLandlord.Pool
import HuluLandlord.Skynet.Dispatch

/-!
What holds of the node between any two atomic operations. A queue that is in the global queue or has messages
is held exactly once, by the global queue or by a thread; a context lives as long as something refers to it.
-/
namespace HuluLandlord.Skynet
open Transition MessageQueue Pool

/-- What an operation holds: a reference to a context, the turn of a queue, the duty to mark a queue for release,
the making of a context, the running of its messages, the end of a marked queue. -/
inductive Hold
  | ref | token | mark | creator | runner | dropper
  deriving DecidableEq, Repr

namespace Op

@[simp] def subject : Op → Option Nat
  | .create c | .launch c | .abandon c | .skynet_context_release c | .delete_context c | .skynet_globalmq_push c
  | .skynet_mq_push c _ | .skynet_mq_release c | .drop_queue c | .worker _ (some c) | .dispatch _ c
  | .loop _ c _ _ | .measure _ c _ _ | .dispatch_message _ c _ _ _ => some c
  | .skynet_handle_retire _ | .skynet_context_push _ _ | .worker _ none | .next _ => none

@[simp] def kinds : Op → List Hold
  | .create _ | .launch _ => [.ref, .token, .creator]
  | .abandon _ => [.token, .creator]
  | .skynet_context_release _ | .skynet_mq_push _ _ => [.ref]
  | .delete_context _ => [.mark]
  | .skynet_globalmq_push _ | .skynet_mq_release _ | .worker _ _ | .dispatch _ _ => [.token]
  | .drop_queue _ => [.token, .dropper]
  | .loop _ _ _ _ | .measure _ _ _ _ | .dispatch_message _ _ _ _ _ => [.ref, .token, .runner]
  | .skynet_handle_retire _ | .skynet_context_push _ _ | .next _ => []

@[simp] def holds (c : Nat) (h : Hold) (op : Op) : Nat := if op.subject = some c ∧ h ∈ op.kinds then 1 else 0

end Op

/-- The state of one context and its queue. -/
structure ContextView where
  ctx : SkynetContext
  queue : MessageQueue SkynetMessage
  freed : Bool
  places : Nat
  sent : List SkynetMessage
  handled : List SkynetMessage
  dropped : List SkynetMessage

def Node.view (s : Node) (c : Nat) : ContextView :=
  ⟨s.ctx c, s.queue c, s.freed c, s.global.count c, s.sent c, s.handled c, s.dropped c⟩

/-- What holds of a context, given what the threads hold of it. -/
structure ContextView.Good (v : ContextView) (H : Hold → Nat) : Prop where
  refs : v.ctx.ref = (if v.ctx.registered then 1 else 0) + H .ref
  tokens : v.places + H .token = if v.freed then 0 else if v.queue.in_global || v.queue.release then 1 else 0
  marks : H .mark + (if v.queue.release then 1 else 0) = if v.ctx.ref = 0 then 1 else 0
  freed : v.freed → v.queue.release
  ring : v.queue.Ring
  idle : v.queue.in_global = false → v.queue.release = false → v.queue.contents = []
  fifo : v.handled ++ v.dropped ++ v.queue.contents = v.sent
  kept : v.queue.release = false → v.dropped = []
  started : v.ctx.registered → v.ctx.init = false → 0 < H .creator
  running : 0 < H .runner → v.ctx.init
  dropping : 0 < H .dropper → v.queue.release
  gone : v.freed → v.queue.contents = []

namespace ContextView.Good
variable {v : ContextView} {H K : Hold → Nat}

/-- A context to which something refers is not marked, and its queue is there. -/
theorem alive (good : v.Good H) (referred : 0 < v.ctx.ref) : v.queue.release = false ∧ v.freed = false := by
  have marks := good.marks
  rw [if_neg (Nat.ne_of_gt referred)] at marks
  cases released : v.queue.release with
  | true =>
      rw [released, if_pos rfl] at marks
      omega
  | false =>
      refine ⟨rfl, ?_⟩
      cases gone : v.freed with
      | true => exact absurd (good.freed gone) (by simp [released])
      | false => rfl

theorem holder (good : v.Good H) (held : 0 < H .token) : v.freed = false ∧ v.places = 0 ∧ H .token = 1 := by
  have tokens := good.tokens
  cases gone : v.freed with
  | true =>
      rw [gone, if_pos rfl] at tokens
      omega
  | false =>
      rw [gone, if_neg Bool.false_ne_true] at tokens
      split at tokens
      · exact ⟨rfl, by omega, by omega⟩
      · omega

/-- The holds pass between operations, or creators and runners stop. -/
theorem pass (good : v.Good H) (ref : K .ref = H .ref) (token : K .token = H .token) (mark : K .mark = H .mark)
    (creator : v.ctx.registered → H .creator ≤ K .creator) (runner : K .runner ≤ H .runner)
    (dropper : v.queue.release = false → K .dropper ≤ H .dropper) : v.Good K :=
  { good with
    refs := ref ▸ good.refs
    tokens := token ▸ good.tokens
    marks := mark ▸ good.marks
    started := fun registered fresh => (good.started registered fresh).trans_le (creator registered)
    running := fun runs => good.running (runs.trans_le runner)
    dropping := fun drops => by
      by_contra unmarked
      exact unmarked (good.dropping (drops.trans_le (dropper (Bool.eq_false_iff.mpr unmarked)))) }

/-- A reference is given up. -/
theorem decRef (good : v.Good H) (held : 0 < H .ref) (ref : K .ref = H .ref - 1) (token : K .token = H .token)
    (mark : K .mark = H .mark + if v.ctx.ref - 1 = 0 then 1 else 0)
    (creator : v.ctx.registered → H .creator ≤ K .creator) (runner : K .runner ≤ H .runner)
    (dropper : K .dropper ≤ H .dropper) :
    ContextView.Good { v with ctx := { v.ctx with ref := v.ctx.ref - 1 } } K := by
  have refs := good.refs
  have marks := good.marks
  refine ⟨?_, token ▸ good.tokens, ?_, good.freed, good.ring, good.idle, good.fifo, good.kept,
    fun registered fresh => (good.started registered fresh).trans_le (creator registered),
    fun runs => good.running (runs.trans_le runner), fun drops => good.dropping (drops.trans_le dropper), good.gone⟩
  · change v.ctx.ref - 1 = (if v.ctx.registered then 1 else 0) + K .ref
    omega
  · change K .mark + (if v.queue.release then 1 else 0) = if v.ctx.ref - 1 = 0 then 1 else 0
    rw [if_neg (show v.ctx.ref ≠ 0 by omega)] at marks
    omega

/-- The creator gives up its reference to a context that lives on. -/
theorem launched (good : v.Good H) (held : 0 < H .ref) (lives : v.ctx.ref - 1 ≠ 0) (ref : K .ref = H .ref - 1)
    (token : K .token = H .token) (mark : K .mark = H .mark) (dropper : K .dropper ≤ H .dropper) :
    ContextView.Good { v with ctx := { v.ctx with ref := v.ctx.ref - 1, init := true } } K := by
  have refs := good.refs
  have marks := good.marks
  refine ⟨?_, token ▸ good.tokens, ?_, good.freed, good.ring, good.idle, good.fifo, good.kept,
    fun _ fresh => Bool.noConfusion fresh, fun _ => rfl, fun drops => good.dropping (drops.trans_le dropper), good.gone⟩
  · change v.ctx.ref - 1 = (if v.ctx.registered then 1 else 0) + K .ref
    omega
  · change K .mark + (if v.queue.release then 1 else 0) = if v.ctx.ref - 1 = 0 then 1 else 0
    rw [if_neg (show v.ctx.ref ≠ 0 by omega)] at marks
    rw [if_neg lives]
    omega

/-- A registered context is grabbed. -/
theorem grab (good : v.Good H) (registered : v.ctx.registered) (ref : K .ref = H .ref + 1) (token : K .token = H .token)
    (mark : K .mark = H .mark) (creator : K .creator = H .creator) (running : 0 < K .runner → v.ctx.init)
    (dropper : K .dropper ≤ H .dropper) :
    ContextView.Good { v with ctx := { v.ctx with ref := v.ctx.ref + 1 } } K := by
  have refs := good.refs
  have marks := good.marks
  refine ⟨?_, token ▸ good.tokens, ?_, good.freed, good.ring, good.idle, good.fifo, good.kept,
    creator ▸ good.started, running, fun drops => good.dropping (drops.trans_le dropper), good.gone⟩
  · change v.ctx.ref + 1 = (if v.ctx.registered then 1 else 0) + K .ref
    omega
  · change K .mark + (if v.queue.release then 1 else 0) = if v.ctx.ref + 1 = 0 then 1 else 0
    rw [if_pos registered] at refs
    rw [if_neg (show v.ctx.ref ≠ 0 by omega)] at marks
    rw [if_neg (Nat.succ_ne_zero _)]
    omega

/-- The handle storage hands its reference on. -/
theorem retire (good : v.Good H) (registered : v.ctx.registered) (ref : K .ref = H .ref + 1)
    (token : K .token = H .token) (mark : K .mark = H .mark) (running : K .runner ≤ H .runner)
    (dropper : K .dropper ≤ H .dropper) :
    ContextView.Good { v with ctx := { v.ctx with registered := false } } K := by
  have refs := good.refs
  refine ⟨?_, token ▸ good.tokens, mark ▸ good.marks, good.freed, good.ring, good.idle, good.fifo, good.kept,
    fun registered => Bool.noConfusion registered, fun runs => good.running (runs.trans_le running),
    fun drops => good.dropping (drops.trans_le dropper), good.gone⟩
  change v.ctx.ref = 0 + K .ref
  rw [if_pos registered] at refs
  omega

/-- The queue is marked, and goes to the global queue where it has no turn. -/
theorem marked (good : v.Good H) (held : 0 < H .mark) (ref : K .ref = H .ref) (token : K .token = H .token)
    (mark : K .mark = H .mark - 1) (runner : K .runner = H .runner) :
    ContextView.Good { v with
      queue := v.queue.skynet_mq_mark_release.1
      places := v.places + if v.queue.skynet_mq_mark_release.2 then 1 else 0 } K := by
  have marks := good.marks
  have tokens := good.tokens
  have refs := good.refs
  obtain ⟨dead, unmarked⟩ : v.ctx.ref = 0 ∧ v.queue.release = false := by
    split at marks
    · split at marks <;> omega
    · rename_i other
      refine ⟨?_, Bool.eq_false_iff.mpr other⟩
      split at marks <;> omega
  have there : v.freed = false := Bool.eq_false_iff.mpr fun gone => Bool.eq_false_iff.mp unmarked (good.freed gone)
  rw [if_pos dead, unmarked, if_neg Bool.false_ne_true] at marks
  rw [there, if_neg Bool.false_ne_true, unmarked, Bool.or_false] at tokens
  refine ⟨ref ▸ good.refs, ?_, ?_, fun _ => rfl, ⟨good.ring.head, good.ring.tail⟩, fun _ marked => Bool.noConfusion marked,
    good.fifo, fun marked => Bool.noConfusion marked, fun registered => ?_, fun runs => good.running (runner ▸ runs),
    fun _ => rfl, good.gone⟩
  · simp only [skynet_mq_mark_release, there, Bool.or_true, if_true, Bool.not_eq_true', Bool.false_eq_true, if_false]
    rw [token]
    cases inGlobal : v.queue.in_global with
    | true =>
        rw [inGlobal, if_pos rfl] at tokens
        simpa using tokens
    | false =>
        rw [inGlobal, if_neg Bool.false_ne_true] at tokens
        simp only [if_true]
        omega
  · change K .mark + 1 = if v.ctx.ref = 0 then 1 else 0
    rw [if_pos dead]
    omega
  · rw [if_pos registered] at refs
    omega

/-- The turn of a queue goes to the global queue, or comes from there. -/
theorem turn (good : v.Good H) {places : Nat} (ref : K .ref = H .ref) (mark : K .mark = H .mark)
    (creator : K .creator = H .creator) (runner : K .runner ≤ H .runner)
    (dropper : K .dropper ≤ H .dropper) (tokens : places + K .token = v.places + H .token) :
    ContextView.Good { v with places := places } K :=
  ⟨ref ▸ good.refs, tokens.trans good.tokens, mark ▸ good.marks, good.freed, good.ring, good.idle, good.fifo,
    good.kept, creator ▸ good.started, fun runs => good.running (runs.trans_le runner),
    fun drops => good.dropping (drops.trans_le dropper), good.gone⟩

/-- A message goes into the queue of a context that something refers to. -/
theorem push (good : v.Good H) (held : 0 < H .ref) (message : SkynetMessage) (same : ∀ h, K h = H h) :
    ContextView.Good { v with
      queue := (v.queue.skynet_mq_push message).1
      places := v.places + if (v.queue.skynet_mq_push message).2 then 1 else 0
      sent := v.sent ++ [message] } K := by
  obtain rfl : K = H := funext same
  have refs := good.refs
  obtain ⟨unmarked, there⟩ := good.alive (by omega)
  have tokens := good.tokens
  obtain ⟨contents, ring, -, -⟩ := contents_push v.queue message
  obtain ⟨ring', fifo⟩ := good.ring.enqueue message
  have flags : (v.queue.enqueue message).in_global = v.queue.in_global ∧
      (v.queue.enqueue message).release = v.queue.release := by
    rw [enqueue]
    split
    · exact ⟨rfl, rfl⟩
    · exact ⟨rfl, rfl⟩
  have released : (v.queue.skynet_mq_push message).1.release = v.queue.release := by
    rw [skynet_mq_push]
    split
    · exact flags.2
    · exact flags.2
  have inGlobal : (v.queue.skynet_mq_push message).1.in_global = true ∧
      (v.queue.skynet_mq_push message).2 = !v.queue.in_global := by
    rw [skynet_mq_push, flags.1]
    split
    · rename_i out
      rw [out]
      exact ⟨rfl, rfl⟩
    · rename_i here
      rw [Bool.not_eq_false] at here
      exact ⟨flags.1.trans here, by rw [here]; rfl⟩
  refine ⟨good.refs, ?_, ?_, ?_, ring ring', fun out => ?_, ?_, ?_, good.started, good.running,
    fun drops => released.trans (good.dropping drops), fun gone => absurd gone (by simp [there])⟩
  · simp only [inGlobal, there, Bool.true_or, if_true, Bool.false_eq_true, if_false]
    rw [there, unmarked, Bool.or_false, if_neg Bool.false_ne_true] at tokens
    cases out : v.queue.in_global with
    | true =>
        rw [out, if_pos rfl] at tokens
        simpa using tokens
    | false =>
        rw [out, if_neg Bool.false_ne_true] at tokens
        simp only [Bool.not_false, if_true]
        omega
  · rw [released]
    exact good.marks
  · rw [there]
    exact fun gone => Bool.noConfusion gone
  · rw [inGlobal.1] at out
    exact Bool.noConfusion out
  · rw [contents, fifo, ← List.append_assoc, good.fifo]
  · rw [released]
    exact good.kept

/-- The worker that has the turn takes a message. -/
theorem handle (good : v.Good H) (held : 0 < H .ref) {message : SkynetMessage} {q : MessageQueue SkynetMessage}
    (popped : v.queue.skynet_mq_pop = (some message, q)) (same : ∀ h, K h = H h) :
    ContextView.Good { v with queue := q, handled := v.handled ++ [message] } K := by
  obtain rfl : K = H := funext same
  have refs := good.refs
  obtain ⟨unmarked, there⟩ := good.alive (by omega)
  cases contents : v.queue.contents with
  | nil => rw [good.ring.pop_none contents] at popped; cases popped
  | cons first rest =>
      obtain ⟨q', popped', ring, left, -, inGlobal, released⟩ := good.ring.pop_some contents
      obtain ⟨rfl, rfl⟩ := Prod.mk.inj (popped'.symm.trans popped) |>.imp Option.some.inj id
      have fifo := good.fifo
      have kept := good.kept unmarked
      refine ⟨good.refs, ?_, ?_, ?_, ring, fun out unmarked => ?_, ?_, fun _ => kept, good.started, good.running,
        fun drops => released.trans (good.dropping drops), fun gone => absurd gone (by simp [there])⟩
      · dsimp only
        rw [inGlobal, released]
        exact good.tokens
      · dsimp only
        rw [released]
        exact good.marks
      · dsimp only
        rw [released]
        exact good.freed
      · have idle := good.idle (inGlobal ▸ out) (released ▸ unmarked)
        rw [contents] at idle
        cases idle
      · dsimp only
        rw [left, ← fifo, kept, contents]
        simp

/-- The queue is found empty and its turn ends. -/
theorem emptied (good : v.Good H) (held : 0 < H .ref) (turn : 0 < H .token) {q : MessageQueue SkynetMessage}
    (popped : v.queue.skynet_mq_pop = (none, q)) (ref : K .ref = H .ref) (token : K .token = H .token - 1)
    (mark : K .mark = H .mark) (creator : K .creator = H .creator) (runner : K .runner ≤ H .runner)
    (dropper : K .dropper ≤ H .dropper) : ContextView.Good { v with queue := q } K := by
  have refs := good.refs
  obtain ⟨unmarked, there⟩ := good.alive (by omega)
  obtain ⟨-, places, one⟩ := good.holder turn
  cases contents : v.queue.contents with
  | cons first rest =>
      obtain ⟨q', popped', -⟩ := good.ring.pop_some contents
      rw [popped'] at popped
      cases popped
  | nil =>
      obtain rfl := (Prod.mk.inj ((good.ring.pop_none contents).symm.trans popped)).2
      refine ⟨ref ▸ good.refs, ?_, mark ▸ good.marks, good.freed, ⟨good.ring.head, good.ring.tail⟩, fun _ _ => contents,
        good.fifo, good.kept, creator ▸ good.started, fun runs => good.running (runs.trans_le runner),
        fun drops => good.dropping (drops.trans_le dropper), fun _ => contents⟩
      dsimp only
      rw [there, unmarked, if_neg Bool.false_ne_true, Bool.or_false, if_neg Bool.false_ne_true]
      omega

/-- A marked queue gives up a message. -/
theorem drop (good : v.Good H) (marked : v.queue.release) (turn : 0 < H .token) {message : SkynetMessage} {q : MessageQueue SkynetMessage}
    (popped : v.queue.skynet_mq_pop = (some message, q)) (same : ∀ h, K h = H h) :
    ContextView.Good { v with queue := q, dropped := v.dropped ++ [message] } K := by
  obtain rfl : K = H := funext same
  have there := (good.holder turn).1
  cases contents : v.queue.contents with
  | nil => rw [good.ring.pop_none contents] at popped; cases popped
  | cons first rest =>
      obtain ⟨q', popped', ring, left, -, inGlobal, released⟩ := good.ring.pop_some contents
      obtain ⟨rfl, rfl⟩ := Prod.mk.inj (popped'.symm.trans popped) |>.imp Option.some.inj id
      have still : q'.release := released.trans marked
      refine ⟨good.refs, ?_, ?_, fun _ => still, ring, fun _ unmarked => ?_, ?_, fun unmarked => ?_, good.started,
        good.running, fun _ => still, fun gone => absurd gone (by simp [there])⟩
      · dsimp only
        rw [inGlobal, released]
        exact good.tokens
      · dsimp only
        rw [released]
        exact good.marks
      · exact absurd still (by simpa using unmarked)
      · dsimp only
        rw [left, ← good.fifo, contents]
        simp
      · exact absurd still (by simpa using unmarked)

/-- A marked queue without messages is freed. -/
theorem free (good : v.Good H) (marked : v.queue.release) (turn : 0 < H .token) {q : MessageQueue SkynetMessage}
    (popped : v.queue.skynet_mq_pop = (none, q)) (ref : K .ref = H .ref) (token : K .token = H .token - 1)
    (mark : K .mark = H .mark) (creator : K .creator = H .creator) (runner : K .runner ≤ H .runner)
    (dropper : K .dropper ≤ H .dropper) : ContextView.Good { v with queue := q, freed := true } K := by
  obtain ⟨-, places, one⟩ := good.holder turn
  cases contents : v.queue.contents with
  | cons first rest =>
      obtain ⟨q', popped', -⟩ := good.ring.pop_some contents
      rw [popped'] at popped
      cases popped
  | nil =>
      obtain rfl := (Prod.mk.inj ((good.ring.pop_none contents).symm.trans popped)).2
      refine ⟨ref ▸ good.refs, ?_, mark ▸ good.marks, fun _ => marked, ⟨good.ring.head, good.ring.tail⟩,
        fun _ _ => contents, good.fifo, good.kept, creator ▸ good.started, fun runs => good.running (runs.trans_le runner),
        fun drops => good.dropping (drops.trans_le dropper), fun _ => contents⟩
      dsimp only
      rw [if_pos rfl]
      omega

/-- A handle is given to a new context, by a creator that holds a reference and the turn of the queue. -/
theorem create (c : Nat) (ref : K .ref = 1) (token : K .token = 1) (mark : K .mark = 0) (creator : K .creator = 1)
    (runner : K .runner = 0) (dropper : K .dropper = 0) :
    ContextView.Good ⟨⟨2, true, false⟩, skynet_mq_create c, false, 0, [], [], []⟩ K where
  refs := by rw [ref]; rfl
  tokens := by rw [token]; rfl
  marks := by rw [mark]; rfl
  freed gone := Bool.noConfusion gone
  ring := ⟨(by decide : 0 < DEFAULT_QUEUE_SIZE), (by decide : 0 < DEFAULT_QUEUE_SIZE)⟩
  idle out := Bool.noConfusion out
  fifo := rfl
  kept _ := rfl
  started _ _ := by omega
  running runs := by omega
  dropping drops := by omega
  gone freed := Bool.noConfusion freed

end ContextView.Good

/-- A handle that no context has had. -/
def unused (c : Nat) : ContextView :=
  ⟨⟨0, false, false⟩, { skynet_mq_create c with release := true }, true, 0, [], [], []⟩

section Views
variable (s : Node) {c d : Nat}

theorem view_setCtx (c d : Nat) (ctx : SkynetContext) :
    (s.setCtx c ctx).view d = if d = c then { s.view d with ctx := ctx } else s.view d := by
  by_cases here : d = c
  · subst here
    simp [Node.view, Node.setCtx]
  · simp [Node.view, Node.setCtx, here]

theorem view_setQueue (c d : Nat) (q : MessageQueue SkynetMessage) :
    (s.setQueue c q).view d = if d = c then { s.view d with queue := q } else s.view d := by
  by_cases here : d = c
  · subst here
    simp [Node.view, Node.setQueue]
  · simp [Node.view, Node.setQueue, here]

theorem view_globalPush (c d : Nat) (called : Bool) :
    (s.globalPush c called).view d =
      if d = c then { s.view d with places := (s.view d).places + if called then 1 else 0 } else s.view d := by
  cases called with
  | false => simp [Node.globalPush]
  | true =>
      by_cases here : d = c
      · subst here
        simp [Node.view, Node.globalPush]
      · simp [Node.view, Node.globalPush, here, Ne.symm here]

theorem view_pushed (c d : Nat) (message : SkynetMessage) : (s.pushed c message).view d =
    if d = c then { s.view d with
      queue := ((s.view d).queue.skynet_mq_push message).1
      places := (s.view d).places + if ((s.view d).queue.skynet_mq_push message).2 then 1 else 0
      sent := (s.view d).sent ++ [message] } else s.view d := by
  have base := view_globalPush (s.setQueue c ((s.queue c).skynet_mq_push message).1) c d
    ((s.queue c).skynet_mq_push message).2
  have logged : (s.pushed c message).view d = { ((s.setQueue c ((s.queue c).skynet_mq_push message).1).globalPush c
      ((s.queue c).skynet_mq_push message).2).view d with
        sent := Function.update s.sent c (s.sent c ++ [message]) d } := rfl
  rw [logged, base, view_setQueue]
  by_cases here : d = c
  · subst here
    simp [Node.view]
    rfl
  · simp [Node.view, here]

theorem view_marked (c d : Nat) : (s.marked c).view d =
    if d = c then { s.view d with
      queue := (s.view d).queue.skynet_mq_mark_release.1
      places := (s.view d).places + if (s.view d).queue.skynet_mq_mark_release.2 then 1 else 0 } else s.view d := by
  rw [Node.marked, view_globalPush, view_setQueue]
  by_cases here : d = c
  · subst here
    simp [Node.view]
    rfl
  · simp [here]

theorem view_handle (c d : Nat) (q : MessageQueue SkynetMessage) (message : SkynetMessage) :
    (s.handle c q message).view d =
      if d = c then { s.view d with queue := q, handled := (s.view d).handled ++ [message] } else s.view d := by
  by_cases here : d = c
  · subst here
    simp [Node.view, Node.handle, Node.setQueue]
  · simp [Node.view, Node.handle, Node.setQueue, here]

theorem view_drop (c d : Nat) (q : MessageQueue SkynetMessage) (message : SkynetMessage) :
    (s.drop c q message).view d =
      if d = c then { s.view d with queue := q, dropped := (s.view d).dropped ++ [message] } else s.view d := by
  by_cases here : d = c
  · subst here
    simp [Node.view, Node.drop, Node.setQueue]
  · simp [Node.view, Node.drop, Node.setQueue, here]

theorem view_free (c d : Nat) (q : MessageQueue SkynetMessage) :
    (s.free c q).view d = if d = c then { s.view d with queue := q, freed := true } else s.view d := by
  by_cases here : d = c
  · subst here
    simp [Node.view, Node.free, Node.setQueue]
  · simp [Node.view, Node.free, Node.setQueue, here]

theorem view_globalPop {nq : Nat} {s' : Node} (popped : s.globalPop = (some nq, s')) (d : Nat) :
    s'.view d = (if d = nq then { s.view d with places := (s.view d).places - 1 } else s.view d) ∧
      (d = nq → 0 < (s.view d).places) := by
  rw [Node.globalPop] at popped
  split at popped
  · cases popped
  · rename_i first global listed
    obtain ⟨rfl, rfl⟩ := Prod.mk.inj popped |>.imp Option.some.inj id
    by_cases here : d = first
    · subst here
      simp [Node.view, listed]
    · simp [Node.view, listed, here, Ne.symm here]

theorem globalPop_none {s' : Node} (popped : s.globalPop = (none, s')) : s' = s := by
  rw [Node.globalPop] at popped
  split at popped
  · exact (Prod.mk.inj popped).2.symm
  · cases popped

end Views

/-- Every context is kept, given what these operations of a thread and the others hold. -/
def Balanced (s : Node) (ops : List Op) (T : Nat → Hold → Nat) : Prop :=
  ∀ c, (s.view c).Good fun h => (ops.map (Op.holds c h)).sum + T c h

/-- What the operations of the others can hold. -/
structure Holdable (T : Nat → Hold → Nat) : Prop where
  creator : ∀ c, T c .creator ≤ T c .token
  runner : ∀ c, T c .runner ≤ T c .token
  dropper : ∀ c, T c .dropper ≤ T c .token

section Exec
variable {s s' : Node} {op : Op} {new : List Op} {T : Nat → Hold → Nat} {c d nq : Nat} {h : Hold}

theorem holds_other (other : op.subject ≠ some c) : op.holds c h = 0 := if_neg fun both => other both.1

theorem sum_other (others : ∀ op ∈ new, op.subject ≠ some c) : (new.map (Op.holds c h)).sum = 0 :=
  List.sum_eq_zero fun _ mem => by
    obtain ⟨op, inside, rfl⟩ := List.mem_map.mp mem
    exact holds_other (others op inside)

theorem Balanced.own (balanced : Balanced s [op] T) (c : Nat) :
    (s.view c).Good fun h => op.holds c h + T c h := by
  have good := balanced c
  simp only [List.map_singleton, List.sum_singleton] at good
  exact good

/-- One operation kept every context, and touched none whose queue is freed. -/
structure Kept (s s' : Node) (new : List Op) (T : Nat → Hold → Nat) : Prop where
  balanced : Balanced s' new T
  still : ∀ d, s.freed d → s'.view d = s.view d
  index : s'.handle_index = s.handle_index

/-- An operation that has to do with one context only. -/
theorem Balanced.kept (balanced : Balanced s [op] T) (old : op.subject = none ∨ op.subject = some c)
    (others : ∀ op ∈ new, op.subject = none ∨ op.subject = some c) (frame : ∀ d, d ≠ c → s'.view d = s.view d)
    (own : (s'.view c).Good fun h => (new.map (Op.holds c h)).sum + T c h)
    (there : s.freed c = false ∨ s'.view c = s.view c) (index : s'.handle_index = s.handle_index) : Kept s s' new T where
  balanced d := by
    by_cases here : d = c
    · exact here ▸ own
    · have apart {op : Op} (subject : op.subject = none ∨ op.subject = some c) : op.subject ≠ some d := by
        obtain none_ | some_ := subject
        · rw [none_]
          exact nofun
        · rw [some_]
          exact fun same => here (Option.some.inj same).symm
      have good := balanced.own d
      simp only [holds_other (apart old)] at good
      simp only [sum_other fun op mem => apart (others op mem)]
      exact (frame d here).symm ▸ good
  still d gone := by
    by_cases here : d = c
    · subst here
      exact there.resolve_left (by simp [gone])
    · exact frame d here
  index := index

/-- An operation that sets the context. -/
theorem Balanced.kept_ctx (balanced : Balanced s [op] T) {ctx : SkynetContext}
    (old : op.subject = none ∨ op.subject = some c) (others : ∀ op ∈ new, op.subject = none ∨ op.subject = some c)
    (there : s.freed c = false)
    (own : ContextView.Good { s.view c with ctx := ctx } fun h => (new.map (Op.holds c h)).sum + T c h) :
    Kept s (s.setCtx c ctx) new T := by
  refine balanced.kept old others (fun d other => ?_) ?_ (.inl there) rfl
  · rw [view_setCtx, if_neg other]
  · rwa [view_setCtx, if_pos rfl]

/-- The turn of a queue goes to the global queue. -/
theorem Balanced.kept_global (balanced : Balanced s [op] T) (old : op.subject = some c) (there : s.freed c = false)
    (own : ContextView.Good { s.view c with places := (s.view c).places + 1 } (T c)) :
    Kept s (s.globalPush c true) [] T := by
  refine balanced.kept (.inr old) (fun op mem => absurd mem List.not_mem_nil) (fun d other => ?_) ?_ (.inl there) rfl
  · rw [view_globalPush, if_neg other]
  · rw [view_globalPush, if_pos rfl]
    simpa using own

theorem exec_create (ok : Bool) (balanced : Balanced s [.create c] T) :
    Kept s (s.exec ok (.create c)).1 (s.exec ok (.create c)).2 T := by
  have good := balanced.own c
  refine balanced.kept (.inr rfl) (fun op mem => ?_) (fun d _ => rfl) ?_ (.inr rfl) rfl
  · cases ok with
    | true => simp_all [Node.exec]
    | false =>
        simp only [Node.exec, Bool.false_eq_true, if_false, List.mem_cons, List.not_mem_nil, or_false] at mem
        obtain rfl | rfl := mem
        · exact .inr rfl
        · exact .inr rfl
  · cases ok with
    | true => refine good.pass ?_ ?_ ?_ (fun _ => ?_) ?_ fun _ => ?_ <;> simp [Node.exec]
    | false => refine good.pass ?_ ?_ ?_ (fun _ => ?_) ?_ fun _ => ?_ <;> simp [Node.exec]

theorem exec_launch (ok : Bool) (balanced : Balanced s [.launch c] T) :
    Kept s (s.exec ok (.launch c)).1 (s.exec ok (.launch c)).2 T := by
  have good := balanced.own c
  have held : (s.view c).ctx.ref = (if (s.view c).ctx.registered then 1 else 0) + (1 + T c .ref) := by
    simpa using good.refs
  have there := (good.alive (by omega)).2
  simp only [Node.exec]
  split
  · rename_i last
    have last : (s.view c).ctx.ref - 1 = 0 := last
    refine balanced.kept_ctx (.inr rfl) (by simp) there (good.decRef ?_ ?_ ?_ ?_ (fun registered => ?_) ?_ ?_)
    · simp
    · simp
    · simp
    · rw [if_pos last]
      simp [Nat.add_comm]
    · rw [if_pos registered] at held
      omega
    · simp
    · simp
  · rename_i lives
    refine balanced.kept_ctx (.inr rfl) (by simp) there (good.launched ?_ lives ?_ ?_ ?_ ?_)
    all_goals simp

theorem exec_abandon (ok : Bool) (balanced : Balanced s [.abandon c] T) :
    Kept s (s.exec ok (.abandon c)).1 (s.exec ok (.abandon c)).2 T := by
  have good := balanced.own c
  have there := (good.holder (by simp)).1
  simp only [Node.exec]
  split
  · rename_i registered
    refine balanced.kept_ctx (.inr rfl) (by simp) there (good.retire registered ?_ ?_ ?_ ?_ ?_)
    all_goals simp [Nat.add_comm]
  · rename_i gone
    refine balanced.kept (.inr rfl) (by simp) (fun d _ => rfl) ?_ (.inl there) rfl
    refine good.pass ?_ ?_ ?_ (fun registered => absurd registered gone) ?_ fun _ => ?_
    all_goals simp

theorem exec_release (ok : Bool) (balanced : Balanced s [.skynet_context_release c] T) :
    Kept s (s.exec ok (.skynet_context_release c)).1 (s.exec ok (.skynet_context_release c)).2 T := by
  have good := balanced.own c
  have held : (s.view c).ctx.ref = (if (s.view c).ctx.registered then 1 else 0) + (1 + T c .ref) := by
    simpa using good.refs
  have there := (good.alive (by omega)).2
  simp only [Node.exec]
  by_cases last : (s.ctx c).ref - 1 = 0
  · rw [if_pos last]
    refine balanced.kept_ctx (.inr rfl) (by simp) there
      (good.decRef ?_ ?_ ?_ ((if_pos last).symm ▸ ?_) (fun _ => ?_) ?_ ?_)
    all_goals simp [Nat.add_comm]
  · rw [if_neg last]
    refine balanced.kept_ctx (.inr rfl) (by simp) there
      (good.decRef ?_ ?_ ?_ ((if_neg last).symm ▸ ?_) (fun _ => ?_) ?_ ?_)
    all_goals simp

theorem exec_delete (ok : Bool) (balanced : Balanced s [.delete_context c] T) :
    Kept s (s.exec ok (.delete_context c)).1 (s.exec ok (.delete_context c)).2 T := by
  have good := balanced.own c
  have marks := good.marks
  have there : s.freed c = false := by
    refine Bool.eq_false_iff.mpr fun gone => ?_
    rw [if_pos (good.freed gone)] at marks
    simp only [Op.holds, Op.subject, Op.kinds, List.mem_singleton, and_self, if_true] at marks
    split at marks <;> omega
  refine balanced.kept (.inr rfl) (fun op mem => absurd mem List.not_mem_nil) (fun d other => ?_) ?_ (.inl there) ?_
  · rw [Node.exec, view_marked, if_neg other]
  · rw [Node.exec, view_marked, if_pos rfl]
    refine good.marked ?_ ?_ ?_ ?_ ?_
    all_goals simp
  · rw [Node.exec, Node.marked, Node.globalPush]
    split <;> rfl

theorem exec_globalmq_push (ok : Bool) (balanced : Balanced s [.skynet_globalmq_push c] T) :
    Kept s (s.exec ok (.skynet_globalmq_push c)).1 (s.exec ok (.skynet_globalmq_push c)).2 T := by
  have good := balanced.own c
  have there := (good.holder (by simp)).1
  refine balanced.kept_global rfl there (good.turn ?_ ?_ ?_ ?_ ?_ ?_)
  all_goals simp
  omega

theorem exec_retire (ok : Bool) (balanced : Balanced s [.skynet_handle_retire c] T) :
    Kept s (s.exec ok (.skynet_handle_retire c)).1 (s.exec ok (.skynet_handle_retire c)).2 T := by
  have good := balanced.own c
  simp only [Node.exec]
  split
  · rename_i registered
    have refs := good.refs
    have registered : (s.view c).ctx.registered := registered
    rw [if_pos registered] at refs
    have there := (good.alive (by omega)).2
    refine balanced.kept_ctx (.inl rfl) (by simp) there (good.retire registered ?_ ?_ ?_ ?_ ?_)
    all_goals simp [Nat.add_comm]
  · refine balanced.kept (c := c) (.inl rfl) (fun op mem => absurd mem List.not_mem_nil) (fun d _ => rfl) ?_ (.inr rfl) rfl
    simpa using good

theorem exec_context_push (ok : Bool) (message : SkynetMessage)
    (balanced : Balanced s [.skynet_context_push c message] T) :
    Kept s (s.exec ok (.skynet_context_push c message)).1 (s.exec ok (.skynet_context_push c message)).2 T := by
  have good := balanced.own c
  simp only [Node.exec]
  split
  · rename_i registered
    have refs := good.refs
    have registered : (s.view c).ctx.registered := registered
    rw [if_pos registered] at refs
    have there := (good.alive (by omega)).2
    refine balanced.kept_ctx (.inl rfl) (by simp) there
      (good.grab registered ?_ ?_ ?_ ?_ (fun runs => good.running ?_) ?_)
    all_goals simp_all [Nat.add_comm]
  · refine balanced.kept (c := c) (.inl rfl) (fun op mem => absurd mem List.not_mem_nil) (fun d _ => rfl) ?_ (.inr rfl) rfl
    simpa using good

theorem exec_mq_push (ok : Bool) (message : SkynetMessage) (balanced : Balanced s [.skynet_mq_push c message] T) :
    Kept s (s.exec ok (.skynet_mq_push c message)).1 (s.exec ok (.skynet_mq_push c message)).2 T := by
  have good := balanced.own c
  have held : 0 < Op.holds c .ref (.skynet_mq_push c message) + T c .ref := by simp
  have refs := good.refs
  have there := (good.alive (by omega)).2
  refine balanced.kept (.inr rfl) (by simp [Node.exec]) (fun d other => ?_) ?_ (.inl there) ?_
  · rw [Node.exec, view_pushed, if_neg other]
  · rw [Node.exec, view_pushed, if_pos rfl]
    refine good.push held message fun h => ?_
    cases h <;> simp
  · rw [Node.exec, Node.pushed, Node.globalPush]
    split <;> rfl

theorem exec_mq_release (ok : Bool) (balanced : Balanced s [.skynet_mq_release c] T) :
    Kept s (s.exec ok (.skynet_mq_release c)).1 (s.exec ok (.skynet_mq_release c)).2 T := by
  have good := balanced.own c
  have there := (good.holder (by simp)).1
  simp only [Node.exec]
  split
  · rename_i marked
    refine balanced.kept (.inr rfl) (by simp) (fun d _ => rfl) ?_ (.inl there) rfl
    refine good.pass ?_ ?_ ?_ (fun _ => ?_) ?_ fun unmarked => absurd marked (Bool.eq_false_iff.mp unmarked)
    all_goals simp
  · refine balanced.kept_global rfl there (good.turn ?_ ?_ ?_ ?_ ?_ ?_)
    all_goals simp
    omega

theorem exec_drop_queue (ok : Bool) (balanced : Balanced s [.drop_queue c] T) :
    Kept s (s.exec ok (.drop_queue c)).1 (s.exec ok (.drop_queue c)).2 T := by
  have good := balanced.own c
  have turn : 0 < Op.holds c .token (.drop_queue c) + T c .token := by simp
  have marked : (s.view c).queue.release := good.dropping (by simp)
  have there := (good.holder turn).1
  simp only [Node.exec]
  split
  · rename_i message q popped
    refine balanced.kept (.inr rfl) (by simp) (fun d other => ?_) ?_ (.inl there) rfl
    · rw [view_drop, if_neg other]
    · rw [view_drop, if_pos rfl]
      refine good.drop marked turn popped fun h => ?_
      cases h <;> simp
  · rename_i q popped
    refine balanced.kept (.inr rfl) (fun op mem => absurd mem List.not_mem_nil) (fun d other => ?_) ?_ (.inl there) rfl
    · rw [view_free, if_neg other]
    · rw [view_free, if_pos rfl]
      refine good.free marked turn popped ?_ ?_ ?_ ?_ ?_ ?_
      all_goals simp

/-- A queue is taken from the global queue, with its turn. -/
theorem Balanced.take {ops : List Op} (balanced : Balanced s ops T) (popped : s.globalPop = (some nq, s'))
    (weight : Int) :
    Balanced s' ops (fun d h => T d h + Op.holds d h (.worker weight (some nq))) ∧
      (∀ d, s.freed d → s'.view d = s.view d) ∧ s'.handle_index = s.handle_index := by
  refine ⟨fun d => ?_, fun d gone => ?_, ?_⟩
  · obtain ⟨view, listed⟩ := view_globalPop s popped d
    rw [view]
    split
    · rename_i here
      have := listed here
      subst here
      refine (balanced d).turn ?_ ?_ ?_ ?_ ?_ ?_
      all_goals simp
      omega
    · rename_i other
      have none_ (h : Hold) : Op.holds d h (.worker weight (some nq)) = 0 :=
        holds_other fun same => other (Option.some.inj same).symm
      simp only [none_, Nat.add_zero]
      exact balanced d
  · obtain ⟨view, listed⟩ := view_globalPop s popped d
    rw [view, if_neg]
    intro here
    have places := listed here
    have tokens := (balanced d).tokens
    rw [show (s.view d).freed = true from gone, if_pos rfl] at tokens
    omega
  · rw [Node.globalPop] at popped
    split at popped
    · cases popped
    · obtain ⟨-, rfl⟩ := Prod.mk.inj popped
      rfl

/-- Operations of a worker that take a queue and hold nothing else. -/
theorem kept_take {op' : Op} (weight : Int) (balanced : Balanced s [op] T) (nothing : ∀ d h, op.holds d h = 0)
    (popped : s.globalPop = (some nq, s')) (turn : ∀ d h, op'.holds d h = Op.holds d h (.worker weight (some nq))) :
    Kept s s' [op'] T := by
  obtain ⟨taken, still, index⟩ := balanced.take popped weight
  refine ⟨fun d => ?_, still, index⟩
  have good := taken.own d
  simp only [nothing, Nat.zero_add] at good
  simp only [List.map_singleton, List.sum_singleton, turn, Nat.add_comm (Op.holds d _ (.worker weight (some nq)))]
  exact good

theorem exec_worker (ok : Bool) (weight : Int) (q : Option Nat) (balanced : Balanced s [.worker weight q] T) :
    Kept s (s.exec ok (.worker weight q)).1 (s.exec ok (.worker weight q)).2 T := by
  cases q with
  | some c =>
      have good := balanced.own c
      refine balanced.kept (.inr rfl) (by simp [Node.exec]) (fun d _ => rfl) ?_ (.inr rfl) rfl
      simpa [Node.exec] using good
  | none =>
      simp only [Node.exec]
      split
      · rename_i c s' popped
        exact kept_take weight balanced (fun d h => by simp) popped fun d h => rfl
      · rename_i s' popped
        obtain rfl := globalPop_none s popped
        exact ⟨balanced, fun d _ => rfl, rfl⟩

theorem exec_next (ok : Bool) (weight : Int) (balanced : Balanced s [.next weight] T) :
    Kept s (s.exec ok (.next weight)).1 (s.exec ok (.next weight)).2 T := by
  cases popped : s.globalPop with
  | mk q s' =>
      simp only [Node.exec, popped]
      cases q with
      | some c => exact kept_take _ balanced (fun d h => by simp) popped fun d h => rfl
      | none =>
          obtain rfl := globalPop_none s popped
          refine ⟨fun d => ?_, fun d _ => rfl, rfl⟩
          simpa using balanced d

/-- A context of which a worker has the turn has no creator any more. -/
theorem exec_dispatch (ok : Bool) (weight : Int) (holdable : Holdable T) (balanced : Balanced s [.dispatch weight c] T) :
    Kept s (s.exec ok (.dispatch weight c)).1 (s.exec ok (.dispatch weight c)).2 T := by
  have good := balanced.own c
  obtain ⟨there, -, one⟩ := good.holder (by simp)
  simp only [Node.exec]
  split
  · rename_i registered
    have alone : T c .creator = 0 := by
      have := holdable.creator c
      simp only [Op.holds, Op.subject, Op.kinds, List.mem_singleton, and_self, if_true] at one
      omega
    have init : (s.view c).ctx.init := by
      by_contra fresh
      have started := good.started registered (Bool.eq_false_iff.mpr fresh)
      simp [alone] at started
    refine balanced.kept_ctx (.inr rfl) (by simp) there (good.grab registered ?_ ?_ ?_ ?_ (fun _ => init) ?_)
    all_goals simp [Nat.add_comm]
  · refine balanced.kept (.inr rfl) (by simp) (fun d _ => rfl) ?_ (.inl there) rfl
    simpa using good

theorem exec_loop (ok : Bool) (weight : Int) (i n : Nat) (balanced : Balanced s [.loop weight c i n] T) :
    Kept s (s.exec ok (.loop weight c i n)).1 (s.exec ok (.loop weight c i n)).2 T := by
  have good := balanced.own c
  have held : 0 < Op.holds c .ref (.loop weight c i n) + T c .ref := by simp
  have turn : 0 < Op.holds c .token (.loop weight c i n) + T c .token := by simp
  have there := (good.holder turn).1
  simp only [Node.exec]
  split
  · split
    · rename_i q popped
      refine balanced.kept (.inr rfl) (by simp) (fun d other => ?_) ?_ (.inl there) rfl
      · rw [view_setQueue, if_neg other]
      · rw [view_setQueue, if_pos rfl]
        refine good.emptied held turn popped ?_ ?_ ?_ ?_ ?_ ?_
        all_goals simp
    · rename_i message q popped
      refine balanced.kept (.inr rfl) (fun op mem => ?_) (fun d other => ?_) ?_ (.inl there) rfl
      · rw [List.mem_singleton.mp mem]
        split
        · exact .inr rfl
        · exact .inr rfl
      · rw [view_handle, if_neg other]
      · rw [view_handle, if_pos rfl]
        refine good.handle held popped fun h => ?_
        split
        · cases h <;> simp
        · cases h <;> simp
  · split
    · rename_i nq s' popped
      obtain ⟨taken, still, index⟩ := balanced.take popped weight
      have passed : Kept s' s' [.skynet_globalmq_push c, .skynet_context_release c]
          fun d h => T d h + Op.holds d h (.worker weight (some nq)) := by
        refine taken.kept (.inr rfl) (by simp) (fun d _ => rfl) ?_ (.inr rfl) rfl
        have good := taken.own c
        refine good.pass ?_ ?_ ?_ (fun _ => ?_) ?_ fun _ => ?_
        all_goals simp
      refine ⟨fun d => ?_, still, index⟩
      have good := passed.balanced d
      simp only [List.map_cons, List.map_nil, List.sum_cons, List.sum_nil] at good ⊢
      simp only [Nat.add_zero, Nat.add_assoc, Nat.add_comm (T d _) (Op.holds d _ _)] at good ⊢
      exact good
    · rename_i s' popped
      obtain rfl := globalPop_none s popped
      refine balanced.kept (.inr rfl) (by simp) (fun d _ => rfl) ?_ (.inl there) rfl
      refine good.pass ?_ ?_ ?_ (fun _ => ?_) ?_ fun _ => ?_
      all_goals simp

/-- Operations that pass on what they hold. -/
theorem exec_same (balanced : Balanced s [op] T) {op' : Op} (same : ∀ d h, op'.holds d h = op.holds d h) :
    Kept s s [op'] T := by
  refine ⟨fun d => ?_, fun d _ => rfl, rfl⟩
  simp only [List.map_singleton, List.sum_singleton, same]
  exact balanced.own d

/-- Each atomic operation keeps every context. -/
theorem exec_kept (ok : Bool) (op : Op) (holdable : Holdable T) (balanced : Balanced s [op] T) :
    Kept s (s.exec ok op).1 (s.exec ok op).2 T := by
  cases op with
  | create c => exact exec_create ok balanced
  | launch c => exact exec_launch ok balanced
  | abandon c => exact exec_abandon ok balanced
  | skynet_context_release c => exact exec_release ok balanced
  | delete_context c => exact exec_delete ok balanced
  | skynet_globalmq_push c => exact exec_globalmq_push ok balanced
  | skynet_handle_retire c => exact exec_retire ok balanced
  | skynet_context_push c message => exact exec_context_push ok message balanced
  | skynet_mq_push c message => exact exec_mq_push ok message balanced
  | skynet_mq_release c => exact exec_mq_release ok balanced
  | drop_queue c => exact exec_drop_queue ok balanced
  | worker weight q => exact exec_worker ok weight q balanced
  | next weight => exact exec_next ok weight balanced
  | dispatch weight c => exact exec_dispatch ok weight holdable balanced
  | loop weight c i n => exact exec_loop ok weight i n balanced
  | measure weight c i message => exact exec_same balanced fun d h => rfl
  | dispatch_message weight c i n message => exact exec_same balanced fun d h => rfl

end Exec

/-- What holds of the node between any two steps. -/
structure SkynetNode.Safe (s : SkynetNode) : Prop where
  contexts : ∀ c, (s.node.view c).Good fun h => total (Op.holds c h) s.threads
  unused : ∀ c, s.node.handle_index ≤ c → s.node.view c = unused c

section Steps
variable {s u : SkynetNode} {c : Nat} {threads : List (List Op)}

theorem holds_le_token (h : Hold) (token : ∀ op : Op, h ∈ op.kinds → .token ∈ op.kinds) (c : Nat)
    (threads : List (List Op)) : total (Op.holds c h) threads ≤ total (Op.holds c .token) threads := by
  refine total_mono fun op => ?_
  rw [Op.holds, Op.holds]
  split
  · rename_i held
    rw [if_pos ⟨held.1, token op held.2⟩]
  · exact Nat.zero_le _

theorem holdable_total (threads : List (List Op)) : Holdable fun c h => total (Op.holds c h) threads where
  creator c := holds_le_token .creator (fun op => by cases op <;> simp) c threads
  runner c := holds_le_token .runner (fun op => by cases op <;> simp) c threads
  dropper c := holds_le_token .dropper (fun op => by cases op <;> simp) c threads

theorem SkynetNode.Safe.run (safe : s.Safe) {thread : Nat} {ok : Bool} (moved : s.step (.run thread ok) = some u) :
    u.Safe := by
  rw [SkynetNode.step] at moved
  split at moved
  · rename_i op rest here
    obtain rfl := Option.some.inj moved
    have before (c : Nat) (h : Hold) : total (Op.holds c h) s.threads =
        op.holds c h + total (Op.holds c h) (s.threads.set thread rest) := by
      have parts := total_set (f := Op.holds c h) [] here
      simpa [Nat.add_comm] using parts.symm
    have balanced : Balanced s.node [op] fun c h => total (Op.holds c h) (s.threads.set thread rest) := fun c => by
      have good := safe.contexts c
      simp only [before] at good
      simpa using good
    have kept := exec_kept ok op (holdable_total _) balanced
    refine ⟨fun c => ?_, fun c later => ?_⟩
    · have good := kept.balanced c
      have after (h : Hold) : total (Op.holds c h) (s.threads.set thread ((s.node.exec ok op).2 ++ rest)) =
          ((s.node.exec ok op).2.map (Op.holds c h)).sum + total (Op.holds c h) (s.threads.set thread rest) := by
        have parts := total_set (f := Op.holds c h) (s.node.exec ok op).2 here
        rw [before] at parts
        omega
      simp only [after]
      exact good
    · rw [kept.index] at later
      have view := safe.unused c later
      exact (kept.still c (congrArg ContextView.freed view)).trans view
  · cases moved

/-- A thread that starts with an operation that holds nothing. -/
theorem SkynetNode.Safe.start (safe : s.Safe) {op : Op} (nothing : ∀ c h, op.holds c h = 0) :
    (s.start s.node op).Safe := by
  refine ⟨fun c => ?_, safe.unused⟩
  have good := safe.contexts c
  simp only [SkynetNode.start, total_append, total_cons, total_nil, List.map_cons, List.map_nil, List.sum_cons,
    List.sum_nil, nothing, Nat.add_zero]
  exact good

theorem SkynetNode.Safe.context_new (safe : s.Safe) :
    (s.start s.node.skynet_context_new (.create s.node.handle_index)).Safe := by
  have viewed (c : Nat) : s.node.skynet_context_new.view c = if c = s.node.handle_index then
      ⟨⟨2, true, false⟩, skynet_mq_create c, false, (s.node.view c).places, (s.node.view c).sent,
        (s.node.view c).handled, (s.node.view c).dropped⟩ else s.node.view c := by
    by_cases here : c = s.node.handle_index
    · subst here
      simp [Node.view, Node.skynet_context_new, Node.setQueue, Node.setCtx]
    · simp [Node.view, Node.skynet_context_new, Node.setQueue, Node.setCtx, here]
  refine ⟨fun c => ?_, fun c later => ?_⟩
  · have good := safe.contexts c
    simp only [SkynetNode.start, total_append, total_cons, total_nil, List.map_cons, List.map_nil, List.sum_cons,
      List.sum_nil, Nat.add_zero, viewed]
    split
    · rename_i here
      have view := safe.unused c here.ge
      rw [view] at good ⊢
      -- nothing holds anything of a handle that no context has had
      have refs : 0 = 0 + total (Op.holds c .ref) s.threads := good.refs
      have tokens : 0 + total (Op.holds c .token) s.threads = 0 := good.tokens
      have marks : total (Op.holds c .mark) s.threads + 1 = 1 := good.marks
      have le := holdable_total s.threads
      have creator := le.creator c
      have runner := le.runner c
      have dropper := le.dropper c
      refine ContextView.Good.create c ?_ ?_ ?_ ?_ ?_ ?_
      all_goals simp [here]
      all_goals first | (rw [← here]; omega) | omega
    · rename_i other
      have none_ (h : Hold) : Op.holds c h (.create s.node.handle_index) = 0 :=
        holds_other fun same => other (Option.some.inj same).symm
      simp only [none_, Nat.add_zero]
      exact good
  · have later : s.node.handle_index + 1 ≤ c := later
    exact (viewed c).trans ((if_neg (by omega)).trans (safe.unused c (by omega)))

theorem SkynetNode.Safe.step {act : NodeAct} (safe : s.Safe) (moved : s.step act = some u) : u.Safe := by
  cases act with
  | run thread ok => exact safe.run moved
  | skynet_context_new =>
      obtain rfl := Option.some.inj moved
      exact safe.context_new
  | skynet_context_push c message =>
      obtain rfl := Option.some.inj moved
      exact safe.start fun c h => by simp
  | skynet_handle_retire c =>
      obtain rfl := Option.some.inj moved
      exact safe.start fun c h => by simp
  | thread_worker weight =>
      obtain rfl := Option.some.inj moved
      exact safe.start fun c h => by simp

end Steps

section Runs
variable {acts : List NodeAct} {s : SkynetNode}

end Runs

end HuluLandlord.Skynet
