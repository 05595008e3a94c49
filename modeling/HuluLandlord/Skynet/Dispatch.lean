import HuluLandlord.Skynet.MessageQueue
import HuluLandlord.Skynet.Timeout

/-!
Contexts, their message queues, the global queue and the threads that work on them. A thread is the list of the
atomic operations it has still to do, each of them one hold of a lock or one atomic count; an operation may put
others before the rest. Handles are taken in order and not reused, as long as the 24 bits last.
-/
namespace HuluLandlord.Skynet
open Transition MessageQueue

def PTYPE_ERROR : Nat := 7

structure SkynetContext where
  ref : Nat
  /-- The handle storage holds the context. -/
  registered : Bool
  init : Bool
  deriving DecidableEq, Repr

/-- Operations on the context or the queue of a handle. Those of a worker carry its weight. -/
inductive Op
  /-- The module's init function is running. -/
  | create (c : Nat)
  /-- `skynet_context_new` after an init that returned 0. -/
  | launch (c : Nat)
  /-- `skynet_handle_retire` and `skynet_mq_release` after an init that failed. -/
  | abandon (c : Nat)
  | skynet_context_release (c : Nat)
  | delete_context (c : Nat)
  | skynet_globalmq_push (c : Nat)
  | skynet_handle_retire (c : Nat)
  /-- `skynet_context_push`, up to the grab of the context. -/
  | skynet_context_push (c : Nat) (message : SkynetMessage)
  | skynet_mq_push (c : Nat) (message : SkynetMessage)
  | skynet_mq_release (c : Nat)
  | drop_queue (c : Nat)
  /-- `thread_worker` at the head of its loop. -/
  | worker (weight : Int) (q : Option Nat)
  /-- `return skynet_globalmq_pop()` -/
  | next (weight : Int)
  | dispatch (weight : Int) (c : Nat)
  /-- The head of the loop over `i` and `n`. -/
  | loop (weight : Int) (c i n : Nat)
  /-- The first message is out and `n` is to be set. -/
  | measure (weight : Int) (c i : Nat) (message : SkynetMessage)
  /-- The callback of the context is running. -/
  | dispatch_message (weight : Int) (c i n : Nat) (message : SkynetMessage)
  deriving DecidableEq, Repr

structure Node where
  ctx : Nat → SkynetContext
  queue : Nat → MessageQueue SkynetMessage
  freed : Nat → Bool
  global : List Nat
  handle_index : Nat
  sent : Nat → List SkynetMessage
  handled : Nat → List SkynetMessage
  dropped : Nat → List SkynetMessage

namespace Node
variable (s : Node)

def setCtx (c : Nat) (ctx : SkynetContext) : Node := { s with ctx := Function.update s.ctx c ctx }

def setQueue (c : Nat) (q : MessageQueue SkynetMessage) : Node := { s with queue := Function.update s.queue c q }

/-- `skynet_globalmq_push`, where it is called. -/
def globalPush (c : Nat) (called : Bool) : Node := if called then { s with global := s.global ++ [c] } else s

/-- `skynet_globalmq_pop` -/
def globalPop : Option Nat × Node :=
  match s.global with
  | [] => (none, s)
  | c :: global => (some c, { s with global := global })

/-- A handle without a context. -/
def empty : Node where
  ctx _ := ⟨0, false, false⟩
  queue c := { skynet_mq_create c with release := true }
  freed _ := true
  global := []
  handle_index := 1
  sent _ := []
  handled _ := []
  dropped _ := []

/-- `skynet_context_new` up to the init function. -/
def skynet_context_new : Node :=
  let c := s.handle_index
  { ((s.setCtx c ⟨2, true, false⟩).setQueue c (skynet_mq_create c)) with
    freed := Function.update s.freed c false
    handle_index := c + 1 }

/-- `ATOM_DEC` of the count. -/
def decRef (c : Nat) : Node := s.setCtx c { s.ctx c with ref := (s.ctx c).ref - 1 }

def skynet_handle_grab (c : Nat) : Node := s.setCtx c { s.ctx c with ref := (s.ctx c).ref + 1 }

/-- The creator's count of a context that lives on, and `ctx->init`. -/
def launched (c : Nat) : Node := s.setCtx c { s.ctx c with ref := (s.ctx c).ref - 1, init := true }

def retire (c : Nat) : Node := s.setCtx c { s.ctx c with registered := false }

def marked (c : Nat) : Node :=
  (s.setQueue c (s.queue c).skynet_mq_mark_release.1).globalPush c (s.queue c).skynet_mq_mark_release.2

def pushed (c : Nat) (message : SkynetMessage) : Node :=
  { (s.setQueue c ((s.queue c).skynet_mq_push message).1).globalPush c ((s.queue c).skynet_mq_push message).2 with
    sent := Function.update s.sent c (s.sent c ++ [message]) }

def handle (c : Nat) (q : MessageQueue SkynetMessage) (message : SkynetMessage) : Node :=
  { s.setQueue c q with handled := Function.update s.handled c (s.handled c ++ [message]) }

def drop (c : Nat) (q : MessageQueue SkynetMessage) (message : SkynetMessage) : Node :=
  { s.setQueue c q with dropped := Function.update s.dropped c (s.dropped c ++ [message]) }

def free (c : Nat) (q : MessageQueue SkynetMessage) : Node :=
  { s.setQueue c q with freed := Function.update s.freed c true }

/-- One atomic operation: the node after it, and what the thread goes on with. `ok` is the result of an
init function. -/
def exec (ok : Bool) : Op → Node × List Op
  | .create c => (s, if ok then [.launch c] else [.skynet_context_release c, .abandon c])
  | .launch c =>
      if (s.ctx c).ref - 1 = 0 then (s.decRef c, [.delete_context c, .skynet_globalmq_push c])
      else (s.launched c, [.skynet_globalmq_push c])
  | .abandon c =>
      if (s.ctx c).registered then (s.retire c, [.skynet_context_release c, .skynet_mq_release c])
      else (s, [.skynet_mq_release c])
  | .skynet_context_release c =>
      (s.decRef c, if (s.ctx c).ref - 1 = 0 then [.delete_context c] else [])
  | .delete_context c =>
      (s.marked c, [])
  | .skynet_globalmq_push c => (s.globalPush c true, [])
  | .skynet_handle_retire c =>
      if (s.ctx c).registered then (s.retire c, [.skynet_context_release c]) else (s, [])
  | .skynet_context_push c message =>
      if (s.ctx c).registered then (s.skynet_handle_grab c, [.skynet_mq_push c message]) else (s, [])
  | .skynet_mq_push c message => (s.pushed c message, [.skynet_context_release c])
  | .skynet_mq_release c =>
      if (s.queue c).release then (s, [.drop_queue c]) else (s.globalPush c true, [])
  | .drop_queue c =>
      match (s.queue c).skynet_mq_pop with
      | (some message, q) =>
          (s.drop c q message, [.skynet_context_push message.source ⟨c, 0, PTYPE_ERROR⟩, .drop_queue c])
      | (none, q) => (s.free c q, [])
  | .worker weight (some c) => (s, [.dispatch weight c])
  | .worker weight none =>
      match s.globalPop with
      | (some c, s) => (s, [.dispatch weight c])
      | (none, s) => (s, [.worker weight none])
  | .next weight => (s.globalPop.2, [.worker weight s.globalPop.1])
  | .dispatch weight c =>
      if (s.ctx c).registered then (s.skynet_handle_grab c, [.loop weight c 0 1])
      else (s, [.skynet_mq_release c, .next weight])
  | .loop weight c i n =>
      if i < n then
        match (s.queue c).skynet_mq_pop with
        | (none, q) => (s.setQueue c q, [.skynet_context_release c, .next weight])
        | (some message, q) =>
            (s.handle c q message,
              [if i = 0 ∧ weight ≥ 0 then .measure weight c i message else .dispatch_message weight c i n message])
      else
        match s.globalPop with
        | (some nq, s) => (s, [.skynet_globalmq_push c, .skynet_context_release c, .worker weight (some nq)])
        | (none, s) => (s, [.skynet_context_release c, .worker weight (some c)])
  | .measure weight c i message =>
      (s, [.dispatch_message weight c i ((s.queue c).skynet_mq_length >>> weight.toNat) message])
  | .dispatch_message weight c i n _ => (s, [.loop weight c (i + 1) n])

end Node

/-- The node and what each thread has still to do. -/
structure SkynetNode where
  node : Node
  threads : List (List Op)

/-- A thread goes on, a context is created, any code sends a message or retires a handle, a worker starts. -/
inductive NodeAct
  | run (thread : Nat) (ok : Bool)
  | skynet_context_new
  | skynet_context_push (c : Nat) (message : SkynetMessage)
  | skynet_handle_retire (c : Nat)
  | thread_worker (weight : Int)
  deriving DecidableEq, Repr

namespace SkynetNode

def start (s : SkynetNode) (node : Node) (op : Op) : SkynetNode := ⟨node, s.threads ++ [[op]]⟩

def step (s : SkynetNode) : NodeAct → Option SkynetNode
  | .run thread ok =>
      match s.threads[thread]? with
      | some (op :: rest) =>
          some ⟨(s.node.exec ok op).1, s.threads.set thread ((s.node.exec ok op).2 ++ rest)⟩
      | _ => none
  | .skynet_context_new => some (s.start s.node.skynet_context_new (.create s.node.handle_index))
  | .skynet_context_push c message => some (s.start s.node (.skynet_context_push c message))
  | .skynet_handle_retire c => some (s.start s.node (.skynet_handle_retire c))
  | .thread_worker weight => some (s.start s.node (.worker weight none))

end SkynetNode

end HuluLandlord.Skynet
